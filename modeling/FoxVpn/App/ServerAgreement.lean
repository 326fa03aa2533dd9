/-
  FoxVpn.App.ServerAgreement
  ──────────────────────────
  **WHEN THE SCREEN NAMES THE SERVER OF THE SESSION.**

  While the displayed state is Connected the screen reads `connectServer`.
  Two functions assign it: `initServers`, which looks the stored
  `connectIp` up among `foxServers`, and `determineServer`, which draws from
  `foxSmartServers` unless a server is selected.  Connected is posted from
  four places, and none of them assigns it.

  A new UI process that finds the service Connected through a smart server
  displays Connected with the property uninitialised (`ui_unassigned`).
  `ui_agrees`: under `Careful`, which says when a process may begin, when a
  server may be chosen and when `stopVpn` may be called, the screen names
  the server of the running session at every point of every run.
-/
import FoxVpn.App.VpnManager

namespace FoxVpn.App.Device

open FoxVpn.Lib FoxVpn.Database FoxVpn.Bg

/-! ## §1. What is asked, and the condition. -/

/-- Displayed as Connected, the server is assigned, and it is the one of the
running session. -/
def Agreed (d : Device) : Prop :=
  d.ui.state = some .connected → ∃ c, d.ui.connectServer = some c
    ∧ ∀ p, d.host.service.sessionProfile = some p → c.ip = p.host

/-- The hosts of the running session and of the row that a start command in
flight will read. -/
def inUse (d : Device) : List String :=
  (d.host.service.sessionProfile.map (·.host)).toList
    ++ (if d.starts = 0 then none else (d.host.storage.db.get profileId).map (·.host)).toList

/-- No coroutine of `start()` is between its choice and its start
command. -/
def NoneChoosing (d : Device) : Prop :=
  ∀ j < d.ui.nextConnecting, (d.ui.connectingJobs j).choosing = false

instance (d : Device) : Decidable d.NoneChoosing := inferInstanceAs (Decidable (∀ _ < _, _))

/-- `initServers` finds the stored ip. -/
def Listed (ip : String) (foxServers : List ServerItem) : Prop :=
  ip ≠ "" ∧ ∃ i ∈ foxServers, i.ip = ip

instance (ip : String) (foxServers : List ServerItem) : Decidable (Listed ip foxServers) :=
  inferInstanceAs (Decidable (_ ∧ _))

/-- A step that cannot bring the two sides apart. -/
def Careful (d : Device) : Label → Prop
  -- a new process finds the server in use by the stored ip
  | .process foxServers _ =>
      ∀ host ∈ d.inUse, host = d.connectIp ∧ Listed d.connectIp foxServers
  | .init =>
      Listed d.connectIp d.foxServers →
        d.NoneChoosing ∧ ∀ host ∈ d.inUse, host = d.connectIp
  -- a server is chosen while nothing else is going on
  | .determine _ _ => d.host.service.state = .stopped ∧ d.starts = 0 ∧ d.NoneChoosing
  | .stopVpn => d.ui.state = some .connected
  | _ => True

instance (d : Device) : DecidablePred d.Careful
  | .process _ _ => inferInstanceAs (Decidable (∀ _ ∈ _, _))
  | .init => inferInstanceAs (Decidable (_ → _))
  | .determine _ _ => inferInstanceAs (Decidable (_ ∧ _))
  | .stopVpn => inferInstanceAs (Decidable (_ = _))
  | .remoteConfig _ _ | .select _ | .startVpn | .start | .connecting _ | .disconnecting _
  | .stopService _ | .showAd _ | .dismiss | .onStop | .registerCallback | .onServiceConnected
  | .onServiceDisconnected | .stateChanged _ | .resultShown | .flush | .deliverClose
  | .deliverStart | .service _ => isTrue trivial

/-! ## §2. The invariant. -/

/-- The row of the profile is of the assigned server. -/
def RowHost (st : Storage) (server : Option ServerItem) : Prop :=
  ∃ c row, server = some c ∧ st.db.get profileId = some row ∧ c.ip = row.host

/-- The service, the start commands in flight and the coroutines of
`start()` agree with the assigned server. -/
structure Agrees (h : Host) (starts next : Nat) (jobs : Nat → ConnectingJob)
    (server : Option ServerItem) : Prop where
  boot : h.storage.directBootAware = false
  phase : ∃ ph, h.service.InPhase ph
  session : ∀ p, h.service.sessionProfile = some p → ∃ c, server = some c ∧ c.ip = p.host
  known : ∀ j, next ≤ j → (jobs j).pc = .over
  one : starts ≤ 1
  alone : ∀ j, (jobs j).choosing = true → starts = 0 ∧ ∀ i, (jobs i).choosing = true → i = j
  /-- Until the start command arrives nothing writes the row. -/
  stopped : (starts ≠ 0 ∨ ∃ j, (jobs j).choosing = true) → h.service.state = .stopped
  assigned : ∀ j, (jobs j).choosing = true → server ≠ none
  updating : ∀ j row, (jobs j).pc = .updating row →
    row.id = profileId ∧ ∃ c, server = some c ∧ c.ip = row.host
  row : (starts ≠ 0 ∨ ∃ j, (jobs j).choosing = true ∧ (jobs j).pc = .written) →
    RowHost h.storage server

/-- Nothing in the UI process shows Connected or will. -/
structure Dark (m : VpnManager) (sent : List StateChanged) : Prop where
  state : m.state ≠ some .connected ∧ m.state ≠ some .stopping
  posted : m.posted ≠ some .connected ∧ m.posted ≠ some .stopping
  checked : ∀ j, (m.connectingJobs j).pc ≠ .checked
  launched : ∀ j, (m.disconnectingJobs j).pc ≠ .launched
  results : m.resultJobs = 0
  inbox : ∀ n, m.seen = some n → ∀ e ∈ sent.drop n, e.state ≠ .connected

structure Inv (d : Device) : Prop where
  agrees : Agrees d.host d.starts d.ui.nextConnecting d.ui.connectingJobs d.ui.connectServer
  dark : d.ui.connectServer = none → Dark d.ui d.host.service.sent

theorem Inv.agreed {d : Device} (h : d.Inv) : d.Agreed := by
  intro hst
  cases hc : d.ui.connectServer with
  | none => exact absurd hst (h.dark hc).state.1
  | some c =>
      refine ⟨c, rfl, fun p hp => ?_⟩
      obtain ⟨c', hc', hip⟩ := h.agrees.session p hp
      rw [hc] at hc'
      rw [Option.some.inj hc']
      exact hip

/-! ## §3. The coroutines of `start()`. -/

section Agrees

variable {h : Host} {starts next : Nat} {jobs : Nat → ConnectingJob} {server : Option ServerItem}

theorem choosing_of_updating {j : ConnectingJob} {row : Profile} (h : j.pc = .updating row) :
    j.choosing = true := by
  unfold ConnectingJob.choosing
  rw [h]

/-- The coroutines that have not been launched stay over. -/
theorem Agrees.known_update (ha : Agrees h starts next jobs server) {j : Nat} {job : ConnectingJob}
    (hj : next ≤ j → job.pc = .over) : ∀ i, next ≤ i → (Function.update jobs j job i).pc = .over :=
  (Function.forall_update_iff jobs fun i x => next ≤ i → x.pc = .over).mpr
    ⟨hj, fun i _ => ha.known i⟩

/-- If no other coroutine is choosing, none is after `j` has moved. -/
theorem choosing_update (j : Nat) (job : ConnectingJob)
    (hone : ∀ i, (jobs i).choosing = true → i = j) :
    ∀ i, (Function.update jobs j job i).choosing = true → i = j :=
  (Function.forall_update_iff jobs fun i x => x.choosing = true → i = j).mpr
    ⟨fun _ => rfl, fun i _ => hone i⟩

/-- A coroutine goes on outside the stretch from the choice to the start
command, or is cancelled. -/
theorem Agrees.move (ha : Agrees h starts next jobs server) {j : Nat} {job : ConnectingJob}
    (hknown : next ≤ j → job.pc = .over)
    (hch : job.choosing = true → (jobs j).choosing = true ∧ job.pc = (jobs j).pc) :
    Agrees h starts next (Function.update jobs j job) server := by
  have hold : ∀ i, (Function.update jobs j job i).choosing = true →
      (jobs i).choosing = true ∧ (Function.update jobs j job i).pc = (jobs i).pc := by
    refine (Function.forall_update_iff jobs fun i x =>
      x.choosing = true → (jobs i).choosing = true ∧ x.pc = (jobs i).pc).mpr ⟨hch, ?_⟩
    exact fun i _ hi => ⟨hi, rfl⟩
  refine ⟨ha.boot, ha.phase, ha.session, ha.known_update hknown, ha.one, fun i hi => ?_, ?_,
    fun i hi => ha.assigned i (hold i hi).1, fun i row hi => ?_, ?_⟩
  · obtain ⟨hs, hone⟩ := ha.alone i (hold i hi).1
    exact ⟨hs, fun i' hi' => hone i' (hold i' hi').1⟩
  · rintro (hs | ⟨i, hi⟩)
    · exact ha.stopped (Or.inl hs)
    · exact ha.stopped (Or.inr ⟨i, (hold i hi).1⟩)
  · have hpc := (hold i (choosing_of_updating hi)).2
    exact ha.updating i row (hpc.symm.trans hi)
  · rintro (hs | ⟨i, hi, hpc⟩)
    · exact ha.row (Or.inl hs)
    · obtain ⟨hi', hpc'⟩ := hold i hi
      exact ha.row (Or.inr ⟨i, hi', hpc'.symm.trans hpc⟩)

/-- The coroutine that has chosen works on the row; it is the only one. -/
theorem Agrees.advance (ha : Agrees h starts next jobs server) {j : Nat} {job : ConnectingJob}
    {st : Storage} (hj : (jobs j).choosing = true) (hboot : st.directBootAware = false)
    (hupd : ∀ row, job.pc = .updating row →
      row.id = profileId ∧ ∃ c, server = some c ∧ c.ip = row.host)
    (hrow : job.pc = .written → RowHost st server) :
    Agrees { h with storage := st } starts next (Function.update jobs j job) server := by
  obtain ⟨hs, hone⟩ := ha.alone j hj
  have hother := choosing_update j job hone
  have hlt : ¬ next ≤ j := by
    intro hle
    have := ha.known j hle
    unfold ConnectingJob.choosing at hj
    rw [this] at hj
    exact absurd hj Bool.false_ne_true
  refine ⟨hboot, ha.phase, ha.session, ha.known_update fun hle => absurd hle hlt, ha.one,
    fun i hi => ⟨hs, fun i' hi' => ?_⟩, fun _ => ha.stopped (Or.inr ⟨j, hj⟩),
    fun _ _ => ha.assigned j hj, fun i row hi => ?_, ?_⟩
  · rw [hother i hi, hother i' hi']
  · obtain rfl := hother i (choosing_of_updating hi)
    rw [Function.update_self] at hi
    exact hupd row hi
  · rintro (h0 | ⟨i, hi, hpc⟩)
    · exact absurd hs h0
    · obtain rfl := hother i hi
      rw [Function.update_self] at hpc
      exact hrow hpc

/-- The start command is sent. -/
theorem Agrees.send (ha : Agrees h starts next jobs server) {j : Nat}
    (hj : (jobs j).choosing = true) (hpc : (jobs j).pc = .written) :
    Agrees h (starts + 1) next (Function.update jobs j { jobs j with pc := .over }) server := by
  obtain ⟨hs, hone⟩ := ha.alone j hj
  have hnone : ∀ i, (Function.update jobs j { jobs j with pc := .over } i).choosing ≠ true := by
    refine (Function.forall_update_iff jobs fun _ x => x.choosing ≠ true).mpr ⟨?_, ?_⟩
    · exact Bool.false_ne_true
    · exact fun i hij hi => hij (hone i hi)
  refine ⟨ha.boot, ha.phase, ha.session, ha.known_update fun _ => rfl, by omega,
    fun i hi => absurd hi (hnone i), fun _ => ha.stopped (Or.inr ⟨j, hj⟩),
    fun i hi => absurd hi (hnone i), fun i row hi => absurd (choosing_of_updating hi) (hnone i),
    fun _ => ha.row (Or.inr ⟨j, hj, hpc⟩)⟩

/-- A server is assigned while nothing runs, is in flight or is being
chosen. -/
theorem Agrees.choose (ha : Agrees h starts next jobs server) {j : Nat} (hj : j < next)
    (hst : h.service.state = .stopped) (hs : starts = 0)
    (hnone : ∀ i < next, (jobs i).choosing = false) (c : ServerItem) :
    Agrees h starts next (Function.update jobs j { jobs j with pc := .assigned }) (some c) := by
  have hold : ∀ i, (jobs i).choosing ≠ true := by
    intro i hi
    by_cases hlt : i < next
    · exact absurd ((hnone i hlt).symm.trans hi) Bool.false_ne_true
    · unfold ConnectingJob.choosing at hi
      rw [ha.known i (by omega)] at hi
      exact absurd hi Bool.false_ne_true
  have hother := choosing_update j { jobs j with pc := .assigned } fun i hi => absurd hi (hold i)
  have hpc : (Function.update jobs j { jobs j with pc := .assigned } j).pc = .assigned := by
    rw [Function.update_self]
  refine ⟨ha.boot, ha.phase, fun p hp => ?_, fun i hi => ?_, ha.one,
    fun i hi => ⟨hs, fun i' hi' => ?_⟩, fun _ => hst, fun _ _ => by simp, fun i row hi => ?_, ?_⟩
  · exact absurd (hp.symm.trans (Service.sessionProfile_stopped hst)) (by simp)
  · rw [Function.update_of_ne (by omega)]
    exact ha.known i hi
  · rw [hother i hi, hother i' hi']
  · obtain rfl := hother i (choosing_of_updating hi)
    exact absurd (hpc.symm.trans hi) (by simp)
  · rintro (h0 | ⟨i, hi, hw⟩)
    · exact absurd hs h0
    · obtain rfl := hother i hi
      exact absurd (hpc.symm.trans hw) (by simp)

/-! ## §4. The service. -/

/-- A step of the service that is not a start command. -/
theorem Agrees.host_step {decode : String → Option Nat} {h' : Host} {l : Service.Label}
    (ha : Agrees h starts next jobs server) (hs : h.step decode l = some h')
    (hstart : ∀ e, l ≠ .startCommand e)
    (hstay : h.service.state = .stopped → h'.service.state = .stopped) :
    Agrees h' starts next jobs server := by
  obtain ⟨ph, hph⟩ := ha.phase
  obtain ⟨_, hservice, hstore⟩ := Host.step_spec hs
  obtain ⟨ph', hph', _⟩ := Service.step_follows hph hservice
  have hsession : ∀ p, h'.service.sessionProfile = some p → h.service.sessionProfile = some p := by
    intro p hp
    rcases (Service.step_outcome hph hservice).session p hp with hp | ⟨_, e, he, _⟩
    · exact hp
    · exact absurd he (hstart _)
  -- a write belongs to a stop, so a Stopped service leaves the row alone
  have hstorage : h.service.state = .stopped → h'.storage = h.storage := by
    intro hst
    refine Host.storage_of_not_write hs ?_
    cases hw : h.writes l with
    | none => rfl
    | some row =>
        obtain ⟨k, _, rfl, _⟩ := Host.cleaning_of_writes hph hw
        exact absurd (hst.symm.trans hph.1) (by decide)
  refine ⟨(Host.store_frame hstore).2.trans ha.boot, ⟨ph', hph'⟩,
    fun p hp => ha.session p (hsession p hp), ha.known, ha.one, ha.alone,
    fun hw => hstay (ha.stopped hw), ha.assigned, ha.updating, fun hw => ?_⟩
  rw [hstorage]
  · exact ha.row hw
  · rcases hw with hs | ⟨j, hj, _⟩
    · exact ha.stopped (Or.inl hs)
    · exact ha.stopped (Or.inr ⟨j, hj⟩)

/-- The start command arrives: the session is of the row. -/
theorem Agrees.deliverStart {decode : String → Option Nat} {h' : Host}
    {e : Option ExpandedProfile} (ha : Agrees h starts next jobs server) (hpos : 0 < starts)
    (hs : h.step decode (.startCommand e) = some h') :
    Agrees h' (starts - 1) next jobs server := by
  obtain ⟨ph, hph⟩ := ha.phase
  obtain ⟨hread, hservice, hstore⟩ := Host.step_spec hs
  obtain ⟨ph', hph', _⟩ := Service.step_follows hph hservice
  have hstorage : h'.storage = h.storage := Host.storage_of_not_write hs rfl
  have h0 : starts - 1 = 0 := by have := ha.one; omega
  have hnone : ∀ j, (jobs j).choosing ≠ true := fun j hj =>
    absurd (ha.alone j hj).1 (by omega)
  refine ⟨hstorage ▸ ha.boot, ⟨ph', hph'⟩, fun p hp => ?_, ha.known, by omega,
    fun j hj => absurd hj (hnone j), ?_, ha.assigned, ha.updating, ?_⟩
  · rcases (Service.step_outcome hph hservice).session p hp with hp | ⟨_, x, hx, hpx⟩
    · exact ha.session p hp
    · obtain ⟨c, row, hc, hget, hip⟩ := ha.row (Or.inl (by omega))
      injection hx with hx
      have hmain : h.storage.db.get profileId = some x.main := by
        refine Host.currentProfile_main ha.boot ?_
        rw [← hx]
        exact hread
      refine ⟨c, hc, ?_⟩
      rw [hpx, hip, Option.some.inj (hget.symm.trans hmain)]
  · rintro (hs | ⟨j, hj⟩)
    · exact absurd h0 hs
    · exact absurd hj (hnone j)
  · rintro (hs | ⟨j, hj, _⟩)
    · exact absurd h0 hs
    · exact absurd hj (hnone j)

/-- A new view model, or a new activity: the server in use is the one that
is looked up. -/
theorem Agrees.rebind (ha : Agrees h starts next jobs server) {c : ServerItem} {next' : Nat}
    {jobs' : Nat → ConnectingJob} (hknown : ∀ j, next' ≤ j → (jobs' j).pc = .over)
    (hnone : ∀ j, (jobs' j).choosing ≠ true)
    (hsession : ∀ p, h.service.sessionProfile = some p → c.ip = p.host)
    (hrow : starts ≠ 0 → ∀ row, h.storage.db.get profileId = some row → c.ip = row.host) :
    Agrees h starts next' jobs' (some c) := by
  refine ⟨ha.boot, ha.phase, fun p hp => ⟨c, rfl, hsession p hp⟩, hknown, ha.one,
    fun j hj => absurd hj (hnone j), ?_, fun _ _ => by simp,
    fun j row hj => absurd (choosing_of_updating hj) (hnone j), ?_⟩
  · rintro (hs | ⟨j, hj⟩)
    · exact ha.stopped (Or.inl hs)
    · exact absurd hj (hnone j)
  · rintro (hs | ⟨j, hj, _⟩)
    · obtain ⟨_, row, _, hget, _⟩ := ha.row (Or.inl hs)
      exact ⟨c, row, rfl, hget, hrow hs row hget⟩
    · exact absurd hj (hnone j)

/-- A new view model while nothing is in use. -/
theorem Agrees.fresh (ha : Agrees h starts next jobs server)
    (hsession : h.service.sessionProfile = none) (hs : starts = 0) (server' : Option ServerItem) :
    Agrees h starts 0 (fun _ => {}) server' := by
  have hnone : ∀ j : Nat, ((fun _ => {} : Nat → ConnectingJob) j).choosing ≠ true :=
    fun _ => Bool.false_ne_true
  refine ⟨ha.boot, ha.phase, fun p hp => absurd (hp.symm.trans hsession) (by simp), fun _ _ => rfl,
    ha.one, fun j hj => absurd hj (hnone j), ?_, fun j hj => absurd hj (hnone j),
    fun j row hj => absurd (choosing_of_updating hj) (hnone j), ?_⟩
  · rintro (h0 | ⟨j, hj⟩)
    · exact absurd hs h0
    · exact absurd hj (hnone j)
  · rintro (h0 | ⟨j, hj, _⟩)
    · exact absurd hs h0
    · exact absurd hj (hnone j)

end Agrees

/-! ## §5. What the screen shows. -/

section Dark

variable {m : VpnManager} {sent : List StateChanged}

/-- A change of anything else. -/
theorem Dark.congr (hd : Dark m sent) {m' : VpnManager} (hst : m'.state = m.state)
    (hp : m'.posted = m.posted) (hc : m'.connectingJobs = m.connectingJobs)
    (hl : m'.disconnectingJobs = m.disconnectingJobs) (hr : m'.resultJobs = m.resultJobs)
    (hs : m'.seen = m.seen ∨ m'.seen = none) : Dark m' sent where
  state := by rw [hst]; exact hd.state
  posted := by rw [hp]; exact hd.posted
  checked j := by rw [hc]; exact hd.checked j
  launched j := by rw [hl]; exact hd.launched j
  results := by rw [hr]; exact hd.results
  inbox n hn := by
    rcases hs with hs | hs
    · rw [hs] at hn
      exact hd.inbox n hn
    · exact absurd (hs.symm.trans hn) (by simp)

theorem Dark.postValue (hd : Dark m sent) {st : State} (h1 : st ≠ .connected)
    (h2 : st ≠ .stopping) : Dark (m.postValue st) sent :=
  { hd with posted := ⟨fun h => h1 (Option.some.inj h), fun h => h2 (Option.some.inj h)⟩ }

theorem Dark.setConnecting (hd : Dark m sent) (j : Nat) (job : ConnectingJob)
    (hj : job.pc ≠ .checked) : Dark (m.setConnecting j job) sent :=
  { hd with
    checked := (Function.forall_update_iff m.connectingJobs fun _ x => x.pc ≠ .checked).mpr
      ⟨hj, fun i _ => hd.checked i⟩ }

theorem Dark.setDisconnecting (hd : Dark m sent) (j : Nat) (job : DisconnectingJob)
    (hj : job.pc ≠ .launched) : Dark (m.setDisconnecting j job) sent :=
  { hd with
    launched := (Function.forall_update_iff m.disconnectingJobs fun _ x => x.pc ≠ .launched).mpr
      ⟨hj, fun i _ => hd.launched i⟩ }

/-- A step of the service that does not connect. -/
theorem Dark.broadcasts {s s' : Service} (hd : Dark m s.sent) (hb : s.Broadcasts s')
    (hne : s'.state ≠ .connected) : Dark m s'.sent := by
  refine ⟨hd.state, hd.posted, hd.checked, hd.launched, hd.results, fun n hn e he => ?_⟩
  rcases hb with hsame | ⟨x, hx, hst⟩
  · rw [hsame] at he
    exact hd.inbox n hn e he
  · rw [hx, List.drop_append, List.mem_append] at he
    rcases he with he | he
    · exact hd.inbox n hn e he
    · rw [List.mem_singleton.mp (List.mem_of_mem_drop he), hst]
      exact hne

/-- A process that has just begun. -/
theorem dark_new (m : VpnManager) (hst : m.state = none) (hp : m.posted = none)
    (hc : m.connectingJobs = fun _ => {}) (hl : m.disconnectingJobs = fun _ => {})
    (hr : m.resultJobs = 0) (hs : m.seen = none) : Dark m sent := by
  refine ⟨?_, ?_, ?_, ?_, hr, fun n hn => absurd (hs.symm.trans hn) (by simp)⟩
  · rw [hst]; simp
  · rw [hp]; simp
  · intro j; rw [hc]; simp
  · intro j; rw [hl]; simp

end Dark

/-! ## §6. The steps of the UI. -/

/-- With no server assigned the service is not Connected. -/
theorem Agrees.not_connected {h : Host} {starts next : Nat} {jobs : Nat → ConnectingJob}
    (ha : Agrees h starts next jobs none) : h.service.state ≠ .connected := by
  intro hst
  obtain ⟨ph, hph⟩ := ha.phase
  obtain rfl := hph.of_connected hst
  obtain ⟨p, hp⟩ := Option.isSome_iff_exists.mp hph.sessionProfile_isSome
  obtain ⟨c, hc, _⟩ := ha.session p hp
  exact absurd hc (by simp)

/-- A step that leaves the service, the coroutines of `start()` and the
assigned server alone. -/
theorem Inv.of_ui {d d' : Device} (h : d.Inv) (hhost : d'.host = d.host)
    (hstarts : d'.starts = d.starts) (hnext : d'.ui.nextConnecting = d.ui.nextConnecting)
    (hjobs : d'.ui.connectingJobs = d.ui.connectingJobs)
    (hserver : d'.ui.connectServer = d.ui.connectServer)
    (hdark : d.ui.connectServer = none → Dark d.ui d.host.service.sent →
      Dark d'.ui d.host.service.sent) : d'.Inv where
  agrees := by
    rw [hhost, hstarts, hnext, hjobs, hserver]
    exact h.agrees
  dark hc := by
    rw [hserver] at hc
    rw [hhost]
    exact hdark hc (h.dark hc)

theorem not_over {h : Host} {starts next : Nat} {jobs : Nat → ConnectingJob}
    {server : Option ServerItem} (ha : Agrees h starts next jobs server) {j : Nat}
    (hj : (jobs j).pc ≠ .over) : ¬ next ≤ j := fun hle => hj (ha.known j hle)

/-- A coroutine of `start()` goes on, outside the choice. -/
theorem Inv.setConnecting {d : Device} (h : d.Inv) (j : Nat) (pc : ConnectingPc)
    (hj : (d.ui.connectingJobs j).pc ≠ .over)
    (hch : ({ d.ui.connectingJobs j with pc := pc } : ConnectingJob).choosing = false)
    (hck : d.ui.state ≠ some .connected → pc ≠ .checked) : (d.setConnecting j pc).Inv where
  agrees := h.agrees.move (fun hle => absurd hle (not_over h.agrees hj))
    fun hbad => absurd (hch.symm.trans hbad) Bool.false_ne_true
  dark hc := (h.dark hc).setConnecting j _ (hck (h.dark hc).state.1)

theorem Inv.cancelConnecting {d : Device} (h : d.Inv) :
    Inv { d with ui := d.ui.cancelConnecting } := by
  cases hjob : d.ui.connectingJob with
  | none =>
      have hsame : d.ui.cancelConnecting = d.ui := by
        unfold VpnManager.cancelConnecting
        rw [hjob]
      rw [hsame]
      exact h
  | some j =>
      have hsame : d.ui.cancelConnecting
          = d.ui.setConnecting j { d.ui.connectingJobs j with cancelled := true } := by
        unfold VpnManager.cancelConnecting
        rw [hjob]
      rw [hsame]
      refine ⟨h.agrees.move (h.agrees.known j) fun hch => ?_,
        fun hc => (h.dark hc).setConnecting j _ ((h.dark hc).checked j)⟩
      -- a cancelled coroutine still chooses up to its next suspension
      refine ⟨?_, rfl⟩
      unfold ConnectingJob.choosing at hch ⊢
      split at hch
      next hpc => rw [show (d.ui.connectingJobs j).pc = .assigned from hpc]
      next row hpc => rw [show (d.ui.connectingJobs j).pc = .updating row from hpc]
      next => exact absurd hch Bool.false_ne_true
      next => exact absurd hch Bool.false_ne_true

theorem Inv.postValue {d : Device} (h : d.Inv) {st : State} (h1 : st ≠ .connected)
    (h2 : st ≠ .stopping) : (d.postValue st).Inv :=
  h.of_ui rfl rfl rfl rfl rfl fun _ hd => hd.postValue h1 h2

/-- Once a server is assigned anything may be posted. -/
theorem Inv.postValue_assigned {d : Device} (h : d.Inv) (hc : d.ui.connectServer ≠ none)
    (st : State) : (d.postValue st).Inv :=
  h.of_ui rfl rfl rfl rfl rfl fun hnone => absurd hnone hc

theorem Inv.start {d : Device} (h : d.Inv) : Inv { d with ui := d.ui.start } := by
  have hc := h.cancelConnecting
  refine ⟨?_, fun hnone => ?_⟩
  · have hnext : Agrees d.host d.starts (d.ui.cancelConnecting.nextConnecting + 1)
        d.ui.cancelConnecting.connectingJobs d.ui.cancelConnecting.connectServer :=
      { hc.agrees with known := fun j hj => hc.agrees.known j (Nat.le_of_succ_le hj) }
    exact hnext.move (fun hle => absurd hle (by omega))
      fun hch => absurd hch Bool.false_ne_true
  · exact ((hc.dark hnone).setConnecting d.ui.cancelConnecting.nextConnecting
      { pc := .launched } (by simp)).congr rfl rfl rfl rfl rfl (Or.inl rfl)

/-- The coroutine that has chosen a server reads and writes the row. -/
theorem Inv.advance {d : Device} (h : d.Inv) {j : Nat} {pc : ConnectingPc} {st : Storage}
    (hj : (d.ui.connectingJobs j).choosing = true) (hboot : st.directBootAware = false)
    (hupd : ∀ row, pc = .updating row →
      row.id = profileId ∧ ∃ c, d.ui.connectServer = some c ∧ c.ip = row.host)
    (hrow : pc = .written → RowHost st d.ui.connectServer) :
    Inv { d.setConnecting j pc with host := { d.host with storage := st } } where
  agrees := h.agrees.advance hj hboot hupd hrow
  dark hnone := absurd hnone (h.agrees.assigned j hj)

theorem Inv.connectingStep {d d' : Device} (h : d.Inv) {j : Nat}
    (hs : d.connectingStep j = some d') : d'.Inv := by
  unfold Device.connectingStep at hs
  dsimp only at hs
  split at hs
  next hpc =>
    split at hs
    next => exact absurd hs (by simp)
    next =>
      injection hs with hs
      subst hs
      refine h.setConnecting j _ (by rw [hpc]; simp) ?_ fun hne => ?_
      · split <;> rfl
      · rw [if_neg hne]
        simp
  next hpc =>
    -- the coroutine has seen Connected, so a server is assigned
    injection hs with hs
    subst hs
    have hset := h.setConnecting j .closing (by rw [hpc]; simp) rfl fun _ => by simp
    exact hset.postValue_assigned (fun hnone => (h.dark hnone).checked j hpc) _
  next hpc =>
    split at hs
    next => exact absurd hs (by simp)
    next =>
      injection hs with hs
      subst hs
      have hset := h.setConnecting j .closed (by rw [hpc]; simp) rfl fun _ => by simp
      exact hset.of_ui rfl rfl rfl rfl rfl fun _ hd => hd
  next hpc =>
    split at hs
    next => exact absurd hs (by simp)
    next =>
      injection hs with hs
      subst hs
      exact h.setConnecting j _ (by rw [hpc]; simp) rfl fun _ => by simp
  next hpc =>
    injection hs with hs
    subst hs
    exact (h.setConnecting j _ (by rw [hpc]; simp) rfl fun _ => by simp).postValue (by decide)
      (by decide)
  next => exact absurd hs (by simp)
  next hpc =>
    have hj : (d.ui.connectingJobs j).choosing = true := by
      unfold ConnectingJob.choosing
      rw [hpc]
    split at hs
    next => exact absurd hs (by simp)
    next c hc =>
      split at hs
      next => exact absurd hs (by simp)
      next p st hfetch =>
        injection hs with hs
        subst hs
        obtain ⟨hid, hboot⟩ := Core.fetchRow_spec hfetch
        refine h.advance hj (hboot.trans h.agrees.boot) ?_ (by simp)
        intro row' hrow'
        injection hrow' with hrow'
        rw [← hrow']
        exact ⟨hid, c, hc, rfl⟩
  next row hpc =>
    split at hs
    next => exact absurd hs (by simp)
    next st hst =>
      injection hs with hs
      subst hs
      obtain ⟨hid, c, hc, hip⟩ := h.agrees.updating j row hpc
      refine h.advance (choosing_of_updating hpc) ?_ (by simp) fun _ => ?_
      · obtain ⟨rfl, _⟩ := updateProfile_ok hst
        exact h.agrees.boot
      · refine ⟨c, row.toRow, hc, ?_, hip⟩
        rw [get_updateProfile hst, if_pos hid.symm]
  next hpc =>
    split at hs
    next => exact absurd hs (by simp)
    next hcancel =>
      injection hs with hs
      subst hs
      have hj : (d.ui.connectingJobs j).choosing = true := by
        unfold ConnectingJob.choosing
        rw [hpc]
        simp [hcancel]
      exact ⟨h.agrees.send hj hpc, fun hnone => absurd hnone (h.agrees.assigned j hj)⟩
  next => exact absurd hs (by simp)

theorem Inv.determineServer {d : Device} (h : d.Inv) {j : Nat}
    (hpc : (d.ui.connectingJobs j).pc = .determining) (hst : d.host.service.state = .stopped)
    (hs : d.starts = 0) (hnone : d.NoneChoosing) (i : ServerItem) :
    (d.determineServer j i).Inv where
  agrees := by
    refine h.agrees.choose ?_ hst hs hnone i
    have := not_over h.agrees (j := j) (by rw [hpc]; simp)
    omega
  dark hc := absurd hc (by simp [Device.determineServer])

theorem Inv.onStop {d : Device} (h : d.Inv) : Inv { d with ui := d.ui.onStop d.connectIp } := by
  have hstop : Inv { d with ui := { d.ui with stop := false } } :=
    h.of_ui rfl rfl rfl rfl rfl fun _ hd => hd.congr rfl rfl rfl rfl rfl (Or.inl rfl)
  unfold VpnManager.onStop
  dsimp only
  split
  next hst =>
    -- Stopping is displayed only with a server assigned
    have hserver : d.ui.connectServer ≠ none := fun hnone => (h.dark hnone).state.2 hst
    have hsame : ∀ m : VpnManager, m.cancelDisconnecting.connectServer = m.connectServer
        ∧ m.cancelDisconnecting.connectingJobs = m.connectingJobs
        ∧ m.cancelDisconnecting.nextConnecting = m.nextConnecting := by
      intro m
      unfold VpnManager.cancelDisconnecting
      split <;> exact ⟨rfl, rfl, rfl⟩
    obtain ⟨hc, hj, hn⟩ := hsame { d.ui with stop := false }
    exact hstop.of_ui rfl rfl hn hj hc fun hnone => absurd hnone hserver
  next =>
    split
    next => exact hstop.cancelConnecting.postValue (by decide) (by decide)
    next => exact hstop

theorem Inv.stopVpn {d : Device} (h : d.Inv) (hst : d.ui.state = some .connected) :
    Inv { d with ui := d.ui.stopVpn } := by
  have hserver : d.ui.connectServer ≠ none := fun hnone => (h.dark hnone).state.1 hst
  have hsame : d.ui.stopVpn.connectServer = d.ui.connectServer
      ∧ d.ui.stopVpn.connectingJobs = d.ui.connectingJobs
      ∧ d.ui.stopVpn.nextConnecting = d.ui.nextConnecting := by
    unfold VpnManager.stopVpn VpnManager.cancelDisconnecting
    split
    next => exact ⟨rfl, rfl, rfl⟩
    next => dsimp only; split <;> exact ⟨rfl, rfl, rfl⟩
  exact h.of_ui rfl rfl hsame.2.2 hsame.2.1 hsame.1 fun hnone => absurd hnone hserver

/-! ## §7. A new process and a new activity. -/

theorem mem_inUse_session {d : Device} {p : Profile} (hp : d.host.service.sessionProfile = some p) :
    p.host ∈ d.inUse := by
  unfold inUse
  rw [hp]
  exact List.mem_append_left _ (List.mem_singleton.mpr rfl)

theorem mem_inUse_row {d : Device} {row : Profile} (hs : d.starts ≠ 0)
    (hrow : d.host.storage.db.get profileId = some row) : row.host ∈ d.inUse := by
  unfold inUse
  rw [if_neg hs, hrow]
  exact List.mem_append_right _ (List.mem_singleton.mpr rfl)

/-- Nothing in use: no session, no start command in flight. -/
theorem Inv.idle {d : Device} (h : d.Inv) (hfree : d.inUse = []) :
    d.host.service.sessionProfile = none ∧ d.starts = 0 := by
  have hmem : ∀ host, host ∉ d.inUse := fun host => by rw [hfree]; simp
  constructor
  · cases hp : d.host.service.sessionProfile with
    | none => rfl
    | some p => exact absurd (mem_inUse_session hp) (hmem _)
  · by_contra hs
    obtain ⟨_, row, _, hget, _⟩ := h.agrees.row (Or.inl hs)
    exact absurd (mem_inUse_row hs hget) (hmem _)

/-- The assigned server after `initServers` on a new view model. -/
theorem Inv.process {d : Device} (h : d.Inv) {foxServers : List ServerItem} {ui : VpnManager}
    (hcare : ∀ host ∈ d.inUse, host = d.connectIp ∧ Listed d.connectIp foxServers)
    (hui : ({} : VpnManager).initServers d.connectIp foxServers = some ui)
    (foxSmartServers : List ServerItem) : Inv { d with ui, foxServers, foxSmartServers } := by
  -- without a listed ip nothing is in use, and any server will do
  have hfree : ¬ Listed d.connectIp foxServers →
      ∀ server, Agrees d.host d.starts 0 (fun _ => {}) server := by
    intro hno server
    obtain ⟨hsession, hs⟩ := h.idle (List.eq_nil_iff_forall_not_mem.mpr fun host hhost =>
      hno (hcare host hhost).2)
    exact h.agrees.fresh hsession hs server
  unfold VpnManager.initServers at hui
  split at hui
  next hip =>
    split at hui
    next => exact absurd hui (by simp)
    next =>
      injection hui with hui
      subst hui
      exact ⟨hfree (fun hl => hl.1 hip) none, fun _ => dark_new _ rfl rfl rfl rfl rfl rfl⟩
  next hip =>
    injection hui with hui
    subst hui
    refine ⟨?_, fun _ => dark_new _ rfl rfl rfl rfl rfl rfl⟩
    show Agrees d.host d.starts 0 (fun _ => {})
      (matching d.connectIp none (buildAllServer foxServers))
    rcases matching_buildAllServer d.connectIp none foxServers with ⟨hno, _⟩ | ⟨_, i, hi, hiip⟩
    · exact hfree (fun ⟨_, x, hx, hxip⟩ => hno x hx hxip) _
    · rw [hi]
      refine h.agrees.rebind (fun _ _ => rfl) (fun _ => Bool.false_ne_true) (fun p hp => ?_)
        fun hs row hrow => ?_
      · rw [hiip]
        exact (hcare _ (mem_inUse_session hp)).1.symm
      · rw [hiip]
        exact (hcare _ (mem_inUse_row hs hrow)).1.symm

theorem Inv.init {d : Device} (h : d.Inv) {ui : VpnManager}
    (hcare : Listed d.connectIp d.foxServers →
      d.NoneChoosing ∧ ∀ host ∈ d.inUse, host = d.connectIp)
    (hui : { d.ui with seen := none }.initServers d.connectIp d.foxServers = some ui) :
    Inv { d with ui } := by
  have hdark : d.ui.connectServer = none → ∀ m : VpnManager, m.state = d.ui.state →
      m.posted = d.ui.posted → m.connectingJobs = d.ui.connectingJobs →
      m.disconnectingJobs = d.ui.disconnectingJobs → m.resultJobs = d.ui.resultJobs →
      m.seen = none → Dark m d.host.service.sent := by
    intro hnone m hst hp hc hl hr hs
    exact (h.dark hnone).congr hst hp hc hl hr (Or.inr hs)
  unfold VpnManager.initServers at hui
  split at hui
  next =>
    split at hui
    next => exact absurd hui (by simp)
    next =>
      injection hui with hui
      subst hui
      exact h.of_ui rfl rfl rfl rfl rfl fun hnone _ => hdark hnone _ rfl rfl rfl rfl rfl rfl
  next hip =>
    injection hui with hui
    subst hui
    rcases matching_buildAllServer d.connectIp d.ui.connectServer d.foxServers with
      ⟨_, hsame⟩ | ⟨⟨x, hx, hxip⟩, i, hi, hiip⟩
    · exact h.of_ui rfl rfl rfl rfl hsame fun hnone _ => hdark hnone _ rfl rfl rfl rfl rfl rfl
    · obtain ⟨hnone, huse⟩ := hcare ⟨hip, x, hx, hxip⟩
      refine ⟨?_, fun hbad => absurd (hi.symm.trans hbad) (by simp)⟩
      show Agrees d.host d.starts d.ui.nextConnecting d.ui.connectingJobs
        (matching d.connectIp d.ui.connectServer (buildAllServer d.foxServers))
      rw [hi]
      refine h.agrees.rebind h.agrees.known (fun j hj => ?_) (fun p hp => ?_) fun hs row hrow => ?_
      · by_cases hlt : j < d.ui.nextConnecting
        · exact absurd ((hnone j hlt).symm.trans hj) Bool.false_ne_true
        · unfold ConnectingJob.choosing at hj
          rw [h.agrees.known j (by omega)] at hj
          exact absurd hj Bool.false_ne_true
      · rw [hiip]
        exact (huse _ (mem_inUse_session hp)).symm
      · rw [hiip]
        exact (huse _ (mem_inUse_row hs hrow)).symm

/-! ## §8. The callbacks and the service. -/

theorem Inv.connected {d : Device} (h : d.Inv) (hserver : d.ui.connectServer ≠ none) :
    d.connected.Inv := by
  unfold Device.connected
  split
  next hnone => exact absurd hnone hserver
  next => exact (h.postValue_assigned hserver .connected).of_ui rfl rfl rfl rfl rfl fun _ hd => hd

/-- A broadcast is taken; Connected is among them only if a server is
assigned. -/
theorem Inv.stateChanged {d : Device} (h : d.Inv) {st : State}
    (hst : d.ui.connectServer = none → st ≠ .connected) (pb : Bool) :
    (d.stateChanged st pb).Inv := by
  unfold Device.stateChanged
  split
  next =>
    have hserver : d.ui.connectServer ≠ none := fun hnone => hst hnone rfl
    unfold Device.changeState
    rw [if_pos rfl]
    split
    next => exact h.connected hserver
    next => exact h.of_ui rfl rfl rfl rfl rfl fun hnone => absurd hnone hserver
  next =>
    unfold Device.changeState
    rw [if_neg (by decide)]
    split
    next =>
      have hstop : Inv { d with ui := { d.ui with stop := false } } :=
        h.of_ui rfl rfl rfl rfl rfl fun _ hd => hd.congr rfl rfl rfl rfl rfl (Or.inl rfl)
      exact hstop.postValue (by decide) (by decide)
    next => exact h.postValue (by decide) (by decide)
  next => exact h

/-- The next broadcast leaves the queue. -/
theorem Inv.taken {d : Device} (h : d.Inv) {n : Nat} {e : StateChanged} (hn : d.ui.seen = some n)
    (he : d.host.service.sent[n]? = some e) :
    Inv { d with ui := { d.ui with seen := some (n + 1) } }
      ∧ (d.ui.connectServer = none → e.state ≠ .connected) := by
  obtain ⟨hlt, hget⟩ := List.getElem?_eq_some_iff.mp he
  have hdrop : d.host.service.sent.drop n = e :: d.host.service.sent.drop (n + 1) := by
    rw [List.drop_eq_getElem_cons hlt, hget]
  refine ⟨h.of_ui rfl rfl rfl rfl rfl fun _ hd => ?_, fun hnone => ?_⟩
  · refine { hd with inbox := fun n' hn' x hx => ?_ }
    injection hn' with hn'
    subst hn'
    refine hd.inbox n hn x ?_
    rw [hdrop]
    exact List.mem_cons_of_mem _ hx
  · refine (h.dark hnone).inbox n hn e ?_
    rw [hdrop]
    exact List.mem_cons_self

/-- A step of the service, once the agreement after it is known. -/
theorem Inv.of_host {decode : String → Option Nat} {d : Device} {l : Service.Label} {h' : Host}
    (h : d.Inv) (hs : d.host.step decode l = some h') {starts : Nat}
    (ha : Agrees h' starts d.ui.nextConnecting d.ui.connectingJobs d.ui.connectServer)
    (closes : Nat) : Inv { d with host := h', starts, closes } where
  agrees := ha
  dark hnone := by
    have hne : h'.service.state ≠ .connected := by
      have hnone' : d.ui.connectServer = none := hnone
      rw [hnone'] at ha
      exact ha.not_connected
    exact (h.dark hnone).broadcasts (Service.step_broadcasts (Host.step_spec hs).2.1) hne

theorem Inv.deliverClose {decode : String → Option Nat} {d : Device} {h' : Host} (h : d.Inv)
    (hs : d.host.step decode .close = some h') (closes : Nat) :
    Inv { d with host := h', closes } := by
  refine h.of_host hs (h.agrees.host_step hs (by simp) fun hst => ?_) closes
  -- a Stopped service has no receiver
  obtain ⟨ph, hph⟩ := h.agrees.phase
  obtain ⟨_, hres⟩ := of_enabled (Host.step_spec hs).2.1
  rw [← hres, if_neg, hst]
  obtain rfl := hph.of_stopped hst
  obtain ⟨_, _, _, _, ⟨_, _, _, hreceiver, _⟩, _⟩ := hph
  rw [hreceiver]
  exact Bool.false_ne_true

/-- What moves a Stopped service is not its own step. -/
theorem wakes_of_own {s : Service} {l : Service.Label} (hst : s.state = .stopped)
    (h : own s l = true) : l.wakes = false := by
  cases l with
  | startCommand expanded => exact absurd h Bool.false_ne_true
  | close => exact absurd h Bool.false_ne_true
  | reload => exact absurd h Bool.false_ne_true
  | revoke => exact absurd hst (of_decide_eq_true h)
  | fatal message => exact absurd hst (of_decide_eq_true h)
  | _ => rfl

theorem Inv.service {decode : String → Option Nat} {d : Device} {l : Service.Label} {h' : Host}
    (h : d.Inv) (hown : own d.host.service l = true) (hs : d.host.step decode l = some h') :
    Inv { d with host := h' } := by
  refine h.of_host hs (h.agrees.host_step hs ?_ fun hst => ?_) d.closes
  · intro e he
    rw [he] at hown
    exact absurd hown Bool.false_ne_true
  · obtain ⟨ph, hph⟩ := h.agrees.phase
    obtain rfl := hph.of_stopped hst
    exact Service.step_stopped hph (Host.step_spec hs).2.1 (wakes_of_own hst hown)

/-! ## §9. Every careful run. -/

theorem hostStep_spec {decode : String → Option Nat} {d d' : Device} {l : Service.Label}
    (hs : d.hostStep decode l = some d') :
    ∃ h', d.host.step decode l = some h' ∧ d' = { d with host := h' } := by
  obtain ⟨h', hh, rfl⟩ := Option.map_eq_some_iff.mp hs
  exact ⟨h', hh, rfl⟩

/-- **A careful step keeps the invariant.** -/
theorem inv_step {decode : String → Option Nat} {d d' : Device} {l : Label} (hcare : d.Careful l)
    (hs : step decode d l = some d') (h : d.Inv) : d'.Inv := by
  cases l with
  | process foxServers foxSmartServers =>
      simp only [step] at hs
      split at hs
      next ui hui =>
        injection hs with hs
        subst hs
        exact h.process hcare hui foxSmartServers
      next => exact absurd hs (by simp)
  | init =>
      simp only [step] at hs
      split at hs
      next ui hui =>
        injection hs with hs
        subst hs
        exact h.init hcare hui
      next => exact absurd hs (by simp)
  | remoteConfig foxServers foxSmartServers =>
      injection hs with hs
      subst hs
      exact h.of_ui rfl rfl rfl rfl rfl fun _ hd => hd
  | select item =>
      injection hs with hs
      subst hs
      exact h.of_ui rfl rfl rfl rfl rfl fun _ hd => hd.congr rfl rfl rfl rfl rfl (Or.inl rfl)
  | startVpn =>
      simp only [step] at hs
      split at hs
      next => exact absurd hs (by simp)
      next =>
        injection hs with hs
        subst hs
        exact h.of_ui rfl rfl rfl rfl rfl fun _ hd => hd.congr rfl rfl rfl rfl rfl (Or.inl rfl)
  | start =>
      obtain ⟨_, rfl⟩ := of_enabled hs
      have hlaunch : Inv { d with ui := { d.ui with launching := d.ui.launching - 1 } } :=
        h.of_ui rfl rfl rfl rfl rfl fun _ hd => hd.congr rfl rfl rfl rfl rfl (Or.inl rfl)
      exact hlaunch.start
  | connecting j => exact h.connectingStep hs
  | determine j item =>
      obtain ⟨⟨hpc, _⟩, rfl⟩ := of_enabled hs
      obtain ⟨hst, hstarts, hnone⟩ := hcare
      exact h.determineServer hpc hst hstarts hnone item
  | stopVpn =>
      injection hs with hs
      subst hs
      exact h.stopVpn hcare
  | disconnecting j =>
      obtain ⟨hjob, rfl⟩ := of_enabled hs
      have hserver : d.ui.connectServer ≠ none := fun hnone =>
        (h.dark hnone).launched j (by rw [hjob])
      exact h.of_ui rfl rfl rfl rfl rfl fun hnone => absurd hnone hserver
  | stopService j =>
      obtain ⟨_, rfl⟩ := of_enabled hs
      exact h.of_ui rfl rfl rfl rfl rfl fun _ hd => hd.setDisconnecting j _ (by simp)
  | showAd j =>
      obtain ⟨_, rfl⟩ := of_enabled hs
      exact h.of_ui rfl rfl rfl rfl rfl fun _ hd =>
        (hd.setDisconnecting j { d.ui.disconnectingJobs j with pc := .over }
          (by simp)).congr rfl rfl rfl rfl rfl (Or.inl rfl)
  | dismiss =>
      obtain ⟨_, rfl⟩ := of_enabled hs
      exact h.of_ui rfl rfl rfl rfl rfl fun _ hd => hd.congr rfl rfl rfl rfl rfl (Or.inl rfl)
  | onStop =>
      injection hs with hs
      subst hs
      exact h.onStop
  | registerCallback =>
      obtain ⟨_, rfl⟩ := of_enabled hs
      refine h.of_ui rfl rfl rfl rfl rfl fun _ hd => { hd with inbox := fun n hn e he => ?_ }
      injection hn with hn
      subst hn
      rw [List.drop_length] at he
      exact absurd he (by simp)
  | onServiceConnected =>
      obtain ⟨_, rfl⟩ := of_enabled hs
      unfold onServiceConnected
      split
      next hst =>
        refine h.postValue_assigned (fun hnone => ?_) _
        have ha := h.agrees
        rw [hnone] at ha
        exact ha.not_connected hst
      next => exact h.postValue (by decide) (by decide)
      next => exact h
  | onServiceDisconnected =>
      injection hs with hs
      subst hs
      have hgone : Inv { d with ui := { d.ui with seen := none } } :=
        h.of_ui rfl rfl rfl rfl rfl fun _ hd => hd.congr rfl rfl rfl rfl rfl (Or.inr rfl)
      exact hgone.postValue (by decide) (by decide)
  | stateChanged pb =>
      simp only [step] at hs
      split at hs
      next => exact absurd hs (by simp)
      next n hn =>
        split at hs
        next => exact absurd hs (by simp)
        next e he =>
          injection hs with hs
          subst hs
          obtain ⟨htaken, hst⟩ := h.taken hn he
          exact htaken.stateChanged hst pb
  | resultShown =>
      obtain ⟨⟨_, hserver⟩, rfl⟩ := of_enabled hs
      have hne : d.ui.connectServer ≠ none := by
        rw [← Option.isSome_iff_ne_none]
        exact hserver
      have hdone : Inv { d with ui := { d.ui with resultJobs := d.ui.resultJobs - 1 } } :=
        h.of_ui rfl rfl rfl rfl rfl fun hnone => absurd hnone hne
      exact hdone.connected hne
  | flush =>
      simp only [step] at hs
      split at hs
      next => exact absurd hs (by simp)
      next st hst =>
        injection hs with hs
        subst hs
        refine h.of_ui rfl rfl rfl rfl rfl fun _ hd => { hd with state := ?_, posted := by simp }
        rw [← hst]
        exact hd.posted
  | deliverClose =>
      obtain ⟨_, hs⟩ := Option.ite_none_right_eq_some.mp hs
      obtain ⟨h', hh, rfl⟩ := hostStep_spec hs
      exact h.deliverClose hh _
  | deliverStart =>
      obtain ⟨hpos, hs⟩ := Option.ite_none_right_eq_some.mp hs
      split at hs
      next e _ =>
        obtain ⟨h', hh, rfl⟩ := hostStep_spec hs
        exact h.of_host hh (h.agrees.deliverStart hpos hh) d.closes
      next => exact absurd hs (by simp)
  | service l =>
      obtain ⟨hown, hs⟩ := Option.ite_none_right_eq_some.mp hs
      obtain ⟨h', hh, rfl⟩ := hostStep_spec hs
      exact h.service hown hh

/-- A device whose service has not run and whose UI process has not begun. -/
theorem inv_new (connectIp : String) (storage : Storage)
    (hboot : storage.directBootAware = false) : Inv { connectIp, host := { storage } } := by
  have hnone : ∀ j : Nat, ((fun _ => {} : Nat → ConnectingJob) j).choosing ≠ true :=
    fun _ => Bool.false_ne_true
  refine ⟨⟨hboot, ⟨.stopped, Service.inPhase_new⟩, fun p hp => ?_, fun _ _ => rfl,
    Nat.zero_le 1, fun j hj => absurd hj (hnone j), fun _ => rfl, fun j hj => absurd hj (hnone j),
    fun j row hj => absurd (choosing_of_updating hj) (hnone j), ?_⟩,
    fun _ => dark_new _ rfl rfl rfl rfl rfl rfl⟩
  · exact absurd (hp.symm.trans (Service.sessionProfile_stopped rfl)) (by simp)
  · rintro (hs | ⟨j, hj, _⟩)
    · exact absurd rfl hs
    · exact absurd hj (hnone j)

/-- **The screen names the server of the session**, at every point of every
run whose steps are careful: for all server lists, every stored ip and every
order of the steps of both processes. -/
theorem ui_agrees (decode : String → Option Nat) (connectIp : String) (storage : Storage)
    (hboot : storage.directBootAware = false) (ls : List Label) (d : Device)
    (hrun : exec (step decode) { connectIp, host := { storage } } ls = some d)
    (hcare : Meets (step decode) Careful { connectIp, host := { storage } } ls) : d.Agreed :=
  (exec_invariant (fun _ _ _ hc hs h => inv_step hc hs h) ls _ d (inv_new connectIp storage hboot)
    hcare hrun).agreed

def listedServer : ServerItem := ⟨"10.0.0.1", "aes-256-gcm", "pwd", 443, "Paris", "France"⟩

def smartServer : ServerItem := ⟨"10.0.0.2", "aes-256-gcm", "pwd", 443, "Tokyo", "Japan"⟩

/-- The first process connects through a smart server. -/
def smartSession : List Label :=
  [.process [listedServer] [smartServer], .registerCallback, .onServiceConnected, .flush,
    .startVpn, .start, .connecting 0, .connecting 0, .determine 0 smartServer, .connecting 0,
    .connecting 0, .connecting 0, .deliverStart, .service (.dispatch 0), .service (.startTaken 0),
    .service (.preInitDone 0), .service (.startUp 0 10 ""), .service (.sendFd 0 none),
    .stateChanged true, .stateChanged true, .flush]

/-- In that process the screen is right. -/
theorem ui_agrees_smartSession :
    ∃ d, exec (step fun _ => none) {} smartSession = some d
      ∧ d.ui.state = some .connected ∧ d.connectIp = "10.0.0.2" ∧ d.Agreed := by
  obtain ⟨d, hrun, htest⟩ := exists_of_exec_test (step fun _ => none) {} smartSession
    (fun d => d.ui.state = some .connected ∧ d.connectIp = "10.0.0.2") (by decide)
  obtain ⟨hst, hip⟩ := of_decide_eq_true htest
  exact ⟨d, hrun, hst, hip, ui_agrees _ "" {} rfl smartSession d hrun (by decide)⟩

/-- A second process finds the session: the stored ip is the one of the
smart server, which is not among the listed ones. -/
theorem ui_unassigned :
    ∃ d, exec (step fun _ => none) {}
        (smartSession ++ [.process [listedServer] [smartServer], .registerCallback,
          .onServiceConnected, .flush]) = some d
      ∧ d.host.service.state = .connected ∧ d.ui.connectServer = none ∧ ¬ d.Agreed := by
  obtain ⟨d, hrun, htest⟩ := exists_of_exec_test (step fun _ => none) {}
    (smartSession ++ [.process [listedServer] [smartServer], .registerCallback,
      .onServiceConnected, .flush])
    (fun d => d.host.service.state = .connected ∧ d.ui.connectServer = none
      ∧ d.ui.state = some .connected) (by decide)
  obtain ⟨hservice, hserver, hst⟩ := of_decide_eq_true htest
  refine ⟨d, hrun, hservice, hserver, fun h => ?_⟩
  obtain ⟨c, hc, _⟩ := h hst
  exact absurd (hserver.symm.trans hc) (by simp)

end FoxVpn.App.Device
