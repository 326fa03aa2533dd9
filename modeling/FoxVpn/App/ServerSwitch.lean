/-
  FoxVpn.App.ServerSwitch
  ───────────────────────
  **SWITCHING THE SERVER OF A CONNECTED SERVICE.**

  `VpnManager.start()`, run while the UI is Connected, closes the session by
  a broadcast, writes the new server into the profile row and sends a start
  command.  The service is another process: the broadcast, the command and
  the steps of its clean-up meet in any order, the delays of the UI
  guarantee nothing.

      stopService · updateRead · updateWrite · startService      the UI
      deliverClose · deliverStart                                 in flight
      service l                                                   the service

  `onStartCommand` drops a start that does not find the service Stopped.
  `switch_on_new_server_iff`: in a quiescent state without a reported
  failure the session is on the new server exactly if the start command was
  delivered in time and no late `persistStats` wrote the old server back.
-/
import FoxVpn.Bg.Host

namespace FoxVpn.App

open FoxVpn.Lib FoxVpn.Database FoxVpn.Bg

/-! ## §1. The system. -/

/-- Where the coroutine of `start()` stands. -/
inductive StartPc where
  /-- In `delay(500L)`. -/
  | beforeClose
  /-- In `delay(200L)`, then `determineServer`. -/
  | beforeUpdate
  /-- In `Core.updateProfile`, with the row to write. -/
  | updating (row : Profile)
  | beforeStart
  | done
  deriving Repr, DecidableEq

/-- The row of the new server has been written. -/
def StartPc.written : StartPc → Bool
  | .beforeStart => true
  | .done => true
  | _ => false

structure Switch where
  pc : StartPc := .beforeClose
  host : Host
  /-- CLOSE broadcasts and start commands in flight. -/
  closes : Nat := 0
  starts : Nat := 0

namespace Switch

inductive Label where
  | stopService
  | updateRead
  | updateWrite
  | startService
  | deliverClose
  | deliverStart
  | service (l : Service.Label)
  deriving Repr, DecidableEq

/-- The steps of the service on its own, without a revocation; every fatal
error has a message. -/
def own (l : Service.Label) : Bool :=
  !l.delivered && l ≠ .revoke && l ≠ .fatal none

/-- The fetch of `Core.updateProfile`, creating the row if there is none. -/
def fetchRow (v : Server) (s : Switch) : Option Switch :=
  match Core.fetchRow s.host.storage with
  | .ok (p, st) =>
      some { s with pc := .updating (v.writeTo p), host := { s.host with storage := st } }
  | .error _ => none

/-- The write of `Core.updateProfile`. -/
def writeRow (s : Switch) (row : Profile) : Option Switch :=
  match updateProfile s.host.storage row with
  | .ok st => some { s with pc := .beforeStart, host := { s.host with storage := st } }
  | .error _ => none

/-- One step; `v` is the server `determineServer` chooses. -/
def step (decode : String → Option Nat) (v : Server) (s : Switch) : Label → Option Switch
  | .stopService =>
      if s.pc = .beforeClose then some { s with pc := .beforeUpdate, closes := s.closes + 1 }
      else none
  | .updateRead => if s.pc = .beforeUpdate then s.fetchRow v else none
  | .updateWrite =>
      match s.pc with
      | .updating row => s.writeRow row
      | _ => none
  | .startService =>
      if s.pc = .beforeStart then some { s with pc := .done, starts := s.starts + 1 } else none
  | .deliverClose =>
      if 0 < s.closes then
        (s.host.step decode .close).map fun host => { s with host, closes := s.closes - 1 }
      else none
  | .deliverStart =>
      if 0 < s.starts then
        match Core.currentProfile s.host.storage with
        | .ok e =>
            (s.host.step decode (.startCommand e)).map fun host =>
              { s with host, starts := s.starts - 1 }
        | .error _ => none
      else none
  | .service l =>
      if own l = true then (s.host.step decode l).map fun host => { s with host } else none

/-! ## §2. What is asked, and when it holds. -/

/-- The UI has finished, nothing is in flight, no stop is under way. -/
def Quiescent (s : Switch) : Prop :=
  s.pc = .done ∧ s.closes = 0 ∧ s.starts = 0
    ∧ ∀ k, (s.host.service.stops k).pc.live = false

/-- No broadcast of the service carried a message. -/
def NoFailure (s : Switch) : Prop := ∀ e ∈ s.host.service.sent, e.msg = none

/-- The service is in a session of the new server. -/
def OnNewServer (v : Server) (s : Switch) : Prop :=
  ∃ p, s.host.service.sessionProfile = some p ∧ p.server = v.fields

/-- A step in time: a start command finds the service Stopped, and once the
new server is written `persistStats` does not write another one back. -/
def InTime (v : Server) (s : Switch) : Label → Prop
  | .deliverStart => s.host.service.state = .stopped
  | .service l =>
      s.pc.written = true → ∀ row, s.host.writes l = some row → row.id = profileId →
        row.server = v.fields
  | _ => True

instance (v : Server) (s : Switch) : DecidablePred (InTime v s)
  | .deliverStart => inferInstanceAs (Decidable (_ = _))
  | .service l =>
      decidable_of_iff (s.pc.written = true → ∀ row ∈ s.host.writes l, row.id = profileId →
        row.server = v.fields) Iff.rfl
  | .stopService | .updateRead | .updateWrite | .startService | .deliverClose => isTrue trivial

/-! ## §3. The invariant. -/

/-- CLOSE broadcasts still to be processed, and start commands. -/
def pendingClose (s : Switch) : Nat := (if s.pc = .beforeClose then 1 else 0) + s.closes

def pendingStart (s : Switch) : Nat := (if s.pc = .done then 0 else 1) + s.starts

/-- What is pending in a phase of the service: the old session waits for
CLOSE, a new one has used up the start command. -/
def Stage (ph : Phase) (close start : Nat) : Prop :=
  match ph with
  | .connecting => close = 0 ∧ start = 0
  | .connected => (close = 1 ∧ start ≤ 1) ∨ (close = 0 ∧ start = 0)
  | _ => close = 0 ∧ start ≤ 1

/-- The row of the profile holds the new server. -/
def RowIs (v : Server) (st : Storage) : Prop :=
  ∃ row, st.db.get profileId = some row ∧ row.server = v.fields

/-- A profile that is there decides. -/
theorem exists_server_iff {o : Option Profile} {p : Profile} (hp : o = some p) (v : Server) :
    (∃ q, o = some q ∧ q.server = v.fields) ↔ p.server = v.fields := by
  constructor
  · intro h
    obtain ⟨q, hq, hserver⟩ := h
    rw [Option.some.inj (hp.symm.trans hq)]
    exact hserver
  · intro hserver
    exact ⟨p, hp, hserver⟩

structure Inv (v : Server) (s : Switch) : Prop where
  boot : s.host.storage.directBootAware = false
  updating : ∀ row, s.pc = .updating row → row.id = profileId ∧ row.server = v.fields
  stage : ∃ ph, s.host.service.InPhase ph
    ∧ (¬ s.host.service.Failing → Stage ph s.pendingClose s.pendingStart)
  /-- A row that waits to be written back is not newer than the table. -/
  held : s.pc.written = true → ∀ k rest row, (s.host.service.stops k).pc = .persist rest row →
    row.id = profileId → row.server = v.fields → RowIs v s.host.storage

/-- The new session is on the new server; before it, the start command is
still to come and will find the new row. -/
def OnTrack (v : Server) (s : Switch) : Prop :=
  if s.pendingClose = 0 ∧ s.host.service.sessionProfile.isSome = true then s.OnNewServer v
  else s.pendingStart = 1 ∧ (s.pc.written = true → RowIs v s.host.storage)

/-! ## §4. The steps of the UI. -/

theorem onTrack_congr {v : Server} {s s' : Switch} (hc : s'.pendingClose = s.pendingClose)
    (hs : s'.pendingStart = s.pendingStart)
    (hsess : s'.host.service.sessionProfile = s.host.service.sessionProfile)
    (hrow : (s'.pc.written = true → RowIs v s'.host.storage)
      ↔ (s.pc.written = true → RowIs v s.host.storage)) :
    s'.OnTrack v ↔ s.OnTrack v := by
  unfold OnTrack OnNewServer
  rw [hc, hs, hsess, hrow]

/-- The verdict on a step: the invariant is kept, and unless a failure shows
up the run stays on track exactly if the step is in time. -/
def Verdict (v : Server) (s : Switch) (l : Label) (s' : Switch) : Prop :=
  s'.Inv v ∧ (¬ s'.host.service.Failing → (s'.OnTrack v ↔ s.OnTrack v ∧ InTime v s l))

/-- A step of the UI leaves the service alone and what is pending too. -/
theorem Inv.ui_step {v : Server} {s s' : Switch} {l : Label} (h : s.Inv v)
    (hservice : s'.host.service = s.host.service)
    (hboot : s'.host.storage.directBootAware = false)
    (hupd : ∀ row, s'.pc = .updating row → row.id = profileId ∧ row.server = v.fields)
    (hc : s'.pendingClose = s.pendingClose) (hs : s'.pendingStart = s.pendingStart)
    (hheld : s'.pc.written = true → RowIs v s'.host.storage
      ∨ (s.pc.written = true ∧ s'.host.storage = s.host.storage))
    (hrow : (s'.pc.written = true → RowIs v s'.host.storage)
      ↔ (s.pc.written = true → RowIs v s.host.storage))
    (hl : InTime v s l) : Verdict v s l s' := by
  refine ⟨⟨hboot, hupd, ?_, ?_⟩, fun _ => ?_⟩
  · rw [hservice, hc, hs]
    exact h.stage
  · intro hw k rest row hk hid hserver
    rw [hservice] at hk
    rcases hheld hw with hr | ⟨hw', hst⟩
    · exact hr
    · rw [hst]
      exact h.held hw' k rest row hk hid hserver
  · rw [onTrack_congr hc hs (by rw [hservice]) hrow, and_iff_left hl]

theorem verdict_stopService {v : Server} {s : Switch} (h : s.Inv v) (hpc : s.pc = .beforeClose) :
    Verdict v s .stopService { s with pc := .beforeUpdate, closes := s.closes + 1 } := by
  refine h.ui_step rfl h.boot (by simp) ?_ ?_ (by simp [StartPc.written]) ?_ trivial
  · simp only [pendingClose, hpc, reduceCtorEq, if_true, if_false]
    omega
  · simp [pendingStart, hpc]
  · simp [StartPc.written, hpc]

theorem verdict_updateRead {v : Server} {s s' : Switch} (h : s.Inv v) (hpc : s.pc = .beforeUpdate)
    (hs : s.fetchRow v = some s') : Verdict v s .updateRead s' := by
  unfold fetchRow at hs
  split at hs
  next p st hfetch =>
    rw [← Option.some.inj hs]
    obtain ⟨hid, hboot⟩ := Core.fetchRow_spec hfetch
    refine h.ui_step rfl (hboot.trans h.boot) ?_ ?_ ?_ (by simp [StartPc.written]) ?_ trivial
    · intro row hrow
      injection hrow with hrow
      rw [← hrow]
      exact ⟨hid, rfl⟩
    · simp [pendingClose, hpc]
    · simp [pendingStart, hpc]
    · simp [StartPc.written, hpc]
  next => exact absurd hs (by simp)

/-- The write puts the new server into the table. -/
theorem verdict_updateWrite {v : Server} {s s' : Switch} (h : s.Inv v) {row : Profile}
    (hpc : s.pc = .updating row) (hs : s.writeRow row = some s') :
    Verdict v s .updateWrite s' := by
  obtain ⟨hid, hserver⟩ := h.updating row hpc
  unfold writeRow at hs
  split at hs
  next st hst =>
    injection hs with hs
    subst hs
    have hrow : RowIs v st := by
      refine ⟨row.toRow, ?_, hserver⟩
      rw [get_updateProfile hst, if_pos hid.symm]
    have hboot : st.directBootAware = false := by
      obtain ⟨rfl, _⟩ := updateProfile_ok hst
      exact h.boot
    refine h.ui_step rfl hboot (by simp) ?_ ?_ (fun _ => Or.inl hrow) ?_ trivial
    · simp [pendingClose, hpc]
    · simp [pendingStart, hpc]
    · simp [StartPc.written, hpc, hrow]
  next => exact absurd hs (by simp)

theorem verdict_startService {v : Server} {s : Switch} (h : s.Inv v) (hpc : s.pc = .beforeStart) :
    Verdict v s .startService { s with pc := .done, starts := s.starts + 1 } := by
  refine h.ui_step rfl h.boot (by simp) ?_ ?_ ?_ ?_ trivial
  · simp [pendingClose, hpc]
  · simp only [pendingStart, hpc, reduceCtorEq, if_true, if_false]
    omega
  · exact fun _ => Or.inr ⟨by rw [hpc]; rfl, rfl⟩
  · simp [StartPc.written, hpc]

/-! ## §5. The steps of the service. -/

/-- A step of the phase machine that neither begins nor ends a session
changes nothing pending. -/
theorem stage_next {ph ph' : Phase} {close start : Nat} (h : Stage ph close start)
    (hnext : ph.Next ph') (hin : ph'.inSession = ph.inSession) : Stage ph' close start := by
  cases hnext with
  | stay => exact h
  | start => exact absurd hin (by decide)
  | succeed => exact Or.inr h
  | cancel => exact absurd hin (by simp [Phase.inSession])
  | stop k hst =>
      cases ph with
      | stopped => exact h
      | connecting => exact absurd hin (by simp [Phase.inSession])
      | connected => exact absurd hin (by simp [Phase.inSession])
      | joining k j => exact absurd rfl hst
      | cleaning k => exact absurd rfl hst
      | awaiting k => exact absurd rfl hst
  | joined => exact h
  | scopeEnds => exact h
  | done => exact h

/-- With a start command pending no new session is running. -/
theorem Stage.not_started {ph : Phase} {close start : Nat} (h : Stage ph close start)
    (hstart : start ≠ 0) : close ≠ 0 ∨ ph.inSession = false := by
  cases ph with
  | connecting => exact absurd h.2 hstart
  | connected =>
      rcases h with ⟨hc, _⟩ | ⟨_, hs⟩
      · exact Or.inl (by omega)
      · exact absurd hs hstart
  | stopped => exact Or.inr rfl
  | joining k j => exact Or.inr rfl
  | cleaning k => exact Or.inr rfl
  | awaiting k => exact Or.inr rfl

/-- Before the new session `OnTrack` is about the start command. -/
theorem onTrack_pending {v : Server} {s : Switch} {ph : Phase}
    (h : s.host.service.InPhase ph) (hn : s.pendingClose ≠ 0 ∨ ph.inSession = false) :
    s.OnTrack v
      ↔ s.pendingStart = 1 ∧ (s.pc.written = true → RowIs v s.host.storage) := by
  unfold OnTrack
  rw [if_neg]
  intro hc
  rw [h.sessionProfile_isSome] at hc
  rcases hn with hn | hn
  · exact hn hc.1
  · exact absurd (hn.symm.trans hc.2) (by simp)

/-- Writing a row back, seen from the row of the profile. -/
theorem rowIs_store {v : Server} {st st' : Storage} {row : Profile}
    (h : Host.store st (some row) = some st') :
    RowIs v st' ↔ if row.id = profileId then row.server = v.fields else RowIs v st := by
  unfold RowIs
  rw [get_updateProfile (Host.store_some h)]
  by_cases hid : row.id = profileId
  · rw [if_pos hid.symm, if_pos hid]
    exact exists_server_iff rfl v
  · rw [if_neg (Ne.symm hid), if_neg hid]

theorem own_spec {l : Service.Label} (h : own l = true) :
    l.closes = false ∧ ∀ e, l ≠ .startCommand e := by
  cases l with
  | fatal message =>
      cases message with
      | none => exact absurd h (by decide)
      | some m => exact ⟨rfl, by simp⟩
  | startCommand e => exact absurd h Bool.false_ne_true
  | close => exact absurd h (by decide)
  | reload => exact absurd h (by decide)
  | revoke => exact absurd h (by decide)
  | _ => exact ⟨rfl, by simp⟩

/-- The invariant is kept by every step of the service that leaves what is
pending consistent with its phase. -/
theorem Inv.host_step {decode : String → Option Nat} {v : Server} {s : Switch} (h : s.Inv v)
    {l : Service.Label} {h' : Host} (hs : s.host.step decode l = some h') {closes starts : Nat}
    (hstage : ∃ ph, h'.service.InPhase ph ∧ (¬ h'.service.Failing → Stage ph
      (pendingClose { s with host := h', closes, starts })
      (pendingStart { s with host := h', closes, starts }))) :
    Inv v { s with host := h', closes, starts } where
  boot := by
    rw [(Host.store_frame (Host.step_spec hs).2.2).2]
    exact h.boot
  updating := h.updating
  stage := hstage
  held := by
    intro hw k rest row hk hid hserver
    obtain ⟨ph, hph, _⟩ := h.stage
    obtain ⟨hst, horigin⟩ := Host.held_origin hph hs hk
    show RowIs v h'.storage
    rw [hst]
    rcases horigin with hold | ⟨p, hp, hps⟩
    · exact h.held hw k rest row hold hid hserver
    · rw [hid] at hp
      exact ⟨p, hp, hps ▸ hserver⟩

/-- A failure does not go away. -/
theorem not_failing_of_step {decode : String → Option Nat} {h h' : Host} {l : Service.Label}
    {ph : Phase} (hph : h.service.InPhase ph) (hs : h.step decode l = some h')
    (hf : ¬ h'.service.Failing) : ¬ h.service.Failing := fun hfail =>
  hf ((Service.step_outcome hph (Host.step_spec hs).2.1).failing hfail)

/-- A step of the service on its own. -/
theorem verdict_service {decode : String → Option Nat} {v : Server} {s : Switch} (h : s.Inv v)
    {l : Service.Label} {h' : Host} (hown : own l = true) (hs : s.host.step decode l = some h') :
    Verdict v s (.service l) { s with host := h' } := by
  obtain ⟨ph, hph, hstage⟩ := h.stage
  obtain ⟨hread, hservice, hstore⟩ := Host.step_spec hs
  obtain ⟨ph', hph', hnext⟩ := Service.step_follows hph hservice
  obtain ⟨hl, hstart⟩ := own_spec hown
  have hsession : ¬ h'.service.Failing →
      h'.service.sessionProfile = s.host.service.sessionProfile :=
    Service.sessionProfile_step hph hservice hl hstart
  refine ⟨h.host_step hs ⟨ph', hph', fun hf => ?_⟩, fun hf => ?_⟩
  · refine stage_next (hstage (not_failing_of_step hph hs hf)) hnext ?_
    rw [← hph'.sessionProfile_isSome, ← hph.sessionProfile_isSome, hsession hf]
  · cases hw : s.host.writes l with
    | none =>
        have hst : h'.storage = s.host.storage := Host.storage_of_not_write hs hw
        have htime : InTime v s (.service l) := by
          intro _ row hrow
          exact absurd (hw.symm.trans hrow) (by simp)
        rw [and_iff_left htime]
        refine onTrack_congr rfl rfl (hsession hf) ?_
        show (_ → RowIs v h'.storage) ↔ _
        rw [hst]
    | some row =>
        obtain ⟨k, rest, rfl, hk⟩ := Host.cleaning_of_writes hph hw
        have hnone' : ph'.inSession = false := by
          rw [← hph'.sessionProfile_isSome, hsession hf, hph.sessionProfile_isSome]
          rfl
        rw [hw] at hstore
        rw [onTrack_pending hph (Or.inr rfl), onTrack_pending hph' (Or.inr hnone')]
        show _ ∧ (s.pc.written = true → RowIs v h'.storage) ↔ _
        rw [rowIs_store hstore, and_assoc]
        refine and_congr_right fun _ => ?_
        have htime : InTime v s (.service l)
            ↔ (s.pc.written = true → row.id = profileId → row.server = v.fields) := by
          show (_ → ∀ r, s.host.writes l = some r → _) ↔ _
          rw [hw]
          simp only [Option.some.injEq, forall_eq']
        rw [htime]
        constructor
        · intro hrow
          refine ⟨fun hwr => ?_, fun hwr hid => ?_⟩
          · by_cases hid : row.id = profileId
            · have hserver := hrow hwr
              rw [if_pos hid] at hserver
              -- what is written back was fetched from the table
              exact h.held hwr k rest row hk hid hserver
            · have hold := hrow hwr
              rwa [if_neg hid] at hold
          · have hserver := hrow hwr
            rwa [if_pos hid] at hserver
        · intro ⟨hold, hserver⟩ hwr
          by_cases hid : row.id = profileId
          · rw [if_pos hid]
            exact hserver hwr hid
          · rw [if_neg hid]
            exact hold hwr

/-! ## §6. The deliveries. -/

/-- What a delivered close was. -/
theorem of_deliverClose {decode : String → Option Nat} {v : Server} {s s' : Switch}
    (hs : step decode v s .deliverClose = some s') :
    0 < s.closes ∧ ∃ h', s.host.step decode .close = some h'
      ∧ s' = { s with host := h', closes := s.closes - 1 } := by
  obtain ⟨hclose, hs⟩ := Option.ite_none_right_eq_some.mp hs
  obtain ⟨h', hh, rfl⟩ := Option.map_eq_some_iff.mp hs
  exact ⟨hclose, h', hh, rfl⟩

/-- What a delivered start was: a command with a profile that could be
read. -/
theorem of_deliverStart {decode : String → Option Nat} {v : Server} {s s' : Switch}
    (hs : step decode v s .deliverStart = some s') :
    0 < s.starts ∧ ∃ e h', s.host.step decode (.startCommand e) = some h'
      ∧ s' = { s with host := h', starts := s.starts - 1 } := by
  obtain ⟨hstart, hs⟩ := Option.ite_none_right_eq_some.mp hs
  split at hs
  next e _ =>
    obtain ⟨h', hh, rfl⟩ := Option.map_eq_some_iff.mp hs
    exact ⟨hstart, e, h', hh, rfl⟩
  next => exact absurd hs (by simp)

/-- What a step of the service itself was. -/
theorem of_service {decode : String → Option Nat} {v : Server} {s s' : Switch}
    {l : Service.Label} (hs : step decode v s (.service l) = some s') :
    own l = true ∧ ∃ h', s.host.step decode l = some h' ∧ s' = { s with host := h' } := by
  obtain ⟨hown, hs⟩ := Option.ite_none_right_eq_some.mp hs
  obtain ⟨h', hh, rfl⟩ := Option.map_eq_some_iff.mp hs
  exact ⟨hown, h', hh, rfl⟩

/-- A stage while the service stops. -/
theorem stage_stopping {ph : Phase} {close start : Nat} (hph : ph.state = .stopping)
    (hc : close = 0) (hs : start ≤ 1) : Stage ph close start := by
  cases ph with
  | stopped => exact absurd hph (by decide)
  | connecting => exact absurd hph (by decide)
  | connected => exact absurd hph (by decide)
  | joining k j => exact ⟨hc, hs⟩
  | cleaning k => exact ⟨hc, hs⟩
  | awaiting k => exact ⟨hc, hs⟩

theorem Stage.start_le {ph : Phase} {close start : Nat} (h : Stage ph close start) :
    start ≤ 1 := by
  cases ph with
  | connecting => exact le_of_eq_of_le h.2 (by omega)
  | connected =>
      rcases h with ⟨_, hs⟩ | ⟨_, hs⟩
      · exact hs
      · omega
  | stopped => exact h.2
  | joining k j => exact h.2
  | cleaning k => exact h.2
  | awaiting k => exact h.2

/-- A pending CLOSE is the one the old session waits for. -/
theorem Stage.connected_of_close {ph : Phase} {close start : Nat} (h : Stage ph close start)
    (hc : close ≠ 0) : ph = .connected ∧ close = 1 := by
  cases ph with
  | connected =>
      rcases h with ⟨h1, _⟩ | ⟨h0, _⟩
      · exact ⟨rfl, h1⟩
      · exact absurd h0 hc
  | connecting => exact absurd h.1 hc
  | stopped => exact absurd h.1 hc
  | joining k j => exact absurd h.1 hc
  | cleaning k => exact absurd h.1 hc
  | awaiting k => exact absurd h.1 hc

/-- CLOSE ends the old session. -/
theorem verdict_deliverClose {decode : String → Option Nat} {v : Server} {s : Switch} (h : s.Inv v)
    (hclose : 0 < s.closes) {h' : Host} (hs : s.host.step decode .close = some h') :
    Verdict v s .deliverClose { s with host := h', closes := s.closes - 1 } := by
  obtain ⟨ph, hph, hstage⟩ := h.stage
  have hservice := (Host.step_spec hs).2.1
  have hstorage : h'.storage = s.host.storage := Host.storage_of_not_write hs rfl
  obtain ⟨ph', hph', hnext⟩ := Service.step_follows hph hservice
  -- the old session is connected, so its receiver is registered
  have hstop : ¬ h'.service.Failing →
      ph'.state = .stopping ∧ s.pendingClose = 1 ∧ s.pendingStart ≤ 1 := by
    intro hf
    have hst := hstage (not_failing_of_step hph hs hf)
    have hc : s.pendingClose ≠ 0 := by
      unfold pendingClose
      omega
    obtain ⟨rfl, hc1⟩ := hst.connected_of_close hc
    refine ⟨?_, hc1, hst.start_le⟩
    obtain ⟨_, hres⟩ := of_enabled hservice
    rw [if_pos hph.2.2.2.2.1.2] at hres
    rw [← hph'.state_eq, ← hres]
    exact Service.stopRunner_state _ _ _
  have hc0 : s.pendingClose = 1 →
      pendingClose { s with host := h', closes := s.closes - 1 } = 0 := by
    unfold pendingClose
    intro hc
    split at hc
    next => omega
    next hpc =>
      rw [if_neg hpc]
      show 0 + (s.closes - 1) = 0
      omega
  refine ⟨h.host_step hs ⟨ph', hph', fun hf => ?_⟩, fun hf => ?_⟩
  · obtain ⟨hst', hc1, hs1⟩ := hstop hf
    exact stage_stopping hst' (hc0 hc1) hs1
  · obtain ⟨hst', hc1, _⟩ := hstop hf
    have hnone' : ph'.inSession = false := by
      cases ph' with
      | connecting => exact absurd hst' (by decide)
      | connected => exact absurd hst' (by decide)
      | _ => rfl
    rw [onTrack_pending hph' (Or.inr hnone'),
      onTrack_pending hph (Or.inl (by omega)),
      and_iff_left (show InTime v s .deliverClose from trivial)]
    show _ ∧ (_ → RowIs v h'.storage) ↔ _
    rw [hstorage]
    rfl

/-- A start command that finds the service Stopped begins a session with the
row of the profile. -/
theorem verdict_deliverStart_stopped {decode : String → Option Nat} {v : Server} {s : Switch}
    (h : s.Inv v) (hstart : 0 < s.starts) {e : Option ExpandedProfile} {h' : Host}
    (hs : s.host.step decode (.startCommand e) = some h') (hst : s.host.service.state = .stopped) :
    Verdict v s .deliverStart { s with host := h', starts := s.starts - 1 } := by
  obtain ⟨ph, hph, hstage⟩ := h.stage
  obtain ⟨hread, hservice, _⟩ := Host.step_spec hs
  have hstorage : h'.storage = s.host.storage := Host.storage_of_not_write hs rfl
  have hout := Service.step_outcome hph hservice
  obtain ⟨ph', hph', hnext⟩ := Service.step_follows hph hservice
  obtain rfl := hph.of_stopped hst
  have hconn : ¬ h'.service.Failing → ph' = .connecting := by
    intro hf
    cases hnext with
    | start => rfl
    | stay =>
        obtain ⟨_, hres⟩ := of_enabled hservice
        refine absurd hph'.1 ?_
        rw [← hres]
        exact Service.onStartCommand_not_stopped decode hst e
    | stop k =>
        rcases hout.cause (by rw [hst]; decide) hph'.1 with hfail | hcl
        · exact absurd hfail hf
        · exact absurd hcl Bool.false_ne_true
  have hpend : ¬ h'.service.Failing → s.pendingClose = 0 ∧ s.pendingStart = 1
      ∧ pendingStart { s with host := h', starts := s.starts - 1 } = 0 ∧ s.pc = .done := by
    intro hf
    have hst := hstage (not_failing_of_step hph hs hf)
    have hle := hst.2
    refine ⟨hst.1, ?_⟩
    unfold pendingStart at hle ⊢
    by_cases hpc : s.pc = .done
    · rw [if_pos hpc] at hle ⊢
      refine ⟨by omega, ?_, hpc⟩
      show 0 + (s.starts - 1) = 0
      omega
    · rw [if_neg hpc] at hle
      omega
  refine ⟨h.host_step hs ⟨ph', hph', fun hf => ?_⟩, fun hf => ?_⟩
  · obtain ⟨hc, _, hs0, _⟩ := hpend hf
    rw [hconn hf]
    exact ⟨hc, hs0⟩
  · obtain ⟨hc, hs1, hs0, hdone⟩ := hpend hf
    obtain rfl := hconn hf
    -- the session is of the profile the command has brought
    have hsome := hph'.sessionProfile_isSome
    obtain ⟨p, hp⟩ := Option.isSome_iff_exists.mp hsome
    have hmain : s.host.storage.db.get profileId = some p := by
      rcases hout.session p hp with hold | ⟨_, x, hx, hpx⟩
      · exact absurd (hold.symm.trans (Service.sessionProfile_stopped hst)) (by simp)
      · injection hx with hx
        rw [hpx]
        refine Host.currentProfile_main h.boot ?_
        rw [← hx]
        exact hread
    have hnew : OnTrack v { s with host := h', starts := s.starts - 1 } ↔ p.server = v.fields := by
      unfold OnTrack
      rw [if_pos ⟨hc, hsome⟩]
      exact exists_server_iff hp v
    have hrow : RowIs v s.host.storage ↔ p.server = v.fields := exists_server_iff hmain v
    rw [hnew, onTrack_pending hph (Or.inr rfl),
      and_iff_left (show InTime v s .deliverStart from hst), hs1, hdone, hrow]
    simp [StartPc.written]

/-- A start command that comes too early is dropped. -/
theorem verdict_deliverStart_dropped {decode : String → Option Nat} {v : Server} {s : Switch}
    (h : s.Inv v) (hstart : 0 < s.starts) {e : Option ExpandedProfile} {h' : Host}
    (hs : s.host.step decode (.startCommand e) = some h') (hst : s.host.service.state ≠ .stopped) :
    Verdict v s .deliverStart { s with host := h', starts := s.starts - 1 } := by
  obtain ⟨ph, hph, hstage⟩ := h.stage
  have hsame : h'.service = s.host.service := by
    obtain ⟨_, hres⟩ := of_enabled (Host.step_spec hs).2.1
    rw [← hres]
    unfold Service.onStartCommand
    rw [if_pos hst]
  have hpend : pendingStart { s with host := h', starts := s.starts - 1 } + 1
      = s.pendingStart := by
    unfold pendingStart
    show (if s.pc = .done then 0 else 1) + (s.starts - 1) + 1 = _
    omega
  have hph' : h'.service.InPhase ph := by rw [hsame]; exact hph
  refine ⟨h.host_step hs ⟨ph, hph', fun hf => ?_⟩, fun hf => ?_⟩
  · have hold := hstage (not_failing_of_step hph hs hf)
    cases ph with
    | connecting => exact absurd hold.2 (by omega)
    | connected =>
        rcases hold with ⟨hc, hle⟩ | ⟨_, h0⟩
        · exact Or.inl ⟨hc, by omega⟩
        · omega
    | stopped => exact absurd hph.1 hst
    | joining k j => exact ⟨hold.1, by have := hold.2; omega⟩
    | cleaning k => exact ⟨hold.1, by have := hold.2; omega⟩
    | awaiting k => exact ⟨hold.1, by have := hold.2; omega⟩
  · have hold := hstage (not_failing_of_step hph hs hf)
    have hle := hold.start_le
    rw [onTrack_pending (s := { s with host := h', starts := s.starts - 1 }) hph'
      (hold.not_started (by omega))]
    constructor
    · intro hbad
      have := hbad.1
      omega
    · intro hbad
      exact absurd hbad.2 hst

/-! ## §7. The verdict. -/

theorem verdict {decode : String → Option Nat} {v : Server} {s s' : Switch} {l : Label}
    (h : s.Inv v) (hs : step decode v s l = some s') : Verdict v s l s' := by
  cases l with
  | stopService =>
      obtain ⟨hpc, rfl⟩ := of_enabled hs
      exact verdict_stopService h hpc
  | updateRead =>
      obtain ⟨hpc, hs⟩ := Option.ite_none_right_eq_some.mp hs
      exact verdict_updateRead h hpc hs
  | updateWrite =>
      simp only [step] at hs
      split at hs
      next row hpc => exact verdict_updateWrite h hpc hs
      next => exact absurd hs (by simp)
  | startService =>
      obtain ⟨hpc, rfl⟩ := of_enabled hs
      exact verdict_startService h hpc
  | deliverClose =>
      obtain ⟨hclose, h', hh, rfl⟩ := of_deliverClose hs
      exact verdict_deliverClose h hclose hh
  | deliverStart =>
      obtain ⟨hstart, e, h', hh, rfl⟩ := of_deliverStart hs
      by_cases hst : s.host.service.state = .stopped
      · exact verdict_deliverStart_stopped h hstart hh hst
      · exact verdict_deliverStart_dropped h hstart hh hst
  | service l =>
      obtain ⟨hown, h', hh, rfl⟩ := of_service hs
      exact verdict_service h hown hh

/-- A step of the UI leaves the service alone, any other is one of its own. -/
theorem step_service {decode : String → Option Nat} {v : Server} {s s' : Switch} {l : Label}
    (hs : step decode v s l = some s') :
    s'.host.service = s.host.service ∨ ∃ l', s.host.step decode l' = some s'.host := by
  cases l with
  | stopService => exact Or.inl (by rw [← (of_enabled hs).2])
  | startService => exact Or.inl (by rw [← (of_enabled hs).2])
  | updateRead =>
      simp only [step, fetchRow] at hs
      refine Or.inl ?_
      repeat' split at hs
      all_goals cases hs
      all_goals rfl
  | updateWrite =>
      simp only [step, writeRow] at hs
      refine Or.inl ?_
      repeat' split at hs
      all_goals cases hs
      all_goals rfl
  | deliverClose =>
      obtain ⟨_, h', hh, rfl⟩ := of_deliverClose hs
      exact Or.inr ⟨_, hh⟩
  | deliverStart =>
      obtain ⟨_, e, h', hh, rfl⟩ := of_deliverStart hs
      exact Or.inr ⟨_, hh⟩
  | service l =>
      obtain ⟨_, h', hh, rfl⟩ := of_service hs
      exact Or.inr ⟨_, hh⟩

theorem not_failing_step {decode : String → Option Nat} {v : Server} {s s' : Switch} {l : Label}
    (h : s.Inv v) (hs : step decode v s l = some s') (hf : ¬ s'.host.service.Failing) :
    ¬ s.host.service.Failing := by
  rcases step_service hs with hsame | ⟨l', hstep⟩
  · rwa [← hsame]
  · obtain ⟨ph, hph, _⟩ := h.stage
    exact not_failing_of_step hph hstep hf

theorem inv_new {v : Server} {h₀ : Host} (hconn : h₀.service.InPhase .connected)
    (hboot : h₀.storage.directBootAware = false) : Inv v { host := h₀ } where
  boot := hboot
  updating row hpc := absurd hpc (by simp)
  stage := ⟨.connected, hconn, fun _ => Or.inl ⟨rfl, le_refl 1⟩⟩
  held hw := absurd hw Bool.false_ne_true

/-- With nothing left to come, on track is on the new server. -/
theorem onTrack_quiescent {v : Server} {s : Switch} (hq : s.Quiescent) :
    s.OnTrack v ↔ s.OnNewServer v := by
  have hc : s.pendingClose = 0 := by
    unfold pendingClose
    rw [hq.1, hq.2.1]
    rfl
  have hs : s.pendingStart = 0 := by
    unfold pendingStart
    rw [hq.1, hq.2.2.1]
    rfl
  unfold OnTrack
  by_cases hsome : s.host.service.sessionProfile.isSome = true
  · rw [if_pos ⟨hc, hsome⟩]
  · rw [if_neg (fun h => hsome h.2), hs]
    constructor
    · rintro ⟨h, _⟩
      exact absurd h (by omega)
    · rintro ⟨p, hp, _⟩
      exact absurd (by rw [hp]; rfl) hsome

theorem not_failing_quiescent {s : Switch} (hq : s.Quiescent) (hok : s.NoFailure) :
    ¬ s.host.service.Failing := by
  rintro (⟨e, he, hmsg⟩ | ⟨k, hlive, _⟩)
  · exact hmsg (hok e he)
  · exact absurd ((hq.2.2.2 k).symm.trans hlive) Bool.false_ne_true

/-- **When a switch ends on the new server**: in a quiescent state without a
reported failure, exactly if every step was in time.  `h₀` is any Connected
service; its log `sent` is the log of the switch. -/
theorem switch_on_new_server_iff (decode : String → Option Nat) (v : Server) (h₀ : Host)
    (hconn : h₀.service.InPhase .connected) (hboot : h₀.storage.directBootAware = false)
    (ls : List Label) (s : Switch) (hrun : exec (step decode v) { host := h₀ } ls = some s)
    (hq : s.Quiescent) (hok : s.NoFailure) :
    s.OnNewServer v ↔ Meets (step decode v) (InTime v) { host := h₀ } ls := by
  have hmeets := exec_iff_meets (I := Inv v) (N := fun s => ¬ s.host.service.Failing)
    (P := OnTrack v) (C := InTime v)
    (fun _ _ _ h hs => (verdict h hs).1)
    (fun s a s' h hs hf => ?_)
    (fun _ _ _ h hs => (verdict h hs).2) ls _ s (inv_new hconn hboot) hrun
    (not_failing_quiescent hq hok)
  · rw [← onTrack_quiescent hq, hmeets.2]
    refine and_iff_right ⟨rfl, fun hw => ?_⟩
    exact absurd hw Bool.false_ne_true
  · exact not_failing_step h hs hf

/-- A Connected service on an old server. -/
def connectedHost : Host where
  service :=
    { state := .connected, proxy := some ⟨{}, "all", some {}⟩, processes := some 2,
      localDns := true, notification := some "", closeReceiverRegistered := true, worker := true,
      conn := true, active := true }
  storage := { db := ⟨[{}]⟩ }

theorem connectedHost_inPhase : connectedHost.service.InPhase .connected := by
  refine ⟨rfl, rfl, ?_, fun _ => rfl, ⟨rfl, rfl⟩, rfl, rfl⟩
  intro k hk
  exact absurd hk Bool.false_ne_true

def newServer : Server := ⟨"10.0.0.2", "new", "aes-256-gcm", "pwd", 443⟩

/-- CLOSE and the clean-up it starts, up to its wait for the children. -/
def closing : List Label :=
  [.stopService, .deliverClose, .service (.persistRead 0 (some {})), .service (.persistWrite 0),
    .service (.shutdownDone 0)]

/-- The rest of `start()`. -/
def restarting : List Label := [.updateRead, .updateWrite, .startService, .deliverStart]

/-- The children end, the service is Stopped. -/
def ending : List Label :=
  [.service (.childDone 0 .poolJoin), .service (.childDone 0 .localDnsJoin),
    .service (.childDone 0 .networkStop), .service (.childDone 0 .workerJoin),
    .service (.childDone 0 .trafficMonitorJoin), .service (.stopped 0)]

/-- Where a switch has ended with the service idle and no message. -/
theorem quiescent_of_idle {v : Server} {s : Switch} (h : s.Inv v) (hpc : s.pc = .done)
    (hc : s.closes = 0) (hs : s.starts = 0) (hst : s.host.service.state ≠ .stopping) :
    s.Quiescent := by
  refine ⟨hpc, hc, hs, fun k => ?_⟩
  obtain ⟨ph, hph, _⟩ := h.stage
  rw [← Bool.not_eq_true]
  intro hlive
  refine hst (hph.state_eq.trans ?_)
  rcases hph.of_live hlive with ⟨j, rfl, _⟩ | ⟨rfl, _⟩ | ⟨rfl, _⟩ <;> rfl

/-- The start command comes after the clean-up: the new session is on the
new server. -/
theorem switch_on_new_server_inTime :
    ∃ s, exec (step (fun _ => none) newServer) { host := connectedHost }
        (closing ++ ending ++ restarting) = some s
      ∧ s.Quiescent ∧ s.NoFailure ∧ s.OnNewServer newServer := by
  obtain ⟨s, hrun, htest⟩ := exists_of_exec_test (step (fun _ => none) newServer)
    { host := connectedHost } (closing ++ ending ++ restarting)
    (fun s => (s.pc = .done ∧ s.closes = 0 ∧ s.starts = 0 ∧ s.host.service.state ≠ .stopping)
      ∧ ∀ e ∈ s.host.service.sent, e.msg = none) (by decide)
  obtain ⟨⟨hpc, hc, hs, hst⟩, hok⟩ := of_decide_eq_true htest
  have hq : s.Quiescent := quiescent_of_idle
    (exec_invariant_all (fun _ _ _ hs h => (verdict h hs).1) _ _ s
      (inv_new connectedHost_inPhase rfl) hrun) hpc hc hs hst
  refine ⟨s, hrun, hq, hok, ?_⟩
  exact (switch_on_new_server_iff _ newServer connectedHost connectedHost_inPhase rfl _ s hrun
    hq hok).mpr (by decide)

/-- The same steps with the command delivered while the old session still
waits for its children: it is dropped, and the service ends Stopped without
a word. -/
theorem switch_start_lost :
    ∃ s, exec (step (fun _ => none) newServer) { host := connectedHost }
        (closing ++ restarting ++ ending) = some s
      ∧ s.Quiescent ∧ s.NoFailure ∧ s.host.service.state = .stopped
      ∧ ¬ s.OnNewServer newServer := by
  obtain ⟨s, hrun, htest⟩ := exists_of_exec_test (step (fun _ => none) newServer)
    { host := connectedHost } (closing ++ restarting ++ ending)
    (fun s => (s.pc = .done ∧ s.closes = 0 ∧ s.starts = 0 ∧ s.host.service.state = .stopped)
      ∧ ∀ e ∈ s.host.service.sent, e.msg = none) (by decide)
  obtain ⟨⟨hpc, hc, hs, hst⟩, hok⟩ := of_decide_eq_true htest
  have hq : s.Quiescent := quiescent_of_idle
    (exec_invariant_all (fun _ _ _ hs h => (verdict h hs).1) _ _ s
      (inv_new connectedHost_inPhase rfl) hrun) hpc hc hs (by rw [hst]; decide)
  refine ⟨s, hrun, hq, hok, hst, ?_⟩
  rintro ⟨p, hp, _⟩
  exact absurd (hp.symm.trans (Service.sessionProfile_stopped hst)) (by simp)

end Switch

end FoxVpn.App
