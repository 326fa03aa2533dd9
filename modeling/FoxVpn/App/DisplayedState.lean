/-
  FoxVpn.App.DisplayedState
  ─────────────────────────
  **WHAT THE SCREEN SAYS AND WHAT THE SERVICE DOES.**

  The state on the screen is written by two sides.  The service broadcasts
  every state it enters, in order.  `VpnManager` writes Stopping, Connecting,
  Connected and Stopped on its own account: before it has asked the service
  (`start`, `stopVpn`), when the screen is left (`onStop`), or seconds after
  the broadcast, once an ad is over (`changeState`).  The last writer wins.

      §1  what is still to come: broadcasts, coroutines, messages
      §2  TIMELY: an own word is written while the service still has to answer
      §3  the step lemma, with an answer OWED wherever the screen is wrong
      §4  when nothing is in flight the screen shows the state of the service

  §4 is for every order of the steps of both processes.
-/
import FoxVpn.App.ServerAgreement

namespace FoxVpn.App

open FoxVpn.Lib FoxVpn.Database FoxVpn.Bg

/-! ## §1. What is still to come. -/

/-- The coroutine can still take a step; a cancelled one stays in its
suspension. -/
def ConnectingJob.moves (j : ConnectingJob) : Bool :=
  match j.pc with
  | .launched => !j.cancelled
  | .closing => !j.cancelled
  | .closed => !j.cancelled
  | .written => !j.cancelled
  | .over => false
  | _ => true

/-- The coroutine will start the service. -/
def ConnectingJob.live (j : ConnectingJob) : Bool := !j.cancelled && j.pc ≠ .over

/-- .. and has not posted Connecting yet. -/
def ConnectingJob.switching (j : ConnectingJob) : Bool :=
  match j.pc with
  | .launched => !j.cancelled
  | .checked => !j.cancelled
  | .closing => !j.cancelled
  | .closed => !j.cancelled
  | .passed => !j.cancelled
  | _ => false

/-- The coroutine will stop the service, or show an ad that does. -/
def DisconnectingJob.live (j : DisconnectingJob) : Bool := !j.cancelled && j.pc ≠ .over

theorem ConnectingJob.moves_of_live {j : ConnectingJob} (h : j.live = true) :
    j.moves = true := by
  unfold ConnectingJob.live at h
  obtain ⟨hc, hpc⟩ := Bool.and_eq_true_iff.mp h
  unfold ConnectingJob.moves
  split
  all_goals first | exact hc | rfl | skip
  next hover => exact absurd hover (of_decide_eq_true hpc)

theorem ConnectingJob.live_of_switching {j : ConnectingJob} (h : j.switching = true) :
    j.live = true := by
  unfold ConnectingJob.switching at h
  unfold ConnectingJob.live
  split at h
  all_goals first | (rename_i hpc; rw [hpc, h]; rfl) | exact absurd h Bool.false_ne_true

namespace Device

/-- The broadcasts the screen has not taken yet. -/
def untaken (d : Device) : List StateChanged :=
  match d.ui.seen with
  | none => []
  | some n => d.host.service.sent.drop n

/-- What the screen shows once the posted value is set. -/
def word (d : Device) : Option State := d.ui.posted.or d.ui.state

/-- The service is in `st`, and the screen has taken all it has said. -/
def Told (d : Device) (st : State) : Prop := d.host.service.state = st ∧ d.untaken = []

instance (d : Device) (st : State) : Decidable (d.Told st) := inferInstanceAs (Decidable (_ ∧ _))

/-- A CLOSE is on its way, or somebody is about to send one. -/
def Closing (d : Device) : Prop :=
  0 < d.closes ∨ 0 < d.ui.stopAds ∨ (∃ j, (d.ui.disconnectingJobs j).live = true)
    ∨ ∃ j, (d.ui.connectingJobs j).switching = true

/-- A start command is on its way, or somebody is about to send one. -/
def Opening (d : Device) : Prop := 0 < d.starts ∨ ∃ j, (d.ui.connectingJobs j).live = true

/-- **Nothing is in flight**: the service rests, all it has said is on the
screen, and no coroutine, ad or message is left. -/
structure Settled (d : Device) : Prop where
  rests : d.host.service.state = .connected ∨ d.host.service.state = .stopped
  untaken : d.untaken = []
  posted : d.ui.posted = none
  closes : d.closes = 0
  starts : d.starts = 0
  stopAds : d.ui.stopAds = 0
  resultJobs : d.ui.resultJobs = 0
  connecting : ∀ j, (d.ui.connectingJobs j).moves = false
  disconnecting : ∀ j, (d.ui.disconnectingJobs j).live = false

/-! ## §2. Timely words. -/

/-- **The screen writes a state of its own only while the service can still
correct it.**  Stopping and Connected are not written over the end of a
session that the screen has been told of; Connecting and Stopped not over a
session it has been told of, unless a CLOSE is on its way; a cancelled
coroutine writes nothing.  The screen stays bound to the service. -/
def Timely (d : Device) : Label → Prop
  | .connecting j =>
      ((d.ui.connectingJobs j).pc = .checked →
          (d.ui.connectingJobs j).cancelled = false ∧ ¬ d.Told .stopped)
        ∧ ((d.ui.connectingJobs j).pc = .passed →
          (d.ui.connectingJobs j).cancelled = false ∧ (d.Told .connected → 0 < d.closes))
  | .disconnecting _ => ¬ d.Told .stopped
  | .onStop =>
      (d.ui.state = some .stopping → ¬ d.Told .stopped)
        ∧ (d.ui.state = some .connecting → d.Told .connected → 0 < d.closes)
  | .resultShown => ¬ d.Told .stopped
  | .process _ _ => False
  | .init => False
  | .onServiceDisconnected => False
  | _ => True

instance (d : Device) : ∀ l, Decidable (d.Timely l)
  | .connecting _ | .onStop => inferInstanceAs (Decidable (_ ∧ _))
  | .disconnecting _ | .resultShown => inferInstanceAs (Decidable (¬ _))
  | .process _ _ | .init | .onServiceDisconnected => isFalse id
  | .remoteConfig _ _ | .select _ | .startVpn | .start | .determine _ _ | .stopVpn | .stopService _
  | .showAd _ | .dismiss | .registerCallback | .onServiceConnected | .stateChanged _ | .flush
  | .deliverClose | .deliverStart | .service _ => isTrue trivial

/-! ## §3. What every run keeps. -/

/-- The last broadcast is the state of the service, and the screen is not
ahead of the broadcasts. -/
structure Broadcast (d : Device) : Prop where
  phase : ∃ ph, d.host.service.InPhase ph
  last : ∀ e, d.host.service.sent.getLast? = some e → e.state = d.host.service.state
  seen : ∀ n, d.ui.seen = some n → n ≤ d.host.service.sent.length

/-- **The screen follows the service**: where the two differ and the service
has nothing more to say, an answer is owed. -/
structure Follows (d : Device) : Prop where
  broadcast : d.Broadcast
  bound : d.ui.seen.isSome = true
  connected : d.Told .connected → d.word = some .connected ∨ 0 < d.ui.resultJobs ∨ d.Closing
  stopped : d.Told .stopped → d.word = some .stopped ∨ d.Opening

theorem Follows.shown {d : Device} (h : d.Follows) (hs : d.Settled) :
    d.ui.state = some d.host.service.state := by
  have hword : d.word = d.ui.state := by
    unfold word
    rw [hs.posted]
    rfl
  rcases hs.rests with hst | hst
  · rcases h.connected ⟨hst, hs.untaken⟩ with hw | hr | hc
    · rw [← hword, hw, hst]
    · exact absurd hs.resultJobs (Nat.ne_of_gt hr)
    · rcases hc with hc | hc | ⟨j, hj⟩ | ⟨j, hj⟩
      · exact absurd hs.closes (Nat.ne_of_gt hc)
      · exact absurd hs.stopAds (Nat.ne_of_gt hc)
      · exact absurd ((hs.disconnecting j).symm.trans hj) Bool.false_ne_true
      · have hm := ConnectingJob.moves_of_live (ConnectingJob.live_of_switching hj)
        exact absurd ((hs.connecting j).symm.trans hm) Bool.false_ne_true
  · rcases h.stopped ⟨hst, hs.untaken⟩ with hw | hs' | ⟨j, hj⟩
    · rw [← hword, hw, hst]
    · exact absurd hs.starts (Nat.ne_of_gt hs')
    · have hm := ConnectingJob.moves_of_live hj
      exact absurd ((hs.connecting j).symm.trans hm) Bool.false_ne_true

theorem untaken_congr {d d' : Device} (hsent : d'.host.service.sent = d.host.service.sent)
    (hseen : d'.ui.seen = d.ui.seen) : d'.untaken = d.untaken := by
  unfold untaken
  rw [hsent, hseen]

theorem told_congr {d d' : Device} {st : State} (hservice : d'.host.service = d.host.service)
    (hseen : d'.ui.seen = d.ui.seen) (h : d'.Told st) : d.Told st := by
  obtain ⟨hst, hall⟩ := h
  rw [hservice] at hst
  rw [untaken_congr (by rw [hservice]) hseen] at hall
  exact ⟨hst, hall⟩

theorem cancelConnecting_eq (m : VpnManager) :
    ∃ jobs, m.cancelConnecting = { m with connectingJobs := jobs } := by
  unfold VpnManager.cancelConnecting
  split
  next => exact ⟨m.connectingJobs, rfl⟩
  next => exact ⟨_, rfl⟩

theorem cancelDisconnecting_eq (m : VpnManager) :
    ∃ jobs, m.cancelDisconnecting = { m with disconnectingJobs := jobs } := by
  unfold VpnManager.cancelDisconnecting
  split
  next => exact ⟨m.disconnectingJobs, rfl⟩
  next => exact ⟨_, rfl⟩

/-- A new coroutine of `start()` is launched; another may have been cancelled. -/
theorem start_eq (m : VpnManager) :
    ∃ jobs, m.start = { m with
      connectingJobs := Function.update jobs m.nextConnecting { pc := .launched }
      connectingJob := some m.nextConnecting
      nextConnecting := m.nextConnecting + 1 } := by
  obtain ⟨jobs, hjobs⟩ := cancelConnecting_eq m
  refine ⟨jobs, ?_⟩
  unfold VpnManager.start
  rw [hjobs]
  rfl

/-- A click on Disconnect does nothing, or launches a new coroutine. -/
theorem stopVpn_eq (m : VpnManager) :
    m.stopVpn = m ∨ ∃ jobs, m.stopVpn = { m with
      stop := true
      disconnectingJobs := Function.update jobs m.nextDisconnecting { pc := .launched }
      disconnectingJob := some m.nextDisconnecting
      nextDisconnecting := m.nextDisconnecting + 1 } := by
  obtain ⟨jobs, hjobs⟩ := cancelDisconnecting_eq { m with stop := true }
  unfold VpnManager.stopVpn
  split
  next => exact Or.inl rfl
  next =>
    refine Or.inr ⟨jobs, ?_⟩
    dsimp only
    rw [hjobs]
    rfl

/-- What leaving the screen writes. -/
theorem onStop_eq (m : VpnManager) (connectIp : String) :
    (m.state = some .stopping ∧ ∃ jobs selectServer, m.onStop connectIp = { m with
        stop := false, disconnectingJobs := jobs, posted := some .connected, selectServer })
      ∨ (m.state = some .connecting ∧ ∃ jobs, m.onStop connectIp = { m with
        stop := false, connectingJobs := jobs, posted := some .stopped })
      ∨ m.onStop connectIp = { m with stop := false } := by
  unfold VpnManager.onStop
  dsimp only
  split
  next hst =>
    obtain ⟨jobs, hjobs⟩ := cancelDisconnecting_eq { m with stop := false }
    rw [hjobs]
    exact Or.inl ⟨hst, jobs, _, rfl⟩
  next =>
    split
    next hst =>
      obtain ⟨jobs, hjobs⟩ := cancelConnecting_eq { m with stop := false }
      rw [hjobs]
      exact Or.inr (Or.inl ⟨hst, jobs, rfl⟩)
    next => exact Or.inr (Or.inr rfl)

theorem initServers_seen {m m' : VpnManager} {connectIp : String} {foxServers : List ServerItem}
    (h : m.initServers connectIp foxServers = some m') : m'.seen = m.seen := by
  unfold VpnManager.initServers at h
  split at h
  next =>
    split at h
    next => exact absurd h (by simp)
    next => rw [← Option.some.inj h]
  next => rw [← Option.some.inj h]

/-- What a step of coroutine `j` of `start()` can do. -/
inductive ConnectingMove (d : Device) (j : Nat) : Device → Prop where
  | check (pc : ConnectingPc) (hpc : (d.ui.connectingJobs j).pc = .launched)
      (hc : (d.ui.connectingJobs j).cancelled = false) (hnext : pc = .checked ∨ pc = .passed) :
      ConnectingMove d j (d.setConnecting j pc)
  | stopping (hpc : (d.ui.connectingJobs j).pc = .checked) :
      ConnectingMove d j ((d.setConnecting j .closing).postValue .stopping)
  | close (hpc : (d.ui.connectingJobs j).pc = .closing)
      (hc : (d.ui.connectingJobs j).cancelled = false) :
      ConnectingMove d j { d.setConnecting j .closed with closes := d.closes + 1 }
  | pass (hpc : (d.ui.connectingJobs j).pc = .closed)
      (hc : (d.ui.connectingJobs j).cancelled = false) :
      ConnectingMove d j (d.setConnecting j .passed)
  | connecting (hpc : (d.ui.connectingJobs j).pc = .passed) :
      ConnectingMove d j ((d.setConnecting j .determining).postValue .connecting)
  | fetch (row : Profile) (st : Storage) (hpc : (d.ui.connectingJobs j).pc = .assigned) :
      ConnectingMove d j
        { d.setConnecting j (.updating row) with host := { d.host with storage := st } }
  | write (row : Profile) (st : Storage) (hpc : (d.ui.connectingJobs j).pc = .updating row) :
      ConnectingMove d j { d.setConnecting j .written with host := { d.host with storage := st } }
  | start (hpc : (d.ui.connectingJobs j).pc = .written)
      (hc : (d.ui.connectingJobs j).cancelled = false) :
      ConnectingMove d j { d.setConnecting j .over with starts := d.starts + 1 }

theorem connectingStep_move {d d' : Device} {j : Nat} (hs : d.connectingStep j = some d') :
    ConnectingMove d j d' := by
  unfold connectingStep at hs
  dsimp only at hs
  split at hs
  next hpc =>
    split at hs
    next => exact absurd hs (by simp)
    next hc =>
      rw [← Option.some.inj hs]
      refine .check _ hpc (Bool.eq_false_iff.mpr hc) ?_
      split
      next => exact Or.inl rfl
      next => exact Or.inr rfl
  next hpc =>
    rw [← Option.some.inj hs]
    exact .stopping hpc
  next hpc =>
    split at hs
    next => exact absurd hs (by simp)
    next hc =>
      rw [← Option.some.inj hs]
      exact .close hpc (Bool.eq_false_iff.mpr hc)
  next hpc =>
    split at hs
    next => exact absurd hs (by simp)
    next hc =>
      rw [← Option.some.inj hs]
      exact .pass hpc (Bool.eq_false_iff.mpr hc)
  next hpc =>
    rw [← Option.some.inj hs]
    exact .connecting hpc
  next => exact absurd hs (by simp)
  next hpc =>
    split at hs
    next => exact absurd hs (by simp)
    next c _ =>
      split at hs
      next => exact absurd hs (by simp)
      next p st _ =>
        rw [← Option.some.inj hs]
        exact .fetch (c.server.writeTo p) st hpc
  next row hpc =>
    split at hs
    next => exact absurd hs (by simp)
    next st _ =>
      rw [← Option.some.inj hs]
      exact .write row st hpc
  next hpc =>
    split at hs
    next => exact absurd hs (by simp)
    next hc =>
      rw [← Option.some.inj hs]
      exact .start hpc (Bool.eq_false_iff.mpr hc)
  next => exact absurd hs (by simp)

/-- A coroutine of `start()` touches neither the service nor its broadcasts. -/
theorem ConnectingMove.frame {d d' : Device} {j : Nat} (h : ConnectingMove d j d') :
    d'.host.service = d.host.service ∧ d'.ui.seen = d.ui.seen := by
  cases h <;> exact ⟨rfl, rfl⟩

/-- Only a coroutine that can move does. -/
theorem ConnectingMove.moves {d d' : Device} {j : Nat} (h : ConnectingMove d j d') :
    (d.ui.connectingJobs j).moves = true := by
  unfold ConnectingJob.moves
  cases h with
  | check pc hpc hc => rw [hpc, hc]; rfl
  | stopping hpc => rw [hpc]
  | close hpc hc => rw [hpc, hc]; rfl
  | pass hpc hc => rw [hpc, hc]; rfl
  | connecting hpc => rw [hpc]
  | fetch row st hpc => rw [hpc]
  | write row st hpc => rw [hpc]
  | start hpc hc => rw [hpc, hc]; rfl

theorem connected_frame (d : Device) :
    d.connected.host = d.host ∧ d.connected.ui = d.ui.postValue .connected
      ∧ d.connected.starts = d.starts := by
  unfold connected
  split <;> exact ⟨rfl, rfl, rfl⟩

/-- What a callback does to the screen. -/
theorem stateChanged_frame (d : Device) (st : State) (pb : Bool) :
    (d.stateChanged st pb).host = d.host ∧ (d.stateChanged st pb).ui.seen = d.ui.seen := by
  have hchange : (d.changeState st pb).host = d.host
      ∧ (d.changeState st pb).ui.seen = d.ui.seen := by
    obtain ⟨hhost, hui, _⟩ := connected_frame d
    unfold changeState
    split
    next =>
      split
      next => exact ⟨hhost, by rw [hui]; rfl⟩
      next => exact ⟨rfl, rfl⟩
    next => split <;> exact ⟨rfl, rfl⟩
  unfold stateChanged
  split
  next => exact hchange
  next => exact hchange
  next => exact ⟨rfl, rfl⟩

theorem stateChanged_connected (d : Device) (pb : Bool) :
    (d.stateChanged .connected pb).word = some .connected
      ∨ 0 < (d.stateChanged .connected pb).ui.resultJobs := by
  show (d.changeState .connected pb).word = _ ∨ 0 < (d.changeState .connected pb).ui.resultJobs
  unfold changeState
  rw [if_pos rfl]
  split
  next =>
    left
    unfold word
    rw [(connected_frame d).2.1]
    rfl
  next => exact Or.inr (Nat.succ_pos _)

theorem stateChanged_stopped (d : Device) (pb : Bool) :
    (d.stateChanged .stopped pb).word = some .stopped := by
  show (d.changeState .stopped pb).word = _
  unfold changeState
  rw [if_neg (by decide)]
  split <;> rfl

theorem onServiceConnected_frame (d : Device) :
    d.onServiceConnected.host = d.host ∧ d.onServiceConnected.ui.seen = d.ui.seen := by
  unfold onServiceConnected
  split <;> exact ⟨rfl, rfl⟩

/-! ### The broadcasts, along every run. -/

theorem Broadcast.of_frame {d d' : Device} (h : d.Broadcast)
    (hservice : d'.host.service = d.host.service)
    (hseen : d'.ui.seen = d.ui.seen ∨ d'.ui.seen = none) : d'.Broadcast := by
  refine ⟨by rw [hservice]; exact h.phase, by rw [hservice]; exact h.last, ?_⟩
  intro n hn
  rw [hservice]
  rcases hseen with hsame | hnone
  · exact h.seen n (hsame.symm.trans hn)
  · exact absurd (hnone.symm.trans hn) (by simp)

/-- The service moves: what it broadcasts is the state it has come to. -/
theorem Broadcast.of_host {decode : String → Option Nat} {d : Device} {l : Service.Label}
    {h' : Host} (h : d.Broadcast) (hh : d.host.step decode l = some h') (closes starts : Nat) :
    Broadcast { d with host := h', closes, starts } := by
  obtain ⟨ph, hph⟩ := h.phase
  have hs := (Host.step_spec hh).2.1
  obtain ⟨ph', hph', _⟩ := Service.step_follows hph hs
  rcases Service.step_announces hph hs with ⟨hsent, hst⟩ | ⟨_, e, hsent, he⟩
  · refine ⟨⟨ph', hph'⟩, fun x hx => ?_, fun n hn => ?_⟩
    · rw [hsent] at hx
      rw [hst]
      exact h.last x hx
    · rw [hsent]
      exact h.seen n hn
  · refine ⟨⟨ph', hph'⟩, fun x hx => ?_, fun n hn => ?_⟩
    · rw [hsent, List.getLast?_concat] at hx
      rw [← Option.some.inj hx]
      exact he
    · rw [hsent, List.length_append]
      exact Nat.le_add_right_of_le (h.seen n hn)

theorem broadcast_step {decode : String → Option Nat} {d d' : Device} {l : Label}
    (hs : step decode d l = some d') (h : d.Broadcast) : d'.Broadcast := by
  cases l with
  | process foxServers foxSmartServers =>
      simp only [step] at hs
      split at hs
      next ui hui =>
        rw [← Option.some.inj hs]
        exact h.of_frame rfl (Or.inr (initServers_seen hui))
      next => exact absurd hs (by simp)
  | init =>
      simp only [step] at hs
      split at hs
      next ui hui =>
        rw [← Option.some.inj hs]
        exact h.of_frame rfl (Or.inr (initServers_seen hui))
      next => exact absurd hs (by simp)
  | remoteConfig foxServers foxSmartServers =>
      rw [← Option.some.inj hs]
      exact h.of_frame rfl (Or.inl rfl)
  | select item =>
      rw [← Option.some.inj hs]
      exact h.of_frame rfl (Or.inl rfl)
  | startVpn =>
      rw [← Option.some.inj (Option.ite_none_left_eq_some.mp hs).2]
      exact h.of_frame rfl (Or.inl rfl)
  | start =>
      obtain ⟨_, rfl⟩ := of_enabled hs
      obtain ⟨jobs, hstart⟩ := start_eq { d.ui with launching := d.ui.launching - 1 }
      rw [hstart]
      exact h.of_frame rfl (Or.inl rfl)
  | connecting j =>
      obtain ⟨hservice, hseen⟩ := (connectingStep_move hs).frame
      exact h.of_frame hservice (Or.inl hseen)
  | determine j item =>
      obtain ⟨_, rfl⟩ := of_enabled hs
      exact h.of_frame rfl (Or.inl rfl)
  | stopVpn =>
      rw [← Option.some.inj hs]
      rcases stopVpn_eq d.ui with hstop | ⟨jobs, hstop⟩
      · rw [hstop]
        exact h
      · rw [hstop]
        exact h.of_frame rfl (Or.inl rfl)
  | disconnecting j =>
      obtain ⟨_, rfl⟩ := of_enabled hs
      exact h.of_frame rfl (Or.inl rfl)
  | stopService j =>
      obtain ⟨_, rfl⟩ := of_enabled hs
      exact h.of_frame rfl (Or.inl rfl)
  | showAd j =>
      obtain ⟨_, rfl⟩ := of_enabled hs
      exact h.of_frame rfl (Or.inl rfl)
  | dismiss =>
      obtain ⟨_, rfl⟩ := of_enabled hs
      exact h.of_frame rfl (Or.inl rfl)
  | onStop =>
      rw [← Option.some.inj hs]
      rcases onStop_eq d.ui d.connectIp with ⟨_, jobs, item, hstop⟩ | ⟨_, jobs, hstop⟩ | hstop
      all_goals
        rw [hstop]
        exact h.of_frame rfl (Or.inl rfl)
  | registerCallback =>
      obtain ⟨_, rfl⟩ := of_enabled hs
      refine ⟨h.phase, h.last, fun n hn => ?_⟩
      rw [← Option.some.inj hn]
  | onServiceConnected =>
      obtain ⟨_, rfl⟩ := of_enabled hs
      obtain ⟨hhost, hseen⟩ := onServiceConnected_frame d
      exact h.of_frame (by rw [hhost]) (Or.inl hseen)
  | onServiceDisconnected =>
      rw [← Option.some.inj hs]
      exact h.of_frame rfl (Or.inr rfl)
  | stateChanged pb =>
      simp only [step] at hs
      split at hs
      next => exact absurd hs (by simp)
      next n hn =>
        split at hs
        next => exact absurd hs (by simp)
        next e he =>
          rw [← Option.some.inj hs]
          obtain ⟨hhost, hseen⟩ := stateChanged_frame
            { d with ui := { d.ui with seen := some (n + 1) } } e.state pb
          refine ⟨by rw [hhost]; exact h.phase, by rw [hhost]; exact h.last, fun m hm => ?_⟩
          rw [hseen] at hm
          rw [hhost, ← Option.some.inj hm]
          exact (List.getElem?_eq_some_iff.mp he).1
  | resultShown =>
      obtain ⟨_, rfl⟩ := of_enabled hs
      obtain ⟨hhost, hui, _⟩ :=
        connected_frame { d with ui := { d.ui with resultJobs := d.ui.resultJobs - 1 } }
      exact h.of_frame (by rw [hhost]) (Or.inl (by rw [hui]; rfl))
  | flush =>
      simp only [step] at hs
      split at hs
      next => exact absurd hs (by simp)
      next =>
        rw [← Option.some.inj hs]
        exact h.of_frame rfl (Or.inl rfl)
  | deliverClose =>
      obtain ⟨_, hs⟩ := Option.ite_none_right_eq_some.mp hs
      obtain ⟨h', hh, rfl⟩ := hostStep_spec hs
      exact h.of_host hh _ _
  | deliverStart =>
      obtain ⟨_, hs⟩ := Option.ite_none_right_eq_some.mp hs
      split at hs
      next =>
        obtain ⟨h', hh, rfl⟩ := hostStep_spec hs
        exact h.of_host hh _ _
      next => exact absurd hs (by simp)
  | service l =>
      obtain ⟨_, hs⟩ := Option.ite_none_right_eq_some.mp hs
      obtain ⟨h', hh, rfl⟩ := hostStep_spec hs
      exact h.of_host hh _ _

theorem broadcast_new (connectIp : String) (storage : Storage) :
    Broadcast { connectIp, host := { storage } } :=
  ⟨⟨.stopped, Service.inPhase_new⟩, fun _ he => absurd he (by simp),
    fun _ hn => absurd hn (by simp)⟩

/-! ### The screen, along a timely run. -/

/-- One entry is replaced, by one that is as good. -/
theorem exists_update {α : Type} {f : Nat → α} {p : α → Bool} {j : Nat} {a : α}
    (ha : p (f j) = true → p a = true) (h : ∃ i, p (f i) = true) :
    ∃ i, p (Function.update f j a i) = true := by
  obtain ⟨i, hi⟩ := h
  by_cases hij : i = j
  · subst hij
    exact ⟨i, by rw [Function.update_self]; exact ha hi⟩
  · exact ⟨i, by rw [Function.update_of_ne hij]; exact hi⟩

/-- A step that writes nothing and drops no answer that is owed. -/
theorem Follows.quiet {d d' : Device} (h : d.Follows)
    (hservice : d'.host.service = d.host.service) (hseen : d'.ui.seen = d.ui.seen)
    (hword : d'.word = d.word) (hresult : d'.ui.resultJobs = d.ui.resultJobs)
    (hclosing : d.Closing → d'.Closing) (hopening : d.Opening → d'.Opening) : d'.Follows where
  broadcast := h.broadcast.of_frame hservice (Or.inl hseen)
  bound := by rw [hseen]; exact h.bound
  connected htold := by
    rw [hword, hresult]
    exact (h.connected (told_congr hservice hseen htold)).imp_right (Or.imp_right hclosing)
  stopped htold := by
    rw [hword]
    exact (h.stopped (told_congr hservice hseen htold)).imp_right hopening

/-- A step that writes `st`. -/
theorem Follows.post {d d' : Device} (h : d.Follows) (st : State)
    (hservice : d'.host.service = d.host.service) (hseen : d'.ui.seen = d.ui.seen)
    (hword : d'.word = some st) (hconnected : d.Told .connected → st = .connected ∨ d'.Closing)
    (hstopped : d.Told .stopped → st = .stopped ∨ d'.Opening) : d'.Follows where
  broadcast := h.broadcast.of_frame hservice (Or.inl hseen)
  bound := by rw [hseen]; exact h.bound
  connected htold := by
    rcases hconnected (told_congr hservice hseen htold) with rfl | hclosing
    · exact Or.inl hword
    · exact Or.inr (Or.inr hclosing)
  stopped htold := by
    rcases hstopped (told_congr hservice hseen htold) with rfl | hopening
    · exact Or.inl hword
    · exact Or.inr hopening

/-- Coroutine `j` of `start()` goes on without a word. -/
theorem Closing.setConnecting {d : Device} (h : d.Closing) (j : Nat) (pc : ConnectingPc)
    (hj : (d.ui.connectingJobs j).switching = true →
      ({ d.ui.connectingJobs j with pc := pc } : ConnectingJob).switching = true) :
    (d.setConnecting j pc).Closing :=
  h.imp_right (Or.imp_right (Or.imp_right (exists_update (p := ConnectingJob.switching) hj)))

theorem Opening.setConnecting {d : Device} (h : d.Opening) (j : Nat) (pc : ConnectingPc)
    (hj : (d.ui.connectingJobs j).live = true →
      ({ d.ui.connectingJobs j with pc := pc } : ConnectingJob).live = true) :
    (d.setConnecting j pc).Opening :=
  h.imp_right (exists_update (p := ConnectingJob.live) hj)

theorem live_of_uncancelled {job : ConnectingJob} (hc : job.cancelled = false)
    {pc : ConnectingPc} (hpc : pc ≠ .over) :
    ({ job with pc := pc } : ConnectingJob).live = true := by
  unfold ConnectingJob.live
  rw [hc]
  exact decide_eq_true hpc

/-- Going on to a place before the end keeps a coroutine live. -/
theorem live_goto {job : ConnectingJob} {pc : ConnectingPc} (hpc : pc ≠ .over)
    (h : job.live = true) : ({ job with pc := pc } : ConnectingJob).live = true := by
  obtain ⟨hc, _⟩ := Bool.and_eq_true_iff.mp h
  exact live_of_uncancelled ((Bool.not_eq_true' _).mp hc) hpc

/-- Coroutine `j` is alive at its new place. -/
theorem Opening.at {d : Device} {j : Nat} {pc : ConnectingPc}
    (hc : (d.ui.connectingJobs j).cancelled = false) (hpc : pc ≠ .over) :
    (d.setConnecting j pc).Opening := by
  refine Or.inr ⟨j, ?_⟩
  show (Function.update d.ui.connectingJobs j _ j).live = true
  rw [Function.update_self]
  exact live_of_uncancelled hc hpc

theorem Follows.connecting {d d' : Device} {j : Nat} (h : d.Follows)
    (htimely : d.Timely (.connecting j)) (hmove : ConnectingMove d j d') : d'.Follows := by
  cases hmove with
  | check pc hpc hc hnext =>
      refine h.quiet rfl rfl rfl rfl (fun hcl => hcl.setConnecting j _ fun _ => ?_)
        (fun hop => hop.setConnecting j _ (live_goto ?_))
      · unfold ConnectingJob.switching
        rcases hnext with rfl | rfl <;> rw [hc] <;> rfl
      · rcases hnext with rfl | rfl <;> decide
  | stopping hpc =>
      -- the coroutine has not been cancelled: its CLOSE follows
      obtain ⟨hc, htold⟩ := htimely.1 hpc
      refine h.post .stopping rfl rfl rfl (fun _ => Or.inr ?_) (fun hst => absurd hst htold)
      refine Or.inr (Or.inr (Or.inr ⟨j, ?_⟩))
      show (Function.update d.ui.connectingJobs j _ j).switching = true
      rw [Function.update_self]
      unfold ConnectingJob.switching
      rw [hc]
      rfl
  | close hpc hc =>
      exact h.quiet rfl rfl rfl rfl (fun _ => Or.inl (Nat.succ_pos _))
        (fun hop => hop.setConnecting j _ (live_goto (by decide)))
  | pass hpc hc =>
      refine h.quiet rfl rfl rfl rfl (fun hcl => hcl.setConnecting j _ fun _ => ?_)
        (fun hop => hop.setConnecting j _ (live_goto (by decide)))
      unfold ConnectingJob.switching
      rw [hc]
      rfl
  | connecting hpc =>
      -- a session that is still there has been sent its CLOSE
      obtain ⟨hc, hcloses⟩ := htimely.2 hpc
      exact h.post .connecting rfl rfl rfl (fun htold => Or.inr (Or.inl (hcloses htold)))
        (fun _ => Or.inr (Opening.at hc (by decide)))
  | fetch row st hpc =>
      refine h.quiet rfl rfl rfl rfl (fun hcl => hcl.setConnecting j _ fun hj => ?_)
        (fun hop => hop.setConnecting j _ (live_goto (by simp)))
      unfold ConnectingJob.switching at hj
      rw [hpc] at hj
      exact absurd hj Bool.false_ne_true
  | write row st hpc =>
      refine h.quiet rfl rfl rfl rfl (fun hcl => hcl.setConnecting j _ fun hj => ?_)
        (fun hop => hop.setConnecting j _ (live_goto (by simp)))
      unfold ConnectingJob.switching at hj
      rw [hpc] at hj
      exact absurd hj Bool.false_ne_true
  | start hpc hc =>
      refine h.quiet rfl rfl rfl rfl (fun hcl => hcl.setConnecting j _ fun hj => ?_)
        (fun _ => Or.inl (Nat.succ_pos _))
      unfold ConnectingJob.switching at hj
      rw [hpc] at hj
      exact absurd hj Bool.false_ne_true

/-- The service moves.  Its word is the last one if it has spoken; otherwise
the messages that were on their way must still be. -/
theorem Follows.of_host {decode : String → Option Nat} {d : Device} {l : Service.Label} {h' : Host}
    (h : d.Follows) (hh : d.host.step decode l = some h') {closes starts : Nat}
    (hcloses : h'.service.state = d.host.service.state → d.host.service.state = .connected →
      0 < d.closes → 0 < closes)
    (hstarts : h'.service.state = d.host.service.state → d.host.service.state = .stopped →
      0 < d.starts → 0 < starts) :
    Follows { d with host := h', closes, starts } := by
  have hb := h.broadcast.of_host hh closes starts
  obtain ⟨ph, hph⟩ := h.broadcast.phase
  obtain ⟨n, hn⟩ := Option.isSome_iff_exists.mp h.bound
  rcases Service.step_announces hph (Host.step_spec hh).2.1 with ⟨hsent, hst⟩ | ⟨_, e, hsent, _⟩
  · have htold : ∀ st, Told { d with host := h', closes, starts } st → d.Told st := by
      rintro st ⟨hstate, hall⟩
      have hsame : untaken { d with host := h', closes, starts } = d.untaken :=
        untaken_congr hsent rfl
      exact ⟨hst.symm.trans hstate, hsame.symm.trans hall⟩
    refine ⟨hb, h.bound, fun ht => ?_, fun ht => ?_⟩
    · refine (h.connected (htold _ ht)).imp_right (Or.imp_right fun hcl => ?_)
      exact hcl.imp_left (hcloses hst (htold _ ht).1)
    · refine (h.stopped (htold _ ht)).imp_right fun hop => ?_
      exact hop.imp_left (hstarts hst (htold _ ht).1)
  · -- something has been said that the screen has not taken
    have hnot : ∀ st, ¬ Told { d with host := h', closes, starts } st := by
      rintro st ⟨_, hall⟩
      have hempty : (d.host.service.sent ++ [e]).drop n = [] := by
        unfold untaken at hall
        rw [hn, hsent] at hall
        exact hall
      have hlen := List.drop_eq_nil_iff.mp hempty
      have hle := h.broadcast.seen n hn
      rw [List.length_append, List.length_singleton] at hlen
      omega
    exact ⟨hb, h.bound, fun ht => absurd ht (hnot _), fun ht => absurd ht (hnot _)⟩

/-- A session that has connected hears a CLOSE. -/
theorem close_of_connected {decode : String → Option Nat} {s s' : Service}
    {ph : Phase} (h : s.InPhase ph) (hst : s.state = .connected)
    (hs : s.step decode .close = some s') : s'.state = .stopping := by
  obtain rfl := h.of_connected hst
  obtain ⟨_, rfl⟩ := of_enabled hs
  obtain ⟨_, _, _, _, ⟨_, hreceiver⟩, _⟩ := h
  rw [if_pos hreceiver]
  exact Service.stopRunner_state s false none

theorem Follows.deliverClose {decode : String → Option Nat} {d : Device} {h' : Host}
    (h : d.Follows) (hh : d.host.step decode .close = some h') :
    Follows { d with host := h', closes := d.closes - 1 } := by
  obtain ⟨ph, hph⟩ := h.broadcast.phase
  refine h.of_host hh (fun hsame hst _ => ?_) fun _ _ hpos => hpos
  have hstopping := close_of_connected hph hst (Host.step_spec hh).2.1
  rw [hsame, hst] at hstopping
  exact absurd hstopping (by decide)

theorem Follows.deliverStart {decode : String → Option Nat} {d : Device} {h' : Host}
    {e : Option ExpandedProfile} (h : d.Follows)
    (hh : d.host.step decode (.startCommand e) = some h') :
    Follows { d with host := h', starts := d.starts - 1 } := by
  refine h.of_host hh (fun _ _ hpos => hpos) fun hsame hst _ => ?_
  obtain ⟨_, hs⟩ := of_enabled (Host.step_spec hh).2.1
  rw [← hs, hst] at hsame
  exact absurd hsame (Service.onStartCommand_not_stopped decode hst e)

/-- Binding the screen brings it up to date, whatever it has shown before. -/
theorem Broadcast.onServiceConnected {d : Device} (h : d.Broadcast)
    (hbound : d.ui.seen.isSome = true) : d.onServiceConnected.Follows := by
  obtain ⟨hhost, hseen⟩ := onServiceConnected_frame d
  have hservice : d.onServiceConnected.host.service = d.host.service := by rw [hhost]
  refine ⟨h.of_frame hservice (Or.inl hseen), by rw [hseen]; exact hbound, ?_, ?_⟩
  · intro htold
    have hst : d.host.service.state = .connected := (told_congr hservice hseen htold).1
    unfold Device.onServiceConnected
    rw [hst]
    exact Or.inl rfl
  · intro htold
    have hst : d.host.service.state = .stopped := (told_congr hservice hseen htold).1
    unfold Device.onServiceConnected
    rw [hst]
    exact Or.inl rfl

/-- The last broadcast that is taken is the state of the service, and it is
written to the screen, or will be after an ad. -/
theorem Follows.stateChanged {d : Device} (h : d.Follows) {n : Nat} {e : StateChanged} {pb : Bool}
    (he : d.host.service.sent[n]? = some e)
    (hb : (Device.stateChanged { d with ui := { d.ui with seen := some (n + 1) } } e.state
      pb).Broadcast) :
    (Device.stateChanged { d with ui := { d.ui with seen := some (n + 1) } } e.state
      pb).Follows := by
  obtain ⟨hhost, hseen⟩ := stateChanged_frame
    { d with ui := { d.ui with seen := some (n + 1) } } e.state pb
  have hstate : ∀ st, (Device.stateChanged { d with ui := { d.ui with seen := some (n + 1) } }
      e.state pb).Told st → e.state = st := by
    rintro st ⟨hst, hall⟩
    rw [hhost] at hst
    unfold untaken at hall
    rw [hseen, hhost] at hall
    have hlen : d.host.service.sent.length ≤ n + 1 := List.drop_eq_nil_iff.mp hall
    obtain ⟨hlt, _⟩ := List.getElem?_eq_some_iff.mp he
    have hn : d.host.service.sent.length - 1 = n := by omega
    rw [← hst]
    refine h.broadcast.last e ?_
    rw [List.getLast?_eq_getElem?, hn]
    exact he
  refine ⟨hb, by rw [hseen]; rfl, fun htold => ?_, fun htold => ?_⟩
  · rw [hstate _ htold]
    exact (stateChanged_connected _ pb).imp_right Or.inl
  · rw [hstate _ htold]
    exact Or.inl (stateChanged_stopped _ pb)

/-- **A timely step keeps the screen behind the service.** -/
theorem follows_step {decode : String → Option Nat} {d d' : Device} {l : Label}
    (htimely : d.Timely l) (hs : step decode d l = some d') (h : d.Follows) : d'.Follows := by
  have hb := broadcast_step hs h.broadcast
  cases l with
  | process foxServers foxSmartServers => exact absurd htimely id
  | init => exact absurd htimely id
  | onServiceDisconnected => exact absurd htimely id
  | remoteConfig foxServers foxSmartServers =>
      rw [← Option.some.inj hs]
      exact h.quiet rfl rfl rfl rfl id id
  | select item =>
      rw [← Option.some.inj hs]
      exact h.quiet rfl rfl rfl rfl id id
  | startVpn =>
      rw [← Option.some.inj (Option.ite_none_left_eq_some.mp hs).2]
      exact h.quiet rfl rfl rfl rfl id id
  | start =>
      obtain ⟨_, rfl⟩ := of_enabled hs
      obtain ⟨jobs, hstart⟩ := start_eq { d.ui with launching := d.ui.launching - 1 }
      rw [hstart]
      -- the coroutine that is cancelled is replaced by a new one
      refine h.quiet rfl rfl rfl rfl (fun _ => ?_) fun _ => ?_
      · exact Or.inr (Or.inr (Or.inr ⟨d.ui.nextConnecting, by
          show (Function.update jobs _ _ _).switching = true
          rw [Function.update_self]
          rfl⟩))
      · exact Or.inr ⟨d.ui.nextConnecting, by
          show (Function.update jobs _ _ _).live = true
          rw [Function.update_self]
          rfl⟩
  | connecting j => exact h.connecting htimely (connectingStep_move hs)
  | determine j item =>
      obtain ⟨⟨hpc, _⟩, rfl⟩ := of_enabled hs
      refine h.quiet rfl rfl rfl rfl (fun hcl => ?_) fun hop => ?_
      · refine (hcl.setConnecting j .assigned fun hj => ?_ :)
        unfold ConnectingJob.switching at hj
        rw [hpc] at hj
        exact absurd hj Bool.false_ne_true
      · exact (hop.setConnecting j .assigned (live_goto (by decide)) :)
  | stopVpn =>
      rw [← Option.some.inj hs]
      rcases stopVpn_eq d.ui with hstop | ⟨jobs, hstop⟩
      · rw [hstop]
        exact h
      · rw [hstop]
        refine h.quiet rfl rfl rfl rfl (fun _ => ?_) id
        exact Or.inr (Or.inr (Or.inl ⟨d.ui.nextDisconnecting, by
          show (Function.update jobs _ _ _).live = true
          rw [Function.update_self]
          rfl⟩))
  | disconnecting j =>
      obtain ⟨hj, rfl⟩ := of_enabled hs
      refine h.post .stopping rfl rfl rfl (fun _ => Or.inr ?_)
        fun htold => absurd htold htimely
      refine Or.inr (Or.inr (Or.inl ⟨j, ?_⟩))
      show (Function.update d.ui.disconnectingJobs j _ j).live = true
      rw [Function.update_self, hj]
      rfl
  | stopService j =>
      obtain ⟨_, rfl⟩ := of_enabled hs
      exact h.quiet rfl rfl rfl rfl (fun _ => Or.inl (Nat.succ_pos _)) id
  | showAd j =>
      obtain ⟨_, rfl⟩ := of_enabled hs
      exact h.quiet rfl rfl rfl rfl (fun _ => Or.inr (Or.inl (Nat.succ_pos _))) id
  | dismiss =>
      obtain ⟨_, rfl⟩ := of_enabled hs
      exact h.quiet rfl rfl rfl rfl (fun _ => Or.inl (Nat.succ_pos _)) id
  | onStop =>
      obtain ⟨hstopping, hconnecting⟩ := htimely
      rw [← Option.some.inj hs]
      rcases onStop_eq d.ui d.connectIp with ⟨hst, jobs, item, hstop⟩ | ⟨hst, jobs, hstop⟩ | hstop
      · rw [hstop]
        exact h.post .connected rfl rfl rfl (fun _ => Or.inl rfl)
          fun htold => absurd htold (hstopping hst)
      · rw [hstop]
        exact h.post .stopped rfl rfl rfl
          (fun htold => Or.inr (Or.inl (hconnecting hst htold))) fun _ => Or.inl rfl
      · rw [hstop]
        exact h.quiet rfl rfl rfl rfl id id
  | registerCallback =>
      obtain ⟨hnone, _⟩ := of_enabled hs
      exact absurd h.bound (by rw [hnone]; exact Bool.false_ne_true)
  | onServiceConnected =>
      obtain ⟨hbound, rfl⟩ := of_enabled hs
      exact h.broadcast.onServiceConnected hbound
  | stateChanged pb =>
      simp only [step] at hs
      split at hs
      next => exact absurd hs (by simp)
      next n hn =>
        split at hs
        next => exact absurd hs (by simp)
        next e he =>
          rw [← Option.some.inj hs] at hb ⊢
          exact h.stateChanged he hb
  | resultShown =>
      obtain ⟨_, rfl⟩ := of_enabled hs
      obtain ⟨hhost, hui, _⟩ :=
        connected_frame { d with ui := { d.ui with resultJobs := d.ui.resultJobs - 1 } }
      refine h.post .connected (by rw [hhost]) (by rw [hui]; rfl) ?_ (fun _ => Or.inl rfl)
        fun htold => absurd htold htimely
      unfold word
      rw [hui]
      rfl
  | flush =>
      simp only [step] at hs
      split at hs
      next => exact absurd hs (by simp)
      next st hst =>
        rw [← Option.some.inj hs]
        refine h.quiet rfl rfl ?_ rfl id id
        unfold word
        rw [hst]
        rfl
  | deliverClose =>
      obtain ⟨_, hs⟩ := Option.ite_none_right_eq_some.mp hs
      obtain ⟨h', hh, rfl⟩ := hostStep_spec hs
      exact h.deliverClose hh
  | deliverStart =>
      obtain ⟨_, hs⟩ := Option.ite_none_right_eq_some.mp hs
      split at hs
      next =>
        obtain ⟨h', hh, rfl⟩ := hostStep_spec hs
        exact h.deliverStart hh
      next => exact absurd hs (by simp)
  | service l =>
      obtain ⟨_, hs⟩ := Option.ite_none_right_eq_some.mp hs
      obtain ⟨h', hh, rfl⟩ := hostStep_spec hs
      exact h.of_host hh (fun _ _ hpos => hpos) fun _ _ hpos => hpos

/-! ## §4. When nothing is in flight. -/

def parisServer : ServerItem := ⟨"10.0.0.3", "aes-256-gcm", "pwd", 443, "Paris", "France"⟩

/-- A screen whose callback has just been registered. -/
def boundDevice : Device :=
  (exec (step fun _ => none) {} [.process [parisServer] [], .registerCallback]).getD {}

/-- The user connects; Connected is on the screen after an ad. -/
def adConnect : List Label :=
  [.flush, .select (some parisServer), .startVpn, .start, .connecting 0, .connecting 0, .flush,
    .determine 0 parisServer, .connecting 0, .connecting 0, .connecting 0, .deliverStart,
    .service (.dispatch 0), .service (.startTaken 0), .service (.preInitDone 0),
    .service (.startUp 0 10 ""), .service (.sendFd 0 none), .stateChanged false,
    .stateChanged false, .resultShown, .flush]

/-- The service goes from Stopping to Stopped, and the screen is told. -/
def sessionEnds : List Label :=
  [.service (.persistRead 0 (some (parisServer.server.writeTo { id := profileId }))),
    .service (.persistWrite 0), .service (.shutdownDone 0), .service (.childDone 0 .poolJoin),
    .service (.childDone 0 .localDnsJoin), .service (.childDone 0 .networkStop),
    .service (.childDone 0 .workerJoin), .service (.childDone 0 .trafficMonitorJoin),
    .service (.stopped 0), .stateChanged true, .stateChanged true]

/-- .. and disconnects, after another one. -/
def adSession : List Label :=
  adConnect ++ [.stopVpn, .disconnecting 0, .flush, .showAd 0, .dismiss, .deliverClose]
    ++ sessionEnds ++ [.flush]

def adEnd : Device :=
  (exec (step fun _ => none) boundDevice (.onServiceConnected :: adSession)).getD {}

theorem adEnd_settled : adEnd.Settled where
  rests := by decide +kernel
  untaken := by decide +kernel
  posted := by decide +kernel
  closes := by decide +kernel
  starts := by decide +kernel
  stopAds := by decide +kernel
  resultJobs := by decide +kernel
  connecting j := by
    cases j with
    | zero => decide +kernel
    | succ j => rfl
  disconnecting j := by
    cases j with
    | zero => decide +kernel
    | succ j => rfl

end Device

end FoxVpn.App
