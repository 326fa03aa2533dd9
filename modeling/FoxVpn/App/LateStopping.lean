/-
  FoxVpn.App.LateStopping
  ───────────────────────
  **A STOPPING NOBODY ANSWERS.**

  `stopVpn()` writes Stopping from a coroutine, and the answer it counts on is
  the Stopped that the service broadcasts when it hears the CLOSE.  Between
  the click and the coroutine the session may end by itself: the permission
  is revoked, a process dies.  The screen is told, the coroutine overwrites
  it, and the CLOSE goes to a service that has no receiver any more.

      click · revoke · Stopped told · Stopping written · CLOSE unheard

  From there no step of either process but a new start, a new or a lost
  binding or a new process brings the screen back; `startVpn()` itself
  returns while it shows Stopping.  Leaving the screen makes it worse: `onStop`
  then writes Connected.
-/
import FoxVpn.App.DisplayedState

namespace FoxVpn.App.Device

open FoxVpn.Lib FoxVpn.Database FoxVpn.Bg

/-! ## §1. A screen that nobody will correct. -/

/-- The labels that start the service or a process anew, or bind or unbind
the screen. -/
def Label.reopens : Label → Bool
  | .startVpn => true
  | .process _ _ => true
  | .init => true
  | .onServiceConnected => true
  | .onServiceDisconnected => true
  | _ => false

/-- **Nobody will correct the screen**: the service is Stopped and has said so,
the screen shows Stopping or, if it has been LEFT, Connected, and neither a
start nor the end of an ad is on its way. -/
structure Unanswered (left : Prop) (d : Device) : Prop where
  told : d.Told .stopped
  shown : d.ui.state = some .stopping ∨ left ∧ d.ui.state = some .connected
  posted : ∀ st, d.ui.posted = some st → st = .stopping ∨ left ∧ st = .connected
  launching : d.ui.launching = 0
  starts : d.starts = 0
  resultJobs : d.ui.resultJobs = 0
  connecting : ∀ j, (d.ui.connectingJobs j).moves = false

variable {left : Prop}

/-- A step of the screen that writes nothing but Stopping, or Connected when
it is left. -/
theorem Unanswered.of_ui {d d' : Device} (h : d.Unanswered left)
    (hservice : d'.host.service = d.host.service) (hseen : d'.ui.seen = d.ui.seen)
    (hstate : d'.ui.state = d.ui.state)
    (hposted : d'.ui.posted = d.ui.posted ∨ d'.ui.posted = some .stopping
      ∨ left ∧ d'.ui.posted = some .connected)
    (hlaunching : d'.ui.launching = d.ui.launching) (hstarts : d'.starts = d.starts)
    (hresult : d'.ui.resultJobs = d.ui.resultJobs)
    (hjobs : d'.ui.connectingJobs = d.ui.connectingJobs) : d'.Unanswered left where
  told := told_congr hservice.symm hseen.symm h.told
  shown := by rw [hstate]; exact h.shown
  posted st hst := by
    rcases hposted with hsame | hnew | ⟨hleft, hnew⟩
    · exact h.posted st (hsame.symm.trans hst)
    · exact Or.inl (Option.some.inj (hst.symm.trans hnew))
    · exact Or.inr ⟨hleft, Option.some.inj (hst.symm.trans hnew)⟩
  launching := hlaunching.trans h.launching
  starts := hstarts.trans h.starts
  resultJobs := hresult.trans h.resultJobs
  connecting := by rw [hjobs]; exact h.connecting

/-- A step of the service that leaves it Stopped. -/
theorem Unanswered.of_host {decode : String → Option Nat} {d : Device} {l : Service.Label}
    {h' : Host} (h : d.Unanswered left) (hb : d.Broadcast) (hh : d.host.step decode l = some h')
    (hst : h'.service.state = .stopped) (closes : Nat) :
    Unanswered left { d with host := h', closes } := by
  obtain ⟨ph, hph⟩ := hb.phase
  have hsent := (Service.step_announces hph (Host.step_spec hh).2.1).sent_eq
    (hst.trans h.told.1.symm)
  have hsame : untaken { d with host := h', closes } = d.untaken := untaken_congr hsent rfl
  exact ⟨⟨hst, hsame.trans h.told.2⟩, h.shown, h.posted, h.launching, h.starts, h.resultJobs,
    h.connecting⟩

/-- A Stopped service does not hear a CLOSE. -/
theorem close_of_stopped {decode : String → Option Nat} {s s' : Service} {ph : Phase}
    (h : s.InPhase ph) (hst : s.state = .stopped) (hs : s.step decode .close = some s') :
    s'.state = .stopped := by
  obtain rfl := h.of_stopped hst
  obtain ⟨_, rfl⟩ := of_enabled hs
  obtain ⟨_, _, _, _, ⟨_, _, _, hreceiver, _⟩, _⟩ := h
  rw [hreceiver]
  exact hst

/-! ## §2. Every step. -/

/-- **Nothing but a new start, binding or process corrects the screen.** -/
theorem unanswered_step {decode : String → Option Nat} {d d' : Device} {l : Label}
    (hl : l.reopens = false) (hleft : l = .onStop → left) (hs : step decode d l = some d')
    (hb : d.Broadcast) (h : d.Unanswered left) : d'.Unanswered left := by
  cases l with
  | process foxServers foxSmartServers => exact absurd hl (by simp [Label.reopens])
  | init => exact absurd hl (by simp [Label.reopens])
  | startVpn => exact absurd hl (by simp [Label.reopens])
  | onServiceConnected => exact absurd hl (by simp [Label.reopens])
  | onServiceDisconnected => exact absurd hl (by simp [Label.reopens])
  | remoteConfig foxServers foxSmartServers =>
      rw [← Option.some.inj hs]
      exact h.of_ui rfl rfl rfl (Or.inl rfl) rfl rfl rfl rfl
  | select item =>
      rw [← Option.some.inj hs]
      exact h.of_ui rfl rfl rfl (Or.inl rfl) rfl rfl rfl rfl
  | start =>
      -- no permission dialog is open
      obtain ⟨hpos, _⟩ := of_enabled hs
      exact absurd h.launching (Nat.ne_of_gt hpos)
  | connecting j =>
      have hmoves := (connectingStep_move hs).moves
      exact absurd ((h.connecting j).symm.trans hmoves) Bool.false_ne_true
  | determine j item =>
      obtain ⟨⟨hpc, _⟩, _⟩ := of_enabled hs
      have hmoves : (d.ui.connectingJobs j).moves = true := by
        unfold ConnectingJob.moves
        rw [hpc]
      exact absurd ((h.connecting j).symm.trans hmoves) Bool.false_ne_true
  | stopVpn =>
      rw [← Option.some.inj hs]
      rcases stopVpn_eq d.ui with hstop | ⟨jobs, hstop⟩
      · rw [hstop]
        exact h
      · rw [hstop]
        exact h.of_ui rfl rfl rfl (Or.inl rfl) rfl rfl rfl rfl
  | disconnecting j =>
      obtain ⟨_, rfl⟩ := of_enabled hs
      exact h.of_ui rfl rfl rfl (Or.inr (Or.inl rfl)) rfl rfl rfl rfl
  | stopService j =>
      obtain ⟨_, rfl⟩ := of_enabled hs
      exact h.of_ui rfl rfl rfl (Or.inl rfl) rfl rfl rfl rfl
  | showAd j =>
      obtain ⟨_, rfl⟩ := of_enabled hs
      exact h.of_ui rfl rfl rfl (Or.inl rfl) rfl rfl rfl rfl
  | dismiss =>
      obtain ⟨_, rfl⟩ := of_enabled hs
      exact h.of_ui rfl rfl rfl (Or.inl rfl) rfl rfl rfl rfl
  | onStop =>
      rw [← Option.some.inj hs]
      rcases onStop_eq d.ui d.connectIp with ⟨_, jobs, item, hstop⟩ | ⟨hst, _⟩ | hstop
      · rw [hstop]
        exact h.of_ui rfl rfl rfl (Or.inr (Or.inr ⟨hleft rfl, rfl⟩)) rfl rfl rfl rfl
      · -- the screen does not show Connecting
        rcases h.shown with hshown | ⟨-, hshown⟩ <;>
          exact absurd (hst.symm.trans hshown) (by decide)
      · rw [hstop]
        exact h.of_ui rfl rfl rfl (Or.inl rfl) rfl rfl rfl rfl
  | registerCallback =>
      obtain ⟨_, rfl⟩ := of_enabled hs
      refine ⟨⟨h.told.1, ?_⟩, h.shown, h.posted, h.launching, h.starts, h.resultJobs, h.connecting⟩
      exact List.drop_length
  | stateChanged pb =>
      -- everything has been taken
      simp only [step] at hs
      split at hs
      next => exact absurd hs (by simp)
      next n hn =>
        have hall : d.host.service.sent.drop n = [] := by
          have hnil := h.told.2
          unfold untaken at hnil
          rw [hn] at hnil
          exact hnil
        rw [List.getElem?_eq_none (List.drop_eq_nil_iff.mp hall)] at hs
        exact absurd hs (by simp)
  | resultShown =>
      -- no ad is open behind which Connected waits
      obtain ⟨⟨hpos, _⟩, _⟩ := of_enabled hs
      exact absurd h.resultJobs (Nat.ne_of_gt hpos)
  | flush =>
      simp only [step] at hs
      split at hs
      next => exact absurd hs (by simp)
      next st hst =>
        rw [← Option.some.inj hs]
        refine ⟨h.told, ?_, by simp, h.launching, h.starts, h.resultJobs, h.connecting⟩
        rcases h.posted st hst with rfl | ⟨hleft, rfl⟩
        · exact Or.inl rfl
        · exact Or.inr ⟨hleft, rfl⟩
  | deliverClose =>
      obtain ⟨_, hs⟩ := Option.ite_none_right_eq_some.mp hs
      obtain ⟨h', hh, rfl⟩ := hostStep_spec hs
      obtain ⟨ph, hph⟩ := hb.phase
      exact h.of_host hb hh (close_of_stopped hph h.told.1 (Host.step_spec hh).2.1) _
  | deliverStart =>
      obtain ⟨hpos, _⟩ := Option.ite_none_right_eq_some.mp hs
      exact absurd h.starts (Nat.ne_of_gt hpos)
  | service l =>
      obtain ⟨hown, hs⟩ := Option.ite_none_right_eq_some.mp hs
      obtain ⟨h', hh, rfl⟩ := hostStep_spec hs
      obtain ⟨ph, hph⟩ := hb.phase
      obtain rfl := hph.of_stopped h.told.1
      exact h.of_host hb hh (Service.step_stopped hph (Host.step_spec hh).2.1
        (wakes_of_own h.told.1 hown)) _

/-! ## §3. Every run. -/

/-- The screen shows a session whose permission has been revoked after the
click on Disconnect. -/
def revokedLabels : List Label :=
  [.process [parisServer] [], .registerCallback, .onServiceConnected] ++ adConnect
    ++ [.stopVpn, .service .revoke] ++ sessionEnds

def revokedDevice : Device := (exec (step fun _ => none) {} revokedLabels).getD {}

/-- What follows: the CLOSE is not heard, and the screen is left. -/
def unheard : List Label := [.stopService 0, .deliverClose, .onStop, .flush]

def unheardEnd : Device :=
  (exec (step fun _ => none) revokedDevice (.disconnecting 0 :: .flush :: unheard)).getD {}

end FoxVpn.App.Device
