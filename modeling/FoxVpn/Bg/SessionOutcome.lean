/-
  FoxVpn.Bg.SessionOutcome
  ────────────────────────
  **WHERE A SESSION COMES FROM AND WHY IT ENDS.**

  Two things the components around the service depend on, said once for
  every step (`step_outcome`):

      session   the profile of a running session never changes, and a new
                one is the profile of an accepted start command
      cause     a session ends on request, or with a failure that is being
                reported

  A failure, once there, stays visible: as the message of a live stop, then
  as the message broadcast with Stopped.
-/
import FoxVpn.Bg.Lifecycle

namespace FoxVpn.Bg.Service

open FoxVpn.Lib FoxVpn.Database

/-! ## §1. The notions. -/

/-- The profile of the running session, Connecting or Connected. -/
def sessionProfile (s : Service) : Option Profile :=
  if s.state = .connecting ∨ s.state = .connected then s.proxy.map (·.profile) else none

/-- A failure has been reported, or is the message of a live stop. -/
def Failing (s : Service) : Prop :=
  (∃ e ∈ s.sent, e.msg ≠ none) ∨ ∃ k, (s.stops k).pc.live = true ∧ (s.stops k).msg ≠ none

/-- A stop that somebody has asked for, without a message. -/
def Label.closes : Label → Bool
  | .close => true
  | .reload => true
  | .revoke => true
  | .fatal none => true
  | _ => false

/-- What a step from `s` to `s'` does to the session. -/
structure Outcome (s : Service) (l : Label) (s' : Service) : Prop where
  session : ∀ p, s'.sessionProfile = some p → s.sessionProfile = some p
    ∨ (s.state = .stopped ∧ ∃ e, l = .startCommand (some e) ∧ p = e.main)
  failing : s.Failing → s'.Failing
  cause : s.state ≠ .stopping → s'.state = .stopping → s'.Failing ∨ l.closes = true

theorem sessionProfile_stopping {s : Service} (h : s.state = .stopping) :
    s.sessionProfile = none := if_neg (by simp [h])

theorem sessionProfile_stopped {s : Service} (h : s.state = .stopped) :
    s.sessionProfile = none := if_neg (by simp [h])

theorem sessionProfile_congr {s t : Service} (hst : t.state = s.state)
    (hp : t.proxy.map (·.profile) = s.proxy.map (·.profile)) :
    t.sessionProfile = s.sessionProfile := by
  unfold sessionProfile
  rw [hst, hp]

/-! ## §2. Steps that leave the session alone. -/

/-- A step that keeps the state and the profile of the proxy. -/
theorem Outcome.of_frame {s s' : Service} {l : Label} (hst : s'.state = s.state)
    (hp : s'.proxy.map (·.profile) = s.proxy.map (·.profile)) (hf : s.Failing → s'.Failing) :
    Outcome s l s' where
  session p h := by
    rw [sessionProfile_congr hst hp] at h
    exact Or.inl h
  failing := hf
  cause hne h := absurd (hst.symm.trans h) hne

/-- A step of a stop coroutine. -/
theorem Outcome.of_stopping {s s' : Service} {l : Label} (hst : s.state = .stopping)
    (hst' : s'.state = .stopping) (hf : s.Failing → s'.Failing) : Outcome s l s' where
  session p h := absurd (h.symm.trans (sessionProfile_stopping hst')) (by simp)
  failing := hf
  cause hne _ := absurd hst hne

/-- A stop that goes on with its message keeps a failure visible. -/
theorem Failing.update {s s' : Service} {k : Nat} {c : Stop} (h : s.Failing)
    (hsent : s'.sent = s.sent) (hstops : s'.stops = Function.update s.stops k c)
    (hlive : (s.stops k).pc.live = true → c.pc.live = true) (hmsg : c.msg = (s.stops k).msg) :
    s'.Failing := by
  rcases h with h | ⟨i, hi, hm⟩
  · left
    rwa [hsent]
  · right
    refine ⟨i, ?_⟩
    rw [hstops]
    by_cases hik : i = k
    · subst hik
      rw [Function.update_self, hmsg]
      exact ⟨hlive hi, hm⟩
    · rw [Function.update_of_ne hik]
      exact ⟨hi, hm⟩

/-- With the same stops and messages nothing changes. -/
theorem Failing.congr {s s' : Service} (h : s.Failing) (hsent : s'.sent = s.sent)
    (hstops : s'.stops = s.stops) : s'.Failing := by
  unfold Failing
  rw [hsent, hstops]
  exact h

theorem mapSlot_profile (s : Service) (w : Slot) (t : Option TrafficStats) :
    (s.mapSlot (fun p => { p with trafficMonitor := t }) w).proxy.map (·.profile)
      = s.proxy.map (·.profile) := by
  cases w with
  | proxy =>
      show (s.proxy.map _).map _ = _
      rw [Option.map_map]
      rfl
  | udpFallback => rfl

theorem mapSlot_frame (s : Service) (w : Slot) (f : ProxyInstance → ProxyInstance) :
    (s.mapSlot f w).state = s.state ∧ (s.mapSlot f w).sent = s.sent
      ∧ (s.mapSlot f w).stops = s.stops := by
  cases w <;> exact ⟨rfl, rfl, rfl⟩

/-! ## §3. Stopping. -/

theorem launchStop_state (s : Service) (c : Stop) : (s.launchStop c).state = s.state := by
  unfold launchStop
  split <;> rfl

theorem launchStop_sent (s : Service) (c : Stop) : (s.launchStop c).sent = s.sent := by
  unfold launchStop
  split <;> rfl

/-- The launched stop is alive and has its message. -/
theorem launchStop_stop (s : Service) (c : Stop) :
    ((s.launchStop c).stops s.nextStop).pc.live = true
      ∧ ((s.launchStop c).stops s.nextStop).msg = c.msg := by
  unfold launchStop
  split
  next j _ =>
    show (Function.update s.stops s.nextStop _ s.nextStop).pc.live = true
      ∧ (Function.update s.stops s.nextStop _ s.nextStop).msg = c.msg
    rw [Function.update_self]
    exact ⟨rfl, rfl⟩
  next =>
    show (Function.update s.stops s.nextStop _ s.nextStop).pc.live = true
      ∧ (Function.update s.stops s.nextStop _ s.nextStop).msg = c.msg
    rw [Function.update_self]
    exact ⟨rfl, rfl⟩

theorem changeState_sent (s : Service) (st : State) (msg : Option Message) :
    ∀ e ∈ s.sent, e ∈ (s.changeState st msg).sent := by
  intro e he
  unfold changeState
  split
  next => exact he
  next => exact List.mem_append_left _ he

theorem changeState_state (s : Service) (st : State) (msg : Option Message) :
    (s.changeState st msg).state = st := by
  obtain ⟨out, hout⟩ := changeState_eq s st msg
  rw [hout]

theorem changeState_frame (s : Service) (st : State) (msg : Option Message) :
    (s.changeState st msg).proxy = s.proxy ∧ (s.changeState st msg).stops = s.stops := by
  obtain ⟨out, hout⟩ := changeState_eq s st msg
  rw [hout]
  exact ⟨rfl, rfl⟩

theorem stopRunner_state (s : Service) (restart : Bool) (msg : Option Message) :
    (s.stopRunner restart msg).state = .stopping := by
  unfold stopRunner
  split
  next h => exact h
  next => rw [launchStop_state, changeState_state]

/-- A failure survives `stopRunner`: outside Stopping no stop is alive, so
it has been reported already. -/
theorem stopRunner_failing {s : Service} {ph : Phase} (h : s.InPhase ph) (restart : Bool)
    (msg : Option Message) (hf : s.Failing) : (s.stopRunner restart msg).Failing := by
  unfold stopRunner
  by_cases hst : s.state = .stopping
  · rwa [if_pos hst]
  · rw [if_neg hst]
    rcases hf with ⟨e, he, hmsg⟩ | ⟨k, hk, _⟩
    · left
      refine ⟨e, ?_, hmsg⟩
      rw [launchStop_sent]
      exact changeState_sent s _ _ e he
    · exact absurd ((h.idle_stops hst).2.1 k hk) (by simp)

/-- A `stopRunner` call with a message makes the failure visible. -/
theorem stopRunner_reports {s : Service} (hst : s.state ≠ .stopping) (restart : Bool)
    {msg : Option Message} (hmsg : msg ≠ none) : (s.stopRunner restart msg).Failing := by
  unfold stopRunner
  rw [if_neg hst]
  obtain ⟨hlive, hm⟩ := launchStop_stop (s.changeState .stopping none) { restart, msg }
  exact Or.inr ⟨_, hlive, by rw [hm]; exact hmsg⟩

/-- A handler that calls `stopRunner`, on request or with a message. -/
theorem stopRunner_outcome {s : Service} {ph : Phase} {l : Label} (h : s.InPhase ph)
    (restart : Bool) (msg : Option Message) (hl : msg = none → l.closes = true) :
    Outcome s l (s.stopRunner restart msg) where
  session p hp :=
    absurd (hp.symm.trans (sessionProfile_stopping (stopRunner_state s restart msg))) (by simp)
  failing := stopRunner_failing h restart msg
  cause hne _ := by
    by_cases hmsg : msg = none
    · exact Or.inr (hl hmsg)
    · exact Or.inl (stopRunner_reports hne restart hmsg)

/-! ## §4. Starting. -/

/-- A proxy instance is of the profile it was made for. -/
theorem new_profile {decode : String → Option Nat} {profile : Profile} {route : String}
    {x : ProxyInstance} (h : ProxyInstance.new decode profile route = .ok x) :
    x.profile = profile := by
  unfold ProxyInstance.new at h
  split at h
  next =>
    split at h
    next =>
      split at h
      next =>
        cases hk : checkKeys decode (profile.password.splitOn ":") with
        | ok _ =>
            rw [hk] at h
            injection h with h
            rw [← h]
        | error e =>
            rw [hk] at h
            exact absurd h (by simp [Except.map])
      next =>
        injection h with h
        rw [← h]
    next => exact absurd h (by simp)
  next => exact absurd h (by simp)

theorem connect_spec (s : Service) (profile : Profile) :
    (s.connect profile).state = .connecting ∧ (s.connect profile).proxy = s.proxy
      ∧ (s.connect profile).stops = s.stops
      ∧ ∀ e ∈ s.sent, e ∈ (s.connect profile).sent := by
  unfold connect changeState launchJob
  split
  next h => exact ⟨h.1, rfl, rfl, fun _ he => he⟩
  next => exact ⟨rfl, rfl, rfl, fun _ he => List.mem_append_left _ he⟩

/-- A start that is refused is a failure on its way to the user. -/
theorem refuse_outcome {s t : Service} {l : Label} (hst : t.state = .stopped) (msg : Message) :
    Outcome s l (t.refuse msg) := by
  have hfail : (t.refuse msg).Failing :=
    stopRunner_reports (s := { t with notification := some "" })
      (by show t.state ≠ .stopping; rw [hst]; decide) false (by simp)
  have hstop : (t.refuse msg).state = .stopping := stopRunner_state _ _ _
  exact ⟨fun p hp => absurd (hp.symm.trans (sessionProfile_stopping hstop)) (by simp),
    fun _ => hfail, fun _ _ => Or.inl hfail⟩

/-- A start that is accepted begins the session of its profile. -/
theorem connect_outcome {s t : Service} {e : ExpandedProfile} {proxy : ProxyInstance}
    (hst : s.state = .stopped) (hproxy : t.proxy = some proxy) (hprofile : proxy.profile = e.main)
    (hstops : t.stops = s.stops) (hsent : t.sent = s.sent) :
    Outcome s (.startCommand (some e)) (t.connect e.main) := by
  obtain ⟨hstate, hp, hs, hmono⟩ := connect_spec t e.main
  refine ⟨fun p h => Or.inr ⟨hst, e, rfl, ?_⟩, fun hf => ?_, fun _ h => ?_⟩
  · unfold sessionProfile at h
    rw [if_pos (Or.inl hstate), hp, hproxy] at h
    rw [← hprofile]
    exact (Option.some.inj h).symm
  · rcases hf with ⟨x, hx, hm⟩ | ⟨k, hk, hm⟩
    · exact Or.inl ⟨x, hmono x (by rw [hsent]; exact hx), hm⟩
    · exact Or.inr ⟨k, by rw [hs, hstops]; exact ⟨hk, hm⟩⟩
  · exact absurd (hstate.symm.trans h) (by decide)

theorem onStartCommand_outcome (decode : String → Option Nat) (s : Service)
    (expanded : Option ExpandedProfile) :
    Outcome s (.startCommand expanded) (s.onStartCommand decode expanded) := by
  unfold onStartCommand
  by_cases hst : s.state = .stopped
  · rw [if_neg (by simp [hst])]
    split
    next => exact refuse_outcome hst _
    next e =>
      split
      next => exact refuse_outcome hst _
      next proxy hnew =>
        split
        next => exact connect_outcome hst rfl (new_profile hnew) rfl rfl
        next =>
          split
          next => exact refuse_outcome (t := { s with proxy := some proxy }) hst _
          next => exact connect_outcome hst rfl (new_profile hnew) rfl rfl
  · rw [if_pos hst]
    exact .of_frame rfl rfl fun h => h

/-! ## §5. The connecting job and the end of a stop. -/

/-- The catch blocks: nothing, or a failure. -/
theorem catchThrown_outcome {s : Service} {ph : Phase} {l : Label} (h : s.InPhase ph) (j : Nat)
    (e : Thrown) : Outcome s l (s.catchThrown j e) := by
  cases e with
  | cancellation => exact .of_frame rfl rfl fun h => h
  | other message =>
      have hout : Outcome s l (s.stopRunner false (some (.serviceFailed message))) :=
        stopRunner_outcome h false _ (by simp)
      exact ⟨hout.session, hout.failing, hout.cause⟩

theorem startUp_outcome {s : Service} {ph : Phase} {l : Label} (h : s.InPhase ph) {j : Nat}
    (hres : s.Resumes j .startUp) (n : Nat) (message : String) :
    Outcome s l (if startEffects.length ≤ n then (s.startUp n).goto j (.sendFd 0)
      else (s.startUp n).catchThrown j (.other message)) := by
  have hf := startUp_frame s n
  by_cases hn : startEffects.length ≤ n
  · rw [if_pos hn]
    exact .of_frame hf.state hf.proxy fun h => h.congr hf.sent hf.stops
  · rw [if_neg hn]
    obtain ⟨_, hj, hc⟩ := hres
    have hact : (s.jobs j).pc.active = true := by rw [hj]; rfl
    obtain ⟨rfl, _⟩ := h.of_resumes hact hc
    have hout : Outcome (s.startUp n) l ((s.startUp n).catchThrown j (.other message)) :=
      catchThrown_outcome (startUp_inPhase h hj n) j _
    refine ⟨fun p hp => ?_, fun hfail => hout.failing (hfail.congr hf.sent hf.stops), ?_⟩
    · rw [← sessionProfile_congr hf.state hf.proxy, ← hf.state]
      exact hout.session p hp
    · rw [← hf.state]
      exact hout.cause

/-- Connected: the session is the one that was connecting. -/
theorem attempt_outcome {s : Service} {ph : Phase} {l : Label} (h : s.InPhase ph) {j tries : Nat}
    (hj : (s.jobs j).pc = .sendFd tries) (hc : (s.jobs j).cancelled = false)
    (failure : Option String) : Outcome s l (s.attempt j tries failure) := by
  have hact : (s.jobs j).pc.active = true := by rw [hj]; rfl
  cases failure with
  | none =>
      obtain ⟨rfl, _⟩ := h.of_resumes hact hc
      have hstate : (s.attempt j tries none).state = .connected :=
        changeState_state s .connected none
      obtain ⟨hproxy, hstops⟩ := changeState_frame s .connected none
      refine ⟨fun p hp => Or.inl ?_, fun hf => ?_, fun _ hst => ?_⟩
      · unfold sessionProfile at hp ⊢
        rw [if_pos (Or.inr hstate)] at hp
        rw [if_pos (Or.inl h.1), ← hproxy]
        exact hp
      · rcases hf with ⟨e, he, hm⟩ | ⟨k, hk⟩
        · exact Or.inl ⟨e, changeState_sent s _ _ e he, hm⟩
        · rw [← hstops] at hk
          exact Or.inr ⟨k, hk⟩
      · exact absurd (hstate.symm.trans hst) (by decide)
  | some message =>
      unfold attempt
      by_cases ht : 5 < tries
      · simp only [if_pos ht]
        exact catchThrown_outcome h j _
      · simp only [if_neg ht]
        exact .of_frame rfl rfl fun h => h

/-- The end of a stop broadcasts its message. -/
theorem endStop_outcome {s : Service} {k : Nat} {l : Label} (h : s.InPhase (.awaiting k)) :
    Outcome s l (s.endStop k) := by
  have hstate : (s.endStop k).state = .stopped := (endStop_inPhase h).1
  have hsent : (s.endStop k).sent = (s.changeState .stopped (s.stops k).msg).sent := by
    unfold endStop
    dsimp only
    split <;> rfl
  refine ⟨fun p hp => ?_, fun hf => Or.inl ?_, fun _ hst => ?_⟩
  · exact absurd (hp.symm.trans (sessionProfile_stopped hstate)) (by simp)
  · rw [hsent]
    rcases hf with ⟨e, he, hm⟩ | ⟨i, hi, hm⟩
    · exact ⟨e, changeState_sent s _ _ e he, hm⟩
    · -- the only live stop is this one
      obtain rfl : k = i := Option.some.inj (h.2.2.1 i hi)
      refine ⟨⟨.stopped, s.profileName, (s.stops k).msg⟩, ?_, hm⟩
      unfold changeState
      rw [if_neg fun hc => hm hc.2]
      exact List.mem_append_right _ (List.mem_singleton.mpr rfl)
  · exact absurd (hstate.symm.trans hst) (by decide)

theorem shutdownProxy_outcome {s : Service} {k : Nat} {l : Label} {w : Slot} {rest : List Slot}
    (h : s.InPhase (.cleaning k)) (row : Option Profile) :
    Outcome s l (s.shutdownProxy k w rest row) := by
  refine .of_stopping h.1 (shutdownProxy_inPhase h w rest row).1 fun hf => ?_
  unfold shutdownProxy
  split
  next => exact hf.update rfl rfl (fun _ => rfl) rfl
  next =>
    obtain ⟨_, hsent, hstops⟩ := mapSlot_frame s w fun p => { p with trafficMonitor := none }
    have hf' := hf.congr hsent hstops
    cases row with
    | none =>
        refine hf'.update rfl rfl (fun _ => rfl) ?_
        rw [hstops]
    | some r =>
        refine hf'.update rfl rfl (fun _ => rfl) ?_
        rw [hstops]

/-! ## §6. Every step. -/

/-- **What a step does to the session.** -/
theorem step_outcome {decode : String → Option Nat} {s s' : Service} {l : Label} {ph : Phase}
    (h : s.InPhase ph) (hs : step decode s l = some s') : Outcome s l s' := by
  cases l with
  | startCommand expanded =>
      obtain ⟨_, rfl⟩ := of_enabled hs
      exact onStartCommand_outcome decode s expanded
  | close =>
      obtain ⟨_, rfl⟩ := of_enabled hs
      split
      next => exact stopRunner_outcome h false none fun _ => rfl
      next => exact .of_frame rfl rfl fun h => h
  | reload =>
      obtain ⟨_, rfl⟩ := of_enabled hs
      split
      next =>
        unfold forceLoad
        split
        next => exact .of_frame rfl rfl fun h => h
        next =>
          split
          next => exact stopRunner_outcome h true none fun _ => rfl
          next => exact .of_frame rfl rfl fun h => h
      next => exact .of_frame rfl rfl fun h => h
  | revoke =>
      obtain ⟨_, rfl⟩ := of_enabled hs
      exact stopRunner_outcome h false none fun _ => rfl
  | fatal message =>
      obtain ⟨_, rfl⟩ := of_enabled hs
      refine stopRunner_outcome h false _ fun hnone => ?_
      cases message with
      | none => rfl
      | some m => exact absurd hnone (by simp)
  | report w stats =>
      obtain ⟨_, rfl⟩ := of_enabled hs
      obtain ⟨hst, hsent, hstops⟩ :=
        mapSlot_frame s w fun p => { p with trafficMonitor := some stats }
      exact .of_frame hst (mapSlot_profile s w _) fun h => h.congr hsent hstops
  | dispatch j =>
      obtain ⟨_, rfl⟩ := of_enabled hs
      exact .of_frame rfl rfl fun h => h
  | drop j =>
      obtain ⟨_, rfl⟩ := of_enabled hs
      exact .of_frame rfl rfl fun h => h
  | startTaken j =>
      obtain ⟨_, rfl⟩ := of_enabled hs
      exact .of_frame rfl rfl fun h => h
  | preInitDone j =>
      obtain ⟨_, rfl⟩ := of_enabled hs
      exact .of_frame rfl rfl fun h => h
  | flattened j =>
      obtain ⟨_, rfl⟩ := of_enabled hs
      exact .of_frame rfl rfl fun h => h
  | startUp j n message =>
      obtain ⟨⟨hr, _⟩, rfl⟩ := of_enabled hs
      exact startUp_outcome h hr n message
  | sendFd j failure =>
      obtain ⟨tries, ⟨_, hj, hc⟩, rfl⟩ := of_sendFd hs
      exact attempt_outcome h hj hc failure
  | throw j e =>
      obtain ⟨_, rfl⟩ := of_enabled hs
      exact catchThrown_outcome h j e
  | joined k =>
      obtain ⟨j, hk, _, rfl⟩ := of_joined hs
      obtain rfl := h.of_joining hk
      exact .of_stopping h.1 h.1 fun hf => hf.update rfl rfl (fun _ => rfl) rfl
  | persistRead k row =>
      obtain ⟨w, rest, hk, rfl⟩ := of_persistRead hs
      obtain rfl := h.of_holdsMain (k := k) (by rw [hk]; rfl)
      exact shutdownProxy_outcome h row
  | persistWrite k =>
      obtain ⟨rest, row, hk, rfl⟩ := of_persistWrite hs
      obtain rfl := h.of_holdsMain (k := k) (by rw [hk]; rfl)
      exact .of_stopping h.1 h.1 fun hf => hf.update rfl rfl (fun _ => rfl) rfl
  | shutdownDone k =>
      obtain ⟨hk, rfl⟩ := of_shutdownDone hs
      obtain rfl := h.of_holdsMain (k := k) (by rw [hk]; rfl)
      exact .of_stopping h.1 h.1 fun hf => hf.update rfl rfl (fun _ => rfl) rfl
  | childDone k c =>
      obtain ⟨_, rfl⟩ := of_enabled hs
      exact .of_frame rfl rfl fun hf => hf.update rfl rfl (fun h => h) rfl
  | stopped k =>
      obtain ⟨⟨_, hk, _⟩, rfl⟩ := of_enabled hs
      obtain rfl := h.of_awaiting hk
      exact endStop_outcome h

/-! ## §7. Sessions and phases. -/

theorem InPhase.sessionProfile_isSome {s : Service} {ph : Phase} (h : s.InPhase ph) :
    s.sessionProfile.isSome = ph.inSession := by
  unfold sessionProfile
  cases ph with
  | connecting =>
      obtain ⟨hst, _, _, heq, _⟩ := h
      rw [if_pos (Or.inl hst), Option.isSome_map]
      exact heq.1
  | connected =>
      obtain ⟨hst, _, _, _, heq, _⟩ := h
      rw [if_pos (Or.inr hst), Option.isSome_map]
      exact heq.1
  | stopped => rw [if_neg (by simp [h.1])]; rfl
  | joining k j => rw [if_neg (by simp [h.1])]; rfl
  | cleaning k => rw [if_neg (by simp [h.1])]; rfl
  | awaiting k => rw [if_neg (by simp [h.1])]; rfl

/-- Without a request and without a failure the session goes on as it
is, and none begins without a start command. -/
theorem sessionProfile_step {decode : String → Option Nat} {s s' : Service} {l : Label}
    {ph : Phase} (h : s.InPhase ph) (hs : step decode s l = some s') (hl : l.closes = false)
    (hstart : ∀ e, l ≠ .startCommand e) (hf : ¬ s'.Failing) :
    s'.sessionProfile = s.sessionProfile := by
  have hout := step_outcome h hs
  cases hp' : s'.sessionProfile with
  | some p =>
      rcases hout.session p hp' with hp | ⟨_, e, he, _⟩
      · exact hp.symm
      · exact absurd he (hstart _)
  | none =>
      cases hp : s.sessionProfile with
      | none => rfl
      | some p =>
          obtain ⟨ph', hph', hnext⟩ := step_follows h hs
          have hin : ph.inSession = true := by rw [← h.sessionProfile_isSome, hp]; rfl
          have hnot : ph'.inSession = false := by rw [← hph'.sessionProfile_isSome, hp']; rfl
          have hst' := hph'.state_eq.trans (hnext.leaves_session hin hnot)
          have hst : s.state ≠ .stopping := by
            rw [h.state_eq]
            cases ph <;> first | decide | exact absurd hin Bool.false_ne_true
          rcases hout.cause hst hst' with hfail | hclose
          · exact absurd hfail hf
          · exact absurd (hl.symm.trans hclose) (by simp)

/-- A start command that finds the service Stopped is never ignored. -/
theorem onStartCommand_not_stopped (decode : String → Option Nat) {s : Service}
    (hst : s.state = .stopped) (expanded : Option ExpandedProfile) :
    (s.onStartCommand decode expanded).state ≠ .stopped := by
  have hrefuse : ∀ (t : Service) (msg : Message), (t.refuse msg).state ≠ .stopped := by
    intro t msg
    rw [show (t.refuse msg).state = .stopping from stopRunner_state _ _ _]
    decide
  have hconnect : ∀ (t : Service) (p : Profile), (t.connect p).state ≠ .stopped := by
    intro t p
    rw [(connect_spec t p).1]
    decide
  unfold onStartCommand
  rw [if_neg (by simp [hst])]
  split
  next => exact hrefuse s _
  next =>
    split
    next => exact hrefuse s _
    next =>
      split
      next => exact hconnect _ _
      next =>
        split
        next => exact hrefuse _ _
        next => exact hconnect _ _

/-! ## §8. What is broadcast. -/

/-- At most one event is broadcast, and it has the new state. -/
def Broadcasts (s s' : Service) : Prop :=
  s'.sent = s.sent ∨ ∃ e, s'.sent = s.sent ++ [e] ∧ e.state = s'.state

theorem changeState_broadcasts (s : Service) (st : State) (msg : Option Message) :
    Broadcasts s (s.changeState st msg) := by
  unfold changeState
  split
  next => exact Or.inl rfl
  next => exact Or.inr ⟨_, rfl, rfl⟩

theorem Broadcasts.congr {s t s' t' : Service} (h : Broadcasts s s') (hsent : t.sent = s.sent)
    (hsent' : t'.sent = s'.sent) (hst' : t'.state = s'.state) : Broadcasts t t' := by
  unfold Broadcasts
  rw [hsent, hsent', hst']
  exact h

theorem stopRunner_broadcasts (s : Service) (restart : Bool) (msg : Option Message) :
    Broadcasts s (s.stopRunner restart msg) := by
  unfold stopRunner
  split
  next => exact Or.inl rfl
  next =>
    exact (changeState_broadcasts s .stopping none).congr rfl (launchStop_sent _ _)
      (launchStop_state _ _)

theorem connect_broadcasts (s : Service) (profile : Profile) :
    Broadcasts s (s.connect profile) :=
  (changeState_broadcasts
    { s with closeReceiverRegistered := true, notification := some profile.formattedName }
    .connecting none).congr rfl rfl rfl

theorem onStartCommand_broadcasts (decode : String → Option Nat) (s : Service)
    (expanded : Option ExpandedProfile) : Broadcasts s (s.onStartCommand decode expanded) := by
  have hrefuse : ∀ (t : Service) (msg : Message), t.sent = s.sent → Broadcasts s (t.refuse msg) :=
    fun t msg ht =>
      (stopRunner_broadcasts { t with notification := some "" } false (some msg)).congr
        ht.symm rfl rfl
  unfold onStartCommand
  split
  next => exact Or.inl rfl
  next =>
    split
    next => exact hrefuse s _ rfl
    next e =>
      split
      next => exact hrefuse s _ rfl
      next proxy _ =>
        split
        next => exact connect_broadcasts { s with proxy := some proxy, udpFallback := none } e.main
        next =>
          split
          next => exact hrefuse { s with proxy := some proxy } _ rfl
          next udp _ =>
            exact connect_broadcasts { s with proxy := some proxy, udpFallback := some udp } e.main

theorem catchThrown_broadcasts (s : Service) (j : Nat) (e : Thrown) :
    Broadcasts s (s.catchThrown j e) := by
  cases e with
  | cancellation => exact Or.inl rfl
  | other message =>
      exact (stopRunner_broadcasts s false (some (.serviceFailed message))).congr rfl rfl rfl

theorem attempt_broadcasts (s : Service) (j tries : Nat) (failure : Option String) :
    Broadcasts s (s.attempt j tries failure) := by
  cases failure with
  | none => exact (changeState_broadcasts s .connected none).congr rfl rfl rfl
  | some message =>
      unfold attempt
      by_cases ht : 5 < tries
      · simp only [if_pos ht]
        exact catchThrown_broadcasts s j _
      · simp only [if_neg ht]
        exact Or.inl rfl

theorem endStop_broadcasts (s : Service) (k : Nat) : Broadcasts s (s.endStop k) := by
  unfold endStop
  dsimp only
  split <;> exact (changeState_broadcasts s .stopped (s.stops k).msg).congr rfl rfl rfl

theorem shutdownProxy_sent (s : Service) (k : Nat) (w : Slot) (rest : List Slot)
    (row : Option Profile) : (s.shutdownProxy k w rest row).sent = s.sent := by
  unfold shutdownProxy
  split
  next => rfl
  next => exact (mapSlot_frame s w fun p => { p with trafficMonitor := none }).2.1

/-- **Every step broadcasts the state it leads to, or nothing.** -/
theorem step_broadcasts {decode : String → Option Nat} {s s' : Service} {l : Label}
    (hs : step decode s l = some s') : Broadcasts s s' := by
  cases l with
  | startCommand expanded =>
      obtain ⟨_, rfl⟩ := of_enabled hs
      exact onStartCommand_broadcasts decode s expanded
  | close =>
      obtain ⟨_, rfl⟩ := of_enabled hs
      split
      next => exact stopRunner_broadcasts s false none
      next => exact Or.inl rfl
  | reload =>
      obtain ⟨_, rfl⟩ := of_enabled hs
      unfold forceLoad
      split
      next =>
        split
        next => exact Or.inl rfl
        next =>
          split
          next => exact stopRunner_broadcasts s true none
          next => exact Or.inl rfl
      next => exact Or.inl rfl
  | revoke =>
      obtain ⟨_, rfl⟩ := of_enabled hs
      exact stopRunner_broadcasts s false none
  | fatal message =>
      obtain ⟨_, rfl⟩ := of_enabled hs
      exact stopRunner_broadcasts s false _
  | report w stats =>
      obtain ⟨_, rfl⟩ := of_enabled hs
      exact Or.inl (mapSlot_frame s w _).2.1
  | dispatch j => exact Or.inl (by rw [← (of_enabled hs).2]; rfl)
  | drop j => exact Or.inl (by rw [← (of_enabled hs).2]; rfl)
  | startTaken j => exact Or.inl (by rw [← (of_enabled hs).2]; rfl)
  | preInitDone j => exact Or.inl (by rw [← (of_enabled hs).2]; rfl)
  | flattened j => exact Or.inl (by rw [← (of_enabled hs).2]; rfl)
  | startUp j n message =>
      obtain ⟨_, rfl⟩ := of_enabled hs
      have hsent := (startUp_frame s n).sent
      split
      next => exact Or.inl hsent
      next => exact (catchThrown_broadcasts (s.startUp n) j _).congr hsent.symm rfl rfl
  | sendFd j failure =>
      obtain ⟨tries, _, rfl⟩ := of_sendFd hs
      exact attempt_broadcasts s j tries failure
  | throw j e =>
      obtain ⟨_, rfl⟩ := of_enabled hs
      exact catchThrown_broadcasts s j e
  | joined k =>
      obtain ⟨_, _, _, rfl⟩ := of_joined hs
      exact Or.inl rfl
  | persistRead k row =>
      obtain ⟨w, rest, _, rfl⟩ := of_persistRead hs
      exact Or.inl (shutdownProxy_sent s k w rest row)
  | persistWrite k =>
      obtain ⟨_, _, _, rfl⟩ := of_persistWrite hs
      exact Or.inl rfl
  | shutdownDone k =>
      obtain ⟨_, rfl⟩ := of_shutdownDone hs
      exact Or.inl rfl
  | childDone k c => exact Or.inl (by rw [← (of_enabled hs).2]; rfl)
  | stopped k =>
      obtain ⟨_, rfl⟩ := of_enabled hs
      exact endStop_broadcasts s k

/-! ## §9. A Stopped service. -/

/-- The labels a Stopped service reacts to. -/
def Label.wakes : Label → Bool
  | .startCommand _ => true
  | .close => true
  | .reload => true
  | .revoke => true
  | .fatal _ => true
  | _ => false

/-- Nothing else moves a Stopped service: no job and no stop is alive. -/
theorem step_stopped {decode : String → Option Nat} {s s' : Service} {l : Label}
    (h : s.InPhase .stopped) (hs : step decode s l = some s') (hl : l.wakes = false) :
    s'.state = .stopped := by
  have hjob : ∀ j, (s.jobs j).pc.active ≠ true := by
    intro j hj
    rcases h.of_active hj with ⟨hph, _⟩ | ⟨_, hph, _⟩ <;> exact absurd hph (by simp)
  have hstop : ∀ k, (s.stops k).pc.live ≠ true := by
    intro k hk
    exact absurd (h.2.2.1 k hk) (by simp)
  cases l with
  | startCommand expanded => exact absurd hl (by simp [Label.wakes])
  | close => exact absurd hl (by simp [Label.wakes])
  | reload => exact absurd hl (by simp [Label.wakes])
  | revoke => exact absurd hl (by simp [Label.wakes])
  | fatal message => exact absurd hl (by simp [Label.wakes])
  | report w stats =>
      obtain ⟨_, rfl⟩ := of_enabled hs
      rw [(mapSlot_frame s w _).1]
      exact h.1
  | dispatch j => rw [← (of_enabled hs).2]; exact h.1
  | drop j => rw [← (of_enabled hs).2]; exact h.1
  | startTaken j => rw [← (of_enabled hs).2]; exact h.1
  | preInitDone j => rw [← (of_enabled hs).2]; exact h.1
  | flattened j => rw [← (of_enabled hs).2]; exact h.1
  | childDone k c => rw [← (of_enabled hs).2]; exact h.1
  | startUp j n message =>
      obtain ⟨⟨⟨_, hj, _⟩, _⟩, _⟩ := of_enabled hs
      exact absurd (by rw [hj]; rfl) (hjob j)
  | sendFd j failure =>
      obtain ⟨_, ⟨_, hj, _⟩, _⟩ := of_sendFd hs
      exact absurd (by rw [hj]; rfl) (hjob j)
  | throw j e =>
      obtain ⟨⟨_, hj, _⟩, _⟩ := of_enabled hs
      exact absurd hj (hjob j)
  | joined k =>
      obtain ⟨_, hk, _⟩ := of_joined hs
      exact absurd (by rw [hk]; rfl) (hstop k)
  | persistRead k row =>
      obtain ⟨_, _, hk, _⟩ := of_persistRead hs
      exact absurd (by rw [hk]; rfl) (hstop k)
  | persistWrite k =>
      obtain ⟨_, _, hk, _⟩ := of_persistWrite hs
      exact absurd (by rw [hk]; rfl) (hstop k)
  | shutdownDone k =>
      obtain ⟨hk, _⟩ := of_shutdownDone hs
      exact absurd (by rw [hk]; rfl) (hstop k)
  | stopped k =>
      obtain ⟨⟨_, hk, _⟩, _⟩ := of_enabled hs
      exact absurd (by rw [hk]; rfl) (hstop k)

/-! ## §10. A state is broadcast when it changes, and only then. -/

/-- Nothing is broadcast and the state stays, or the state changes and the new
one is broadcast. -/
def Announces (s s' : Service) : Prop :=
  (s'.sent = s.sent ∧ s'.state = s.state)
    ∨ (s'.state ≠ s.state ∧ ∃ e, s'.sent = s.sent ++ [e] ∧ e.state = s'.state)

theorem Announces.congr {s t s' t' : Service} (h : Announces s s') (hsent : t.sent = s.sent)
    (hst : t.state = s.state) (hsent' : t'.sent = s'.sent) (hst' : t'.state = s'.state) :
    Announces t t' := by
  unfold Announces
  rw [hsent, hst, hsent', hst']
  exact h

/-- Without a change of the state nothing has been broadcast. -/
theorem Announces.sent_eq {s s' : Service} (h : Announces s s') (hst : s'.state = s.state) :
    s'.sent = s.sent := by
  rcases h with ⟨hsent, _⟩ | ⟨hne, _⟩
  · exact hsent
  · exact absurd hst hne

theorem changeState_announces {s : Service} {st : State} (hne : s.state ≠ st)
    (msg : Option Message) : Announces s (s.changeState st msg) := by
  unfold changeState
  rw [if_neg fun hc => hne hc.1]
  exact Or.inr ⟨Ne.symm hne, _, rfl, rfl⟩

theorem stopRunner_announces (s : Service) (restart : Bool) (msg : Option Message) :
    Announces s (s.stopRunner restart msg) := by
  unfold stopRunner
  split
  next => exact Or.inl ⟨rfl, rfl⟩
  next hne =>
    exact (changeState_announces hne none).congr rfl rfl (launchStop_sent _ _)
      (launchStop_state _ _)

theorem onStartCommand_announces (decode : String → Option Nat) (s : Service)
    (expanded : Option ExpandedProfile) : Announces s (s.onStartCommand decode expanded) := by
  have hrefuse : ∀ (t : Service) (msg : Message), t.sent = s.sent → t.state = s.state →
      Announces s (t.refuse msg) :=
    fun t msg hsent hst => (stopRunner_announces { t with notification := some "" } false
      (some msg)).congr hsent.symm hst.symm rfl rfl
  have hconnect : ∀ (t : Service) (p : Profile), s.state = .stopped → t.sent = s.sent →
      t.state = s.state → Announces s (t.connect p) := by
    intro t p hstopped hsent hst
    have hne : t.state ≠ .connecting := by
      rw [hst, hstopped]
      decide
    exact (changeState_announces (s := { t with
      closeReceiverRegistered := true, notification := some p.formattedName }) hne none).congr
      hsent.symm hst.symm rfl rfl
  unfold onStartCommand
  split
  next => exact Or.inl ⟨rfl, rfl⟩
  next hst =>
    have hstopped : s.state = .stopped := not_ne_iff.mp hst
    split
    next => exact hrefuse s _ rfl rfl
    next =>
      split
      next => exact hrefuse s _ rfl rfl
      next =>
        split
        next => exact hconnect _ _ hstopped rfl rfl
        next =>
          split
          next => exact hrefuse _ _ rfl rfl
          next => exact hconnect _ _ hstopped rfl rfl

theorem catchThrown_announces (s : Service) (j : Nat) (e : Thrown) :
    Announces s (s.catchThrown j e) := by
  cases e with
  | cancellation => exact Or.inl ⟨rfl, rfl⟩
  | other message =>
      exact (stopRunner_announces s false (some (.serviceFailed message))).congr rfl rfl rfl rfl

/-- A successful `sendFd` finds the service Connecting. -/
theorem attempt_announces {s : Service} {ph : Phase} (h : s.InPhase ph) {j tries : Nat}
    (hj : (s.jobs j).pc = .sendFd tries) (hc : (s.jobs j).cancelled = false)
    (failure : Option String) : Announces s (s.attempt j tries failure) := by
  cases failure with
  | none =>
      obtain ⟨rfl, _⟩ := h.of_resumes (by rw [hj]; rfl) hc
      have hne : s.state ≠ .connected := by
        rw [h.1]
        decide
      exact (changeState_announces hne none).congr rfl rfl rfl rfl
  | some message =>
      unfold attempt
      by_cases ht : 5 < tries
      · simp only [if_pos ht]
        exact catchThrown_announces s j _
      · simp only [if_neg ht]
        exact Or.inl ⟨rfl, rfl⟩

theorem endStop_announces {s : Service} {k : Nat} (h : s.InPhase (.awaiting k)) :
    Announces s (s.endStop k) := by
  have hne : s.state ≠ .stopped := by
    rw [h.1]
    decide
  unfold endStop
  dsimp only
  split <;> exact (changeState_announces hne (s.stops k).msg).congr rfl rfl rfl rfl

/-- **Every step announces the state it changes, and nothing else.** -/
theorem step_announces {decode : String → Option Nat} {s s' : Service} {l : Label} {ph : Phase}
    (h : s.InPhase ph) (hs : step decode s l = some s') : Announces s s' := by
  cases l with
  | startCommand expanded =>
      obtain ⟨_, rfl⟩ := of_enabled hs
      exact onStartCommand_announces decode s expanded
  | close =>
      obtain ⟨_, rfl⟩ := of_enabled hs
      split
      next => exact stopRunner_announces s false none
      next => exact Or.inl ⟨rfl, rfl⟩
  | reload =>
      obtain ⟨_, rfl⟩ := of_enabled hs
      unfold forceLoad
      split
      next =>
        split
        next => exact Or.inl ⟨rfl, rfl⟩
        next =>
          split
          next => exact stopRunner_announces s true none
          next => exact Or.inl ⟨rfl, rfl⟩
      next => exact Or.inl ⟨rfl, rfl⟩
  | revoke =>
      obtain ⟨_, rfl⟩ := of_enabled hs
      exact stopRunner_announces s false none
  | fatal message =>
      obtain ⟨_, rfl⟩ := of_enabled hs
      exact stopRunner_announces s false _
  | report w stats =>
      obtain ⟨_, rfl⟩ := of_enabled hs
      obtain ⟨hst, hsent, _⟩ := mapSlot_frame s w fun p => { p with trafficMonitor := some stats }
      exact Or.inl ⟨hsent, hst⟩
  | dispatch j => rw [← (of_enabled hs).2]; exact Or.inl ⟨rfl, rfl⟩
  | drop j => rw [← (of_enabled hs).2]; exact Or.inl ⟨rfl, rfl⟩
  | startTaken j => rw [← (of_enabled hs).2]; exact Or.inl ⟨rfl, rfl⟩
  | preInitDone j => rw [← (of_enabled hs).2]; exact Or.inl ⟨rfl, rfl⟩
  | flattened j => rw [← (of_enabled hs).2]; exact Or.inl ⟨rfl, rfl⟩
  | childDone k c => rw [← (of_enabled hs).2]; exact Or.inl ⟨rfl, rfl⟩
  | startUp j n message =>
      obtain ⟨_, rfl⟩ := of_enabled hs
      have hf := startUp_frame s n
      split
      next => exact Or.inl ⟨hf.sent, hf.state⟩
      next =>
        exact (catchThrown_announces (s.startUp n) j _).congr hf.sent.symm hf.state.symm rfl rfl
  | sendFd j failure =>
      obtain ⟨tries, ⟨_, hj, hc⟩, rfl⟩ := of_sendFd hs
      exact attempt_announces h hj hc failure
  | throw j e =>
      obtain ⟨_, rfl⟩ := of_enabled hs
      exact catchThrown_announces s j e
  | joined k =>
      obtain ⟨_, _, _, rfl⟩ := of_joined hs
      exact Or.inl ⟨rfl, rfl⟩
  | persistRead k row =>
      obtain ⟨w, rest, hk, rfl⟩ := of_persistRead hs
      obtain rfl := h.of_holdsMain (k := k) (by rw [hk]; rfl)
      refine Or.inl ⟨shutdownProxy_sent s k w rest row, ?_⟩
      rw [(shutdownProxy_inPhase h w rest row).1, h.1]
  | persistWrite k =>
      obtain ⟨_, _, _, rfl⟩ := of_persistWrite hs
      exact Or.inl ⟨rfl, rfl⟩
  | shutdownDone k =>
      obtain ⟨_, rfl⟩ := of_shutdownDone hs
      exact Or.inl ⟨rfl, rfl⟩
  | stopped k =>
      obtain ⟨⟨_, hk, _⟩, rfl⟩ := of_enabled hs
      obtain rfl := h.of_awaiting hk
      exact endStop_announces h

end FoxVpn.Bg.Service
