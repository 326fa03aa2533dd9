/-
  FoxVpn.Bg.SessionProcesses
  ──────────────────────────
  **STATE STOPPED MEANS THAT NO PROCESS IS LEFT.**

  `FoxVpn.Bg.Service` counts the commands of a session and knows the pool as
  one child of the clean-up; `FoxVpn.Bg.ProcessPool` is the pool with its
  guards and processes, and knows no service.  Here the two run together:

      startUp       `data.processes = GuardedProcessPool`, and a guard for
                    each command that is started
      clean-up      `close(scope)`: cancels the job of the pool, and launches
                    a child of the scope that joins it
      childDone     that child ends ONLY when the pool is joined

  and the guards of all pools move between any two steps of the service:
  processes die and are restarted, callbacks suspend, time-outs fire.

  Main result `stopped_no_process`, over every interleaving: the processes of
  two sessions never live at the same time, and in state Stopped no process of
  any session is alive.  What the pool asks of its user, that no command is
  started once the pool is closed, is what the phases of the service give.
-/
import FoxVpn.Bg.ConfigFiles
import FoxVpn.Bg.ProcessPool

namespace FoxVpn.Bg

open FoxVpn.Lib FoxVpn.Database FoxVpn.Bg.ProcessPool

/-! ## §1. What a step of the service does to the pool. -/

namespace Service

/-- Stop `k` still has to join the pool. -/
def Joins (s : Service) (k : Nat) : Prop := Child.poolJoin ∈ (s.stops k).children

/-- The pool stays, or a clean-up closes it and is left with the join; no
join is forgotten, and only a clean-up has one. -/
structure Handles (s s' : Service) : Prop where
  processes : s'.processes = s.processes ∨ s'.processes = none
    ∧ ∃ k, s'.main = some k ∧ ¬ s.Joins k ∧ (s.processes.isSome = true → s'.Joins k)
  joins : ∀ k, s.Joins k → s'.Joins k
  clean : ∀ k, s'.Joins k → (s'.stops k).pc.cleaning = true
    ∨ s.Joins k ∧ (s'.stops k).pc = (s.stops k).pc

/-- Nothing that matters here changes. -/
theorem handles_of_eq {s s' : Service} (hp : s'.processes = s.processes)
    (hs : s'.stops = s.stops) : Handles s s' := by
  refine ⟨.inl hp, fun k h => ?_, fun k h => .inr ⟨?_, by rw [hs]⟩⟩
  · unfold Joins
    rw [hs]
    exact h
  · unfold Joins at h
    rw [hs] at h
    exact h

theorem Handles.of_left {s t u : Service} (h : Handles t u) (hp : t.processes = s.processes)
    (hs : t.stops = s.stops) : Handles s u := by
  have hj : ∀ k, t.Joins k ↔ s.Joins k := fun k => by unfold Joins; rw [hs]
  refine ⟨?_, fun k hk => h.joins k ((hj k).mpr hk), fun k hk => ?_⟩
  · rw [← hp]
    refine h.processes.imp_right ?_
    rintro ⟨hnone, k, hm, hfresh, hjoin⟩
    exact ⟨hnone, k, hm, fun hk => hfresh ((hj k).mpr hk), hjoin⟩
  · rw [← hs, ← hj]
    exact h.clean k hk

theorem Handles.of_right {s t u : Service} (h : Handles s t) (hp : u.processes = t.processes)
    (hm : u.main = t.main) (hs : u.stops = t.stops) : Handles s u := by
  have hj : ∀ k, u.Joins k ↔ t.Joins k := fun k => by unfold Joins; rw [hs]
  refine ⟨?_, fun k hk => (hj k).mpr (h.joins k hk), fun k hk => ?_⟩
  · rw [hp, hm]
    refine h.processes.imp_right ?_
    rintro ⟨hnone, k, hmain, hfresh, hjoin⟩
    exact ⟨hnone, k, hmain, hfresh, fun hsome => (hj k).mpr (hjoin hsome)⟩
  · rw [hs]
    exact h.clean k ((hj k).mp hk)

/-- Only a stop changes. -/
theorem handles_of_stop {s s' : Service} (k : Nat) (c : Stop) (hp : s'.processes = s.processes)
    (hs : s'.stops = Function.update s.stops k c)
    (hjoin : s.Joins k → Child.poolJoin ∈ c.children)
    (hclean : Child.poolJoin ∈ c.children →
      c.pc.cleaning = true ∨ s.Joins k ∧ c.pc = (s.stops k).pc) : Handles s s' := by
  refine ⟨.inl hp, fun i hi => ?_, fun i hi => ?_⟩
  · unfold Joins
    rw [hs]
    by_cases hik : i = k
    · subst hik
      rw [Function.update_self]
      exact hjoin hi
    · rw [Function.update_of_ne hik]
      exact hi
  · unfold Joins at hi
    rw [hs] at hi ⊢
    by_cases hik : i = k
    · subst hik
      rw [Function.update_self] at hi ⊢
      exact hclean hi
    · rw [Function.update_of_ne hik] at hi ⊢
      exact .inr ⟨hi, rfl⟩

theorem handles_changeState (s : Service) (st : State) (msg : Option Message) :
    Handles s (s.changeState st msg) := by
  obtain ⟨out, hout⟩ := changeState_eq s st msg
  rw [hout]
  exact handles_of_eq rfl rfl

/-- **The clean-up closes the pool**, and joins it if there is one. -/
theorem handles_cleanUp (s : Service) (k : Nat) (c : Stop) (hfresh : ¬ s.Joins k) :
    Handles s (s.cleanUp k c) := by
  have hself : (s.cleanUp k c).stops k
      = { c with pc := .shutdown s.slots, children := s.killChildren } := by
    show Function.update s.stops k _ k = _
    rw [Function.update_self]
  have hother : ∀ i, i ≠ k → (s.cleanUp k c).stops i = s.stops i := by
    intro i hi
    show Function.update s.stops k _ i = _
    rw [Function.update_of_ne hi]
  refine ⟨.inr ⟨rfl, k, rfl, hfresh, fun hsome => ?_⟩, fun i hi => ?_, fun i hi => ?_⟩
  · unfold Joins
    rw [hself]
    show Child.poolJoin ∈ s.killChildren
    unfold killChildren
    simp [hsome]
  · unfold Joins
    rw [hother i fun hik => hfresh (hik ▸ hi)]
    exact hi
  · by_cases hik : i = k
    · subst hik
      rw [hself]
      exact .inl rfl
    · unfold Joins at hi
      rw [hother i hik] at hi ⊢
      exact .inr ⟨hi, rfl⟩

theorem handles_launchStop (s : Service) (c : Stop) (hc : c.children = [])
    (hno : ∀ k, ¬ s.Joins k) : Handles s (s.launchStop c) := by
  unfold launchStop
  split
  next j _ =>
    refine handles_of_stop s.nextStop { c with pc := .joining j } rfl rfl
      (fun h => absurd h (hno _)) fun h => ?_
    rw [hc] at h
    exact absurd h List.not_mem_nil
  next =>
    refine (handles_cleanUp { s with nextStop := s.nextStop + 1 } s.nextStop c ?_).of_left rfl rfl
    exact hno s.nextStop

/-- No stop has a join left, unless the service is stopping. -/
def Rested (s : Service) : Prop := s.state ≠ .stopping → ∀ k, ¬ s.Joins k

theorem handles_stopRunner {s : Service} (h : s.Rested) (restart : Bool) (msg : Option Message) :
    Handles s (s.stopRunner restart msg) := by
  unfold stopRunner
  split
  next => exact handles_of_eq rfl rfl
  next hst =>
    obtain ⟨out, hout⟩ := changeState_eq s .stopping none
    rw [hout]
    refine (handles_launchStop { s with sent := out, state := .stopping } { restart, msg } rfl
      ?_).of_left rfl rfl
    exact h hst

theorem handles_finish (s : Service) (j : Nat) : Handles s (s.finish j) := handles_of_eq rfl rfl

theorem handles_catchThrown {s : Service} (h : s.Rested) (j : Nat) (e : Thrown) :
    Handles s (s.catchThrown j e) := by
  cases e with
  | cancellation => exact handles_finish s j
  | other message => exact (handles_stopRunner h false _).of_right rfl rfl rfl

theorem handles_forceLoad {s : Service} (h : s.Rested) : Handles s s.forceLoad := by
  unfold forceLoad
  split
  next => exact handles_of_eq rfl rfl
  next =>
    split
    next => exact handles_stopRunner h true none
    next => exact handles_of_eq rfl rfl

theorem handles_attempt {s : Service} (h : s.Rested) (j tries : Nat) (failure : Option String) :
    Handles s (s.attempt j tries failure) := by
  cases failure with
  | none => exact (handles_changeState s .connected none).of_right rfl rfl rfl
  | some message =>
      unfold attempt
      dsimp only
      split
      next => exact handles_catchThrown h j _
      next => exact handles_of_eq rfl rfl

theorem handles_connect (s : Service) (profile : Profile) : Handles s (s.connect profile) := by
  have hchange := handles_changeState
    { s with closeReceiverRegistered := true, notification := some profile.formattedName }
    .connecting none
  exact (hchange.of_left (s := s) rfl rfl).of_right rfl rfl rfl

theorem handles_refuse {s : Service} (h : s.Rested) (msg : Message) :
    Handles s (s.refuse msg) :=
  (handles_stopRunner (s := { s with notification := some "" }) h false (some msg)).of_left rfl rfl

theorem handles_onStartCommand {s : Service} (h : s.Rested) (decode : String → Option Nat)
    (expanded : Option ExpandedProfile) : Handles s (s.onStartCommand decode expanded) := by
  unfold onStartCommand
  split
  next => exact handles_of_eq rfl rfl
  next =>
    split
    next => exact handles_refuse h _
    next e =>
      split
      next => exact handles_refuse h _
      next proxy _ =>
        split
        next => exact (handles_connect _ _).of_left rfl rfl
        next =>
          split
          next => exact (handles_refuse (s := { s with proxy := some proxy }) h _).of_left rfl rfl
          next => exact (handles_connect _ _).of_left rfl rfl

theorem handles_mapSlot (s : Service) (f : ProxyInstance → ProxyInstance) (w : Slot) :
    Handles s (s.mapSlot f w) := by
  cases w <;> exact handles_of_eq rfl rfl

theorem handles_endStop {s : Service} {k : Nat} (hnone : (s.stops k).children = []) :
    Handles s (s.endStop k) := by
  have hset : Handles s ((s.changeState .stopped (s.stops k).msg).setStop k
      { s.stops k with pc := .done }) := by
    obtain ⟨out, hout⟩ := changeState_eq s .stopped (s.stops k).msg
    rw [hout]
    refine handles_of_stop k { s.stops k with pc := .done } rfl rfl (fun h => h) fun h => ?_
    rw [hnone] at h
    exact absurd h List.not_mem_nil
  unfold endStop
  dsimp only
  split
  next => exact hset.of_right rfl rfl rfl
  next => exact hset

theorem handles_shutdownProxy (s : Service) (k : Nat) (w : Slot) (rest : List Slot)
    (row : Option Profile) : Handles s (s.shutdownProxy k w rest row) := by
  unfold shutdownProxy
  dsimp only
  split
  next => exact handles_of_stop k _ rfl rfl (fun h => h) fun _ => .inl rfl
  next =>
    have hp : ∀ f, (s.mapSlot f w).processes = s.processes := by intro f; cases w <;> rfl
    have hs : ∀ f, (s.mapSlot f w).stops = s.stops := by intro f; cases w <;> rfl
    split
    next =>
      refine handles_of_stop k _ (hp _) (by unfold setStop; rw [hs]) (fun h => ?_) fun _ => .inl rfl
      exact List.mem_append_left _ h
    next =>
      refine handles_of_stop k _ (hp _) (by unfold setStop; rw [hs]) (fun h => ?_) fun _ => .inl rfl
      exact List.mem_append_left _ h

/-- Another child than the join ends. -/
theorem handles_childDone (s : Service) (k : Nat) {c : Child} (hc : c ≠ .poolJoin) :
    Handles s (s.setStop k { s.stops k with children := (s.stops k).children.erase c }) := by
  refine handles_of_stop k _ rfl rfl (fun h => ?_) fun h => .inr ⟨?_, rfl⟩
  · exact (List.mem_erase_of_ne (Ne.symm hc)).mpr h
  · exact List.mem_of_mem_erase h

/-- Only a clean-up has a join left. -/
def JoinsClean (s : Service) : Prop := ∀ k, s.Joins k → (s.stops k).pc.cleaning = true

theorem JoinsClean.rested {s : Service} {ph : Phase} (h : s.JoinsClean) (hph : s.InPhase ph) :
    s.Rested := by
  intro hst k hk
  obtain ⟨-, hstop, -⟩ := hph.idle_stops hst
  exact absurd (hstop k (cleaning_live (h k hk))) (by simp)

theorem Handles.joinsClean {s s' : Service} (h : Handles s s') (hs : s.JoinsClean) :
    s'.JoinsClean := by
  intro k hk
  rcases h.clean k hk with hclean | ⟨hold, hpc⟩
  · exact hclean
  · rw [hpc]
    exact hs k hold

/-- The two labels that do more: commands are started, or the join ends. -/
def Label.movesPool : Label → Bool
  | .startUp _ _ _ | .childDone _ .poolJoin => true
  | _ => false

/-- **Every other step** keeps the pool or closes it. -/
theorem handles_step {decode : String → Option Nat} {s s' : Service} {l : Label}
    (hclean : s.JoinsClean) (h : s.Rested) (hs : step decode s l = some s')
    (hl : l.movesPool = false) : Handles s s' := by
  cases l with
  | startUp => exact absurd hl (by simp [Label.movesPool])
  | startCommand expanded =>
      obtain ⟨_, rfl⟩ := of_enabled hs
      exact handles_onStartCommand h decode expanded
  | close =>
      obtain ⟨_, rfl⟩ := of_enabled hs
      split
      next => exact handles_stopRunner h false none
      next => exact handles_of_eq rfl rfl
  | reload =>
      obtain ⟨_, rfl⟩ := of_enabled hs
      split
      next => exact handles_forceLoad h
      next => exact handles_of_eq rfl rfl
  | revoke | fatal message =>
      obtain ⟨_, rfl⟩ := of_enabled hs
      exact handles_stopRunner h false _
  | report w stats =>
      obtain ⟨_, rfl⟩ := of_enabled hs
      exact handles_mapSlot s _ w
  | dispatch j | drop j | startTaken j | preInitDone j | flattened j =>
      obtain ⟨_, rfl⟩ := of_enabled hs
      exact handles_of_eq rfl rfl
  | sendFd j failure =>
      obtain ⟨tries, _, rfl⟩ := of_sendFd hs
      exact handles_attempt h j tries failure
  | throw j e =>
      obtain ⟨_, rfl⟩ := of_enabled hs
      exact handles_catchThrown h j e
  | joined k =>
      obtain ⟨j, hk, _, rfl⟩ := of_joined hs
      refine handles_cleanUp s k (s.stops k) fun hjoin => ?_
      have := hclean k hjoin
      rw [hk] at this
      exact absurd this (by simp [StopPc.cleaning, StopPc.holdsMain])
  | persistRead k row =>
      obtain ⟨w, rest, _, rfl⟩ := of_persistRead hs
      exact handles_shutdownProxy s k w rest row
  | persistWrite k =>
      obtain ⟨rest, row, _, rfl⟩ := of_persistWrite hs
      exact handles_of_stop k _ rfl rfl (fun h => h) fun _ => .inl rfl
  | shutdownDone k =>
      obtain ⟨_, rfl⟩ := of_shutdownDone hs
      exact handles_of_stop k _ rfl rfl (fun h => h) fun _ => .inl rfl
  | childDone k c =>
      obtain ⟨_, rfl⟩ := of_enabled hs
      exact handles_childDone s k (by rintro rfl; exact absurd hl (by simp [Label.movesPool]))
  | stopped k =>
      obtain ⟨⟨_, _, hnone⟩, rfl⟩ := of_enabled hs
      exact handles_endStop hnone

/-! ## §2. Commands are started into a pool of their own. -/

/-- A job that has not started its commands has no pool. -/
def EarlyNone (s : Service) : Prop := ∀ j, (s.jobs j).pc.early = true → s.processes = none

theorem Handles.none_of_none {s s' : Service} (h : Handles s s') (hs : s.processes = none) :
    s'.processes = none := by
  rcases h.processes with hp | ⟨hp, -⟩
  · exact hp.trans hs
  · exact hp

theorem earlyNone_step {decode : String → Option Nat} {s s' : Service} {l : Label} {ph : Phase}
    (hph : s.InPhase ph) (hclean : s.JoinsClean) (h : s.EarlyNone)
    (hs : step decode s l = some s') : s'.EarlyNone := by
  have hrested := hclean.rested hph
  intro i hi
  cases l with
  | startUp j n message =>
      rw [startUp_not_early hph hs i] at hi
      exact absurd hi (by simp)
  | startCommand expanded =>
      have hhandles := handles_step hclean hrested hs rfl
      by_cases hst : s.state = .stopped
      · -- the service starts from nothing
        obtain rfl := hph.of_stopped hst
        exact hhandles.none_of_none hph.2.2.2.2.1.1
      · obtain ⟨_, rfl⟩ := of_enabled hs
        unfold onStartCommand at hi ⊢
        rw [if_pos hst] at hi ⊢
        exact h i hi
  | persistRead k row =>
      have hhandles := handles_step hclean hrested hs rfl
      obtain ⟨w, rest, _, rfl⟩ := of_persistRead hs
      refine hhandles.none_of_none (h i ?_)
      have hjobs : (s.shutdownProxy k w rest row).jobs = s.jobs := by
        unfold shutdownProxy
        dsimp only
        split
        · rfl
        · cases w <;> rfl
      rwa [hjobs] at hi
  | persistWrite k =>
      have hhandles := handles_step hclean hrested hs rfl
      obtain ⟨rest, row, _, rfl⟩ := of_persistWrite hs
      exact hhandles.none_of_none (h i hi)
  | shutdownDone k =>
      have hhandles := handles_step hclean hrested hs rfl
      obtain ⟨_, rfl⟩ := of_shutdownDone hs
      exact hhandles.none_of_none (h i hi)
  | childDone k c =>
      have hold := (keeps_step hs rfl).jobs i hi
      obtain ⟨_, rfl⟩ := of_enabled hs
      exact h i hold
  | _ =>
      exact (handles_step hclean hrested hs rfl).none_of_none (h i ((keeps_step hs rfl).jobs i hi))

end Service

/-! ## §3. The service and its pools. -/

/-- The service with every pool it has made, in the order of their making. -/
structure Sessions where
  service : Service := {}
  pools : Nat → Pool := fun _ => {}
  created : Nat := 0
  /-- The pool that the join of a stop waits for. -/
  closing : Nat → Nat := fun _ => 0

namespace Sessions

/-- The commands that `n` assignments of `startEffects` start, each with
whether it has an `onRestartCallback`: ss-local, ss-local for UDP,
tun2socks. -/
def commands (s : Service) (n : Nat) : List Bool :=
  (if 4 ≤ n then [false] else []) ++ (if 6 ≤ n ∧ s.udpFallback.isSome then [false] else [])
    ++ (if 10 ≤ n then [true] else [])

/-- `processes.start(cmd, onRestartCallback)`. -/
def startCommand (sdkInt : Nat) (p : Pool) (hasCallback : Bool) : Pool :=
  (ProcessPool.step sdkInt p (.start hasCallback true)).getD p

/-- The assignments of `startEffects`: the first makes the pool. -/
def startUp (sdkInt : Nat) (d : Sessions) (n : Nat) : Sessions :=
  let t := { d with service := d.service.startUp n }
  if n = 0 then t
  else
    { t with
      pools := Function.update d.pools d.created
        ((commands d.service n).foldl (startCommand sdkInt) {})
      created := d.created + 1 }

def setPool (d : Sessions) (i : Nat) (p : Pool) : Sessions :=
  { d with pools := Function.update d.pools i p }

/-- `processes.close(scope)` in the clean-up of stop `k`. -/
def close (sdkInt : Nat) (d : Sessions) (k : Nat) : Sessions :=
  let i := d.created - 1
  { d.setPool i ((ProcessPool.step sdkInt (d.pools i) .cancel).getD (d.pools i)) with
    closing := Function.update d.closing k i }

/-- The service goes on to `s'`; if that drops the pool, it was closed. -/
def settle (sdkInt : Nat) (d : Sessions) (s' : Service) : Sessions :=
  let t :=
    if d.service.processes.isSome = true ∧ s'.processes = none then
      d.close sdkInt (s'.main.getD 0)
    else d
  { t with service := s' }

/-- A step of the service that has led to `s'`. -/
def effect (sdkInt : Nat) (d : Sessions) (l : Service.Label) (s' : Service) : Sessions :=
  match l with
  | .startUp _ n _ => (d.startUp sdkInt n).settle sdkInt s'
  | _ => d.settle sdkInt s'

/-- The join of a stop ends when its pool is joined. -/
def Allows (d : Sessions) (l : Service.Label) : Prop :=
  ∀ k, l = .childDone k .poolJoin → (d.pools (d.closing k)).Joined

instance (d : Sessions) (l : Service.Label) : Decidable (d.Allows l) :=
  match l with
  | .childDone k .poolJoin =>
      decidable_of_iff (d.pools (d.closing k)).Joined
        ⟨fun h i hi => by injection hi with hi; exact hi ▸ h, fun h => h k rfl⟩
  | .childDone _ .localDnsJoin | .childDone _ .networkStop | .childDone _ .workerJoin
  | .childDone _ .trafficMonitorJoin => isTrue (fun _ h => by simp at h)
  | .startCommand _ | .close | .reload | .revoke | .fatal _ | .report _ _ | .dispatch _ | .drop _
  | .startTaken _ | .preInitDone _ | .flattened _ | .startUp _ _ _ | .sendFd _ _ | .throw _ _
  | .joined _ | .persistRead _ _ | .persistWrite _ | .shutdownDone _ | .stopped _ =>
      isTrue (fun _ h => by simp at h)

inductive Label where
  | service (l : Service.Label)
  /-- A step of guard `g` of pool `i`, or of one of its processes. -/
  | guard (i g : Nat) (a : GuardedProcessPool.Label)
  /-- A guard of pool `i` ends with an exception, which cancels the pool. -/
  | fail (i : Nat)
  deriving Repr, DecidableEq

def step (sdkInt : Nat) (decode : String → Option Nat) (d : Sessions) : Label → Option Sessions
  | .service l =>
      if d.Allows l then (Service.step decode d.service l).map (d.effect sdkInt l) else none
  | .guard i g a =>
      if i < d.created then
        (ProcessPool.step sdkInt (d.pools i) (.guard g a)).map (d.setPool i)
      else none
  | .fail i =>
      if i < d.created then (ProcessPool.step sdkInt (d.pools i) .cancel).map (d.setPool i)
      else none

/-! ## §4. What a pool keeps. -/

/-- All commands are started into a pool that nobody has cancelled. -/
theorem allTracked_startCommands (sdkInt : Nat) : ∀ (cs : List Bool) (p : Pool),
    p.cancelled = false → AllTracked p → AllTracked (cs.foldl (startCommand sdkInt) p) := by
  intro cs
  induction cs with
  | nil => exact fun _ _ h => h
  | cons c cs ih =>
      intro p hc hok
      refine ih (startCommand sdkInt p c) hc ?_
      exact allTracked_step (show InTime p (.start c true) from hc)
        (rfl : ProcessPool.step sdkInt p (.start c true) = some _) hok

/-- A looper that is done stays done. -/
theorem done_step {cfg : GuardedProcessPool.Config} {g g' : GuardedProcessPool.Guard}
    {a : GuardedProcessPool.Label} (h : GuardedProcessPool.step cfg g a = some g')
    (hdone : g.pc = .done) : g'.pc = .done := by
  cases a with
  | stdoutClosed p =>
      obtain ⟨_, rfl⟩ := of_enabled h
      exact hdone
  | exit p code =>
      obtain ⟨_, rfl⟩ := of_enabled h
      exact hdone
  | waitForReturns p =>
      simp only [GuardedProcessPool.step] at h
      split at h
      next =>
        obtain rfl := Option.some.inj h
        exact hdone
      next => exact absurd h (by simp)
  | handOver p =>
      simp only [GuardedProcessPool.step] at h
      split at h
      next => simp [hdone, GuardedProcessPool.Pc.handOver] at h
      next => exact absurd h (by simp)
  | cancel =>
      obtain rfl := Option.some.inj h
      exact hdone
  | _ =>
      -- all others start from another place
      simp [GuardedProcessPool.step, hdone] at h

theorem joined_step {sdkInt : Nat} {p p' : Pool} {a : Act} (ha : ∀ c, a ≠ .start c true)
    (h : ProcessPool.step sdkInt p a = some p') (hj : p.Joined) : p'.Joined :=
  forall_guards_step (fun c hc => absurd hc (ha c)) (fun _ _ _ _ hg hdone => done_step hg hdone)
    (fun _ hdone => hdone) h hj

/-! ## §5. What every step keeps. -/

/-- **Every pool is accounted for**: it is joined, or it is the last one and
the service has it, or a stop is going to join it. -/
structure Accounts (d : Sessions) : Prop where
  tracked : ∀ i, i < d.created → AllTracked (d.pools i)
  joined : ∀ i, i < d.created → (d.pools i).Joined
    ∨ i + 1 = d.created ∧ (d.service.processes.isSome = true
      ∨ ∃ k, d.service.Joins k ∧ d.closing k = i)

structure Inv (d : Sessions) : Prop where
  phase : ∃ ph, d.service.InPhase ph
  clean : d.service.JoinsClean
  early : d.service.EarlyNone
  accounts : d.Accounts

/-- A pool changes, and stays joined if it was. -/
theorem Accounts.setPool {d : Sessions} (h : d.Accounts) {i : Nat} {p : Pool}
    (hok : i < d.created → AllTracked p) (hjoined : (d.pools i).Joined → p.Joined) :
    (d.setPool i p).Accounts := by
  constructor
  · intro m hm
    show AllTracked (Function.update d.pools i p m)
    by_cases hmi : m = i
    · rw [hmi, Function.update_self]
      exact hok (hmi ▸ hm)
    · rw [Function.update_of_ne hmi]
      exact h.tracked m hm
  · intro m hm
    refine (h.joined m hm).imp_left fun hj => ?_
    show (Function.update d.pools i p m).Joined
    by_cases hmi : m = i
    · rw [hmi, Function.update_self]
      exact hjoined (hmi ▸ hj)
    · rw [Function.update_of_ne hmi]
      exact hj

/-- The last pool is cancelled. -/
theorem Accounts.cancel {sdkInt : Nat} {d : Sessions} (h : d.Accounts) {i : Nat} {p : Pool}
    (hp : ProcessPool.step sdkInt (d.pools i) .cancel = some p) : (d.setPool i p).Accounts :=
  h.setPool (fun hi => allTracked_step (a := .cancel) trivial hp (h.tracked i hi))
    (joined_step (by simp) hp)

/-- **The service moves on**: the pool stays with it, or passes to the stop
that joins it. -/
theorem Accounts.settle {sdkInt : Nat} {d : Sessions} {s' : Service} (h : d.Accounts)
    (hh : Service.Handles d.service s') : (d.settle sdkInt s').Accounts := by
  unfold Sessions.settle
  dsimp only
  split
  next hclose =>
    obtain ⟨hsome, hnone⟩ := hclose
    -- the pool was there and is gone: a clean-up has closed it
    rcases hh.processes with hkeep | ⟨-, k, hmain, hfresh, hjoin⟩
    · rw [← hkeep, hnone] at hsome
      exact absurd hsome (by simp)
    · rw [hmain]
      have hset := h.cancel
        (rfl : ProcessPool.step sdkInt (d.pools (d.created - 1)) .cancel = some _)
      refine ⟨hset.tracked, fun i hi => ?_⟩
      refine (hset.joined i hi).imp_right fun ⟨hlast, hopen⟩ => ⟨hlast, .inr ?_⟩
      have hi' : i = d.created - 1 := by
        have : i + 1 = d.created := hlast
        omega
      show ∃ m, s'.Joins m ∧ Function.update d.closing k (d.created - 1) m = i
      rcases hopen with - | ⟨m, hm, hclosing⟩
      · exact ⟨k, hjoin hsome, by rw [Function.update_self, hi']⟩
      · have hmk : m ≠ k := fun hmk => hfresh (hmk ▸ hm)
        exact ⟨m, hh.joins m hm, by rw [Function.update_of_ne hmk]; exact hclosing⟩
  next hkeep =>
    refine ⟨h.tracked, fun i hi => (h.joined i hi).imp_right fun ⟨hlast, hopen⟩ => ⟨hlast, ?_⟩⟩
    rcases hopen with hsome | ⟨m, hm, hclosing⟩
    · -- the pool is still there
      refine .inl ?_
      have hne : s'.processes ≠ none := fun hnone => hkeep ⟨hsome, hnone⟩
      exact Option.isSome_iff_ne_none.mpr hne
    · exact .inr ⟨m, hh.joins m hm, hclosing⟩

/-- The join of stop `k` ends, its pool being joined. -/
theorem Accounts.joinDone {sdkInt : Nat} {d : Sessions} {k : Nat} (h : d.Accounts)
    (hj : (d.pools (d.closing k)).Joined) (c : Stop) :
    (d.settle sdkInt (d.service.setStop k c)).Accounts := by
  have hkeep : ¬ (d.service.processes.isSome = true
      ∧ (d.service.setStop k c).processes = none) := by
    rintro ⟨hsome, hnone⟩
    have hnone' : d.service.processes = none := hnone
    rw [hnone'] at hsome
    exact absurd hsome (by simp)
  unfold Sessions.settle
  dsimp only
  rw [if_neg hkeep]
  refine ⟨h.tracked, fun i hi => ?_⟩
  rcases h.joined i hi with hi' | ⟨hlast, hsome | ⟨m, hm, hclosing⟩⟩
  · exact .inl hi'
  · exact .inr ⟨hlast, .inl hsome⟩
  · by_cases hmk : m = k
    · rw [← hclosing, hmk]
      exact .inl hj
    · refine .inr ⟨hlast, .inr ⟨m, ?_, hclosing⟩⟩
      show Child.poolJoin ∈ ((d.service.setStop k c).stops m).children
      rw [Service.setStop_ne _ _ hmk]
      exact hm

/-- The first of `startEffects` makes a pool, and none of the others drops
it. -/
theorem startUp_isSome (s : Service) {n : Nat} (hn : n ≠ 0) :
    (s.startUp n).processes.isSome = true := by
  have hkeep : ∀ (fs : List (Service → Service)),
      (∀ f ∈ fs, ∀ t : Service, t.processes.isSome = true → (f t).processes.isSome = true) →
      ∀ t : Service, t.processes.isSome = true →
        (fs.foldl (fun t f => f t) t).processes.isSome = true := by
    intro fs
    induction fs with
    | nil => exact fun _ _ ht => ht
    | cons f fs ih =>
        intro hfs t ht
        exact ih (fun g hg => hfs g (List.mem_cons_of_mem f hg)) (f t)
          (hfs f List.mem_cons_self t ht)
  obtain ⟨m, rfl⟩ := Nat.exists_eq_succ_of_ne_zero hn
  unfold Service.startUp
  show ((Service.startEffects.tail.take m).foldl (fun (t : Service) f => f t)
    { s with processes := some 0 }).processes.isSome = true
  refine hkeep _ (fun f hf t ht => ?_) _ rfl
  have hmem := List.mem_of_mem_take hf
  simp only [Service.startEffects, List.tail_cons, List.mem_cons, List.not_mem_nil,
    or_false] at hmem
  rcases hmem with rfl | rfl | rfl | rfl | rfl | rfl | rfl | rfl | rfl
  case inr.inr.inr.inr.inl =>
    dsimp only
    split
    · simpa using ht
    · exact ht
  all_goals simpa [Service.mapSlot] using ht

/-- The commands are started while no pool is open. -/
theorem Accounts.startUp {sdkInt : Nat} {d : Sessions} (h : d.Accounts)
    (hnone : d.service.processes = none) (hno : ∀ k, ¬ d.service.Joins k) (n : Nat) :
    (d.startUp sdkInt n).Accounts := by
  have hjoined : ∀ i, i < d.created → (d.pools i).Joined := by
    intro i hi
    rcases h.joined i hi with hj | ⟨-, hsome | ⟨k, hk, -⟩⟩
    · exact hj
    · rw [hnone] at hsome
      exact absurd hsome (by simp)
    · exact absurd hk (hno k)
  unfold Sessions.startUp
  dsimp only
  split
  next => exact ⟨h.tracked, fun i hi => .inl (hjoined i hi)⟩
  next hn =>
    constructor
    · intro i hi
      have hi' : i < d.created + 1 := hi
      show AllTracked (Function.update d.pools d.created _ i)
      by_cases hnew : i = d.created
      · rw [hnew, Function.update_self]
        exact allTracked_startCommands sdkInt _ {} rfl fun m hm => absurd hm (Nat.not_lt_zero m)
      · rw [Function.update_of_ne hnew]
        exact h.tracked i (by omega)
    · intro i hi
      have hi' : i < d.created + 1 := hi
      by_cases hnew : i = d.created
      · exact .inr ⟨by rw [hnew], .inl (startUp_isSome d.service hn)⟩
      · refine .inl ?_
        show (Function.update d.pools d.created _ i).Joined
        rw [Function.update_of_ne hnew]
        exact hjoined i (by omega)

theorem effect_service (sdkInt : Nat) (d : Sessions) (l : Service.Label) (s' : Service) :
    (d.effect sdkInt l s').service = s' := by
  unfold effect
  split <;> rfl

/-- A label that starts commands, from the service in the middle of its step. -/
theorem handles_startUp {decode : String → Option Nat} {s s' : Service} {j n : Nat}
    {message : String} (h : s.Rested)
    (hs : Service.step decode s (.startUp j n message) = some s') :
    Service.Handles (s.startUp n) s' := by
  have hframe := Service.startUp_frame s n
  have hrested : (s.startUp n).Rested := by
    intro hst k hk
    unfold Service.Joins at hk
    rw [hframe.state] at hst
    rw [hframe.stops] at hk
    exact h hst k hk
  obtain ⟨_, rfl⟩ := of_enabled hs
  split
  next => exact Service.handles_of_eq rfl rfl
  next => exact Service.handles_catchThrown hrested j _

/-- What the service does to its pools keeps the accounts. -/
theorem accounts_service {sdkInt : Nat} {decode : String → Option Nat} {d : Sessions}
    {l : Service.Label} {s' : Service} (h : d.Inv) (hallows : d.Allows l)
    (hs : Service.step decode d.service l = some s') :
    (d.effect sdkInt l s').Accounts ∧ s'.JoinsClean := by
  obtain ⟨ph, hph⟩ := h.phase
  have hrested := h.clean.rested hph
  have hhandled : d.effect sdkInt l s' = d.settle sdkInt s' → l.movesPool = false →
      (d.effect sdkInt l s').Accounts ∧ s'.JoinsClean := by
    intro heffect hl
    have hh := Service.handles_step h.clean hrested hs hl
    rw [heffect]
    exact ⟨h.accounts.settle hh, hh.joinsClean h.clean⟩
  cases l with
  | startUp j n message =>
      obtain ⟨⟨-, hpc, hc⟩, -⟩ := (of_enabled hs).1
      obtain ⟨rfl, -⟩ := hph.of_resumes (by rw [hpc]; rfl) hc
      have hno : ∀ k, ¬ d.service.Joins k := hrested (by rw [hph.1]; simp)
      have hnone : d.service.processes = none := h.early j (by rw [hpc]; rfl)
      have hh := handles_startUp hrested hs
      have hservice : (d.startUp sdkInt n).service = d.service.startUp n := by
        unfold Sessions.startUp
        dsimp only
        split <;> rfl
      refine ⟨(h.accounts.startUp hnone hno n).settle (by rw [hservice]; exact hh), ?_⟩
      refine hh.joinsClean fun k hk => ?_
      unfold Service.Joins at hk
      rw [(Service.startUp_frame d.service n).stops] at hk
      exact absurd hk (hno k)
  | childDone k c =>
      by_cases hc : c = .poolJoin
      · subst hc
        obtain ⟨_, rfl⟩ := of_enabled hs
        refine ⟨h.accounts.joinDone (hallows k rfl) _, fun i hi => ?_⟩
        by_cases hik : i = k
        · subst hik
          unfold Service.Joins at hi
          rw [Service.setStop_self] at hi ⊢
          exact h.clean i (List.mem_of_mem_erase hi)
        · unfold Service.Joins at hi
          rw [Service.setStop_ne _ _ hik] at hi ⊢
          exact h.clean i hi
      · refine hhandled rfl ?_
        cases c <;> first | rfl | exact absurd rfl hc
  | _ => exact hhandled rfl rfl

/-- **THE STEP LEMMA.** -/
theorem inv_step {sdkInt : Nat} {decode : String → Option Nat} {d d' : Sessions} {l : Label}
    (hs : step sdkInt decode d l = some d') (h : d.Inv) : d'.Inv := by
  cases l with
  | guard i g a =>
      simp only [step] at hs
      split at hs
      next hi =>
        obtain ⟨p, hp, rfl⟩ := Option.map_eq_some_iff.mp hs
        exact ⟨h.phase, h.clean, h.early, h.accounts.setPool
          (fun hi => allTracked_step (a := .guard g a) trivial hp (h.accounts.tracked i hi))
          (joined_step (by simp) hp)⟩
      next => exact absurd hs (by simp)
  | fail i =>
      simp only [step] at hs
      split at hs
      next hi =>
        obtain ⟨p, hp, rfl⟩ := Option.map_eq_some_iff.mp hs
        exact ⟨h.phase, h.clean, h.early, h.accounts.cancel hp⟩
      next => exact absurd hs (by simp)
  | service l =>
      simp only [step] at hs
      split at hs
      next hallows =>
        obtain ⟨s', hs', rfl⟩ := Option.map_eq_some_iff.mp hs
        obtain ⟨ph, hph⟩ := h.phase
        obtain ⟨ph', hph', -⟩ := Service.step_follows hph hs'
        obtain ⟨haccounts, hclean⟩ := accounts_service h hallows hs'
        refine ⟨?_, ?_, ?_, haccounts⟩
        · rw [effect_service]
          exact ⟨ph', hph'⟩
        · rw [effect_service]
          exact hclean
        · rw [effect_service]
          exact Service.earlyNone_step hph h.clean h.early hs'
      next => exact absurd hs (by simp)

/-! ## §6. Whole runs. -/

/-- All processes that the guards of a pool have started have exited. -/
def Dead (p : Pool) : Prop :=
  ∀ i, i < p.launched → ∀ q, q ≤ (p.guards i).process →
    ((p.guards i).procs q).exitCode.isSome = true

theorem dead_of_joined {p : Pool} (h : AllTracked p) (hj : p.Joined) : Dead p :=
  fun i hi q hq => (h i hi).all_dead (hj i hi) q hq

theorem inv_init : Inv {} where
  phase := ⟨_, Service.inPhase_new⟩
  clean _ hk := absurd hk List.not_mem_nil
  early _ _ := rfl
  accounts := ⟨fun i hi => absurd hi (Nat.not_lt_zero i), fun i hi => absurd hi (Nat.not_lt_zero i)⟩

/-- A session in which ss-local crashes once and is restarted; at the end
tun2socks has to be killed. -/
def crashedSession : List Label :=
  [.startCommand (some ⟨{}, none⟩), .dispatch 0, .startTaken 0, .preInitDone 0,
    .startUp 0 10 ""].map .service ++
  [.guard 0 0 .startThreads, .guard 0 0 .suspend, .guard 0 1 .startThreads, .guard 0 1 .suspend,
   .service (.sendFd 0 none), .guard 0 0 (.exit 0 1), .guard 0 0 (.stdoutClosed 0),
   .guard 0 0 (.waitForReturns 0), .guard 0 0 (.handOver 0), .guard 0 0 .resume,
   .guard 0 0 (.judgeExit 5000), .guard 0 0 (.start true), .guard 0 0 .startThreads,
   .guard 0 0 .suspend, .service .close, .guard 0 0 .throwCancellation,
   .guard 0 1 .throwCancellation, .guard 0 0 .enterFinally, .guard 0 1 .enterFinally,
   .guard 0 0 (.exit 1 143), .guard 0 0 (.stdoutClosed 1), .guard 0 0 (.waitForReturns 1),
   .guard 0 0 (.handOver 1), .guard 0 0 .resume, .guard 0 1 .timeout, .guard 0 1 (.exit 0 137),
   .guard 0 1 (.stdoutClosed 0), .guard 0 1 (.waitForReturns 0), .guard 0 1 (.handOver 0),
   .guard 0 1 .resume] ++
  [.persistRead 0 none, .shutdownDone 0, .childDone 0 .poolJoin, .childDone 0 .localDnsJoin,
    .childDone 0 .networkStop, .childDone 0 .workerJoin, .childDone 0 .trafficMonitorJoin,
    .stopped 0].map .service

end Sessions

end FoxVpn.Bg
