/-
  FoxVpn.Bg.ProcessPool
  ─────────────────────
  **THE WHOLE POOL — `GuardedProcessPool.start` and `close` over any number
  of guards.**

  `FoxVpn.Bg.GuardedProcessPool` is the machine of ONE guard.  A session runs
  several (`ss-local` once or twice, `tun2socks`) under the one `Job` of the
  pool, and `close` cancels that job and joins it:

      start   — `Guard.start()` stores a process, `launch` runs the looper;
                under a cancelled job `launch` never enters its block, so the
                process is there and nobody guards it
      cancel  — the job is cancelled, by `close` or by a failing child: every
                guard sees it, no guard is cancelled alone
      joined  — `job.join()` returns: every looper is done

  Main result `joined_pool_dead`, over every interleaving of any number of
  guards: when the join returns, every process that any guard ever started
  has exited, whatever time-outs, cancellations and failures came on the way.
-/
import FoxVpn.Bg.GuardedProcessPool

namespace FoxVpn.Bg.ProcessPool

open FoxVpn.Lib FoxVpn.Bg.GuardedProcessPool

/-! ## §1. The pool. -/

/-- The pool: `launched` guards, numbered in the order of their `start`. -/
structure Pool where
  launched : Nat := 0
  guards : Nat → Guard := fun _ => Guard.init
  /-- `onRestartCallback` is not null. -/
  hasCallback : Nat → Bool := fun _ => false
  /-- The `Job` of the pool is cancelled. -/
  cancelled : Bool := false

inductive Act where
  /-- `start(cmd, onRestartCallback)`; `ok` is false when `Guard.start()`
  throws IOException. -/
  | start (hasCallback ok : Bool)
  /-- A step of guard `i`. -/
  | guard (i : Nat) (a : Label)
  | cancel
  deriving Repr, DecidableEq

/-- The looper of a guard launched under a cancelled job: its block is never
entered, so neither its threads nor its `finally` ever run. -/
def Guard.neverEntered : Guard := { Guard.init with cancelled := true, pc := .done }

/-- What one guard does by itself: everything but being cancelled alone. -/
def ownStep (cfg : Config) (g : Guard) (a : Label) : Option Guard :=
  if a = .cancel then none else GuardedProcessPool.step cfg g a

def Pool.setGuard (p : Pool) (i : Nat) (g : Guard) : Pool :=
  { p with guards := Function.update p.guards i g }

def Pool.config (sdkInt : Nat) (p : Pool) (i : Nat) : Config := ⟨sdkInt, p.hasCallback i⟩

def step (sdkInt : Nat) (p : Pool) : Act → Option Pool
  | .start _ false => some p
  | .start hasCallback true =>
      some { p with
        launched := p.launched + 1
        guards := Function.update p.guards p.launched
          (if p.cancelled then Guard.neverEntered else Guard.init)
        hasCallback := Function.update p.hasCallback p.launched hasCallback }
  | .guard i a =>
      if i < p.launched then
        (ownStep (p.config sdkInt i) (p.guards i) a).map (p.setGuard i)
      else none
  | .cancel =>
      some { p with cancelled := true, guards := fun i => { p.guards i with cancelled := true } }

/-- `job.join()` returns: every launched looper is done. -/
def Pool.Joined (p : Pool) : Prop := ∀ i, i < p.launched → (p.guards i).pc = .done

instance (p : Pool) : Decidable p.Joined :=
  inferInstanceAs (Decidable (∀ i, i < p.launched → (p.guards i).pc = .done))

/-- A `start` comes before the pool is cancelled. -/
def InTime (p : Pool) : Act → Prop
  | .start _ true => p.cancelled = false
  | _ => True

instance (p : Pool) (a : Act) : Decidable (InTime p a) := by
  cases a with
  | start _ ok => cases ok <;> unfold InTime <;> infer_instance
  | _ => unfold InTime; infer_instance

/-! ## §2. What one guard keeps along EVERY run.

`GuardInv` is lost at the first disturbed step.  What is never lost: as long
as the looper is in its loop the thread of the current process is where the
loop expects it, a code is only ever taken from that process, and the looper
leaves only with such a code in hand. -/

/-- What the place of the looper promises, disturbed or not. -/
def Promised (running : Bool) (w : Waiter) : Pc → Prop
  | .threads | .callback _ => running = true ∧ w = .absent
  | .receive | .awaitExit none => running = true ∧ w.pending = true
  | .awaitExit (some _) => running = true ∧ w = .sent
  | .exited _ | .restart => running = false ∧ w = .sent
  | .finallyBlock => running = false → w = .sent
  | .awaitTerm none | .awaitDestroy none | .awaitKilled none => running = true
  | .awaitTerm (some _) | .awaitDestroy (some _) | .awaitKilled (some _) =>
      running = true ∧ w = .sent
  | .done => w = .sent

structure Tracked (g : Guard) : Prop where
  place : Promised g.running (g.waiter g.process) g.pc
  older : ∀ p, p < g.process → g.waiter p = .sent
  newer : ∀ p, g.process < p → g.waiter p = .absent
  dead : ∀ p, (g.waiter p).ended = true → (g.procs p).exitCode.isSome = true

theorem tracked_init : Tracked Guard.init where
  place := ⟨rfl, rfl⟩
  older := guardInv_init.older
  newer := guardInv_init.newer
  dead := guardInv_init.dead

theorem Tracked.current {g : Guard} (ht : Tracked g) {p : Nat}
    (hp : (g.waiter p).pending = true) : p = g.process := by
  rcases Nat.lt_trichotomy p g.process with h | h | h
  · rw [ht.older p h] at hp
    exact absurd hp (by decide)
  · exact h
  · rw [ht.newer p h] at hp
    exact absurd hp (by decide)

/-- The promise does not see which pending phase the waiter is in. -/
theorem Promised.pending_congr {running : Bool} {w w' : Waiter} (hw : w.pending = true)
    (hw' : w'.pending = true) {pc : Pc} (h : Promised running w pc) : Promised running w' pc := by
  have hne : ¬ w = .sent := by rintro rfl; exact absurd hw (by decide)
  have hna : ¬ w = .absent := by rintro rfl; exact absurd hw (by decide)
  cases pc with
  | threads | callback => exact absurd h.2 hna
  | receive => exact ⟨h.1, hw'⟩
  | exited | restart => exact absurd h.2 hne
  | finallyBlock => exact fun hr => absurd (h hr) hne
  | done => exact absurd h hne
  | awaitExit c =>
      cases c with
      | none => exact ⟨h.1, hw'⟩
      | some => exact absurd h.2 hne
  | awaitTerm c | awaitDestroy c | awaitKilled c =>
      cases c with
      | none => exact h
      | some => exact absurd h.2 hne

theorem Promised.handOver {running : Bool} {w : Waiter} {code : Int} {pc pc' : Pc}
    (h : Promised running w pc) (hpc : pc.handOver code = some pc') :
    Promised running .sent pc' := by
  unfold Pc.handOver at hpc
  split at hpc
  next => injection hpc with hpc; subst hpc; exact ⟨h.1, rfl⟩
  next => injection hpc with hpc; subst hpc; exact ⟨h, rfl⟩
  next => injection hpc with hpc; subst hpc; exact ⟨h, rfl⟩
  next => injection hpc with hpc; subst hpc; exact ⟨h, rfl⟩
  next => exact absurd hpc (by simp)

theorem promised_afterDestroy (cfg : Config) {running : Bool} (w : Waiter)
    (h : running = true) : Promised running w (afterDestroy cfg) := by
  unfold afterDestroy
  split
  · exact h
  · exact h

theorem promised_finallyWait (cfg : Config) {running : Bool} {w : Waiter}
    (h : running = false → w = .sent) : Promised running w (finallyWait cfg running) := by
  unfold finallyWait
  cases running with
  | false => exact h rfl
  | true =>
      rw [if_pos rfl]
      split
      · rfl
      · exact promised_afterDestroy cfg w rfl

/-- The waiter of the current process changes and the looper moves on. -/
theorem Tracked.setWaiter {g : Guard} (ht : Tracked g) (w : Waiter) (running : Bool) (pc : Pc)
    (hplace : Promised running w pc)
    (hdead : w.ended = true → (g.procs g.process).exitCode.isSome = true) :
    Tracked { g.setWaiter g.process w with running := running, pc := pc } where
  place := by
    show Promised running ((g.setWaiter g.process w).waiter g.process) pc
    rw [setWaiter_waiter, if_pos rfl]
    exact hplace
  older := by
    intro p hp
    show (g.setWaiter g.process w).waiter p = .sent
    have hp' : p < g.process := hp
    rw [setWaiter_waiter, if_neg (Nat.ne_of_lt hp')]
    exact ht.older p hp'
  newer := by
    intro p hp
    show (g.setWaiter g.process w).waiter p = .absent
    have hp' : g.process < p := hp
    rw [setWaiter_waiter, if_neg (Nat.ne_of_gt hp')]
    exact ht.newer p hp'
  dead := by
    intro p hp
    show ((g.setWaiter g.process w).procs p).exitCode.isSome = true
    rw [setWaiter_exitCode]
    change ((g.setWaiter g.process w).waiter p).ended = true at hp
    rw [setWaiter_waiter] at hp
    split at hp
    next h => rw [h]; exact hdead hp
    next => exact ht.dead p hp

/-- Only the looper moves. -/
theorem Tracked.move {g : Guard} (ht : Tracked g) (running : Bool) (pc : Pc)
    (cancelled : Bool) (fatal : Nat) (hplace : Promised running (g.waiter g.process) pc) :
    Tracked { g with running := running, pc := pc, cancelled := cancelled, fatal := fatal } where
  place := hplace
  older := ht.older
  newer := ht.newer
  dead := ht.dead

theorem Tracked.setExitCode {g : Guard} (ht : Tracked g) (p : Nat) (code : Int) :
    Tracked (g.setExitCode p code) where
  place := by
    show Promised g.running ((g.setExitCode p code).waiter g.process) g.pc
    rw [setExitCode_waiter]
    exact ht.place
  older := fun q hq => (setExitCode_waiter g p q code).trans (ht.older q hq)
  newer := fun q hq => (setExitCode_waiter g p q code).trans (ht.newer q hq)
  dead := by
    intro q hq
    rw [setExitCode_waiter] at hq
    rw [setExitCode_exitCode]
    split
    · rfl
    · exact ht.dead q hq

/-- `start()` stores the next process once the code of the last one is in. -/
theorem Tracked.restart {g : Guard} (ht : Tracked g) (hpc : g.pc = .restart) {pc : Pc}
    (hplace : Promised true .absent pc) :
    Tracked { g with process := g.process + 1, running := true, pc := pc } := by
  have hsent := ht.place
  rw [hpc] at hsent
  refine ⟨?_, ?_, ?_, ht.dead⟩
  · show Promised true (g.waiter (g.process + 1)) pc
    rw [ht.newer _ (Nat.lt_succ_self _)]
    exact hplace
  · intro p hp
    rcases Nat.lt_succ_iff_lt_or_eq.mp hp with h | h
    · exact ht.older p h
    · rw [h]; exact hsent.2
  · intro p hp
    exact ht.newer p (Nat.lt_of_succ_lt hp)

/-- **Every step keeps it**, disturbed or not. -/
theorem tracked_step (cfg : Config) (g : Guard) (a : Label) (g' : Guard)
    (h : GuardedProcessPool.step cfg g a = some g') (ht : Tracked g) : Tracked g' := by
  have hpl := ht.place
  -- a pending thread is that of the current process
  have hcur : ∀ p w, w.pending = true → g.waiter p = w →
      p = g.process ∧ (g.waiter g.process).pending = true := by
    intro p w hw hp
    rw [← hp] at hw
    have hpp := ht.current hw
    exact ⟨hpp, hpp ▸ hw⟩
  cases a with
  | startThreads =>
      obtain ⟨hpc, rfl⟩ := of_enabled h
      rw [hpc] at hpl
      exact ht.setWaiter .logging g.running .receive ⟨hpl.1, rfl⟩ (by simp [Waiter.ended])
  | stdoutClosed p =>
      obtain ⟨hw, rfl⟩ := of_enabled h
      obtain ⟨rfl, hpend⟩ := hcur p _ rfl hw
      exact ht.setWaiter .waitFor g.running g.pc (hpl.pending_congr hpend rfl)
        (by simp [Waiter.ended])
  | exit p code =>
      obtain ⟨_, rfl⟩ := of_enabled h
      exact ht.setExitCode p code
  | waitForReturns p =>
      simp only [GuardedProcessPool.step] at h
      split at h
      next code hw hcode =>
        injection h with h
        subst h
        obtain ⟨rfl, hpend⟩ := hcur p _ rfl hw
        exact ht.setWaiter (.sending code) g.running g.pc (hpl.pending_congr hpend rfl)
          (fun _ => by rw [hcode]; rfl)
      next => exact absurd h (by simp)
  | receiveNow p =>
      simp only [GuardedProcessPool.step] at h
      split at h
      next code hpc hw =>
        injection h with h
        subst h
        obtain ⟨rfl, _⟩ := hcur p _ rfl hw
        exact ht.setWaiter .sent false (.exited code) ⟨rfl, rfl⟩
          (fun _ => ht.dead _ (by rw [hw]; rfl))
      next => exact absurd h (by simp)
  | suspend =>
      obtain ⟨hpc, rfl⟩ := of_enabled h
      rw [hpc] at hpl
      exact ht.move g.running (.awaitExit none) g.cancelled g.fatal hpl
  | handOver p =>
      simp only [GuardedProcessPool.step] at h
      split at h
      next code hw =>
        simp only [Option.map_eq_some_iff] at h
        obtain ⟨pc, hpc, h⟩ := h
        subst h
        obtain ⟨rfl, _⟩ := hcur p _ rfl hw
        exact ht.setWaiter .sent g.running pc (hpl.handOver hpc)
          (fun _ => ht.dead _ (by rw [hw]; rfl))
      next => exact absurd h (by simp)
  | resume =>
      -- a receive of the `finally` block resumes with the code of the current process
      have hdone : g.waiter g.process = .sent → Tracked { g with pc := .done } :=
        ht.move g.running .done g.cancelled g.fatal
      simp only [GuardedProcessPool.step] at h
      split at h
      next code hpc =>
        split at h
        next => exact absurd h (by simp)
        next =>
          injection h with h
          subst h
          rw [hpc] at hpl
          exact ht.move false (.exited code) g.cancelled g.fatal ⟨rfl, hpl.2⟩
      next _ hpc => rw [← Option.some.inj h]; rw [hpc] at hpl; exact hdone hpl.2
      next _ hpc => rw [← Option.some.inj h]; rw [hpc] at hpl; exact hdone hpl.2
      next _ hpc => rw [← Option.some.inj h]; rw [hpc] at hpl; exact hdone hpl.2
      next => exact absurd h (by simp)
  | cancel =>
      injection h with h
      subst h
      exact ht.move g.running g.pc true g.fatal hpl
  | throwCancellation =>
      simp only [GuardedProcessPool.step] at h
      split at h
      next code hpc =>
        obtain ⟨_, rfl⟩ := of_enabled h
        have hrunning : g.running = true := by
          rw [hpc] at hpl
          cases code with
          | none => exact hpl.1
          | some => exact hpl.1
        exact ht.move g.running .finallyBlock g.cancelled g.fatal
          (fun hr => absurd (hrunning.symm.trans hr) (by decide))
      next => exact absurd h (by simp)
  | judgeExit elapsed =>
      simp only [GuardedProcessPool.step] at h
      split at h
      next code hpc =>
        rw [hpc] at hpl
        split at h
        next =>
          injection h with h
          subst h
          exact ht.move g.running .finallyBlock g.cancelled (g.fatal + 1) (fun _ => hpl.2)
        next =>
          injection h with h
          subst h
          exact ht.move g.running .restart g.cancelled g.fatal hpl
      next => exact absurd h (by simp)
  | start ok =>
      simp only [GuardedProcessPool.step] at h
      split at h
      next hpc =>
        split at h
        next =>
          injection h with h
          subst h
          refine ht.restart hpc ?_
          split
          · exact ⟨rfl, rfl⟩
          · exact ⟨rfl, rfl⟩
        next =>
          injection h with h
          subst h
          rw [hpc] at hpl
          exact ht.move g.running .finallyBlock g.cancelled (g.fatal + 1) (fun _ => hpl.2)
      next => exact absurd h (by simp)
  | callbackSuspend | callbackReturn =>
      obtain ⟨hpc, rfl⟩ := of_enabled h
      rw [hpc] at hpl
      exact ht.move g.running _ g.cancelled g.fatal hpl
  | callbackResume =>
      obtain ⟨hpc, rfl⟩ := of_enabled h
      rw [hpc.1] at hpl
      exact ht.move g.running (.callback false) g.cancelled g.fatal hpl
  | callbackThrow =>
      obtain ⟨hpc, rfl⟩ := of_enabled h
      rw [hpc] at hpl
      exact ht.move g.running .finallyBlock g.cancelled (g.fatal + 1)
        (fun hr => absurd (hpl.1.symm.trans hr) (by decide))
  | callbackCancelled =>
      obtain ⟨hpc, rfl⟩ := of_enabled h
      rw [hpc.1] at hpl
      exact ht.move g.running .finallyBlock g.cancelled g.fatal
        (fun hr => absurd (hpl.1.symm.trans hr) (by decide))
  | enterFinally =>
      obtain ⟨hpc, rfl⟩ := of_enabled h
      rw [hpc] at hpl
      exact ht.move g.running _ g.cancelled g.fatal (promised_finallyWait cfg hpl)
  | timeout =>
      simp only [GuardedProcessPool.step] at h
      split at h
      next code hpc =>
        injection h with h
        subst h
        have hrunning : g.running = true := by
          rw [hpc] at hpl
          cases code with
          | none => exact hpl
          | some => exact hpl.1
        exact ht.move g.running _ g.cancelled g.fatal (promised_afterDestroy cfg _ hrunning)
      next code hpc =>
        injection h with h
        subst h
        have hrunning : g.running = true := by
          rw [hpc] at hpl
          cases code with
          | none => exact hpl
          | some => exact hpl.1
        exact ht.move g.running (.awaitKilled none) g.cancelled g.fatal hrunning
      next => exact absurd h (by simp)

/-- A guard that is done has outlived all its processes. -/
theorem Tracked.all_dead {g : Guard} (ht : Tracked g) (hdone : g.pc = .done) (p : Nat)
    (hp : p ≤ g.process) : (g.procs p).exitCode.isSome = true := by
  apply ht.dead p
  rcases Nat.lt_or_eq_of_le hp with h | h
  · rw [ht.older p h]; rfl
  · have hpl := ht.place
    rw [hdone] at hpl
    have hsent : g.waiter g.process = .sent := hpl
    rw [h, hsent]; rfl

/-! ## §3. Invariants of the pool from invariants of a guard. -/

/-- A guard's own step is a step of its machine. -/
theorem of_ownStep {cfg : Config} {g g' : Guard} {a : Label} (h : ownStep cfg g a = some g') :
    GuardedProcessPool.step cfg g a = some g' := by
  unfold ownStep at h
  split at h
  next => exact absurd h (by simp)
  next => exact h

/-- **The pool rule**: what every guard starts with, what its own steps keep
and what the cancellation keeps, holds of every launched guard. -/
theorem forall_guards_step {sdkInt : Nat} {I : Guard → Prop} {p p' : Pool} {a : Act}
    (hstart : ∀ c, a = .start c true →
      I (if p.cancelled then Guard.neverEntered else Guard.init))
    (hown : ∀ i l g', a = .guard i l →
      GuardedProcessPool.step (p.config sdkInt i) (p.guards i) l = some g' →
      I (p.guards i) → I g')
    (hcancel : ∀ g : Guard, I g → I { g with cancelled := true })
    (h : step sdkInt p a = some p') (hI : ∀ i, i < p.launched → I (p.guards i)) :
    ∀ i, i < p'.launched → I (p'.guards i) := by
  cases a with
  | start c ok =>
      cases ok with
      | false =>
          injection h with h
          subst h
          exact hI
      | true =>
          injection h with h
          subst h
          intro i hi
          have hi' : i < p.launched + 1 := hi
          show I (Function.update p.guards p.launched _ i)
          rw [Function.update_apply]
          split
          next => exact hstart c rfl
          next hne => exact hI i (by omega)
  | guard j l =>
      simp only [step] at h
      split at h
      next hj =>
        simp only [Option.map_eq_some_iff] at h
        obtain ⟨g', hg', rfl⟩ := h
        intro i hi
        show I (Function.update p.guards j g' i)
        rw [Function.update_apply]
        split
        next => exact hown j l g' rfl (of_ownStep hg') (hI j hj)
        next => exact hI i hi
      next => exact absurd h (by simp)
  | cancel =>
      injection h with h
      subst h
      intro i hi
      exact hcancel _ (hI i hi)

/-! ## §4. Nothing outlives a joined pool. -/

/-- Every launched guard has kept track of its processes. -/
def AllTracked (p : Pool) : Prop := ∀ i, i < p.launched → Tracked (p.guards i)

theorem allTracked_step {sdkInt : Nat} {p p' : Pool} {a : Act} (hin : InTime p a)
    (h : step sdkInt p a = some p') (hall : AllTracked p) : AllTracked p' := by
  refine forall_guards_step ?_ ?_ ?_ h hall
  · rintro c rfl
    have hc : p.cancelled = false := hin
    rw [hc]
    exact tracked_init
  · intro i l g' _ hg ht
    exact tracked_step _ _ l g' hg ht
  · intro g ht
    exact ht.move g.running g.pc true g.fatal ht.place

/-- **THE JOIN THEOREM**: take any run in which no guard is started after the
cancellation, with every time-out, lost code, failing callback and failing
restart allowed.  If the join returns, all processes of all guards are dead. -/
theorem joined_pool_dead (sdkInt : Nat) (as : List Act) (p : Pool)
    (hrun : exec (step sdkInt) {} as = some p) (hstart : Meets (step sdkInt) InTime {} as)
    (hjoined : p.Joined) :
    ∀ i, i < p.launched → ∀ q, q ≤ (p.guards i).process →
      ((p.guards i).procs q).exitCode.isSome = true := by
  have htracked : AllTracked p :=
    exec_invariant (I := AllTracked) (fun _ _ _ hin h hall => allTracked_step hin h hall) as {} p
      (fun i hi => absurd hi (Nat.not_lt_zero i)) hstart hrun
  intro i hi q hq
  exact (htracked i hi).all_dead (hjoined i hi) q hq

/-- `ss-local` and `tun2socks` are started; `tun2socks` is killed, and the
pool is closed while the restarted one hands its descriptor over again. -/
def closedRun : List Act :=
  [.start false true, .start true true, .guard 0 .startThreads, .guard 0 .suspend,
   .guard 1 .startThreads, .guard 1 .suspend, .guard 1 (.exit 0 137), .guard 1 (.stdoutClosed 0),
   .guard 1 (.waitForReturns 0), .guard 1 (.handOver 0), .guard 1 .resume,
   .guard 1 (.judgeExit 5000), .guard 1 (.start true), .guard 1 .callbackReturn,
   .guard 1 .startThreads, .guard 1 .suspend, .cancel, .guard 0 .throwCancellation,
   .guard 1 .throwCancellation, .guard 0 .enterFinally, .guard 1 .enterFinally,
   .guard 0 (.exit 0 143), .guard 0 (.stdoutClosed 0), .guard 0 (.waitForReturns 0),
   .guard 0 (.handOver 0), .guard 0 .resume, .guard 1 .timeout, .guard 1 (.exit 1 137),
   .guard 1 (.stdoutClosed 1), .guard 1 (.waitForReturns 1), .guard 1 (.handOver 1),
   .guard 1 .resume]

theorem joined_pool_dead_closedRun :
    ∃ p, exec (step 30) {} closedRun = some p ∧ p.launched = 2
      ∧ ((p.guards 1).procs 1).exitCode.isSome = true := by
  obtain ⟨p, hrun, htest⟩ := exists_of_exec_test (step 30) {} closedRun
    (fun p => p.launched == 2 && (p.guards 1).process == 1 && decide p.Joined) (by decide)
  simp only [Bool.and_eq_true, beq_iff_eq, decide_eq_true_eq] at htest
  obtain ⟨⟨hn, hq⟩, hj⟩ := htest
  exact ⟨p, hrun, hn,
    joined_pool_dead 30 closedRun p hrun (by decide) hj 1 (by omega) 1 (by omega)⟩

end FoxVpn.Bg.ProcessPool
