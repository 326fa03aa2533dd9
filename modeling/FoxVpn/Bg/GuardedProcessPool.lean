/-
  FoxVpn.Bg.GuardedProcessPool
  ────────────────────────────
  **THE PROCESS GUARD — `GuardedProcessPool.Guard.looper` as a machine.**

  One guard keeps one command running.  Three kinds of actors share it:

      looper   — the coroutine (main thread): start the two threads of the
                 current process, receive its exit code, restart it, call
                 `onRestartCallback`, and on the way out wait for the exit
                 in the NonCancellable `finally` block
      waiter   — one thread per process, named `stdout-$cmdName`: it logs
                 the output, calls `process.waitFor()` and sends the exit
                 code on the rendezvous `exitChannel`
      outside  — the processes exit, the pool is cancelled, time-outs fire

  A receive that suspends is TWO steps: the waiter hands its code over
  (`send` returns), and later the looper resumes.  A cancellation or a
  time-out that comes between the two wins and the code is dropped: this
  is the prompt cancellation guarantee of `receive()`.

  Main result `looper_wait_matched`: the runs along which every wait of
  the `finally` block has a matching send are EXACTLY the runs in which no
  restart callback is left by an exception or a cancellation and no
  cancellation or time-out overtakes a code already handed over.
-/
import FoxVpn.Lib.Run
import Mathlib.Logic.Function.Basic

namespace FoxVpn.Bg.GuardedProcessPool

open FoxVpn.Lib

/-! ## §1. The state of one guard. -/

/-- What the thread `stdout-$cmdName` of a process is doing. -/
inductive Waiter where
  /-- Not started yet. -/
  | absent
  /-- In `streamLogger(process.inputStream)`. -/
  | logging
  /-- In `process.waitFor()`. -/
  | waitFor
  /-- Blocked in `exitChannel.send(exitCode)`. -/
  | sending (exitCode : Int)
  /-- Its send has returned. -/
  | sent
  deriving Repr, DecidableEq

/-- The thread has been started and its exit code is not received yet: its
send is pending or still to come. -/
def Waiter.pending : Waiter → Bool
  | .logging | .waitFor | .sending _ => true
  | .absent | .sent => false

/-- A process started by `Guard.start()`, with its waiter thread. -/
structure Process where
  /-- `none` while the process is alive. -/
  exitCode : Option Int := none
  waiter : Waiter := .absent
  deriving Repr, DecidableEq

/-- Where the looper stands.  In the four `await…` places it is suspended in
`exitChannel.receive()`; the argument is the code already handed over. -/
inductive Pc where
  /-- Top of the `while (true)` body, before the two threads are started. -/
  | threads
  /-- About to call `exitChannel.receive()`. -/
  | receive
  | awaitExit (handed : Option Int)
  /-- `receive()` has returned; the exit is judged next. -/
  | exited (exitCode : Int)
  /-- About to call `start()` again. -/
  | restart
  /-- Inside `onRestartCallback?.invoke()`, running or suspended. -/
  | callback (suspended : Bool)
  /-- The `finally` block is entered. -/
  | finallyBlock
  /-- `withTimeoutOrNull(500) { exitChannel.receive() }` after SIGTERM. -/
  | awaitTerm (handed : Option Int)
  /-- `withTimeoutOrNull(1000) { exitChannel.receive() }` after `destroy()`. -/
  | awaitDestroy (handed : Option Int)
  /-- The last `exitChannel.receive()`, without a time-out. -/
  | awaitKilled (handed : Option Int)
  | done
  deriving Repr, DecidableEq

/-- The exit code handed over to a suspended receive, not yet resumed. -/
def Pc.handed : Pc → Option Int
  | .awaitExit h | .awaitTerm h | .awaitDestroy h | .awaitKilled h => h
  | _ => none

/-- The guard waits on `exitChannel` in the NonCancellable section. -/
def Pc.waitsInFinally : Pc → Bool
  | .awaitTerm none | .awaitDestroy none | .awaitKilled none => true
  | _ => false

/-- The guard: `process` is the number of the process stored in the field of
that name, `procs` are all the processes it ever started. -/
structure Guard where
  running : Bool := true
  process : Nat := 0
  procs : Nat → Process := fun _ => {}
  /-- The `Job` of the pool is cancelled. -/
  cancelled : Bool := false
  pc : Pc := .threads
  /-- How often `onFatal` has been launched. -/
  fatal : Nat := 0

/-- The guard right after `GuardedProcessPool.start`: `Guard.start()` has
stored a process and `launch` runs the looper up to its first suspension. -/
def Guard.init : Guard := {}

def Guard.waiter (s : Guard) (p : Nat) : Waiter := (s.procs p).waiter

def Guard.setWaiter (s : Guard) (p : Nat) (w : Waiter) : Guard :=
  { s with procs := Function.update s.procs p { s.procs p with waiter := w } }

def Guard.setExitCode (s : Guard) (p : Nat) (code : Int) : Guard :=
  { s with procs := Function.update s.procs p { s.procs p with exitCode := some code } }

/-- The platform and the arguments of `start` the looper depends on. -/
structure Config where
  sdkInt : Nat
  hasCallback : Bool
  deriving Repr, DecidableEq

/-! ## §2. The steps. -/

inductive Label where
  /-- The looper starts the two threads of the current process. -/
  | startThreads
  /-- `process.inputStream` ends or fails, so `streamLogger` returns. -/
  | stdoutClosed (p : Nat)
  /-- Process `p` exits, by itself or killed. -/
  | exit (p : Nat) (exitCode : Int)
  | waitForReturns (p : Nat)
  /-- `receive()` finds a blocked sender and returns without suspending. -/
  | receiveNow (p : Nat)
  /-- `receive()` suspends. -/
  | suspend
  /-- The send of thread `p` meets the suspended receive. -/
  | handOver (p : Nat)
  /-- The suspended receive returns its code. -/
  | resume
  /-- The pool is cancelled, by `close` or by a failing sibling. -/
  | cancel
  /-- The suspended receive of the loop throws CancellationException. -/
  | throwCancellation
  /-- The exit is judged, `elapsed` milliseconds after the threads started. -/
  | judgeExit (elapsed : Int)
  /-- `start()`, which throws IOException when `ok` is false. -/
  | start (ok : Bool)
  | callbackSuspend
  | callbackResume
  | callbackReturn
  /-- The callback throws IOException. -/
  | callbackThrow
  /-- A suspended callback throws CancellationException. -/
  | callbackCancelled
  | enterFinally
  /-- The time-out of a `withTimeoutOrNull` of the `finally` block fires. -/
  | timeout
  deriving Repr, DecidableEq

/-- After `process.destroy()`. -/
def afterDestroy (cfg : Config) : Pc :=
  if cfg.sdkInt ≥ 26 then .awaitDestroy none else .awaitKilled none

/-- The body of `finally`, up to its first receive. -/
def finallyWait (cfg : Config) (running : Bool) : Pc :=
  if running then
    if cfg.sdkInt < 24 then .awaitTerm none else afterDestroy cfg
  else .done

/-- `catch (e: IOException)`: launch `onFatal` and go on to `finally`. -/
def Guard.fail (s : Guard) : Guard := { s with fatal := s.fatal + 1, pc := .finallyBlock }

/-- The suspended receive takes the code it is handed. -/
def Pc.handOver (code : Int) : Pc → Option Pc
  | .awaitExit none => some (.awaitExit (some code))
  | .awaitTerm none => some (.awaitTerm (some code))
  | .awaitDestroy none => some (.awaitDestroy (some code))
  | .awaitKilled none => some (.awaitKilled (some code))
  | _ => none

def step (cfg : Config) (s : Guard) : Label → Option Guard
  | .startThreads =>
      if s.pc = .threads then
        some { s.setWaiter s.process .logging with pc := .receive }
      else none
  | .stdoutClosed p =>
      if s.waiter p = .logging then some (s.setWaiter p .waitFor) else none
  | .exit p code =>
      if p ≤ s.process ∧ (s.procs p).exitCode = none then
        some (s.setExitCode p code)
      else none
  | .waitForReturns p =>
      match s.waiter p, (s.procs p).exitCode with
      | .waitFor, some code => some (s.setWaiter p (.sending code))
      | _, _ => none
  | .receiveNow p =>
      match s.pc, s.waiter p with
      | .receive, .sending code =>
          some { s.setWaiter p .sent with running := false, pc := .exited code }
      | _, _ => none
  | .suspend => if s.pc = .receive then some { s with pc := .awaitExit none } else none
  | .handOver p =>
      match s.waiter p with
      | .sending code =>
          (s.pc.handOver code).map fun pc => { s.setWaiter p .sent with pc := pc }
      | _ => none
  | .resume =>
      match s.pc with
      | .awaitExit (some code) =>
          -- a cancelled job resumes with CancellationException instead
          if s.cancelled then none
          else some { s with running := false, pc := .exited code }
      | .awaitTerm (some _) | .awaitDestroy (some _) | .awaitKilled (some _) =>
          some { s with pc := .done }
      | _ => none
  | .cancel => some { s with cancelled := true }
  | .throwCancellation =>
      match s.pc with
      | .awaitExit _ => if s.cancelled then some { s with pc := .finallyBlock } else none
      | _ => none
  | .judgeExit elapsed =>
      match s.pc with
      | .exited _ =>
          if elapsed < 1000 then some s.fail else some { s with pc := .restart }
      | _ => none
  | .start ok =>
      if s.pc = .restart then
        if ok then
          some { s with
            process := s.process + 1
            running := true
            pc := if cfg.hasCallback then .callback false else .threads }
        else some s.fail
      else none
  | .callbackSuspend =>
      if s.pc = .callback false then some { s with pc := .callback true } else none
  | .callbackResume =>
      if s.pc = .callback true ∧ s.cancelled = false then
        some { s with pc := .callback false }
      else none
  | .callbackReturn =>
      if s.pc = .callback false then some { s with pc := .threads } else none
  | .callbackThrow => if s.pc = .callback false then some s.fail else none
  | .callbackCancelled =>
      if s.pc = .callback true ∧ s.cancelled = true then
        some { s with pc := .finallyBlock }
      else none
  | .enterFinally =>
      if s.pc = .finallyBlock then some { s with pc := finallyWait cfg s.running } else none
  | .timeout =>
      match s.pc with
      | .awaitTerm _ => some { s with pc := afterDestroy cfg }
      | .awaitDestroy _ => some { s with pc := .awaitKilled none }
      | _ => none

/-! ## §3. The property and the condition. -/

/-- Every wait of the `finally` block has a matching send: the block is
entered with `running` only while the waiter of the current process is
pending, and no guard waits there for a dead process without one. -/
structure WaitMatched (s : Guard) : Prop where
  entered : s.pc = .finallyBlock → s.running = true →
    (s.waiter s.process).pending = true
  waiting : s.pc.waitsInFinally = true → (s.procs s.process).exitCode.isSome = true →
    (s.waiter s.process).pending = true

/-- The step neither leaves the restart callback by an exception or a
cancellation, nor cuts a receive off from a code already handed over. -/
def Undisturbed (s : Guard) : Label → Prop
  | .callbackThrow | .callbackCancelled => False
  | .throwCancellation | .timeout => s.pc.handed = none
  | _ => True

instance (s : Guard) (a : Label) : Decidable (Undisturbed s a) := by
  cases a <;> unfold Undisturbed <;> infer_instance

/-! ## §4. The invariant. -/

/-- What the place of the looper says about the flag `running` and about the
waiter `w` of the current process. -/
def PcInv (running : Bool) (w : Waiter) : Pc → Prop
  | .threads | .callback _ => running = true ∧ w = .absent
  | .receive | .awaitExit none => running = true ∧ w.pending = true
  | .awaitExit (some _) => running = true ∧ w = .sent
  | .exited _ | .restart => running = false ∧ w = .sent
  | .finallyBlock => running = true → w.pending = true
  | .awaitTerm none | .awaitDestroy none | .awaitKilled none => w.pending = true
  | .awaitTerm (some _) | .awaitDestroy (some _) | .awaitKilled (some _) => w = .sent
  | .done => True

/-- The thread holds or has delivered an exit code. -/
def Waiter.ended : Waiter → Bool
  | .sending _ | .sent => true
  | .absent | .logging | .waitFor => false

structure GuardInv (s : Guard) : Prop where
  place : PcInv s.running (s.waiter s.process) s.pc
  /-- The code of every earlier process has been received. -/
  older : ∀ p, p < s.process → s.waiter p = .sent
  newer : ∀ p, s.process < p → s.waiter p = .absent
  dead : ∀ p, (s.waiter p).ended = true → (s.procs p).exitCode.isSome = true

theorem guardInv_init : GuardInv Guard.init where
  place := ⟨rfl, rfl⟩
  older := fun p hp => absurd hp (Nat.not_lt_zero p)
  newer := fun _ _ => rfl
  dead := fun _ h => absurd (show Waiter.absent.ended = true from h) (by decide)

@[simp] theorem setWaiter_waiter (s : Guard) (p q : Nat) (w : Waiter) :
    (s.setWaiter p w).waiter q = if q = p then w else s.waiter q := by
  show (Function.update s.procs p _ q).waiter = _
  rw [Function.update_apply]
  split <;> rfl

@[simp] theorem setWaiter_exitCode (s : Guard) (p q : Nat) (w : Waiter) :
    ((s.setWaiter p w).procs q).exitCode = (s.procs q).exitCode := by
  show (Function.update s.procs p _ q).exitCode = _
  rw [Function.update_apply]
  split
  next h => rw [h]
  next => rfl

@[simp] theorem setExitCode_waiter (s : Guard) (p q : Nat) (code : Int) :
    (s.setExitCode p code).waiter q = s.waiter q := by
  show (Function.update s.procs p _ q).waiter = _
  rw [Function.update_apply]
  split
  next h => rw [h]; rfl
  next => rfl

@[simp] theorem setExitCode_exitCode (s : Guard) (p q : Nat) (code : Int) :
    ((s.setExitCode p code).procs q).exitCode
      = if q = p then some code else (s.procs q).exitCode := by
  show (Function.update s.procs p _ q).exitCode = _
  rw [Function.update_apply]
  split <;> rfl

/-- Only the thread of the current process is ever pending. -/
theorem GuardInv.current {s : Guard} (hinv : GuardInv s) {p : Nat}
    (hp : (s.waiter p).pending = true) : p = s.process := by
  rcases Nat.lt_trichotomy p s.process with h | h | h
  · rw [hinv.older p h] at hp
    exact absurd hp (by decide)
  · exact h
  · rw [hinv.newer p h] at hp
    exact absurd hp (by decide)

/-- The place does not see which pending phase the waiter is in. -/
theorem PcInv.pending_congr {running : Bool} {w w' : Waiter} (hw : w.pending = true)
    (hw' : w'.pending = true) {pc : Pc} (h : PcInv running w pc) :
    PcInv running w' pc := by
  have hne : ¬ w = .sent := by rintro rfl; exact absurd hw (by decide)
  have hna : ¬ w = .absent := by rintro rfl; exact absurd hw (by decide)
  cases pc with
  | threads => exact absurd h.2 hna
  | callback => exact absurd h.2 hna
  | receive => exact ⟨h.1, hw'⟩
  | exited => exact absurd h.2 hne
  | restart => exact absurd h.2 hne
  | finallyBlock => exact fun _ => hw'
  | done => trivial
  | awaitExit c =>
      cases c with
      | none => exact ⟨h.1, hw'⟩
      | some => exact absurd h.2 hne
  | awaitTerm c | awaitDestroy c | awaitKilled c =>
      cases c with
      | none => exact hw'
      | some => exact absurd h hne

/-- **The one write the looper and the waiter make together**: the waiter of
the current process changes, the looper moves on. -/
theorem GuardInv.setWaiter {s : Guard} (hinv : GuardInv s) (w : Waiter)
    (running : Bool) (pc : Pc) (hplace : PcInv running w pc)
    (hdead : w.ended = true → (s.procs s.process).exitCode.isSome = true) :
    GuardInv { s.setWaiter s.process w with running := running, pc := pc } where
  place := by
    show PcInv running ((s.setWaiter s.process w).waiter s.process) pc
    rw [setWaiter_waiter, if_pos rfl]
    exact hplace
  older := by
    intro p hp
    show (s.setWaiter s.process w).waiter p = .sent
    have hp' : p < s.process := hp
    rw [setWaiter_waiter, if_neg (Nat.ne_of_lt hp')]
    exact hinv.older p hp'
  newer := by
    intro p hp
    show (s.setWaiter s.process w).waiter p = .absent
    have hp' : s.process < p := hp
    rw [setWaiter_waiter, if_neg (Nat.ne_of_gt hp')]
    exact hinv.newer p hp'
  dead := by
    intro p hp
    show ((s.setWaiter s.process w).procs p).exitCode.isSome = true
    rw [setWaiter_exitCode]
    change ((s.setWaiter s.process w).waiter p).ended = true at hp
    rw [setWaiter_waiter] at hp
    split at hp
    next h => rw [h]; exact hdead hp
    next => exact hinv.dead p hp

/-- A step that only moves the looper. -/
theorem GuardInv.move {s : Guard} (hinv : GuardInv s) (running : Bool) (pc : Pc)
    (cancelled : Bool) (fatal : Nat)
    (hplace : PcInv running (s.waiter s.process) pc) :
    GuardInv { s with running := running, pc := pc, cancelled := cancelled, fatal := fatal } where
  place := hplace
  older := hinv.older
  newer := hinv.newer
  dead := hinv.dead

/-- A process exits: no waiter changes. -/
theorem GuardInv.setExitCode {s : Guard} (hinv : GuardInv s) (p : Nat) (code : Int) :
    GuardInv (s.setExitCode p code) where
  place := by
    show PcInv s.running ((s.setExitCode p code).waiter s.process) s.pc
    rw [setExitCode_waiter]
    exact hinv.place
  older := fun q hq => (setExitCode_waiter s p q code).trans (hinv.older q hq)
  newer := fun q hq => (setExitCode_waiter s p q code).trans (hinv.newer q hq)
  dead := by
    intro q hq
    rw [setExitCode_waiter] at hq
    rw [setExitCode_exitCode]
    split
    · rfl
    · exact hinv.dead q hq

/-- `start()` stores a fresh process, whose threads are not started. -/
theorem GuardInv.restart {s : Guard} (hinv : GuardInv s) (hpc : s.pc = .restart)
    {pc : Pc} (hplace : PcInv true .absent pc) :
    GuardInv { s with process := s.process + 1, running := true, pc := pc } := by
  have hplace' := hinv.place
  rw [hpc] at hplace'
  refine ⟨?_, ?_, ?_, hinv.dead⟩
  · show PcInv true (s.waiter (s.process + 1)) pc
    rw [hinv.newer _ (Nat.lt_succ_self _)]
    exact hplace
  · intro p hp
    rcases Nat.lt_succ_iff_lt_or_eq.mp hp with h | h
    · exact hinv.older p h
    · rw [h]; exact hplace'.2
  · intro p hp
    exact hinv.newer p (Nat.lt_of_succ_lt hp)

/-! ## §5. One step. -/

theorem pcInv_afterDestroy (cfg : Config) {running : Bool} {w : Waiter}
    (h : w.pending = true) : PcInv running w (afterDestroy cfg) := by
  unfold afterDestroy
  split
  · exact h
  · exact h

theorem pcInv_finallyWait (cfg : Config) {running : Bool} {w : Waiter}
    (h : running = true → w.pending = true) : PcInv running w (finallyWait cfg running) := by
  unfold finallyWait
  cases running with
  | false => trivial
  | true =>
      rw [if_pos rfl]
      split
      · exact h rfl
      · exact pcInv_afterDestroy cfg (h rfl)

/-- Only a suspended receive without a code takes one. -/
theorem pcInv_handOver {running : Bool} {w : Waiter} {code : Int} {pc pc' : Pc}
    (h : PcInv running w pc) (hpc : pc.handOver code = some pc') : PcInv running .sent pc' := by
  unfold Pc.handOver at hpc
  split at hpc
  next => injection hpc with hpc; subst hpc; exact ⟨h.1, rfl⟩
  next => injection hpc with hpc; subst hpc; rfl
  next => injection hpc with hpc; subst hpc; rfl
  next => injection hpc with hpc; subst hpc; rfl
  next => exact absurd hpc (by simp)

/-- **Step preservation**: an undisturbed step keeps the invariant. -/
theorem guardInv_step (cfg : Config) (s : Guard) (a : Label) (s' : Guard)
    (hC : Undisturbed s a) (h : step cfg s a = some s') (hinv : GuardInv s) :
    GuardInv s' := by
  have hpl := hinv.place
  cases a with
  | startThreads =>
      obtain ⟨hpc, rfl⟩ := of_enabled h
      rw [hpc] at hpl
      exact hinv.setWaiter .logging s.running .receive ⟨hpl.1, rfl⟩ (by simp [Waiter.ended])
  | stdoutClosed p =>
      obtain ⟨hw, rfl⟩ := of_enabled h
      have hp := hinv.current (p := p) (by rw [hw]; rfl)
      subst hp
      exact hinv.setWaiter .waitFor s.running s.pc
        (hpl.pending_congr (by rw [hw]; rfl) rfl) (by simp [Waiter.ended])
  | exit p code =>
      obtain ⟨_, rfl⟩ := of_enabled h
      exact hinv.setExitCode p code
  | waitForReturns p =>
      simp only [step] at h
      split at h
      next code hw hcode =>
        injection h with h
        subst h
        have hp := hinv.current (p := p) (by rw [hw]; rfl)
        subst hp
        exact hinv.setWaiter (.sending code) s.running s.pc
          (hpl.pending_congr (by rw [hw]; rfl) rfl) (fun _ => by rw [hcode]; rfl)
      next => exact absurd h (by simp)
  | receiveNow p =>
      simp only [step] at h
      split at h
      next code hpc hw =>
        injection h with h
        subst h
        have hp := hinv.current (p := p) (by rw [hw]; rfl)
        subst hp
        exact hinv.setWaiter .sent false (.exited code) ⟨rfl, rfl⟩
          (fun _ => hinv.dead _ (by rw [hw]; rfl))
      next => exact absurd h (by simp)
  | suspend =>
      obtain ⟨hpc, rfl⟩ := of_enabled h
      rw [hpc] at hpl
      exact hinv.move s.running (.awaitExit none) s.cancelled s.fatal hpl
  | handOver p =>
      simp only [step] at h
      split at h
      next code hw =>
        simp only [Option.map_eq_some_iff] at h
        obtain ⟨pc, hpc, h⟩ := h
        subst h
        have hp := hinv.current (p := p) (by rw [hw]; rfl)
        subst hp
        exact hinv.setWaiter .sent s.running pc (pcInv_handOver hpl hpc)
          (fun _ => hinv.dead _ (by rw [hw]; rfl))
      next => exact absurd h (by simp)
  | resume =>
      -- whichever receive of the `finally` block resumes, the guard is done
      have hdone := hinv.move s.running .done s.cancelled s.fatal trivial
      simp only [step] at h
      split at h
      next code hpc =>
        split at h
        next => exact absurd h (by simp)
        next =>
          injection h with h
          subst h
          rw [hpc] at hpl
          exact hinv.move false (.exited code) s.cancelled s.fatal ⟨rfl, hpl.2⟩
      next => rw [← Option.some.inj h]; exact hdone
      next => rw [← Option.some.inj h]; exact hdone
      next => rw [← Option.some.inj h]; exact hdone
      next => exact absurd h (by simp)
  | cancel =>
      injection h with h
      subst h
      exact hinv.move s.running s.pc true s.fatal hpl
  | throwCancellation =>
      simp only [step] at h
      split at h
      next code hpc =>
        obtain ⟨_, rfl⟩ := of_enabled h
        have hcode : code = none := by
          have hC' : s.pc.handed = none := hC
          rw [hpc] at hC'
          exact hC'
        rw [hpc, hcode] at hpl
        exact hinv.move s.running .finallyBlock s.cancelled s.fatal (fun _ => hpl.2)
      next => exact absurd h (by simp)
  | judgeExit elapsed =>
      simp only [step] at h
      split at h
      next code hpc =>
        rw [hpc] at hpl
        split at h
        next =>
          injection h with h
          subst h
          exact hinv.move s.running .finallyBlock s.cancelled (s.fatal + 1)
            (fun hr => absurd (hpl.1.symm.trans hr) (by decide))
        next =>
          injection h with h
          subst h
          exact hinv.move s.running .restart s.cancelled s.fatal hpl
      next => exact absurd h (by simp)
  | start ok =>
      simp only [step] at h
      split at h
      next hpc =>
        split at h
        next =>
          injection h with h
          subst h
          refine hinv.restart hpc ?_
          split
          · exact ⟨rfl, rfl⟩
          · exact ⟨rfl, rfl⟩
        next =>
          injection h with h
          subst h
          rw [hpc] at hpl
          exact hinv.move s.running .finallyBlock s.cancelled (s.fatal + 1)
            (fun hr => absurd (hpl.1.symm.trans hr) (by decide))
      next => exact absurd h (by simp)
  | callbackSuspend | callbackReturn =>
      obtain ⟨hpc, rfl⟩ := of_enabled h
      rw [hpc] at hpl
      exact hinv.move s.running _ s.cancelled s.fatal hpl
  | callbackResume =>
      obtain ⟨hpc, rfl⟩ := of_enabled h
      rw [hpc.1] at hpl
      exact hinv.move s.running (.callback false) s.cancelled s.fatal hpl
  | callbackThrow => exact absurd hC (by simp [Undisturbed])
  | callbackCancelled => exact absurd hC (by simp [Undisturbed])
  | enterFinally =>
      obtain ⟨hpc, rfl⟩ := of_enabled h
      rw [hpc] at hpl
      exact hinv.move s.running _ s.cancelled s.fatal (pcInv_finallyWait cfg hpl)
  | timeout =>
      have hC' : s.pc.handed = none := hC
      simp only [step] at h
      split at h
      next code hpc =>
        injection h with h
        subst h
        rw [hpc] at hpl hC'
        have hcode : code = none := hC'
        rw [hcode] at hpl
        exact hinv.move s.running _ s.cancelled s.fatal (pcInv_afterDestroy cfg hpl)
      next code hpc =>
        injection h with h
        subst h
        rw [hpc] at hpl hC'
        have hcode : code = none := hC'
        rw [hcode] at hpl
        exact hinv.move s.running (.awaitKilled none) s.cancelled s.fatal hpl
      next => exact absurd h (by simp)

/-- The invariant gives the property. -/
theorem GuardInv.waitMatched {s : Guard} (hinv : GuardInv s) : WaitMatched s where
  entered := by
    intro hpc
    have hpl := hinv.place
    rw [hpc] at hpl
    exact hpl
  waiting := by
    intro hw _
    have hpl := hinv.place
    cases hpc : s.pc with
    | awaitTerm c | awaitDestroy c | awaitKilled c =>
        rw [hpc] at hpl hw
        cases c with
        | none => exact hpl
        | some => exact absurd hw (by simp [Pc.waitsInFinally])
    | _ => rw [hpc] at hw; exact absurd hw (by simp [Pc.waitsInFinally])

/-- Entered with `running` and no send to come. -/
theorem not_waitMatched_of_entered {s : Guard} (hpc : s.pc = .finallyBlock)
    (hrunning : s.running = true) (hw : (s.waiter s.process).pending = false) :
    ¬ WaitMatched s := by
  intro hm
  rw [hm.entered hpc hrunning] at hw
  exact Bool.noConfusion hw

/-- Waiting in the `finally` block for a code that was delivered. -/
theorem not_waitMatched_of_sent {s : Guard} (hwait : s.pc.waitsInFinally = true)
    (hsent : s.waiter s.process = .sent)
    (hdead : (s.procs s.process).exitCode.isSome = true) : ¬ WaitMatched s := by
  intro hm
  have hw := hm.waiting hwait hdead
  rw [hsent] at hw
  exact Bool.noConfusion hw

theorem waitsInFinally_afterDestroy (cfg : Config) :
    (afterDestroy cfg).waitsInFinally = true := by
  unfold afterDestroy
  split
  · rfl
  · rfl

/-- **Exactness of the condition**: a step that fails it lands in a wait
without a send. -/
theorem not_waitMatched_of_disturbed (cfg : Config) (s : Guard) (a : Label) (s' : Guard)
    (hC : ¬ Undisturbed s a) (h : step cfg s a = some s') (hinv : GuardInv s) :
    ¬ WaitMatched s' := by
  have hpl := hinv.place
  cases a with
  | callbackThrow =>
      obtain ⟨hpc, rfl⟩ := of_enabled h
      rw [hpc] at hpl
      -- `running` is already true, the threads of the new process are not started
      exact not_waitMatched_of_entered rfl hpl.1 (congrArg Waiter.pending hpl.2)
  | callbackCancelled =>
      obtain ⟨hpc, rfl⟩ := of_enabled h
      rw [hpc.1] at hpl
      exact not_waitMatched_of_entered rfl hpl.1 (congrArg Waiter.pending hpl.2)
  | throwCancellation =>
      have hne : s.pc.handed ≠ none := hC
      obtain ⟨c, hc⟩ := Option.ne_none_iff_exists'.mp hne
      simp only [step] at h
      split at h
      next code hpc =>
        obtain ⟨_, rfl⟩ := of_enabled h
        rw [hpc] at hpl hc
        have hcode : code = some c := hc
        rw [hcode] at hpl
        -- the code of the current process is dropped
        exact not_waitMatched_of_entered rfl hpl.1 (congrArg Waiter.pending hpl.2)
      next => exact absurd h (by simp)
  | timeout =>
      have hne : s.pc.handed ≠ none := hC
      obtain ⟨c, hc⟩ := Option.ne_none_iff_exists'.mp hne
      have hdead : s.waiter s.process = .sent → (s.procs s.process).exitCode.isSome = true :=
        fun hsent => hinv.dead s.process (by rw [hsent]; rfl)
      simp only [step] at h
      split at h
      next code hpc =>
        injection h with h
        subst h
        rw [hpc] at hpl hc
        have hcode : code = some c := hc
        rw [hcode] at hpl
        exact not_waitMatched_of_sent (waitsInFinally_afterDestroy cfg) hpl (hdead hpl)
      next code hpc =>
        injection h with h
        subst h
        rw [hpc] at hpl hc
        have hcode : code = some c := hc
        rw [hcode] at hpl
        exact not_waitMatched_of_sent rfl hpl (hdead hpl)
      next => exact absurd h (by simp)
  | _ => exact absurd trivial hC

/-! ## §6. Whole runs. -/

/-- **THE GUARD THEOREM**: along an enabled run of the looper every wait of
the `finally` block has a matching send exactly when every step of the run
is undisturbed. -/
theorem looper_wait_matched (cfg : Config) (as : List Label)
    (hrun : (exec (step cfg) Guard.init as).isSome = true) :
    Along (step cfg) WaitMatched Guard.init as
      ↔ Meets (step cfg) Undisturbed Guard.init as := by
  obtain ⟨s, hs⟩ := Option.isSome_iff_exists.mp hrun
  exact along_iff_meets (fun _ hinv => hinv.waitMatched)
    (guardInv_step cfg) (not_waitMatched_of_disturbed cfg) as Guard.init s guardInv_init hs

/-- `tun2socks` is killed, restarted with a callback that suspends once and
returns, and stopped by closing the pool. -/
def restartRun : List Label :=
  [.startThreads, .suspend, .exit 0 137, .stdoutClosed 0, .waitForReturns 0, .handOver 0,
   .resume, .judgeExit 60000, .start true, .callbackSuspend, .callbackResume,
   .callbackReturn, .startThreads, .suspend, .cancel, .throwCancellation, .enterFinally,
   .stdoutClosed 1, .exit 1 143, .waitForReturns 1, .handOver 1, .resume]

theorem looper_wait_matched_restart :
    Along (step ⟨30, true⟩) WaitMatched Guard.init restartRun :=
  (looper_wait_matched ⟨30, true⟩ restartRun (by decide)).mpr (by decide)

/-- The restart callback gives up: `sendFd` throws IOException after its last
try, with the new process running and nobody waiting for it. -/
def failedCallbackRun : List Label :=
  [.startThreads, .suspend, .exit 0 137, .stdoutClosed 0, .waitForReturns 0, .handOver 0,
   .resume, .judgeExit 60000, .start true, .callbackSuspend, .callbackResume,
   .callbackThrow, .enterFinally, .exit 1 143, .timeout]

/-- After the failed callback the guard waits for a dead process that has no
waiter thread. -/
theorem looper_wait_unmatched :
    ∃ s, exec (step ⟨30, true⟩) Guard.init failedCallbackRun = some s
      ∧ s.pc = .awaitKilled none
      ∧ (s.procs s.process).exitCode = some 143
      ∧ s.waiter s.process = .absent
      ∧ ¬ WaitMatched s := by
  obtain ⟨s, hrun, htest⟩ := exists_of_exec_test (step ⟨30, true⟩) Guard.init
    failedCallbackRun
    (fun s => s.pc == .awaitKilled none
      && (s.procs s.process).exitCode == some 143 && s.waiter s.process == .absent)
    (by decide)
  simp only [Bool.and_eq_true, beq_iff_eq] at htest
  obtain ⟨⟨hpc, hcode⟩, hw⟩ := htest
  refine ⟨s, hrun, hpc, hcode, hw, ?_⟩
  intro hm
  have hpend := hm.waiting (by rw [hpc]; rfl) (by rw [hcode]; rfl)
  rw [hw] at hpend
  exact absurd hpend (by decide)

end FoxVpn.Bg.GuardedProcessPool
