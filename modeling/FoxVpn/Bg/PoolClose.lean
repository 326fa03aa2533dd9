/-
  FoxVpn.Bg.PoolClose
  ───────────────────
  **WHEN `close` COMES TO AN END — the join of `GuardedProcessPool.close`.**

  `close` cancels the job of the pool and launches `job.join()`.  A guard
  ENDS if some continuation of its own steps takes its looper to the end.
  Once the job is cancelled a guard is stranded in three places:

      callback   — `onRestartCallback` (`sendFd`) is suspended: it is resumed
                   with CancellationException before the threads of the new
                   process are started, so nobody will send its exit code
      awaitExit  — the receive was handed a code and the cancellation makes
                   it drop that code: the only send is gone
      finally    — the block waits, or is about to, and no thread is left to
                   send: the callback threw, or a time-out or a cancellation
                   has overtaken a code already handed over

  Main result `close_can_finish_iff`, from every state that any run reaches:
  the join can still return EXACTLY when no guard is stranded; otherwise no
  continuation ends it.
-/
import FoxVpn.Bg.ProcessPool

namespace FoxVpn.Bg.ProcessPool

open FoxVpn.Lib FoxVpn.Bg.GuardedProcessPool

/-! ## §1. Guards that can end. -/

/-- Some continuation of the guard's own steps takes its looper to the end. -/
def Ends (cfg : Config) (g : Guard) : Prop :=
  ∃ as g', exec (ownStep cfg) g as = some g' ∧ g'.pc = .done

/-- The places a cancellation cuts off from their exit code. -/
def Pc.cutOff : Pc → Bool
  | .callback true | .awaitExit (some _) => true
  | _ => false

/-- **Stranded**: cut off, or in the `finally` block for a process that
counts as running and has no thread left to send its exit code. -/
def Stranded (g : Guard) : Prop :=
  Pc.cutOff g.pc = true
    ∨ ((g.pc = .finallyBlock ∧ g.running = true) ∨ g.pc.waitsInFinally = true)
      ∧ (g.waiter g.process).pending = false

instance (g : Guard) : Decidable (Stranded g) := by
  unfold Stranded
  infer_instance

theorem Ends.of_done {cfg : Config} {g : Guard} (h : g.pc = .done) : Ends cfg g := ⟨[], g, rfl, h⟩

/-- One more step in front. -/
theorem Ends.of_step {cfg : Config} {g : Guard} (a : Label) (g' : Guard) (ha : a ≠ .cancel)
    (h : GuardedProcessPool.step cfg g a = some g') : Ends cfg g' → Ends cfg g := by
  rintro ⟨as, g'', has, hdone⟩
  refine ⟨a :: as, g'', exec_cons.mpr ⟨g', ?_, has⟩, hdone⟩
  unfold ownStep
  rw [if_neg ha]
  exact h

/-- The waits of the `finally` block take a code and resume with it. -/
theorem handOver_of_waitsInFinally {pc : Pc} (h : pc.waitsInFinally = true) (code : Int) :
    ∃ pc', pc.handOver code = some pc' ∧ (pc' = .awaitTerm (some code)
      ∨ pc' = .awaitDestroy (some code) ∨ pc' = .awaitKilled (some code)) := by
  cases pc with
  | awaitTerm c | awaitDestroy c | awaitKilled c =>
      cases c with
      | none => exact ⟨_, rfl, by simp⟩
      | some => exact absurd h (by simp [Pc.waitsInFinally])
  | _ => exact absurd h (by simp [Pc.waitsInFinally])

theorem ends_of_sending {cfg : Config} {g : Guard} (code : Int)
    (hpc : g.pc.waitsInFinally = true) (hw : g.waiter g.process = .sending code) :
    Ends cfg g := by
  obtain ⟨pc', hpc', hcases⟩ := handOver_of_waitsInFinally hpc code
  refine Ends.of_step (.handOver g.process)
    { g.setWaiter g.process .sent with pc := pc' } (by simp) ?_ ?_
  · simp only [GuardedProcessPool.step, hw, hpc', Option.map_some]
  · refine Ends.of_step .resume
      { g.setWaiter g.process .sent with pc := .done } (by simp) ?_ (.of_done rfl)
    rcases hcases with rfl | rfl | rfl
    · rfl
    · rfl
    · rfl

theorem ends_of_waitFor {cfg : Config} {g : Guard} (hpc : g.pc.waitsInFinally = true)
    (hw : g.waiter g.process = .waitFor) : Ends cfg g := by
  -- once the process is dead, `waitFor` returns and the send finds the receive
  have hdead : ∀ {g : Guard} (code : Int), g.pc.waitsInFinally = true →
      g.waiter g.process = .waitFor → (g.procs g.process).exitCode = some code →
      Ends cfg g := by
    intro g code hpc hw hcode
    refine Ends.of_step (.waitForReturns g.process)
      (g.setWaiter g.process (.sending code)) (by simp) ?_ ?_
    · simp only [GuardedProcessPool.step, hw, hcode]
    · refine ends_of_sending code hpc ?_
      show (g.setWaiter g.process (.sending code)).waiter g.process = _
      rw [setWaiter_waiter, if_pos rfl]
  cases hcode : (g.procs g.process).exitCode with
  | some code => exact hdead code hpc hw hcode
  | none =>
      refine Ends.of_step (.exit g.process 143)
        (g.setExitCode g.process 143) (by simp) ?_ ?_
      · simp only [GuardedProcessPool.step, hcode, Nat.le_refl, and_self, if_true]
      · refine hdead 143 hpc ?_ ?_
        · exact (setExitCode_waiter g g.process g.process 143).trans hw
        · show ((g.setExitCode g.process 143).procs g.process).exitCode = some 143
          rw [setExitCode_exitCode, if_pos rfl]

/-- **A wait of the `finally` block with its thread pending comes to an end.** -/
theorem ends_of_pending {cfg : Config} {g : Guard} (hpc : g.pc.waitsInFinally = true)
    (hw : (g.waiter g.process).pending = true) : Ends cfg g := by
  cases hwaiter : g.waiter g.process with
  | absent | sent => rw [hwaiter] at hw; exact absurd hw (by decide)
  | sending code => exact ends_of_sending code hpc hwaiter
  | waitFor => exact ends_of_waitFor hpc hwaiter
  | logging =>
      refine Ends.of_step (.stdoutClosed g.process)
        (g.setWaiter g.process .waitFor) (by simp) ?_ ?_
      · simp only [GuardedProcessPool.step, hwaiter, if_true]
      · refine ends_of_waitFor hpc ?_
        show (g.setWaiter g.process .waitFor).waiter g.process = _
        rw [setWaiter_waiter, if_pos rfl]

theorem ends_of_finallyBlock {cfg : Config} {g : Guard} (hpc : g.pc = .finallyBlock)
    (hw : g.running = true → (g.waiter g.process).pending = true) : Ends cfg g := by
  refine Ends.of_step .enterFinally
    { g with pc := finallyWait cfg g.running } (by simp) ?_ ?_
  · simp only [GuardedProcessPool.step, hpc, if_true]
  · cases hr : g.running with
    | false => exact .of_done rfl
    | true =>
        refine ends_of_pending ?_ (hw hr)
        show (finallyWait cfg true).waitsInFinally = true
        unfold finallyWait
        rw [if_pos rfl]
        split
        · rfl
        · exact waitsInFinally_afterDestroy cfg

/-- The receive of the loop, cancelled before it is handed a code. -/
theorem ends_of_awaitExit {cfg : Config} {g : Guard} (hpc : g.pc = .awaitExit none)
    (hc : g.cancelled = true) (hw : (g.waiter g.process).pending = true) : Ends cfg g := by
  refine Ends.of_step .throwCancellation { g with pc := .finallyBlock } (by simp) ?_
    (ends_of_finallyBlock rfl fun _ => hw)
  simp only [GuardedProcessPool.step, hpc, hc, if_true]

theorem ends_of_receive {cfg : Config} {g : Guard} (hpc : g.pc = .receive)
    (hc : g.cancelled = true) (hw : (g.waiter g.process).pending = true) : Ends cfg g := by
  refine Ends.of_step .suspend { g with pc := .awaitExit none } (by simp) ?_
    (ends_of_awaitExit rfl hc hw)
  simp only [GuardedProcessPool.step, hpc, if_true]

theorem ends_of_threads {cfg : Config} {g : Guard} (hpc : g.pc = .threads)
    (hc : g.cancelled = true) : Ends cfg g := by
  refine Ends.of_step .startThreads
    { g.setWaiter g.process .logging with pc := .receive } (by simp) ?_
    (ends_of_receive rfl hc ?_)
  · simp only [GuardedProcessPool.step, hpc, if_true]
  · show ((g.setWaiter g.process .logging).waiter g.process).pending = true
    rw [setWaiter_waiter, if_pos rfl]
    rfl

/-- A guard that is not stranded, in a place where it would be without its
thread. -/
theorem pending_of_not_stranded {g : Guard} (h : ¬ Stranded g)
    (hplace : (g.pc = .finallyBlock ∧ g.running = true) ∨ g.pc.waitsInFinally = true) :
    (g.waiter g.process).pending = true := by
  cases hw : (g.waiter g.process).pending with
  | true => rfl
  | false => exact absurd (Or.inr ⟨hplace, hw⟩) h

/-- **Every cancelled guard that is not stranded can end.** -/
theorem ends_of_tracked {cfg : Config} {g : Guard} (ht : Tracked g) (hc : g.cancelled = true)
    (hstr : ¬ Stranded g) : Ends cfg g := by
  have hpl := ht.place
  have hcut : Pc.cutOff g.pc ≠ true := fun h => hstr (Or.inl h)
  cases hpc : g.pc with
  | threads => exact ends_of_threads hpc hc
  | receive =>
      rw [hpc] at hpl
      exact ends_of_receive hpc hc hpl.2
  | awaitExit c =>
      rw [hpc] at hpl hcut
      cases c with
      | some => exact absurd rfl hcut
      | none => exact ends_of_awaitExit hpc hc hpl.2
  | exited c =>
      rw [hpc] at hpl
      refine Ends.of_step (.judgeExit 0) g.fail (by simp) ?_
        (ends_of_finallyBlock rfl fun hr => absurd (hpl.1.symm.trans hr) (by decide))
      simp [GuardedProcessPool.step, hpc]
  | restart =>
      rw [hpc] at hpl
      refine Ends.of_step (.start false) g.fail (by simp) ?_
        (ends_of_finallyBlock rfl fun hr => absurd (hpl.1.symm.trans hr) (by decide))
      simp [GuardedProcessPool.step, hpc]
  | callback suspended =>
      cases suspended with
      | true => rw [hpc] at hcut; exact absurd rfl hcut
      | false =>
          refine Ends.of_step .callbackReturn { g with pc := .threads } (by simp) ?_
            (ends_of_threads rfl hc)
          simp only [GuardedProcessPool.step, hpc, if_true]
  | finallyBlock =>
      exact ends_of_finallyBlock hpc fun hr => pending_of_not_stranded hstr (Or.inl ⟨hpc, hr⟩)
  | awaitTerm c | awaitDestroy c | awaitKilled c =>
      cases c with
      | none =>
          have hwaits : g.pc.waitsInFinally = true := by rw [hpc]; rfl
          exact ends_of_pending hwaits (pending_of_not_stranded hstr (Or.inr hwaits))
      | some c =>
          refine Ends.of_step .resume { g with pc := .done } (by simp) ?_ (.of_done rfl)
          simp only [GuardedProcessPool.step, hpc]
  | done => exact .of_done hpc

/-! ## §2. Guards that never will. -/

/-- A cancelled guard on its way to, or in, a wait that no thread answers. -/
structure Doomed (g : Guard) : Prop where
  cancelled : g.cancelled = true
  running : g.running = true
  silent : ∀ p, (g.waiter p).pending = false
  place : Pc.cutOff g.pc = true ∨ g.pc = .finallyBlock ∨ g.pc.waitsInFinally = true

theorem Doomed.not_done {g : Guard} (hd : Doomed g) : g.pc ≠ .done := by
  intro hpc
  rcases hd.place with h | h | h
  · rw [hpc] at h; exact absurd h (by decide)
  · rw [hpc] at h; exact absurd h (by decide)
  · rw [hpc] at h; exact absurd h (by decide)

/-- A doomed guard stays doomed. -/
theorem doomed_step (cfg : Config) (g : Guard) (a : Label) (g' : Guard)
    (h : GuardedProcessPool.step cfg g a = some g') (hd : Doomed g) : Doomed g' := by
  obtain ⟨hc, hr, hw, hpl⟩ := hd
  have hpend : ∀ p w, w.pending = true → g.waiter p ≠ w := by
    intro p w hpw hp
    have hwp := hw p
    rw [hp, hpw] at hwp
    exact absurd hwp (by decide)
  -- the places a doomed guard is never at
  have hnever : ∀ pc, Pc.cutOff pc = false → pc ≠ .finallyBlock → pc.waitsInFinally = false →
      g.pc ≠ pc := by
    intro pc h₁ h₂ h₃ hpc
    rw [hpc, h₁, h₃] at hpl
    rcases hpl with h | h | h
    · exact absurd h (by decide)
    · exact h₂ h
    · exact absurd h (by decide)
  have hmove : ∀ {pc}, pc = .finallyBlock ∨ pc.waitsInFinally = true →
      Doomed { g with pc := pc } := fun h => ⟨hc, hr, hw, .inr h⟩
  cases a with
  | exit p code =>
      obtain ⟨_, rfl⟩ := of_enabled h
      exact ⟨hc, hr, fun q => by rw [setExitCode_waiter]; exact hw q, hpl⟩
  | cancel =>
      injection h with h
      subst h
      exact ⟨rfl, hr, hw, hpl⟩
  | stdoutClosed p =>
      obtain ⟨hlog, _⟩ := of_enabled h
      exact absurd hlog (hpend p .logging rfl)
  | waitForReturns p =>
      simp only [GuardedProcessPool.step] at h
      split at h
      next hwait _ => exact absurd hwait (hpend p .waitFor rfl)
      next => exact absurd h (by simp)
  | receiveNow p =>
      simp only [GuardedProcessPool.step] at h
      split at h
      next code _ hsend => exact absurd hsend (hpend p (.sending code) rfl)
      next => exact absurd h (by simp)
  | handOver p =>
      simp only [GuardedProcessPool.step] at h
      split at h
      next code hsend => exact absurd hsend (hpend p (.sending code) rfl)
      next => exact absurd h (by simp)
  | resume =>
      simp only [GuardedProcessPool.step] at h
      split at h
      next => rw [if_pos hc] at h; exact absurd h (by simp)
      next c hpc => exact absurd hpc (hnever (.awaitTerm (some c)) rfl (by simp) rfl)
      next c hpc => exact absurd hpc (hnever (.awaitDestroy (some c)) rfl (by simp) rfl)
      next c hpc => exact absurd hpc (hnever (.awaitKilled (some c)) rfl (by simp) rfl)
      next => exact absurd h (by simp)
  | throwCancellation =>
      simp only [GuardedProcessPool.step] at h
      split at h
      next =>
        obtain ⟨_, rfl⟩ := of_enabled h
        exact hmove (.inl rfl)
      next => exact absurd h (by simp)
  | judgeExit elapsed =>
      simp only [GuardedProcessPool.step] at h
      split at h
      next c hpc => exact absurd hpc (hnever (.exited c) rfl (by simp) rfl)
      next => exact absurd h (by simp)
  | start ok =>
      simp only [GuardedProcessPool.step, if_neg (hnever .restart rfl (by simp) rfl)] at h
      exact absurd h (by simp)
  | startThreads =>
      obtain ⟨hpc, _⟩ := of_enabled h
      exact absurd hpc (hnever .threads rfl (by simp) rfl)
  | suspend =>
      obtain ⟨hpc, _⟩ := of_enabled h
      exact absurd hpc (hnever .receive rfl (by simp) rfl)
  | callbackSuspend | callbackReturn | callbackThrow =>
      obtain ⟨hpc, _⟩ := of_enabled h
      exact absurd hpc (hnever (.callback false) rfl (by simp) rfl)
  | callbackResume =>
      obtain ⟨hpc, _⟩ := of_enabled h
      exact absurd (hc.symm.trans hpc.2) (by decide)
  | callbackCancelled =>
      obtain ⟨_, rfl⟩ := of_enabled h
      exact hmove (.inl rfl)
  | enterFinally =>
      obtain ⟨_, rfl⟩ := of_enabled h
      refine hmove (.inr ?_)
      -- `running` is still set, so the block waits for a send that never comes
      unfold finallyWait
      rw [if_pos hr]
      split
      · rfl
      · exact waitsInFinally_afterDestroy cfg
  | timeout =>
      simp only [GuardedProcessPool.step] at h
      split at h
      next =>
        injection h with h
        subst h
        exact hmove (.inr (waitsInFinally_afterDestroy cfg))
      next =>
        injection h with h
        subst h
        exact hmove (.inr rfl)
      next => exact absurd h (by simp)

/-- A stranded guard counts its process as running, and its thread is not
pending. -/
theorem Stranded.silent {g : Guard} (ht : Tracked g) (h : Stranded g) :
    g.running = true ∧ (g.waiter g.process).pending = false := by
  have hpl := ht.place
  rcases h with hcut | ⟨⟨_, hr⟩ | hwaits, hw⟩
  · cases hpc : g.pc with
    | callback => rw [hpc] at hpl; exact ⟨hpl.1, by rw [hpl.2]; rfl⟩
    | awaitExit c =>
        rw [hpc] at hpl hcut
        cases c with
        | none => exact absurd hcut (by simp [Pc.cutOff])
        | some => exact ⟨hpl.1, by rw [hpl.2]; rfl⟩
    | _ => rw [hpc] at hcut; exact absurd hcut (by simp [Pc.cutOff])
  · exact ⟨hr, hw⟩
  · refine ⟨?_, hw⟩
    cases hpc : g.pc with
    | awaitTerm c | awaitDestroy c | awaitKilled c =>
        rw [hpc] at hpl hwaits
        cases c with
        | none => exact hpl
        | some => exact absurd hwaits (by simp [Pc.waitsInFinally])
    | _ => rw [hpc] at hwaits; exact absurd hwaits (by simp [Pc.waitsInFinally])

/-- A cancelled guard that is stranded is doomed. -/
theorem doomed_of_tracked {g : Guard} (ht : Tracked g) (hc : g.cancelled = true)
    (h : Stranded g) : Doomed g := by
  obtain ⟨hr, hw⟩ := h.silent ht
  refine ⟨hc, hr, ?_, ?_⟩
  · intro p
    cases hp : (g.waiter p).pending with
    | false => rfl
    | true =>
        have hpp := ht.current hp
        rw [hpp, hw] at hp
        exact absurd hp (by decide)
  · rcases h with hcut | ⟨⟨hpc, _⟩ | hwaits, _⟩
    · exact .inl hcut
    · exact .inr (.inl hpc)
    · exact .inr (.inr hwaits)

/-! ## §3. From the guards to the pool. -/

/-- The steps of one guard, run inside the pool. -/
theorem exec_guard {sdkInt : Nat} {i : Nat} {g' : Guard} : ∀ {as : List Label} {p : Pool},
    i < p.launched → exec (ownStep (p.config sdkInt i)) (p.guards i) as = some g' →
    exec (step sdkInt) p (as.map (.guard i)) = some (p.setGuard i g')
  | [], p, _, h => by
      have hg : p.guards i = g' := Option.some.inj h
      show some p = some (p.setGuard i g')
      unfold Pool.setGuard
      rw [← hg, Function.update_eq_self]
  | a :: as, p, hi, h => by
      obtain ⟨g₁, hg₁, hrest⟩ := exec_cons.mp h
      refine exec_cons.mpr ⟨p.setGuard i g₁, ?_, ?_⟩
      · show (if i < p.launched then _ else none) = _
        rw [if_pos hi, hg₁]
        rfl
      · have hself : (p.setGuard i g₁).guards i = g₁ := Function.update_self ..
        have htail : exec (step sdkInt) (p.setGuard i g₁) (as.map (.guard i))
            = some ((p.setGuard i g₁).setGuard i g') :=
          exec_guard hi (by rw [hself]; exact hrest)
        rw [htail]
        unfold Pool.setGuard
        rw [Function.update_idem]

/-- Guards end independently, so if each can, all can: by induction on the
number of guards already brought to their end. -/
theorem exec_all_done {sdkInt : Nat} {p : Pool}
    (hends : ∀ i, i < p.launched → Ends (p.config sdkInt i) (p.guards i)) :
    ∀ n, n ≤ p.launched → ∃ as p', exec (step sdkInt) p as = some p'
      ∧ p'.launched = p.launched ∧ p'.hasCallback = p.hasCallback
      ∧ (∀ i, i < n → (p'.guards i).pc = .done) ∧ ∀ i, n ≤ i → p'.guards i = p.guards i := by
  intro n
  induction n with
  | zero =>
      intro _
      exact ⟨[], p, rfl, rfl, rfl, fun i hi => absurd hi (Nat.not_lt_zero i), fun _ _ => rfl⟩
  | succ n ih =>
      intro hn
      obtain ⟨as, p', hrun, hlaunched, hcb, hdone, hrest⟩ := ih (Nat.le_of_succ_le hn)
      obtain ⟨bs, g', hbs, hg'⟩ := hends n hn
      have hcfg : p'.config sdkInt n = p.config sdkInt n := by
        unfold Pool.config
        rw [hcb]
      have hlift : exec (step sdkInt) p' (bs.map (.guard n)) = some (p'.setGuard n g') := by
        apply exec_guard (by omega)
        rw [hcfg, hrest n (Nat.le_refl n)]
        exact hbs
      refine ⟨as ++ bs.map (.guard n), p'.setGuard n g', exec_append.mpr ⟨p', hrun, hlift⟩,
        hlaunched, hcb, ?_, ?_⟩
      · intro i hi
        show (Function.update p'.guards n g' i).pc = .done
        rw [Function.update_apply]
        split
        next => exact hg'
        next hne => exact hdone i (by omega)
      · intro i hi
        show Function.update p'.guards n g' i = p.guards i
        rw [Function.update_of_ne (by omega)]
        exact hrest i (by omega)

/-- A looper that is done stays so. -/
theorem done_step {cfg : Config} {g g' : Guard} {a : Label}
    (h : GuardedProcessPool.step cfg g a = some g') (hdone : g.pc = .done) : g'.pc = .done := by
  cases a with
  | exit p code | stdoutClosed p =>
      obtain ⟨_, rfl⟩ := of_enabled h
      exact hdone
  | cancel => rw [← Option.some.inj h]; exact hdone
  | waitForReturns p =>
      simp only [GuardedProcessPool.step] at h
      split at h
      next => rw [← Option.some.inj h]; exact hdone
      next => exact absurd h (by simp)
  | handOver p =>
      simp only [GuardedProcessPool.step, hdone] at h
      split at h
      next => exact absurd h (by simp [Pc.handOver])
      next => exact absurd h (by simp)
  | _ => simp [GuardedProcessPool.step, hdone] at h

/-- **What every run keeps of a guard**; one that was started under the
cancelled job is done and was never tracked. -/
theorem done_or_tracked {sdkInt : Nat} {as : List Act} {p : Pool}
    (hrun : exec (step sdkInt) {} as = some p) :
    ∀ i, i < p.launched → (p.guards i).pc = .done ∨ Tracked (p.guards i) := by
  refine exec_invariant_all
    (I := fun p : Pool => ∀ i, i < p.launched → (p.guards i).pc = .done ∨ Tracked (p.guards i))
    ?_ as {} p (fun i hi => absurd hi (Nat.not_lt_zero i)) hrun
  intro p a p' h hI
  refine forall_guards_step (I := fun g => g.pc = .done ∨ Tracked g) ?_ ?_ ?_ h hI
  · intro c _
    split
    · exact .inl rfl
    · exact .inr tracked_init
  · rintro i l g' - hg (hdone | ht)
    · exact .inl (done_step hg hdone)
    · exact .inr (tracked_step _ _ l g' hg ht)
  · rintro g (hdone | ht)
    · exact .inl hdone
    · exact .inr (ht.move g.running g.pc true g.fatal ht.place)

/-- No step of a guard touches the job. -/
theorem step_cancelled {cfg : Config} {g g' : Guard} {a : Label}
    (h : GuardedProcessPool.step cfg g a = some g') (hc : g.cancelled = true) :
    g'.cancelled = true := by
  cases a with
  | cancel => injection h with h; subst h; rfl
  | handOver p =>
      simp only [GuardedProcessPool.step] at h
      split at h
      next =>
        simp only [Option.map_eq_some_iff] at h
        obtain ⟨_, _, rfl⟩ := h
        exact hc
      next => exact absurd h (by simp)
  | _ => grind [GuardedProcessPool.step, Guard.fail, Guard.setWaiter, Guard.setExitCode]

/-- Every launched guard sees the cancellation of the pool. -/
theorem cancelled_guards {sdkInt : Nat} {as : List Act} {p : Pool}
    (hrun : exec (step sdkInt) {} as = some p) (hc : p.cancelled = true) :
    ∀ i, i < p.launched → (p.guards i).cancelled = true := by
  refine exec_invariant_all
    (I := fun p : Pool => p.cancelled = true → ∀ i, i < p.launched → (p.guards i).cancelled = true)
    ?_ as {} p (fun h => absurd h (by simp)) hrun hc
  intro p a p' h hI hc'
  cases a with
  | cancel =>
      injection h with h
      subst h
      exact fun _ _ => rfl
  | start c ok =>
      have hp : p.cancelled = true := by
        cases ok <;> (injection h with h; subst h; exact hc')
      refine forall_guards_step (I := fun g => g.cancelled = true) ?_ ?_ (fun _ _ => rfl) h (hI hp)
      · intro _ _
        rw [hp]
        rfl
      · exact fun _ _ _ _ hg hcg => step_cancelled hg hcg
  | guard j l =>
      have hp : p.cancelled = true := by
        simp only [step] at h
        split at h
        next =>
          simp only [Option.map_eq_some_iff] at h
          obtain ⟨_, _, rfl⟩ := h
          exact hc'
        next => exact absurd h (by simp)
      exact forall_guards_step (I := fun g => g.cancelled = true) (fun _ ha => by simp at ha)
        (fun _ _ _ _ hg hcg => step_cancelled hg hcg) (fun _ _ => rfl) h (hI hp)

/-- A doomed guard stays in the pool and stays doomed. -/
theorem doomed_pool_step {sdkInt : Nat} {i : Nat} (p : Pool) (a : Act) (p' : Pool)
    (h : step sdkInt p a = some p') (hd : i < p.launched ∧ Doomed (p.guards i)) :
    i < p'.launched ∧ Doomed (p'.guards i) := by
  obtain ⟨hi, hd⟩ := hd
  cases a with
  | start c ok =>
      cases ok with
      | false =>
          injection h with h
          subst h
          exact ⟨hi, hd⟩
      | true =>
          injection h with h
          subst h
          refine ⟨Nat.lt_succ_of_lt hi, ?_⟩
          show Doomed (Function.update p.guards p.launched _ i)
          rw [Function.update_of_ne (Nat.ne_of_lt hi)]
          exact hd
  | guard j l =>
      simp only [step] at h
      split at h
      next =>
        simp only [Option.map_eq_some_iff] at h
        obtain ⟨g', hg', rfl⟩ := h
        refine ⟨hi, ?_⟩
        show Doomed (Function.update p.guards j g' i)
        rw [Function.update_apply]
        split
        next hij =>
          rw [hij] at hd
          exact doomed_step _ _ l g' (of_ownStep hg') hd
        next => exact hd
      next => exact absurd h (by simp)
  | cancel =>
      injection h with h
      subst h
      exact ⟨hi, rfl, hd.running, hd.silent, hd.place⟩

/-! ## §4. The join. -/

/-- A looper that is done is not stranded. -/
theorem not_stranded_of_done {g : Guard} (h : g.pc = .done) : ¬ Stranded g := by
  unfold Stranded
  rw [h]
  simp [Pc.cutOff, Pc.waitsInFinally]

/-- `sendFd` throws IOException for the restarted `tun2socks`, and the pool
is closed. -/
def closedAfterThrow : List Act :=
  [.start false true, .start true true, .guard 0 .startThreads, .guard 0 .suspend,
   .guard 1 .startThreads, .guard 1 .suspend, .guard 1 (.exit 0 137), .guard 1 (.stdoutClosed 0),
   .guard 1 (.waitForReturns 0), .guard 1 (.handOver 0), .guard 1 .resume,
   .guard 1 (.judgeExit 5000), .guard 1 (.start true), .guard 1 .callbackThrow, .cancel]

end FoxVpn.Bg.ProcessPool
