/-
  FoxVpn.Bg.Lifecycle
  ───────────────────
  **THE LIFE OF A SESSION, AND THAT THE SERVICE FOLLOWS IT.**

  Seen from far the service is a machine of six phases:

      stopped ──► connecting ──► connected
         │            │  │           │
         │            │  └──────┐    │
         │         joining      │    │
         │            │         ▼    ▼
         └────────────┴─────► cleaning ──► awaiting ──► stopped

  `InPhase s ph` says everything the service's data must satisfy in phase
  `ph`: which coroutine is alive, who has the main thread, which resources
  are there.  `step_follows` shows that EVERY step of the service is a step
  of this machine or stays in its phase; what holds of every run is then
  read off the phases (`service_run_safe`).
-/
import FoxVpn.Bg.Service

namespace FoxVpn.Bg

open FoxVpn.Lib FoxVpn.Database

/-! ## §1. The abstract machine. -/

inductive Phase where
  | stopped
  | connecting
  | connected
  /-- Stop `k` waits for job `j`. -/
  | joining (k j : Nat)
  /-- Stop `k` cleans up on the main thread. -/
  | cleaning (k : Nat)
  /-- Stop `k` waits for the children of its scope. -/
  | awaiting (k : Nat)
  deriving Repr, DecidableEq

def Phase.state : Phase → State
  | .stopped => .stopped
  | .connecting => .connecting
  | .connected => .connected
  | .joining _ _ => .stopping
  | .cleaning _ => .stopping
  | .awaiting _ => .stopping

/-- The steps of the machine. -/
inductive Phase.Next : Phase → Phase → Prop where
  | stay (ph : Phase) : Next ph ph
  | start : Next .stopped .connecting
  | succeed : Next .connecting .connected
  | cancel (k j : Nat) : Next .connecting (.joining k j)
  /-- A stop that finds no job to wait for. -/
  | stop {ph : Phase} (k : Nat) (h : ph.state ≠ .stopping) : Next ph (.cleaning k)
  | joined (k j : Nat) : Next (.joining k j) (.cleaning k)
  | scopeEnds (k : Nat) : Next (.cleaning k) (.awaiting k)
  | done (k : Nat) : Next (.awaiting k) .stopped

/-- The state changes that are allowed. -/
def State.Moves : State → State → Prop
  | .stopped, .connecting => True
  | .connecting, .connected => True
  | .stopped, .stopping => True
  | .connecting, .stopping => True
  | .connected, .stopping => True
  | .stopping, .stopped => True
  | a, b => a = b

theorem Phase.Next.moves {ph ph' : Phase} (h : ph.Next ph') : ph.state.Moves ph'.state := by
  cases h with
  | stay => cases ph <;> trivial
  | stop k h =>
      cases ph with
      | stopped => trivial
      | connecting => trivial
      | connected => trivial
      | joining k j => exact absurd rfl h
      | cleaning k => exact absurd rfl h
      | awaiting k => exact absurd rfl h
  | start => trivial
  | succeed => trivial
  | cancel => trivial
  | joined => trivial
  | scopeEnds => trivial
  | done => trivial

/-- The two phases of a running session. -/
def Phase.inSession : Phase → Bool
  | .connecting => true
  | .connected => true
  | _ => false

/-- A session ends by going to Stopping. -/
theorem Phase.Next.leaves_session {ph ph' : Phase} (h : ph.Next ph')
    (hin : ph.inSession = true) (hout : ph'.inSession = false) : ph'.state = .stopping := by
  cases h with
  | stay => exact absurd (hin.symm.trans hout) (by simp)
  | start => exact absurd hin (by decide)
  | succeed => exact absurd hout (by decide)
  | cancel => rfl
  | stop => rfl
  | joined => exact absurd hin Bool.false_ne_true
  | scopeEnds => exact absurd hin Bool.false_ne_true
  | done => exact absurd hin Bool.false_ne_true

/-! ## §2. What a phase says about the data. -/

namespace Service

/-- No connecting job has code left to run. -/
def Quiet (jobs : Nat → Job) : Prop := ∀ j, (jobs j).pc.active = false

/-- No stop coroutine but `k` has code left to run. -/
def OnlyStop (stops : Nat → Stop) (k : Option Nat) : Prop :=
  ∀ k', (stops k').pc.live = true → k = some k'

/-- What the clean-up takes down first. -/
def Released (s : Service) : Prop :=
  s.processes = none ∧ s.localDns = false ∧ s.notification = none
    ∧ s.closeReceiverRegistered = false ∧ s.worker = false ∧ s.conn = false ∧ s.active = false

/-- Job `j` is the one of the session, and has set up what it must have when
it gets to `sendFd`. -/
def JobOk (s : Service) (cancelled : Bool) (j : Nat) : Prop :=
  s.connectingJob = some j ∧ (s.jobs j).cancelled = cancelled
    ∧ ∀ tries, (s.jobs j).pc = .sendFd tries → s.processes.isSome = true ∧ s.localDns = true

/-- A session has its proxy, and its receiver for CLOSE. -/
def Equipped (s : Service) : Prop :=
  s.proxy.isSome = true ∧ s.closeReceiverRegistered = true

/-- The data of the service in a phase. -/
def InPhase (s : Service) : Phase → Prop
  | .stopped =>
      s.state = .stopped ∧ s.main = none ∧ OnlyStop s.stops none ∧ Quiet s.jobs ∧ s.Released
        ∧ s.proxy = none ∧ s.udpFallback = none
  | .connecting =>
      s.state = .connecting ∧ s.main = none ∧ OnlyStop s.stops none ∧ s.Equipped
        ∧ ∀ j, (s.jobs j).pc.active = true → s.JobOk false j
  | .connected =>
      s.state = .connected ∧ s.main = none ∧ OnlyStop s.stops none ∧ Quiet s.jobs
        ∧ s.Equipped ∧ s.processes.isSome = true ∧ s.localDns = true
  | .joining k j =>
      s.state = .stopping ∧ s.main = none ∧ OnlyStop s.stops (some k) ∧ (s.stops k).pc = .joining j
        ∧ ∀ j', (s.jobs j').pc.active = true → j' = j ∧ s.JobOk true j'
  | .cleaning k =>
      s.state = .stopping ∧ s.main = some k ∧ OnlyStop s.stops (some k)
        ∧ (s.stops k).pc.holdsMain = true ∧ Quiet s.jobs ∧ s.Released
  | .awaiting k =>
      s.state = .stopping ∧ s.main = none ∧ OnlyStop s.stops (some k) ∧ (s.stops k).pc = .awaiting
        ∧ Quiet s.jobs ∧ s.Released ∧ s.proxy = none ∧ s.udpFallback = none

theorem inPhase_new : InPhase {} .stopped := by
  refine ⟨rfl, rfl, ?_, fun _ => rfl, ⟨rfl, rfl, rfl, rfl, rfl, rfl, rfl⟩, rfl, rfl⟩
  intro k' hk'
  exact absurd hk' Bool.false_ne_true

theorem InPhase.state_eq {s : Service} {ph : Phase} (h : s.InPhase ph) : s.state = ph.state := by
  cases ph <;> exact h.1

/-- Outside Stopping the state tells the phase. -/
theorem InPhase.of_stopped {s : Service} {ph : Phase} (h : s.InPhase ph)
    (hst : s.state = .stopped) : ph = .stopped := by
  have hstate := h.state_eq.symm.trans hst
  cases ph <;> first | rfl | exact absurd hstate (by simp [Phase.state])

theorem InPhase.of_connected {s : Service} {ph : Phase} (h : s.InPhase ph)
    (hst : s.state = .connected) : ph = .connected := by
  have hstate := h.state_eq.symm.trans hst
  cases ph <;> first | rfl | exact absurd hstate (by simp [Phase.state])

/-! ## §3. The functions, phase by phase. -/

theorem changeState_eq (s : Service) (st : State) (msg : Option Message) :
    ∃ out, s.changeState st msg = { s with sent := out, state := st } := by
  unfold changeState
  split
  next h => exact ⟨s.sent, by rw [← h.1]⟩
  next => exact ⟨_, rfl⟩

theorem setStop_self (s : Service) (k : Nat) (c : Stop) : (s.setStop k c).stops k = c := by
  show Function.update s.stops k c k = c
  rw [Function.update_self]

theorem setStop_ne (s : Service) {i k : Nat} (c : Stop) (h : i ≠ k) :
    (s.setStop k c).stops i = s.stops i := by
  show Function.update s.stops k c i = s.stops i
  rw [Function.update_of_ne h]

/-- Assigning stop `k` leaves at most `k` alive. -/
theorem OnlyStop.update {stops : Nat → Stop} {k : Nat} (c : Stop)
    (h : OnlyStop stops none ∨ OnlyStop stops (some k)) :
    OnlyStop (Function.update stops k c) (some k) := by
  intro k' hlive
  by_cases hk : k' = k
  · rw [hk]
  · rw [Function.update_of_ne hk] at hlive
    rcases h with h | h
    · exact absurd (h k' hlive) (by simp)
    · exact h k' hlive

/-- The clean-up of stop `k` begins, with no job left. -/
theorem cleanUp_inPhase {s : Service} {k : Nat} (c : Stop) (hst : s.state = .stopping)
    (hstop : OnlyStop s.stops none ∨ OnlyStop s.stops (some k)) (hq : Quiet s.jobs) :
    (s.cleanUp k c).InPhase (.cleaning k) := by
  refine ⟨hst, rfl, OnlyStop.update _ hstop, ?_, hq, ⟨rfl, rfl, rfl, rfl, rfl, rfl, rfl⟩⟩
  show (Function.update s.stops k _ k).pc.holdsMain = true
  rw [Function.update_self]
  rfl

/-- Outside Stopping there is no stop alive, and the only job with code to
run is the one in `connectingJob`. -/
theorem InPhase.idle_stops {s : Service} {ph : Phase} (h : s.InPhase ph)
    (hst : s.state ≠ .stopping) :
    s.main = none ∧ OnlyStop s.stops none
      ∧ ∀ j, (s.jobs j).pc.active = true → ph = .connecting ∧ s.JobOk false j := by
  cases ph with
  | stopped =>
      obtain ⟨_, hm, hstop, hq, _⟩ := h
      exact ⟨hm, hstop, fun j hj => absurd hj (by rw [hq j]; decide)⟩
  | connected =>
      obtain ⟨_, hm, hstop, hq, _⟩ := h
      exact ⟨hm, hstop, fun j hj => absurd hj (by rw [hq j]; decide)⟩
  | connecting =>
      obtain ⟨_, hm, hstop, _, hjob⟩ := h
      exact ⟨hm, hstop, fun j hj => ⟨rfl, hjob j hj⟩⟩
  | joining k j => exact absurd h.1 hst
  | cleaning k => exact absurd h.1 hst
  | awaiting k => exact absurd h.1 hst

/-- Cancelling a job changes no program counter. -/
theorem cancel_pc (jobs : Nat → Job) (j i : Nat) :
    (Function.update jobs j { jobs j with cancelled := true } i).pc = (jobs i).pc := by
  by_cases hi : i = j
  · rw [hi, Function.update_self]
  · rw [Function.update_of_ne hi]

/-- The stop coroutine begins: behind the job of the session if that is
still running, else with the clean-up. -/
theorem launchStop_inPhase {s : Service} (c : Stop) (hst : s.state = .stopping)
    (hm : s.main = none) (hstop : OnlyStop s.stops none)
    (hjob : ∀ j, (s.jobs j).pc.active = true → s.JobOk false j) :
    (∃ j, (s.jobs j).pc.active = true ∧ (s.launchStop c).InPhase (.joining s.nextStop j))
      ∨ (s.launchStop c).InPhase (.cleaning s.nextStop) := by
  unfold launchStop
  split
  next j hj =>
    left
    obtain ⟨hhandle, hact⟩ := Option.filter_eq_some_iff.mp hj
    refine ⟨j, hact, hst, hm, OnlyStop.update _ (Or.inl hstop), ?_, fun j' hact' => ?_⟩
    · show (Function.update s.stops s.nextStop _ s.nextStop).pc = _
      rw [Function.update_self]
    · have hact₀ : (s.jobs j').pc.active = true := by
        rw [← cancel_pc s.jobs j]
        exact hact'
      have hok := hjob j' hact₀
      obtain rfl : j' = j := Option.some.inj (hok.1.symm.trans hhandle)
      refine ⟨rfl, hok.1, ?_, fun tries ht => hok.2.2 tries ?_⟩
      · show (Function.update s.jobs j' _ j').cancelled = true
        rw [Function.update_self]
      · rw [← cancel_pc s.jobs j']
        exact ht
  next hnone =>
    right
    refine cleanUp_inPhase c hst (Or.inl hstop) fun j => ?_
    -- an active job would have been found
    by_contra hact
    rw [Bool.not_eq_false] at hact
    exact absurd hnone (by simp [(hjob j hact).1, show (s.jobs j).pc.active = true from hact])

/-- `stopRunner` from any phase: ignored while Stopping, else the stop
begins. -/
theorem stopRunner_follows {s : Service} {ph : Phase} (h : s.InPhase ph) (restart : Bool)
    (msg : Option Message) :
    ∃ ph', (s.stopRunner restart msg).InPhase ph' ∧ ph.Next ph' := by
  unfold stopRunner
  by_cases hst : s.state = .stopping
  · rw [if_pos hst]
    exact ⟨ph, h, .stay ph⟩
  · rw [if_neg hst]
    obtain ⟨hm, hstop, hjob⟩ := h.idle_stops hst
    obtain ⟨out, hout⟩ := changeState_eq s .stopping none
    rw [hout]
    rcases launchStop_inPhase (s := { s with sent := out, state := .stopping }) { restart, msg }
      rfl hm hstop (fun j hj => (hjob j hj).2) with ⟨j, hj, hin⟩ | hin
    · rw [(hjob j hj).1]
      exact ⟨_, hin, .cancel _ j⟩
    · exact ⟨_, hin, .stop _ (by rw [← h.state_eq]; exact hst)⟩

/-- A live stop is the stop of the phase, and its program counter tells the
phase. -/
theorem InPhase.of_live {s : Service} {ph : Phase} (h : s.InPhase ph) {k : Nat}
    (hk : (s.stops k).pc.live = true) :
    (∃ j, ph = .joining k j ∧ (s.stops k).pc = .joining j)
      ∨ (ph = .cleaning k ∧ (s.stops k).pc.holdsMain = true)
      ∨ (ph = .awaiting k ∧ (s.stops k).pc = .awaiting) := by
  cases ph with
  | stopped => exact absurd (h.2.2.1 k hk) (by simp)
  | connecting => exact absurd (h.2.2.1 k hk) (by simp)
  | connected => exact absurd (h.2.2.1 k hk) (by simp)
  | joining k' j =>
      obtain rfl : k' = k := Option.some.inj (h.2.2.1 k hk)
      exact Or.inl ⟨j, rfl, h.2.2.2.1⟩
  | cleaning k' =>
      obtain rfl : k' = k := Option.some.inj (h.2.2.1 k hk)
      exact Or.inr (Or.inl ⟨rfl, h.2.2.2.1⟩)
  | awaiting k' =>
      obtain rfl : k' = k := Option.some.inj (h.2.2.1 k hk)
      exact Or.inr (Or.inr ⟨rfl, h.2.2.2.1⟩)

theorem InPhase.of_holdsMain {s : Service} {ph : Phase} (h : s.InPhase ph) {k : Nat}
    (hk : (s.stops k).pc.holdsMain = true) : ph = .cleaning k := by
  have hlive : (s.stops k).pc.live = true := by
    revert hk
    cases (s.stops k).pc <;> simp [StopPc.holdsMain, StopPc.live]
  rcases h.of_live hlive with ⟨j, _, hpc⟩ | ⟨hph, _⟩ | ⟨_, hpc⟩
  · exact absurd hk (by simp [hpc, StopPc.holdsMain])
  · exact hph
  · exact absurd hk (by simp [hpc, StopPc.holdsMain])

theorem InPhase.of_joining {s : Service} {ph : Phase} (h : s.InPhase ph) {k j : Nat}
    (hk : (s.stops k).pc = .joining j) : ph = .joining k j := by
  rcases h.of_live (by rw [hk]; rfl) with ⟨j', hph, hpc⟩ | ⟨_, hmain⟩ | ⟨_, hpc⟩
  · rw [hk] at hpc
    injection hpc with hpc
    rw [hph, hpc]
  · exact absurd hmain (by simp [hk, StopPc.holdsMain])
  · exact absurd (hk.symm.trans hpc) (by simp)

theorem InPhase.of_awaiting {s : Service} {ph : Phase} (h : s.InPhase ph) {k : Nat}
    (hk : (s.stops k).pc = .awaiting) : ph = .awaiting k := by
  rcases h.of_live (by rw [hk]; rfl) with ⟨j', _, hpc⟩ | ⟨_, hmain⟩ | ⟨hph, _⟩
  · exact absurd (hk.symm.trans hpc) (by simp)
  · exact absurd hmain (by simp [hk, StopPc.holdsMain])
  · exact hph

/-- A job with code to run is the job of a session that connects, or of one
that is being cancelled. -/
theorem InPhase.of_active {s : Service} {ph : Phase} (h : s.InPhase ph) {j : Nat}
    (hj : (s.jobs j).pc.active = true) :
    (ph = .connecting ∧ s.JobOk false j) ∨ ∃ k, ph = .joining k j ∧ s.JobOk true j := by
  cases ph with
  | connecting => exact Or.inl ⟨rfl, h.2.2.2.2 j hj⟩
  | joining k j' =>
      obtain ⟨rfl, hok⟩ := h.2.2.2.2 j hj
      exact Or.inr ⟨k, rfl, hok⟩
  | stopped => exact absurd hj (by rw [h.2.2.2.1 j]; decide)
  | connected => exact absurd hj (by rw [h.2.2.2.1 j]; decide)
  | cleaning k => exact absurd hj (by rw [h.2.2.2.2.1 j]; decide)
  | awaiting k => exact absurd hj (by rw [h.2.2.2.2.1 j]; decide)

/-- A job that is not cancelled runs in the connecting phase only. -/
theorem InPhase.of_resumes {s : Service} {ph : Phase} (h : s.InPhase ph) {j : Nat}
    (hj : (s.jobs j).pc.active = true) (hc : (s.jobs j).cancelled = false) :
    ph = .connecting ∧ s.JobOk false j := by
  rcases h.of_active hj with hcon | ⟨k, _, hok⟩
  · exact hcon
  · exact absurd (hc.symm.trans hok.2.1) (by simp)

/-- In both, it is the only one. -/
theorem InPhase.active_unique {s : Service} {ph : Phase} (h : s.InPhase ph) {i j : Nat}
    (hi : (s.jobs i).pc.active = true) (hj : (s.jobs j).pc.active = true) : i = j := by
  have handle : ∀ {n}, (s.jobs n).pc.active = true → s.connectingJob = some n := by
    intro n hn
    rcases h.of_active hn with ⟨_, hok⟩ | ⟨_, _, hok⟩ <;> exact hok.1
  exact Option.some.inj ((handle hi).symm.trans (handle hj))

/-- Once the only active job is completed there is none. -/
theorem quiet_complete {jobs : Nat → Job} {j : Nat} {b : Job}
    (h : ∀ i, (jobs i).pc.active = true → i = j) (hb : b.pc = .completed) :
    Quiet (Function.update jobs j b) := by
  intro i
  by_cases hi : i = j
  · rw [hi, Function.update_self, hb]
    rfl
  · rw [Function.update_of_ne hi]
    by_contra hact
    exact hi (h i (by simpa using hact))

/-- A job completes, with or without its `finally` block. -/
theorem complete_inPhase {s : Service} {ph : Phase} (h : s.InPhase ph) {j : Nat}
    (hj : (s.jobs j).pc.active = true) (handle : Option Nat) :
    InPhase { s with
      jobs := Function.update s.jobs j { s.jobs j with pc := .completed }
      connectingJob := handle } ph := by
  have hq : Quiet (Function.update s.jobs j { s.jobs j with pc := .completed }) :=
    quiet_complete (fun i hi => h.active_unique hi hj) rfl
  rcases h.of_active hj with ⟨rfl, _⟩ | ⟨k, rfl, _⟩
  · obtain ⟨hst, hm, hstop, hproxy, _⟩ := h
    exact ⟨hst, hm, hstop, hproxy, fun i hi => absurd hi (by rw [hq i]; decide)⟩
  · obtain ⟨hst, hm, hstop, hpc, _⟩ := h
    exact ⟨hst, hm, hstop, hpc, fun i hi => absurd hi (by rw [hq i]; decide)⟩

/-- A job that is not cancelled goes on to another suspension point. -/
theorem goto_inPhase {s : Service} {j : Nat} {pc : JobPc} (h : s.InPhase .connecting)
    (hj : (s.jobs j).pc.active = true)
    (hpc : ∀ tries, pc = .sendFd tries → s.processes.isSome = true ∧ s.localDns = true) :
    (s.goto j pc).InPhase .connecting := by
  obtain ⟨hst, hm, hstop, hproxy, hjob⟩ := h
  refine ⟨hst, hm, hstop, hproxy, fun i hi => ?_⟩
  have hok := hjob j hj
  have hij : i = j := by
    by_contra hij
    have hi' : (s.jobs i).pc.active = true := by
      rw [show (s.goto j pc).jobs i = s.jobs i from Function.update_of_ne hij _ _] at hi
      exact hi
    exact hij (Option.some.inj ((hjob i hi').1.symm.trans hok.1))
  subst hij
  have hnew : (s.goto i pc).jobs i = { s.jobs i with pc := pc } := Function.update_self ..
  refine ⟨hok.1, by rw [hnew]; exact hok.2.1, fun tries ht => hpc tries ?_⟩
  rw [hnew] at ht
  exact ht

/-- `stopRunner` may cancel a job; it moves none. -/
theorem stopRunner_pc (s : Service) (restart : Bool) (msg : Option Message) (i : Nat) :
    ((s.stopRunner restart msg).jobs i).pc = (s.jobs i).pc := by
  unfold stopRunner
  split
  next => rfl
  next =>
    obtain ⟨out, hout⟩ := changeState_eq s .stopping none
    rw [hout]
    unfold launchStop
    split
    next j _ => exact cancel_pc s.jobs j i
    next => rfl

/-- The catch and `finally` blocks of a running job. -/
theorem catchThrown_follows {s : Service} {ph : Phase} (h : s.InPhase ph) {j : Nat}
    (hj : (s.jobs j).pc.active = true) (e : Thrown) :
    ∃ ph', (s.catchThrown j e).InPhase ph' ∧ ph.Next ph' := by
  cases e with
  | cancellation => exact ⟨ph, complete_inPhase h hj none, .stay ph⟩
  | other message =>
      obtain ⟨ph', h', hnext⟩ := stopRunner_follows h false (some (.serviceFailed message))
      refine ⟨ph', complete_inPhase h' ?_ none, hnext⟩
      rw [stopRunner_pc]
      exact hj

/-- What the assignments of `startEffects` may change. -/
structure StartFrame (s t : Service) : Prop where
  state : t.state = s.state
  main : t.main = s.main
  stops : t.stops = s.stops
  jobs : t.jobs = s.jobs
  handle : t.connectingJob = s.connectingJob
  proxy : t.proxy.map (·.profile) = s.proxy.map (·.profile)
  receiver : t.closeReceiverRegistered = s.closeReceiverRegistered
  sent : t.sent = s.sent

/-- Every one of the assignments keeps the frame. -/
theorem startEffects_frame {f : Service → Service} (hf : f ∈ startEffects) (s : Service) :
    StartFrame s (f s) := by
  simp only [startEffects, List.mem_cons, List.not_mem_nil, or_false] at hf
  rcases hf with rfl | rfl | rfl | rfl | rfl | rfl | rfl | rfl | rfl | rfl
  case inr.inr.inl =>
    refine ⟨rfl, rfl, rfl, rfl, rfl, ?_, rfl, rfl⟩
    show (s.proxy.map _).map _ = _
    rw [Option.map_map]
    rfl
  case inr.inr.inr.inr.inr.inl =>
    dsimp only
    split <;> exact ⟨rfl, rfl, rfl, rfl, rfl, rfl, rfl, rfl⟩
  all_goals exact ⟨rfl, rfl, rfl, rfl, rfl, rfl, rfl, rfl⟩

theorem StartFrame.trans {s t u : Service} (h : StartFrame s t) (h' : StartFrame t u) :
    StartFrame s u :=
  ⟨h'.state.trans h.state, h'.main.trans h.main, h'.stops.trans h.stops, h'.jobs.trans h.jobs,
    h'.handle.trans h.handle, h'.proxy.trans h.proxy, h'.receiver.trans h.receiver,
    h'.sent.trans h.sent⟩

theorem foldl_frame :
    ∀ (fs : List (Service → Service)) (s : Service), (∀ f ∈ fs, ∀ t, StartFrame t (f t)) →
      StartFrame s (fs.foldl (fun t f => f t) s)
  | [], _, _ => ⟨rfl, rfl, rfl, rfl, rfl, rfl, rfl, rfl⟩
  | f :: fs, s, h =>
      (h f List.mem_cons_self s).trans
        (foldl_frame fs (f s) fun g hg => h g (List.mem_cons_of_mem f hg))

theorem startUp_frame (s : Service) (n : Nat) : StartFrame s (s.startUp n) :=
  foldl_frame _ s fun _ hf t => startEffects_frame (List.mem_of_mem_take hf) t

theorem StartFrame.equipped {s t : Service} (h : StartFrame s t) (hs : s.Equipped) :
    t.Equipped := by
  refine ⟨?_, h.receiver.trans hs.2⟩
  have hsome := congrArg Option.isSome h.proxy
  rw [Option.isSome_map, Option.isSome_map] at hsome
  exact hsome.trans hs.1

/-- All of them together leave the pool and the DNS worker in place. -/
theorem startUp_complete (s : Service) {n : Nat} (hn : startEffects.length ≤ n) :
    (s.startUp n).processes.isSome = true ∧ (s.startUp n).localDns = true := by
  unfold startUp
  rw [List.take_of_length_le hn]
  simp only [startEffects, List.foldl_cons, List.foldl_nil, mapSlot]
  split <;> simp

/-- The assignments made by a job that is still before `sendFd`. -/
theorem startUp_inPhase {s : Service} {j : Nat} (h : s.InPhase .connecting)
    (hj : (s.jobs j).pc = .startUp) (n : Nat) : (s.startUp n).InPhase .connecting := by
  have hact : (s.jobs j).pc.active = true := by rw [hj]; rfl
  have hf := startUp_frame s n
  have hunique := fun i hi => h.active_unique (i := i) hi hact
  obtain ⟨hst, hm, hstop, hproxy, hjob⟩ := h
  refine ⟨hf.state.trans hst, hf.main.trans hm, by rw [hf.stops]; exact hstop,
    hf.equipped hproxy, fun i hi => ?_⟩
  rw [hf.jobs] at hi
  obtain rfl : i = j := hunique i hi
  refine ⟨hf.handle.trans (hjob i hi).1, by rw [hf.jobs]; exact (hjob i hi).2.1, ?_⟩
  intro tries ht
  rw [hf.jobs, hj] at ht
  exact absurd ht (by simp)

/-- A session begins. -/
theorem connect_inPhase {s : Service} (hm : s.main = none) (hstop : OnlyStop s.stops none)
    (hq : Quiet s.jobs) (hproxy : s.proxy.isSome = true) (profile : Profile) :
    (s.connect profile).InPhase .connecting := by
  unfold connect
  obtain ⟨out, hout⟩ := changeState_eq
    { s with closeReceiverRegistered := true, notification := some profile.formattedName }
    .connecting none
  rw [hout]
  refine ⟨rfl, hm, hstop, ⟨hproxy, rfl⟩, fun j hj => ?_⟩
  have hj' : (Function.update s.jobs s.nextJob
      { pc := .created, route := profile.route } j).pc.active = true := hj
  by_cases hn : j = s.nextJob
  · subst hn
    refine ⟨rfl, ?_, fun tries ht => ?_⟩
    · show (Function.update s.jobs s.nextJob _ s.nextJob).cancelled = false
      rw [Function.update_self]
    · have ht' : (Function.update s.jobs s.nextJob
          { pc := .created, route := profile.route } s.nextJob).pc = .sendFd tries := ht
      rw [Function.update_self] at ht'
      exact absurd ht' (by simp)
  · rw [Function.update_of_ne hn, hq j] at hj'
    exact absurd hj' (by decide)

/-- A start that fails goes straight to the clean-up, whatever it has
assigned already. -/
theorem refuse_inPhase {s : Service} (hst : s.state = .stopped) (hm : s.main = none)
    (hstop : OnlyStop s.stops none) (hq : Quiet s.jobs) (msg : Message) :
    ∃ k, (s.refuse msg).InPhase (.cleaning k) := by
  unfold refuse stopRunner
  rw [if_neg (by show s.state ≠ .stopping; rw [hst]; decide)]
  obtain ⟨out, hout⟩ := changeState_eq { s with notification := some "" } .stopping none
  rw [hout]
  have hnone : ∀ j, (s.jobs j).pc.active = true → False := fun j hj =>
    absurd hj (by rw [hq j]; decide)
  rcases launchStop_inPhase
    (s := { s with notification := some "", sent := out, state := .stopping })
    { restart := false, msg := some msg } rfl hm hstop (fun j hj => (hnone j hj).elim)
    with ⟨j, hj, _⟩ | hin
  · exact (hnone j hj).elim
  · exact ⟨_, hin⟩

/-- `onStartCommand` from any phase. -/
theorem onStartCommand_follows {s : Service} {ph : Phase} (h : s.InPhase ph)
    (decode : String → Option Nat) (expanded : Option ExpandedProfile) :
    ∃ ph', (s.onStartCommand decode expanded).InPhase ph' ∧ ph.Next ph' := by
  unfold onStartCommand
  by_cases hst : s.state = .stopped
  · rw [if_neg (by simp [hst])]
    have hph : ph = .stopped := by
      have := h.state_eq
      rw [hst] at this
      cases ph <;> simp [Phase.state] at this ⊢
    subst hph
    obtain ⟨_, hm, hstop, hq, _⟩ := h
    have hrefuse : ∀ {t : Service} (msg : Message), t.state = .stopped → t.main = none →
        OnlyStop t.stops none → Quiet t.jobs →
        ∃ ph', (t.refuse msg).InPhase ph' ∧ Phase.stopped.Next ph' := by
      intro t msg h₁ h₂ h₃ h₄
      obtain ⟨k, hin⟩ := refuse_inPhase h₁ h₂ h₃ h₄ msg
      exact ⟨_, hin, .stop k (by decide)⟩
    split
    next => exact hrefuse _ hst hm hstop hq
    next e =>
      split
      next => exact hrefuse _ hst hm hstop hq
      next proxy _ =>
        split
        next =>
          refine ⟨_, connect_inPhase ?_ ?_ ?_ ?_ e.main, .start⟩
          exacts [hm, hstop, hq, rfl]
        next fallback _ =>
          split
          next => exact hrefuse _ hst hm hstop hq
          next udp _ =>
            refine ⟨_, connect_inPhase ?_ ?_ ?_ ?_ e.main, .start⟩
            exacts [hm, hstop, hq, rfl]
  · rw [if_pos hst]
    exact ⟨ph, h, .stay ph⟩

/-- Work on a proxy object does not change which proxies there are. -/
theorem mapSlot_inPhase {s : Service} {ph : Phase} (h : s.InPhase ph)
    (f : ProxyInstance → ProxyInstance) (w : Slot) : (s.mapSlot f w).InPhase ph := by
  have hsome : (s.proxy.map f).isSome = s.proxy.isSome := Option.isSome_map
  cases w with
  | proxy =>
      cases ph with
      | stopped =>
          obtain ⟨hst, hm, hstop, hq, hrel, hp, hu⟩ := h
          exact ⟨hst, hm, hstop, hq, hrel, by rw [mapSlot, hp]; rfl, hu⟩
      | connecting =>
          obtain ⟨hst, hm, hstop, hp, hjob⟩ := h
          exact ⟨hst, hm, hstop, ⟨hsome.trans hp.1, hp.2⟩, hjob⟩
      | connected =>
          obtain ⟨hst, hm, hstop, hq, hp, hres⟩ := h
          exact ⟨hst, hm, hstop, hq, ⟨hsome.trans hp.1, hp.2⟩, hres⟩
      | joining k j => exact h
      | cleaning k => exact h
      | awaiting k =>
          obtain ⟨hst, hm, hstop, hpc, hq, hrel, hp, hu⟩ := h
          exact ⟨hst, hm, hstop, hpc, hq, hrel, by rw [mapSlot, hp]; rfl, hu⟩
  | udpFallback =>
      cases ph with
      | stopped =>
          obtain ⟨hst, hm, hstop, hq, hrel, hp, hu⟩ := h
          exact ⟨hst, hm, hstop, hq, hrel, hp, by rw [mapSlot, hu]; rfl⟩
      | connecting => exact h
      | connected => exact h
      | joining k j => exact h
      | cleaning k => exact h
      | awaiting k =>
          obtain ⟨hst, hm, hstop, hpc, hq, hrel, hp, hu⟩ := h
          exact ⟨hst, hm, hstop, hpc, hq, hrel, hp, by rw [mapSlot, hu]; rfl⟩

/-- A stop that moves within the main-thread stretch of its clean-up. -/
theorem setStop_cleaning {s : Service} {k : Nat} (h : s.InPhase (.cleaning k)) (c : Stop)
    (hc : c.pc.holdsMain = true) : (s.setStop k c).InPhase (.cleaning k) := by
  obtain ⟨hst, hm, hstop, _, hq, hrel⟩ := h
  refine ⟨hst, hm, OnlyStop.update c (Or.inr hstop), ?_, hq, hrel⟩
  rw [setStop_self]
  exact hc

/-- A child of a scope ends: no program counter moves. -/
theorem setStop_same_pc {s : Service} {ph : Phase} (h : s.InPhase ph) (k : Nat) (c : Stop)
    (hc : c.pc = (s.stops k).pc) : (s.setStop k c).InPhase ph := by
  have hpc : ∀ i, ((s.setStop k c).stops i).pc = (s.stops i).pc := by
    intro i
    by_cases hi : i = k
    · subst hi
      rw [setStop_self, hc]
    · rw [setStop_ne s c hi]
  have honly : ∀ {o : Option Nat}, OnlyStop s.stops o → OnlyStop (s.setStop k c).stops o := by
    intro o ho i hi
    exact ho i (by rw [← hpc]; exact hi)
  cases ph with
  | stopped => exact ⟨h.1, h.2.1, honly h.2.2.1, h.2.2.2⟩
  | connecting => exact ⟨h.1, h.2.1, honly h.2.2.1, h.2.2.2⟩
  | connected => exact ⟨h.1, h.2.1, honly h.2.2.1, h.2.2.2⟩
  | joining k' j => exact ⟨h.1, h.2.1, honly h.2.2.1, (hpc k').trans h.2.2.2.1, h.2.2.2.2⟩
  | cleaning k' =>
      exact ⟨h.1, h.2.1, honly h.2.2.1, by rw [hpc]; exact h.2.2.2.1, h.2.2.2.2⟩
  | awaiting k' => exact ⟨h.1, h.2.1, honly h.2.2.1, (hpc k').trans h.2.2.2.1, h.2.2.2.2⟩

/-- `shutdown` of one proxy stays within the stretch. -/
theorem shutdownProxy_inPhase {s : Service} {k : Nat} (h : s.InPhase (.cleaning k)) (w : Slot)
    (rest : List Slot) (row : Option Profile) :
    (s.shutdownProxy k w rest row).InPhase (.cleaning k) := by
  unfold shutdownProxy
  split
  next => exact setStop_cleaning h _ rfl
  next =>
    cases row with
    | none => exact setStop_cleaning (mapSlot_inPhase h _ w) _ rfl
    | some r => exact setStop_cleaning (mapSlot_inPhase h _ w) _ rfl

/-- The end of a stop: everything is down, the service is Stopped. -/
theorem endStop_inPhase {s : Service} {k : Nat} (h : s.InPhase (.awaiting k)) :
    (s.endStop k).InPhase .stopped := by
  obtain ⟨_, hm, hstop, _, hq, hrel, hp, hu⟩ := h
  have hdone : OnlyStop (Function.update s.stops k { s.stops k with pc := .done }) none := by
    intro i hi
    by_cases hik : i = k
    · rw [hik, Function.update_self] at hi
      exact absurd hi (by simp [StopPc.live])
    · rw [Function.update_of_ne hik] at hi
      exact absurd (Option.some.inj (hstop i hi)).symm hik
  unfold endStop
  obtain ⟨out, hout⟩ := changeState_eq s .stopped (s.stops k).msg
  simp only [hout]
  split <;> exact ⟨rfl, hm, hdone, hq, hrel, hp, hu⟩

/-- `forceLoad`: a start request, a stop with restart, or nothing. -/
theorem forceLoad_follows {s : Service} {ph : Phase} (h : s.InPhase ph) :
    ∃ ph', s.forceLoad.InPhase ph' ∧ ph.Next ph' := by
  unfold forceLoad
  split
  next => exact ⟨ph, by cases ph <;> exact h, .stay ph⟩
  next =>
    split
    next => exact stopRunner_follows h true none
    next => exact ⟨ph, h, .stay ph⟩

/-- `cancelAndJoin` returns: the job was the last one, the clean-up
begins. -/
theorem joined_follows {s : Service} {ph : Phase} (h : s.InPhase ph) {k j : Nat}
    (hk : (s.stops k).pc = .joining j) (hj : (s.jobs j).pc = .completed) :
    ∃ ph', (s.cleanUp k (s.stops k)).InPhase ph' ∧ ph.Next ph' := by
  obtain rfl := h.of_joining hk
  obtain ⟨hst, _, hstop, _, hjob⟩ := h
  refine ⟨_, cleanUp_inPhase _ hst (Or.inr hstop) fun i => ?_, .joined k j⟩
  by_contra hact
  rw [Bool.not_eq_false] at hact
  obtain ⟨rfl, _⟩ := hjob i hact
  rw [hj] at hact
  exact absurd hact (by decide)

/-! ## §4. Every step follows the machine. -/

/-- A resumed job goes on: only from `sendFd` to `sendFd`, or to a point
before it. -/
theorem goto_follows {s : Service} {ph : Phase} (h : s.InPhase ph) {j : Nat} {pc pc' : JobPc}
    (hj : (s.jobs j).pc = pc) (hc : (s.jobs j).cancelled = false) (hact : pc.active = true)
    (hpc : ∀ tries, pc' = .sendFd tries → ∃ t, pc = .sendFd t) :
    ∃ ph', (s.goto j pc').InPhase ph' ∧ ph.Next ph' := by
  subst hj
  obtain ⟨rfl, hok⟩ := h.of_resumes hact hc
  refine ⟨.connecting, goto_inPhase h hact fun tries ht => ?_, .stay _⟩
  obtain ⟨t, ht⟩ := hpc tries ht
  exact hok.2.2 t ht

/-- The last part of the start: all assignments, or some and an
exception. -/
theorem startUp_follows {s : Service} {ph : Phase} (h : s.InPhase ph) {j : Nat}
    (hres : s.Resumes j .startUp) (n : Nat) (message : String) :
    ∃ ph', (if startEffects.length ≤ n then (s.startUp n).goto j (.sendFd 0)
      else (s.startUp n).catchThrown j (.other message)).InPhase ph' ∧ ph.Next ph' := by
  obtain ⟨_, hj, hc⟩ := hres
  have hact : (s.jobs j).pc.active = true := by rw [hj]; rfl
  obtain ⟨rfl, _⟩ := h.of_resumes hact hc
  have hin := startUp_inPhase h hj n
  have hact' : ((s.startUp n).jobs j).pc.active = true := by
    rw [(startUp_frame s n).jobs]
    exact hact
  by_cases hn : startEffects.length ≤ n
  · rw [if_pos hn]
    exact ⟨.connecting, goto_inPhase hin hact' fun _ _ => startUp_complete s hn, .stay _⟩
  · rw [if_neg hn]
    exact catchThrown_follows hin hact' _

/-- One attempt of `sendFd`: connected, again, or failed. -/
theorem attempt_follows {s : Service} {ph : Phase} (h : s.InPhase ph) {j tries : Nat}
    (hj : (s.jobs j).pc = .sendFd tries) (hc : (s.jobs j).cancelled = false)
    (failure : Option String) : ∃ ph', (s.attempt j tries failure).InPhase ph' ∧ ph.Next ph' := by
  have hact : (s.jobs j).pc.active = true := by rw [hj]; rfl
  cases failure with
  | none =>
      obtain ⟨rfl, hok⟩ := h.of_resumes hact hc
      have hq : Quiet (Function.update s.jobs j { s.jobs j with pc := .completed }) :=
        quiet_complete (fun i hi => h.active_unique hi hact) rfl
      obtain ⟨_, hm, hstop, hproxy, _⟩ := h
      obtain ⟨out, hout⟩ := changeState_eq s .connected none
      refine ⟨.connected, ?_, .succeed⟩
      unfold attempt
      rw [hout]
      exact ⟨rfl, hm, hstop, hq, hproxy, hok.2.2 tries hj⟩
  | some message =>
      unfold attempt
      by_cases ht : 5 < tries
      · simp only [if_pos ht]
        exact catchThrown_follows h hact _
      · simp only [if_neg ht]
        exact goto_follows h hj hc rfl fun _ _ => ⟨tries, rfl⟩

/-- **Every step of the service is a step of the machine.** -/
theorem step_follows {decode : String → Option Nat} {s s' : Service} {l : Label} {ph : Phase}
    (h : s.InPhase ph) (hs : step decode s l = some s') :
    ∃ ph', s'.InPhase ph' ∧ ph.Next ph' := by
  cases l with
  | startCommand expanded =>
      obtain ⟨_, rfl⟩ := of_enabled hs
      exact onStartCommand_follows h decode expanded
  | close =>
      obtain ⟨_, rfl⟩ := of_enabled hs
      split
      next => exact stopRunner_follows h false none
      next => exact ⟨ph, h, .stay ph⟩
  | reload =>
      obtain ⟨_, rfl⟩ := of_enabled hs
      split
      next => exact forceLoad_follows h
      next => exact ⟨ph, h, .stay ph⟩
  | revoke =>
      obtain ⟨_, rfl⟩ := of_enabled hs
      exact stopRunner_follows h false none
  | fatal message =>
      obtain ⟨_, rfl⟩ := of_enabled hs
      exact stopRunner_follows h false _
  | report w stats =>
      obtain ⟨_, rfl⟩ := of_enabled hs
      exact ⟨ph, mapSlot_inPhase h _ w, .stay ph⟩
  | dispatch j =>
      obtain ⟨⟨_, hj, hc⟩, rfl⟩ := of_enabled hs
      exact goto_follows h hj hc rfl (by simp)
  | drop j =>
      obtain ⟨⟨_, hj, _⟩, rfl⟩ := of_enabled hs
      -- cancelled before it began: no handler runs, the handle stays
      exact ⟨ph, complete_inPhase h (by rw [hj]; rfl) s.connectingJob, .stay ph⟩
  | startTaken j =>
      obtain ⟨⟨hj, hc⟩, rfl⟩ := of_enabled hs
      exact goto_follows h hj hc rfl (by simp)
  | preInitDone j =>
      obtain ⟨⟨_, hj, hc⟩, rfl⟩ := of_enabled hs
      refine goto_follows h hj hc rfl fun tries ht => ?_
      split at ht <;> exact absurd ht (by simp)
  | flattened j =>
      obtain ⟨⟨_, hj, hc⟩, rfl⟩ := of_enabled hs
      exact goto_follows h hj hc rfl (by simp)
  | startUp j n message =>
      obtain ⟨⟨hr, _⟩, rfl⟩ := of_enabled hs
      exact startUp_follows h hr n message
  | sendFd j failure =>
      obtain ⟨tries, ⟨_, hj, hc⟩, rfl⟩ := of_sendFd hs
      exact attempt_follows h hj hc failure
  | throw j e =>
      obtain ⟨⟨_, hj, _⟩, rfl⟩ := of_enabled hs
      exact catchThrown_follows h hj e
  | joined k =>
      obtain ⟨j, hk, hj, rfl⟩ := of_joined hs
      exact joined_follows h hk hj
  | persistRead k row =>
      obtain ⟨w, rest, hk, rfl⟩ := of_persistRead hs
      obtain rfl := h.of_holdsMain (k := k) (by rw [hk]; rfl)
      exact ⟨_, shutdownProxy_inPhase h w rest row, .stay _⟩
  | persistWrite k =>
      obtain ⟨rest, row, hk, rfl⟩ := of_persistWrite hs
      obtain rfl := h.of_holdsMain (k := k) (by rw [hk]; rfl)
      exact ⟨_, setStop_cleaning h _ rfl, .stay _⟩
  | shutdownDone k =>
      obtain ⟨hk, rfl⟩ := of_shutdownDone hs
      obtain rfl := h.of_holdsMain (k := k) (by rw [hk]; rfl)
      obtain ⟨hst, _, hstop, _, hq, hrel⟩ := h
      refine ⟨.awaiting k, ⟨hst, rfl, OnlyStop.update _ (Or.inr hstop), ?_, hq, hrel, rfl, rfl⟩,
        .scopeEnds k⟩
      show (Function.update s.stops k _ k).pc = _
      rw [Function.update_self]
  | childDone k c =>
      obtain ⟨_, rfl⟩ := of_enabled hs
      exact ⟨ph, setStop_same_pc h k _ rfl, .stay ph⟩
  | stopped k =>
      obtain ⟨⟨_, hk, _⟩, rfl⟩ := of_enabled hs
      obtain rfl := h.of_awaiting hk
      exact ⟨_, endStop_inPhase h, .done k⟩

/-- Every reachable state is in a phase. -/
theorem exec_inPhase (decode : String → Option Nat) (ls : List Label) (s : Service)
    (h : exec (step decode) {} ls = some s) : ∃ ph, s.InPhase ph := by
  refine exec_invariant_all (I := fun s => ∃ ph, s.InPhase ph) ?_ ls {} s ⟨_, inPhase_new⟩ h
  intro s l s' hs hin
  obtain ⟨ph, hph⟩ := hin
  obtain ⟨ph', hph', _⟩ := step_follows hph hs
  exact ⟨ph', hph'⟩

/-! ## §5. What holds of every run. -/

/-- What a state of the service must satisfy. -/
structure Safe (s : Service) : Prop where
  /-- Nothing of a session is left when the service is Stopped. -/
  stopped : s.state = .stopped →
    s.processes = none ∧ s.localDns = false ∧ s.proxy = none ∧ s.udpFallback = none
      ∧ s.notification = none ∧ s.closeReceiverRegistered = false
      ∧ ∀ j, (s.jobs j).pc.active = false
  /-- A connected session has its proxy, its pool and its DNS worker. -/
  connected : s.state = .connected →
    s.proxy.isSome = true ∧ s.processes.isSome = true ∧ s.localDns = true
  /-- The clean-up runs in one coroutine at a time. -/
  oneCleanUp : ∀ k k', (s.stops k).pc.cleaning = true → (s.stops k').pc.cleaning = true → k = k'
  /-- The clean-up does not begin before the connecting job is over. -/
  cleanUpAfterJob : ∀ k, (s.stops k).pc.cleaning = true → ∀ j, (s.jobs j).pc.active = false

theorem cleaning_live {pc : StopPc} (h : pc.cleaning = true) : pc.live = true := by
  cases pc <;> first | rfl | exact absurd h (by decide)

theorem InPhase.safe {s : Service} {ph : Phase} (h : s.InPhase ph) : s.Safe where
  stopped hst := by
    cases ph with
    | stopped =>
        obtain ⟨_, _, _, hq, ⟨hpr, hdns, hnot, hrec, _⟩, hp, hu⟩ := h
        exact ⟨hpr, hdns, hp, hu, hnot, hrec, hq⟩
    | connecting => exact absurd (hst.symm.trans h.1) (by decide)
    | connected => exact absurd (hst.symm.trans h.1) (by decide)
    | joining k j => exact absurd (hst.symm.trans h.1) (by decide)
    | cleaning k => exact absurd (hst.symm.trans h.1) (by decide)
    | awaiting k => exact absurd (hst.symm.trans h.1) (by decide)
  connected hst := by
    cases ph with
    | connected => exact ⟨h.2.2.2.2.1.1, h.2.2.2.2.2⟩
    | stopped => exact absurd (hst.symm.trans h.1) (by decide)
    | connecting => exact absurd (hst.symm.trans h.1) (by decide)
    | joining k j => exact absurd (hst.symm.trans h.1) (by decide)
    | cleaning k => exact absurd (hst.symm.trans h.1) (by decide)
    | awaiting k => exact absurd (hst.symm.trans h.1) (by decide)
  oneCleanUp k k' hk hk' := by
    rcases h.of_live (cleaning_live hk) with ⟨j, rfl, _⟩ | ⟨rfl, _⟩ | ⟨rfl, _⟩
    all_goals exact Option.some.inj (h.2.2.1 k' (cleaning_live hk'))
  cleanUpAfterJob k hk := by
    rcases h.of_live (cleaning_live hk) with ⟨j, _, hpc⟩ | ⟨rfl, _⟩ | ⟨rfl, _⟩
    · exact absurd hk (by rw [hpc]; exact Bool.false_ne_true)
    · exact h.2.2.2.2.1
    · exact h.2.2.2.2.1

/-- **Every run of the service is safe**, and every step from a reachable
state moves the state along the allowed edges only. -/
theorem service_run_safe (decode : String → Option Nat) (ls : List Label) (s : Service)
    (hrun : exec (step decode) {} ls = some s) :
    s.Safe ∧ ∀ l s', step decode s l = some s' → s.state.Moves s'.state := by
  obtain ⟨ph, hph⟩ := exec_inPhase decode ls s hrun
  refine ⟨hph.safe, fun l s' hs => ?_⟩
  obtain ⟨ph', hph', hnext⟩ := step_follows hph hs
  rw [hph.state_eq, hph'.state_eq]
  exact hnext.moves

/-- A session of the default profile that connects and is then closed, up to
the first wait of its clean-up. -/
def oneSession : List Label :=
  [.startCommand (some ⟨{}, none⟩), .dispatch 0, .startTaken 0, .preInitDone 0,
    .startUp 0 10 "", .sendFd 0 (some "not yet"), .sendFd 0 none, .close,
    .persistRead 0 none, .shutdownDone 0]

/-- Such a session is a run, and safe. -/
theorem service_run_safe_oneSession :
    ∃ s, exec (step fun _ => none) {} oneSession = some s ∧ s.state = .stopping ∧ s.Safe := by
  obtain ⟨s, hrun, htest⟩ := exists_of_exec_test (step fun _ => none) {} oneSession
    (fun s => s.state = .stopping) (by decide)
  exact ⟨s, hrun, of_decide_eq_true htest, (service_run_safe _ oneSession s hrun).1⟩

end Service

end FoxVpn.Bg
