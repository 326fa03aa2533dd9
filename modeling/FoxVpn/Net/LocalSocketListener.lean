/-
  FoxVpn.Net.LocalSocketListener
  ──────────────────────────────
  **SOCKETS IN FLIGHT WHEN A LISTENER IS SHUT DOWN.**

  A `ConcurrentLocalSocketListener` accepts sockets on its own thread and
  launches one coroutine per socket; the coroutine's body is
  `socket.use { … }`, which closes the socket however it ends.  `shutdown`
  clears `running`, cancels the scope, shuts the server socket down and
  launches two joins: for the end of the thread, and for the scope's job.

      thread      loop · accept · acceptFails · launch
      coroutine   dispatch · complete
      shutdown    stop · cancel · shutdownSocket · receive · join

  A coroutine that is launched in a cancelled scope, or dispatched after the
  cancellation, never enters its body, AND NOBODY ELSE CLOSES ITS SOCKET.

  Main result `closed_iff`: when both joins have completed, every accepted
  socket has been closed exactly once if and only if every launch and every
  dispatch was made before the cancellation.
-/
import Mathlib.Logic.Function.Basic
import FoxVpn.Lib.Run

namespace FoxVpn.Net

open FoxVpn.Lib

/-! ## §1. The listener. -/

/-- Where the thread is. -/
inductive ListenerThread where
  /-- At the condition of the loop. -/
  | loop
  /-- In `serverSocket.accept()`. -/
  | accepting
  /-- `accept()` has returned this socket. -/
  | accepted (socket : Nat)
  /-- The loop has ended, and `closeChannel` has been sent to. -/
  | ended
  deriving Repr, DecidableEq

/-- The coroutine of a socket. -/
inductive SocketJob where
  | launched
  /-- In its body. -/
  | running
  | completed
  /-- Cancelled before its body began. -/
  | skipped
  deriving Repr, DecidableEq

/-- A `ConcurrentLocalSocketListener`; sockets are numbered as they are
accepted. -/
structure ConcurrentLocalSocketListener where
  running : Bool := true
  /-- The scope has been cancelled. -/
  cancelled : Bool := false
  /-- The server socket has been shut down, and the joins are launched. -/
  socketShutDown : Bool := false
  thread : ListenerThread := .loop
  accepted : Nat := 0
  /-- `none` as long as nothing has been launched for the socket. -/
  jobs : Nat → Option SocketJob := fun _ => none
  /-- How often each socket has been closed. -/
  closes : Nat → Nat := fun _ => 0
  /-- `closeChannel.receive()` has returned. -/
  received : Bool := false
  /-- `job.join()` has returned. -/
  joined : Bool := false

namespace ConcurrentLocalSocketListener

inductive Label where
  | loop
  | accept
  | acceptFails
  | launch
  | dispatch (socket : Nat)
  | complete (socket : Nat)
  | stop
  | cancel
  | shutdownSocket
  | receive
  | join
  deriving Repr, DecidableEq

def setJob (s : ConcurrentLocalSocketListener) (socket : Nat) (job : SocketJob) :
    ConcurrentLocalSocketListener :=
  { s with jobs := Function.update s.jobs socket (some job) }

/-- No child of the scope's job is active. -/
def childrenDone (s : ConcurrentLocalSocketListener) : Bool :=
  (List.range s.accepted).all fun k => s.jobs k ≠ some .launched && s.jobs k ≠ some .running

def step (s : ConcurrentLocalSocketListener) : Label → Option ConcurrentLocalSocketListener
  | .loop =>
      if s.thread = .loop then
        some { s with thread := if s.running then .accepting else .ended }
      else none
  | .accept =>
      if s.thread = .accepting ∧ s.socketShutDown = false then
        some { s with thread := .accepted s.accepted, accepted := s.accepted + 1 }
      else none
  | .acceptFails =>
      if s.thread = .accepting then some { s with thread := .loop } else none
  | .launch =>
      match s.thread with
      | .accepted socket =>
          -- in a cancelled scope the coroutine is complete from the start
          some { s.setJob socket (if s.cancelled then .skipped else .launched) with
            thread := .loop }
      | _ => none
  | .dispatch socket =>
      if s.jobs socket = some .launched then
        some (s.setJob socket (if s.cancelled then .skipped else .running))
      else none
  | .complete socket =>
      -- the end of `use`, whether the body returned, threw or was cancelled
      if s.jobs socket = some .running then
        some { s.setJob socket .completed with
          closes := Function.update s.closes socket (s.closes socket + 1) }
      else none
  | .stop => if s.running then some { s with running := false } else none
  | .cancel =>
      if s.running = false ∧ s.cancelled = false then some { s with cancelled := true } else none
  | .shutdownSocket =>
      if s.cancelled ∧ s.socketShutDown = false then some { s with socketShutDown := true }
      else none
  | .receive =>
      if s.socketShutDown ∧ s.thread = .ended then some { s with received := true } else none
  | .join =>
      if s.socketShutDown ∧ s.childrenDone then some { s with joined := true } else none

/-- Nothing is launched or dispatched after the cancellation. -/
def InTime (s : ConcurrentLocalSocketListener) : Label → Prop
  | .launch | .dispatch _ => s.cancelled = false
  | _ => True

instance (s : ConcurrentLocalSocketListener) (l : Label) : Decidable (s.InTime l) := by
  cases l <;> unfold InTime <;> infer_instance

/-! ## §2. The invariant. -/

/-- How often a socket has been closed, by the state of its coroutine. -/
def closesOf : Option SocketJob → Nat
  | some .completed => 1
  | _ => 0

structure Inv (s : ConcurrentLocalSocketListener) : Prop where
  /-- `use` closes the socket once, nothing else does. -/
  closes : ∀ k, s.closes k = closesOf (s.jobs k)
  /-- A socket without a coroutine is in the hands of the thread. -/
  held : ∀ k < s.accepted, s.jobs k = none → s.thread = .accepted k
  thread : ∀ k, s.thread = .accepted k → k < s.accepted ∧ s.jobs k = none
  fresh : ∀ k, s.accepted ≤ k → s.jobs k = none
  received : s.received = true → s.thread = .ended
  shutDown : s.socketShutDown = true → s.cancelled = true
  joined : s.joined = true → s.cancelled = true
    ∧ ∀ k, s.jobs k ≠ some .launched ∧ s.jobs k ≠ some .running

theorem inv_new : Inv {} where
  closes _ := rfl
  held _ hk _ := absurd hk (Nat.not_lt_zero _)
  thread _ h := by cases h
  fresh _ _ := rfl
  received h := by cases h
  shutDown h := by cases h
  joined h := by cases h

theorem Inv.childrenDone {s : ConcurrentLocalSocketListener} (h : s.Inv)
    (hdone : s.childrenDone = true) :
    ∀ k, s.jobs k ≠ some .launched ∧ s.jobs k ≠ some .running := by
  intro k
  by_cases hk : k < s.accepted
  · have hall := List.all_eq_true.mp hdone k (List.mem_range.mpr hk)
    simpa using hall
  · rw [h.fresh k (Nat.le_of_not_lt hk)]
    simp

/-- A coroutine that is not completed leaves the socket as it is. -/
theorem Inv.closes_eq {s : ConcurrentLocalSocketListener} (h : s.Inv) {socket : Nat}
    {job : SocketJob} (hjob : closesOf (some job) = closesOf (s.jobs socket)) (k : Nat) :
    s.closes k = if k = socket then closesOf (some job) else s.closes k := by
  split
  next he => rw [he, h.closes socket, hjob]
  next => rfl

/-- The thread moves on with no socket in its hands. -/
theorem Inv.move {s : ConcurrentLocalSocketListener} (h : s.Inv) {t : ListenerThread}
    (hfree : ∀ k, s.thread ≠ .accepted k) (hopen : s.thread ≠ .ended)
    (ht : ∀ k, t ≠ .accepted k) : Inv { s with thread := t } :=
  { h with
    held := fun k hk hnone => absurd (h.held k hk hnone) (hfree k)
    thread := fun k hk => absurd hk (ht k)
    received := fun hr => absurd (h.received hr) hopen }

/-- A coroutine changes its state, and the thread its place: a socket that
still has no coroutine stays in the hands of the thread. -/
theorem Inv.setJob {s : ConcurrentLocalSocketListener} (h : s.Inv) {socket : Nat}
    {job : SocketJob} (closes : Nat → Nat) (thread : ListenerThread) (hlt : socket < s.accepted)
    (hcloses : ∀ k, closes k = if k = socket then closesOf (some job) else s.closes k)
    (hjoined : s.cancelled = true → job ≠ .launched ∧ job ≠ .running)
    (hheld : ∀ k, k ≠ socket → s.thread = .accepted k → thread = .accepted k)
    (hthread : ∀ k, thread = .accepted k → k ≠ socket ∧ s.thread = .accepted k)
    (hreceived : s.thread = .ended → thread = .ended) :
    Inv { s.setJob socket job with closes := closes, thread := thread } where
  closes k := by
    show closes k = closesOf (Function.update s.jobs socket (some job) k)
    rw [hcloses k, Function.update_apply]
    split
    next => rfl
    next => exact h.closes k
  held k hk hnone := by
    have hnone' : Function.update s.jobs socket (some job) k = none := hnone
    rw [Function.update_apply] at hnone'
    split at hnone'
    next => exact absurd hnone' (by simp)
    next hne => exact hheld k hne (h.held k hk hnone')
  thread k hk := by
    obtain ⟨hne, hk'⟩ := hthread k hk
    refine ⟨(h.thread k hk').1, ?_⟩
    show Function.update s.jobs socket (some job) k = none
    rw [Function.update_of_ne hne]
    exact (h.thread k hk').2
  fresh k hk := by
    have hne : k ≠ socket := fun he => absurd hlt (Nat.not_lt.mpr (he ▸ hk))
    show Function.update s.jobs socket (some job) k = none
    rw [Function.update_of_ne hne]
    exact h.fresh k hk
  received hr := hreceived (h.received hr)
  shutDown := h.shutDown
  joined hj := by
    obtain ⟨hcancelled, hdone⟩ := h.joined hj
    refine ⟨hcancelled, fun k => ?_⟩
    show Function.update s.jobs socket (some job) k ≠ _
      ∧ Function.update s.jobs socket (some job) k ≠ _
    rw [Function.update_apply]
    split
    next => simpa using hjoined hcancelled
    next => exact hdone k

/-- A coroutine that exists moves on by itself. -/
theorem Inv.advance {s : ConcurrentLocalSocketListener} (h : s.Inv) {socket : Nat}
    {job : SocketJob} (closes : Nat → Nat) (hjob : s.jobs socket ≠ none)
    (hcloses : ∀ k, closes k = if k = socket then closesOf (some job) else s.closes k)
    (hjoined : s.cancelled = true → job ≠ .launched ∧ job ≠ .running) :
    Inv { s.setJob socket job with closes := closes } := by
  have hlt : socket < s.accepted := by
    by_contra hge
    exact hjob (h.fresh socket (Nat.le_of_not_lt hge))
  refine h.setJob closes s.thread hlt hcloses hjoined (fun k _ hk => hk) (fun k hk => ?_) id
  exact ⟨fun he => hjob (he ▸ (h.thread k hk).2), hk⟩

/-! ## §3. One step. -/

theorem launch_spec {s s' : ConcurrentLocalSocketListener} (hs : step s .launch = some s') :
    ∃ socket, s.thread = .accepted socket
      ∧ s' = { s.setJob socket (if s.cancelled then .skipped else .launched) with
          thread := .loop } := by
  simp only [step] at hs
  split at hs
  next socket hthread => exact ⟨socket, hthread, (Option.some.inj hs).symm⟩
  next => exact absurd hs (by simp)

/-- **Every step keeps the invariant.** -/
theorem inv_step {s s' : ConcurrentLocalSocketListener} {l : Label} (h : s.Inv)
    (hs : step s l = some s') : s'.Inv := by
  cases l with
  | loop =>
      obtain ⟨hthread, rfl⟩ := of_enabled hs
      -- to `accepting`, or out of the loop
      refine h.move (by simp [hthread]) (by simp [hthread]) fun k => ?_
      split <;> simp
  | accept =>
      obtain ⟨⟨hthread, hopen⟩, rfl⟩ := of_enabled hs
      exact { h with
        held := fun k hk hnone => by
          -- the sockets before this one all have their coroutine
          rcases Nat.lt_succ_iff_lt_or_eq.mp hk with hlt | rfl
          · have hk' := h.held k hlt hnone
            rw [hthread] at hk'
            cases hk'
          · rfl
        thread := fun k hk => by
          injection hk with hk
          subst hk
          exact ⟨Nat.lt_succ_self _, h.fresh _ (Nat.le_refl _)⟩
        fresh := fun k hk => h.fresh k (Nat.le_of_succ_le hk)
        received := fun hr => by
          have hended := h.received hr
          rw [hthread] at hended
          cases hended }
  | acceptFails =>
      obtain ⟨hthread, rfl⟩ := of_enabled hs
      exact h.move (by simp [hthread]) (by simp [hthread]) (by simp)
  | launch =>
      obtain ⟨socket, hthread, rfl⟩ := launch_spec hs
      obtain ⟨hlt, hjob⟩ := h.thread socket hthread
      refine h.setJob s.closes .loop hlt (h.closes_eq ?_) (fun hc => ?_) (fun k hne hk => ?_)
        (fun k hk => ?_) (fun hended => ?_)
      · rw [hjob]
        split <;> rfl
      · simp [hc]
      · -- the thread held one socket only
        rw [hthread] at hk
        injection hk with he
        exact absurd he.symm hne
      · cases hk
      · rw [hthread] at hended
        cases hended
  | dispatch socket =>
      obtain ⟨hjob, rfl⟩ := of_enabled hs
      refine h.advance s.closes (by simp [hjob]) (h.closes_eq ?_) fun hc => ?_
      · rw [hjob]
        split <;> rfl
      · simp [hc]
  | complete socket =>
      obtain ⟨hjob, rfl⟩ := of_enabled hs
      refine h.advance _ (by simp [hjob]) (fun k => ?_) (by simp)
      rw [Function.update_apply, h.closes socket, hjob]
      rfl
  | stop =>
      obtain ⟨_, rfl⟩ := of_enabled hs
      exact { h with }
  | cancel =>
      obtain ⟨_, rfl⟩ := of_enabled hs
      exact { h with
        shutDown := fun _ => rfl
        joined := fun hj => ⟨rfl, (h.joined hj).2⟩ }
  | shutdownSocket =>
      obtain ⟨⟨hcancelled, _⟩, rfl⟩ := of_enabled hs
      exact { h with shutDown := fun _ => hcancelled }
  | receive =>
      obtain ⟨⟨_, hended⟩, rfl⟩ := of_enabled hs
      exact { h with received := fun _ => hended }
  | join =>
      obtain ⟨⟨hshut, hdone⟩, rfl⟩ := of_enabled hs
      exact { h with joined := fun _ => ⟨h.shutDown hshut, h.childrenDone hdone⟩ }

/-- No coroutine has been cancelled before its body began. -/
def NoneSkipped (s : ConcurrentLocalSocketListener) : Prop :=
  ∀ k, s.jobs k ≠ some .skipped

/-- One coroutine moves on, and was not skipped before. -/
theorem noneSkipped_setJob {s : ConcurrentLocalSocketListener} {socket : Nat} {job : SocketJob}
    (hjob : s.jobs socket ≠ some .skipped) :
    (s.setJob socket job).NoneSkipped ↔ s.NoneSkipped ∧ job ≠ .skipped := by
  constructor
  · intro hn
    refine ⟨fun k => ?_, fun he => hn socket ?_⟩
    · by_cases hk : k = socket
      · rw [hk]
        exact hjob
      · have hnk := hn k
        simpa [setJob, Function.update_of_ne hk] using hnk
    · simp [setJob, he]
  · rintro ⟨hn, hne⟩ k
    show Function.update s.jobs socket (some job) k ≠ _
    rw [Function.update_apply]
    split
    next => simpa using hne
    next => exact hn k

/-- **One step skips a coroutine exactly if it comes after the
cancellation**, and a skipped coroutine stays skipped. -/
theorem noneSkipped_step {s s' : ConcurrentLocalSocketListener} {l : Label} (h : s.Inv)
    (hs : step s l = some s') : s'.NoneSkipped ↔ s.NoneSkipped ∧ s.InTime l := by
  -- the steps that change no coroutine
  have hkeep : s'.jobs = s.jobs → s.InTime l → (s'.NoneSkipped ↔ s.NoneSkipped ∧ s.InTime l) := by
    intro hjobs hin
    unfold NoneSkipped
    rw [hjobs]
    exact (and_iff_left hin).symm
  cases l with
  | launch =>
      obtain ⟨socket, hthread, rfl⟩ := launch_spec hs
      have hjob : s.jobs socket ≠ some .skipped := by simp [(h.thread socket hthread).2]
      refine (noneSkipped_setJob hjob).trans (and_congr_right fun _ => ?_)
      show _ ↔ s.cancelled = false
      cases s.cancelled <;> simp
  | dispatch socket =>
      obtain ⟨hjob, rfl⟩ := of_enabled hs
      refine (noneSkipped_setJob (by simp [hjob])).trans (and_congr_right fun _ => ?_)
      show _ ↔ s.cancelled = false
      cases s.cancelled <;> simp
  | complete socket =>
      obtain ⟨hjob, rfl⟩ := of_enabled hs
      refine (noneSkipped_setJob (by simp [hjob])).trans (and_congr_right fun _ => ?_)
      exact iff_of_true (by simp) trivial
  | _ =>
      obtain ⟨_, rfl⟩ := of_enabled hs
      exact hkeep rfl trivial

/-! ## §4. When both joins have completed. -/

/-- Both coroutines that `shutdown` launches have completed. -/
def Joined (s : ConcurrentLocalSocketListener) : Prop := s.received = true ∧ s.joined = true

/-- By then a socket is closed once or skipped. -/
theorem Inv.closed_iff_noneSkipped {s : ConcurrentLocalSocketListener} (h : s.Inv)
    (hj : s.Joined) : (∀ k < s.accepted, s.closes k = 1) ↔ s.NoneSkipped := by
  constructor
  · intro hclosed k hk
    have hlt : k < s.accepted := by
      by_contra hge
      rw [h.fresh k (Nat.le_of_not_lt hge)] at hk
      cases hk
    have hone := hclosed k hlt
    rw [h.closes k, hk] at hone
    exact absurd hone (by decide)
  · intro hnone k hlt
    -- the job has joined, so no coroutine is launched or running
    obtain ⟨hlaunched, hrunning⟩ := (h.joined hj.2).2 k
    rw [h.closes k]
    cases hjob : s.jobs k with
    | none =>
        -- the thread has ended, so it holds no socket
        have hheld := h.held k hlt hjob
        rw [h.received hj.1] at hheld
        cases hheld
    | some job =>
        cases job with
        | launched => exact absurd hjob hlaunched
        | running => exact absurd hjob hrunning
        | completed => rfl
        | skipped => exact absurd hjob (hnone k)

/-- **When every accepted socket is closed exactly once**: exactly in the
runs in which no coroutine is launched or dispatched after the scope was
cancelled. -/
theorem closed_iff (ls : List Label) (s : ConcurrentLocalSocketListener)
    (hrun : exec step {} ls = some s) (hj : s.Joined) :
    (∀ k < s.accepted, s.closes k = 1) ↔ Meets step InTime {} ls := by
  have hinv : s.Inv := exec_invariant_all (fun _ _ _ hs h => inv_step h hs) ls {} s inv_new hrun
  have hverdict := exec_iff_meets (N := fun _ => True) (fun _ _ _ h hs => inv_step h hs)
    (fun _ _ _ _ _ _ => trivial) (fun _ _ _ h hs _ => noneSkipped_step h hs)
    ls {} s inv_new hrun trivial
  rw [hinv.closed_iff_noneSkipped hj, hverdict.2]
  exact and_iff_right fun _ => by simp

/-- A socket is served while `shutdown` is under way. -/
def servedRun : List Label :=
  [.loop, .accept, .launch, .dispatch 0, .loop, .stop, .cancel, .shutdownSocket,
    .acceptFails, .loop, .receive, .complete 0, .join]

theorem closed_servedRun : ∃ s, exec step {} servedRun = some s ∧ s.Joined
    ∧ s.accepted = 1 ∧ ∀ k < s.accepted, s.closes k = 1 := by
  obtain ⟨s, hrun, htest⟩ := exists_of_exec_test step {} servedRun
    (fun s => s.received && s.joined && s.accepted == 1) (by decide)
  simp only [Bool.and_eq_true, beq_iff_eq] at htest
  exact ⟨s, hrun, htest.1, htest.2, (closed_iff servedRun s hrun htest.1).mpr (by decide)⟩

/-- Two sockets: one is dispatched, the other launched, after the
cancellation. -/
def lateRun : List Label :=
  [.loop, .accept, .launch, .loop, .accept, .stop, .cancel, .dispatch 0, .launch,
    .shutdownSocket, .loop, .receive, .join]

/-- **Neither of them is ever closed.** -/
theorem late_never_closed : ∃ s, exec step {} lateRun = some s ∧ s.Joined
    ∧ s.accepted = 2 ∧ s.closes 0 = 0 ∧ s.closes 1 = 0 := by
  obtain ⟨s, hrun, htest⟩ := exists_of_exec_test step {} lateRun
    (fun s => s.received && s.joined && s.accepted == 2 && s.closes 0 == 0 && s.closes 1 == 0)
    (by decide)
  simp only [Bool.and_eq_true, beq_iff_eq] at htest
  obtain ⟨⟨⟨hj, hacc⟩, h0⟩, h1⟩ := htest
  exact ⟨s, hrun, hj, hacc, h0, h1⟩

end ConcurrentLocalSocketListener

end FoxVpn.Net
