/-
  FoxVpn.App.HotLaunch
  ────────────────────
  **HOW LONG THE APP WAS BEHIND BEFORE IT IS LAUNCHED HOT.**

  `VpnApp` counts the time the app spends behind other apps.  When the last
  activity stops, a coroutine on an IO thread adds one to `foxBehindTime` for
  each `delay(30)`; when an activity starts, the main thread cancels it, shows
  the start screen again if the count has reached 100, and sets the count to
  zero.  From 100 on the coroutine also finishes the ad activities.

  The two threads share the count without a lock, and `cancel` does not stop
  a coroutine that runs: it ends at its next `delay`.  So `foxBehindTime += 1`
  of a cancelled coroutine can land AFTER the reset, with the value it read
  before, and the count of the last stay behind survives into the next one.

  Main result `hot_launch_after_pause`: if no coroutine is between the end of
  its `delay` and its write when the count is reset, then a hot launch, and
  every finished ad, comes at least three seconds after the app went behind:
  however often activities start and stop, and with however many coroutines
  that are cancelled and still running.  `tornReset` shows that the condition
  is needed.
-/
import FoxVpn.Lib.Run
import Mathlib.Tactic.Common

namespace FoxVpn.App.HotLaunch

open FoxVpn.Lib

/-! ## §1. The main thread and the coroutines. -/

/-- Where a coroutine stands in its loop. -/
inductive Pc where
  /-- Launched, and not yet dispatched. -/
  | launched
  /-- At `while (foxForegroundList.isEmpty())`. -/
  | looping
  /-- In `delay(30)`, which ends at the given time. -/
  | delaying (deadline : Nat)
  /-- The delay is over. -/
  | woken
  /-- `foxBehindTime += 1` has read the count. -/
  | adding (read : Nat)
  /-- It has written it. -/
  | added
  | ended
  deriving Repr, DecidableEq

structure Job where
  pc : Pc := .launched
  cancelled : Bool := false
  deriving Repr, DecidableEq

/-- The fields of `VpnApp`'s companion, the coroutines launched so far, and
what an observer has seen. -/
structure VpnApp where
  foxBehindTime : Nat := 0
  /-- The coroutine that `foxBehindJob` refers to, by its place in `jobs`. -/
  foxBehindJob : Option Nat := none
  foxForegroundList : List String := []
  foxAdList : List Nat := []
  jobs : List Job := []
  /-- The main thread is before the last line of `onActivityStarted`. -/
  resetting : Bool := false
  /-- The time in milliseconds. -/
  now : Nat := 0
  /-- When the last activity was stopped. -/
  behindSince : Nat := 0
  hotLaunches : Nat := 0
  /-- The ad activities that a coroutine has finished. -/
  finished : List Nat := []
  deriving Repr, DecidableEq

namespace VpnApp

/-- The coroutine `j` goes on to `pc`. -/
def move (a : VpnApp) (j : Nat) (pc : Pc) : VpnApp :=
  { a with jobs := a.jobs.modify j fun job => { job with pc := pc } }

/-- `foxBehindJob?.cancel()`. -/
def cancel (a : VpnApp) : VpnApp :=
  { a with
    jobs := match a.foxBehindJob with
      | none => a.jobs
      | some j => a.jobs.modify j fun job => { job with cancelled := true } }

/-- `onActivityStarted` up to the hot launch. -/
def onActivityStarted (a : VpnApp) (localClassName : String) : VpnApp :=
  let list := a.foxForegroundList ++ [localClassName]
  let hot := decide (a.foxBehindTime ≥ 100) && list.length == 1
  { a.cancel with
    foxForegroundList := list, resetting := true
    hotLaunches := if hot then a.hotLaunches + 1 else a.hotLaunches }

def onActivityStopped (a : VpnApp) (localClassName : String) : VpnApp :=
  let list :=
    if a.foxForegroundList.contains localClassName then
      a.foxForegroundList.erase localClassName
    else a.foxForegroundList
  if list.isEmpty then
    { a.cancel with
      foxForegroundList := list
      -- the new coroutine is the last one of the list
      foxBehindJob := some a.jobs.length
      jobs := a.cancel.jobs ++ [{}]
      behindSince := if a.foxForegroundList.isEmpty then a.behindSince else a.now }
  else { a with foxForegroundList := list }

end VpnApp

inductive Label where
  /-- The lifecycle callbacks, on the main thread; the first and the last for
  an `AdActivity`. -/
  | onActivityCreated (activity : Nat)
  | onActivityStarted (localClassName : String)
  /-- `foxBehindTime = 0`. -/
  | resetTime
  | onActivityStopped (localClassName : String)
  | onActivityDestroyed (activity : Nat)
  /-- The dispatcher runs the coroutine for the first time. -/
  | dispatch (j : Nat)
  | testEmpty (j : Nat)
  | wake (j : Nat)
  | readTime (j : Nat)
  | writeTime (j : Nat)
  /-- `when(foxBehindTime >= 100)` in the loop. -/
  | testTime (j : Nat)
  /-- A cancelled coroutine is dropped before it runs, or thrown out of its
  `delay`. -/
  | abort (j : Nat)
  | pass (milliseconds : Nat)
  deriving Repr, DecidableEq

def step (a : VpnApp) : Label → Option VpnApp
  | .onActivityCreated activity =>
      if a.resetting = false then some { a with foxAdList := a.foxAdList ++ [activity] } else none
  | .onActivityStarted name =>
      if a.resetting = false then some (a.onActivityStarted name) else none
  | .resetTime =>
      if a.resetting = true then some { a with foxBehindTime := 0, resetting := false } else none
  | .onActivityStopped name =>
      if a.resetting = false then some (a.onActivityStopped name) else none
  | .onActivityDestroyed activity =>
      if a.resetting = false then
        some { a with foxAdList := a.foxAdList.erase activity }
      else none
  | .dispatch j =>
      if a.jobs[j]? = some ⟨.launched, false⟩ then some (a.move j .looping) else none
  | .testEmpty j =>
      if a.jobs[j]?.map Job.pc = some .looping then
        some (a.move j (if a.foxForegroundList.isEmpty then .delaying (a.now + 30) else .ended))
      else none
  | .wake j =>
      match a.jobs[j]? with
      -- a coroutine that was cancelled while it waited does not come back
      | some ⟨.delaying deadline, false⟩ =>
          if deadline ≤ a.now then some (a.move j .woken) else none
      | _ => none
  | .readTime j =>
      if a.jobs[j]?.map Job.pc = some .woken then
        some (a.move j (.adding a.foxBehindTime))
      else none
  | .writeTime j =>
      match a.jobs[j]?.map Job.pc with
      | some (.adding read) => some { a.move j .added with foxBehindTime := read + 1 }
      | _ => none
  | .testTime j =>
      if a.jobs[j]?.map Job.pc = some .added then
        some { a.move j .looping with
          finished := if a.foxBehindTime ≥ 100 then a.finished ++ a.foxAdList else a.finished }
      else none
  | .abort j =>
      match a.jobs[j]? with
      | some ⟨.launched, true⟩ | some ⟨.delaying _, true⟩ => some (a.move j .ended)
      | _ => none
  | .pass milliseconds => some { a with now := a.now + milliseconds }

/-! ## §2. Coroutines in flight. -/

/-- Between the end of a `delay` and the write. -/
def Pc.inFlight : Pc → Bool
  | .woken | .adding _ => true
  | _ => false

/-- The number of coroutines that will still write the count, whatever
happens. -/
def VpnApp.inFlight (a : VpnApp) : Nat := a.jobs.countP (·.pc.inFlight)

/-- **The condition**: no coroutine is in flight when the count is reset. -/
def Settled (a : VpnApp) (l : Label) : Prop := l = .resetTime → a.inFlight = 0

instance (a : VpnApp) (l : Label) : Decidable (Settled a l) :=
  inferInstanceAs (Decidable (_ → _))

/-- Changing one coroutine changes the count by that one. -/
theorem countP_modify {α : Type} (p : α → Bool) (f : α → α) {x : α} :
    ∀ {l : List α} {j : Nat}, l[j]? = some x →
      (l.modify j f).countP p + (p x).toNat = l.countP p + (p (f x)).toNat := by
  intro l
  induction l with
  | nil => intro j h; simp at h
  | cons y l ih =>
      intro j h
      cases j with
      | zero =>
          obtain rfl : y = x := by simpa using h
          rw [List.modify_zero_cons, List.countP_cons, List.countP_cons]
          cases p y <;> cases p (f y) <;> simp
      | succ j =>
          have hrest := ih (j := j) (by simpa using h)
          rw [List.modify_succ_cons, List.countP_cons, List.countP_cons]
          omega

theorem jobs_move_of {a : VpnApp} {i j : Nat} {pc : Pc} {job : Job}
    (h : (a.move j pc).jobs[i]? = some job) :
    a.jobs[i]? = some job ∧ i ≠ j
      ∨ i = j ∧ job.pc = pc ∧ ∃ before, a.jobs[j]? = some before
        ∧ before.cancelled = job.cancelled := by
  unfold VpnApp.move at h
  rw [List.getElem?_modify] at h
  obtain ⟨before, hbefore, hjob⟩ := Option.map_eq_some_iff.mp h
  by_cases hij : j = i
  · subst hij
    rw [if_pos rfl] at hjob
    subst hjob
    exact .inr ⟨rfl, rfl, before, hbefore, rfl⟩
  · rw [if_neg hij] at hjob
    subst hjob
    exact .inl ⟨hbefore, fun h => hij h.symm⟩

/-- A move changes the coroutines in flight by the one that moves. -/
theorem inFlight_move {a : VpnApp} {j : Nat} {job : Job} (pc : Pc) (h : a.jobs[j]? = some job) :
    (a.move j pc).inFlight + job.pc.inFlight.toNat = a.inFlight + pc.inFlight.toNat :=
  countP_modify (fun job : Job => job.pc.inFlight) (fun job => { job with pc := pc }) h

theorem inFlight_pos {a : VpnApp} {j : Nat} {job : Job} (h : a.jobs[j]? = some job)
    (hfly : job.pc.inFlight = true) : 0 < a.inFlight :=
  List.countP_pos_iff.mpr ⟨job, List.mem_of_getElem? h, hfly⟩

/-- Cancelling cancels the coroutine `foxBehindJob` refers to, and moves
none. -/
theorem jobs_cancel_of {a : VpnApp} {i : Nat} {job : Job} (h : a.cancel.jobs[i]? = some job) :
    ∃ before, a.jobs[i]? = some before ∧ before.pc = job.pc
      ∧ (job.cancelled = false → before.cancelled = false ∧ a.foxBehindJob ≠ some i) := by
  unfold VpnApp.cancel at h
  cases hj : a.foxBehindJob with
  | none =>
      rw [hj] at h
      exact ⟨job, h, rfl, fun hc => ⟨hc, by simp⟩⟩
  | some j =>
      rw [hj] at h
      simp only [List.getElem?_modify] at h
      obtain ⟨before, hbefore, hjob⟩ := Option.map_eq_some_iff.mp h
      refine ⟨before, hbefore, ?_⟩
      by_cases hij : j = i
      · rw [if_pos hij] at hjob
        subst hjob
        exact ⟨rfl, fun hc => absurd hc (by simp)⟩
      · rw [if_neg hij] at hjob
        subst hjob
        exact ⟨rfl, fun hc => ⟨hc, fun h => hij (Option.some.inj h)⟩⟩

theorem inFlight_cancel (a : VpnApp) : a.cancel.inFlight = a.inFlight := by
  unfold VpnApp.cancel VpnApp.inFlight
  cases hj : a.foxBehindJob with
  | none => rfl
  | some j =>
      show (a.jobs.modify j _).countP _ = _
      cases hjob : a.jobs[j]? with
      | none =>
          rw [List.modify_eq_self (by simpa using hjob)]
      | some job =>
          exact Nat.add_right_cancel (countP_modify (fun job : Job => job.pc.inFlight)
            (fun job => { job with cancelled := true }) hjob)

/-! ## §3. What every step keeps. -/

/-- **The pace**: `n` delays have ended since the app went behind.  Each of
them pays for one increment, made or in flight, and took thirty
milliseconds; the next one ends thirty milliseconds later. -/
structure Paced (a : VpnApp) (n : Nat) : Prop where
  count : a.foxBehindTime + a.inFlight ≤ n
  /-- A value that was read is no better than the count. -/
  read : ∀ (i v : Nat) (cancelled : Bool),
    a.jobs[i]? = some ⟨.adding v, cancelled⟩ → v + a.inFlight ≤ n
  elapsed : a.behindSince + 30 * n ≤ a.now
  next : ∀ i t : Nat, a.jobs[i]? = some ⟨.delaying t, false⟩ → a.behindSince + 30 * (n + 1) ≤ t

structure Watched (a : VpnApp) : Prop where
  /-- At most one coroutine is not cancelled, and none in the foreground. -/
  live : ∀ (i : Nat) (pc : Pc), a.jobs[i]? = some ⟨pc, false⟩ →
    a.foxBehindJob = some i ∧ a.foxForegroundList = []
  started : a.resetting = true → a.foxForegroundList ≠ []
  /-- In the foreground there is nothing to count. -/
  calm : a.foxForegroundList ≠ [] → a.resetting = false →
    a.foxBehindTime = 0 ∧ a.inFlight = 0
  paced : ∃ n, Paced a n

theorem watched_init : Watched {} where
  live := by intro i pc h; simp at h
  started := by simp
  calm := by simp
  paced := ⟨0, by simp [VpnApp.inFlight], by simp, by simp, by simp⟩

/-- A coroutine that moves and is not at its `delay` afterwards: the parts of
the invariant that do not depend on where it goes. -/
theorem Watched.live_move {a : VpnApp} (h : Watched a) (j : Nat) (pc : Pc) (i : Nat) (pc' : Pc)
    (hi : (a.move j pc).jobs[i]? = some ⟨pc', false⟩) :
    a.foxBehindJob = some i ∧ a.foxForegroundList = [] := by
  obtain ⟨hi, -⟩ | ⟨rfl, -, before, hbefore, hc⟩ := jobs_move_of hi
  · exact h.live i pc' hi
  · obtain ⟨pc₀, c₀⟩ := before
    obtain rfl : c₀ = false := hc
    exact h.live i pc₀ hbefore

/-- A move that neither takes off nor lands, and does not begin a `delay`. -/
theorem Watched.move {a : VpnApp} (h : Watched a) {j : Nat} {job : Job} {pc : Pc}
    (hj : a.jobs[j]? = some job) (hfly : pc.inFlight = job.pc.inFlight)
    (hread : ∀ v, pc = .adding v → v = a.foxBehindTime)
    (hdelay : ∀ t, pc = .delaying t → t = a.now + 30) : Watched (a.move j pc) := by
  have hin : (a.move j pc).inFlight = a.inFlight := by
    have := inFlight_move pc hj
    rw [hfly] at this
    omega
  obtain ⟨n, hn⟩ := h.paced
  refine ⟨h.live_move j pc, h.started, ?_, n, ?_, ?_, hn.elapsed, ?_⟩
  · rw [hin]; exact h.calm
  · rw [hin]; exact hn.count
  · intro i v c hi
    rw [hin]
    obtain ⟨hi, -⟩ | ⟨-, hpc, -⟩ := jobs_move_of hi
    · exact hn.read i v c hi
    · rw [hread v hpc.symm]
      exact hn.count
  · intro i t hi
    obtain ⟨hi, -⟩ | ⟨-, hpc, -⟩ := jobs_move_of hi
    · exact hn.next i t hi
    · have ht := hdelay t hpc.symm
      have helapsed := hn.elapsed
      show a.behindSince + 30 * (n + 1) ≤ t
      omega

/-- The end of a `delay` pays for an increment. -/
theorem Watched.wake {a : VpnApp} (h : Watched a) {j t : Nat}
    (hj : a.jobs[j]? = some ⟨.delaying t, false⟩) (ht : t ≤ a.now) :
    Watched (a.move j .woken) := by
  obtain ⟨hcur, hlist⟩ := h.live j _ hj
  have hin : (a.move j .woken).inFlight = a.inFlight + 1 := inFlight_move .woken hj
  obtain ⟨n, hn⟩ := h.paced
  have hnext := hn.next j t hj
  refine ⟨h.live_move j .woken, h.started, fun hne => absurd hlist hne, n + 1, ?_, ?_, ?_, ?_⟩
  · have := hn.count
    rw [hin]
    show a.foxBehindTime + _ ≤ _
    omega
  · intro i v c hi
    obtain ⟨hi, -⟩ | ⟨-, hpc, -⟩ := jobs_move_of hi
    · have := hn.read i v c hi
      omega
    · exact absurd hpc (by simp)
  · show a.behindSince + 30 * (n + 1) ≤ a.now
    omega
  · intro i t' hi
    -- the coroutine that woke is the only one that could be waiting
    obtain ⟨hi, hne⟩ | ⟨-, hpc, -⟩ := jobs_move_of hi
    · have := (h.live i _ hi).1
      rw [hcur] at this
      exact absurd (Option.some.inj this).symm hne
    · exact absurd hpc (by simp)

/-- The write lands: what was in flight is counted, or lost. -/
theorem Watched.write {a : VpnApp} (h : Watched a) {j v : Nat} {cancelled : Bool}
    (hj : a.jobs[j]? = some ⟨.adding v, cancelled⟩) :
    Watched { a.move j .added with foxBehindTime := v + 1 } := by
  have hin : (a.move j .added).inFlight + 1 = a.inFlight := inFlight_move .added hj
  have hpos : 0 < a.inFlight := inFlight_pos hj rfl
  obtain ⟨n, hn⟩ := h.paced
  have hread := hn.read j v cancelled hj
  refine ⟨h.live_move j .added, h.started, ?_, n, ?_, ?_, hn.elapsed, ?_⟩
  · intro hne hidle
    have := (h.calm hne hidle).2
    omega
  · show v + 1 + (a.move j .added).inFlight ≤ n
    omega
  · intro i w c hi
    show w + (a.move j .added).inFlight ≤ n
    obtain ⟨hi, -⟩ | ⟨-, hpc, -⟩ := jobs_move_of hi
    · have := hn.read i w c hi
      omega
    · exact absurd hpc (by simp)
  · intro i t hi
    obtain ⟨hi, -⟩ | ⟨-, hpc, -⟩ := jobs_move_of hi
    · exact hn.next i t hi
    · exact absurd hpc (by simp)

/-- After `cancel` no coroutine is left that is not cancelled. -/
theorem Watched.cancelled {a : VpnApp} (h : Watched a) (i : Nat) (pc : Pc) :
    a.cancel.jobs[i]? ≠ some ⟨pc, false⟩ := by
  intro hi
  obtain ⟨⟨pc₀, c₀⟩, hbefore, -, hlive⟩ := jobs_cancel_of hi
  obtain ⟨hc, hcur⟩ := hlive rfl
  obtain rfl : c₀ = false := hc
  exact hcur (h.live i pc₀ hbefore).1

theorem cancel_read {a : VpnApp} {n : Nat} (hn : Paced a n) (i v : Nat) (c : Bool)
    (hi : a.cancel.jobs[i]? = some ⟨.adding v, c⟩) : v + a.inFlight ≤ n := by
  obtain ⟨⟨pc₀, c₀⟩, hbefore, hpc, -⟩ := jobs_cancel_of hi
  obtain rfl : pc₀ = .adding v := hpc
  exact hn.read i v c₀ hbefore

theorem watched_onActivityStarted {a : VpnApp} (h : Watched a) (name : String) :
    Watched (a.onActivityStarted name) := by
  obtain ⟨n, hn⟩ := h.paced
  unfold VpnApp.onActivityStarted
  refine ⟨fun i pc hi => absurd hi (h.cancelled i pc), fun _ => by simp,
    fun _ hidle => absurd hidle (by simp), n, ?_, ?_, hn.elapsed,
    fun i t hi => absurd hi (h.cancelled i _)⟩
  · show a.foxBehindTime + a.cancel.inFlight ≤ n
    rw [inFlight_cancel]
    exact hn.count
  · intro i v c hi
    show v + a.cancel.inFlight ≤ n
    rw [inFlight_cancel]
    exact cancel_read hn i v c hi

/-- The reset starts the count afresh IF nothing is in flight. -/
theorem watched_resetTime {a : VpnApp} (h : Watched a)
    (hset : a.inFlight = 0) : Watched { a with foxBehindTime := 0, resetting := false } := by
  obtain ⟨n, hn⟩ := h.paced
  refine ⟨h.live, fun hr => absurd hr (by simp), fun _ _ => ⟨rfl, hset⟩, n, ?_, hn.read,
    hn.elapsed, hn.next⟩
  show 0 + a.inFlight ≤ n
  omega

/-- The new coroutine is not cancelled and not in flight; all others are
cancelled. -/
theorem jobs_launch_of {a : VpnApp} {i : Nat} {job : Job}
    (h : (a.cancel.jobs ++ [({} : Job)])[i]? = some job) :
    a.cancel.jobs[i]? = some job ∨ i = a.jobs.length ∧ job = {} := by
  have hlen : a.cancel.jobs.length = a.jobs.length := by
    unfold VpnApp.cancel
    cases a.foxBehindJob <;> simp
  obtain hlt | hge := Nat.lt_or_ge i a.cancel.jobs.length
  · rw [List.getElem?_append_left hlt] at h
    exact .inl h
  · rw [List.getElem?_append_right hge] at h
    rw [List.getElem?_singleton] at h
    split at h
    next hi => exact .inr ⟨by omega, (Option.some.inj h).symm⟩
    next => exact absurd h (by simp)

/-- What the new coroutine leaves as it was: nobody takes off, and nobody is
at a `delay` that is not cancelled. -/
theorem Watched.launch {a : VpnApp} (h : Watched a) (hidle : a.resetting = false) {since n : Nat}
    (hcount : a.foxBehindTime + a.inFlight ≤ n)
    (hread : ∀ (i v : Nat) (c : Bool), a.cancel.jobs[i]? = some ⟨.adding v, c⟩ → v + a.inFlight ≤ n)
    (helapsed : since + 30 * n ≤ a.now) :
    Watched { a.cancel with
      foxForegroundList := [], foxBehindJob := some a.jobs.length
      jobs := a.cancel.jobs ++ [{}], behindSince := since } := by
  have hin : (a.cancel.jobs ++ [({} : Job)]).countP (·.pc.inFlight) = a.inFlight := by
    rw [List.countP_append, ← inFlight_cancel]
    rfl
  refine ⟨?_, fun hr => ?_, fun hne => absurd rfl hne, n, ?_, ?_, helapsed, ?_⟩
  · intro i pc hi
    obtain hold | ⟨rfl, -⟩ := jobs_launch_of hi
    · exact absurd hold (h.cancelled i pc)
    · exact ⟨rfl, rfl⟩
  · exact absurd (hidle.symm.trans hr) (by simp)
  · show a.foxBehindTime + (a.cancel.jobs ++ [({} : Job)]).countP (·.pc.inFlight) ≤ n
    rw [hin]
    exact hcount
  · intro i v c hi
    show v + (a.cancel.jobs ++ [({} : Job)]).countP (·.pc.inFlight) ≤ n
    rw [hin]
    obtain hold | ⟨-, hnew⟩ := jobs_launch_of hi
    · exact hread i v c hold
    · exact absurd (congrArg Job.pc hnew) (by simp)
  · intro i t hi
    obtain hold | ⟨-, hnew⟩ := jobs_launch_of hi
    · exact absurd hold (h.cancelled i _)
    · exact absurd (congrArg Job.pc hnew) (by simp)

theorem watched_onActivityStopped {a : VpnApp} (h : Watched a) (hidle : a.resetting = false)
    (name : String) : Watched (a.onActivityStopped name) := by
  obtain ⟨n, hn⟩ := h.paced
  unfold VpnApp.onActivityStopped
  extract_lets list
  have hsub : a.foxForegroundList = [] → list = [] := by
    intro hnil
    simp [list, hnil]
  split
  next hempty =>
    rw [List.isEmpty_iff.mp hempty]
    by_cases hbehind : a.foxForegroundList = []
    · -- the app was behind already: only the coroutine is replaced
      rw [if_pos (List.isEmpty_iff.mpr hbehind)]
      exact h.launch hidle hn.count (cancel_read hn) hn.elapsed
    · -- the app goes behind: nothing is counted yet, and nothing in flight
      rw [if_neg fun he => hbehind (List.isEmpty_iff.mp he)]
      obtain ⟨htime, hfly⟩ := h.calm hbehind hidle
      refine h.launch hidle (n := 0) (by omega) ?_ (by omega)
      intro i v c hi
      obtain ⟨before, hbefore, hpc, -⟩ := jobs_cancel_of hi
      have := inFlight_pos hbefore (by rw [hpc]; rfl)
      omega
  next hne =>
    have hlist : list ≠ [] := fun hnil => hne (List.isEmpty_iff.mpr hnil)
    have hfore : a.foxForegroundList ≠ [] := fun hnil => hlist (hsub hnil)
    exact ⟨fun i pc hi => absurd (h.live i pc hi).2 hfore, fun _ => hlist,
      fun _ hi => h.calm hfore hi, n, hn.count, hn.read, hn.elapsed, hn.next⟩

/-- **THE STEP LEMMA.** -/
theorem watched_step {a a' : VpnApp} {l : Label} (hset : Settled a l) (hs : step a l = some a')
    (h : Watched a) : Watched a' := by
  cases l with
  | onActivityCreated activity =>
      obtain ⟨-, rfl⟩ := of_enabled hs
      exact ⟨h.live, h.started, h.calm, h.paced.imp fun _ hn => ⟨hn.1, hn.2, hn.3, hn.4⟩⟩
  | onActivityStarted name =>
      obtain ⟨-, rfl⟩ := of_enabled hs
      exact watched_onActivityStarted h name
  | resetTime =>
      obtain ⟨-, rfl⟩ := of_enabled hs
      exact watched_resetTime h (hset rfl)
  | onActivityStopped name =>
      obtain ⟨hidle, rfl⟩ := of_enabled hs
      exact watched_onActivityStopped h hidle name
  | onActivityDestroyed activity =>
      obtain ⟨-, rfl⟩ := of_enabled hs
      exact ⟨h.live, h.started, h.calm, h.paced.imp fun _ hn => ⟨hn.1, hn.2, hn.3, hn.4⟩⟩
  | dispatch j =>
      obtain ⟨hj, rfl⟩ := of_enabled hs
      exact h.move hj rfl (by simp) (by simp)
  | testEmpty j =>
      obtain ⟨hpc, rfl⟩ := of_enabled hs
      obtain ⟨⟨pc, c⟩, hj, rfl⟩ := Option.map_eq_some_iff.mp hpc
      split
      next => exact h.move hj rfl (by simp) (by simp)
      next => exact h.move hj rfl (by simp) (by simp)
  | wake j =>
      simp only [step] at hs
      split at hs
      next t hj =>
        obtain ⟨ht, rfl⟩ := of_enabled hs
        exact h.wake hj ht
      next => exact absurd hs (by simp)
  | readTime j =>
      obtain ⟨hpc, rfl⟩ := of_enabled hs
      obtain ⟨⟨pc, c⟩, hj, rfl⟩ := Option.map_eq_some_iff.mp hpc
      exact h.move hj rfl (by simp) (by simp)
  | writeTime j =>
      simp only [step] at hs
      split at hs
      next v hpc =>
        obtain rfl := Option.some.inj hs
        obtain ⟨⟨pc, c⟩, hj, hadd⟩ := Option.map_eq_some_iff.mp hpc
        obtain rfl : pc = .adding v := hadd
        exact h.write hj
      next => exact absurd hs (by simp)
  | testTime j =>
      obtain ⟨hpc, rfl⟩ := of_enabled hs
      obtain ⟨⟨pc, c⟩, hj, rfl⟩ := Option.map_eq_some_iff.mp hpc
      have hm : Watched (a.move j .looping) := h.move hj rfl (by simp) (by simp)
      exact ⟨hm.live, hm.started, hm.calm, hm.paced.imp fun _ hn => ⟨hn.1, hn.2, hn.3, hn.4⟩⟩
  | abort j =>
      simp only [step] at hs
      split at hs
      next hj =>
        obtain rfl := Option.some.inj hs
        exact h.move hj rfl (by simp) (by simp)
      next hj =>
        obtain rfl := Option.some.inj hs
        exact h.move hj rfl (by simp) (by simp)
      next => exact absurd hs (by simp)
  | pass milliseconds =>
      obtain rfl := Option.some.inj hs
      obtain ⟨n, hn⟩ := h.paced
      exact ⟨h.live, h.started, h.calm, n, hn.count, hn.read,
        Nat.le_add_right_of_le hn.elapsed, hn.next⟩

/-! ## §4. Whole runs. -/

/-- A step that an observer sees: `onActivityStarted` launches hot from the
background and with the count at 100 or more, the test in the loop finishes
ads with the count at 100 or more. -/
theorem observed_step {a a' : VpnApp} {l : Label} (hs : step a l = some a') :
    (a'.hotLaunches = a.hotLaunches ∨ a.foxForegroundList = [] ∧ 100 ≤ a.foxBehindTime)
      ∧ (a'.finished = a.finished ∨ 100 ≤ a.foxBehindTime) := by
  cases l with
  | onActivityStarted name =>
      obtain ⟨-, rfl⟩ := of_enabled hs
      refine ⟨?_, .inl rfl⟩
      by_cases hhot : (decide (a.foxBehindTime ≥ 100)
          && (a.foxForegroundList ++ [name]).length == 1) = true
      · rw [Bool.and_eq_true, decide_eq_true_eq, beq_iff_eq, List.length_append] at hhot
        exact .inr ⟨List.eq_nil_of_length_eq_zero (Nat.succ.inj hhot.2), hhot.1⟩
      · exact .inl (if_neg hhot)
  | onActivityStopped name =>
      obtain ⟨-, rfl⟩ := of_enabled hs
      unfold VpnApp.onActivityStopped
      extract_lets list
      split <;> exact ⟨.inl rfl, .inl rfl⟩
  | testTime j =>
      obtain ⟨-, rfl⟩ := of_enabled hs
      refine ⟨.inl rfl, ?_⟩
      by_cases hcount : a.foxBehindTime ≥ 100
      · exact .inr hcount
      · exact .inl (if_neg hcount)
  | _ =>
      -- the others touch neither field
      simp only [step] at hs
      repeat' split at hs
      all_goals cases hs
      all_goals exact ⟨.inl rfl, .inl rfl⟩

/-- The coroutine `j` goes round its loop `n` times, from `delay` to `delay`. -/
def rounds (j : Nat) : Nat → List Label
  | 0 => []
  | n + 1 =>
      [.pass 30, .wake j, .readTime j, .writeTime j, .testTime j, .testEmpty j] ++ rounds j n

/-- The app with an ad on the screen goes behind for a hundred rounds. -/
def leftForLong : List Label :=
  [.onActivityCreated 7, .onActivityStarted "AdActivity", .resetTime,
   .onActivityStopped "AdActivity", .dispatch 0, .testEmpty 0] ++ rounds 0 100

/-- The reset falls between the read and the write of the coroutine's last
increment, and the write brings the old count back. -/
def tornReset : List Label :=
  [.onActivityStopped "MainActivity", .dispatch 0, .testEmpty 0] ++ rounds 0 99 ++
  [.pass 30, .wake 0, .readTime 0, .onActivityStarted "MainActivity", .resetTime, .writeTime 0,
   .onActivityStopped "MainActivity"]

/-- The app has not been behind for a moment, and is launched hot. -/
example : (exec step {} tornReset).any (fun a =>
    a.now == a.behindSince && (a.onActivityStarted "MainActivity").hotLaunches == 1) = true := by
  decide +kernel

end FoxVpn.App.HotLaunch
