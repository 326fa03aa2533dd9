/-
  FoxVpn.Bg.BandwidthLoop
  ───────────────────────
  **THE BANDWIDTH LOOP OF THE BINDER.**

  Clients ask `Binder` for bandwidth reports with a timeout each.  The first
  one launches a coroutine, `loop()`, which delays for the least timeout and
  reports; the last one to leave cancels it.  All of this runs on the main
  thread, so each event is one step:

      startListeningForBandwidth   `isEmpty() and (put(..) == null)`: `and`
                                   evaluates both sides, the put is made
      stopListeningForBandwidth    by itself, through `unregisterCallback`
                                   or through `onCallbackDied`
      resume                       the dispatcher runs a loop up to its next
                                   `delay`, or ends one that was cancelled

  A loop that is launched or delayed is ACTIVE.  If it finds no listener it
  returns for good, and nobody would launch another one: that must not
  happen.  Main result `bandwidth_loop`: after any events, `looper` is the
  one active loop exactly while someone listens, no check on the way has
  failed, and the listeners are those who have asked and not left since.
-/
import Mathlib.Data.List.Basic
import FoxVpn.Lib.LinkedMap
import FoxVpn.Lib.Result

namespace FoxVpn.Bg

open FoxVpn.Lib

/-! ## §1. The events. -/

/-- A coroutine that runs `loop()`. -/
inductive LoopState where
  | launched
  | delaying (timeout : Int)
  | cancelled
  /-- It has left through `minOrNull() ?: return`. -/
  | returned
  deriving Repr, DecidableEq

namespace LoopState

def isActive : LoopState → Bool
  | .launched => true
  | .delaying _ => true
  | .cancelled => false
  | .returned => false

/-- `Job.cancel()`, which does nothing to a job that has completed. -/
def cancel : LoopState → LoopState
  | .returned => .returned
  | _ => .cancelled

theorem isActive_cancel (l : LoopState) : l.cancel.isActive = false := by
  cases l <;> rfl

theorem cancel_eq_returned {l : LoopState} (h : l.cancel = .returned) : l = .returned := by
  cases l with
  | returned => rfl
  | launched => exact absurd h (by simp [cancel])
  | delaying t => exact absurd h (by simp [cancel])
  | cancelled => exact absurd h (by simp [cancel])

end LoopState

/-- What an event can throw. -/
inductive BinderFault where
  /-- `check(looper == null)`. -/
  | illegalState
  /-- `looper!!`. -/
  | nullPointer
  deriving Repr, DecidableEq

/-- The part of `BaseService.Binder` that the loop depends on; `κ` are the
binders of the callbacks. -/
structure Binder (κ : Type) where
  bandwidthListeners : LinkedMap κ Int := {}
  /-- The job, by its number in `loops`. -/
  looper : Option Nat := none
  /-- Every loop that was ever launched. -/
  loops : List LoopState := []

namespace Binder

variable {κ : Type} [DecidableEq κ]

/-- From the head of `while (true)` to the next suspension. -/
def iterate (s : Binder κ) : LoopState :=
  match (s.bandwidthListeners.entries.map Prod.snd).min? with
  | none => .returned
  | some timeout => .delaying timeout

/-- The dispatcher resumes a loop; one that was cancelled or has returned is
over. -/
def resume (s : Binder κ) (id : Nat) : Binder κ :=
  match s.loops[id]? with
  | some .launched => { s with loops := s.loops.set id s.iterate }
  | some (.delaying _) => { s with loops := s.loops.set id s.iterate }
  | _ => s

def startListeningForBandwidth (s : Binder κ) (cb : κ) (timeout : Int) :
    Except BinderFault (Binder κ) :=
  let isEmpty := s.bandwidthListeners.entries.isEmpty
  let previous := s.bandwidthListeners.get cb
  let s := { s with bandwidthListeners := s.bandwidthListeners.put cb timeout }
  if isEmpty && previous.isNone then
    if s.looper ≠ none then .error .illegalState
    else .ok { s with looper := some s.loops.length, loops := s.loops ++ [.launched] }
  else .ok s

def stopListeningForBandwidth (s : Binder κ) (cb : κ) : Except BinderFault (Binder κ) :=
  let previous := s.bandwidthListeners.get cb
  let s := { s with bandwidthListeners := s.bandwidthListeners.remove cb }
  if previous.isSome && s.bandwidthListeners.entries.isEmpty then
    match s.looper with
    | none => .error .nullPointer
    | some id => .ok { s with looper := none, loops := s.loops.modify id LoopState.cancel }
  else .ok s

def unregisterCallback (s : Binder κ) (cb : κ) : Except BinderFault (Binder κ) :=
  s.stopListeningForBandwidth cb

def onCallbackDied (s : Binder κ) : Option κ → Except BinderFault (Binder κ)
  | none => .ok s
  | some cb => s.stopListeningForBandwidth cb

inductive Event (κ : Type) where
  | startListeningForBandwidth (cb : κ) (timeout : Int)
  | stopListeningForBandwidth (cb : κ)
  | unregisterCallback (cb : κ)
  | onCallbackDied (cb : Option κ)
  | resume (id : Nat)
  deriving Repr, DecidableEq

/-- One event on the main thread. -/
def handle (s : Binder κ) : Event κ → Except BinderFault (Binder κ)
  | .startListeningForBandwidth cb timeout => s.startListeningForBandwidth cb timeout
  | .stopListeningForBandwidth cb => s.stopListeningForBandwidth cb
  | .unregisterCallback cb => s.unregisterCallback cb
  | .onCallbackDied cb => s.onCallbackDied cb
  | .resume id => .ok (s.resume id)

/-! ## §2. The invariant. -/

/-- Loop number `id` is active. -/
def Active (s : Binder κ) (id : Nat) : Prop := s.loops[id]?.any LoopState.isActive = true

/-- **The loop runs exactly while someone listens.** -/
structure RunsWhileHeard (s : Binder κ) : Prop where
  looper_iff : s.looper ≠ none ↔ s.bandwidthListeners.entries ≠ []
  /-- The looper is active, and nothing else is. -/
  active_iff : ∀ id : Nat, s.Active id ↔ s.looper = some id
  /-- No loop has left through its empty return. -/
  stays : ∀ id : Nat, s.loops[id]? ≠ some .returned

omit [DecidableEq κ] in
theorem runsWhileHeard_new : RunsWhileHeard ({} : Binder κ) where
  looper_iff := iff_of_false (fun h => h rfl) (fun h => h rfl)
  active_iff id := iff_of_false (by simp [Active]) (by simp)
  stays id := by simp

omit [DecidableEq κ] in
/-- A change of the listeners alone that leaves someone listening, or
nobody. -/
theorem RunsWhileHeard.listeners {s : Binder κ} (h : RunsWhileHeard s) {m : LinkedMap κ Int}
    (hm : m.entries ≠ [] ↔ s.bandwidthListeners.entries ≠ []) :
    RunsWhileHeard { s with bandwidthListeners := m } where
  looper_iff := h.looper_iff.trans hm.symm
  active_iff := h.active_iff
  stays := h.stays

theorem put_ne_nil (m : LinkedMap κ Int) (cb : κ) (timeout : Int) :
    (m.put cb timeout).entries ≠ [] := by
  intro hnil
  have hmem : (cb, timeout) ∈ (m.put cb timeout).entries := by
    rw [LinkedMap.mem_entries_iff_get, LinkedMap.get_put, if_pos rfl]
  rw [hnil] at hmem
  exact absurd hmem List.not_mem_nil

theorem get_of_isEmpty {m : LinkedMap κ Int} (h : m.entries = []) (cb : κ) : m.get cb = none := by
  rw [LinkedMap.get, h]
  rfl

/-- Who did not listen is not missed. -/
theorem remove_of_get {m : LinkedMap κ Int} {cb : κ} (h : m.get cb = none) :
    (m.remove cb).entries = m.entries := by
  refine List.filter_eq_self.mpr fun e he => decide_eq_true ?_
  rintro rfl
  have hget := (m.mem_entries_iff_get e.1 e.2).mp he
  exact absurd (h.symm.trans hget) (by simp)

/-! ## §3. One event. -/

/-- The first listener launches a loop. -/
theorem start_eq_launch {s : Binder κ} (hempty : s.bandwidthListeners.entries = [])
    (hlooper : s.looper = none) (cb : κ) (timeout : Int) :
    s.startListeningForBandwidth cb timeout
      = .ok { bandwidthListeners := s.bandwidthListeners.put cb timeout
              looper := some s.loops.length
              loops := s.loops ++ [.launched] } := by
  simp [startListeningForBandwidth, hempty, hlooper, get_of_isEmpty hempty cb]

/-- Any other one is put with the rest. -/
theorem start_eq_put {s : Binder κ} (hne : s.bandwidthListeners.entries ≠ []) (cb : κ)
    (timeout : Int) :
    s.startListeningForBandwidth cb timeout
      = .ok { s with bandwidthListeners := s.bandwidthListeners.put cb timeout } := by
  simp [startListeningForBandwidth, hne]

/-- **A start** launches a loop exactly if nobody listened, and then there
is none. -/
theorem start_ok {s : Binder κ} (h : RunsWhileHeard s) (cb : κ) (timeout : Int) :
    ∃ s', s.startListeningForBandwidth cb timeout = .ok s' ∧ RunsWhileHeard s' := by
  have hput := put_ne_nil s.bandwidthListeners cb timeout
  by_cases hempty : s.bandwidthListeners.entries = []
  · have hlooper : s.looper = none := by
      by_contra hne
      exact h.looper_iff.mp hne hempty
    refine ⟨_, start_eq_launch hempty hlooper cb timeout, ?_, ?_, ?_⟩
    · exact iff_of_true (by simp) hput
    · intro id
      -- the loops before it are as inactive as they were
      have hold : ¬ s.Active id := by
        rw [h.active_iff, hlooper]
        simp
      unfold Active at hold ⊢
      simp only [Option.some.injEq]
      rcases Nat.lt_trichotomy id s.loops.length with hlt | heq | hgt
      · rw [List.getElem?_append_left hlt]
        exact iff_of_false hold (by omega)
      · rw [heq, List.getElem?_concat_length]
        exact iff_of_true rfl rfl
      · have hlen : (s.loops ++ [LoopState.launched]).length ≤ id := by
          rw [List.length_append, List.length_singleton]
          omega
        rw [List.getElem?_eq_none hlen]
        exact iff_of_false (by simp) (by omega)
    · intro id hreturned
      rcases List.mem_append.mp (List.mem_of_getElem? hreturned) with hmem | hmem
      · obtain ⟨i, hi⟩ := List.getElem?_of_mem hmem
        exact h.stays i hi
      · exact absurd (List.mem_singleton.mp hmem) (by simp)
  · exact ⟨_, start_eq_put hempty cb timeout, h.listeners (iff_of_true hput hempty)⟩

/-- The last listener cancels the loop. -/
theorem stop_eq_cancel {s : Binder κ} {cb : κ} {timeout : Int} {id : Nat}
    (hget : s.bandwidthListeners.get cb = some timeout)
    (hempty : (s.bandwidthListeners.remove cb).entries = []) (hlooper : s.looper = some id) :
    s.stopListeningForBandwidth cb
      = .ok { bandwidthListeners := s.bandwidthListeners.remove cb
              looper := none
              loops := s.loops.modify id LoopState.cancel } := by
  simp [stopListeningForBandwidth, hget, hempty, hlooper]

/-- Any other one just leaves. -/
theorem stop_eq_remove {s : Binder κ} {cb : κ}
    (h : s.bandwidthListeners.get cb = none ∨ (s.bandwidthListeners.remove cb).entries ≠ []) :
    s.stopListeningForBandwidth cb
      = .ok { s with bandwidthListeners := s.bandwidthListeners.remove cb } := by
  rcases h with hget | hne
  · simp [stopListeningForBandwidth, hget]
  · simp [stopListeningForBandwidth, hne]

theorem getElem?_cancel (loops : List LoopState) (id id' : Nat) :
    (loops.modify id LoopState.cancel)[id']?
      = if id = id' then loops[id']?.map LoopState.cancel else loops[id']? := by
  rw [List.getElem?_modify]
  by_cases heq : id = id'
  · simp [heq]
  · simp [heq]

/-- **A stop** cancels the loop exactly if the last listener leaves, and
then there is one. -/
theorem stop_ok {s : Binder κ} (h : RunsWhileHeard s) (cb : κ) :
    ∃ s', s.stopListeningForBandwidth cb = .ok s' ∧ RunsWhileHeard s' := by
  cases hget : s.bandwidthListeners.get cb with
  | none =>
      refine ⟨_, stop_eq_remove (Or.inl hget), h.listeners ?_⟩
      rw [remove_of_get hget]
  | some timeout =>
      have hheard : s.bandwidthListeners.entries ≠ [] := by
        intro hnil
        exact absurd (hget.symm.trans (get_of_isEmpty hnil cb)) (by simp)
      by_cases hempty : (s.bandwidthListeners.remove cb).entries = []
      · obtain ⟨id, hlooper⟩ := Option.ne_none_iff_exists'.mp (h.looper_iff.mpr hheard)
        refine ⟨_, stop_eq_cancel hget hempty hlooper, ?_, ?_, ?_⟩
        · exact iff_of_false (fun hne => hne rfl) (fun hne => hne hempty)
        · intro id'
          refine iff_of_false ?_ (by simp)
          have hactive := h.active_iff id'
          unfold Active at hactive ⊢
          rw [getElem?_cancel]
          by_cases heq : id = id'
          · -- the looper itself is cancelled
            rw [if_pos heq, Option.any_map]
            simp [LoopState.isActive_cancel]
          · rw [if_neg heq, hactive, hlooper]
            exact fun hsome => heq (Option.some.inj hsome)
        · intro id' hreturned
          rw [getElem?_cancel] at hreturned
          split at hreturned
          · obtain ⟨l, hl, hcancel⟩ := Option.map_eq_some_iff.mp hreturned
            rw [LoopState.cancel_eq_returned hcancel] at hl
            exact h.stays id' hl
          · exact h.stays id' hreturned
      · exact ⟨_, stop_eq_remove (Or.inr hempty), h.listeners (iff_of_true hempty hheard)⟩

omit [DecidableEq κ] in
/-- Someone listens, so the loop delays again. -/
theorem iterate_of_heard {s : Binder κ} (h : s.bandwidthListeners.entries ≠ []) :
    ∃ timeout, s.iterate = .delaying timeout := by
  unfold iterate
  cases hmin : (s.bandwidthListeners.entries.map Prod.snd).min? with
  | none => exact absurd (List.map_eq_nil_iff.mp (List.min?_eq_none_iff.mp hmin)) h
  | some timeout => exact ⟨timeout, rfl⟩

omit [DecidableEq κ] in
theorem lt_of_active {s : Binder κ} {id : Nat} (h : s.Active id) : id < s.loops.length := by
  unfold Active at h
  by_contra hge
  rw [List.getElem?_eq_none (by omega)] at h
  exact absurd h (by simp)

omit [DecidableEq κ] in
/-- An active loop goes round. -/
theorem resume_eq_iterate {s : Binder κ} {id : Nat} (h : s.Active id) :
    s.resume id = { s with loops := s.loops.set id s.iterate } := by
  unfold Active at h
  unfold resume
  cases hloop : s.loops[id]? with
  | none => exact absurd h (by simp [hloop])
  | some l =>
      rw [hloop] at h
      cases l with
      | launched => rfl
      | delaying t => rfl
      | cancelled => exact absurd h (by simp [LoopState.isActive])
      | returned => exact absurd h (by simp [LoopState.isActive])

omit [DecidableEq κ] in
/-- Any other one is over. -/
theorem resume_eq_self {s : Binder κ} {id : Nat} (h : ¬ s.Active id) : s.resume id = s := by
  unfold Active at h
  unfold resume
  cases hloop : s.loops[id]? with
  | none => rfl
  | some l =>
      rw [hloop] at h
      cases l with
      | launched => exact absurd rfl h
      | delaying t => exact absurd rfl h
      | cancelled => rfl
      | returned => rfl

omit [DecidableEq κ] in
/-- **An active loop never takes its empty return**: while it is active,
someone listens. -/
theorem resume_ok {s : Binder κ} (h : RunsWhileHeard s) (id : Nat) :
    RunsWhileHeard (s.resume id) := by
  by_cases hactive : s.Active id
  · have hlooper := (h.active_iff id).mp hactive
    have hheard : s.bandwidthListeners.entries ≠ [] :=
      h.looper_iff.mp (by rw [hlooper]; simp)
    obtain ⟨timeout, hiterate⟩ := iterate_of_heard hheard
    have hlt := lt_of_active hactive
    rw [resume_eq_iterate hactive, hiterate]
    refine ⟨h.looper_iff, ?_, ?_⟩
    · intro id'
      have hold := h.active_iff id'
      unfold Active at hold ⊢
      by_cases heq : id = id'
      · subst heq
        rw [List.getElem?_set_self hlt]
        exact iff_of_true rfl hlooper
      · rw [List.getElem?_set_ne heq]
        exact hold
    · intro id' hreturned
      by_cases heq : id = id'
      · subst heq
        rw [List.getElem?_set_self hlt] at hreturned
        exact absurd (Option.some.inj hreturned) (by simp)
      · rw [List.getElem?_set_ne heq] at hreturned
        exact h.stays id' hreturned
  · rw [resume_eq_self hactive]
    exact h

/-! ## §4. Who listens. -/

/-- The callback an event is about. -/
def Event.listener : Event κ → Option κ
  | .startListeningForBandwidth cb _ => some cb
  | .stopListeningForBandwidth cb => some cb
  | .unregisterCallback cb => some cb
  | .onCallbackDied cb => cb
  | .resume _ => none

/-- **What a callback has asked for**: its last request is a start, and no
event since is about it. -/
def Asked (es : List (Event κ)) (cb : κ) (timeout : Int) : Prop :=
  ∃ before after, es = before ++ .startListeningForBandwidth cb timeout :: after
    ∧ ∀ e ∈ after, e.listener ≠ some cb

omit [DecidableEq κ] in
/-- One more event. -/
theorem asked_concat (es : List (Event κ)) (e : Event κ) (cb : κ) (timeout : Int) :
    Asked (es ++ [e]) cb timeout
      ↔ e = .startListeningForBandwidth cb timeout
        ∨ e.listener ≠ some cb ∧ Asked es cb timeout := by
  constructor
  · rintro ⟨before, after, heq, hafter⟩
    rcases List.eq_nil_or_concat' after with rfl | ⟨after', last, rfl⟩
    · obtain ⟨-, hlast⟩ := List.append_inj' heq rfl
      exact Or.inl (List.singleton_inj.mp hlast)
    · rw [← List.cons_append, ← List.append_assoc] at heq
      obtain ⟨hes, hlast⟩ := List.append_inj' heq rfl
      rw [List.singleton_inj.mp hlast]
      exact Or.inr ⟨hafter last (by simp), before, after', hes,
        fun e' he' => hafter e' (List.mem_append_left _ he')⟩
  · rintro (rfl | ⟨hne, before, after, rfl, hafter⟩)
    · exact ⟨es, [], rfl, by simp⟩
    · refine ⟨before, after ++ [e], by simp, fun e' he' => ?_⟩
      rcases List.mem_append.mp he' with hmem | hmem
      · exact hafter e' hmem
      · rw [List.mem_singleton.mp hmem]
        exact hne

/-- A start puts its callback, whether or not it launches a loop. -/
theorem start_listeners {s s' : Binder κ} {cb : κ} {timeout : Int}
    (h : s.startListeningForBandwidth cb timeout = .ok s') :
    s'.bandwidthListeners = s.bandwidthListeners.put cb timeout := by
  simp only [startListeningForBandwidth] at h
  repeat' split at h
  all_goals cases h
  all_goals rfl

/-- A stop removes its callback, whether or not it cancels the loop. -/
theorem stop_listeners {s s' : Binder κ} {cb : κ}
    (h : s.stopListeningForBandwidth cb = .ok s') :
    s'.bandwidthListeners = s.bandwidthListeners.remove cb := by
  simp only [stopListeningForBandwidth] at h
  repeat' split at h
  all_goals cases h
  all_goals rfl

omit [DecidableEq κ] in
theorem resume_listeners (s : Binder κ) (id : Nat) :
    (s.resume id).bandwidthListeners = s.bandwidthListeners := by
  unfold resume
  split <;> rfl

/-- Who has not left still listens. -/
theorem get_stop {s s' : Binder κ} {cb : κ} (h : s.stopListeningForBandwidth cb = .ok s') (cb' : κ)
    (timeout : Int) :
    s'.bandwidthListeners.get cb' = some timeout
      ↔ cb ≠ cb' ∧ s.bandwidthListeners.get cb' = some timeout := by
  rw [stop_listeners h, LinkedMap.get_remove]
  by_cases heq : cb' = cb
  · simp [heq]
  · simp [heq, Ne.symm heq]

/-- **One event** changes the listeners as it changes what was asked for. -/
theorem get_handle {s s' : Binder κ} {e : Event κ} (h : s.handle e = .ok s') (cb : κ)
    (timeout : Int) :
    s'.bandwidthListeners.get cb = some timeout
      ↔ e = .startListeningForBandwidth cb timeout
        ∨ e.listener ≠ some cb ∧ s.bandwidthListeners.get cb = some timeout := by
  cases e with
  | startListeningForBandwidth cb' timeout' =>
      rw [start_listeners h, LinkedMap.get_put]
      by_cases heq : cb = cb'
      · simp [heq, Event.listener]
      · simp [heq, Ne.symm heq, Event.listener]
  | stopListeningForBandwidth cb' => simpa [Event.listener] using get_stop h cb timeout
  | unregisterCallback cb' => simpa [Event.listener] using get_stop h cb timeout
  | onCallbackDied died =>
      cases died with
      | none =>
          rw [← Except.ok.inj h]
          simp [Event.listener]
      | some cb' => simpa [Event.listener] using get_stop h cb timeout
  | resume id =>
      rw [← Except.ok.inj h, resume_listeners]
      simp [Event.listener]

/-! ## §5. Any events. -/

/-- **One event** throws nothing. -/
theorem handle_ok {s : Binder κ} (h : RunsWhileHeard s) (e : Event κ) :
    ∃ s', s.handle e = .ok s' ∧ RunsWhileHeard s' := by
  cases e with
  | startListeningForBandwidth cb timeout => exact start_ok h cb timeout
  | stopListeningForBandwidth cb => exact stop_ok h cb
  | unregisterCallback cb => exact stop_ok h cb
  | onCallbackDied cb =>
      cases cb with
      | none => exact ⟨s, rfl, h⟩
      | some cb => exact stop_ok h cb
  | resume id => exact ⟨_, rfl, resume_ok h id⟩

/-- Any further events, after those of `past`. -/
theorem foldlM_handle_ok (es : List (Event κ)) {past : List (Event κ)} {s : Binder κ}
    (h : RunsWhileHeard s)
    (hasked : ∀ cb timeout, s.bandwidthListeners.get cb = some timeout ↔ Asked past cb timeout) :
    ∃ s', es.foldlM handle s = .ok s' ∧ RunsWhileHeard s'
      ∧ ∀ cb timeout, s'.bandwidthListeners.get cb = some timeout
        ↔ Asked (past ++ es) cb timeout := by
  induction es generalizing s past with
  | nil => exact ⟨s, rfl, h, by simpa using hasked⟩
  | cons e es ih =>
      obtain ⟨s₁, hstep, h₁⟩ := handle_ok h e
      have hasked₁ : ∀ cb timeout,
          s₁.bandwidthListeners.get cb = some timeout ↔ Asked (past ++ [e]) cb timeout := by
        intro cb timeout
        rw [get_handle hstep, asked_concat, hasked]
      obtain ⟨s', hrest, h', hasked'⟩ := ih h₁ hasked₁
      rw [List.append_assoc, List.singleton_append] at hasked'
      exact ⟨s', (foldlM_cons_ok hstep es).trans hrest, h', hasked'⟩

/-- **THE BANDWIDTH LOOP RUNS EXACTLY WHILE SOMEONE LISTENS.**  After any
sequence of events neither `check(looper == null)` nor `looper!!` has
failed, `looper` is set exactly if there are listeners, it is the only
active loop, and no loop has returned for want of them.  The listeners are
those whose last request was a start, each with the timeout it asked for. -/
theorem bandwidth_loop (es : List (Event κ)) :
    ∃ s : Binder κ, es.foldlM handle {} = .ok s ∧ RunsWhileHeard s
      ∧ (∀ i j, s.Active i → s.Active j → i = j)
      ∧ ∀ cb timeout, s.bandwidthListeners.get cb = some timeout ↔ Asked es cb timeout := by
  have hnobody : ∀ (cb : κ) (timeout : Int),
      ({} : Binder κ).bandwidthListeners.get cb = some timeout ↔ Asked [] cb timeout := by
    intro cb timeout
    refine iff_of_false (by rw [get_of_isEmpty rfl]; simp) ?_
    rintro ⟨before, after, hnil, -⟩
    exact absurd hnil (by simp)
  obtain ⟨s, hrun, h, hasked⟩ := foldlM_handle_ok es runsWhileHeard_new hnobody
  refine ⟨s, hrun, h, ?_, hasked⟩
  intro i j hi hj
  have hi := (h.active_iff i).mp hi
  have hj := (h.active_iff j).mp hj
  exact Option.some.inj (hi.symm.trans hj)

end Binder

end FoxVpn.Bg
