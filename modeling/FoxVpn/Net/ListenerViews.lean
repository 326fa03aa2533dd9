/-
  FoxVpn.Net.ListenerViews
  ────────────────────────
  **WHAT THE LISTENERS AND THE REQUESTS HAVE SEEN.**

  `FoxVpn.Net.DefaultNetworkListener` knows the keys of the listener map.
  Here the map has its VALUES too: a Start brings a function, every call of
  the actor goes to the function its map holds at that moment, and the calls
  are kept.  Requests are numbered in the order in which they arrive.

  A function that is not in the map is not told anything, and a Start tells
  it nothing while there is no network.  So a function that is registered a
  SECOND time may still hold the network of its first registration
  (`view_outdated`).

  Main result `views_consistent`: after every message of every run, what a
  registered listener has been passed SINCE ITS START is the network of the
  actor; every request is pending or answered exactly once, with the network
  of that moment; and a pending request came while there was no network, and
  no Put has come since.
-/
import FoxVpn.Net.DefaultNetworkListener
import Mathlib.Logic.Function.Basic
import Mathlib.Data.List.Perm.Basic
import Mathlib.Data.List.Induction
import Mathlib.Data.List.Nodup

namespace FoxVpn.Net

open FoxVpn.Lib

variable {κ φ ν : Type}

/-! ## §1. The map with its functions. -/

/-- The messages as their senders make them. -/
inductive Request (κ φ ν : Type) where
  | start (key : κ) (listener : φ)
  | get
  | stop (key : κ)
  | put (network : ν)
  | update (network : ν)
  | lost (network : ν)
  deriving Repr, DecidableEq

/-- A function, and the number of the Start that brought it. -/
structure Registration (φ : Type) where
  number : Nat
  listener : φ
  deriving Repr, DecidableEq

structure Views (κ φ ν : Type) where
  actor : NetworkActor κ ν := {}
  /-- The values of the map `listeners`. -/
  listener : κ → Option (Registration φ) := fun _ => none
  starts : Nat := 0
  gets : Nat := 0
  /-- The listener calls, in order. -/
  passed : List (Registration φ × Option ν) := []

namespace Views

def message (v : Views κ φ ν) : Request κ φ ν → NetworkMessage κ ν
  | .start key _ => .start key
  | .get => .get v.gets
  | .stop key => .stop key
  | .put n => .put n
  | .update n => .update n
  | .lost n => .lost n

/-- The last value passed to a function with `p`, null if there was no
call. -/
def lastPassed (p : Registration φ → Bool) (passed : List (Registration φ × Option ν)) :
    Option ν :=
  ((passed.filter fun c => p c.1).getLast?).bind Prod.snd

variable [DecidableEq κ] [DecidableEq ν]

/-- `listeners[message.key] = message.listener`, `listeners.remove(key)`. -/
def listenerAfter (v : Views κ φ ν) : Request κ φ ν → κ → Option (Registration φ)
  | .start key f => Function.update v.listener key (some ⟨v.starts, f⟩)
  | .stop key => Function.update v.listener key none
  | _ => v.listener

/-- One message the actor survives. -/
def take (v : Views κ φ ν) (r : Request κ φ ν) : Option (Views κ φ ν) :=
  (v.actor.accept (v.message r)).map fun actor =>
    { actor
      listener := v.listenerAfter r
      starts := match r with
        | .start _ _ => v.starts + 1
        | _ => v.starts
      gets := match r with
        | .get => v.gets + 1
        | _ => v.gets
      passed := v.passed ++ (actor.calls.drop v.actor.calls.length).filterMap
        fun c => (v.listenerAfter r c.1).map fun reg => (reg, c.2) }

theorem take_spec {v v' : Views κ φ ν} {r : Request κ φ ν} (h : v.take r = some v') :
    v'.actor = v.actor.handle (v.message r)
      ∧ ((∃ g, v.message r = .get g) → v.actor.listeners ≠ [])
      ∧ v'.listener = v.listenerAfter r
      ∧ v'.passed = v.passed ++ (v'.actor.calls.drop v.actor.calls.length).filterMap
          fun c => (v.listenerAfter r c.1).map fun reg => (reg, c.2) := by
  unfold take at h
  obtain ⟨a, ha, rfl⟩ := Option.map_eq_some_iff.mp h
  obtain ⟨hhandle, hget⟩ := NetworkActor.accept_spec ha
  exact ⟨hhandle, hget, rfl, rfl⟩

/-! ## §2. The last value passed. -/

omit [DecidableEq κ] [DecidableEq ν] in
/-- Calls that all pass `x` leave `x` as the last value, if it was that
before or if one of them is counted. -/
theorem lastPassed_append {p : Registration φ → Bool}
    {passed new : List (Registration φ × Option ν)} {x : Option ν} (hnew : ∀ c ∈ new, c.2 = x)
    (h : lastPassed p passed = x ∨ ∃ c ∈ new, p c.1 = true) :
    lastPassed p (passed ++ new) = x := by
  unfold lastPassed at *
  rw [List.filter_append, List.getLast?_append]
  cases hlast : (new.filter fun c => p c.1).getLast? with
  | none =>
      have hnil := List.getLast?_eq_none_iff.mp hlast
      rcases h with h | ⟨c, hc, hp⟩
      · exact h
      · have hmem : c ∈ new.filter fun c => p c.1 := List.mem_filter.mpr ⟨hc, hp⟩
        rw [hnil] at hmem
        exact absurd hmem List.not_mem_nil
  | some c =>
      have hmem := List.mem_of_getLast? hlast
      exact hnew c (List.mem_filter.mp hmem).1

omit [DecidableEq κ] [DecidableEq ν] in
theorem lastPassed_eq_none {p : Registration φ → Bool}
    {passed : List (Registration φ × Option ν)} (h : ∀ c ∈ passed, p c.1 = false) :
    lastPassed p passed = none := by
  unfold lastPassed
  rw [List.filter_eq_nil_iff.mpr fun c hc => by rw [h c hc]; exact Bool.false_ne_true]
  rfl

/-! ## §3. The views. -/

variable [DecidableEq φ]

structure Inv (v : Views κ φ ν) : Prop where
  entry : ∀ key, key ∈ v.actor.listeners ↔ (v.listener key).isSome = true
  numbers : ∀ key r, v.listener key = some r → r.number < v.starts
  passed : ∀ c ∈ v.passed, c.1.number < v.starts
  view : ∀ key r, v.listener key = some r →
    lastPassed (fun r' => r' = r) v.passed = v.actor.network
  requests : (v.actor.pendingRequests ++ v.actor.responses.map Prod.fst).Perm (List.range v.gets)

omit [DecidableEq κ] [DecidableEq ν] in
theorem inv_new : Inv ({} : Views κ φ ν) where
  entry key := by simp
  numbers key r h := absurd h (by simp)
  passed c h := absurd h (by simp)
  view key r h := absurd h (by simp)
  requests := List.Perm.refl _

section Step

variable {v v' : Views κ φ ν} {r : Request κ φ ν}

omit [DecidableEq φ] in
theorem take_starts (ht : v.take r = some v') : v.starts ≤ v'.starts := by
  unfold take at ht
  obtain ⟨a, _, rfl⟩ := Option.map_eq_some_iff.mp ht
  cases r with
  | start key f => exact Nat.le_succ _
  | _ => exact Nat.le_refl _

theorem Inv.entry_take (h : v.Inv) (ht : v.take r = some v') (key : κ) :
    key ∈ v'.actor.listeners ↔ (v'.listener key).isSome = true := by
  obtain ⟨ha, _, hl, _⟩ := take_spec ht
  rw [ha, hl]
  cases r with
  | start k f =>
      show key ∈ (v.actor.start k).listeners ↔ (Function.update v.listener k _ key).isSome = true
      rw [NetworkActor.mem_start]
      by_cases hk : key = k
      · rw [hk, Function.update_self]
        simp
      · rw [Function.update_of_ne hk, ← h.entry key]
        simp [hk]
  | stop k =>
      show key ∈ (v.actor.stop k).listeners ↔ (Function.update v.listener k _ key).isSome = true
      rw [NetworkActor.mem_stop]
      by_cases hk : key = k
      · rw [hk, Function.update_self]
        simp
      · rw [Function.update_of_ne hk, ← h.entry key]
        simp [hk]
  | get => rw [(NetworkActor.handle_frame v.actor (by simp [message]) (by simp [message])).1]
           exact h.entry key
  | put n => rw [(NetworkActor.handle_frame v.actor (by simp [message]) (by simp [message])).1]
             exact h.entry key
  | update n => rw [(NetworkActor.handle_frame v.actor (by simp [message]) (by simp [message])).1]
                exact h.entry key
  | lost n => rw [(NetworkActor.handle_frame v.actor (by simp [message]) (by simp [message])).1]
              exact h.entry key

theorem Inv.numbers_take (h : v.Inv) (ht : v.take r = some v') {key : κ} {reg : Registration φ}
    (hreg : v'.listener key = some reg) : reg.number < v'.starts := by
  have hle := take_starts ht
  unfold take at ht
  obtain ⟨a, _, rfl⟩ := Option.map_eq_some_iff.mp ht
  have hreg' : v.listenerAfter r key = some reg := hreg
  cases r with
  | start k f =>
      simp only [listenerAfter] at hreg'
      by_cases hk : key = k
      · rw [hk, Function.update_self] at hreg'
        rw [← Option.some.inj hreg']
        exact Nat.lt_succ_self _
      · rw [Function.update_of_ne hk] at hreg'
        exact Nat.lt_of_lt_of_le (h.numbers key reg hreg') hle
  | stop k =>
      simp only [listenerAfter] at hreg'
      by_cases hk : key = k
      · rw [hk, Function.update_self] at hreg'
        exact absurd hreg' (by simp)
      · rw [Function.update_of_ne hk] at hreg'
        exact h.numbers key reg hreg'
  | get => exact h.numbers key reg hreg'
  | put n => exact h.numbers key reg hreg'
  | update n => exact h.numbers key reg hreg'
  | lost n => exact h.numbers key reg hreg'

theorem Inv.passed_take (h : v.Inv) (ht : v.take r = some v') {c : Registration φ × Option ν}
    (hc : c ∈ v'.passed) : c.1.number < v'.starts := by
  obtain ⟨_, _, hl, hpassed⟩ := take_spec ht
  rw [hpassed] at hc
  rcases List.mem_append.mp hc with hc | hc
  · exact Nat.lt_of_lt_of_le (h.passed c hc) (take_starts ht)
  · obtain ⟨⟨key, x⟩, _, hmap⟩ := List.mem_filterMap.mp hc
    obtain ⟨reg, hreg, rfl⟩ := Option.map_eq_some_iff.mp hmap
    rw [← hl] at hreg
    exact h.numbers_take ht hreg

/-- A key of the map whose function has the network already, or is called
with it by this message. -/
theorem Inv.view_or_called (h : v.Inv) (ht : v.take r = some v') {key : κ}
    {reg : Registration φ} (hreg : v.listenerAfter r key = some reg) :
    lastPassed (fun r' => r' = reg) v.passed = v'.actor.network
      ∨ ∃ x, (key, x) ∈ v'.actor.calls.drop v.actor.calls.length := by
  obtain ⟨ha, _⟩ := take_spec ht
  rw [ha]
  -- a key of the old map, whose function is called with the others
  have hall : ∀ (b : NetworkActor κ ν) (x : Option ν), b.calls = v.actor.calls →
      b.listeners = v.actor.listeners → v.listener key = some reg →
      ∃ y, (key, y) ∈ (b.notifyAll x).calls.drop v.actor.calls.length := by
    intro b x hcalls hlisteners hold
    refine ⟨x, ?_⟩
    rw [show (b.notifyAll x).calls = v.actor.calls ++ v.actor.listeners.map fun k => (k, x) by
      rw [← hcalls, ← hlisteners]; rfl, List.drop_left]
    exact List.mem_map.mpr ⟨key, (h.entry key).mpr (by rw [hold]; rfl), rfl⟩
  cases r with
  | start k f =>
      simp only [listenerAfter] at hreg
      by_cases hk : key = k
      · subst hk
        rw [Function.update_self] at hreg
        -- the number of the new registration is in no call yet
        have hfresh : lastPassed (fun r' => r' = reg) v.passed = none := by
          refine lastPassed_eq_none fun c hc => decide_eq_false fun hce => ?_
          have hlt := h.passed c hc
          rw [hce, ← Option.some.inj hreg] at hlt
          exact absurd hlt (Nat.lt_irrefl _)
        by_cases hn : v.actor.network.isSome = true
        · refine Or.inr ⟨v.actor.network, ?_⟩
          rw [show (v.actor.handle (v.message (.start key f))).calls
            = v.actor.calls ++ [(key, v.actor.network)] from if_pos hn, List.drop_left]
          exact List.mem_singleton.mpr rfl
        · left
          rw [hfresh]
          exact (Option.not_isSome_iff_eq_none.mp hn).symm
      · rw [Function.update_of_ne hk] at hreg
        exact Or.inl (h.view key reg hreg)
  | stop k =>
      simp only [listenerAfter] at hreg
      by_cases hk : key = k
      · rw [hk, Function.update_self] at hreg
        exact absurd hreg (by simp)
      · rw [Function.update_of_ne hk] at hreg
        left
        rw [h.view key reg hreg]
        -- the key stays, so this is not the Stop of the last listener
        have hmem : key ∈ v.actor.listeners.filter (· ≠ k) :=
          List.mem_filter.mpr ⟨(h.entry key).mpr (by rw [hreg]; rfl), decide_eq_true hk⟩
        show _ = (v.actor.stop k).network
        unfold NetworkActor.stop
        rw [if_neg fun hc => absurd hc.2 (List.ne_nil_of_mem hmem)]
  | get =>
      left
      rw [h.view key reg hreg]
      simp only [message, NetworkActor.handle]
      split
      next => rfl
      next => split <;> rfl
  | put n => exact Or.inr (hall _ (some n) rfl rfl hreg)
  | update n =>
      left
      rw [h.view key reg hreg]
      simp only [message, NetworkActor.handle]
      split <;> rfl
  | lost n =>
      simp only [message, NetworkActor.handle]
      split
      next => exact Or.inr (hall _ none rfl rfl hreg)
      next => exact Or.inl (h.view key reg hreg)

theorem Inv.view_take (h : v.Inv) (ht : v.take r = some v') {key : κ} {reg : Registration φ}
    (hreg : v'.listener key = some reg) :
    lastPassed (fun r' => r' = reg) v'.passed = v'.actor.network := by
  obtain ⟨ha, _, hl, hpassed⟩ := take_spec ht
  rw [hl] at hreg
  have hvalue : ∀ c ∈ v'.actor.calls.drop v.actor.calls.length, c.2 = v'.actor.network := by
    obtain ⟨calls, _, hcalls, _, hc, _⟩ := NetworkActor.handle_handsOut v.actor (v.message r)
    rw [ha, hcalls, List.drop_left]
    exact hc
  rw [hpassed]
  refine lastPassed_append (fun c hc => ?_) ?_
  · obtain ⟨⟨key', x⟩, hmem, hmap⟩ := List.mem_filterMap.mp hc
    obtain ⟨_, _, rfl⟩ := Option.map_eq_some_iff.mp hmap
    exact hvalue _ hmem
  · rcases h.view_or_called ht hreg with hview | ⟨x, hmem⟩
    · exact Or.inl hview
    · refine Or.inr ⟨(reg, x), List.mem_filterMap.mpr ⟨(key, x), hmem, ?_⟩, decide_eq_true rfl⟩
      rw [hreg]
      rfl

/-! ## §4. The requests. -/

omit [DecidableEq φ] in
/-- A Get waits if there is no network, and is answered otherwise. -/
theorem take_get (ht : v.take .get = some v') :
    v'.gets = v.gets + 1
      ∧ ((v.actor.network = none
          ∧ v'.actor.pendingRequests = v.actor.pendingRequests ++ [v.gets]
          ∧ v'.actor.responses = v.actor.responses)
        ∨ (v'.actor.pendingRequests = v.actor.pendingRequests
          ∧ ∃ n, v'.actor.responses = v.actor.responses ++ [(v.gets, n)])) := by
  obtain ⟨ha, hne, _⟩ := take_spec ht
  have hgets : v'.gets = v.gets + 1 := by
    unfold take at ht
    obtain ⟨a, _, rfl⟩ := Option.map_eq_some_iff.mp ht
    rfl
  refine ⟨hgets, ?_⟩
  rw [ha]
  simp only [message, NetworkActor.handle]
  rw [if_neg (hne ⟨_, rfl⟩)]
  split
  next hn => exact Or.inl ⟨hn, rfl, rfl⟩
  next n hn => exact Or.inr ⟨rfl, n, rfl⟩

omit [DecidableEq φ] in
/-- Any other message numbers no request; a Put answers all, the rest
none. -/
theorem take_not_get (ht : v.take r = some v') (hr : r ≠ .get) :
    v'.gets = v.gets
      ∧ ((v'.actor.pendingRequests = v.actor.pendingRequests
          ∧ v'.actor.responses = v.actor.responses ∧ ∀ n, r ≠ .put n)
        ∨ ∃ n, v'.actor.pendingRequests = []
          ∧ v'.actor.responses
            = v.actor.responses ++ v.actor.pendingRequests.map fun g => (g, n)) := by
  obtain ⟨ha, _⟩ := take_spec ht
  have hgets : v'.gets = v.gets := by
    unfold take at ht
    obtain ⟨a, _, rfl⟩ := Option.map_eq_some_iff.mp ht
    cases r with
    | get => exact absurd rfl hr
    | _ => rfl
  refine ⟨hgets, ?_⟩
  rw [ha]
  cases r with
  | get => exact absurd rfl hr
  | put n => exact Or.inr ⟨n, rfl, rfl⟩
  | start k f =>
      have hreq := NetworkActor.handle_requests v.actor (m := .start k) (by simp) (by simp)
      exact Or.inl ⟨hreq.1, hreq.2, by simp⟩
  | stop k =>
      have hreq := NetworkActor.handle_requests v.actor (m := .stop k) (by simp) (by simp)
      exact Or.inl ⟨hreq.1, hreq.2, by simp⟩
  | update n =>
      have hreq := NetworkActor.handle_requests v.actor (m := .update n) (by simp) (by simp)
      exact Or.inl ⟨hreq.1, hreq.2, by simp⟩
  | lost n =>
      have hreq := NetworkActor.handle_requests v.actor (m := .lost n) (by simp) (by simp)
      exact Or.inl ⟨hreq.1, hreq.2, by simp⟩

theorem Inv.requests_take (h : v.Inv) (ht : v.take r = some v') :
    (v'.actor.pendingRequests ++ v'.actor.responses.map Prod.fst).Perm (List.range v'.gets) := by
  by_cases hr : r = .get
  · subst hr
    obtain ⟨hgets, hcase⟩ := take_get ht
    rw [hgets, List.range_succ]
    rcases hcase with ⟨_, hp, hresp⟩ | ⟨hp, n, hresp⟩
    · rw [hp, hresp, List.append_assoc]
      refine (List.perm_append_comm.append_left _).trans ?_
      rw [← List.append_assoc]
      exact h.requests.append_right _
    · rw [hp, hresp, List.map_append, ← List.append_assoc]
      exact h.requests.append_right _
  · obtain ⟨hgets, hcase⟩ := take_not_get ht hr
    rw [hgets]
    rcases hcase with ⟨hp, hresp, _⟩ | ⟨n, hp, hresp⟩
    · rw [hp, hresp]
      exact h.requests
    · rw [hp, hresp, List.nil_append, List.map_append, List.map_map]
      rw [show (Prod.fst ∘ fun g : Nat => (g, n)) = id from rfl, List.map_id]
      exact List.perm_append_comm.trans h.requests

/-- **One message keeps the invariant.** -/
theorem inv_take (ht : v.take r = some v') (h : v.Inv) : v'.Inv where
  entry := h.entry_take ht
  numbers _ _ := h.numbers_take ht
  passed _ := h.passed_take ht
  view _ _ := h.view_take ht
  requests := h.requests_take ht

end Step

/-- The Get number `g` came while there was no network, and no Put has come
since. -/
def Waiting (rs : List (Request κ φ ν)) (g : Nat) : Prop :=
  ∃ before after w, rs = before ++ .get :: after ∧ exec take {} before = some w
    ∧ w.gets = g ∧ w.actor.network = none ∧ ∀ n, .put n ∉ after

omit [DecidableEq φ] in
theorem Waiting.concat {rs : List (Request κ φ ν)} {g : Nat} (h : Waiting rs g)
    {r : Request κ φ ν} (hr : ∀ n, r ≠ .put n) : Waiting (rs ++ [r]) g := by
  obtain ⟨before, after, w, hsplit, hw, hg, hn, hafter⟩ := h
  refine ⟨before, after ++ [r], w, ?_, hw, hg, hn, fun n hmem => ?_⟩
  · rw [hsplit, List.append_assoc]
    rfl
  · rcases List.mem_append.mp hmem with hmem | hmem
    · exact hafter n hmem
    · exact hr n (List.mem_singleton.mp hmem).symm

omit [DecidableEq φ] in
/-- Along a run, by induction from its end. -/
theorem waiting_of_pending (rs : List (Request κ φ ν)) :
    ∀ v, exec take {} rs = some v → ∀ g ∈ v.actor.pendingRequests, Waiting rs g := by
  induction rs using List.reverseRecOn with
  | nil =>
      intro v hrun g hg
      rw [← Option.some.inj hrun] at hg
      exact absurd hg List.not_mem_nil
  | append_singleton rs r ih =>
      intro v' hrun g hg
      obtain ⟨v, hv, ht⟩ := exec_concat.mp hrun
      by_cases hr : r = .get
      · subst hr
        rcases (take_get ht).2 with ⟨hn, hp, _⟩ | ⟨hp, _⟩
        · rw [hp] at hg
          rcases List.mem_append.mp hg with hg | hg
          · exact (ih v hv g hg).concat (by simp)
          · exact ⟨rs, [], v, rfl, hv, (List.mem_singleton.mp hg).symm, hn, by simp⟩
        · rw [hp] at hg
          exact (ih v hv g hg).concat (by simp)
      · rcases (take_not_get ht hr).2 with ⟨hp, _, hput⟩ | ⟨n, hp, _⟩
        · rw [hp] at hg
          exact (ih v hv g hg).concat hput
        · rw [hp] at hg
          exact absurd hg List.not_mem_nil

omit [DecidableEq κ] [DecidableEq ν] in
/-- A request is pending, or answered exactly once. -/
theorem Inv.answered {v : Views κ φ ν} (h : v.Inv) (g : Nat) :
    (v.actor.responses.map Prod.fst).count g
      = if g < v.gets ∧ g ∉ v.actor.pendingRequests then 1 else 0 := by
  have hsum := h.requests.count_eq g
  rw [List.count_append] at hsum
  have hnodup := List.nodup_iff_count_le_one.mp (List.nodup_range (n := v.gets)) g
  by_cases hlt : g < v.gets
  · have hone : (List.range v.gets).count g = 1 := by
      have hpos := List.count_pos_iff.mpr (List.mem_range.mpr hlt)
      omega
    by_cases hp : g ∈ v.actor.pendingRequests
    · have hpos := List.count_pos_iff.mpr hp
      rw [if_neg fun hc => hc.2 hp]
      omega
    · have hzero := List.count_eq_zero.mpr hp
      rw [if_pos ⟨hlt, hp⟩]
      omega
  · have hzero : (List.range v.gets).count g = 0 :=
      List.count_eq_zero.mpr fun hmem => hlt (List.mem_range.mp hmem)
    rw [if_neg fun hc => hlt hc.1]
    omega

/-! ## §5. After every message. -/

/-- **THE ACTOR AND ITS CALLERS AGREE**, after every message `r` of every
run in which a Get comes only while somebody listens: a registered listener
has been passed the network since its Start; a request has been answered
exactly once unless it is pending; what `r` has answered was answered with
the network; a pending request found no network, and no Put has come
since. -/
theorem views_consistent {rs : List (Request κ φ ν)} {r : Request κ φ ν} {v v' : Views κ φ ν}
    (hrun : exec take {} rs = some v) (ht : v.take r = some v') :
    (∀ key ∈ v'.actor.listeners, ∃ reg, v'.listener key = some reg
        ∧ lastPassed (fun r' => r' = reg) v'.passed = v'.actor.network)
      ∧ (∀ g, (v'.actor.responses.map Prod.fst).count g
        = if g < v'.gets ∧ g ∉ v'.actor.pendingRequests then 1 else 0)
      ∧ (∃ answered, v'.actor.responses = v.actor.responses ++ answered
        ∧ ∀ x ∈ answered, v'.actor.network = some x.2)
      ∧ ∀ g ∈ v'.actor.pendingRequests, Waiting (rs ++ [r]) g := by
  have hinv := exec_invariant_all (fun _ _ _ ht h => inv_take ht h) rs {} v inv_new hrun
  have hinv' := inv_take ht hinv
  refine ⟨fun key hkey => ?_, hinv'.answered, ?_, ?_⟩
  · obtain ⟨reg, hreg⟩ := Option.isSome_iff_exists.mp ((hinv'.entry key).mp hkey)
    exact ⟨reg, hreg, hinv'.view key reg hreg⟩
  · obtain ⟨_, responses, _, hresponses, _, hvalue⟩ :=
      NetworkActor.handle_handsOut v.actor (v.message r)
    rw [(take_spec ht).1]
    exact ⟨responses, hresponses, hvalue⟩
  · exact waiting_of_pending _ v' (exec_concat.mpr ⟨v, hrun, ht⟩)

/-- A listener is replaced and told, a request waits and is answered. -/
theorem views_consistent_replaced :
    ∃ v v' : Views Nat Nat Nat,
      exec take {} [.start 0 10, .put 7, .start 0 11, .lost 7, .get] = some v
        ∧ v.actor.pendingRequests = [0] ∧ v.take (.put 8) = some v'
        ∧ v'.passed.length = 4
        ∧ (∃ reg, v'.listener 0 = some reg
          ∧ lastPassed (fun r' => r' = reg) v'.passed = v'.actor.network)
        ∧ (v'.actor.responses.map Prod.fst).count 0 = 1 := by
  obtain ⟨v, v', hv, hpending, ht, hlength, hmap, hgets⟩ : ∃ v v' : Views Nat Nat Nat,
      exec take {} [.start 0 10, .put 7, .start 0 11, .lost 7, .get] = some v
        ∧ v.actor.pendingRequests = [0] ∧ v.take (.put 8) = some v' ∧ v'.passed.length = 4
        ∧ v'.actor.listeners = [0] ∧ (v'.gets = 1 ∧ v'.actor.pendingRequests = []) :=
    ⟨_, _, rfl, rfl, rfl, rfl, rfl, rfl, rfl⟩
  obtain ⟨hview, hcount, _, _⟩ := views_consistent hv ht
  refine ⟨v, v', hv, hpending, ht, hlength, hview 0 (by rw [hmap]; simp), ?_⟩
  rw [hcount 0, hgets.1, hgets.2]
  simp

/-- The same function, registered a second time: it has last been passed a
network that the actor no longer has. -/
theorem view_outdated :
    ∃ v : Views Nat Nat Nat, exec take {} [.start 0 10, .put 7, .stop 0, .start 0 10] = some v
      ∧ v.actor.listeners = [0] ∧ v.listener 0 = some ⟨1, 10⟩ ∧ v.actor.network = none
      ∧ lastPassed (fun reg => reg.listener = 10) v.passed = some 7 :=
  ⟨_, rfl, rfl, rfl, rfl, rfl⟩

end Views

end FoxVpn.Net
