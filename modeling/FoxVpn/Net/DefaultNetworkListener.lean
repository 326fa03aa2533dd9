/-
  FoxVpn.Net.DefaultNetworkListener
  ─────────────────────────────────
  **THE NETWORK ACTOR.**

  `networkActor` serves six messages over a map of listeners, the current
  network and the requests that wait for one.  It registers the system
  callback when the map becomes non-empty and unregisters it when the map
  becomes empty again; both calls are counted, and listener invocations and
  completed requests are recorded.

  The actor is generic in its keys and networks.  `handle_balanced` is its
  accounting: at every moment register() is ahead of unregister() by one if
  somebody listens, and by nothing otherwise.

  A Get that finds no network waits for the next Put, and nothing but a Put
  ends the wait.  `served_along_iff`: no request is left behind by the last
  listener exactly if no Stop takes that listener away while one waits.
-/
import Mathlib.Data.List.Basic
import FoxVpn.Lib.Run

namespace FoxVpn.Net

open FoxVpn.Lib

variable {κ ν : Type}

/-- The messages of the actor. -/
inductive NetworkMessage (κ ν : Type) where
  | start (key : κ)
  /-- `Get`, with the number of its response. -/
  | get (response : Nat)
  | stop (key : κ)
  | put (network : ν)
  | update (network : ν)
  | lost (network : ν)
  deriving Repr, DecidableEq

/-- The local variables of the actor, and what it has done to the
outside. -/
structure NetworkActor (κ ν : Type) where
  /-- The keys of the map, in insertion order. -/
  listeners : List κ := []
  network : Option ν := none
  pendingRequests : List Nat := []
  registers : Nat := 0
  unregisters : Nat := 0
  /-- The listener calls made, and the responses completed. -/
  calls : List (κ × Option ν) := []
  responses : List (Nat × ν) := []
  /-- A failed `check` ends the actor. -/
  failed : Bool := false
  deriving Repr, DecidableEq

namespace NetworkActor

/-- `listeners.values.forEach { it(network) }`. -/
def notifyAll (a : NetworkActor κ ν) (network : Option ν) : NetworkActor κ ν :=
  { a with calls := a.calls ++ a.listeners.map fun key => (key, network) }

variable [DecidableEq κ]

def start (a : NetworkActor κ ν) (key : κ) : NetworkActor κ ν :=
  { a with
    registers := if a.listeners = [] then a.registers + 1 else a.registers
    listeners := if key ∈ a.listeners then a.listeners else a.listeners ++ [key]
    calls := if a.network.isSome then a.calls ++ [(key, a.network)] else a.calls }

def stop (a : NetworkActor κ ν) (key : κ) : NetworkActor κ ν :=
  if key ∈ a.listeners ∧ a.listeners.filter (· ≠ key) = [] then
    { a with listeners := [], network := none, unregisters := a.unregisters + 1 }
  else { a with listeners := a.listeners.filter (· ≠ key) }

/-- One message. -/
def handle [DecidableEq ν] (a : NetworkActor κ ν) : NetworkMessage κ ν → NetworkActor κ ν
  | .start key => a.start key
  | .get response =>
      if a.listeners = [] then { a with failed := true }
      else
        match a.network with
        | none => { a with pendingRequests := a.pendingRequests ++ [response] }
        | some n => { a with responses := a.responses ++ [(response, n)] }
  | .stop key => a.stop key
  | .put n =>
      notifyAll
        { a with
          network := some n
          responses := a.responses ++ a.pendingRequests.map fun r => (r, n)
          pendingRequests := [] } (some n)
  | .update n => if a.network = some n then a.notifyAll a.network else a
  | .lost n => if a.network = some n then notifyAll { a with network := none } none else a

/-! ## §1. Who listens. -/

theorem mem_start (a : NetworkActor κ ν) (key x : κ) :
    x ∈ (a.start key).listeners ↔ x = key ∨ x ∈ a.listeners := by
  show x ∈ (if key ∈ a.listeners then a.listeners else a.listeners ++ [key]) ↔ _
  split
  next hmem =>
    constructor
    · exact Or.inr
    · intro h
      rcases h with rfl | h
      · exact hmem
      · exact h
  next => rw [List.mem_append, List.mem_singleton, or_comm]

theorem stop_listeners (a : NetworkActor κ ν) (key : κ) :
    (a.stop key).listeners = a.listeners.filter (· ≠ key) := by
  unfold stop
  split
  next h => exact h.2.symm
  next => rfl

theorem mem_stop (a : NetworkActor κ ν) (key x : κ) :
    x ∈ (a.stop key).listeners ↔ x ∈ a.listeners ∧ x ≠ key := by
  rw [stop_listeners, List.mem_filter, decide_eq_true_iff]

/-- A Stop with a key the map does not hold changes nothing: the leak is
silent. -/
theorem stop_unknown {a : NetworkActor κ ν} {key : κ} (h : key ∉ a.listeners) :
    a.stop key = a := by
  have hrest : a.listeners.filter (· ≠ key) = a.listeners := by
    rw [List.filter_eq_self]
    intro x hx
    exact decide_eq_true fun hxk => h (hxk ▸ hx)
  unfold stop
  rw [if_neg fun hk => h hk.1, hrest]

variable [DecidableEq ν]

/-- Only Start and Stop touch the map and the registration. -/
theorem handle_frame (a : NetworkActor κ ν) {m : NetworkMessage κ ν}
    (hstart : ∀ key, m ≠ .start key) (hstop : ∀ key, m ≠ .stop key) :
    (a.handle m).listeners = a.listeners ∧ (a.handle m).registers = a.registers
      ∧ (a.handle m).unregisters = a.unregisters := by
  cases m with
  | start key => exact absurd rfl (hstart key)
  | stop key => exact absurd rfl (hstop key)
  | get r =>
      simp only [handle]
      split
      next => exact ⟨rfl, rfl, rfl⟩
      next => split <;> exact ⟨rfl, rfl, rfl⟩
  | put n => exact ⟨rfl, rfl, rfl⟩
  | update n => simp only [handle]; split <;> exact ⟨rfl, rfl, rfl⟩
  | lost n => simp only [handle]; split <;> exact ⟨rfl, rfl, rfl⟩

/-- A key stays until a Stop names it. -/
theorem mem_handle {a : NetworkActor κ ν} {m : NetworkMessage κ ν} {key : κ}
    (h : key ∈ a.listeners) (hm : m ≠ .stop key) : key ∈ (a.handle m).listeners := by
  cases m with
  | start k => exact (mem_start a k key).mpr (Or.inr h)
  | stop k => exact (mem_stop a k key).mpr ⟨h, fun he => hm (by rw [he])⟩
  | get r => rwa [(handle_frame a (by simp) (by simp)).1]
  | put n => rwa [(handle_frame a (by simp) (by simp)).1]
  | update n => rwa [(handle_frame a (by simp) (by simp)).1]
  | lost n => rwa [(handle_frame a (by simp) (by simp)).1]

/-- A key comes from a Start only. -/
theorem mem_of_mem_handle {a : NetworkActor κ ν} {m : NetworkMessage κ ν} {key : κ}
    (h : key ∈ (a.handle m).listeners) (hm : m ≠ .start key) : key ∈ a.listeners := by
  cases m with
  | start k =>
      rcases (mem_start a k key).mp h with he | h
      · exact absurd (by rw [he]) hm
      · exact h
  | stop k => exact ((mem_stop a k key).mp h).1
  | get r => rwa [(handle_frame a (by simp) (by simp)).1] at h
  | put n => rwa [(handle_frame a (by simp) (by simp)).1] at h
  | update n => rwa [(handle_frame a (by simp) (by simp)).1] at h
  | lost n => rwa [(handle_frame a (by simp) (by simp)).1] at h

/-! ## §2. The registration balance. -/

/-- The system callback is registered exactly while somebody listens. -/
def Balanced (a : NetworkActor κ ν) : Prop :=
  a.registers = a.unregisters + if a.listeners = [] then 0 else 1

omit [DecidableEq ν] in
theorem start_balanced {a : NetworkActor κ ν} (h : a.Balanced) (key : κ) :
    (a.start key).Balanced := by
  have hne : (a.start key).listeners ≠ [] :=
    List.ne_nil_of_mem ((mem_start a key key).mpr (Or.inl rfl))
  unfold Balanced at *
  rw [if_neg hne]
  show (if a.listeners = [] then a.registers + 1 else a.registers) = a.unregisters + 1
  split
  next hnil => rw [h, if_pos hnil]
  next hcons => rw [h, if_neg hcons]

omit [DecidableEq ν] in
theorem stop_balanced {a : NetworkActor κ ν} (h : a.Balanced) (key : κ) :
    (a.stop key).Balanced := by
  by_cases hk : key ∈ a.listeners
  · unfold Balanced at *
    rw [if_neg (List.ne_nil_of_mem hk)] at h
    unfold stop
    by_cases hrest : a.listeners.filter (· ≠ key) = []
    · rw [if_pos ⟨hk, hrest⟩]
      exact h
    · rw [if_neg fun hc => hrest hc.2]
      show a.registers = a.unregisters + if a.listeners.filter (· ≠ key) = [] then 0 else 1
      rw [if_neg hrest]
      exact h
  · rw [stop_unknown hk]
    exact h

omit [DecidableEq κ] [DecidableEq ν] in
theorem balanced_of_frame {a b : NetworkActor κ ν} (h : a.Balanced)
    (hf : b.listeners = a.listeners ∧ b.registers = a.registers
      ∧ b.unregisters = a.unregisters) : b.Balanced := by
  unfold Balanced at *
  rw [hf.1, hf.2.1, hf.2.2]
  exact h

/-- **Every message keeps the balance.** -/
theorem handle_balanced {a : NetworkActor κ ν} (h : a.Balanced) (m : NetworkMessage κ ν) :
    (a.handle m).Balanced := by
  cases m with
  | start key => exact start_balanced h key
  | stop key => exact stop_balanced h key
  | get r => exact balanced_of_frame h (handle_frame a (by simp) (by simp))
  | put n => exact balanced_of_frame h (handle_frame a (by simp) (by simp))
  | update n => exact balanced_of_frame h (handle_frame a (by simp) (by simp))
  | lost n => exact balanced_of_frame h (handle_frame a (by simp) (by simp))

/-! ## §3. What is handed out. -/

/-- **Whatever a message hands out is the network it leaves**: each listener
call passes it, each response completed gets it. -/
theorem handle_handsOut (a : NetworkActor κ ν) (m : NetworkMessage κ ν) :
    ∃ calls responses, (a.handle m).calls = a.calls ++ calls
      ∧ (a.handle m).responses = a.responses ++ responses
      ∧ (∀ c ∈ calls, c.2 = (a.handle m).network)
      ∧ ∀ r ∈ responses, (a.handle m).network = some r.2 := by
  have hnone : ∀ r ∈ ([] : List (Nat × ν)), a.network = some r.2 := by simp
  have hall : ∀ {ks : List κ} {v : Option ν}, ∀ c ∈ ks.map fun key => (key, v), c.2 = v := by
    intro ks v c hc
    obtain ⟨key, _, rfl⟩ := List.mem_map.mp hc
    rfl
  cases m with
  | start key =>
      by_cases hn : a.network.isSome = true
      · refine ⟨[(key, a.network)], [], if_pos hn, (List.append_nil _).symm, ?_, hnone⟩
        intro c hc
        rw [List.mem_singleton.mp hc]
        rfl
      · exact ⟨[], [], (if_neg hn).trans (List.append_nil _).symm, (List.append_nil _).symm,
          by simp, hnone⟩
  | get r =>
      simp only [handle]
      split
      next => exact ⟨[], [], (List.append_nil _).symm, (List.append_nil _).symm, by simp, hnone⟩
      next =>
        split
        next => exact ⟨[], [], (List.append_nil _).symm, (List.append_nil _).symm, by simp, by simp⟩
        next n hn =>
          refine ⟨[], [(r, n)], (List.append_nil _).symm, rfl, by simp, ?_⟩
          intro x hx
          rw [List.mem_singleton.mp hx]
          exact hn
  | stop key =>
      simp only [handle, stop]
      split
      next => exact ⟨[], [], (List.append_nil _).symm, (List.append_nil _).symm, by simp, by simp⟩
      next => exact ⟨[], [], (List.append_nil _).symm, (List.append_nil _).symm, by simp, hnone⟩
  | put n =>
      refine ⟨_, _, rfl, rfl, hall, ?_⟩
      intro x hx
      obtain ⟨r, _, rfl⟩ := List.mem_map.mp hx
      rfl
  | update n =>
      simp only [handle]
      split
      next => exact ⟨_, [], rfl, (List.append_nil _).symm, hall, hnone⟩
      next => exact ⟨[], [], (List.append_nil _).symm, (List.append_nil _).symm, by simp, hnone⟩
  | lost n =>
      simp only [handle]
      split
      next => exact ⟨_, [], rfl, (List.append_nil _).symm, hall, by simp⟩
      next => exact ⟨[], [], (List.append_nil _).symm, (List.append_nil _).symm, by simp, hnone⟩

/-- Only Get and Put touch the requests. -/
theorem handle_requests (a : NetworkActor κ ν) {m : NetworkMessage κ ν}
    (hget : ∀ r, m ≠ .get r) (hput : ∀ n, m ≠ .put n) :
    (a.handle m).pendingRequests = a.pendingRequests
      ∧ (a.handle m).responses = a.responses := by
  cases m with
  | get r => exact absurd rfl (hget r)
  | put n => exact absurd rfl (hput n)
  | start key => exact ⟨rfl, rfl⟩
  | stop key => simp only [handle, stop]; split <;> exact ⟨rfl, rfl⟩
  | update n => simp only [handle]; split <;> exact ⟨rfl, rfl⟩
  | lost n => simp only [handle]; split <;> exact ⟨rfl, rfl⟩

/-! ## §4. Requests that are never answered. -/

/-- A message the actor survives: a Get without a listener fails its
`check`, which ends the coroutine. -/
def accept (a : NetworkActor κ ν) (m : NetworkMessage κ ν) : Option (NetworkActor κ ν) :=
  match m with
  | .get _ => if a.listeners = [] then none else some (a.handle m)
  | _ => some (a.handle m)

theorem accept_spec {a a' : NetworkActor κ ν} {m : NetworkMessage κ ν}
    (h : a.accept m = some a') :
    a' = a.handle m ∧ ((∃ r, m = .get r) → a.listeners ≠ []) := by
  cases m with
  | get r =>
      simp only [accept] at h
      split at h
      next => exact absurd h (by simp)
      next hne => exact ⟨(Option.some.inj h).symm, fun _ => hne⟩
  | start key => exact ⟨(Option.some.inj h).symm, by simp⟩
  | stop key => exact ⟨(Option.some.inj h).symm, by simp⟩
  | put n => exact ⟨(Option.some.inj h).symm, by simp⟩
  | update n => exact ⟨(Option.some.inj h).symm, by simp⟩
  | lost n => exact ⟨(Option.some.inj h).symm, by simp⟩

/-- With the callback unregistered nobody waits for it. -/
def Served (a : NetworkActor κ ν) : Prop := a.listeners = [] → a.pendingRequests = []

/-- The Stop of the last listener. -/
def EndsListening (a : NetworkActor κ ν) : NetworkMessage κ ν → Prop
  | .stop key => key ∈ a.listeners ∧ a.listeners.filter (· ≠ key) = []
  | _ => False

instance (a : NetworkActor κ ν) : ∀ m : NetworkMessage κ ν, Decidable (a.EndsListening m)
  | .stop key => inferInstanceAs (Decidable (key ∈ a.listeners ∧ a.listeners.filter (· ≠ key) = []))
  | .start _ | .get _ | .put _ | .update _ | .lost _ => inferInstanceAs (Decidable False)

/-- No request waits when the last listener goes. -/
def InService (a : NetworkActor κ ν) (m : NetworkMessage κ ν) : Prop :=
  a.EndsListening m → a.pendingRequests = []

instance (a : NetworkActor κ ν) (m : NetworkMessage κ ν) : Decidable (a.InService m) :=
  inferInstanceAs (Decidable (_ → _))

/-- One message in service leaves nobody behind. -/
theorem served_accept {a a' : NetworkActor κ ν} {m : NetworkMessage κ ν} (hm : a.InService m)
    (h : a.accept m = some a') (hs : a.Served) : a'.Served := by
  obtain ⟨rfl, hget⟩ := accept_spec h
  intro hnil
  cases m with
  | start key =>
      have hmem : key ∈ (a.start key).listeners := (mem_start a key key).mpr (Or.inl rfl)
      exact absurd hnil (List.ne_nil_of_mem hmem)
  | get r =>
      rw [(handle_frame a (by simp) (by simp)).1] at hnil
      exact absurd hnil (hget ⟨r, rfl⟩)
  | stop key =>
      rw [(handle_requests a (by simp) (by simp)).1]
      by_cases hk : key ∈ a.listeners
      · -- the last listener goes, and the message is in service
        have hrest : a.listeners.filter (· ≠ key) = [] := by
          rw [← stop_listeners]
          exact hnil
        exact hm ⟨hk, hrest⟩
      · have hnil' : (a.stop key).listeners = [] := hnil
        rw [stop_unknown hk] at hnil'
        exact hs hnil'
  | put n => rfl
  | update n =>
      rw [(handle_frame a (by simp) (by simp)).1] at hnil
      rw [(handle_requests a (by simp) (by simp)).1]
      exact hs hnil
  | lost n =>
      rw [(handle_frame a (by simp) (by simp)).1] at hnil
      rw [(handle_requests a (by simp) (by simp)).1]
      exact hs hnil

/-- A Stop out of service leaves its requests behind. -/
theorem not_served_accept {a a' : NetworkActor κ ν} {m : NetworkMessage κ ν} (hm : ¬ a.InService m)
    (h : a.accept m = some a') : ¬ a'.Served := by
  obtain ⟨rfl, _⟩ := accept_spec h
  unfold InService at hm
  rw [Classical.not_imp] at hm
  obtain ⟨hends, hpending⟩ := hm
  cases m with
  | stop key =>
      intro hs
      have hnil : (a.stop key).listeners = [] := by
        rw [stop_listeners]
        exact hends.2
      have hnone := hs hnil
      rw [(handle_requests a (by simp) (by simp)).1] at hnone
      exact hpending hnone
  | _ => exact absurd hends (by simp [EndsListening])

/-- **When no request is orphaned**: along a run of the actor nobody is left
waiting without a listener exactly if no Stop takes the last listener away
while a request waits. -/
theorem served_along_iff (ms : List (NetworkMessage κ ν)) (a : NetworkActor κ ν)
    (hrun : exec accept {} ms = some a) :
    Along accept Served {} ms ↔ Meets accept InService ({} : NetworkActor κ ν) ms :=
  along_iff_meets (fun _ h => h) (fun _ _ _ hm h hs => served_accept hm h hs)
    (fun _ _ _ hm h _ => not_served_accept hm h) ms {} a (fun _ => rfl) hrun

/-- A request answered before its listener goes. -/
theorem served_along_answered :
    ∃ a : NetworkActor Nat Nat,
      exec accept {} [.start 0, .get 0, .put 7, .stop 0] = some a
        ∧ a.responses = [(0, 7)]
        ∧ Along accept Served ({} : NetworkActor Nat Nat) [.start 0, .get 0, .put 7, .stop 0] := by
  obtain ⟨a, hrun, htest⟩ := exists_of_exec_test (accept (κ := Nat) (ν := Nat)) {}
    [.start 0, .get 0, .put 7, .stop 0] (fun a => a.responses = [(0, 7)]) (by decide)
  exact ⟨a, hrun, of_decide_eq_true htest, (served_along_iff _ a hrun).mpr (by decide)⟩

/-- A service asks for a network before there is one and stops: the request
stays in the list, the callback is unregistered. -/
theorem request_orphaned :
    ∃ a : NetworkActor Nat Nat, exec accept {} [.start 0, .get 0, .stop 0] = some a
      ∧ a.registers = a.unregisters ∧ a.pendingRequests = [0] ∧ ¬ a.Served := by
  obtain ⟨a, hrun, htest⟩ := exists_of_exec_test (accept (κ := Nat) (ν := Nat)) {}
    [.start 0, .get 0, .stop 0]
    (fun a => a.registers = a.unregisters ∧ a.pendingRequests = [0] ∧ a.listeners = [])
    (by decide)
  obtain ⟨hreg, hpending, hnil⟩ := of_decide_eq_true htest
  refine ⟨a, hrun, hreg, hpending, fun hs => ?_⟩
  rw [hs hnil] at hpending
  exact absurd hpending (by simp)

end NetworkActor

end FoxVpn.Net
