/-
  FoxVpn.Net.ConnectivityThread
  ─────────────────────────────
  **THE ACTOR AND THE THREAD THAT REPORTS NETWORKS.**

  The system callback runs on one thread.  Each of its methods sends one
  message and BLOCKS until the actor has taken it (`runBlocking` around a
  rendezvous `send`), so at most one report is on its way at any time:

      callback c     the thread enters a method; the callback is registered
      deliver        the actor takes the report
      message m      the actor takes a message of a service

  unregister() does not recall a report that is already being sent.  The
  actor takes it after the Stop and keeps its network; the next Start hands
  it out (`network_stale`).

  Main result `noStale_along_iff`: every network handed out is one of the
  current registration, not lost since, exactly in the runs in which no
  `onAvailable` is taken after the unregister() that ended its
  registration.
-/
import FoxVpn.Net.DefaultNetworkListener

namespace FoxVpn.Net

open FoxVpn.Lib

variable {κ ν : Type}

/-! ## §1. The two together. -/

/-- The methods of `NetworkCallback` the code overrides. -/
inductive NetworkCallback (ν : Type) where
  | onAvailable (network : ν)
  | onCapabilitiesChanged (network : ν)
  | onLost (network : ν)
  deriving Repr, DecidableEq

def NetworkCallback.message : NetworkCallback ν → NetworkMessage κ ν
  | .onAvailable n => .put n
  | .onCapabilitiesChanged n => .update n
  | .onLost n => .lost n

/-- A message a service sends. -/
def NetworkMessage.ofService : NetworkMessage κ ν → Bool
  | .start _ | .get _ | .stop _ => true
  | .put _ | .update _ | .lost _ => false

structure Connectivity (κ ν : Type) where
  actor : NetworkActor κ ν := {}
  /-- The report the thread is sending, with the number of register() calls
  made before it began to. -/
  sending : Option (NetworkCallback ν × Nat) := none
  /-- The reports the actor has taken. -/
  received : List (NetworkCallback ν × Nat) := []
  /-- The networks handed out by the last step. -/
  handed : List ν := []
  deriving Repr, DecidableEq

namespace Connectivity

inductive Label (κ ν : Type) where
  | message (m : NetworkMessage κ ν)
  | callback (c : NetworkCallback ν)
  | deliver
  deriving Repr, DecidableEq

/-- The networks passed to listeners and responses between two states. -/
def handedBetween (a a' : NetworkActor κ ν) : List ν :=
  (a'.calls.drop a.calls.length).filterMap Prod.snd
    ++ (a'.responses.drop a.responses.length).map Prod.snd

variable [DecidableEq κ] [DecidableEq ν]

/-- The actor takes a message. -/
def take (s : Connectivity κ ν) (m : NetworkMessage κ ν) : Connectivity κ ν :=
  { s with actor := s.actor.handle m, handed := handedBetween s.actor (s.actor.handle m) }

def step (s : Connectivity κ ν) : Label κ ν → Option (Connectivity κ ν)
  | .message m =>
      if s.actor.failed = false ∧ m.ofService = true then some (s.take m) else none
  | .callback c =>
      if s.sending = none ∧ s.actor.unregisters < s.actor.registers then
        some { s with sending := some (c, s.actor.registers), handed := [] }
      else none
  | .deliver =>
      match s.sending with
      | none => none
      | some (c, k) =>
          if s.actor.failed = false then
            some { s.take c.message with sending := none, received := s.received ++ [(c, k)] }
          else none

/-! ## §2. What must not be handed out. -/

/-- `n` was reported by an `onAvailable` that began after the last
register() call, and no `onLost` of it has been taken since. -/
def Reported (s : Connectivity κ ν) (n : ν) : Prop :=
  ∃ before after k, s.received = before ++ (.onAvailable n, k) :: after
    ∧ s.actor.registers ≤ k ∧ ∀ e ∈ after, e.1 ≠ .onLost n

/-- **No stale network**: neither handed out by the last step, nor kept
while nobody listens. -/
structure NoStale (s : Connectivity κ ν) : Prop where
  handed : ∀ n ∈ s.handed, s.Reported n
  idle : s.actor.listeners = [] → s.actor.network = none

/-- An `onAvailable` is taken before the registration it was sent under has
ended. -/
def InTime (s : Connectivity κ ν) (l : Label κ ν) : Prop :=
  match l, s.sending with
  | .deliver, some (.onAvailable _, k) =>
      k = s.actor.registers ∧ s.actor.unregisters < s.actor.registers
  | _, _ => True

instance (s : Connectivity κ ν) (l : Label κ ν) : Decidable (s.InTime l) :=
  match l, hs : s.sending with
  | .deliver, some (.onAvailable _, k) =>
      decidable_of_iff (k = s.actor.registers ∧ s.actor.unregisters < s.actor.registers)
        (by unfold InTime; rw [hs])
  | .deliver, some (.onCapabilitiesChanged _, _) => isTrue (by unfold InTime; rw [hs]; trivial)
  | .deliver, some (.onLost _, _) => isTrue (by unfold InTime; rw [hs]; trivial)
  | .deliver, none => isTrue (by unfold InTime; rw [hs]; trivial)
  | .message _, _ => isTrue trivial
  | .callback _, _ => isTrue trivial

/-! ## §3. The invariant. -/

structure Inv (s : Connectivity κ ν) : Prop where
  network : ∀ n, s.actor.network = some n → s.Reported n
  idle : s.actor.listeners = [] → s.actor.network = none
  handed : ∀ n ∈ s.handed, s.Reported n
  balanced : s.actor.Balanced
  /-- The thread is blocked: what it is sending comes after whatever the
  actor has taken. -/
  sending : ∀ c k, s.sending = some (c, k) → k ≤ s.actor.registers ∧ ∀ e ∈ s.received, e.2 ≤ k
  received : ∀ e ∈ s.received, e.2 ≤ s.actor.registers

omit [DecidableEq κ] [DecidableEq ν] in
theorem inv_new : Inv ({} : Connectivity κ ν) where
  network n hn := absurd hn (by simp)
  idle _ := rfl
  handed n hn := absurd hn (by simp)
  balanced := rfl
  sending c k hc := absurd hc (by simp)
  received e he := absurd he (by simp)

omit [DecidableEq κ] [DecidableEq ν] in
/-- The registration is open exactly while somebody listens. -/
theorem Inv.open_iff {s : Connectivity κ ν} (h : s.Inv) :
    s.actor.unregisters < s.actor.registers ↔ s.actor.listeners ≠ [] := by
  have hbal := h.balanced
  unfold NetworkActor.Balanced at hbal
  by_cases hnil : s.actor.listeners = []
  · rw [if_pos hnil] at hbal
    exact ⟨fun hlt => absurd hlt (by omega), fun hne => absurd hnil hne⟩
  · rw [if_neg hnil] at hbal
    exact ⟨fun _ => hnil, fun _ => by omega⟩

/-- What a message hands out is the network it leaves. -/
theorem handed_network {a : NetworkActor κ ν} {m : NetworkMessage κ ν} {n : ν}
    (h : n ∈ handedBetween a (a.handle m)) : (a.handle m).network = some n := by
  obtain ⟨calls, responses, hcalls, hresponses, hc, hr⟩ := NetworkActor.handle_handsOut a m
  unfold handedBetween at h
  rw [hcalls, hresponses, List.drop_left, List.drop_left, List.mem_append] at h
  rcases h with h | h
  · obtain ⟨c, hmem, hval⟩ := List.mem_filterMap.mp h
    rw [← hc c hmem, hval]
  · obtain ⟨r, hmem, rfl⟩ := List.mem_map.mp h
    exact hr r hmem

/-- A service message keeps the network or drops it, and calls register()
only when there is none. -/
theorem ofService_spec {a : NetworkActor κ ν} {m : NetworkMessage κ ν} (hm : m.ofService = true)
    (hidle : a.listeners = [] → a.network = none) :
    (∀ n, (a.handle m).network = some n →
        a.network = some n ∧ (a.handle m).registers = a.registers)
      ∧ a.registers ≤ (a.handle m).registers
      ∧ ((a.handle m).listeners = [] → (a.handle m).network = none) := by
  cases m with
  | start key =>
      have hne : (a.start key).listeners ≠ [] :=
        List.ne_nil_of_mem ((NetworkActor.mem_start a key key).mpr (Or.inl rfl))
      refine ⟨fun n hn => ⟨hn, ?_⟩, ?_, fun hnil => absurd hnil hne⟩
      · -- register() is called for the first listener only, and then there is no network
        have hn' : a.network = some n := hn
        exact if_neg fun hnil => by rw [hidle hnil] at hn'; exact absurd hn' (by simp)
      · show a.registers ≤ if a.listeners = [] then a.registers + 1 else a.registers
        split <;> omega
  | get r =>
      obtain ⟨hl, hreg, _⟩ := NetworkActor.handle_frame a (m := .get r) (by simp) (by simp)
      have hnet : (a.handle (.get r)).network = a.network := by
        simp only [NetworkActor.handle]
        split
        next => rfl
        next => split <;> rfl
      rw [hl, hreg, hnet]
      exact ⟨fun n hn => ⟨hn, rfl⟩, Nat.le_refl _, hidle⟩
  | stop key =>
      by_cases hk : key ∈ a.listeners
      · by_cases hrest : a.listeners.filter (· ≠ key) = []
        · have hstop : a.handle (.stop key)
              = { a with listeners := [], network := none, unregisters := a.unregisters + 1 } :=
            if_pos ⟨hk, hrest⟩
          rw [hstop]
          exact ⟨fun n hn => absurd hn (by simp), Nat.le_refl _, fun _ => rfl⟩
        · have hstop : a.handle (.stop key)
              = { a with listeners := a.listeners.filter (· ≠ key) } :=
            if_neg fun hc => hrest hc.2
          rw [hstop]
          exact ⟨fun n hn => ⟨hn, rfl⟩, Nat.le_refl _, fun hnil => absurd hnil hrest⟩
      · have hstop : a.handle (.stop key) = a := NetworkActor.stop_unknown hk
        rw [hstop]
        exact ⟨fun n hn => ⟨hn, rfl⟩, Nat.le_refl _, hidle⟩
  | put n => exact absurd hm (by simp [NetworkMessage.ofService])
  | update n => exact absurd hm (by simp [NetworkMessage.ofService])
  | lost n => exact absurd hm (by simp [NetworkMessage.ofService])

omit [DecidableEq κ] [DecidableEq ν] in
/-- A report stands after other reports, as long as none says that the
network is lost. -/
theorem Reported.concat {s s' : Connectivity κ ν} {n : ν} (h : s.Reported n) {c : NetworkCallback ν}
    {k : Nat} (hc : c ≠ .onLost n) (hreceived : s'.received = s.received ++ [(c, k)])
    (hreg : s'.actor.registers = s.actor.registers) : s'.Reported n := by
  obtain ⟨before, after, j, hsplit, hj, hafter⟩ := h
  refine ⟨before, after ++ [(c, k)], j, ?_, by rw [hreg]; exact hj, fun e he => ?_⟩
  · rw [hreceived, hsplit, List.append_assoc]
    rfl
  · rcases List.mem_append.mp he with he | he
    · exact hafter e he
    · rw [List.mem_singleton.mp he]
      exact hc

theorem Inv.message {s : Connectivity κ ν} (h : s.Inv) {m : NetworkMessage κ ν}
    (hm : m.ofService = true) : (s.take m).Inv := by
  obtain ⟨hnet, hle, hidle⟩ := ofService_spec hm h.idle
  have hreported : ∀ n, (s.actor.handle m).network = some n → (s.take m).Reported n := by
    intro n hn
    obtain ⟨hn, hreg⟩ := hnet n hn
    obtain ⟨before, after, k, hsplit, hk, hafter⟩ := h.network n hn
    refine ⟨before, after, k, hsplit, ?_, hafter⟩
    show (s.actor.handle m).registers ≤ k
    rw [hreg]
    exact hk
  exact {
    network := hreported
    idle := hidle
    handed := fun n hn => hreported n (handed_network hn)
    balanced := NetworkActor.handle_balanced h.balanced m
    sending := fun c k hc => ⟨Nat.le_trans (h.sending c k hc).1 hle, (h.sending c k hc).2⟩
    received := fun e he => Nat.le_trans (h.received e he) hle }

/-- The state in which the actor has taken the report `c`. -/
def delivered (s : Connectivity κ ν) (c : NetworkCallback ν) (k : Nat) : Connectivity κ ν :=
  { s.take c.message with sending := none, received := s.received ++ [(c, k)] }

theorem deliver_spec {s s' : Connectivity κ ν} (hs : step s .deliver = some s') :
    ∃ c k, s.sending = some (c, k) ∧ s' = s.delivered c k := by
  simp only [step] at hs
  split at hs
  next => exact absurd hs (by simp)
  next c k hc =>
    obtain ⟨_, rfl⟩ := of_enabled hs
    exact ⟨c, k, hc, rfl⟩

/-- The reports leave the map and the registration alone. -/
theorem delivered_frame (s : Connectivity κ ν) (c : NetworkCallback ν) (k : Nat) :
    (s.delivered c k).actor.listeners = s.actor.listeners
      ∧ (s.delivered c k).actor.registers = s.actor.registers := by
  have hframe := NetworkActor.handle_frame s.actor (m := c.message)
    (by cases c <;> simp [NetworkCallback.message]) (by cases c <;> simp [NetworkCallback.message])
  exact ⟨hframe.1, hframe.2.1⟩

/-- The network after a report: the one reported, or the old one unless it
is lost. -/
theorem delivered_network {s : Connectivity κ ν} {c : NetworkCallback ν} {k : Nat} {n : ν}
    (h : (s.delivered c k).actor.network = some n) :
    c = .onAvailable n ∨ (s.actor.network = some n ∧ c ≠ .onLost n) := by
  have h' : (s.actor.handle c.message).network = some n := h
  cases c with
  | onAvailable x =>
      left
      have hx : some x = some n := h'
      rw [Option.some.inj hx]
  | onCapabilitiesChanged x =>
      refine Or.inr ⟨?_, by simp⟩
      simp only [NetworkCallback.message, NetworkActor.handle] at h'
      split at h'
      next => exact h'
      next => exact h'
  | onLost x =>
      right
      simp only [NetworkCallback.message, NetworkActor.handle] at h'
      split at h'
      next => exact absurd h' (by simp [NetworkActor.notifyAll])
      next hne =>
        refine ⟨h', fun he => hne ?_⟩
        rw [h', NetworkCallback.onLost.inj he]

theorem Inv.deliver {s : Connectivity κ ν} (h : s.Inv) {c : NetworkCallback ν} {k : Nat}
    (hc : s.sending = some (c, k))
    (hin : ∀ n, c = .onAvailable n →
      k = s.actor.registers ∧ s.actor.unregisters < s.actor.registers) :
    (s.delivered c k).Inv := by
  obtain ⟨hl, hreg⟩ := delivered_frame s c k
  obtain ⟨hk, hlast⟩ := h.sending c k hc
  have hreported : ∀ n, (s.delivered c k).actor.network = some n →
      (s.delivered c k).Reported n := by
    intro n hn
    rcases delivered_network hn with rfl | ⟨hold, hne⟩
    · refine ⟨s.received, [], k, rfl, ?_, by simp⟩
      have hk := (hin n rfl).1
      rw [hreg]
      omega
    · exact (h.network n hold).concat hne rfl hreg
  exact {
    network := hreported
    idle := fun hnil => by
      rw [hl] at hnil
      cases hn : (s.delivered c k).actor.network with
      | none => rfl
      | some n =>
          rcases delivered_network hn with hav | ⟨hold, _⟩
          · exact absurd hnil (h.open_iff.mp (hin n hav).2)
          · rw [h.idle hnil] at hold
            exact absurd hold (by simp)
    handed := fun n hn => hreported n (handed_network hn)
    balanced := NetworkActor.handle_balanced h.balanced c.message
    sending := fun c' k' hc' => absurd hc' (by simp [delivered])
    received := fun e he => by
      rw [hreg]
      rcases List.mem_append.mp he with he | he
      · exact h.received e he
      · rw [List.mem_singleton.mp he]
        exact hk }

/-- **One step in time keeps the invariant.** -/
theorem inv_step {s s' : Connectivity κ ν} {l : Label κ ν} (hin : s.InTime l)
    (hs : step s l = some s') (h : s.Inv) : s'.Inv := by
  cases l with
  | message m =>
      obtain ⟨⟨_, hm⟩, rfl⟩ := of_enabled hs
      exact h.message hm
  | callback c =>
      obtain ⟨_, rfl⟩ := of_enabled hs
      exact {
        network := h.network
        idle := h.idle
        handed := fun n hn => absurd hn (by simp)
        balanced := h.balanced
        sending := fun c' k' hc' => by
          injection hc' with hc'
          injection hc' with _ hk
          subst hk
          exact ⟨Nat.le_refl _, h.received⟩
        received := h.received }
  | deliver =>
      obtain ⟨c, k, hc, rfl⟩ := deliver_spec hs
      refine h.deliver hc fun n hn => ?_
      unfold InTime at hin
      rw [hc, hn] at hin
      exact hin

/-! ## §4. A late report. -/

/-- A report that is being sent when register() is called again is older
than every report of the new registration. -/
theorem not_reported_of_late {s : Connectivity κ ν} (h : s.Inv) {c : NetworkCallback ν} {k : Nat}
    (hc : s.sending = some (c, k)) (hlt : k < s.actor.registers) (n : ν) :
    ¬ (s.delivered c k).Reported n := by
  rintro ⟨before, after, j, hsplit, hj, _⟩
  have hmem : (NetworkCallback.onAvailable n, j) ∈ s.received ++ [(c, k)] := by
    rw [show s.received ++ [(c, k)] = before ++ (.onAvailable n, j) :: after from hsplit]
    exact List.mem_append_right _ List.mem_cons_self
  rw [(delivered_frame s c k).2] at hj
  rcases List.mem_append.mp hmem with hmem | hmem
  · have hle : j ≤ k := (h.sending c k hc).2 _ hmem
    omega
  · have hjk : j = k := congrArg Prod.snd (List.mem_singleton.mp hmem)
    omega

/-- With a listener in the map a reported network is handed out. -/
theorem handed_onAvailable {s : Connectivity κ ν} {k : Nat} {n : ν}
    (hne : s.actor.listeners ≠ []) : n ∈ (s.delivered (.onAvailable n) k).handed := by
  obtain ⟨key, hkey⟩ := List.exists_mem_of_ne_nil _ hne
  show n ∈ handedBetween s.actor (s.actor.handle (.put n))
  unfold handedBetween
  refine List.mem_append_left _ (List.mem_filterMap.mpr ⟨(key, some n), ?_, rfl⟩)
  rw [show (s.actor.handle (.put n)).calls
    = s.actor.calls ++ s.actor.listeners.map fun key => (key, some n) from rfl, List.drop_left]
  exact List.mem_map.mpr ⟨key, hkey, rfl⟩

/-- A late report is kept without a listener, or handed out to one. -/
theorem stale_step {s s' : Connectivity κ ν} {l : Label κ ν} (hlate : ¬ s.InTime l)
    (hs : step s l = some s') (h : s.Inv) : ¬ s'.NoStale := by
  unfold InTime at hlate
  split at hlate
  next _ n k hc =>
    obtain ⟨c, k', hc', rfl⟩ := deliver_spec hs
    obtain ⟨rfl, rfl⟩ := Prod.mk.inj (Option.some.inj (hc'.symm.trans hc))
    intro hns
    by_cases hnil : s.actor.listeners = []
    · have hnone := hns.idle (by rw [(delivered_frame s _ _).1]; exact hnil)
      exact absurd hnone (by simp [delivered, take, NetworkCallback.message, NetworkActor.handle,
        NetworkActor.notifyAll])
    · have hlt := Nat.lt_of_le_of_ne (h.sending _ _ hc).1
        fun hk => hlate ⟨hk, h.open_iff.mpr hnil⟩
      exact not_reported_of_late h hc hlt n (hns.handed n (handed_onAvailable hnil))
  next => exact absurd trivial hlate

/-- **When no stale network is handed out**: exactly in the runs in which no
`onAvailable` is taken after the unregister() that ended its
registration. -/
theorem noStale_along_iff (ls : List (Label κ ν)) (s : Connectivity κ ν)
    (hrun : exec step {} ls = some s) :
    Along step NoStale {} ls ↔ Meets step InTime ({} : Connectivity κ ν) ls :=
  along_iff_meets (fun _ h => ⟨h.handed, h.idle⟩) (fun _ _ _ hin hs h => inv_step hin hs h)
    (fun _ _ _ hlate hs h => stale_step hlate hs h) ls {} s inv_new hrun

/-- A report taken in time, and one that is lost again. -/
def reportedRun : List (Label Nat Nat) :=
  [.message (.start 0), .callback (.onAvailable 7), .deliver, .message (.get 0),
    .callback (.onLost 7), .deliver, .message (.stop 0)]

theorem noStale_along_reported :
    ∃ s : Connectivity Nat Nat, exec step {} reportedRun = some s
      ∧ s.actor.calls = [(0, some 7), (0, none)] ∧ s.actor.responses = [(0, 7)]
      ∧ Along step NoStale ({} : Connectivity Nat Nat) reportedRun := by
  obtain ⟨s, hrun, htest⟩ := exists_of_exec_test (step (κ := Nat) (ν := Nat)) {} reportedRun
    (fun s => s.actor.calls = [(0, some 7), (0, none)] ∧ s.actor.responses = [(0, 7)]) (by decide)
  obtain ⟨hcalls, hresponses⟩ := of_decide_eq_true htest
  exact ⟨s, hrun, hcalls, hresponses, (noStale_along_iff _ s hrun).mpr (by decide)⟩

/-- The last listener goes while a report is being sent, and another
component starts afterwards. -/
def lateRun : List (Label Nat Nat) :=
  [.message (.start 0), .callback (.onAvailable 7), .message (.stop 0), .deliver,
    .message (.start 1)]

/-- The new listener gets the network of the registration before. -/
theorem network_stale :
    ∃ s : Connectivity Nat Nat, exec step {} lateRun = some s
      ∧ s.actor.calls = [(1, some 7)] ∧ s.actor.registers = 2 ∧ ¬ s.NoStale := by
  obtain ⟨s, hrun, htest⟩ := exists_of_exec_test (step (κ := Nat) (ν := Nat)) {} lateRun
    (fun s => (s.actor.calls = [(1, some 7)] ∧ s.actor.registers = 2)
      ∧ s.received = [(.onAvailable 7, 1)] ∧ s.handed = [7]) (by decide)
  obtain ⟨⟨hcalls, hreg⟩, hreceived, hhanded⟩ := of_decide_eq_true htest
  refine ⟨s, hrun, hcalls, hreg, fun hns => ?_⟩
  obtain ⟨before, after, k, hsplit, hk, _⟩ := hns.handed 7 (by rw [hhanded]; simp)
  have hmem : (NetworkCallback.onAvailable 7, k) ∈ s.received := by
    rw [hsplit]
    exact List.mem_append_right _ List.mem_cons_self
  rw [hreceived, List.mem_singleton] at hmem
  have hk1 : k = 1 := congrArg Prod.snd hmem
  omega

end Connectivity

end FoxVpn.Net
