/-
  FoxVpn.Bg.NetworkSession
  ────────────────────────
  **THE SERVICE AND ITS NETWORK LISTENER.**

  The service runs together with the network actor.  `preInit` sends Start
  with the SERVICE as key; the clean-up runs

      scope.launch { DefaultNetworkListener.stop(this) }

  where `this` is the coroutine just launched: the Stop names a key that
  nobody has ever started, and the actor ignores it (`stop_unknown`).

  `listener_removed_iff`: the listener of the service is gone, and the
  registration in balance, exactly in the runs in which the actor has never
  taken a Start of the service at all.
-/
import FoxVpn.Bg.Lifecycle
import FoxVpn.Net.DefaultNetworkListener

namespace FoxVpn.Bg

open FoxVpn.Lib FoxVpn.Net

/-! ## §1. The two together. -/

/-- The keys listeners are stored under. -/
inductive Key where
  /-- `this` of `preInit`. -/
  | service
  /-- `this` inside `scope.launch`, in the clean-up of stop `k`. -/
  | scope (k : Nat)
  /-- The key of another component. -/
  | other (n : Nat)
  deriving Repr, DecidableEq

structure NetworkSession where
  service : Service := {}
  actor : NetworkActor Key Nat := {}

namespace NetworkSession

inductive Label where
  | service (l : Service.Label)
  /-- A message of another component or of the system callback. -/
  | message (m : NetworkMessage Key Nat)
  deriving Repr, DecidableEq

/-- The message a step of the service hands to the actor. -/
def sends : Service.Label → Option (NetworkMessage Key Nat)
  | .startTaken _ => some (.start .service)
  | .childDone k .networkStop => some (.stop (.scope k))
  | _ => none

/-- A message that is not the service's: Start and Stop of other keys, and
whatever has no key. -/
def foreign : NetworkMessage Key Nat → Bool
  | .start (.other _) => true
  | .stop (.other _) => true
  | .start _ => false
  | .stop _ => false
  | _ => true

def step (decode : String → Option Nat) (s : NetworkSession) : Label → Option NetworkSession
  | .service l =>
      match Service.step decode s.service l, sends l with
      | some t, none => some { s with service := t }
      | some t, some m =>
          if s.actor.failed = false then some { service := t, actor := s.actor.handle m }
          else none
      | none, _ => none
  | .message m =>
      if s.actor.failed = false ∧ foreign m = true then
        some { s with actor := s.actor.handle m }
      else none

/-- The actor takes a Start of the service. -/
def Label.listens : Label → Bool
  | .service (.startTaken _) => true
  | _ => false

/-- What a closed session must leave: no entry of the service, and with
nobody else listening a balanced registration. -/
def ListenerRemoved (s : NetworkSession) : Prop :=
  .service ∉ s.actor.listeners
    ∧ ((∀ n, Key.other n ∉ s.actor.listeners) → s.actor.registers = s.actor.unregisters)

/-! ## §2. What every step keeps. -/

/-- The map of the actor, `started` telling whether a Start of the service
has been taken. -/
structure Inv (started : Bool) (s : NetworkSession) : Prop where
  entry : .service ∈ s.actor.listeners ↔ started = true
  balanced : s.actor.Balanced
  noScope : ∀ k, .scope k ∉ s.actor.listeners

theorem inv_new : Inv false {} where
  entry := by simp
  balanced := rfl
  noScope k := by simp

/-- A message that neither starts the service or a scope nor stops the
service leaves `started` as it is. -/
theorem Inv.handle {b : Bool} {s : NetworkSession} (h : Inv b s) {m : NetworkMessage Key Nat}
    (hstart : m ≠ .start .service) (hscope : ∀ k, m ≠ .start (.scope k))
    (hstop : m ≠ .stop .service) (t : Service) :
    Inv b { service := t, actor := s.actor.handle m } where
  entry := by
    rw [← h.entry]
    exact ⟨fun hm => NetworkActor.mem_of_mem_handle hm hstart,
      fun hm => NetworkActor.mem_handle hm hstop⟩
  balanced := NetworkActor.handle_balanced h.balanced m
  noScope k hk := h.noScope k (NetworkActor.mem_of_mem_handle hk (hscope k))

theorem Inv.start {b : Bool} {s : NetworkSession} (h : Inv b s) (t : Service) :
    Inv true { service := t, actor := s.actor.handle (.start .service) } where
  entry := by
    show Key.service ∈ (s.actor.start .service).listeners ↔ _
    rw [NetworkActor.mem_start]
    simp
  balanced := NetworkActor.handle_balanced h.balanced _
  noScope k hk :=
    h.noScope k (NetworkActor.mem_of_mem_handle hk (by simp))

/-- One step: only a Start of the service changes `started`. -/
theorem inv_step {decode : String → Option Nat} {b : Bool} {s s' : NetworkSession} {l : Label}
    (h : Inv b s) (hs : step decode s l = some s') : Inv (b || l.listens) s' := by
  cases l with
  | message m =>
      obtain ⟨⟨_, hf⟩, rfl⟩ := of_enabled hs
      rw [show (b || (Label.message m).listens) = b from Bool.or_false b]
      refine h.handle ?_ (fun k => ?_) ?_ s.service
      · intro he
        rw [he] at hf
        exact absurd hf (by decide)
      · intro he
        rw [he] at hf
        exact absurd hf Bool.false_ne_true
      · intro he
        rw [he] at hf
        exact absurd hf (by decide)
  | service l =>
      simp only [step] at hs
      split at hs
      next t hstep hsend =>
        injection hs with hs
        subst hs
        have hl : (Label.service l).listens = false := by
          cases l <;> first | rfl | exact absurd hsend (by simp [sends])
        rw [hl, Bool.or_false]
        exact ⟨h.entry, h.balanced, h.noScope⟩
      next t m hstep hsend =>
        obtain ⟨_, rfl⟩ := of_enabled hs
        cases l with
        | startTaken j =>
            injection hsend with hm
            subst hm
            rw [show (b || (Label.service (.startTaken j)).listens) = true from Bool.or_true b]
            exact h.start t
        | childDone k c =>
            cases c with
            | networkStop =>
                -- the key of the launched coroutine, not of the service
                injection hsend with hm
                subst hm
                rw [show (b || (Label.service (.childDone k .networkStop)).listens) = b
                  from Bool.or_false b]
                exact h.handle (by simp) (by simp) (by simp) t
            | poolJoin => exact absurd hsend (by simp [sends])
            | localDnsJoin => exact absurd hsend (by simp [sends])
            | workerJoin => exact absurd hsend (by simp [sends])
            | trafficMonitorJoin => exact absurd hsend (by simp [sends])
        | _ => exact absurd hsend (by simp [sends])
      next => exact absurd hs (by simp)

/-- A whole run. -/
theorem inv_exec (decode : String → Option Nat) :
    ∀ (ls : List Label) (b : Bool) (s s' : NetworkSession), Inv b s →
      exec (step decode) s ls = some s' → Inv (b || ls.any Label.listens) s'
  | [], b, s, s', h, hrun => by
      injection hrun with hrun
      subst hrun
      rwa [List.any_nil, Bool.or_false]
  | l :: ls, b, s, s', h, hrun => by
      obtain ⟨s₁, hs, hrest⟩ := exec_cons.mp hrun
      rw [List.any_cons, ← Bool.or_assoc]
      exact inv_exec decode ls _ s₁ s' (inv_step h hs) hrest

/-! ## §3. When the listener is removed. -/

/-- Where no Start has been taken the map holds foreign keys only, and the
balance follows. -/
theorem Inv.removed_iff {b : Bool} {s : NetworkSession} (h : Inv b s) :
    s.ListenerRemoved ↔ b = false := by
  constructor
  · intro hr
    rw [← Bool.not_eq_true, ← h.entry]
    exact hr.1
  · intro hb
    have hservice : Key.service ∉ s.actor.listeners := by
      rw [h.entry, hb]
      decide
    refine ⟨hservice, fun hother => ?_⟩
    have hnil : s.actor.listeners = [] := by
      rw [List.eq_nil_iff_forall_not_mem]
      intro key hkey
      cases key with
      | service => exact hservice hkey
      | scope k => exact h.noScope k hkey
      | other n => exact hother n hkey
    have hbal := h.balanced
    unfold NetworkActor.Balanced at hbal
    rw [if_pos hnil] at hbal
    exact hbal

/-- **When a closed session leaves no listener**: exactly if the actor has
never taken a Start of the service.  No clean-up of a session that got as
far as `preInit` ever removes its entry, in whatever state the run ends. -/
theorem listener_removed_iff (decode : String → Option Nat) (ls : List Label)
    (s : NetworkSession) (hrun : exec (step decode) {} ls = some s) :
    s.ListenerRemoved ↔ ∀ l ∈ ls, l.listens = false := by
  have h := inv_exec decode ls false {} s inv_new hrun
  rw [h.removed_iff, Bool.false_or, List.any_eq_false]
  simp only [Bool.not_eq_true]

/-- The clean-up of the first stop, with the children of a session that had
nothing set up. -/
def refusedStart : List Label :=
  [.service (.startCommand none), .service (.shutdownDone 0),
    .service (.childDone 0 .networkStop), .service (.stopped 0)]

/-- A start without a profile leaves nothing. -/
theorem listener_removed_refused :
    ∃ s, exec (step fun _ => none) {} refusedStart = some s
      ∧ s.service.state = .stopped ∧ s.ListenerRemoved := by
  obtain ⟨s, hrun, htest⟩ := exists_of_exec_test (step fun _ => none) {} refusedStart
    (fun s => s.service.state = .stopped) (by decide)
  exact ⟨s, hrun, of_decide_eq_true htest,
    (listener_removed_iff _ refusedStart s hrun).mpr (by decide)⟩

/-- A session closed while it flattens its rules, and its whole clean-up. -/
def closedSession : List Label :=
  [.service (.startCommand (some ⟨{ route := "custom-rules" }, none⟩)), .service (.dispatch 0),
    .service (.startTaken 0), .service (.preInitDone 0), .service .close,
    .service (.throw 0 .cancellation), .service (.joined 0), .service (.persistRead 0 none),
    .service (.shutdownDone 0), .service (.childDone 0 .networkStop), .service (.stopped 0)]

/-- After it the service is Stopped, its entry is still in the map, and the
system callback is still registered. -/
theorem listener_leaks :
    ∃ s, exec (step fun _ => none) {} closedSession = some s
      ∧ s.service.state = .stopped ∧ s.actor.registers = 1 ∧ s.actor.unregisters = 0
      ∧ ¬ s.ListenerRemoved := by
  obtain ⟨s, hrun, htest⟩ := exists_of_exec_test (step fun _ => none) {} closedSession
    (fun s => (s.service.state = .stopped ∧ s.actor.registers = 1 ∧ s.actor.unregisters = 0)
      ∧ .service ∈ s.actor.listeners) (by decide)
  obtain ⟨⟨hst, hreg, hunreg⟩, hmem⟩ := of_decide_eq_true htest
  exact ⟨s, hrun, hst, hreg, hunreg, fun h => h.1 hmem⟩

end NetworkSession

end FoxVpn.Bg
