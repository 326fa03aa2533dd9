/-
  FoxVpn.Bg.UnderlyingNetworks
  ────────────────────────────
  **WHICH NETWORK THE SYSTEM BELIEVES THE TUNNEL RUNS OVER.**

  Two threads tell the system about the network under the VPN.  The listener
  of `DefaultNetworkListener` runs the setter of `underlyingNetwork`:

      field = value;  if (active) setUnderlyingNetworks(underlyingNetworks)

  and `startVpn`, on the main thread, hands the value to the builder:

      metered = ..;  active = true        (* possible race condition here? *)
      builder.setUnderlyingNetworks(underlyingNetworks);  builder.establish()

  The system ignores `setUnderlyingNetworks` while there is no interface.  So
  the comment in the source asks the right question and marks the wrong line:
  setting `active` late or early does no harm, but a network that is declared
  BETWEEN the builder's read and `establish` is lost, and the interface keeps
  the old network until the next one is declared.

  Main result `network_current_iff`: the interface always has the current
  network, or the call that brings it is on its way, exactly in the runs in
  which no `establish` is overtaken in this way (and on Android 9, where the
  value also depends on `metered`, no call survives into the next session).
-/
import FoxVpn.Lib.Run

namespace FoxVpn.Bg.UnderlyingNetworks

open FoxVpn.Lib

variable {ν : Type}

/-! ## §1. The two threads. -/

/-- Where the listener stands in the setter.  The actor calls its listeners
one message after the other, so there is one of it. -/
inductive Setter (ν : Type) where
  | idle
  /-- The field is written. -/
  | written
  /-- `active` was true. -/
  | tested
  /-- The argument of the call is evaluated. -/
  | calling (networks : Option ν)
  deriving Repr, DecidableEq

/-- Where the main thread stands in the life of the interface. -/
inductive Phase (ν : Type) where
  | down
  | metered
  | activated
  /-- The builder has been given its networks. -/
  | configured (networks : Option ν)
  | up
  /-- `establish()` returned null, and the exception is on its way to
  `stopRunner`. -/
  | failed
  /-- `killProcesses` has cleared `active`. -/
  | closing
  deriving Repr, DecidableEq

structure Tunnel (ν : Type) where
  underlyingNetwork : Option ν := none
  active : Bool := false
  metered : Bool := false
  setter : Setter ν := .idle
  main : Phase ν := .down
  /-- The interface in the system, with the networks it was last told. -/
  tun : Option (Option ν) := none
  deriving Repr, DecidableEq

/-- The getter `underlyingNetworks`: null, or an array of one. -/
def Tunnel.underlyingNetworks (sdkInt : Nat) (t : Tunnel ν) : Option ν :=
  if sdkInt = 28 ∧ t.metered = true then none else t.underlyingNetwork

inductive Label (ν : Type) where
  /-- The listener is handed a network, or null, and writes the field. -/
  | declare (network : Option ν)
  | testActive
  | readNetworks
  | setUnderlyingNetworks
  /-- `metered = profile.metered`. -/
  | setMetered (metered : Bool)
  | activate
  /-- `builder.setUnderlyingNetworks(underlyingNetworks)`. -/
  | configure
  | establish (ok : Bool)
  /-- `killProcesses`: `active = false`. -/
  | deactivate
  /-- `killProcesses`: `conn?.close()`. -/
  | close
  /-- The system takes the interface away, for another VPN. -/
  | revoke
  deriving Repr, DecidableEq

def step [DecidableEq ν] (sdkInt : Nat) (t : Tunnel ν) : Label ν → Option (Tunnel ν)
  | .declare network =>
      if t.setter = .idle then
        some { t with underlyingNetwork := network, setter := .written }
      else none
  | .testActive =>
      if t.setter = .written then
        some { t with setter := if t.active then .tested else .idle }
      else none
  | .readNetworks =>
      if t.setter = .tested then
        some { t with setter := .calling (t.underlyingNetworks sdkInt) }
      else none
  | .setUnderlyingNetworks =>
      match t.setter with
      | .calling networks =>
          -- without an interface the system does nothing
          some { t with setter := .idle, tun := t.tun.map fun _ => networks }
      | _ => none
  | .setMetered metered =>
      if t.main = .down then some { t with metered := metered, main := .metered } else none
  | .activate =>
      if t.main = .metered then some { t with active := true, main := .activated } else none
  | .configure =>
      if t.main = .activated then
        some { t with main := .configured (t.underlyingNetworks sdkInt) }
      else none
  | .establish ok =>
      match t.main with
      | .configured networks =>
          if ok then some { t with tun := some networks, main := .up }
          else some { t with main := .failed }
      | _ => none
  | .deactivate =>
      if t.main = .down ∨ t.main = .up ∨ t.main = .failed then
        some { t with active := false, main := .closing }
      else none
  | .close =>
      if t.main = .closing then some { t with tun := none, main := .down } else none
  | .revoke => if t.main = .up then some { t with tun := none } else none

/-! ## §2. What should hold, and what breaks it. -/

/-- While the session is active, the interface has the current network or
the listener is still to tell it. -/
def Current (sdkInt : Nat) (t : Tunnel ν) : Prop :=
  t.active = true → ∀ networks, t.tun = some networks →
    networks = t.underlyingNetworks sdkInt ∨ t.setter ≠ .idle

/-- The step is not overtaken: what it tells the system is what the getter
answers now, or the listener's call comes after it. -/
def NotOvertaken (sdkInt : Nat) (t : Tunnel ν) : Label ν → Prop
  | .establish true => t.main = .configured (t.underlyingNetworks sdkInt) ∨ t.setter ≠ .idle
  | .setUnderlyingNetworks => t.setter = .calling (t.underlyingNetworks sdkInt)
      ∨ t.active = false ∨ t.tun = none
  | _ => True

instance [DecidableEq ν] (sdkInt : Nat) (t : Tunnel ν) (a : Label ν) :
    Decidable (NotOvertaken sdkInt t a) := by
  cases a with
  | establish ok => cases ok <;> unfold NotOvertaken <;> infer_instance
  | _ => unfold NotOvertaken; infer_instance

/-- No network is declared between the builder's read and `establish`. -/
def QuietWindow (t : Tunnel ν) : Label ν → Prop
  | .declare _ => ∀ networks, t.main ≠ .configured networks
  | _ => True

/-- What every run keeps: an interface belongs to a session that is up or
closing, and a session that is starting or up is active. -/
structure Phased (t : Tunnel ν) : Prop where
  tun_phase : t.tun.isSome = true → t.main = .up ∨ t.main = .closing
  up_active : t.main = .up → t.active = true
  configured_active : ∀ networks, t.main = .configured networks → t.active = true
  activated_active : t.main = .activated → t.active = true
  closing_inactive : t.main = .closing → t.active = false

theorem phased_init : Phased ({} : Tunnel ν) := by
  constructor <;> simp

/-- Only the main thread moves an interface from phase to phase. -/
theorem phased_step [DecidableEq ν] {sdkInt : Nat} {t t' : Tunnel ν} {a : Label ν}
    (h : step sdkInt t a = some t') (hp : Phased t) : Phased t' := by
  cases a with
  | declare | testActive | readNetworks =>
      obtain ⟨-, rfl⟩ := of_enabled h
      exact ⟨hp.tun_phase, hp.up_active, hp.configured_active, hp.activated_active,
        hp.closing_inactive⟩
  | setUnderlyingNetworks =>
      simp only [step] at h
      split at h
      next networks hcall =>
        injection h with h
        subst h
        refine ⟨fun ht => hp.tun_phase ?_, hp.up_active, hp.configured_active,
          hp.activated_active, hp.closing_inactive⟩
        rw [← ht, Option.isSome_map]
      next => exact absurd h (by simp)
  | setMetered | activate | configure =>
      obtain ⟨hmain, rfl⟩ := of_enabled h
      have htun : t.tun.isSome ≠ true := by
        intro ht
        have hphase := hp.tun_phase ht
        rw [hmain] at hphase
        simp at hphase
      have hactive := hp.activated_active
      constructor <;> simp_all
  | establish ok =>
      simp only [step] at h
      split at h
      next networks hmain =>
        have hactive := hp.configured_active networks hmain
        have hphase := hp.tun_phase
        rw [hmain] at hphase
        cases ok with
        | true =>
            injection h with h
            subst h
            exact ⟨fun _ => .inl rfl, fun _ => hactive, fun _ => by simp, by simp, by simp⟩
        | false =>
            injection h with h
            subst h
            refine ⟨fun ht => ?_, by simp, by simp, by simp, by simp⟩
            have hphase' := hphase ht
            simp at hphase'
      next => exact absurd h (by simp)
  | deactivate =>
      obtain ⟨-, rfl⟩ := of_enabled h
      exact ⟨fun _ => .inr rfl, by simp, by simp, by simp, fun _ => rfl⟩
  | close =>
      obtain ⟨-, rfl⟩ := of_enabled h
      constructor <;> simp
  | revoke =>
      obtain ⟨-, rfl⟩ := of_enabled h
      exact ⟨by simp, hp.up_active, hp.configured_active, hp.activated_active,
        hp.closing_inactive⟩

/-- There is no interface before `establish`. -/
theorem Phased.tun_none {t : Tunnel ν} (hp : Phased t) (hup : t.main ≠ .up)
    (hclosing : t.main ≠ .closing) : t.tun = none := by
  cases htun : t.tun with
  | none => rfl
  | some networks =>
      rcases hp.tun_phase (by rw [htun]; rfl) with h | h
      · exact absurd h hup
      · exact absurd h hclosing

/-- **A step that is not overtaken keeps the interface current.** -/
theorem current_step [DecidableEq ν] {sdkInt : Nat} {t t' : Tunnel ν} {a : Label ν}
    (h : step sdkInt t a = some t') (hp : Phased t) (hok : NotOvertaken sdkInt t a)
    (hc : Current sdkInt t) : Current sdkInt t' := by
  intro hactive networks htun
  cases a with
  | declare network =>
      obtain ⟨-, rfl⟩ := of_enabled h
      exact .inr (by simp)
  | testActive =>
      obtain ⟨-, rfl⟩ := of_enabled h
      -- the session is active, so the call follows
      have hactive' : t.active = true := hactive
      refine .inr ?_
      show (if t.active = true then Setter.tested else Setter.idle) ≠ .idle
      rw [if_pos hactive']
      simp
  | readNetworks =>
      obtain ⟨-, rfl⟩ := of_enabled h
      exact .inr (by simp)
  | setUnderlyingNetworks =>
      simp only [step] at h
      split at h
      next networks' hcall =>
        injection h with h
        subst h
        obtain ⟨old, hold, rfl⟩ := Option.map_eq_some_iff.mp htun
        rcases hok with hcur | hinactive | hnone
        · rw [hcall] at hcur
          injection hcur with hcur
          exact .inl hcur
        · exact absurd (hinactive.symm.trans hactive) (by decide)
        · exact absurd (hnone.symm.trans hold) (by simp)
      next => exact absurd h (by simp)
  | setMetered m =>
      obtain ⟨hmain, rfl⟩ := of_enabled h
      have hnone := hp.tun_none (by rw [hmain]; simp) (by rw [hmain]; simp)
      exact absurd (hnone.symm.trans htun) (by simp)
  | activate =>
      obtain ⟨hmain, rfl⟩ := of_enabled h
      have hnone := hp.tun_none (by rw [hmain]; simp) (by rw [hmain]; simp)
      exact absurd (hnone.symm.trans htun) (by simp)
  | configure =>
      obtain ⟨-, rfl⟩ := of_enabled h
      exact hc hactive networks htun
  | establish ok =>
      simp only [step] at h
      split at h
      next networks' hmain =>
        cases ok with
        | true =>
            injection h with h
            subst h
            obtain rfl := Option.some.inj htun
            rcases hok with hcur | hidle
            · rw [hmain] at hcur
              injection hcur with hcur
              exact .inl hcur
            · exact .inr hidle
        | false =>
            injection h with h
            subst h
            exact hc hactive networks htun
      next => exact absurd h (by simp)
  | deactivate =>
      obtain ⟨-, rfl⟩ := of_enabled h
      exact absurd hactive (by simp)
  | close =>
      obtain ⟨-, rfl⟩ := of_enabled h
      exact absurd htun (by simp)
  | revoke =>
      obtain ⟨-, rfl⟩ := of_enabled h
      exact absurd htun (by simp)

/-- **An overtaken step leaves the interface behind.** -/
theorem not_current_of_overtaken [DecidableEq ν] {sdkInt : Nat} {t t' : Tunnel ν} {a : Label ν}
    (h : step sdkInt t a = some t') (hp : Phased t) (hlate : ¬ NotOvertaken sdkInt t a) :
    ¬ Current sdkInt t' := by
  intro hc
  apply hlate
  cases a with
  | establish ok =>
      cases ok with
      | false => trivial
      | true =>
          simp only [step] at h
          split at h
          next networks hmain =>
            injection h with h
            subst h
            rcases hc (hp.configured_active networks hmain) networks rfl with heq | hidle
            · exact .inl (hmain.trans (congrArg Phase.configured heq))
            · exact .inr hidle
          next => exact absurd h (by simp)
  | setUnderlyingNetworks =>
      simp only [step] at h
      split at h
      next networks hcall =>
        injection h with h
        subst h
        -- there is a session with an interface, or nothing to break
        cases hactive : t.active with
        | false => exact .inr (.inl hactive)
        | true =>
            cases htun : t.tun with
            | none => exact .inr (.inr htun)
            | some old =>
                rcases hc hactive networks (by rw [htun]; rfl) with heq | hidle
                · exact .inl (hcall.trans (congrArg Setter.calling heq))
                · exact absurd rfl hidle
      next => exact absurd h (by simp)
  | _ => trivial

/-! ## §3. A quiet window. -/

/-- What was read is still current: by the builder, and by the listener. -/
structure Fresh (t : Tunnel ν) : Prop where
  builder : ∀ networks, t.main = .configured networks → networks = t.underlyingNetwork
  call : ∀ networks, t.setter = .calling networks → networks = t.underlyingNetwork

theorem underlyingNetworks_of_ne {sdkInt : Nat} (hsdk : sdkInt ≠ 28) (t : Tunnel ν) :
    t.underlyingNetworks sdkInt = t.underlyingNetwork := if_neg fun h => hsdk h.1

theorem fresh_step [DecidableEq ν] {sdkInt : Nat} (hsdk : sdkInt ≠ 28) {t t' : Tunnel ν}
    {a : Label ν} (hquiet : QuietWindow t a) (h : step sdkInt t a = some t') (hf : Fresh t) :
    Fresh t' := by
  cases a with
  | declare network =>
      obtain ⟨-, rfl⟩ := of_enabled h
      exact ⟨fun networks hmain => absurd hmain (hquiet networks), fun _ hcall => by simp at hcall⟩
  | testActive =>
      obtain ⟨-, rfl⟩ := of_enabled h
      refine ⟨hf.builder, fun networks hcall => ?_⟩
      change (if t.active = true then Setter.tested else Setter.idle) = _ at hcall
      split at hcall
      · exact absurd hcall (by simp)
      · exact absurd hcall (by simp)
  | readNetworks =>
      obtain ⟨-, rfl⟩ := of_enabled h
      refine ⟨hf.builder, fun networks hcall => ?_⟩
      injection hcall with hcall
      rw [← hcall]
      exact underlyingNetworks_of_ne hsdk t
  | setUnderlyingNetworks =>
      simp only [step] at h
      split at h
      next =>
        injection h with h
        subst h
        exact ⟨hf.builder, fun _ hcall => by simp at hcall⟩
      next => exact absurd h (by simp)
  | configure =>
      obtain ⟨-, rfl⟩ := of_enabled h
      refine ⟨fun networks hmain => ?_, hf.call⟩
      injection hmain with hmain
      rw [← hmain]
      exact underlyingNetworks_of_ne hsdk t
  | establish ok =>
      simp only [step] at h
      split at h
      next =>
        cases ok with
        | true => injection h with h; subst h; exact ⟨fun _ hmain => by simp at hmain, hf.call⟩
        | false => injection h with h; subst h; exact ⟨fun _ hmain => by simp at hmain, hf.call⟩
      next => exact absurd h (by simp)
  | setMetered | activate | deactivate | close =>
      obtain ⟨-, rfl⟩ := of_enabled h
      exact ⟨fun _ hmain => by simp at hmain, hf.call⟩
  | revoke =>
      obtain ⟨-, rfl⟩ := of_enabled h
      exact ⟨hf.builder, hf.call⟩

/-- A step that can be taken then tells the system the current network. -/
theorem notOvertaken_of_fresh [DecidableEq ν] {sdkInt : Nat} (hsdk : sdkInt ≠ 28)
    {t t' : Tunnel ν} {a : Label ν} (h : step sdkInt t a = some t') (hf : Fresh t) :
    NotOvertaken sdkInt t a := by
  have hcur := underlyingNetworks_of_ne hsdk t
  cases a with
  | establish ok =>
      cases ok with
      | false => trivial
      | true =>
          simp only [step] at h
          split at h
          next networks hmain =>
            refine .inl (hmain.trans (congrArg Phase.configured ?_))
            exact (hf.builder networks hmain).trans hcur.symm
          next => exact absurd h (by simp)
  | setUnderlyingNetworks =>
      simp only [step] at h
      split at h
      next networks hcall =>
        refine .inl (hcall.trans (congrArg Setter.calling ?_))
        exact (hf.call networks hcall).trans hcur.symm
      next => exact absurd h (by simp)
  | _ => trivial

/-! ## §4. Whole runs. -/

/-- **THE RACE, EXACTLY**: along a run the interface is always current if and
only if no step is overtaken; and, except on Android 9, it suffices that no
network is declared between the builder's read and `establish`. -/
theorem network_current_iff [DecidableEq ν] (sdkInt : Nat) (as : List (Label ν)) (t : Tunnel ν)
    (hrun : exec (step sdkInt) {} as = some t) :
    (Along (step sdkInt) (Current sdkInt) {} as ↔ Meets (step sdkInt) (NotOvertaken sdkInt) {} as)
      ∧ (sdkInt ≠ 28 → Meets (step sdkInt) QuietWindow {} as →
        Along (step sdkInt) (Current sdkInt) {} as) := by
  have hinit : Phased ({} : Tunnel ν) ∧ Current sdkInt ({} : Tunnel ν) :=
    ⟨phased_init, fun hactive => absurd hactive (by simp)⟩
  have hiff : Along (step sdkInt) (Current sdkInt) {} as
      ↔ Meets (step sdkInt) (NotOvertaken sdkInt) {} as :=
    along_iff_meets (I := fun t => Phased t ∧ Current sdkInt t) (fun _ hs => hs.2)
      (fun _ _ _ hok h hs => ⟨phased_step h hs.1, current_step h hs.1 hok hs.2⟩)
      (fun _ _ _ hlate h hs => not_current_of_overtaken h hs.1 hlate) as {} t hinit hrun
  refine ⟨hiff, fun hsdk hquiet => hiff.mpr ?_⟩
  have hfresh : Fresh ({} : Tunnel ν) :=
    ⟨fun _ hmain => by simp at hmain, fun _ hcall => by simp at hcall⟩
  exact Meets.of_invariant (fun _ _ _ hq h hf => fresh_step hsdk hq h hf)
    (fun _ _ _ _ h hf => notOvertaken_of_fresh hsdk h hf) hrun hfresh hquiet

/-- The phone moves from network 1 to network 2 while the interface is being
established. -/
def roamed : List (Label Nat) :=
  [.declare (some 1), .testActive, .setMetered false, .activate, .configure,
   .declare (some 2), .testActive, .readNetworks, .setUnderlyingNetworks, .establish true]

theorem network_current_iff_roamed :
    ∃ t, exec (step 30) {} roamed = some t ∧ t.tun = some (some 1)
      ∧ t.underlyingNetworks 30 = some 2 ∧ ¬ Along (step 30) (Current 30) {} roamed := by
  obtain ⟨t, hrun, htest⟩ := exists_of_exec_test (step 30) {} roamed
    (fun t => t.tun == some (some 1) && t.underlyingNetworks 30 == some 2) (by decide)
  rw [Bool.and_eq_true, beq_iff_eq, beq_iff_eq] at htest
  refine ⟨t, hrun, htest.1, htest.2, ?_⟩
  rw [(network_current_iff 30 roamed t hrun).1]
  decide

end FoxVpn.Bg.UnderlyingNetworks
