/-
  FoxVpn.Aidl.ShadowsocksConnection
  ─────────────────────────────────
  **THE CONNECTION OF THE APP TO THE SERVICE PROCESS.**

  `ShadowsocksConnection` is told by the framework which binder it is
  connected to, registers its callback there and takes it back when it
  disconnects.  The service process can die at any time; a binder that was
  linked to death then calls `binderDied`, WHICH DOES NOT SAY WHOSE DEATH
  IT REPORTS, and which can come after the connection to the next process.

      main thread     connect · disconnect · setBandwidthTimeout
                      onServiceConnected b · proceed · onServiceDisconnected
      binder thread   binderDied b
      service         die b

  `onServiceConnected` is cut at its remote calls (`proceed`), so that a
  death or its notification can fall between them.  The other handlers are
  one step: they clear the fields that `binderDied` clears.

  Main result `follows_iff`: no check of the connection ever fails, and
  `service` and `callbackRegistered` follow the current binder exactly in
  the runs in which no death is notified while the current binder is alive.
-/
import Mathlib.Logic.Function.Basic
import FoxVpn.Lib.Run

namespace FoxVpn.Aidl

open FoxVpn.Lib

/-! ## §1. The service behind a binder. -/

/-- What the service process behind a binder keeps about the connection. -/
structure RemoteService where
  alive : Bool := true
  /-- The connection's callback is in `callbacks`. -/
  registered : Bool := false
  /-- Its timeout in `bandwidthListeners`. -/
  bandwidth : Option Int := none
  /-- How many death notifications the connection has asked for. -/
  links : Nat := 0
  deriving Repr, DecidableEq

namespace RemoteService

def linkToDeath (r : RemoteService) : RemoteService := { r with links := r.links + 1 }

def unlinkToDeath (r : RemoteService) : RemoteService := { r with links := r.links - 1 }

def registerCallback (r : RemoteService) : RemoteService := { r with registered := true }

def startListeningForBandwidth (timeout : Int) (r : RemoteService) : RemoteService :=
  { r with bandwidth := some timeout }

def stopListeningForBandwidth (r : RemoteService) : RemoteService := { r with bandwidth := none }

def unregisterCallback (r : RemoteService) : RemoteService :=
  { r.stopListeningForBandwidth with registered := false }

end RemoteService

section

variable {β : Type*} [DecidableEq β]

/-- `binder?.call()` in a `try`: a dead process changes nothing. -/
def tryCall (remote : β → RemoteService) (binder : Option β)
    (call : RemoteService → RemoteService) : β → RemoteService :=
  match binder with
  | none => remote
  | some b =>
      if (remote b).alive then Function.update remote b (call (remote b)) else remote

/-- A call that leaves a part of the service alone. -/
theorem tryCall_keeps {α : Type*} (part : RemoteService → α) (call : RemoteService → RemoteService)
    (hcall : ∀ r, part (call r) = part r) (remote : β → RemoteService) (binder : Option β) (b : β) :
    part (tryCall remote binder call b) = part (remote b) := by
  cases binder with
  | none => rfl
  | some c =>
      show part ((if (remote c).alive then Function.update remote c (call (remote c))
        else remote) b) = _
      split
      next =>
        by_cases hb : b = c
        · rw [hb, Function.update_self, hcall]
        · rw [Function.update_of_ne hb]
      next => rfl

theorem tryCall_self {remote : β → RemoteService} {b : β} (h : (remote b).alive = true)
    (call : RemoteService → RemoteService) :
    tryCall remote (some b) call b = call (remote b) := by
  show (if (remote b).alive then Function.update remote b (call (remote b)) else remote) b = _
  rw [if_pos h, Function.update_self]

end

/-! ## §2. The connection. -/

/-- An exception that leaves a handler on the main thread. -/
inductive ConnectionFault where
  /-- A `check`. -/
  | illegalState
  /-- `callback!!`. -/
  | nullPointer
  deriving Repr, DecidableEq

/-- How far the main thread is in `onServiceConnected`. -/
inductive Handling (β : Type*) where
  /-- In no handler. -/
  | idle
  /-- Before `binder.linkToDeath`. -/
  | linkToDeath (binder : β)
  /-- Before `check(!callbackRegistered)` and `registerCallback`. -/
  | registerCallback (binder : β)
  /-- Before `callbackRegistered = true`. -/
  | registered (binder : β)
  | crashed (fault : ConnectionFault)
  deriving Repr, DecidableEq

/-- A `ShadowsocksConnection`, the processes it talks to and what the
framework has told it. -/
structure ShadowsocksConnection (β : Type*) where
  listenForDeath : Bool := false
  connectionActive : Bool := false
  callbackRegistered : Bool := false
  /-- There is a `callback`. -/
  callback : Bool := false
  binder : Option β := none
  bandwidthTimeout : Int := 0
  service : Option β := none
  handling : Handling β := .idle
  remote : β → RemoteService := fun _ => {}
  /-- The binder most recently passed to `onServiceConnected`, until
  `onServiceDisconnected` or `disconnect`. -/
  current : Option β := none

namespace ShadowsocksConnection

variable {β : Type*} [DecidableEq β]

def setBandwidthTimeout (s : ShadowsocksConnection β) (value : Int) : ShadowsocksConnection β :=
  { s with
    bandwidthTimeout := value
    remote := tryCall s.remote s.service
      (if 0 < value then RemoteService.startListeningForBandwidth value
        else RemoteService.stopListeningForBandwidth) }

/-- `callback!!.onServiceConnected(service)`, the end of the handler. -/
def notifyConnected (s : ShadowsocksConnection β) : ShadowsocksConnection β :=
  { s with handling := if s.callback then .idle else .crashed .nullPointer }

def linkToDeath (s : ShadowsocksConnection β) (b : β) : ShadowsocksConnection β :=
  if s.listenForDeath then
    if (s.remote b).alive then
      { s with
        remote := tryCall s.remote (some b) RemoteService.linkToDeath
        handling := .registerCallback b }
    else s.notifyConnected
  else { s with handling := .registerCallback b }

def registerCallback (s : ShadowsocksConnection β) (b : β) : ShadowsocksConnection β :=
  if s.callbackRegistered then { s with handling := .crashed .illegalState }
  else if (s.remote b).alive then
    { s with
      remote := tryCall s.remote (some b) RemoteService.registerCallback
      handling := .registered b }
  else s.notifyConnected

def registered (s : ShadowsocksConnection β) (b : β) : ShadowsocksConnection β :=
  notifyConnected { s with
    callbackRegistered := true
    remote :=
      if 0 < s.bandwidthTimeout then
        tryCall s.remote (some b) (RemoteService.startListeningForBandwidth s.bandwidthTimeout)
      else s.remote }

/-- `onServiceConnected`, up to its first remote call. -/
def onServiceConnected (s : ShadowsocksConnection β) (b : β) : ShadowsocksConnection β :=
  { s with binder := some b, service := some b, handling := .linkToDeath b, current := some b }

/-- The next part of `onServiceConnected`. -/
def proceed (s : ShadowsocksConnection β) : Option (ShadowsocksConnection β) :=
  match s.handling with
  | .linkToDeath b => some (s.linkToDeath b)
  | .registerCallback b => some (s.registerCallback b)
  | .registered b => some (s.registered b)
  | _ => none

def unregisterCallback (s : ShadowsocksConnection β) : ShadowsocksConnection β :=
  { s with
    callbackRegistered := false
    remote :=
      if s.callbackRegistered then
        tryCall s.remote s.service RemoteService.unregisterCallback
      else s.remote }

def onServiceDisconnected (s : ShadowsocksConnection β) : ShadowsocksConnection β :=
  { s.unregisterCallback with service := none, binder := none, current := none }

/-- `binderDied()`, the notification that `b` has died. -/
def binderDied (s : ShadowsocksConnection β) (b : β) : ShadowsocksConnection β :=
  { s with
    service := none
    callbackRegistered := false
    remote := Function.update s.remote b (s.remote b).unlinkToDeath }

def connect (s : ShadowsocksConnection β) : ShadowsocksConnection β :=
  if s.connectionActive then s
  else if s.callback then
    { s with connectionActive := true, handling := .crashed .illegalState }
  else { s with connectionActive := true, callback := true }

def disconnect (s : ShadowsocksConnection β) : ShadowsocksConnection β :=
  let s := s.unregisterCallback
  -- a link to a binder that is dead already stays: its notification is under way
  let remote :=
    if s.listenForDeath then tryCall s.remote s.binder RemoteService.unlinkToDeath else s.remote
  { s with
    connectionActive := false
    binder := none
    remote := tryCall remote s.service RemoteService.stopListeningForBandwidth
    service := none
    callback := false
    current := none }

inductive Label (β : Type*) where
  | connect
  | disconnect
  | setBandwidthTimeout (value : Int)
  | onServiceConnected (binder : β)
  | proceed
  | onServiceDisconnected
  | die (binder : β)
  | binderDied (binder : β)
  deriving Repr, DecidableEq

/-- One step.  The framework connects only between `connect` and
`disconnect`, and only when it has not connected already. -/
def step (s : ShadowsocksConnection β) : Label β → Option (ShadowsocksConnection β)
  | .connect => if s.handling = .idle then some s.connect else none
  | .disconnect => if s.handling = .idle then some s.disconnect else none
  | .setBandwidthTimeout value =>
      if s.handling = .idle then some (s.setBandwidthTimeout value) else none
  | .onServiceConnected b =>
      if s.handling = .idle ∧ s.connectionActive ∧ s.current = none then
        some (s.onServiceConnected b)
      else none
  | .proceed => s.proceed
  | .onServiceDisconnected =>
      if s.handling = .idle ∧ s.current ≠ none then some s.onServiceDisconnected else none
  | .die b =>
      if (s.remote b).alive then
        some { s with remote := Function.update s.remote b { s.remote b with alive := false } }
      else none
  | .binderDied b =>
      if (s.remote b).alive = false ∧ 0 < (s.remote b).links then some (s.binderDied b) else none

/-- No death is notified while the current binder is alive. -/
def InTime (s : ShadowsocksConnection β) : Label β → Prop
  | .binderDied _ => ∀ b ∈ s.current, (s.remote b).alive = false
  | _ => True

instance (s : ShadowsocksConnection β) (l : Label β) : Decidable (s.InTime l) := by
  cases l <;> unfold InTime <;> infer_instance

/-- The connection follows the binder `b`; what the end of
`onServiceConnected` sets is asked for when the handler has returned. -/
structure Follows (s : ShadowsocksConnection β) (b : β) : Prop where
  service : s.service = some b
  callbackRegistered : s.handling = .idle → s.callbackRegistered = true
  registered : s.handling = .idle → (s.remote b).registered = true
  unregistered : s.handling = .idle → (s.disconnect.remote b).registered = false

/-- The connection follows its current binder, if that is alive. -/
def FollowsCurrent (s : ShadowsocksConnection β) : Prop :=
  ∀ b, s.current = some b → (s.remote b).alive = true → s.Follows b

/-! ## §3. What holds in every run. -/

/-- What the handler under way relies on. -/
def HandlingInv (s : ShadowsocksConnection β) : Handling β → Prop
  | .idle => True
  | .linkToDeath b | .registerCallback b => s.current = some b ∧ s.callbackRegistered = false
  | .registered b => s.current = some b
  | .crashed _ => False

structure Inv (s : ShadowsocksConnection β) : Prop where
  callback : s.callback = s.connectionActive
  active : s.current ≠ none → s.connectionActive = true
  handling : s.HandlingInv s.handling
  /-- Without a current binder the connection is as it was built. -/
  released : s.current = none → s.service = none ∧ s.callbackRegistered = false

omit [DecidableEq β] in
theorem inv_new (listenForDeath : Bool) :
    Inv ({ listenForDeath } : ShadowsocksConnection β) where
  callback := rfl
  active h := absurd rfl h
  handling := trivial
  released _ := ⟨rfl, rfl⟩

omit [DecidableEq β] in
/-- The end of `onServiceConnected` finds its callback. -/
theorem Inv.notifyConnected {s : ShadowsocksConnection β} (h : s.Inv) (hcur : s.current ≠ none) :
    s.notifyConnected.Inv := by
  have hcallback : s.callback = true := h.callback.trans (h.active hcur)
  exact { h with
    handling := by
      show HandlingInv _ (if s.callback then .idle else .crashed .nullPointer)
      rw [if_pos hcallback]
      trivial }

theorem proceed_spec {s s' : ShadowsocksConnection β} (hs : s.proceed = some s') :
    (∃ b, s.handling = .linkToDeath b ∧ s' = s.linkToDeath b)
      ∨ (∃ b, s.handling = .registerCallback b ∧ s' = s.registerCallback b)
      ∨ ∃ b, s.handling = .registered b ∧ s' = s.registered b := by
  unfold proceed at hs
  split at hs
  next b hb => exact Or.inl ⟨b, hb, (Option.some.inj hs).symm⟩
  next b hb => exact Or.inr (Or.inl ⟨b, hb, (Option.some.inj hs).symm⟩)
  next b hb => exact Or.inr (Or.inr ⟨b, hb, (Option.some.inj hs).symm⟩)
  next => exact absurd hs (by simp)

omit [DecidableEq β] in
theorem Inv.handlingInv {s : ShadowsocksConnection β} (h : s.Inv) {x : Handling β}
    (hx : s.handling = x) : s.HandlingInv x := by
  rw [← hx]
  exact h.handling

/-- `linkToDeath` throws, or the handler goes on and no process has
changed its state. -/
theorem linkToDeath_cases (s : ShadowsocksConnection β) (b : β) :
    ((s.remote b).alive = false ∧ s.linkToDeath b = s.notifyConnected)
      ∨ ∃ remote, (∀ c, (remote c).alive = (s.remote c).alive)
        ∧ s.linkToDeath b = { s with remote := remote, handling := .registerCallback b } := by
  unfold linkToDeath
  split
  next =>
    split
    next =>
      exact Or.inr ⟨_, tryCall_keeps RemoteService.alive RemoteService.linkToDeath
        (fun _ => rfl) s.remote (some b), rfl⟩
    next hdead => exact Or.inl ⟨Bool.eq_false_iff.mpr hdead, rfl⟩
  next => exact Or.inr ⟨s.remote, fun _ => rfl, rfl⟩

/-- Once its check has passed, `registerCallback` throws or registers. -/
theorem registerCallback_cases {s : ShadowsocksConnection β} (h : s.callbackRegistered = false)
    (b : β) :
    ((s.remote b).alive = false ∧ s.registerCallback b = s.notifyConnected)
      ∨ ((s.remote b).alive = true ∧ s.registerCallback b
        = { s with
            remote := tryCall s.remote (some b) RemoteService.registerCallback
            handling := .registered b }) := by
  unfold registerCallback
  rw [if_neg (by simp [h])]
  split
  next halive => exact Or.inr ⟨halive, rfl⟩
  next hdead => exact Or.inl ⟨Bool.eq_false_iff.mpr hdead, rfl⟩

theorem Inv.linkToDeath {s : ShadowsocksConnection β} (h : s.Inv) {b : β}
    (hb : s.handling = .linkToDeath b) : (s.linkToDeath b).Inv := by
  obtain ⟨hcur, hreg⟩ := h.handlingInv hb
  rcases s.linkToDeath_cases b with ⟨_, heq⟩ | ⟨remote, _, heq⟩
  · rw [heq]
    exact h.notifyConnected (by simp [hcur])
  · rw [heq]
    exact { h with handling := ⟨hcur, hreg⟩ }

/-- **The check passes**: nothing is registered when a binder is new. -/
theorem Inv.registerCallback {s : ShadowsocksConnection β} (h : s.Inv) {b : β}
    (hb : s.handling = .registerCallback b) : (s.registerCallback b).Inv := by
  obtain ⟨hcur, hreg⟩ := h.handlingInv hb
  rcases registerCallback_cases hreg b with ⟨_, heq⟩ | ⟨_, heq⟩
  · rw [heq]
    exact h.notifyConnected (by simp [hcur])
  · rw [heq]
    exact { h with handling := hcur }

theorem Inv.registered {s : ShadowsocksConnection β} (h : s.Inv) {b : β}
    (hb : s.handling = .registered b) : (s.registered b).Inv := by
  have hcur : s.current = some b := h.handlingInv hb
  have hne : s.current ≠ none := by simp [hcur]
  unfold ShadowsocksConnection.registered
  refine Inv.notifyConnected ?_ hne
  exact { h with
    handling := by
      show HandlingInv _ s.handling
      rw [hb]
      exact hcur
    released := fun hnone => absurd hnone hne }

omit [DecidableEq β] in
/-- The check of `connect` passes. -/
theorem Inv.connect_eq {s : ShadowsocksConnection β} (h : s.Inv) :
    s.connect = if s.connectionActive then s
      else { s with connectionActive := true, callback := true } := by
  unfold connect
  split
  next => rfl
  next hactive => rw [h.callback, if_neg hactive]

/-- **Every step keeps the invariant.** -/
theorem inv_step {s s' : ShadowsocksConnection β} {l : Label β} (h : s.Inv)
    (hs : step s l = some s') : s'.Inv := by
  -- the handlers that run as a whole begin and end idle
  have hidle : ∀ {t : ShadowsocksConnection β}, s.handling = .idle → t.HandlingInv s.handling := by
    intro t hi
    rw [hi]
    trivial
  cases l with
  | connect =>
      obtain ⟨hi, rfl⟩ := of_enabled hs
      rw [h.connect_eq]
      split
      next => exact h
      next => exact { h with callback := rfl, active := fun _ => rfl, handling := hidle hi }
  | disconnect =>
      obtain ⟨hi, rfl⟩ := of_enabled hs
      exact {
        callback := rfl
        active := fun hne => absurd rfl hne
        handling := hidle hi
        released := fun _ => ⟨rfl, rfl⟩ }
  | setBandwidthTimeout value =>
      obtain ⟨hi, rfl⟩ := of_enabled hs
      exact { h with handling := hidle hi }
  | onServiceConnected b =>
      obtain ⟨⟨_, hactive, hnone⟩, rfl⟩ := of_enabled hs
      exact {
        callback := h.callback
        active := fun _ => hactive
        handling := ⟨rfl, (h.released hnone).2⟩
        released := fun hc => by cases hc }
  | proceed =>
      rcases proceed_spec hs with ⟨b, hb, rfl⟩ | ⟨b, hb, rfl⟩ | ⟨b, hb, rfl⟩
      · exact h.linkToDeath hb
      · exact h.registerCallback hb
      · exact h.registered hb
  | onServiceDisconnected =>
      obtain ⟨⟨hi, hne⟩, rfl⟩ := of_enabled hs
      exact {
        callback := h.callback
        active := fun hc => absurd rfl hc
        handling := hidle hi
        released := fun _ => ⟨rfl, rfl⟩ }
  | die b =>
      obtain ⟨_, rfl⟩ := of_enabled hs
      exact { h with handling := h.handling }
  | binderDied b =>
      obtain ⟨_, rfl⟩ := of_enabled hs
      refine { h with handling := ?_, released := fun _ => ⟨rfl, rfl⟩ }
      show HandlingInv _ s.handling
      -- a notification in the middle of the handler only clears what it checks
      cases hb : s.handling with
      | idle => trivial
      | linkToDeath c => exact ⟨(h.handlingInv hb).1, rfl⟩
      | registerCallback c => exact ⟨(h.handlingInv hb).1, rfl⟩
      | registered c => exact h.handlingInv hb
      | crashed fault => exact h.handlingInv hb

/-! ## §4. What holds as long as no death is notified late. -/

structure InTimeInv (s : ShadowsocksConnection β) : Prop where
  inv : s.Inv
  service : ∀ b, s.current = some b → (s.remote b).alive = true → s.service = some b
  idle : ∀ b, s.current = some b → (s.remote b).alive = true → s.handling = .idle →
    s.callbackRegistered = true ∧ (s.remote b).registered = true
  registered : ∀ b, s.handling = .registered b → (s.remote b).alive = true →
    (s.remote b).registered = true

/-- A disconnect takes the callback back from the binder it is registered
with. -/
theorem disconnect_registered {s : ShadowsocksConnection β} {b : β} (hservice : s.service = some b)
    (hreg : s.callbackRegistered = true) (halive : (s.remote b).alive = true) :
    (s.disconnect.remote b).registered = false := by
  have hunreg : (s.unregisterCallback.remote b).registered = false := by
    show ((if s.callbackRegistered then
      tryCall s.remote s.service RemoteService.unregisterCallback else s.remote) b).registered = _
    rw [if_pos hreg, hservice, tryCall_self halive]
    rfl
  -- what follows in `disconnect` leaves `callbacks` alone
  refine (tryCall_keeps RemoteService.registered RemoteService.stopListeningForBandwidth
    (fun _ => rfl) _ _ b).trans ?_
  split
  next =>
    exact (tryCall_keeps RemoteService.registered RemoteService.unlinkToDeath
      (fun _ => rfl) _ _ b).trans hunreg
  next => exact hunreg

theorem InTimeInv.follows {s : ShadowsocksConnection β} (h : s.InTimeInv) : s.FollowsCurrent := by
  intro b hcur halive
  have hservice := h.service b hcur halive
  exact {
    service := hservice
    callbackRegistered := fun hi => (h.idle b hcur halive hi).1
    registered := fun hi => (h.idle b hcur halive hi).2
    unregistered := fun hi =>
      disconnect_registered hservice (h.idle b hcur halive hi).1 halive }

omit [DecidableEq β] in
/-- Without a current binder that is alive there is nothing to follow. -/
theorem InTimeInv.of_dead {s : ShadowsocksConnection β} (h : s.Inv)
    (hdead : ∀ b, s.current = some b → (s.remote b).alive = false) : s.InTimeInv where
  inv := h
  service b hcur halive := by
    rw [hdead b hcur] at halive
    cases halive
  idle b hcur halive := by
    rw [hdead b hcur] at halive
    cases halive
  registered b hb halive := by
    rw [hdead b (h.handlingInv hb)] at halive
    cases halive

omit [DecidableEq β] in
/-- A step that changes neither the binder nor what is registered. -/
theorem InTimeInv.frame {s s' : ShadowsocksConnection β} (h : s.InTimeInv) (hinv : s'.Inv)
    (hcur : s'.current = s.current) (hservice : s'.service = s.service)
    (hreg : s'.callbackRegistered = s.callbackRegistered) (hhandling : s'.handling = s.handling)
    (halive : ∀ b, (s'.remote b).alive = true → (s.remote b).alive = true)
    (hregistered : ∀ b, (s'.remote b).registered = (s.remote b).registered) : s'.InTimeInv where
  inv := hinv
  service b hb ha := by
    rw [hservice]
    exact h.service b (hcur ▸ hb) (halive b ha)
  idle b hb ha hi := by
    rw [hreg, hregistered]
    exact h.idle b (hcur ▸ hb) (halive b ha) (hhandling ▸ hi)
  registered b hb ha := by
    rw [hregistered]
    exact h.registered b (hhandling ▸ hb) (halive b ha)

theorem InTimeInv.linkToDeath {s : ShadowsocksConnection β} (h : s.InTimeInv) {b : β}
    (hb : s.handling = .linkToDeath b) : (s.linkToDeath b).InTimeInv := by
  have hinv := h.inv.linkToDeath hb
  rcases s.linkToDeath_cases b with ⟨hdead, heq⟩ | ⟨remote, halive, heq⟩
  · rw [heq] at hinv ⊢
    refine InTimeInv.of_dead hinv fun c hc => ?_
    obtain rfl : b = c := Option.some.inj ((h.inv.handlingInv hb).1.symm.trans hc)
    exact hdead
  · rw [heq] at hinv ⊢
    refine ⟨hinv, fun c hc ha => h.service c hc ((halive c).symm.trans ha), fun c _ _ hi => ?_,
      fun c hc _ => ?_⟩
    · cases hi
    · cases hc

theorem InTimeInv.registerCallback {s : ShadowsocksConnection β} (h : s.InTimeInv) {b : β}
    (hb : s.handling = .registerCallback b) : (s.registerCallback b).InTimeInv := by
  have hinv := h.inv.registerCallback hb
  obtain ⟨hcur, hreg⟩ := h.inv.handlingInv hb
  rcases registerCallback_cases hreg b with ⟨hdead, heq⟩ | ⟨halive, heq⟩
  · rw [heq] at hinv ⊢
    refine InTimeInv.of_dead hinv fun c hc => ?_
    obtain rfl : b = c := Option.some.inj (hcur.symm.trans hc)
    exact hdead
  · rw [heq] at hinv ⊢
    refine ⟨hinv, fun c hc ha => h.service c hc ?_, fun c _ _ hi => ?_, fun c hc _ => ?_⟩
    · exact (tryCall_keeps RemoteService.alive RemoteService.registerCallback
        (fun _ => rfl) _ _ c).symm.trans ha
    · cases hi
    · injection hc with hc
      subst hc
      show (tryCall s.remote (some b) RemoteService.registerCallback b).registered = true
      rw [tryCall_self halive]
      rfl

theorem InTimeInv.registered_step {s : ShadowsocksConnection β} (h : s.InTimeInv) {b : β}
    (hb : s.handling = .registered b) : (s.registered b).InTimeInv := by
  have hinv := h.inv.registered hb
  have hcur : s.current = some b := h.inv.handlingInv hb
  -- the bandwidth call touches neither the process nor `callbacks`
  have hkeeps : ∀ {α : Type} (part : RemoteService → α) (c : β),
      (∀ r, part (r.startListeningForBandwidth s.bandwidthTimeout) = part r) →
      part ((s.registered b).remote c) = part (s.remote c) := by
    intro α part c hpart
    show part ((if 0 < s.bandwidthTimeout then _ else s.remote) c) = _
    split
    next => exact tryCall_keeps part _ hpart _ _ c
    next => rfl
  refine ⟨hinv, fun c hc ha => h.service c hc ?_, fun c hc ha _ => ⟨rfl, ?_⟩, fun c hc _ => ?_⟩
  · exact (hkeeps RemoteService.alive c fun _ => rfl).symm.trans ha
  · obtain rfl : b = c := Option.some.inj (hcur.symm.trans hc)
    rw [hkeeps RemoteService.registered b fun _ => rfl]
    exact h.registered b hb ((hkeeps RemoteService.alive b fun _ => rfl).symm.trans ha)
  · -- the handler has returned
    have hhandling : (if s.callback then .idle else .crashed .nullPointer)
        = Handling.registered c := hc
    split at hhandling <;> cases hhandling

/-- **One step in time**: the connection keeps following its binder. -/
theorem inTimeInv_step {s s' : ShadowsocksConnection β} {l : Label β} (hin : s.InTime l)
    (hs : step s l = some s') (h : s.InTimeInv) : s'.InTimeInv := by
  have hinv := inv_step h.inv hs
  cases l with
  | connect =>
      obtain ⟨_, rfl⟩ := of_enabled hs
      rw [h.inv.connect_eq] at hinv ⊢
      split
      next => exact h
      next hactive =>
        rw [if_neg hactive] at hinv
        exact h.frame hinv rfl rfl rfl rfl (fun _ ha => ha) fun _ => rfl
  | disconnect =>
      obtain ⟨_, rfl⟩ := of_enabled hs
      exact InTimeInv.of_dead hinv fun c hc => by cases hc
  | setBandwidthTimeout value =>
      obtain ⟨_, rfl⟩ := of_enabled hs
      refine h.frame hinv rfl rfl rfl rfl (fun c ha => ?_) fun c => ?_
      · refine (tryCall_keeps RemoteService.alive _ (fun r => ?_) _ _ c).symm.trans ha
        split <;> rfl
      · refine tryCall_keeps RemoteService.registered _ (fun r => ?_) _ _ c
        split <;> rfl
  | onServiceConnected b =>
      obtain ⟨_, rfl⟩ := of_enabled hs
      refine ⟨hinv, fun c hc _ => hc, fun c _ _ hi => ?_, fun c hc _ => ?_⟩
      · cases hi
      · cases hc
  | proceed =>
      rcases proceed_spec hs with ⟨b, hb, rfl⟩ | ⟨b, hb, rfl⟩ | ⟨b, hb, rfl⟩
      · exact h.linkToDeath hb
      · exact h.registerCallback hb
      · exact h.registered_step hb
  | onServiceDisconnected =>
      obtain ⟨_, rfl⟩ := of_enabled hs
      exact InTimeInv.of_dead hinv fun c hc => by cases hc
  | die b =>
      obtain ⟨_, rfl⟩ := of_enabled hs
      refine h.frame hinv rfl rfl rfl rfl (fun c ha => ?_) fun c => ?_
      · by_cases hc : c = b
        · subst hc
          simp at ha
        · simpa [Function.update_of_ne hc] using ha
      · by_cases hc : c = b
        · subst hc
          simp
        · simp [Function.update_of_ne hc]
  | binderDied b =>
      obtain ⟨_, rfl⟩ := of_enabled hs
      refine InTimeInv.of_dead hinv fun c hc => ?_
      have hdead := hin c hc
      show (Function.update s.remote b (s.remote b).unlinkToDeath c).alive = false
      by_cases hcb : c = b
      · subst hcb
        rw [Function.update_self]
        exact hdead
      · rw [Function.update_of_ne hcb]
        exact hdead

/-- A late notification takes the binder away although it is alive. -/
theorem not_follows_of_late {s s' : ShadowsocksConnection β} {l : Label β} (hlate : ¬ s.InTime l)
    (hs : step s l = some s') : ¬ s'.FollowsCurrent := by
  cases l with
  | binderDied b =>
      obtain ⟨⟨hb, _⟩, rfl⟩ := of_enabled hs
      intro hfollows
      refine hlate fun c hc => Bool.eq_false_iff.mpr fun halive => ?_
      -- the current binder is alive, so the notification is about another one
      have hne : c ≠ b := by
        rintro rfl
        rw [hb] at halive
        cases halive
      have hservice := (hfollows c hc (by
        show (Function.update s.remote b _ c).alive = true
        rw [Function.update_of_ne hne]
        exact halive)).service
      cases hservice
  | _ => exact absurd trivial hlate

/-- **When the connection follows its binder**: no exception leaves a
handler in any run, and `service` and `callbackRegistered` follow the
current binder exactly in the runs in which no death is notified while the
current binder is alive. -/
theorem follows_iff (listenForDeath : Bool) (ls : List (Label β)) (s : ShadowsocksConnection β)
    (hrun : exec step { listenForDeath } ls = some s) :
    (∀ fault, s.handling ≠ .crashed fault)
      ∧ (Along step FollowsCurrent { listenForDeath } ls
        ↔ Meets step InTime { listenForDeath } ls) := by
  constructor
  · intro fault hfault
    have hinv := exec_invariant_all (fun _ _ _ hs h => inv_step h hs) ls _ s
      (inv_new listenForDeath) hrun
    exact hinv.handlingInv hfault
  · have hnew : InTimeInv ({ listenForDeath } : ShadowsocksConnection β) :=
      InTimeInv.of_dead (inv_new listenForDeath) fun b hb => by cases hb
    exact along_iff_meets (fun _ h => h.follows) (fun _ _ _ hin hs h => inTimeInv_step hin hs h)
      (fun _ _ _ hlate hs _ => not_follows_of_late hlate hs) ls _ s hnew hrun

/-- The service process dies and is restarted; its death is notified before
the connection to the new process. -/
def restartRun : List (Label Nat) :=
  [.connect, .setBandwidthTimeout 500, .onServiceConnected 0, .proceed, .proceed, .proceed,
    .die 0, .binderDied 0, .onServiceDisconnected,
    .onServiceConnected 1, .proceed, .proceed, .proceed]

theorem follows_restartRun : ∃ s, exec step { listenForDeath := true } restartRun = some s
    ∧ s.current = some 1 ∧ Along step FollowsCurrent { listenForDeath := true } restartRun := by
  obtain ⟨s, hrun, htest⟩ := exists_of_exec_test step { listenForDeath := true } restartRun
    (fun s => s.current == some 1) (by decide)
  exact ⟨s, hrun, by simpa using htest, (follows_iff true restartRun s hrun).2.mpr (by decide)⟩

/-- The same, with the notification after the connection to the new
process. -/
def lateDeathRun : List (Label Nat) :=
  [.connect, .onServiceConnected 0, .proceed, .proceed, .proceed,
    .die 0, .onServiceDisconnected,
    .onServiceConnected 1, .proceed, .proceed, .proceed, .binderDied 0]

/-- **The connection forgets a binder that is alive**, and the next
disconnect leaves the callback registered there. -/
theorem late_death_leaks : ∃ s, exec step { listenForDeath := true } lateDeathRun = some s
    ∧ s.current = some 1 ∧ (s.remote 1).alive = true ∧ s.handling = .idle
    ∧ s.service = none ∧ s.callbackRegistered = false
    ∧ (s.disconnect.remote 1).registered = true := by
  obtain ⟨s, hrun, htest⟩ := exists_of_exec_test step { listenForDeath := true } lateDeathRun
    (fun s => decide (s.current = some 1 ∧ (s.remote 1).alive = true ∧ s.handling = .idle
      ∧ s.service = none ∧ s.callbackRegistered = false
      ∧ (s.disconnect.remote 1).registered = true)) (by decide)
  exact ⟨s, hrun, of_decide_eq_true htest⟩

end ShadowsocksConnection

end FoxVpn.Aidl
