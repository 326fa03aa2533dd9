/-
  FoxVpn.App.ServerSelection
  ──────────────────────────
  **WHICH SERVER THE SCREEN SHOWS AS SELECTED.**

  Three pieces of state are kept in step by hand: the `select` flag of every
  group of `servers.value`, the group `currentServer.value`, and the item
  `selectServer`.  The groups are objects with a mutable flag and `initServers`
  builds new ones each time, so they have addresses here.

      initServers   moves `currentServer`, sets the flag of where it is then
      the taps      clear the flag at `currentServer`, set the tapped one
      onStop        moves `currentServer` while Stopping, and NO FLAG

  `Unambiguous` is what the three should say together.  Main result
  `unambiguous_iff`: it holds after every event of exactly those sequences in
  which no `initServers` with an empty `connectIp` meets a chosen item and no
  `onStop` moves `currentServer` away from the selected group.
-/
import Mathlib.Logic.Function.Basic
import FoxVpn.App.VpnManager

namespace FoxVpn.App

open FoxVpn.Lib FoxVpn.Bg

/-! ## §1. The objects and the functions on them. -/

/-- The part of `VpnManager` that says what is selected. -/
structure Selection where
  /-- The groups by address; those from `next` on are not built yet. -/
  groups : Nat → VpnServer := fun _ => ⟨"", []⟩
  select : Nat → Bool := fun _ => false
  next : Nat := 0
  /-- `servers.value`, not set before the first `init`. -/
  servers : Option (List Nat) := none
  currentServer : Option Nat := none
  selectServer : Option ServerItem := none
  connectServer : Option ServerItem := none

namespace Selection

def listed (s : Selection) : List Nat := s.servers.getD []

/-- The groups of `buildAllServer` become objects, with `select` false. -/
def alloc (s : Selection) (all : List VpnServer) : Selection :=
  { s with
    groups := fun a => if s.next ≤ a then (all[a - s.next]?).getD (s.groups a) else s.groups a
    select := fun a => if s.next ≤ a then false else s.select a
    next := s.next + all.length }

/-- The nested loops over the servers assign at every item with the given
ip; what stays is the last one, with the group it is in. -/
def lastMatch (s : Selection) (ip : String) (addresses : List Nat) : Option (Nat × ServerItem) :=
  (addresses.flatMap fun a => (s.groups a).servers.map fun i => (a, i)).foldl
    (fun acc m => if ip = m.2.ip then some m else acc) none

/-- `selectServer = it; currentServer.value = vpnServer`. -/
def assign (s : Selection) : Option (Nat × ServerItem) → Selection
  | none => s
  | some (a, i) => { s with selectServer := some i, currentServer := some a }

/-- `currentServer.value?.select?.value = v`. -/
def setSelect (s : Selection) (v : Bool) : Selection :=
  match s.currentServer with
  | none => s
  | some c => { s with select := Function.update s.select c v }

/-- Where `initServers` moves `currentServer` among the new groups; `first()`
throws on an empty list. -/
def locate (s : Selection) (addresses : List Nat) (connectIp : String) : Option Selection :=
  if connectIp = "" then addresses.head?.map fun a => { s with currentServer := some a }
  else
    let m := s.lastMatch connectIp addresses
    some { s.assign m with connectServer := (m.map Prod.snd).or s.connectServer }

def initServers (s : Selection) (foxServers : List ServerItem) (connectIp : String) :
    Option Selection :=
  let all := buildAllServer foxServers
  let addresses := List.range' s.next all.length
  -- the flag is set wherever `currentServer` points: an old object if nothing matched
  ((s.alloc all).locate addresses connectIp).map fun s =>
    { s.setSelect true with servers := some addresses }

/-- What both handlers of `QualityServer` do once they pass their tests. -/
def choose (s : Selection) (server : Nat) (item : Option ServerItem) : Selection :=
  let s := { s with selectServer := item }.setSelect false
  { s with select := Function.update s.select server true, currentServer := some server }

def tapGroup (s : Selection) (adLoadingDialog : Bool) (server : Nat) : Selection :=
  if adLoadingDialog = true then s
  else if s.select server = false then s.choose server (s.groups server).servers.head?
  else s

/-- `same`: the item is the object in `selectServer`. -/
def tapServer (s : Selection) (adLoadingDialog : Bool) (server : Nat) (item : ServerItem)
    (same : Bool) : Selection :=
  if adLoadingDialog = true then s
  else if same = false then s.choose server (some item)
  else s

/-- `determineServer`, with the smart server that is drawn. -/
def start (s : Selection) (smart : ServerItem) : Selection :=
  { s with connectServer := some (s.selectServer.getD smart) }

/-- `onStop` in a state of the screen; `first()` throws on an empty list. -/
def onStop (s : Selection) (state : Option State) (connectIp : String) : Option Selection :=
  if state = some .stopping then
    if connectIp = "" then
      match s.servers with
      | none => some { s with currentServer := none, selectServer := none }
      | some [] => none
      | some (a :: _) => some { s with currentServer := some a, selectServer := none }
    else some (s.assign (s.lastMatch connectIp s.listed))
  else some s

/-- The events of the screen.  `foxServers` and `connectIp` are what is stored
when the event comes. -/
inductive Event where
  | init (foxServers : List ServerItem) (connectIp : String)
  | tapGroup (adLoadingDialog : Bool) (server : Nat)
  /-- `ServerItem` compares its `select` state too, which is compared by
  reference: items with equal texts need not be the same. -/
  | tapServer (adLoadingDialog : Bool) (server : Nat) (item : ServerItem) (same : Bool)
  | startVpn
  | start (smart : ServerItem)
  | stopVpn
  | onStop (state : Option State) (connectIp : String)
  deriving Repr, DecidableEq

def step (s : Selection) : Event → Option Selection
  | .init foxServers connectIp => s.initServers foxServers connectIp
  | .tapGroup dialog server =>
      if server ∈ s.listed then some (s.tapGroup dialog server) else none
  | .tapServer dialog server item same =>
      if server ∈ s.listed ∧ item ∈ (s.groups server).servers
          ∧ (same = true → s.selectServer = some item) then
        some (s.tapServer dialog server item same)
      else none
  | .startVpn => some s
  | .start smart => some (s.start smart)
  | .stopVpn => some s
  | .onStop state connectIp => s.onStop state connectIp

/-! ## §2. The property and the condition. -/

/-- **THE SELECTION IS UNAMBIGUOUS.** -/
structure Unambiguous (s : Selection) : Prop where
  unique : ∀ a ∈ s.listed, ∀ b ∈ s.listed, s.select a = true → s.select b = true → a = b
  current : ∀ a ∈ s.listed, s.select a = true → ∀ c, s.currentServer = some c → a = c
  element : ∀ i, s.selectServer = some i →
    ∃ c, s.currentServer = some c ∧ i ∈ (s.groups c).servers

/-- The group `onStop` moves `currentServer` to. -/
def target (s : Selection) (connectIp : String) : Option Nat :=
  if connectIp = "" then s.listed.head? else (s.lastMatch connectIp s.listed).map Prod.fst

/-- An `initServers` with an empty `connectIp` finds no item chosen, and an
`onStop` moves to the group that is selected. -/
def Settled (s : Selection) : Event → Prop
  | .init _ connectIp => connectIp = "" → s.selectServer = none
  | .onStop state connectIp => state = some .stopping →
      ∀ t ∈ s.target connectIp, ∀ a ∈ s.listed, s.select a = true → a = t
  | _ => True

instance (s : Selection) : (e : Event) → Decidable (s.Settled e)
  | .init _ connectIp => inferInstanceAs (Decidable (connectIp = "" → s.selectServer = none))
  | .onStop state connectIp => inferInstanceAs (Decidable (state = some .stopping →
      ∀ t ∈ s.target connectIp, ∀ a ∈ s.listed, s.select a = true → a = t))
  | .tapGroup _ _ | .tapServer _ _ _ _ | .startVpn | .start _ | .stopVpn => isTrue trivial

/-- The invariant: `Unambiguous`, and a flag that is set is set where
`currentServer` points. -/
structure Inv (s : Selection) : Prop where
  selected : ∀ a ∈ s.listed, s.select a = true → s.currentServer = some a
  element : ∀ i, s.selectServer = some i →
    ∃ c, s.currentServer = some c ∧ i ∈ (s.groups c).servers
  listed_lt : ∀ a ∈ s.listed, a < s.next
  current_lt : ∀ c, s.currentServer = some c → c < s.next

theorem Inv.unambiguous {s : Selection} (hs : s.Inv) : s.Unambiguous where
  unique a ha b hb hsa hsb := by
    have h := (hs.selected a ha hsa).symm.trans (hs.selected b hb hsb)
    exact Option.some.inj h
  current a ha hsa c hc := by
    have h := (hs.selected a ha hsa).symm.trans hc
    exact Option.some.inj h
  element := hs.element

theorem inv_default : Inv {} where
  selected a ha := absurd ha (by simp [listed])
  element i hi := absurd hi (by simp)
  listed_lt a ha := absurd ha (by simp [listed])
  current_lt c hc := absurd hc (by simp)

/-! ## §3. What each function does. -/

section Building

variable {s : Selection} {all : List VpnServer}

theorem groups_alloc_of_lt {a : Nat} (h : a < s.next) : (s.alloc all).groups a = s.groups a := by
  show (if s.next ≤ a then _ else _) = _
  rw [if_neg (by omega)]

theorem select_alloc_of_le {a : Nat} (h : s.next ≤ a) : (s.alloc all).select a = false := by
  show (if s.next ≤ a then _ else _) = _
  rw [if_pos h]

/-- The new objects are the groups that were built. -/
theorem map_groups_alloc :
    (List.range' s.next all.length).map (s.alloc all).groups = all := by
  refine List.ext_getElem (by simp) fun k hk hk' => ?_
  simp [alloc, List.getElem?_eq_getElem hk']

end Building

/-- The match the loops end with is an item of one of the groups. -/
theorem mem_of_lastMatch {s : Selection} {ip : String} {addresses : List Nat} {a : Nat}
    {i : ServerItem} (h : s.lastMatch ip addresses = some (a, i)) :
    a ∈ addresses ∧ i ∈ (s.groups a).servers := by
  have hfold : ∀ (ms : List (Nat × ServerItem)) (acc : Option (Nat × ServerItem)),
      ms.foldl (fun acc m => if ip = m.2.ip then some m else acc) acc = some (a, i) →
        acc = some (a, i) ∨ (a, i) ∈ ms := by
    intro ms
    induction ms with
    | nil => exact fun acc h => Or.inl h
    | cons m ms ih =>
        intro acc h
        rw [List.foldl_cons] at h
        rcases ih _ h with hacc | hmem
        · split at hacc
          next => exact Or.inr (Option.some.inj hacc ▸ List.mem_cons_self)
          next => exact Or.inl hacc
        · exact Or.inr (List.mem_cons_of_mem _ hmem)
  rcases hfold _ none h with h | h
  · exact absurd h (by simp)
  · obtain ⟨b, hb, hm⟩ := List.mem_flatMap.mp h
    obtain ⟨j, hj, hji⟩ := List.mem_map.mp hm
    injection hji with hba hji
    subst hba hji
    exact ⟨hb, hj⟩

/-- The loops of `VpnManager` on the same groups assign the item of the last
match. -/
theorem matching_map_groups (s : Selection) (ip : String) (old : Option ServerItem)
    (addresses : List Nat) :
    matching ip old (addresses.map s.groups)
      = ((s.lastMatch ip addresses).map Prod.snd).or old := by
  have hfold : ∀ (ms : List (Nat × ServerItem)) (acc : Option (Nat × ServerItem)),
      (ms.map Prod.snd).foldl (fun acc i => if ip = i.ip then some i else acc)
          ((acc.map Prod.snd).or old)
        = ((ms.foldl (fun acc m => if ip = m.2.ip then some m else acc) acc).map Prod.snd).or
            old := by
    intro ms
    induction ms with
    | nil => exact fun acc => rfl
    | cons m ms ih =>
        intro acc
        rw [List.map_cons, List.foldl_cons, List.foldl_cons, ← ih]
        by_cases hip : ip = m.2.ip
        · rw [if_pos hip, if_pos hip]
          rfl
        · rw [if_neg hip, if_neg hip]
  have hitems : (addresses.map s.groups).flatMap (·.servers)
      = (addresses.flatMap fun a => (s.groups a).servers.map fun i => (a, i)).map Prod.snd := by
    rw [List.map_flatMap, List.flatMap_map]
    simp
  unfold matching
  rw [hitems]
  exact hfold _ none

section Fields

variable (s : Selection) (v : Bool) (m : Option (Nat × ServerItem))

@[simp] theorem groups_setSelect : (s.setSelect v).groups = s.groups := by
  unfold setSelect; split <;> rfl

@[simp] theorem next_setSelect : (s.setSelect v).next = s.next := by
  unfold setSelect; split <;> rfl

@[simp] theorem servers_setSelect : (s.setSelect v).servers = s.servers := by
  unfold setSelect; split <;> rfl

@[simp] theorem currentServer_setSelect : (s.setSelect v).currentServer = s.currentServer := by
  unfold setSelect; split <;> rfl

@[simp] theorem selectServer_setSelect : (s.setSelect v).selectServer = s.selectServer := by
  unfold setSelect; split <;> rfl

@[simp] theorem connectServer_setSelect : (s.setSelect v).connectServer = s.connectServer := by
  unfold setSelect; split <;> rfl

theorem select_setSelect (a : Nat) :
    (s.setSelect v).select a = if s.currentServer = some a then v else s.select a := by
  unfold setSelect
  split
  next h => rw [h, if_neg (by simp)]
  next c h =>
    show Function.update s.select c v a = _
    rw [h, Function.update_apply]
    by_cases hac : a = c
    · rw [if_pos hac, if_pos (congrArg some hac.symm)]
    · rw [if_neg hac, if_neg (fun h => hac (Option.some.inj h).symm)]

@[simp] theorem groups_assign : (s.assign m).groups = s.groups := by
  cases m <;> rfl

@[simp] theorem next_assign : (s.assign m).next = s.next := by
  cases m <;> rfl

@[simp] theorem servers_assign : (s.assign m).servers = s.servers := by
  cases m <;> rfl

@[simp] theorem select_assign : (s.assign m).select = s.select := by
  cases m <;> rfl

@[simp] theorem connectServer_assign : (s.assign m).connectServer = s.connectServer := by
  cases m <;> rfl

theorem selectServer_assign :
    (s.assign m).selectServer = (m.map Prod.snd).or s.selectServer := by
  cases m <;> rfl

end Fields

/-- What `locate` can do: move to the first group, move to an item that
matches, or stay. -/
theorem locate_spec {s s' : Selection} {addresses : List Nat} {connectIp : String}
    (h : s.locate addresses connectIp = some s') :
    s'.groups = s.groups ∧ s'.select = s.select ∧ s'.next = s.next
      ∧ ((connectIp = "" ∧ s'.selectServer = s.selectServer
          ∧ ∃ a ∈ addresses, addresses.head? = some a ∧ s'.currentServer = some a)
        ∨ (connectIp ≠ "" ∧ ∃ a ∈ addresses, ∃ i ∈ (s.groups a).servers,
          s'.currentServer = some a ∧ s'.selectServer = some i)
        ∨ (connectIp ≠ "" ∧ s'.currentServer = s.currentServer
          ∧ s'.selectServer = s.selectServer)) := by
  unfold locate at h
  by_cases hip : connectIp = ""
  · rw [if_pos hip] at h
    obtain ⟨a, ha, hs'⟩ := Option.map_eq_some_iff.mp h
    subst hs'
    exact ⟨rfl, rfl, rfl, Or.inl ⟨hip, rfl, a, List.mem_of_head? ha, ha, rfl⟩⟩
  · rw [if_neg hip] at h
    have hs' := Option.some.inj h
    subst hs'
    refine ⟨by simp, by simp, by simp, Or.inr ?_⟩
    cases hm : s.lastMatch connectIp addresses with
    | none => exact Or.inr ⟨hip, rfl, rfl⟩
    | some m =>
        obtain ⟨ha, hi⟩ := mem_of_lastMatch hm
        exact Or.inl ⟨hip, m.1, ha, m.2, hi, rfl, rfl⟩

/-! ## §4. The steps keep the invariant. -/

/-- The tapped group is the only one selected afterwards. -/
theorem Inv.choose {s : Selection} (hs : s.Inv) {server : Nat} {item : Option ServerItem}
    (hserver : server ∈ s.listed) (hitem : ∀ i ∈ item, i ∈ (s.groups server).servers) :
    (s.choose server item).Inv where
  selected a ha hsel := by
    have ha : a ∈ s.listed := by simpa [Selection.choose, listed] using ha
    have hsel : Function.update (({ s with selectServer := item }).setSelect false).select
        server true a = true := hsel
    show some server = some a
    by_cases haserver : a = server
    · rw [haserver]
    · -- the flag of `a` was set before, so `currentServer` was there and it has been cleared
      rw [Function.update_of_ne haserver, select_setSelect] at hsel
      by_cases hcur : s.currentServer = some a
      · rw [if_pos hcur] at hsel
        exact absurd hsel (by simp)
      · rw [if_neg hcur] at hsel
        exact absurd (hs.selected a ha hsel) hcur
  element i hi := by
    have hi : item = some i := by simpa [Selection.choose] using hi
    refine ⟨server, rfl, ?_⟩
    simpa [Selection.choose] using hitem i hi
  listed_lt a ha := by
    have ha : a ∈ s.listed := by simpa [Selection.choose, listed] using ha
    simpa [Selection.choose] using hs.listed_lt a ha
  current_lt c hc := by
    have hc : server = c := Option.some.inj hc
    subst hc
    simpa [Selection.choose] using hs.listed_lt server hserver

theorem Inv.tapGroup {s : Selection} (hs : s.Inv) (dialog : Bool) {server : Nat}
    (hserver : server ∈ s.listed) : (s.tapGroup dialog server).Inv := by
  unfold Selection.tapGroup
  split
  next => exact hs
  next =>
    split
    next => exact hs.choose hserver fun i hi => List.mem_of_head? hi
    next => exact hs

theorem Inv.tapServer {s : Selection} (hs : s.Inv) (dialog same : Bool) {server : Nat}
    {item : ServerItem} (hserver : server ∈ s.listed) (hitem : item ∈ (s.groups server).servers) :
    (s.tapServer dialog server item same).Inv := by
  unfold Selection.tapServer
  split
  next => exact hs
  next =>
    split
    next =>
      refine hs.choose hserver fun i hi => ?_
      rw [← Option.some.inj hi]
      exact hitem
    next => exact hs

theorem Inv.initServers {s s' : Selection} (hs : s.Inv) {foxServers : List ServerItem}
    {connectIp : String} (hC : connectIp = "" → s.selectServer = none)
    (h : s.initServers foxServers connectIp = some s') : s'.Inv := by
  obtain ⟨moved, hmoved, rfl⟩ := Option.map_eq_some_iff.mp h
  obtain ⟨hgroups, hselect, hnext, hcases⟩ := locate_spec hmoved
  have hnext' : moved.next = s.next + (buildAllServer foxServers).length := hnext
  have hnew : ∀ a ∈ List.range' s.next (buildAllServer foxServers).length,
      s.next ≤ a ∧ a < moved.next := by
    intro a ha
    rw [List.mem_range'_1] at ha
    omega
  refine ⟨fun a ha hsel => ?_, fun i hi => ?_, fun a ha => ?_, fun c hc => ?_⟩
  · -- a new object has a false flag, unless it is the one that has just been set
    have hsel : (moved.setSelect true).select a = true := hsel
    rw [select_setSelect, hselect, select_alloc_of_le (hnew a ha).1] at hsel
    have hcur : moved.currentServer = some a := by
      by_contra hcur
      rw [if_neg hcur] at hsel
      exact absurd hsel (by simp)
    exact (currentServer_setSelect moved true).trans hcur
  · have hi : moved.selectServer = some i := (selectServer_setSelect moved true).symm.trans hi
    show ∃ c, (moved.setSelect true).currentServer = some c
      ∧ i ∈ ((moved.setSelect true).groups c).servers
    rw [currentServer_setSelect, groups_setSelect, hgroups]
    rcases hcases with ⟨hip, hsame, -⟩ | ⟨-, a, -, j, hj, hcur, hj'⟩ | ⟨-, hcur, hsame⟩
    · have hnone : moved.selectServer = none := hsame.trans (hC hip)
      rw [hnone] at hi
      exact absurd hi (by simp)
    · rw [hj'] at hi
      exact ⟨a, hcur, Option.some.inj hi ▸ hj⟩
    · -- nothing matched: the old group is still there under its address
      obtain ⟨c, hc, hmem⟩ := hs.element i (hsame.symm.trans hi)
      refine ⟨c, hcur.trans hc, ?_⟩
      rw [groups_alloc_of_lt (hs.current_lt c hc)]
      exact hmem
  · exact (hnew a ha).2.trans_eq (next_setSelect moved true).symm
  · have hc : moved.currentServer = some c := (currentServer_setSelect moved true).symm.trans hc
    show c < (moved.setSelect true).next
    rw [next_setSelect]
    rcases hcases with ⟨-, -, a, ha, -, hcur⟩ | ⟨-, a, ha, -, -, hcur, -⟩ | ⟨-, hcur, -⟩
    · rw [hcur] at hc
      exact Option.some.inj hc ▸ (hnew a ha).2
    · rw [hcur] at hc
      exact Option.some.inj hc ▸ (hnew a ha).2
    · have hlt := hs.current_lt c (hcur.symm.trans hc)
      omega

/-- What `onStop` can do while Stopping: `currentServer` goes to the target
if there is one, and no flag changes. -/
theorem onStop_spec {s s' : Selection} {connectIp : String}
    (h : s.onStop (some .stopping) connectIp = some s') :
    s'.groups = s.groups ∧ s'.select = s.select ∧ s'.next = s.next ∧ s'.servers = s.servers
      ∧ ((∃ t ∈ s.listed, s.target connectIp = some t ∧ s'.currentServer = some t
          ∧ ∀ i, s'.selectServer = some i → i ∈ (s.groups t).servers)
        ∨ (s.target connectIp = none ∧ s.listed = [] ∧ s'.currentServer = none
          ∧ s'.selectServer = none)
        ∨ (s.target connectIp = none ∧ s' = s)) := by
  unfold onStop at h
  rw [if_pos rfl] at h
  unfold target
  by_cases hip : connectIp = ""
  · rw [if_pos hip] at h ⊢
    split at h
    next hservers =>
      obtain rfl := Option.some.inj h
      have hnil : s.listed = [] := by simp [listed, hservers]
      exact ⟨rfl, rfl, rfl, rfl, Or.inr (Or.inl ⟨by rw [hnil]; rfl, hnil, rfl, rfl⟩)⟩
    next => exact absurd h (by simp)
    next a rest hservers =>
      obtain rfl := Option.some.inj h
      have hcons : s.listed = a :: rest := by simp [listed, hservers]
      refine ⟨rfl, rfl, rfl, rfl, Or.inl ⟨a, ?_, by rw [hcons]; rfl, rfl, ?_⟩⟩
      · rw [hcons]
        exact List.mem_cons_self
      · exact fun i hi => absurd hi (by simp)
  · rw [if_neg hip] at h ⊢
    obtain rfl := Option.some.inj h
    refine ⟨by simp, by simp, by simp, by simp, ?_⟩
    cases hm : s.lastMatch connectIp s.listed with
    | none => exact Or.inr (Or.inr ⟨rfl, rfl⟩)
    | some m =>
        obtain ⟨ha, hi⟩ := mem_of_lastMatch hm
        refine Or.inl ⟨m.1, ha, rfl, rfl, fun i h => ?_⟩
        exact Option.some.inj (h : some m.2 = some i) ▸ hi

theorem Inv.onStop {s s' : Selection} (hs : s.Inv) {connectIp : String}
    (hC : ∀ t ∈ s.target connectIp, ∀ a ∈ s.listed, s.select a = true → a = t)
    (h : s.onStop (some .stopping) connectIp = some s') : s'.Inv := by
  obtain ⟨hgroups, hselect, hnext, hservers, hcases⟩ := onStop_spec h
  have hlisted : s'.listed = s.listed := congrArg (·.getD []) hservers
  rcases hcases with ⟨t, ht, htarget, hcur, hitem⟩ | ⟨-, hnil, hcur, hitem⟩ | ⟨-, rfl⟩
  · refine ⟨fun a ha hsel => ?_, fun i hi => ?_, fun a ha => ?_, fun c hc => ?_⟩
    · rw [hselect] at hsel
      rw [hcur, hC t htarget a (hlisted ▸ ha) hsel]
    · rw [hgroups]
      exact ⟨t, hcur, hitem i hi⟩
    · rw [hnext]
      exact hs.listed_lt a (hlisted ▸ ha)
    · rw [hcur] at hc
      rw [hnext, ← Option.some.inj hc]
      exact hs.listed_lt t ht
  · rw [hnil] at hlisted
    refine ⟨fun a ha => ?_, fun i hi => ?_, fun a ha => ?_, fun c hc => ?_⟩
    · exact absurd ha (by simp [hlisted])
    · exact absurd hi (by simp [hitem])
    · exact absurd ha (by simp [hlisted])
    · exact absurd hc (by simp [hcur])
  · exact hs

theorem onStop_other {s : Selection} {state : Option State} {connectIp : String}
    (hstate : state ≠ some .stopping) : s.onStop state connectIp = some s := by
  unfold onStop
  rw [if_neg hstate]

/-- **A settled event keeps the invariant.** -/
theorem Inv.step {s s' : Selection} {e : Event} (hC : s.Settled e) (h : s.step e = some s')
    (hs : s.Inv) : s'.Inv := by
  cases e with
  | init foxServers connectIp => exact hs.initServers hC h
  | tapGroup dialog server =>
      obtain ⟨hserver, rfl⟩ := of_enabled h
      exact hs.tapGroup dialog hserver
  | tapServer dialog server item same =>
      obtain ⟨⟨hserver, hitem, -⟩, rfl⟩ := of_enabled h
      exact hs.tapServer dialog same hserver hitem
  | startVpn => exact Option.some.inj h ▸ hs
  | start smart =>
      -- only `connectServer` is assigned
      obtain rfl := Option.some.inj h
      exact ⟨hs.selected, hs.element, hs.listed_lt, hs.current_lt⟩
  | stopVpn => exact Option.some.inj h ▸ hs
  | onStop state connectIp =>
      have h : s.onStop state connectIp = some s' := h
      by_cases hstate : state = some .stopping
      · subst hstate
        exact hs.onStop (hC rfl) h
      · rw [onStop_other hstate] at h
        exact Option.some.inj h ▸ hs

/-! ## §5. The events that break it, and the main result. -/

theorem head?_buildAllServer {foxServers : List ServerItem} {v : VpnServer}
    (h : (buildAllServer foxServers).head? = some v) : v = ⟨"Auto", []⟩ := by
  unfold buildAllServer at h
  split at h
  next => exact absurd h (by simp)
  next => exact (Option.some.inj h).symm

/-- The group `first()` returns is the one without servers. -/
theorem groups_first {s : Selection} {foxServers : List ServerItem} {a : Nat}
    (h : (List.range' s.next (buildAllServer foxServers).length).head? = some a) :
    ((s.alloc (buildAllServer foxServers)).groups a).servers = [] := by
  have hall : (List.range' s.next (buildAllServer foxServers).length).map
      (s.alloc (buildAllServer foxServers)).groups = buildAllServer foxServers := map_groups_alloc
  have hhead : (buildAllServer foxServers).head?
      = some ((s.alloc (buildAllServer foxServers)).groups a) := by
    rw [← congrArg List.head? hall, List.head?_map, h]
    rfl
  rw [head?_buildAllServer hhead]

/-- **An event that is not settled ends in an ambiguous selection.** -/
theorem not_unambiguous {s s' : Selection} {e : Event} (hC : ¬ s.Settled e)
    (h : s.step e = some s') : ¬ s'.Unambiguous := by
  intro hP
  cases e with
  | init foxServers connectIp =>
      -- the item that stays chosen is not a server of Auto
      obtain ⟨hip, hsome⟩ := Classical.not_imp.mp hC
      obtain ⟨i, hi⟩ := Option.ne_none_iff_exists'.mp hsome
      obtain ⟨moved, hmoved, rfl⟩ := Option.map_eq_some_iff.mp h
      obtain ⟨hgroups, -, -, hcases⟩ := locate_spec hmoved
      rcases hcases with ⟨-, hsame, a, -, hhead, hcur⟩ | ⟨hne, -⟩ | ⟨hne, -⟩
      · obtain ⟨c, hc, hmem⟩ := hP.element i
          ((selectServer_setSelect moved true).trans (hsame.trans hi))
        have hc : (moved.setSelect true).currentServer = some c := hc
        have hmem : i ∈ ((moved.setSelect true).groups c).servers := hmem
        rw [currentServer_setSelect, hcur] at hc
        rw [groups_setSelect, hgroups, ← Option.some.inj hc, groups_first hhead] at hmem
        exact absurd hmem (by simp)
      · exact hne hip
      · exact hne hip
  | onStop state connectIp =>
      obtain ⟨hstate, hmove⟩ := Classical.not_imp.mp hC
      subst hstate
      refine hmove fun t ht a ha hsel => ?_
      obtain ⟨-, hselect, -, hservers, hcases⟩ := onStop_spec h
      have hlisted : s'.listed = s.listed := congrArg (·.getD []) hservers
      rcases hcases with ⟨t', -, ht', hcur, -⟩ | ⟨hnone, -⟩ | ⟨hnone, -⟩
      · rw [Option.mem_def, ht'] at ht
        rw [← Option.some.inj ht]
        exact hP.current a (hlisted ▸ ha) (by rw [hselect]; exact hsel) t' hcur
      · exact absurd (hnone.symm.trans ht) (by simp)
      · exact absurd (hnone.symm.trans ht) (by simp)
  | _ => exact hC trivial

/-- **THE SELECTION IS UNAMBIGUOUS AFTER EVERY EVENT EXACTLY IF EVERY EVENT
IS SETTLED**: `onStop` leaves the flag of the group the user had chosen, and
an `init` with an empty `connectIp` leaves the item. -/
theorem unambiguous_iff (events : List Event) (s' : Selection)
    (hrun : exec step {} events = some s') :
    Along step Unambiguous {} events ↔ Meets step Settled {} events :=
  along_iff_meets (I := Inv) (fun _ hs => hs.unambiguous)
    (fun _ _ _ hC h hs => hs.step hC h) (fun _ _ _ hC h _ => not_unambiguous hC h)
    events {} s' inv_default hrun

def japan : ServerItem := ⟨"1.1.1.1", "aes-256-gcm", "p", 443, "Tokyo", "Japan"⟩

def france : ServerItem := ⟨"2.2.2.2", "aes-256-gcm", "p", 443, "Paris", "France"⟩

/-- Connected to Japan, another server is tapped and the screen left while
the VPN is connecting. -/
theorem unambiguous_left_connecting :
    ∃ s', exec step {} [.init [japan, france] "1.1.1.1", .tapServer false 2 france false,
        .startVpn, .start japan, .onStop (some .connecting) "1.1.1.1"] = some s'
      ∧ Along step Unambiguous {} [.init [japan, france] "1.1.1.1",
        .tapServer false 2 france false, .startVpn, .start japan,
        .onStop (some .connecting) "1.1.1.1"] := by
  obtain ⟨s', hrun, -⟩ := exists_of_exec_test step {} [.init [japan, france] "1.1.1.1",
    .tapServer false 2 france false, .startVpn, .start japan,
    .onStop (some .connecting) "1.1.1.1"] (fun _ => true) (by decide)
  exact ⟨s', hrun, (unambiguous_iff _ s' hrun).mpr (by decide)⟩

/-- Connected to Japan, France is tapped and the screen left while the VPN is
Stopping: `currentServer` is Japan and France selected.  A tap on Japan then
leaves BOTH selected. -/
theorem ambiguous_left_stopping :
    ∃ s', exec step {} [.init [japan, france] "1.1.1.1", .tapGroup false 2, .stopVpn,
        .onStop (some .stopping) "1.1.1.1", .tapGroup false 1] = some s'
      ∧ s'.listed = [0, 1, 2] ∧ s'.select 1 = true ∧ s'.select 2 = true
      ∧ ¬ s'.Unambiguous := by
  obtain ⟨s', hrun, htest⟩ := exists_of_exec_test step {} [.init [japan, france] "1.1.1.1",
    .tapGroup false 2, .stopVpn, .onStop (some .stopping) "1.1.1.1", .tapGroup false 1]
    (fun s => decide (s.listed = [0, 1, 2]) && (s.select 1 && s.select 2)) (by decide)
  simp only [Bool.and_eq_true, decide_eq_true_eq] at htest
  obtain ⟨hlisted, hone, htwo⟩ := htest
  refine ⟨s', hrun, hlisted, hone, htwo, fun hP => ?_⟩
  have h := hP.unique 1 (by simp [hlisted]) 2 (by simp [hlisted]) hone htwo
  exact absurd h (by decide)

/-! ## §6. The view model sees the same selection. -/

/-- The three properties of `VpnManager` that the connection depends on. -/
structure Agrees (s : Selection) (m : VpnManager) : Prop where
  servers : m.servers = s.listed.map s.groups
  selectServer : m.selectServer = s.selectServer
  connectServer : m.connectServer = s.connectServer

theorem initServers_agrees {s s' : Selection} {m : VpnManager} (hm : s.Agrees m)
    {foxServers : List ServerItem} {connectIp : String}
    (h : s.initServers foxServers connectIp = some s') :
    ∃ m', m.initServers connectIp foxServers = some m' ∧ s'.Agrees m' := by
  obtain ⟨moved, hmoved, rfl⟩ := Option.map_eq_some_iff.mp h
  have hgroups := (locate_spec hmoved).1
  have hservers : buildAllServer foxServers
      = (List.range' s.next (buildAllServer foxServers).length).map
          (moved.setSelect true).groups := by
    rw [groups_setSelect, hgroups, map_groups_alloc]
  unfold locate at hmoved
  unfold VpnManager.initServers
  by_cases hip : connectIp = ""
  · rw [if_pos hip] at hmoved ⊢
    obtain ⟨a, ha, rfl⟩ := Option.map_eq_some_iff.mp hmoved
    have hne : buildAllServer foxServers ≠ [] := by
      intro hnil
      rw [hnil] at ha
      exact absurd ha (by simp)
    rw [if_neg hne]
    refine ⟨_, rfl, hservers, ?_, ?_⟩
    · show m.selectServer = (setSelect _ true).selectServer
      rw [selectServer_setSelect]
      exact hm.selectServer
    · show m.connectServer = (setSelect _ true).connectServer
      rw [connectServer_setSelect]
      exact hm.connectServer
  · rw [if_neg hip] at hmoved ⊢
    obtain rfl := Option.some.inj hmoved
    have hmatch (old : Option ServerItem) :
        matching connectIp old (buildAllServer foxServers)
          = (((s.alloc (buildAllServer foxServers)).lastMatch connectIp
              (List.range' s.next (buildAllServer foxServers).length)).map Prod.snd).or old := by
      rw [← matching_map_groups, map_groups_alloc]
    refine ⟨_, rfl, hservers, ?_, ?_⟩
    · show matching connectIp m.selectServer (buildAllServer foxServers)
        = (setSelect _ true).selectServer
      rw [hmatch, hm.selectServer, selectServer_setSelect]
      exact (selectServer_assign (s.alloc (buildAllServer foxServers)) _).symm
    · show matching connectIp m.connectServer (buildAllServer foxServers)
        = (setSelect _ true).connectServer
      rw [hmatch, hm.connectServer, connectServer_setSelect]
      rfl

/-- What `VpnManager.onStop` does to the three. -/
theorem onStop_fields (m : VpnManager) (connectIp : String) :
    (m.onStop connectIp).servers = m.servers
      ∧ (m.onStop connectIp).connectServer = m.connectServer
      ∧ (m.onStop connectIp).selectServer
        = if m.state = some .stopping then
            if connectIp = "" then none else matching connectIp m.selectServer m.servers
          else m.selectServer := by
  unfold VpnManager.onStop
  by_cases hstop : m.state = some .stopping
  · simp only [hstop, if_true, VpnManager.cancelDisconnecting]
    cases m.disconnectingJob <;> exact ⟨rfl, rfl, rfl⟩
  · simp only [hstop, if_false, VpnManager.cancelConnecting]
    by_cases hconn : m.state = some .connecting
    · rw [if_pos hconn]
      cases m.connectingJob <;> exact ⟨rfl, rfl, rfl⟩
    · rw [if_neg hconn]
      exact ⟨rfl, rfl, rfl⟩

theorem onStop_agrees {s s' : Selection} {m : VpnManager} (hm : s.Agrees m)
    {connectIp : String} (h : s.onStop m.state connectIp = some s') :
    s'.Agrees (m.onStop connectIp) := by
  obtain ⟨hservers, hconnect, hselect⟩ := onStop_fields m connectIp
  by_cases hstate : m.state = some .stopping
  · rw [if_pos hstate] at hselect
    rw [hstate] at h
    obtain ⟨hgroups, -, -, hlist, -⟩ := onStop_spec h
    have hlisted : s'.listed.map s'.groups = s.listed.map s.groups := by
      rw [hgroups, show s'.listed = s.listed from congrArg (·.getD []) hlist]
    unfold onStop at h
    rw [if_pos rfl] at h
    by_cases hip : connectIp = ""
    · rw [if_pos hip] at h hselect
      have hs' : s'.selectServer = none ∧ s'.connectServer = s.connectServer := by
        split at h
        next => exact Option.some.inj h ▸ ⟨rfl, rfl⟩
        next => exact absurd h (by simp)
        next => exact Option.some.inj h ▸ ⟨rfl, rfl⟩
      exact ⟨hservers.trans (hm.servers.trans hlisted.symm), hselect.trans hs'.1.symm,
        hconnect.trans (hm.connectServer.trans hs'.2.symm)⟩
    · rw [if_neg hip] at h hselect
      have hs' := Option.some.inj h
      rw [hm.servers, matching_map_groups, hm.selectServer, ← selectServer_assign, hs'] at hselect
      refine ⟨hservers.trans (hm.servers.trans hlisted.symm), hselect, ?_⟩
      rw [hconnect, hm.connectServer, ← hs', connectServer_assign]
  · rw [if_neg hstate] at hselect
    rw [onStop_other hstate] at h
    obtain rfl := Option.some.inj h
    exact ⟨hservers.trans hm.servers, hselect.trans hm.selectServer,
      hconnect.trans hm.connectServer⟩

end Selection

end FoxVpn.App
