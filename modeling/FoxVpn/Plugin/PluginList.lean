/-
  FoxVpn.Plugin.PluginList
  ────────────────────────
  **THE PLUGINS BY THEIR NAMES.**

  A plugin has an id and aliases.  `PluginList.lookup` is filled with all of
  them, plugin after plugin, and what a `put` replaced is checked:

      nothing replaced                     a new name
      the plugin itself, by REFERENCE      it repeats one of its names
      any other plugin                     thrown

  Two plugins may be equal and still be two objects, so a plugin here is a
  reference, and what it refers to is read where the source reads it.

  Main result `lookup_unambiguous`: the map is built if no two objects of the
  list share a name, and only then; it has every name with the one plugin
  that declares it and no other name, whatever the order of the list.
-/
import FoxVpn.Lib.LinkedMap
import FoxVpn.Utils.Fault

namespace FoxVpn.Plugin.PluginList

open FoxVpn.Lib

/-! ## §1. The list and its map. -/

/-- What is read of a `Plugin`. -/
structure PluginObject where
  id : String
  idAliases : List String := []
  packageName : String := ""

/-- `NoPlugin`. -/
def noPlugin : PluginObject where
  id := ""

variable {ρ : Type}

/-- A provider that was found, and its `NativePlugin`. -/
structure Provider (ρ : Type) where
  exported : Bool
  plugin : ρ

/-- `init`: `NoPlugin`, then the providers that are exported. -/
def init (nothing : ρ) (providers : List (Provider ρ)) : List ρ :=
  nothing :: (providers.filter fun it => it.exported).map Provider.plugin

variable [DecidableEq ρ] (deref : ρ → PluginObject)

/-- The exception, with the packages of the plugins that have the id of this
one. -/
def conflicting (list : List ρ) (plugin : ρ) : Fault :=
  let packages := (list.filter fun it => (deref it).id = (deref plugin).id).map fun it =>
    (deref it).packageName
  .illegalState ("Conflicting plugins found from: " ++ ", ".intercalate packages)

/-- `check(old)`. -/
def check (list : List ρ) (plugin : ρ) (old : Option ρ) : Except Fault Unit :=
  match old with
  | none => .ok ()
  | some old => if old ≠ plugin then .error (conflicting deref list plugin) else .ok ()

/-- `check(put(name, plugin))`. -/
def checkPut (list : List ρ) (plugin : ρ) (lookup : LinkedMap String ρ) (name : String) :
    Except Fault (LinkedMap String ρ) :=
  (check deref list plugin (lookup.get name)).map fun _ => lookup.put name plugin

/-- One round of the loop: the id, then the aliases. -/
def addPlugin (list : List ρ) (lookup : LinkedMap String ρ) (plugin : ρ) :
    Except Fault (LinkedMap String ρ) := do
  let lookup ← checkPut deref list plugin lookup (deref plugin).id
  (deref plugin).idAliases.foldlM (checkPut deref list plugin) lookup

/-- `lookup`. -/
def lookup (list : List ρ) : Except Fault (LinkedMap String ρ) :=
  list.foldlM (addPlugin deref list) {}

/-! ## §2. Names. -/

/-- The ids and aliases a plugin declares. -/
def names (p : ρ) : List String := (deref p).id :: (deref p).idAliases

/-- Two distinct objects of the list share a name. -/
def Conflict (list : List ρ) : Prop :=
  ∃ p ∈ list, ∃ q ∈ list, p ≠ q ∧ ∃ name, name ∈ names deref p ∧ name ∈ names deref q

/-- Every name of the list, with the plugin that declares it. -/
def declarations (list : List ρ) : List (String × ρ) :=
  list.flatMap fun p => (names deref p).map fun name => (name, p)

omit [DecidableEq ρ] in
theorem mem_declarations {list : List ρ} {name : String} {p : ρ} :
    (name, p) ∈ declarations deref list ↔ p ∈ list ∧ name ∈ names deref p := by
  simp [declarations]

omit [DecidableEq ρ] in
/-- No conflict: a name has one plugin. -/
theorem rightUnique_iff {list : List ρ} :
    Relator.RightUnique (LinkedMap.Declared {} (declarations deref list))
      ↔ ¬ Conflict deref list := by
  have hdeclared : ∀ name p, LinkedMap.Declared {} (declarations deref list) name p
      ↔ p ∈ list ∧ name ∈ names deref p := by
    intro name p
    rw [← mem_declarations]
    exact or_iff_right (by simp [LinkedMap.get])
  constructor
  · rintro hunique ⟨p, hp, q, hq, hne, name, hnp, hnq⟩
    exact hne (hunique ((hdeclared name p).mpr ⟨hp, hnp⟩) ((hdeclared name q).mpr ⟨hq, hnq⟩))
  · intro hno name p q hp hq
    rw [hdeclared] at hp hq
    by_contra hne
    exact hno ⟨p, hp.1, q, hq.1, hne, name, hp.2, hq.2⟩

/-! ## §3. The loops. -/

theorem checkPut_eq (list : List ρ) (plugin : ρ) (m : LinkedMap String ρ) (name : String) :
    checkPut deref list plugin m name
      = LinkedMap.putNew (fun e => conflicting deref list e.2) m (name, plugin) := by
  unfold checkPut check LinkedMap.putNew
  cases m.get name with
  | none => rfl
  | some old =>
      show Except.map _ (if old ≠ plugin then _ else _) = if old = plugin then _ else _
      by_cases hold : old = plugin
      · rw [if_neg (not_not_intro hold), if_pos hold]
        rfl
      · rw [if_pos hold, if_neg hold]
        rfl

/-- A round puts the names of the plugin, one after the other. -/
theorem addPlugin_eq (list : List ρ) (m : LinkedMap String ρ) (plugin : ρ) :
    addPlugin deref list m plugin
      = ((names deref plugin).map fun name => (name, plugin)).foldlM
          (LinkedMap.putNew fun e => conflicting deref list e.2) m := by
  rw [List.foldlM_map]
  simp only [← checkPut_eq]
  rfl

/-- **The two loops are one**, over the declarations. -/
theorem lookup_eq (list : List ρ) :
    lookup deref list
      = (declarations deref list).foldlM
          (LinkedMap.putNew fun e => conflicting deref list e.2) {} := by
  have hid : ∀ r : Except Fault (LinkedMap String ρ), r.map id = r := fun r => by
    cases r <;> rfl
  have hround : ∀ (m : LinkedMap String ρ) (plugin : ρ),
      ((names deref plugin).map fun name => (name, plugin)).foldlM
          (LinkedMap.putNew fun e => conflicting deref list e.2) (id m)
        = (addPlugin deref list m plugin).map id := by
    intro m plugin
    rw [hid, addPlugin_eq]
    rfl
  have hloop := foldlM_flatMap_map hround list ({ } : LinkedMap String ρ)
  rw [hid] at hloop
  exact hloop.symm

/-- What `lookup` is: a map of exactly the declarations, or an exception. -/
theorem lookup_cases (list : List ρ) :
    (¬ Conflict deref list ∧ ∃ m, lookup deref list = .ok m
        ∧ ∀ name p, m.get name = some p ↔ p ∈ list ∧ name ∈ names deref p)
      ∨ (Conflict deref list ∧ ∃ fault, lookup deref list = .error fault) := by
  have hfill := LinkedMap.foldlM_putNew (fun e => conflicting deref list e.2)
    (declarations deref list) {}
  rw [← lookup_eq, rightUnique_iff, not_not] at hfill
  refine hfill.imp_left fun ⟨hno, m, hm, hget⟩ => ⟨hno, m, hm, fun name p => ?_⟩
  rw [hget, ← mem_declarations]
  exact or_iff_right (by simp [LinkedMap.get])

theorem lookup_eq_error_iff (list : List ρ) :
    (∃ fault, lookup deref list = .error fault) ↔ Conflict deref list := by
  rcases lookup_cases deref list with ⟨hno, m, hm, _⟩ | ⟨hconflict, herror⟩
  · refine iff_of_false ?_ hno
    rintro ⟨fault, hfault⟩
    rw [hm] at hfault
    cases hfault
  · exact iff_of_true herror hconflict

theorem get_lookup_iff {list : List ρ} {m : LinkedMap String ρ} (hm : lookup deref list = .ok m)
    (name : String) (p : ρ) : m.get name = some p ↔ p ∈ list ∧ name ∈ names deref p := by
  rcases lookup_cases deref list with ⟨_, m', hm', hget⟩ | ⟨_, fault, hfault⟩
  · obtain rfl : m = m' := Except.ok.inj (hm.symm.trans hm')
    exact hget name p
  · rw [hfault] at hm
    cases hm

/-! ## §4. The whole list. -/

/-- **What a map of names has to be.** -/
structure Unambiguous (list : List ρ) (m : LinkedMap String ρ) : Prop where
  /-- Every id and every alias, with the one plugin that declares it. -/
  declared : ∀ p ∈ list, ∀ name ∈ names deref p,
    m.get name = some p ∧ ∀ q ∈ list, name ∈ names deref q → q = p
  /-- No other key. -/
  other : ∀ name, (∀ p ∈ list, name ∉ names deref p) → m.get name = none
  /-- The list in any other order has the same map. -/
  order : ∀ list', (∀ p, p ∈ list' ↔ p ∈ list) →
    ∃ m', lookup deref list' = .ok m' ∧ ∀ name, m'.get name = m.get name

theorem unambiguous_of_lookup {list : List ρ} {m : LinkedMap String ρ}
    (hm : lookup deref list = .ok m) : Unambiguous deref list m where
  declared p hp name hname := by
    have hget := (get_lookup_iff deref hm name p).mpr ⟨hp, hname⟩
    refine ⟨hget, fun q hq hnq => ?_⟩
    have hgetq := (get_lookup_iff deref hm name q).mpr ⟨hq, hnq⟩
    exact Option.some.inj (hgetq.symm.trans hget)
  other name hno := by
    cases hget : m.get name with
    | none => rfl
    | some p =>
        obtain ⟨hp, hname⟩ := (get_lookup_iff deref hm name p).mp hget
        exact absurd hname (hno p hp)
  order list' hmem := by
    rcases lookup_cases deref list' with ⟨_, m', hm', hget⟩ | ⟨hconflict, _⟩
    · refine ⟨m', hm', fun name => Option.ext fun p => ?_⟩
      rw [hget, get_lookup_iff deref hm, hmem]
    · -- a conflict of the one list would be one of the other
      obtain ⟨p, hp, q, hq, hshared⟩ := hconflict
      have herror := (lookup_eq_error_iff deref list).mpr
        ⟨p, (hmem p).mp hp, q, (hmem q).mp hq, hshared⟩
      obtain ⟨fault, hfault⟩ := herror
      rw [hm] at hfault
      cases hfault

/-- **THE MAP IS BUILT IFF NO TWO OBJECTS SHARE A NAME**, and then it is the
map of the names. -/
theorem lookup_unambiguous (list : List ρ) :
    ((∃ fault, lookup deref list = .error fault) ↔ Conflict deref list)
      ∧ ∀ m, lookup deref list = .ok m → Unambiguous deref list m :=
  ⟨lookup_eq_error_iff deref list, fun _ => unambiguous_of_lookup deref⟩

/-- A plugin that repeats its id, and one that has an alias of the other. -/
def tunnels : Fin 3 → PluginObject
  | 0 => noPlugin
  | 1 => { id := "kcp", idAliases := ["kcp", "kcptun"] }
  | 2 => { id := "tun", idAliases := ["kcptun"] }

/-- The first one may stand in the list twice; with the second one the map is
not built. -/
theorem lookup_unambiguous_tunnels :
    (∃ m, lookup tunnels [0, 1, 1] = .ok m ∧ Unambiguous tunnels [0, 1, 1] m)
      ∧ ∃ fault, lookup tunnels [0, 1, 2] = .error fault := by
  have hm : lookup tunnels [0, 1, 1]
      = .ok ⟨[("", 0), ("kcp", 1), ("kcptun", 1)], by decide⟩ := by decide
  refine ⟨⟨_, hm, (lookup_unambiguous tunnels [0, 1, 1]).2 _ hm⟩, ?_⟩
  exact (lookup_unambiguous tunnels [0, 1, 2]).1.mpr
    ⟨1, by decide, 2, by decide, by decide, "kcptun", by decide, by decide⟩

/-- **The empty name is taken**: an exported provider that declares it can not
be loaded beside `NoPlugin`. -/
theorem lookup_init_of_empty_name {nothing : ρ} (hnothing : deref nothing = noPlugin)
    {providers : List (Provider ρ)} {it : Provider ρ} (hit : it ∈ providers)
    (hexported : it.exported = true) (hne : it.plugin ≠ nothing)
    (hname : "" ∈ names deref it.plugin) :
    ∃ fault, lookup deref (init nothing providers) = .error fault := by
  have hmem : it.plugin ∈ init nothing providers :=
    List.mem_cons_of_mem _ (List.mem_map_of_mem (List.mem_filter.mpr ⟨hit, hexported⟩))
  have hempty : "" ∈ names deref nothing := by
    unfold names
    rw [hnothing]
    exact List.mem_cons_self
  exact (lookup_eq_error_iff deref _).mpr
    ⟨it.plugin, hmem, nothing, List.mem_cons_self, hne, "", hname, hempty⟩

end FoxVpn.Plugin.PluginList
