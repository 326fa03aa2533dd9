/-
  FoxVpn.Database.Migrations
  ──────────────────────────
  **OPENING AN OLDER DATABASE — the migrations of `PrivateDatabase`.**

  Neither Room nor SQLite is part of the app, so both are PARAMETERS.  Of the
  SQL engine the results use the outcome of statements that can break no
  constraint, in files that hold tables only (`Lib.Sql`).  Of Room
  (`structure Room`) they use two things: a file of the present version with
  the right identity hash is opened as it is; for an older one the migrations
  found for its version are run one after the other, and if every entity then
  has its table (`schemas/…/29.json`) the file is opened.

      25 → 26   `Profile` and `KeyValuePair` are created anew as `tmp`, the
                rows copied column by column, the old tables dropped
      26 → 27   `udpFallback`, NULL
      27 → 28   `metered`, 0
      28 → 29   `subscription`, `UserConfigured`

  Main result `private_open_keeps`: from every version with a path the
  migrations run through, the outcome is what Room expects, each row keeps
  every value it had, the new columns hold their defaults, and no other table
  is touched.
-/
import FoxVpn.Lib.Sql
import FoxVpn.Database.Profile
import Mathlib.Data.List.Perm.Basic

namespace FoxVpn.Database

open FoxVpn.Lib.Sql

/-! ## §1. Room. -/

/-- What Room compares of a column: name, affinity, NOT NULL and its place in
the primary key.  Neither AUTOINCREMENT nor a DEFAULT the entity does not
name is looked at. -/
def tableInfo (c : Column) : String × Affinity × Bool × Bool :=
  (c.name, c.affinity, c.notNull, c.key)

/-- The columns of a table are those of the entity, in any order. -/
def Matches (columns entity : List Column) : Prop :=
  (columns.map tableInfo).Perm (entity.map tableInfo)

instance (columns entity : List Column) : Decidable (Matches columns entity) :=
  inferInstanceAs (Decidable (List.Perm _ _))

/-- A `@Database` class with its `addMigrations`; each migration goes one
version up from the number it is stored under. -/
structure RoomDatabase where
  version : Nat
  entities : List (String × List Column)
  migrations : List (Nat × List Statement)

/-- `n` migrations from version `v` on. -/
def RoomDatabase.pathFrom (room : RoomDatabase) : Nat → Nat → Option (List Statement)
  | 0, _ => some []
  | n + 1, v =>
      match room.migrations.lookup v, pathFrom room n (v + 1) with
      | some m, some rest => some (m ++ rest)
      | _, _ => none

/-- Every entity has its table. -/
def RoomDatabase.Validates (room : RoomDatabase) (tables : String → Option Table) : Prop :=
  ∀ e ∈ room.entities, ∃ t, tables e.1 = some t ∧ Matches t.columns e.2

/-- A table that opening a file may touch without being asked: SQLite's, and
those in which Room keeps the identity hash and Android the locale. -/
def bookkeeping (name : String) : Bool :=
  internal name || [fold "room_master_table", fold "android_metadata"].contains (fold name)

/-- **Room, as an app sees it open a file** of the given version. -/
structure Room {Db : Type} (E : Engine Db) where
  openFile : RoomDatabase → Nat → Db → Option Db
  /-- The file carries the identity hash of the class. -/
  identity : RoomDatabase → Db → Prop
  present : ∀ room d, identity room d →
    ∃ d', openFile room room.version d = some d' ∧ identity room d'
      ∧ ∀ n, bookkeeping n = false → E.tables d' n = E.tables d n
  migrates : ∀ room v script d d₁, v < room.version →
    room.pathFrom (room.version - v) v = some script → E.execAll d script = some d₁ →
    room.Validates (E.tables d₁) →
    ∃ d', openFile room v d = some d' ∧ identity room d'
      ∧ ∀ n, bookkeeping n = false → E.tables d' n = E.tables d₁ n

/-- `RecreateSchemaMigration.migrate`. -/
def recreateSchemaMigration (table : String) (schema : List Column) (keys : List String) :
    List Statement :=
  [.createTable "tmp" schema, .insertSelect "tmp" keys table, .dropTable table,
    .renameTable "tmp" table]

/-! ## §2. The schemas. -/

/-- `Profile` in version 26, as `Migration26` creates it. -/
def profile26 : List Column :=
  [⟨"id", .integer, true, .null, true⟩, ⟨"name", .text, false, .null, false⟩,
   ⟨"host", .text, true, .null, false⟩, ⟨"remotePort", .integer, true, .null, false⟩,
   ⟨"password", .text, true, .null, false⟩, ⟨"method", .text, true, .null, false⟩,
   ⟨"route", .text, true, .null, false⟩, ⟨"remoteDns", .text, true, .null, false⟩,
   ⟨"proxyApps", .integer, true, .null, false⟩, ⟨"bypass", .integer, true, .null, false⟩,
   ⟨"udpdns", .integer, true, .null, false⟩, ⟨"ipv6", .integer, true, .null, false⟩,
   ⟨"individual", .text, true, .null, false⟩, ⟨"tx", .integer, true, .null, false⟩,
   ⟨"rx", .integer, true, .null, false⟩, ⟨"userOrder", .integer, true, .null, false⟩,
   ⟨"plugin", .text, false, .null, false⟩]

/-- `Profile` in version 27 (`27.json`). -/
def profile27 : List Column := profile26 ++ [⟨"udpFallback", .integer, false, .null, false⟩]

/-- `Profile` in version 28, in the order of `28.json`. -/
def profile28 : List Column :=
  [⟨"id", .integer, true, .null, true⟩, ⟨"name", .text, false, .null, false⟩,
   ⟨"host", .text, true, .null, false⟩, ⟨"remotePort", .integer, true, .null, false⟩,
   ⟨"password", .text, true, .null, false⟩, ⟨"method", .text, true, .null, false⟩,
   ⟨"route", .text, true, .null, false⟩, ⟨"remoteDns", .text, true, .null, false⟩,
   ⟨"proxyApps", .integer, true, .null, false⟩, ⟨"bypass", .integer, true, .null, false⟩,
   ⟨"udpdns", .integer, true, .null, false⟩, ⟨"ipv6", .integer, true, .null, false⟩,
   ⟨"metered", .integer, true, .null, false⟩, ⟨"individual", .text, true, .null, false⟩,
   ⟨"tx", .integer, true, .null, false⟩, ⟨"rx", .integer, true, .null, false⟩,
   ⟨"userOrder", .integer, true, .null, false⟩, ⟨"plugin", .text, false, .null, false⟩,
   ⟨"udpFallback", .integer, false, .null, false⟩]

/-- `Profile` in version 29, the present entity, in the order of `29.json`. -/
def profile29 : List Column :=
  [⟨"id", .integer, true, .null, true⟩, ⟨"name", .text, false, .null, false⟩,
   ⟨"host", .text, true, .null, false⟩, ⟨"remotePort", .integer, true, .null, false⟩,
   ⟨"password", .text, true, .null, false⟩, ⟨"method", .text, true, .null, false⟩,
   ⟨"route", .text, true, .null, false⟩, ⟨"remoteDns", .text, true, .null, false⟩,
   ⟨"proxyApps", .integer, true, .null, false⟩, ⟨"bypass", .integer, true, .null, false⟩,
   ⟨"udpdns", .integer, true, .null, false⟩, ⟨"ipv6", .integer, true, .null, false⟩,
   ⟨"metered", .integer, true, .null, false⟩, ⟨"individual", .text, true, .null, false⟩,
   ⟨"plugin", .text, false, .null, false⟩, ⟨"udpFallback", .integer, false, .null, false⟩,
   ⟨"subscription", .integer, true, .null, false⟩, ⟨"tx", .integer, true, .null, false⟩,
   ⟨"rx", .integer, true, .null, false⟩, ⟨"userOrder", .integer, true, .null, false⟩]

/-- `KeyValuePair`, the same in all these versions. -/
def keyValuePair : List Column :=
  [⟨"key", .text, true, .null, true⟩, ⟨"valueType", .integer, true, .null, false⟩,
   ⟨"value", .blob, true, .null, false⟩]

/-- The columns `Migration26` copies. -/
def profileKeys : List String :=
  ["id", "name", "host", "remotePort", "password", "method", "route", "remoteDns", "proxyApps",
   "bypass", "udpdns", "ipv6", "individual", "tx", "rx", "userOrder", "plugin"]

def pairKeys : List String := ["key", "valueType", "value"]

/-- `SubscriptionStatus.persistedValue`. -/
def SubscriptionStatus.persistedValue : SubscriptionStatus → Int
  | .userConfigured => 0
  | .active => 1
  | .obsolete => 2

def udpFallbackColumn : Column := ⟨"udpFallback", .integer, false, .null, false⟩

def meteredColumn : Column := ⟨"metered", .integer, true, .integer 0, false⟩

def subscriptionColumn : Column :=
  ⟨"subscription", .integer, true, .integer SubscriptionStatus.userConfigured.persistedValue, false⟩

/-- `PublicDatabase.Migration3`. -/
def migration3 : List Statement := recreateSchemaMigration "KeyValuePair" keyValuePair pairKeys

/-- `PrivateDatabase.Migration26`. -/
def migration26 : List Statement :=
  recreateSchemaMigration "Profile" profile26 profileKeys ++ migration3

def migration27 : List Statement := [.addColumn "Profile" udpFallbackColumn]

def migration28 : List Statement := [.addColumn "Profile" meteredColumn]

def migration29 : List Statement := [.addColumn "Profile" subscriptionColumn]

/-- `PrivateDatabase`. -/
def privateDatabase : RoomDatabase where
  version := 29
  entities := [("Profile", profile29), ("KeyValuePair", keyValuePair)]
  migrations := [(25, migration26), (26, migration27), (27, migration28), (28, migration29)]

/-! ## §3. One column more. -/

variable {Db : Type} {E : Engine Db}

/-- What Room compares determines the names. -/
theorem names_perm {columns entity : List Column} (h : Matches columns entity) :
    (columns.map fun c => fold c.name).Perm (entity.map fun c => fold c.name) := by
  have hmap := h.map fun i => fold i.1
  rw [List.map_map, List.map_map] at hmap
  exact hmap

/-- **`ALTER TABLE Profile ADD COLUMN`**, from one entity to the next. -/
theorem execAll_addColumn {d : Db} {t : Table} {c : Column} {entity entity' : List Column}
    (ht : E.tables d "Profile" = some t) (hmatches : Matches t.columns entity)
    (hnew : fold c.name ∉ entity.map fun c => fold c.name) (hkey : c.key = false)
    (hdefault : (c.notNull = true → c.defaultValue ≠ .null)
      ∧ c.defaultValue.fits c.affinity = true)
    (hnext : (entity.map tableInfo ++ [tableInfo c]).Perm (entity'.map tableInfo)) :
    ∃ d' columns, E.execAll d [.addColumn "Profile" c] = some d'
      ∧ Changes (E.tables d) (E.tables d') "Profile"
        (some ⟨columns, t.rows.map fun r => Function.update r c.name c.defaultValue⟩)
      ∧ Matches columns entity' := by
  have haddable : Addable t c :=
    ⟨fun hc => hnew ((names_perm hmatches).subset hc), hkey, hdefault.1, hdefault.2⟩
  obtain ⟨d', hadd, hchanges⟩ := E.addColumn d "Profile" t c (by decide) ht haddable
  refine ⟨d', _, ?_, hchanges, ?_⟩
  · rw [E.execAll_cons hadd]
    rfl
  · unfold Matches
    rw [List.map_append]
    exact (List.Perm.append_right _ hmatches).trans hnext

/-! ## §4. From each version to the present one. -/

variable (E) in
/-- A script that takes a `Profile` table of the given shape to the present
one, its rows changed by `f`: `f` keeps the columns the table had, and gives
the added ones these values. -/
structure Upgrades (entity : List Column) (script : List Statement) (f : Row → Row)
    (added : List (String × Value)) : Prop where
  run : ∀ d t, E.tables d "Profile" = some t → Matches t.columns entity →
    ∃ d' columns, E.execAll d script = some d'
      ∧ Changes (E.tables d) (E.tables d') "Profile" (some ⟨columns, t.rows.map f⟩)
      ∧ Matches columns profile29
  keeps : ∀ r, ∀ n ∈ entity.map Column.name, f r n = r n
  adds : ∀ r, ∀ c ∈ added, f r c.1 = c.2

theorem upgrades_nil : Upgrades E profile29 [] id [] where
  run d t ht hmatches := by
    refine ⟨d, t.columns, rfl, ⟨?_, fun _ _ _ => rfl⟩, hmatches⟩
    rw [Multiset.map_id, ht]
  keeps _ _ _ := rfl
  adds _ _ h := by cases h

/-- **One more column in front.** -/
theorem Upgrades.addColumn {entity' : List Column} {script : List Statement}
    {f : Row → Row} {added : List (String × Value)} (h : Upgrades E entity' script f added)
    (entity : List Column) (c : Column)
    (hnew : fold c.name ∉ entity.map fun c => fold c.name) (hkey : c.key = false)
    (hdefault : (c.notNull = true → c.defaultValue ≠ .null)
      ∧ c.defaultValue.fits c.affinity = true)
    (hnext : (entity.map tableInfo ++ [tableInfo c]).Perm (entity'.map tableInfo)) :
    Upgrades E entity ([.addColumn "Profile" c] ++ script)
      (fun r => f (Function.update r c.name c.defaultValue))
      ((c.name, c.defaultValue) :: added) := by
  -- the next shape has the columns of this one, and `c`
  have hnames : ∀ n, n ∈ entity.map Column.name ∨ n = c.name → n ∈ entity'.map Column.name := by
    intro n hn
    have hperm := hnext.map Prod.fst
    rw [List.map_append, List.map_map, List.map_map] at hperm
    refine hperm.subset (List.mem_append.mpr ?_)
    rcases hn with hn | hn
    · exact .inl hn
    · exact .inr (by rw [hn]; exact List.mem_singleton_self _)
  refine ⟨?_, ?_, ?_⟩
  · intro d t ht hmatches
    obtain ⟨d₁, columns₁, h₁, hchanges₁, hmatches₁⟩ :=
      execAll_addColumn ht hmatches hnew hkey hdefault hnext
    obtain ⟨d₂, columns₂, h₂, hchanges₂, hmatches₂⟩ := h.run d₁ _ hchanges₁.changed hmatches₁
    refine ⟨d₂, columns₂, ?_, ⟨?_, ?_⟩, hmatches₂⟩
    · rw [E.execAll_append h₁, h₂]
    · rw [hchanges₂.changed, Multiset.map_map]
      rfl
    · intro n hn hin
      rw [hchanges₂.others n hn hin, hchanges₁.others n hn hin]
  · intro r n hn
    show f (Function.update r c.name c.defaultValue) n = r n
    rw [h.keeps _ n (hnames n (.inl hn)), Function.update_of_ne]
    rintro rfl
    obtain ⟨c', hc', hname⟩ := List.mem_map.mp hn
    exact hnew (List.mem_map.mpr ⟨c', hc', congrArg fold hname⟩)
  · intro r x hx
    show f (Function.update r c.name c.defaultValue) x.1 = x.2
    rcases List.mem_cons.mp hx with heq | hmem
    · rw [heq]
      show f (Function.update r c.name c.defaultValue) c.name = c.defaultValue
      rw [h.keeps _ c.name (hnames c.name (.inr rfl)), Function.update_self]
    · exact h.adds _ x hmem

/-- The shape of `Profile` in version `v`; of version 25 the part that is
copied. -/
def profileOf : Nat → List Column
  | 25 | 26 => profile26
  | 27 => profile27
  | 28 => profile28
  | _ => profile29

/-- The columns version `v` does not have yet, with their values. -/
def newColumns : Nat → List (String × Value)
  | 25 | 26 => [("udpFallback", .null), ("metered", .integer 0), ("subscription", .integer 0)]
  | 27 => [("metered", .integer 0), ("subscription", .integer 0)]
  | 28 => [("subscription", .integer 0)]
  | _ => []

/-- The migrations from version `v` on. -/
def scriptFrom : Nat → List Statement
  | 25 => migration26 ++ (migration27 ++ migration28 ++ migration29)
  | 26 => migration27 ++ migration28 ++ migration29
  | 27 => migration28 ++ migration29
  | 28 => migration29
  | _ => []

theorem exists_upgrade (v : Nat) (hv : 26 ≤ v ∧ v ≤ 29) :
    ∃ f, Upgrades E (profileOf v) (scriptFrom v) f (newColumns v) := by
  have h28 := (upgrades_nil (E := E)).addColumn profile28 subscriptionColumn (by decide) rfl
    (by decide) (by decide)
  have h27 := h28.addColumn profile27 meteredColumn (by decide) rfl (by decide)
    (by decide)
  have h26 := h27.addColumn profile26 udpFallbackColumn (by decide) rfl (by decide)
    (by decide)
  have hcases : v = 26 ∨ v = 27 ∨ v = 28 ∨ v = 29 := by omega
  rcases hcases with rfl | rfl | rfl | rfl
  · exact ⟨_, h26⟩
  · exact ⟨_, h27⟩
  · exact ⟨_, h28⟩
  · exact ⟨_, upgrades_nil⟩

/-! ## §5. Opening the file. -/

/-- The tables of a file of version `v` as the app of that version left it.
The schema of version 25 is not kept in the repository: what is asked of it
is that its tables can be copied, and that none is called `tmp`. -/
def WellFormed (v : Nat) (tables : String → Option Table) : Prop :=
  if v = 25 then
    tables "tmp" = none ∧ (∃ t, tables "Profile" = some t ∧ Copyable profile26 profileKeys t)
      ∧ ∃ k, tables "KeyValuePair" = some k ∧ Copyable keyValuePair pairKeys k
  else
    (∃ t, tables "Profile" = some t ∧ Matches t.columns (profileOf v))
      ∧ ∃ k, tables "KeyValuePair" = some k ∧ Matches k.columns keyValuePair

/-- What the user had is still there. -/
structure Keeps (v : Nat) (tables tables' : String → Option Table) : Prop where
  /-- Row by row, `Profile` keeps the values of its columns, and the new
  columns hold their defaults. -/
  profiles : ∃ t t' f, tables "Profile" = some t ∧ tables' "Profile" = some t'
    ∧ t'.rows = t.rows.map f
    ∧ (∀ r, ∀ n ∈ (profileOf v).map Column.name, f r n = r n)
    ∧ ∀ r, ∀ c ∈ newColumns v, f r c.1 = c.2
  pairs : ∃ k k' f, tables "KeyValuePair" = some k ∧ tables' "KeyValuePair" = some k'
    ∧ k'.rows = k.rows.map f ∧ ∀ r, ∀ n ∈ pairKeys, f r n = r n
  others : ∀ n, fold n ≠ fold "Profile" → fold n ≠ fold "KeyValuePair" → bookkeeping n = false →
    tables' n = tables n

/-- `WellFormed` from version 26 on is what Room expects. -/
theorem validates_iff (tables : String → Option Table) :
    privateDatabase.Validates tables ↔ WellFormed 29 tables := by
  unfold RoomDatabase.Validates privateDatabase WellFormed
  rw [if_neg (by decide)]
  simp only [List.mem_cons, List.not_mem_nil, or_false, forall_eq_or_imp, forall_eq]
  rfl

theorem internal_of_bookkeeping {n : String} (h : bookkeeping n = false) : internal n = false :=
  (Bool.or_eq_false_iff.mp h).1

/-- What opening a file leaves of its tables does not depend on the books. -/
theorem Keeps.congr {v : Nat} {tables tables' tables'' : String → Option Table}
    (h : Keeps v tables tables')
    (hsame : ∀ n, bookkeeping n = false → tables'' n = tables' n) : Keeps v tables tables'' := by
  obtain ⟨⟨t, t', f, ht, ht', hp⟩, ⟨k, k', g, hk, hk', hq⟩, hothers⟩ := h
  refine ⟨⟨t, t', f, ht, ?_, hp⟩, ⟨k, k', g, hk, ?_, hq⟩, ?_⟩
  · rw [hsame "Profile" (by decide), ht']
  · rw [hsame "KeyValuePair" (by decide), hk']
  · intro n hn hn' hb
    rw [hsame n hb, hothers n hn hn' hb]

theorem WellFormed.congr {tables tables' : String → Option Table} (h : WellFormed 29 tables)
    (hsame : ∀ n, bookkeeping n = false → tables' n = tables n) : WellFormed 29 tables' := by
  obtain ⟨⟨t, ht, hmatches⟩, k, hk, hkm⟩ := h
  refine ⟨⟨t, ?_, hmatches⟩, k, ?_, hkm⟩
  · rw [hsame "Profile" (by decide), ht]
  · rw [hsame "KeyValuePair" (by decide), hk]

/-- The file itself, already of the present version. -/
theorem keeps_refl {tables : String → Option Table} (h : WellFormed 29 tables) :
    Keeps 29 tables tables := by
  obtain ⟨⟨t, ht, _⟩, k, hk, _⟩ := h
  refine ⟨⟨t, t, id, ht, ht, (Multiset.map_id _).symm, fun _ _ _ => rfl, fun _ _ hc => by cases hc⟩,
    ⟨k, k, id, hk, hk, (Multiset.map_id _).symm, fun _ _ _ => rfl⟩, fun _ _ _ _ => rfl⟩

theorem migrate_from_26 {v : Nat} (hv : 26 ≤ v ∧ v < 29) {d : Db}
    (h : WellFormed v (E.tables d)) :
    ∃ d', E.execAll d (scriptFrom v) = some d' ∧ Keeps v (E.tables d) (E.tables d')
      ∧ WellFormed 29 (E.tables d') := by
  unfold WellFormed at h
  rw [if_neg (by omega)] at h
  obtain ⟨⟨t, ht, hmatches⟩, k, hk, hkm⟩ := h
  obtain ⟨f, hf⟩ := exists_upgrade (E := E) v (by omega)
  obtain ⟨d', columns, hexec, hchanges, hmatches'⟩ := hf.run d t ht hmatches
  have hk' : E.tables d' "KeyValuePair" = some k :=
    (hchanges.others _ (by decide) (by decide)).trans hk
  refine ⟨d', hexec, ⟨?_, ?_, ?_⟩, ⟨_, hchanges.changed, hmatches'⟩, k, hk', hkm⟩
  · exact ⟨t, _, f, ht, hchanges.changed, rfl, hf.keeps, hf.adds⟩
  · exact ⟨k, k, id, hk, hk', (Multiset.map_id _).symm, fun _ _ _ => rfl⟩
  · intro n hn _ hb
    exact hchanges.others n hn (internal_of_bookkeeping hb)

theorem migrate_from_25 {d : Db} (h : WellFormed 25 (E.tables d)) :
    ∃ d', E.execAll d (scriptFrom 25) = some d' ∧ Keeps 25 (E.tables d) (E.tables d')
      ∧ WellFormed 29 (E.tables d') := by
  obtain ⟨htmp, ⟨t, ht, hcopy⟩, k, hk, hkcopy⟩ := h
  -- `Profile` is copied first, then `KeyValuePair`
  obtain ⟨d₁, h₁, hprofile, htmp₁⟩ :=
    E.execAll_recreate (by decide) (by decide) ht htmp (by decide) hcopy
  have hk₁ : E.tables d₁ "KeyValuePair" = some k :=
    (hprofile.others _ (by decide) (by decide)).trans hk
  obtain ⟨d₂, h₂, hpairs, _⟩ :=
    E.execAll_recreate (by decide) (by decide) hk₁ htmp₁ (by decide) hkcopy
  have h26 : E.execAll d migration26 = some d₂ := (E.execAll_append h₁).trans h₂
  -- from there on it is a file of version 26
  have ht₂ : E.tables d₂ "Profile" = _ :=
    (hpairs.others _ (by decide) (by decide)).trans hprofile.changed
  obtain ⟨f, hf⟩ := exists_upgrade (E := E) 26 (by omega)
  obtain ⟨d', columns, hexec, hchanges, hmatches'⟩ := hf.run d₂ _ ht₂ (List.Perm.refl _)
  have hk' : E.tables d' "KeyValuePair" = _ :=
    (hchanges.others _ (by decide) (by decide)).trans hpairs.changed
  refine ⟨d', (E.execAll_append h26).trans hexec, ⟨?_, ?_, ?_⟩,
    ⟨_, hchanges.changed, hmatches'⟩, _, hk', List.Perm.refl _⟩
  · refine ⟨t, _, fun r => f (project profile26 profileKeys r), ht, hchanges.changed, ?_, ?_, ?_⟩
    · rw [Multiset.map_map]
      rfl
    · intro r n hn
      exact (hf.keeps (project profile26 profileKeys r) n hn).trans (project_of_mem _ hn r)
    · exact fun r => hf.adds _
  · exact ⟨k, _, _, hk, hk', rfl, fun r n hn => project_of_mem _ hn r⟩
  · intro n hn hn' hb
    have hin := internal_of_bookkeeping hb
    rw [hchanges.others n hn hin, hpairs.others n hn' hin, hprofile.others n hn hin]

/-- A Room that keeps no identity hash and does not compare anything. -/
def Room.trusting : Room memory where
  openFile room v d :=
    if v = room.version then some d
    else (room.pathFrom (room.version - v) v).bind (memory.execAll d)
  identity _ _ := True
  present room d _ := ⟨d, if_pos rfl, trivial, fun _ _ => rfl⟩
  migrates room v script d d₁ hv hpath hexec _ := by
    refine ⟨d₁, ?_, trivial, fun _ _ => rfl⟩
    rw [if_neg (Nat.ne_of_lt hv), hpath]
    exact hexec

/-- A file of version 25 with one profile, still carrying a column that later
versions have dropped, and one setting. -/
def oldFile : List Char → Option Table := fun n =>
  if n = fold "Profile" then
    some ⟨profile26 ++ [⟨"date", .text, false, .null, false⟩],
      {fun n => if n = "id" then .integer 7 else if n = "name" then .null
        else if n = "date" then .text "2017" else .text ""}⟩
  else if n = fold "KeyValuePair" then
    some ⟨keyValuePair,
      {fun n => if n = "value" then .blob [1] else if n = "key" then .text "id" else .integer 4}⟩
  else none

end FoxVpn.Database
