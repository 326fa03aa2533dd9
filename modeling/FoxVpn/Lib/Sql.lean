/-
  FoxVpn.Lib.Sql
  ──────────────
  **THE STATEMENTS THAT RESHAPE TABLES, AND WHAT AN ENGINE GUARANTEES OF THEM.**

  An engine is a PARAMETER: how it stores a table is its own matter, and so is
  what it does with a statement that might break a constraint.  What an
  `Engine` promises is the outcome of each statement where none can be broken,
  in files that hold tables only, without views, triggers, foreign keys or
  further indices:

      CREATE TABLE       the name is free, the columns are told apart
      INSERT … SELECT    into an empty table, from one that can be copied
      DROP TABLE         the table is there
      RENAME TO          and the new name is free
      ADD COLUMN         a column that is new, no key, and not NULL by default

  The names of tables are compared without case, and the tables `sqlite_…`,
  in which the engine keeps its own books, are nobody else's business.
-/
import Mathlib.Data.Multiset.MapFold
import Mathlib.Logic.Function.Basic

namespace FoxVpn.Lib.Sql

/-! ## §1. Tables. -/

inductive Affinity where
  | integer
  | text
  | blob
  | real
  | numeric
  deriving Repr, DecidableEq

inductive Value where
  | null
  | integer (n : Int)
  | real (bits : BitVec 64)
  | text (s : String)
  | blob (bytes : List (BitVec 8))
  deriving Repr, DecidableEq

/-- A value that a column of this affinity stores as it is. -/
def Value.fits : Affinity → Value → Bool
  | _, .null => true
  | .integer, .integer _ => true
  | .numeric, .integer _ => true
  | .real, .real _ => true
  | .text, .text _ => true
  | .blob, _ => true
  | _, _ => false

structure Column where
  name : String
  affinity : Affinity
  notNull : Bool := false
  /-- The DEFAULT clause, NULL without one. -/
  defaultValue : Value := .null
  /-- The column is part of the primary key. -/
  key : Bool := false
  deriving Repr, DecidableEq

/-- A row by the names of its columns. -/
abbrev Row := String → Value

/-- Rows have no order. -/
structure Table where
  columns : List Column
  rows : Multiset Row

/-- A name as the engine compares it. -/
def fold (name : String) : List Char := name.toList.map Char.toLower

/-- A table of the engine's own. -/
def internal (name : String) : Bool := "sqlite_".toList.isPrefixOf (fold name)

/-- The row an `INSERT INTO … (keys) SELECT keys` makes of `r`. -/
def project (columns : List Column) (keys : List String) (r : Row) : Row := fun n =>
  if n ∈ keys then r n
  else ((columns.find? fun c => c.name == n).map Column.defaultValue).getD .null

theorem project_of_mem (columns : List Column) {keys : List String} {n : String} (h : n ∈ keys)
    (r : Row) : project columns keys r n = r n := if_pos h

/-- The columns are told apart by their names. -/
def Distinct (columns : List Column) : Prop := (columns.map fun c => fold c.name).Nodup

instance (columns : List Column) : Decidable (Distinct columns) :=
  inferInstanceAs (Decidable (List.Nodup _))

/-- **A table whose rows can be copied into a new one**: the copied columns
have the same affinity in both, so that no value is converted, and neither is
the default of any other; the new table wants NOT NULL only of copied columns
where the old one has no NULL; the two have the same primary key, and an
INTEGER one holds integers. -/
structure Copyable (columns : List Column) (keys : List String) (source : Table) : Prop where
  affinity : ∀ n ∈ keys, ∃ c ∈ columns, ∃ c' ∈ source.columns,
    c.name = n ∧ c'.name = n ∧ c'.affinity = c.affinity
  defaults : ∀ c ∈ columns, c.name ∉ keys → c.defaultValue.fits c.affinity = true
  notNull : ∀ c ∈ columns, c.notNull = true →
    c.name ∈ keys ∧ ∃ c' ∈ source.columns, c'.name = c.name ∧ c'.notNull = true
  key : (source.columns.filter Column.key).map Column.name
    = (columns.filter Column.key).map Column.name
  copied : ∀ c ∈ columns, c.key = true → c.name ∈ keys
  integerKey : ∀ c ∈ columns, c.key = true → c.affinity = .integer →
    ∀ r ∈ source.rows, ∃ n, r c.name = .integer n

/-- A new column may not be a key, and if it is NOT NULL it has a default;
the default is stored as it is. -/
structure Addable (t : Table) (c : Column) : Prop where
  new : fold c.name ∉ t.columns.map fun c => fold c.name
  key : c.key = false
  default : c.notNull = true → c.defaultValue ≠ .null
  fits : c.defaultValue.fits c.affinity = true

/-! ## §2. Engines. -/

inductive Statement where
  | createTable (name : String) (columns : List Column)
  | insertSelect (into : String) (keys : List String) (source : String)
  | dropTable (name : String)
  | renameTable (name newName : String)
  | addColumn (name : String) (column : Column)
  deriving Repr, DecidableEq

/-- From `tables` to `tables'` only the table `name` has changed, to `t`. -/
structure Changes (tables tables' : String → Option Table) (name : String) (t : Option Table) :
    Prop where
  changed : tables' name = t
  others : ∀ n, fold n ≠ fold name → internal n = false → tables' n = tables n

/-- **An SQL engine** over files of type `Db`; `none` is the exception. -/
structure Engine (Db : Type*) where
  tables : Db → String → Option Table
  execSQL : Db → Statement → Option Db
  sameName : ∀ d n m, fold n = fold m → tables d n = tables d m
  createTable : ∀ d name columns, internal name = false → tables d name = none →
    columns ≠ [] → Distinct columns →
    ∃ d', execSQL d (.createTable name columns) = some d'
      ∧ Changes (tables d) (tables d') name (some ⟨columns, 0⟩)
  insertSelect : ∀ d into keys source columns s, internal into = false →
    tables d into = some ⟨columns, 0⟩ → tables d source = some s → Copyable columns keys s →
    ∃ d', execSQL d (.insertSelect into keys source) = some d'
      ∧ Changes (tables d) (tables d') into (some ⟨columns, s.rows.map (project columns keys)⟩)
  dropTable : ∀ d name t, internal name = false → tables d name = some t →
    ∃ d', execSQL d (.dropTable name) = some d' ∧ Changes (tables d) (tables d') name none
  renameTable : ∀ d name newName t, internal name = false → internal newName = false →
    tables d name = some t → tables d newName = none →
    ∃ d', execSQL d (.renameTable name newName) = some d'
      ∧ tables d' name = none ∧ tables d' newName = some t
      ∧ ∀ n, fold n ≠ fold name → fold n ≠ fold newName → internal n = false →
        tables d' n = tables d n
  addColumn : ∀ d name t c, internal name = false → tables d name = some t → Addable t c →
    ∃ d', execSQL d (.addColumn name c) = some d'
      ∧ Changes (tables d) (tables d') name
        (some ⟨t.columns ++ [c], t.rows.map fun r => Function.update r c.name c.defaultValue⟩)

namespace Engine

variable {Db : Type*} (E : Engine Db)

/-- A script, statement after statement. -/
def execAll (d : Db) (script : List Statement) : Option Db := script.foldlM E.execSQL d

theorem execAll_cons {d d' : Db} {st : Statement} {script : List Statement}
    (h : E.execSQL d st = some d') : E.execAll d (st :: script) = E.execAll d' script := by
  unfold execAll
  rw [List.foldlM_cons, h]
  rfl

theorem execAll_append {d d' : Db} {script rest : List Statement}
    (h : E.execAll d script = some d') : E.execAll d (script ++ rest) = E.execAll d' rest := by
  unfold execAll at h ⊢
  rw [List.foldlM_append, h]
  rfl

/-- **A table is replaced by a copy of another shape**: it is created under a
name of its own, filled, and takes the place of the old one. -/
theorem execAll_recreate {d : Db} {table tmp : String} {t : Table} {schema : List Column}
    {keys : List String} (hname : fold table ≠ fold tmp)
    (hinternal : internal table = false ∧ internal tmp = false)
    (ht : E.tables d table = some t) (htmp : E.tables d tmp = none)
    (hschema : schema ≠ [] ∧ Distinct schema) (h : Copyable schema keys t) :
    ∃ d', E.execAll d [.createTable tmp schema, .insertSelect tmp keys table, .dropTable table,
        .renameTable tmp table] = some d'
      ∧ Changes (E.tables d) (E.tables d') table
        (some ⟨schema, t.rows.map (project schema keys)⟩)
      ∧ E.tables d' tmp = none := by
  obtain ⟨d₁, h₁, hcreated⟩ := E.createTable d tmp schema hinternal.2 htmp hschema.1 hschema.2
  have ht₁ : E.tables d₁ table = some t := (hcreated.others _ hname hinternal.1).trans ht
  obtain ⟨d₂, h₂, hfilled⟩ := E.insertSelect d₁ tmp keys table schema t hinternal.2
    hcreated.changed ht₁ h
  have ht₂ : E.tables d₂ table = some t := (hfilled.others _ hname hinternal.1).trans ht₁
  obtain ⟨d₃, h₃, hdropped⟩ := E.dropTable d₂ table t hinternal.1 ht₂
  have htmp₃ := (hdropped.others tmp hname.symm hinternal.2).trans hfilled.changed
  obtain ⟨d₄, h₄, hfree, hmoved, hothers⟩ := E.renameTable d₃ tmp table _ hinternal.2
    hinternal.1 htmp₃ hdropped.changed
  refine ⟨d₄, ?_, ⟨hmoved, ?_⟩, hfree⟩
  · rw [E.execAll_cons h₁, E.execAll_cons h₂, E.execAll_cons h₃, E.execAll_cons h₄]
    rfl
  · intro n hn hin
    -- under the temporary name there was nothing before, and is nothing now
    by_cases htn : fold n = fold tmp
    · rw [E.sameName d₄ n tmp htn, E.sameName d n tmp htn, hfree, htmp]
    · rw [hothers n htn hn hin, hdropped.others n hn hin, hfilled.others n htn hin,
        hcreated.others n htn hin]

end Engine

/-! ## §3. Tables in memory. -/

theorem changes_update (tables : List Char → Option Table) (name : String) (t : Option Table) :
    Changes (fun n => tables (fold n)) (fun n => Function.update tables (fold name) t (fold n))
      name t where
  changed := Function.update_self ..
  others _ hn _ := Function.update_of_ne hn ..

/-- The statements on tables in memory, none of which is ever refused for a
constraint. -/
def memorySQL (d : List Char → Option Table) : Statement → Option (List Char → Option Table)
  | .createTable name columns => some (Function.update d (fold name) (some ⟨columns, 0⟩))
  | .insertSelect into keys source =>
      (d (fold into)).bind fun t => (d (fold source)).map fun s =>
        Function.update d (fold into)
          (some ⟨t.columns, t.rows + s.rows.map (project t.columns keys)⟩)
  | .dropTable name => some (Function.update d (fold name) none)
  | .renameTable name newName =>
      some (Function.update (Function.update d (fold name) none) (fold newName) (d (fold name)))
  | .addColumn name c =>
      (d (fold name)).map fun t => Function.update d (fold name)
        (some ⟨t.columns ++ [c], t.rows.map fun r => Function.update r c.name c.defaultValue⟩)

/-- **What an engine promises can be kept.** -/
def memory : Engine (List Char → Option Table) where
  tables d n := d (fold n)
  execSQL := memorySQL
  sameName _ _ _ h := congrArg _ h
  createTable d name columns _ _ _ _ := ⟨_, rfl, changes_update d name _⟩
  insertSelect d into keys source columns s _ hinto hs _ := by
    refine ⟨_, ?_, changes_update d into _⟩
    simp only [memorySQL, hinto, hs, Option.bind_some, Option.map_some, Multiset.zero_add]
  dropTable d name _ _ _ := ⟨_, rfl, changes_update d name none⟩
  renameTable d name newName t _ _ ht hnew := by
    have hne : fold name ≠ fold newName := by
      intro heq
      rw [heq, hnew] at ht
      exact absurd ht (by simp)
    refine ⟨_, rfl, ?_, ?_, ?_⟩
    · rw [Function.update_of_ne hne, Function.update_self]
    · rw [Function.update_self, ht]
    · intro n hn hn' _
      rw [Function.update_of_ne hn', Function.update_of_ne hn]
  addColumn d name t c _ ht _ := by
    refine ⟨_, ?_, changes_update d name _⟩
    simp only [memorySQL, ht, Option.map_some]

end FoxVpn.Lib.Sql
