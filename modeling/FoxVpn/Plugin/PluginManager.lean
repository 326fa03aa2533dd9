/-
  FoxVpn.Plugin.PluginManager
  ───────────────────────────
  **THE FILES OF A PLUGIN ARE EXTRACTED: `initNativeSlow`.**

  The provider of a plugin, another app, answers a query with rows of a path
  and a mode.  For each row the loop opens the file `pluginDir/path`, copies
  a stream into it and changes its mode:

      check(file.absolutePath.startsWith(pluginDirPath))
      openInputStream · outputStream · copyTo · chmod

  Any of these may throw, which ends the loop; what was written stays.  The
  check compares TEXTS, and the text of a file below `pluginDir` starts with
  that of `pluginDir` whether or not a `..` in it leads out again.

  Main result `extraction_contained_iff`: everything written and changed is
  inside `pluginDir`, and every path that leaves it is refused, exactly if no
  path of a row that the loop comes to goes up further than its names lead
  back, and none that ends at `pluginDir` itself is opened.
-/
import FoxVpn.Lib.Path
import FoxVpn.Plugin.PluginOptions

namespace FoxVpn.Plugin.PluginManager

open FoxVpn.Lib FoxVpn.Lib.Path

/-! ## §1. The rows and the loop. -/

/-- The second column, by its type. -/
inductive Mode where
  | integer (value : Int)
  /-- What `toInt(8)` makes of the text. -/
  | string (octal : Option Int)
  | other
  deriving Repr, DecidableEq

/-- A row of the cursor, and which of the calls made for it succeed. -/
structure Row where
  path : Str
  mode : Mode
  openInputStream : Bool := true
  outputStream : Bool := true
  copyTo : Bool := true
  chmod : Bool := true
  deriving Repr, DecidableEq

inductive Fault where
  /-- "Plugin entry binary not found". -/
  | entryNotFound
  /-- "Unable to create plugin directory". -/
  | unableToCreate
  | check
  | openInputStream
  | outputStream
  | copyTo
  | numberFormat
  /-- "File mode should be of type int". -/
  | fileMode
  | chmod
  deriving Repr, DecidableEq

def Mode.value : Mode → Except Fault Int
  | .integer value => .ok value
  | .string (some value) => .ok value
  | .string none => .error .numberFormat
  | .other => .error .fileMode

/-- What is done to a file, by its absolute path. -/
inductive Access where
  | write (file : Str)
  | chmod (file : Str) (mode : Int)
  deriving Repr, DecidableEq

def Access.file : Access → Str
  | .write file => file
  | .chmod file _ => file

/-- A row that the loop has reached: what was done for it, and the fault
that ended the loop there. -/
structure Visit where
  path : Str
  accesses : List Access := []
  fault : Option Fault := none
  deriving Repr, DecidableEq

/-- The file has been copied: its mode is changed. -/
def changeMode (file : Str) (row : Row) : Visit :=
  match row.mode.value with
  | .error f => { path := row.path, accesses := [.write file], fault := some f }
  | .ok mode =>
      { path := row.path
        accesses := [.write file, .chmod file mode]
        fault := if row.chmod = false then some .chmod else none }

/-- The body of the loop. -/
def visit (pluginDir : Absolute) (row : Row) : Visit :=
  if ¬ pluginDir.text ++ ['/'] <+: pluginDir.join row.path then
    { path := row.path, fault := some .check }
  else if row.openInputStream = false then { path := row.path, fault := some .openInputStream }
  else if row.outputStream = false then { path := row.path, fault := some .outputStream }
  else if row.copyTo = false then
    { path := row.path, accesses := [.write (pluginDir.join row.path)], fault := some .copyTo }
  else changeMode (pluginDir.join row.path) row

/-- The loop over the rows, with `initialized`. -/
def extract (pluginDir : Absolute) (id : Str) :
    Bool → List Row → List Visit × Except Fault Bool
  | initialized, [] => ([], .ok initialized)
  | initialized, row :: rows =>
      let v := visit pluginDir row
      match v.fault with
      | some f => ([v], .error f)
      | none =>
          let r := extract pluginDir id (initialized || row.path == id) rows
          (v :: r.1, r.2)

/-- `File(Core.deviceStorage.noBackupFilesDir, "plugin")`. -/
def pluginDir (noBackupFilesDir : Absolute) : Absolute where
  components := noBackupFilesDir.components ++ [['p', 'l', 'u', 'g', 'i', 'n']]
  valid c hc := by
    rcases List.mem_append.mp hc with hc | hc
    · exact noBackupFilesDir.valid c hc
    · rw [List.mem_singleton.mp hc]
      decide

theorem text_pluginDir (noBackupFilesDir : Absolute) :
    (pluginDir noBackupFilesDir).text = noBackupFilesDir.join ['p', 'l', 'u', 'g', 'i', 'n'] := by
  rw [Absolute.join_eq, components_singleton (by decide) (by decide)]
  rfl

/-- `initNativeSlow`: the rows that were reached, and the path of the entry
or the exception.  The cursor may be null, and `mkdirs` fail. -/
def initNativeSlow (noBackupFilesDir : Absolute) (options : PluginOptions)
    (cursor : Option (List Row)) (mkdirs : Bool) : List Visit × Except Fault (Option Str) :=
  match cursor with
  | none => ([], .ok none)
  | some [] => ([], .error .entryNotFound)
  | some rows =>
      if mkdirs = false then ([], .error .unableToCreate)
      else
        let r := extract (pluginDir noBackupFilesDir) options.id false rows
        (r.1, r.2.bind fun initialized =>
          if initialized = true then .ok (some ((pluginDir noBackupFilesDir).join options.id))
          else .error .entryNotFound)

/-! ## §2. What a round and the loop do. -/

/-- Both streams are opened: from here on the file is written. -/
def Row.opened (row : Row) : Bool := row.openInputStream && row.outputStream

/-- Nothing throws for the row. -/
def Row.extracted (row : Row) : Bool :=
  decide (components row.path ≠ []) && row.opened && row.copyTo && row.mode.value.isOk && row.chmod

section Rounds

variable {dir : Absolute} {row : Row}

theorem changeMode_cases (file : Str) (row : Row) :
    (row.mode.value.isOk = false ∧ ∃ f, f ≠ .check
        ∧ changeMode file row = { path := row.path, accesses := [.write file], fault := some f })
      ∨ (row.mode.value.isOk = true ∧ ∃ mode, changeMode file row
          = { path := row.path, accesses := [.write file, .chmod file mode]
              fault := if row.chmod = false then some .chmod else none }) := by
  unfold changeMode
  cases hm : row.mode.value with
  | error f =>
      refine Or.inl ⟨rfl, f, ?_, rfl⟩
      -- a mode that cannot be read is another fault than the check's
      intro hf
      rw [hf] at hm
      unfold Mode.value at hm
      split at hm <;> simp at hm
  | ok mode => exact Or.inr ⟨rfl, mode, rfl⟩

/-- **What a round can do.**  The check refuses a path without a component
and no other; past it there is no access as long as a stream is not opened,
then a write, and a change of the mode, all of the same file; and there is
a fault other than the check's unless the row is extracted. -/
theorem visit_cases (dir : Absolute) (row : Row) :
    (components row.path = [] ∧ row.extracted = false
        ∧ visit dir row = { path := row.path, fault := some .check })
      ∨ (components row.path ≠ [] ∧ row.opened = false ∧ row.extracted = false
        ∧ ∃ f, f ≠ .check ∧ visit dir row = { path := row.path, fault := some f })
      ∨ (components row.path ≠ [] ∧ row.opened = true ∧ row.extracted = false
        ∧ ∃ f, f ≠ .check ∧ visit dir row
          = { path := row.path, accesses := [.write (dir.join row.path)], fault := some f })
      ∨ (components row.path ≠ [] ∧ row.opened = true ∧ ∃ mode, visit dir row
          = { path := row.path
              accesses := [.write (dir.join row.path), .chmod (dir.join row.path) mode]
              fault := if row.extracted = false then some .chmod else none }) := by
  unfold visit
  by_cases hempty : components row.path = []
  · -- the joined text is that of the directory, without the slash
    have hcheck : ¬ dir.text ++ ['/'] <+: dir.join row.path := fun hc =>
      (dir.text_slash_prefix_join row.path).mp hc hempty
    rw [if_pos hcheck]
    exact Or.inl ⟨hempty, by simp [Row.extracted, hempty], rfl⟩
  · have hcheck : ¬¬ dir.text ++ ['/'] <+: dir.join row.path := fun hn =>
      hn ((dir.text_slash_prefix_join row.path).mpr hempty)
    rw [if_neg hcheck]
    refine Or.inr ?_
    by_cases hopen : row.openInputStream = false
    · rw [if_pos hopen]
      exact Or.inl ⟨hempty, by simp [Row.opened, hopen], by simp [Row.extracted, Row.opened, hopen],
        _, by decide, rfl⟩
    rw [if_neg hopen]
    by_cases hout : row.outputStream = false
    · rw [if_pos hout]
      exact Or.inl ⟨hempty, by simp [Row.opened, hout], by simp [Row.extracted, Row.opened, hout],
        _, by decide, rfl⟩
    rw [if_neg hout]
    have hopened : row.opened = true := by
      rw [Row.opened, Bool.not_eq_false _ |>.mp hopen, Bool.not_eq_false _ |>.mp hout]
      rfl
    refine Or.inr ?_
    by_cases hcopy : row.copyTo = false
    · rw [if_pos hcopy]
      exact Or.inl ⟨hempty, hopened, by simp [Row.extracted, hcopy], _, by decide, rfl⟩
    rw [if_neg hcopy]
    rcases changeMode_cases (dir.join row.path) row with ⟨hmode, f, hf, h⟩ | ⟨hmode, mode, h⟩
    · exact Or.inl ⟨hempty, hopened, by simp [Row.extracted, hmode], f, hf, h⟩
    · have hrow : row.extracted = row.chmod := by
        simp [Row.extracted, hempty, hopened, hcopy, hmode]
      rw [hrow]
      exact Or.inr ⟨hempty, hopened, mode, h⟩

theorem path_visit : (visit dir row).path = row.path := by
  rcases visit_cases dir row with ⟨_, _, h⟩ | ⟨_, _, _, _, _, h⟩ | ⟨_, _, _, _, _, h⟩ | ⟨_, _, _, h⟩
    <;> rw [h]

/-- Whatever is accessed is the file of the row; the check has passed and
both streams are open. -/
theorem of_mem_accesses {a : Access} (h : a ∈ (visit dir row).accesses) :
    a.file = dir.join row.path ∧ components row.path ≠ [] ∧ row.opened = true := by
  rcases visit_cases dir row with ⟨_, _, hv⟩ | ⟨_, _, _, _, _, hv⟩ | ⟨hne, ho, _, _, _, hv⟩
    | ⟨hne, ho, _, hv⟩
  · rw [hv] at h
    exact absurd h List.not_mem_nil
  · rw [hv] at h
    exact absurd h List.not_mem_nil
  · rw [hv] at h
    rw [List.mem_singleton.mp h]
    exact ⟨rfl, hne, ho⟩
  · rw [hv] at h
    rcases List.mem_cons.mp h with rfl | h
    · exact ⟨rfl, hne, ho⟩
    · rw [List.mem_singleton.mp h]
      exact ⟨rfl, hne, ho⟩

/-- Then the file is written. -/
theorem write_mem_accesses (hne : components row.path ≠ []) (ho : row.opened = true) :
    .write (dir.join row.path) ∈ (visit dir row).accesses := by
  rcases visit_cases dir row with ⟨he, _⟩ | ⟨_, ho', _⟩ | ⟨_, _, _, _, _, hv⟩ | ⟨_, _, _, hv⟩
  · exact absurd he hne
  · exact absurd (ho.symm.trans ho') (by decide)
  · simp [hv]
  · simp [hv]

/-- The check fails exactly for a path without a component, and then
nothing is done. -/
theorem fault_visit_check_iff :
    (visit dir row).fault = some .check ∧ (visit dir row).accesses = []
      ↔ components row.path = [] := by
  rcases visit_cases dir row with ⟨he, _, hv⟩ | ⟨hne, _, _, f, hf, hv⟩ | ⟨hne, _, _, f, hf, hv⟩
    | ⟨hne, _, _, hv⟩
  · simp [hv, he]
  · simp [hv, hne, hf]
  · simp [hv, hne]
  · simp [hv, hne]

/-- The loop goes on behind the rows that are extracted. -/
theorem fault_visit_eq_none_iff : (visit dir row).fault = none ↔ row.extracted = true := by
  rcases visit_cases dir row with ⟨_, hx, hv⟩ | ⟨_, _, hx, f, _, hv⟩ | ⟨_, _, hx, f, _, hv⟩
    | ⟨_, _, _, hv⟩
  · simp [hv, hx]
  · simp [hv, hx]
  · simp [hv, hx]
  · cases hx : row.extracted <;> simp [hv, hx]

/-- A row that is extracted has been written. -/
theorem write_of_no_fault (h : (visit dir row).fault = none) :
    .write (dir.join row.path) ∈ (visit dir row).accesses := by
  have hrow := fault_visit_eq_none_iff.mp h
  simp only [Row.extracted, Bool.and_eq_true, decide_eq_true_eq] at hrow
  exact write_mem_accesses hrow.1.1.1.1 hrow.1.1.1.2

end Rounds

/-- **A row of the cursor that the loop comes to**: every row before it is
extracted. -/
def Reached (rows : List Row) (row : Row) : Prop :=
  ∃ before after, rows = before ++ row :: after ∧ ∀ r ∈ before, r.extracted = true

theorem reached_cons_iff {r row : Row} {rows : List Row} :
    Reached (r :: rows) row ↔ row = r ∨ r.extracted = true ∧ Reached rows row := by
  constructor
  · rintro ⟨before, after, hrows, hbefore⟩
    cases before with
    | nil => exact Or.inl (List.cons.inj hrows).1.symm
    | cons b before =>
        obtain ⟨rfl, rfl⟩ := List.cons.inj hrows
        obtain ⟨hb, hbefore⟩ := List.forall_mem_cons.mp hbefore
        exact Or.inr ⟨hb, before, after, rfl, hbefore⟩
  · rintro (rfl | ⟨hr, before, after, rfl, hbefore⟩)
    · exact ⟨[], rows, rfl, fun r hr => absurd hr List.not_mem_nil⟩
    · exact ⟨r :: before, after, rfl, List.forall_mem_cons.mpr ⟨hr, hbefore⟩⟩

section Loop

variable {dir : Absolute}

/-- **The loop makes a round for each row it comes to, and no other.** -/
theorem mem_extract_iff {id : Str} {v : Visit} : ∀ {rows : List Row} {initialized : Bool},
    v ∈ (extract dir id initialized rows).1 ↔ ∃ row, Reached rows row ∧ v = visit dir row
  | [], _ => by
      refine ⟨fun h => absurd h List.not_mem_nil, ?_⟩
      rintro ⟨row, ⟨before, after, hrows, -⟩, -⟩
      exact absurd hrows (by simp)
  | r :: rows, initialized => by
      simp only [reached_cons_iff]
      unfold extract
      cases hf : (visit dir r).fault with
      | some f =>
          -- the loop ends here
          have hr : ¬ r.extracted = true := fun hr =>
            absurd (hf.symm.trans (fault_visit_eq_none_iff.mpr hr)) (by simp)
          simp [hf, hr]
      | none =>
          have hr := fault_visit_eq_none_iff.mp hf
          have ih : v ∈ (extract dir id (initialized || r.path == id) rows).1
              ↔ ∃ row, Reached rows row ∧ v = visit dir row := mem_extract_iff
          simp only [hf, hr, List.mem_cons, ih, true_and]
          constructor
          · rintro (rfl | ⟨row, hrow, rfl⟩)
            · exact ⟨r, Or.inl rfl, rfl⟩
            · exact ⟨row, Or.inr hrow, rfl⟩
          · rintro ⟨row, rfl | hrow, rfl⟩
            · exact Or.inl rfl
            · exact Or.inr ⟨row, hrow, rfl⟩

/-- A loop that ends with `initialized` set has extracted the entry. -/
theorem exists_entry_of_extract {id : Str} : ∀ {rows : List Row} {initialized : Bool},
    (extract dir id initialized rows).2 = .ok true → initialized = false →
      ∃ v ∈ (extract dir id initialized rows).1, .write (dir.join id) ∈ v.accesses
  | [], initialized, h, hinit => by
      rw [hinit] at h
      exact absurd h (by simp [extract])
  | row :: rows, initialized, h, hinit => by
      unfold extract at h ⊢
      cases hf : (visit dir row).fault with
      | some f =>
          simp only [hf] at h
          exact absurd h (by simp)
      | none =>
          simp only [hf] at h ⊢
          -- `initialized` is set by this row or by a later one
          by_cases hid : row.path = id
          · refine ⟨_, List.mem_cons_self, ?_⟩
            rw [← hid]
            exact write_of_no_fault hf
          · obtain ⟨v, hv, hw⟩ := exists_entry_of_extract h (by simp [hinit, hid])
            exact ⟨v, List.mem_cons_of_mem _ hv, hw⟩

end Loop

theorem mem_initNativeSlow_iff {noBackupFilesDir : Absolute} {options : PluginOptions}
    {cursor : Option (List Row)} {mkdirs : Bool} {v : Visit} :
    v ∈ (initNativeSlow noBackupFilesDir options cursor mkdirs).1
      ↔ mkdirs = true ∧ ∃ rows ∈ cursor, ∃ row, Reached rows row
        ∧ v = visit (pluginDir noBackupFilesDir) row := by
  unfold initNativeSlow
  split
  next => simp
  next =>
    refine ⟨fun h => absurd h List.not_mem_nil, ?_⟩
    rintro ⟨-, rows, hrows, row, ⟨before, after, hempty, -⟩, -⟩
    rw [← Option.some.inj hrows] at hempty
    exact absurd hempty (by simp)
  next rows _ =>
    cases mkdirs with
    | false => simp
    | true =>
        rw [if_neg (by decide)]
        simp only [mem_extract_iff, true_and]
        exact ⟨fun h => ⟨rows, rfl, h⟩, fun ⟨_, hrows, h⟩ => Option.some.inj hrows ▸ h⟩

/-- **WHAT IS RETURNED WAS WRITTEN IN THIS RUN**, to a directory that was
empty before. -/
theorem entry_written {noBackupFilesDir : Absolute} {options : PluginOptions}
    {cursor : Option (List Row)} {mkdirs : Bool} {file : Str}
    (h : (initNativeSlow noBackupFilesDir options cursor mkdirs).2 = .ok (some file)) :
    ∃ v ∈ (initNativeSlow noBackupFilesDir options cursor mkdirs).1, .write file ∈ v.accesses := by
  unfold initNativeSlow at h ⊢
  split at h
  next => exact absurd h (by simp)
  next => exact absurd h (by simp)
  next rows _ =>
    by_cases hmk : mkdirs = false
    · rw [if_pos hmk] at h
      exact absurd h (by simp)
    · rw [if_neg hmk] at h ⊢
      obtain ⟨initialized, hr, hfile⟩ := bind_eq_ok.mp h
      split_ifs at hfile with hinit
      rw [hinit] at hr
      rw [← Option.some.inj (Except.ok.inj hfile)]
      exact exists_entry_of_extract hr rfl

/-! ## §3. Extraction stays inside. -/

/-- **EXTRACTION STAYS INSIDE THE DIRECTORY**: what is written or changed
is inside, and a path that leaves fails the check with nothing done. -/
structure Contained (dir : Absolute) (visits : List Visit) : Prop where
  accesses : ∀ v ∈ visits, ∀ a ∈ v.accesses, Inside dir.text a.file
  refused : ∀ v ∈ visits, ¬ Within dir.text (dir.join v.path) →
    v.fault = some .check ∧ v.accesses = []

/-- **A row that does no harm**: its path returns to the directory, and if
it ends there it has no component or is not opened. -/
structure Row.Harmless (dir : Absolute) (row : Row) : Prop where
  returns : dir.Returns row.path
  ends : dir.EndsAt row.path → components row.path = [] ∨ row.opened = false

/-- A path without a component is that of the directory. -/
theorem returns_of_components_eq_nil {dir : Absolute} {path : Str} (h : components path = []) :
    dir.Returns path := (dir.returns_of_names (by simp [h]) (by simp [h])).1

theorem contained_iff {dir : Absolute} {visits : List Visit} {Rows : Row → Prop}
    (hvisits : ∀ v, v ∈ visits ↔ ∃ row, Rows row ∧ v = visit dir row) :
    Contained dir visits ↔ ∀ row, Rows row → row.Harmless dir := by
  constructor
  · intro h row hrow
    have hv := (hvisits _).mpr ⟨row, hrow, rfl⟩
    refine ⟨?_, fun hend => ?_⟩
    · by_contra hout
      -- a path that leaves is refused only if it has no component
      have hwithin : ¬ Within dir.text (dir.join (visit dir row).path) := by
        rw [path_visit, dir.within_join_iff]
        exact hout
      have hempty := fault_visit_check_iff.mp (h.refused _ hv hwithin)
      exact hout (returns_of_components_eq_nil hempty)
    · by_contra hnot
      obtain ⟨hne, hopened⟩ := not_or.mp hnot
      -- the directory itself is written
      have hin := h.accesses _ hv _ (write_mem_accesses hne (Bool.not_eq_false _ |>.mp hopened))
      exact ((dir.inside_join_iff row.path).mp hin).2 hend
  · intro h
    refine ⟨fun v hv a ha => ?_, fun v hv hout => ?_⟩
    · obtain ⟨row, hrow, rfl⟩ := (hvisits v).mp hv
      obtain ⟨hfile, hne, hopened⟩ := of_mem_accesses ha
      rw [hfile, dir.inside_join_iff]
      refine ⟨(h row hrow).returns, fun hend => ?_⟩
      rcases (h row hrow).ends hend with hempty | hclosed
      · exact hne hempty
      · exact absurd (hopened.symm.trans hclosed) (by decide)
    · obtain ⟨row, hrow, rfl⟩ := (hvisits v).mp hv
      rw [path_visit, dir.within_join_iff] at hout
      exact absurd (h row hrow).returns hout

/-- A provider that uses names only does no harm. -/
theorem Row.harmless_of_names {dir : Absolute} {row : Row}
    (hnames : ['.'] ∉ components row.path ∧ ['.', '.'] ∉ components row.path) :
    row.Harmless dir := by
  obtain ⟨hreturns, hends⟩ := dir.returns_of_names hnames.1 hnames.2
  exact ⟨hreturns, fun hend => Or.inl (hends.mp hend)⟩

/-- **EXTRACTION IS CONTAINED EXACTLY IF NO ROW THAT THE LOOP COMES TO DOES
HARM**: the check itself keeps nothing out that leads elsewhere. -/
theorem extraction_contained_iff (noBackupFilesDir : Absolute) (options : PluginOptions)
    (cursor : Option (List Row)) (mkdirs : Bool) :
    Contained (pluginDir noBackupFilesDir)
        (initNativeSlow noBackupFilesDir options cursor mkdirs).1
      ↔ (mkdirs = true → ∀ rows ∈ cursor, ∀ row, Reached rows row →
          row.Harmless (pluginDir noBackupFilesDir)) := by
  have hvisits : ∀ v, v ∈ (initNativeSlow noBackupFilesDir options cursor mkdirs).1
      ↔ ∃ row, (mkdirs = true ∧ ∃ rows ∈ cursor, Reached rows row)
        ∧ v = visit (pluginDir noBackupFilesDir) row := by
    intro v
    rw [mem_initNativeSlow_iff]
    constructor
    · rintro ⟨hmk, rows, hrows, row, hrow, hv⟩
      exact ⟨row, ⟨hmk, rows, hrows, hrow⟩, hv⟩
    · rintro ⟨row, ⟨hmk, rows, hrows, hrow⟩, hv⟩
      exact ⟨hmk, rows, hrows, row, hrow, hv⟩
  rw [contained_iff hvisits]
  constructor
  · intro h hmk rows hrows row hrow
    exact h row ⟨hmk, rows, hrows, hrow⟩
  · rintro h row ⟨hmk, rows, hrows, hrow⟩
    exact h hmk rows hrows row hrow

/-- The directory `/d`. -/
def base : Absolute := ⟨[['d']], by decide⟩

/-- The path `../x` passes the check, and the file written is `/d/x`. -/
theorem extraction_escapes :
    (initNativeSlow base {} (some [⟨['.', '.', '/', 'x'], .integer 493, true, true, true, true⟩])
        true).1
      = [⟨['.', '.', '/', 'x'],
          [.write ((pluginDir base).text ++ ['/', '.', '.', '/', 'x']),
            .chmod ((pluginDir base).text ++ ['/', '.', '.', '/', 'x']) 493], none⟩]
    ∧ resolve (components ((pluginDir base).text ++ ['/', '.', '.', '/', 'x'])) = [['d'], ['x']]
    ∧ ¬ Contained (pluginDir base) (initNativeSlow base {}
        (some [⟨['.', '.', '/', 'x'], .integer 493, true, true, true, true⟩]) true).1 := by
  have hrun : (initNativeSlow base {}
      (some [⟨['.', '.', '/', 'x'], .integer 493, true, true, true, true⟩]) true).1
        = [⟨['.', '.', '/', 'x'],
            [.write ((pluginDir base).text ++ ['/', '.', '.', '/', 'x']),
              .chmod ((pluginDir base).text ++ ['/', '.', '.', '/', 'x']) 493], none⟩] := by
    decide
  refine ⟨hrun, by decide, fun h => ?_⟩
  rw [hrun] at h
  have hin := h.accesses _ List.mem_cons_self _ List.mem_cons_self
  revert hin
  decide

end FoxVpn.Plugin.PluginManager
