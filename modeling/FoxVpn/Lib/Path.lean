/-
  FoxVpn.Lib.Path
  ───────────────
  **SLASH-SEPARATED PATHS, AS TEXT AND AS PLACES.**

  A path is read three ways:

      text         its characters, which a prefix test compares
      components   what stands between the slashes, empty parts dropped
      resolve      the place it denotes from the root, `.` and `..` followed

  `squeeze` is what a file name library does to a text: it drops repeated
  slashes and one at the end, and keeps every `.` and `..`.  Joining a child
  to a directory appends its components (`components_join`), so the text of
  the directory is a prefix of the joined text whatever the child is: the
  prefix says nothing about the place.

  What does is `climb`: a child goes up some directories and then down some
  names, and it stays below the directory exactly if these names lead back
  through the ones it left (`within_join_iff`, `inside_join_iff`).
-/
import Mathlib.Data.List.Infix
import FoxVpn.Lib.Text

namespace FoxVpn.Lib.Path

/-! ## §1. Texts and components. -/

/-- What stands between the slashes. -/
def components (s : List Char) : List (List Char) := (s.splitOn '/').filter (· ≠ [])

/-- A slash before every component. -/
def text (cs : List (List Char)) : List Char := cs.flatMap ('/' :: ·)

/-- A slash is dropped if another one or nothing follows. -/
def squeeze : List Char → List Char
  | [] => []
  | c :: rest =>
      if c = '/' ∧ (rest = [] ∨ rest.head? = some '/') then squeeze rest else c :: squeeze rest

theorem text_cons (c : List Char) (cs : List (List Char)) :
    text (c :: cs) = '/' :: (c ++ text cs) := by
  simp [text]

theorem text_append (cs ds : List (List Char)) : text (cs ++ ds) = text cs ++ text ds :=
  List.flatMap_append

theorem components_append (s t : List Char) :
    components (s ++ '/' :: t) = components s ++ components t := by
  unfold components
  rw [List.splitOn_append_cons_self, List.filter_append]

theorem components_slash (s : List Char) : components ('/' :: s) = components s :=
  components_append [] s

theorem mem_components {s c : List Char} (h : c ∈ components s) : c ≠ [] ∧ '/' ∉ c := by
  obtain ⟨hmem, hne⟩ := List.mem_filter.mp h
  exact ⟨of_decide_eq_true hne, not_mem_of_mem_splitOn hmem⟩

theorem components_singleton {c : List Char} (hne : c ≠ []) (h : '/' ∉ c) : components c = [c] := by
  unfold components
  rw [splitOn_of_not_mem h]
  simp [hne]

/-- The first part of a text is kept, and of the others those that are not
empty. -/
theorem squeeze_eq : ∀ (s : List Char), ∃ part parts, s.splitOn '/' = part :: parts
    ∧ squeeze s = part ++ text (parts.filter (· ≠ []))
    ∧ (part = [] ↔ s = [] ∨ s.head? = some '/')
  | [] => ⟨[], [], by simp, rfl, by simp⟩
  | c :: rest => by
      obtain ⟨part, parts, hsplit, hsqueeze, hpart⟩ := squeeze_eq rest
      by_cases hc : c = '/'
      · refine ⟨[], part :: parts, ?_, ?_, by simp [hc]⟩
        · rw [List.splitOn_cons_eq_if_modifyHead, if_pos (by simp [hc]), hsplit]
        · -- the slash stays if the part behind it has a character
          unfold squeeze
          by_cases hempty : part = []
          · rw [if_pos ⟨hc, hpart.mp hempty⟩, hsqueeze, hempty]
            simp
          · rw [if_neg fun h => hempty (hpart.mpr h.2), hsqueeze, hc,
              List.filter_cons_of_pos (by simpa using hempty), text_cons]
            rfl
      · -- any other character goes to the part it begins
        refine ⟨c :: part, parts, ?_, ?_, by simp [hc]⟩
        · rw [List.splitOn_cons_eq_if_modifyHead, if_neg (by simpa using hc), hsplit]
          rfl
        · unfold squeeze
          rw [if_neg fun h => hc h.1, hsqueeze]
          rfl

/-- **An absolute text is squeezed to its components.** -/
theorem squeeze_absolute (s : List Char) : squeeze ('/' :: s) = text (components ('/' :: s)) := by
  obtain ⟨part, parts, hsplit, hsqueeze, hpart⟩ := squeeze_eq ('/' :: s)
  have hempty : part = [] := hpart.mpr (Or.inr rfl)
  rw [hsqueeze, components, hsplit, hempty]
  simp

theorem components_text : ∀ {cs : List (List Char)}, (∀ c ∈ cs, c ≠ [] ∧ '/' ∉ c) →
    components (text cs) = cs
  | [], _ => by simp [text, components]
  | c :: cs, h => by
      obtain ⟨hne, hslash⟩ := h c List.mem_cons_self
      have ih := components_text fun d hd => h d (List.mem_cons_of_mem c hd)
      rw [text_cons, components_slash]
      cases cs with
      | nil =>
          rw [show text [] = [] from rfl, List.append_nil]
          exact components_singleton hne hslash
      | cons d ds =>
          rw [text_cons, components_slash] at ih
          rw [text_cons, components_append, components_singleton hne hslash, ih]
          rfl

/-! ## §2. Absolute paths. -/

/-- An absolute path in the form a file object keeps: components that are
not empty and have no slash. -/
structure Absolute where
  components : List (List Char)
  valid : ∀ c ∈ components, c ≠ [] ∧ '/' ∉ c

namespace Absolute

def text (d : Absolute) : List Char := Path.text d.components

/-- The child is appended, and the text squeezed. -/
def join (d : Absolute) (child : List Char) : List Char := squeeze (d.text ++ '/' :: child)

theorem components_eq (d : Absolute) : Path.components d.text = d.components :=
  components_text d.valid

theorem join_eq (d : Absolute) (child : List Char) :
    d.join child = Path.text (d.components ++ Path.components child) := by
  have hcomp : Path.components (d.text ++ '/' :: child)
      = d.components ++ Path.components child := by
    rw [components_append, components_eq]
  -- the joined text starts with a slash
  obtain ⟨s, hs⟩ : ∃ s, d.text ++ '/' :: child = '/' :: s := by
    unfold text
    cases d.components with
    | nil => exact ⟨child, rfl⟩
    | cons c cs => exact ⟨_, by rw [text_cons]; rfl⟩
  rw [join, hs, squeeze_absolute, ← hs, hcomp]

theorem components_join (d : Absolute) (child : List Char) :
    Path.components (d.join child) = d.components ++ Path.components child := by
  rw [join_eq]
  refine components_text fun c hc => ?_
  rcases List.mem_append.mp hc with hc | hc
  · exact d.valid c hc
  · exact mem_components hc

/-- **The prefix test passes exactly if the child has a component.** -/
theorem text_slash_prefix_join (d : Absolute) (child : List Char) :
    d.text ++ ['/'] <+: d.join child ↔ Path.components child ≠ [] := by
  rw [join_eq, text_append]
  show d.text ++ ['/'] <+: d.text ++ Path.text (Path.components child) ↔ _
  rw [List.prefix_append_right_inj]
  cases Path.components child with
  | nil => simp [Path.text]
  | cons c cs => simp [text_cons]

end Absolute

/-! ## §3. Places. -/

/-- One component is followed; the root is its own parent. -/
def follow (here : List (List Char)) (c : List Char) : List (List Char) :=
  if c = ['.'] then here else if c = ['.', '.'] then here.dropLast else here ++ [c]

/-- The place a path denotes where no component is a link. -/
def resolve (cs : List (List Char)) : List (List Char) := cs.foldl follow []

/-- The file is the directory or below it. -/
def Within (dir file : List Char) : Prop :=
  resolve (components dir) <+: resolve (components file)

/-- The file is below the directory, and not the directory itself. -/
def Inside (dir file : List Char) : Prop :=
  Within dir file ∧ resolve (components file) ≠ resolve (components dir)

instance (dir file : List Char) : Decidable (Within dir file) :=
  inferInstanceAs (Decidable (_ <+: _))

instance (dir file : List Char) : Decidable (Inside dir file) :=
  inferInstanceAs (Decidable (_ ∧ _))

/-! ## §4. Going up and coming back. -/

/-- One more component of a relative path of which only `..` in front and
names are left. -/
def climbStep (s : Nat × List (List Char)) (c : List Char) : Nat × List (List Char) :=
  if c = ['.'] then s
  else if c = ['.', '.'] then if s.2 = [] then (s.1 + 1, []) else (s.1, s.2.dropLast)
  else (s.1, s.2 ++ [c])

/-- **A relative path, with every name that a `..` takes back struck out**:
how often it goes up, and the names it then goes down. -/
def climb (cs : List (List Char)) : Nat × List (List Char) := cs.foldl climbStep (0, [])

theorem follow_climbStep (here : List (List Char)) (s : Nat × List (List Char)) (c : List Char) :
    follow (here.take (here.length - s.1) ++ s.2) c
      = here.take (here.length - (climbStep s c).1) ++ (climbStep s c).2 := by
  unfold follow climbStep
  by_cases hdot : c = ['.']
  · rw [if_pos hdot, if_pos hdot]
  rw [if_neg hdot, if_neg hdot]
  by_cases hup : c = ['.', '.']
  · rw [if_pos hup, if_pos hup]
    by_cases hnames : s.2 = []
    · -- one of the names of the place itself is left
      rw [if_pos hnames, hnames, List.append_nil, List.append_nil, List.dropLast_eq_take,
        List.take_take, List.length_take]
      congr 1
      omega
    · rw [if_neg hnames, List.dropLast_append_of_ne_nil hnames]
  · rw [if_neg hup, if_neg hup, List.append_assoc]

/-- **A path leads up from where it starts, and then down its names.** -/
theorem foldl_follow_climb (here cs : List (List Char)) :
    cs.foldl follow here = here.take (here.length - (climb cs).1) ++ (climb cs).2 := by
  have hfold : ∀ (cs : List (List Char)) (s : Nat × List (List Char)),
      cs.foldl follow (here.take (here.length - s.1) ++ s.2)
        = here.take (here.length - (cs.foldl climbStep s).1) ++ (cs.foldl climbStep s).2 := by
    intro cs
    induction cs with
    | nil => exact fun _ => rfl
    | cons c cs ih =>
        intro s
        rw [List.foldl_cons, List.foldl_cons, follow_climbStep]
        exact ih (climbStep s c)
  have hstart := hfold cs (0, [])
  rw [List.append_nil, Nat.sub_zero, List.take_length] at hstart
  exact hstart

/-- Names are not taken back. -/
theorem climb_names {cs : List (List Char)} (hdot : ['.'] ∉ cs) (hup : ['.', '.'] ∉ cs) :
    climb cs = (0, cs) := by
  have hfold : ∀ (cs names : List (List Char)), ['.'] ∉ cs → ['.', '.'] ∉ cs →
      cs.foldl climbStep (0, names) = (0, names ++ cs) := by
    intro cs
    induction cs with
    | nil => exact fun names _ _ => by simp
    | cons c cs ih =>
        intro names hdot hup
        obtain ⟨hc, hdot⟩ := not_or.mp (mt List.mem_cons.mpr hdot)
        obtain ⟨hc', hup⟩ := not_or.mp (mt List.mem_cons.mpr hup)
        rw [List.foldl_cons, climbStep, if_neg (Ne.symm hc), if_neg (Ne.symm hc'),
          ih _ hdot hup, List.append_assoc]
        rfl
  exact hfold cs [] hdot hup

namespace Absolute

variable (d : Absolute)

/-- The last `k` names of the place of a directory: the way back from `k`
directories above. -/
def wayBack (k : Nat) : List (List Char) :=
  (resolve d.components).drop ((resolve d.components).length - k)

/-- The child goes up no further than its names lead back. -/
def Returns (child : List Char) : Prop :=
  d.wayBack (climb (Path.components child)).1 <+: (climb (Path.components child)).2

/-- The names of the child are the way back and no more. -/
def EndsAt (child : List Char) : Prop :=
  (climb (Path.components child)).2 = d.wayBack (climb (Path.components child)).1

instance (child : List Char) : Decidable (d.Returns child) :=
  inferInstanceAs (Decidable (_ <+: _))

instance (child : List Char) : Decidable (d.EndsAt child) :=
  inferInstanceAs (Decidable (_ = _))

theorem resolve_join (child : List Char) :
    resolve (Path.components (d.join child))
      = (resolve d.components).take
          ((resolve d.components).length - (climb (Path.components child)).1)
        ++ (climb (Path.components child)).2 := by
  rw [d.components_join, resolve, List.foldl_append]
  exact foldl_follow_climb _ _

/-- The place of the directory, cut where the way back begins. -/
theorem take_append_wayBack (k : Nat) :
    (resolve d.components).take ((resolve d.components).length - k) ++ d.wayBack k
      = resolve d.components := List.take_append_drop _ _

/-- **A child stays below the directory exactly if it returns.** -/
theorem within_join_iff (child : List Char) :
    Within d.text (d.join child) ↔ d.Returns child := by
  unfold Within Returns
  rw [d.components_eq, d.resolve_join]
  nth_rewrite 1 [← d.take_append_wayBack (climb (Path.components child)).1]
  exact List.prefix_append_right_inj _

theorem inside_join_iff (child : List Char) :
    Inside d.text (d.join child) ↔ d.Returns child ∧ ¬ d.EndsAt child := by
  have hend : resolve (Path.components (d.join child)) = resolve (Path.components d.text)
      ↔ d.EndsAt child := by
    unfold EndsAt
    rw [d.components_eq, d.resolve_join]
    nth_rewrite 3 [← d.take_append_wayBack (climb (Path.components child)).1]
    exact List.append_right_inj _
  exact and_congr (d.within_join_iff child) (not_congr hend)

/-- A child made of names only is below the directory. -/
theorem returns_of_names {child : List Char} (hdot : ['.'] ∉ Path.components child)
    (hup : ['.', '.'] ∉ Path.components child) :
    d.Returns child ∧ (d.EndsAt child ↔ Path.components child = []) := by
  have hback : d.wayBack 0 = [] := by
    rw [wayBack, Nat.sub_zero, List.drop_length]
  unfold Returns EndsAt
  rw [climb_names hdot hup, hback]
  exact ⟨List.nil_prefix, Iff.rfl⟩

end Absolute

end FoxVpn.Lib.Path
