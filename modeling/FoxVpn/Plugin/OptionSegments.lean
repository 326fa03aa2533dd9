/-
  FoxVpn.Plugin.OptionSegments
  ────────────────────────────
  **WHAT BECOMES OF EVERY SEGMENT OF AN OPTIONS STRING.**

  The SPECIFICATION does not loop.  A text is cut into marks, characters that
  are escaped or not; the segments lie between the unescaped `;`:

      first segment, no `=`      the id
      any other, not empty       an entry, cut at its first unescaped `=`
      the same key again         replaces the entry

  The READER closes the last segment with a `;` of its own, behind the text.
  If the text ends in a backslash that escapes nothing, it is this `;` that
  gets escaped, and the last segment is never closed:

      a;b\           id = a, and nothing of b

  Main result `accounts_iff`: every segment is accounted for if the text does
  not end in such a backslash; if it does, only where the last segment says
  nothing that was not said before it.
-/
import FoxVpn.Lib.Text
import FoxVpn.Plugin.PluginOptions

namespace FoxVpn.Plugin

open FoxVpn.Lib PluginOptions

/-! ## §1. Marks and segments. -/

/-- A character of a text, as its escapes leave it. -/
inductive Mark where
  | plain (c : Char)
  | escaped (c : Char)
  /-- A backslash with nothing behind it. -/
  | lone
  deriving Repr, DecidableEq

/-- A backslash escapes the character after it. -/
def marks : Str → List Mark
  | [] => []
  | c :: cs =>
      if c = '\\' then
        match cs with
        | [] => [.lone]
        | d :: ds => .escaped d :: marks ds
      else .plain c :: marks cs

/-- The text ends in a backslash that escapes nothing. -/
def EndsInBackslash (s : Str) : Prop := .lone ∈ marks s

instance (s : Str) : Decidable (EndsInBackslash s) := inferInstanceAs (Decidable (_ ∈ _))

abbrev Segment := List Mark

/-- The text, split at its unescaped `;`. -/
def segments (s : Str) : List Segment := (marks s).splitOn (.plain ';')

/-! Nothing says what a backslash that escapes nothing stands for: `lone` is
whatever it is taken for. -/

section Specification

variable (lone : Str)

def Mark.text : Mark → Str
  | .plain c => [c]
  | .escaped c => [c]
  | .lone => lone

namespace Segment

/-- The segment without its escapes. -/
def text (seg : Segment) : Str := seg.flatMap (Mark.text lone)

/-- The key and the value, around the first unescaped `=`. -/
def entry (seg : Segment) : Str × Option Str :=
  (text lone (splitFirst (.plain '=') seg).1, (splitFirst (.plain '=') seg).2.map (text lone))

end Segment

/-- The id: the first segment, unless it is an entry. -/
def idOf : List Segment → Str
  | [] => []
  | first :: _ => if .plain '=' ∈ first then [] else Segment.text lone first

/-- The entries: the other segments, in their order. -/
def entriesOf : List Segment → List (Str × Option Str)
  | [] => []
  | first :: rest =>
      (((if .plain '=' ∈ first then [first] else []) ++ rest).filter (· ≠ [])).map
        (Segment.entry lone)

/-- The value of a key: of the entries that have it, the last one's. -/
def valueOf (entries : List (Str × Option Str)) (key : Str) : Option (Option Str) :=
  (entries.reverse.find? fun e => e.1 = key).map Prod.snd

/-- The options are what the segments say, and nothing else. -/
def Says (segs : List Segment) (o : PluginOptions) : Prop :=
  o.id = idOf lone segs ∧ ∀ key, o.get key = valueOf (entriesOf lone segs) key

/-- **Nothing is dropped silently**: the constructor throws, or its options
are what the segments say. -/
def Accounts (s : Str) : Prop :=
  (∃ fault, ofString (some s) = .error fault)
    ∨ ∃ o, ofString (some s) = .ok o ∧ Says lone (segments s) o

/-- The last segment changes nothing: an id that is empty, or an entry that
is there without it. -/
def SaidBefore (segs : List Segment) : Prop :=
  if segs.dropLast = [] ∧ .plain '=' ∉ segs.getLastD [] then
    Segment.text lone (segs.getLastD []) = []
  else
    valueOf (entriesOf lone segs.dropLast) (Segment.entry lone (segs.getLastD [])).1
      = some (Segment.entry lone (segs.getLastD [])).2

instance (segs : List Segment) : Decidable (SaidBefore lone segs) :=
  inferInstanceAs (Decidable (@ite Prop _ _ _ _))

end Specification

/-! ## §2. Options, one segment after the other. -/

section Options

variable (lone : Str)

/-- What a segment does to the options; `first` is whether it may be the
id. -/
def say (first : Bool) (o : PluginOptions) (seg : Segment) : PluginOptions :=
  if seg = [] then o
  else if first = true ∧ .plain '=' ∉ seg then { o with id := Segment.text lone seg }
  else
    { o with toLinkedMap := o.put (Segment.entry lone seg).1 (Segment.entry lone seg).2 }

/-- What all segments do. -/
def options : List Segment → PluginOptions
  | [] => {}
  | first :: rest => rest.foldl (say lone false) (say lone true {} first)

theorem options_append (segs : List Segment) (seg : Segment) :
    options lone (segs ++ [seg]) = say lone segs.isEmpty (options lone segs) seg := by
  cases segs with
  | nil => rfl
  | cons first rest => exact List.foldl_concat (say lone false) _ seg rest

theorem idOf_append (segs : List Segment) (seg : Segment) :
    idOf lone (segs ++ [seg])
      = if segs = [] ∧ .plain '=' ∉ seg then Segment.text lone seg else idOf lone segs := by
  cases segs with
  | nil =>
      show (if Mark.plain '=' ∈ seg then [] else Segment.text lone seg) = _
      by_cases heq : Mark.plain '=' ∈ seg
      · rw [if_pos heq, if_neg fun h => h.2 heq]
        rfl
      · rw [if_neg heq, if_pos ⟨rfl, heq⟩]
  | cons first rest =>
      rw [if_neg fun h => List.cons_ne_nil first rest h.1]
      rfl

theorem entriesOf_append (segs : List Segment) (seg : Segment) :
    entriesOf lone (segs ++ [seg])
      = entriesOf lone segs
        ++ if seg = [] ∨ (segs = [] ∧ .plain '=' ∉ seg) then [] else [Segment.entry lone seg] := by
  cases segs with
  | nil =>
      show (((if Mark.plain '=' ∈ seg then [seg] else []) ++ []).filter (· ≠ [])).map _ = _
      by_cases heq : Mark.plain '=' ∈ seg
      · have hne : seg ≠ [] := List.ne_nil_of_mem heq
        have hother : ¬ (seg = [] ∨ (([] : List Segment) = [] ∧ Mark.plain '=' ∉ seg)) :=
          not_or.mpr ⟨hne, fun h => h.2 heq⟩
        rw [if_pos heq, if_neg hother, List.append_nil, List.filter_singleton,
          decide_eq_true hne]
        rfl
      · rw [if_neg heq, if_pos (Or.inr ⟨rfl, heq⟩)]
        rfl
  | cons first rest =>
      show ((_ ++ (rest ++ [seg])).filter (· ≠ [])).map _ = ((_ ++ rest).filter (· ≠ [])).map _ ++ _
      rw [← List.append_assoc, List.filter_append, List.map_append]
      by_cases hseg : seg = []
      · rw [hseg, if_pos (Or.inl rfl)]
        rfl
      · have hother : ¬ (seg = [] ∨ (first :: rest = [] ∧ Mark.plain '=' ∉ seg)) :=
          not_or.mpr ⟨hseg, fun h => List.cons_ne_nil first rest h.1⟩
        rw [if_neg hother, List.filter_singleton, decide_eq_true hseg]
        rfl

theorem valueOf_append (entries : List (Str × Option Str)) (e : Str × Option Str) (key : Str) :
    valueOf (entries ++ [e]) key = if key = e.1 then some e.2 else valueOf entries key := by
  unfold valueOf
  rw [List.reverse_append, List.reverse_singleton, List.singleton_append, List.find?_cons]
  by_cases hkey : key = e.1
  · rw [if_pos hkey, decide_eq_true hkey.symm]
    rfl
  · rw [if_neg hkey, decide_eq_false (Ne.symm hkey)]

/-- **The options that were built are what the segments say**, by induction
on the segments from the last one. -/
theorem says_options (segs : List Segment) : Says lone segs (options lone segs) := by
  induction segs using List.reverseRecOn with
  | nil => exact ⟨rfl, fun key => rfl⟩
  | append_singleton segs seg ih =>
      obtain ⟨hid, hget⟩ := ih
      unfold Says
      rw [options_append, idOf_append, entriesOf_append]
      unfold say
      by_cases hseg : seg = []
      · -- an empty segment: a first one would make the id empty, and it is
        subst hseg
        rw [if_pos rfl, if_pos (Or.inl rfl), List.append_nil]
        refine ⟨?_, hget⟩
        split
        next h =>
          rw [hid, h.1]
          rfl
        next => exact hid
      · rw [if_neg hseg]
        have hflag : segs.isEmpty = true ↔ segs = [] := List.isEmpty_iff
        by_cases hfirst : segs = [] ∧ Mark.plain '=' ∉ seg
        · rw [if_pos ⟨hflag.mpr hfirst.1, hfirst.2⟩, if_pos hfirst, if_pos (Or.inr hfirst),
            List.append_nil]
          exact ⟨rfl, hget⟩
        · rw [if_neg fun h => hfirst ⟨hflag.mp h.1, h.2⟩, if_neg hfirst,
            if_neg (not_or.mpr ⟨hseg, hfirst⟩)]
          refine ⟨hid, fun key => ?_⟩
          rw [valueOf_append, ← hget]
          exact LinkedMap.get_put _ _ _ _

/-- Which options a text has is settled by what its segments say. -/
theorem says_iff_same {segs : List Segment} {o : PluginOptions} :
    Says lone segs o ↔ o.Same (options lone segs) := by
  obtain ⟨hid, hget⟩ := says_options lone segs
  unfold Says Same
  rw [hid]
  exact and_congr_right fun _ => forall_congr' fun key => by rw [hget]

/-- A segment that changes nothing. -/
theorem same_say_iff {o : PluginOptions} {seg : Segment} (hseg : seg ≠ []) (first : Bool) :
    o.Same (say lone first o seg)
      ↔ if first = true ∧ .plain '=' ∉ seg then Segment.text lone seg = o.id
        else o.get (Segment.entry lone seg).1 = some (Segment.entry lone seg).2 := by
  unfold say Same
  rw [if_neg hseg]
  split
  next => exact ⟨fun h => h.1.symm, fun h => ⟨h.symm, fun _ => rfl⟩⟩
  next =>
    constructor
    · intro h
      have hkey := h.2 (Segment.entry lone seg).1
      rwa [LinkedMap.get_put, if_pos rfl] at hkey
    · intro h
      refine ⟨rfl, fun key => ?_⟩
      rw [LinkedMap.get_put]
      split
      next hkey => rw [hkey, h]
      next => rfl

end Options

/-! ## §3. The reader, mark by mark. -/

/-- The branches of the loop. -/
def PluginOptions.Scan.take (st : Scan) : Mark → Scan
  | .plain c => if c = '=' then st.equals else if c = ';' then st.semicolon else st.append [c]
  | .escaped c => st.append [c]
  | .lone => st

theorem marks_backslash (d : Char) (ds : Str) :
    marks ('\\' :: d :: ds) = .escaped d :: marks ds := by
  rw [marks, if_pos rfl]

theorem marks_char {c : Char} (h : c ≠ '\\') (cs : Str) :
    marks (c :: cs) = .plain c :: marks cs := by
  rw [marks.eq_def]
  exact if_neg h

/-- The loop over a text is the loop over its marks. -/
theorem scanChars_eq : ∀ (s : Str) (st : Scan), ¬ EndsInBackslash s →
    scanChars st s = .ok ((marks s).foldl Scan.take st)
  | [], st, _ => rfl
  | c :: cs, st, h => by
      by_cases hc : c = '\\'
      · subst hc
        cases cs with
        | nil => exact absurd (List.mem_singleton_self Mark.lone) h
        | cons d ds =>
            unfold EndsInBackslash at h
            rw [marks_backslash, List.mem_cons, not_or] at h
            rw [scanChars_backslash, marks_backslash, List.foldl_cons]
            exact scanChars_eq ds _ h.2
      · unfold EndsInBackslash at h
        rw [marks_char hc, List.mem_cons, not_or] at h
        have ih := fun st => scanChars_eq cs st h.2
        rw [scanChars_char st hc, marks_char hc, List.foldl_cons, ih, ih, ih, Scan.take]
        split
        next => rfl
        next => split <;> rfl

/-- What the `;` behind a text becomes: it closes the last segment, or is
escaped by the backslash before it. -/
def Closing (s : Str) : Prop := ∃ ms : List Mark, .lone ∉ ms
  ∧ ((marks s = ms ∧ marks (s ++ [';']) = ms ++ [.plain ';'])
    ∨ (marks s = ms ++ [.lone] ∧ marks (s ++ [';']) = ms ++ [.escaped ';']))

/-- One mark in front changes nothing about the end. -/
theorem Closing.cons {m : Mark} (front : Str) {s : Str} (hm : m ≠ .lone)
    (hmarks : ∀ t, marks (front ++ t) = m :: marks t) (h : Closing s) : Closing (front ++ s) := by
  obtain ⟨ms, hlone, hend⟩ := h
  refine ⟨m :: ms, List.not_mem_cons_of_ne_of_not_mem hm.symm hlone, ?_⟩
  rw [List.append_assoc, hmarks, hmarks]
  rcases hend with ⟨htext, hclosed⟩ | ⟨htext, hclosed⟩
  · rw [htext, hclosed]
    exact Or.inl ⟨rfl, rfl⟩
  · rw [htext, hclosed]
    exact Or.inr ⟨rfl, rfl⟩

theorem closing : ∀ s : Str, Closing s
  | [] => ⟨[], List.not_mem_nil, Or.inl ⟨rfl, rfl⟩⟩
  | c :: cs => by
      by_cases hc : c = '\\'
      · subst hc
        cases cs with
        | nil => exact ⟨[], List.not_mem_nil, Or.inr ⟨rfl, rfl⟩⟩
        | cons d ds =>
            have hmark : Mark.escaped d ≠ .lone := Mark.noConfusion
            exact Closing.cons ['\\', d] hmark (marks_backslash d) (closing ds)
      · have hmark : Mark.plain c ≠ .lone := Mark.noConfusion
        exact Closing.cons [c] hmark (marks_char hc) (closing cs)

/-- Marks that are all taken for their text: no `;`, and no `=` but behind
the key. -/
theorem foldl_take_append (lone : Str) (seg : Segment) (st : Scan)
    (hsc : .plain ';' ∉ seg) (hlone : .lone ∉ seg) (heq : .plain '=' ∈ seg → st.key ≠ none) :
    seg.foldl Scan.take st = st.append (Segment.text lone seg) := by
  induction seg generalizing st with
  | nil =>
      show st = { st with current := st.current ++ [] }
      rw [List.append_nil]
  | cons m seg ih =>
      rw [List.mem_cons, not_or] at hsc hlone
      have htake : st.take m = st.append (m.text lone) := by
        cases m with
        | escaped c => rfl
        | lone => exact absurd rfl hlone.1
        | plain c =>
            show (if c = '=' then st.equals else if c = ';' then st.semicolon else _) = _
            have hc : c ≠ ';' := fun h => hsc.1 (h ▸ rfl)
            rw [if_neg hc]
            split
            next hchar =>
              -- an `=` in the value
              subst hchar
              cases hkey : st.key with
              | none => exact absurd hkey (heq List.mem_cons_self)
              | some key =>
                  unfold Scan.equals
                  rw [hkey]
                  rfl
            next => rfl
      rw [List.foldl_cons, htake]
      have hrest := ih (st.append (m.text lone)) hsc.2 hlone.2 fun h =>
        heq (List.mem_cons_of_mem _ h)
      rw [hrest, append_append]
      rfl

theorem text_eq_nil {lone : Str} {seg : Segment} (hlone : .lone ∉ seg)
    (h : Segment.text lone seg = []) : seg = [] := by
  cases seg with
  | nil => rfl
  | cons m seg =>
      rw [List.mem_cons, not_or] at hlone
      cases m with
      | lone => exact absurd rfl hlone.1
      | plain c => exact absurd h (List.cons_ne_nil c _)
      | escaped c => exact absurd h (List.cons_ne_nil c _)

/-- **One segment is read**: with the `;` that closes it, it does what it
says. -/
theorem foldl_take_segment (lone : Str) (parseId : Bool) (o : PluginOptions) {seg : Segment}
    (hsc : .plain ';' ∉ seg) (hlone : .lone ∉ seg) :
    (seg ++ [Mark.plain ';']).foldl Scan.take { parseId := parseId, result := o }
      = { parseId := false, result := say lone parseId o seg } := by
  rw [List.foldl_append]
  show Scan.semicolon (seg.foldl Scan.take { parseId := parseId, result := o }) = _
  by_cases heq : Mark.plain '=' ∈ seg
  · -- cut at the first `=`: the key before it, the value behind it
    obtain ⟨key, value, rfl, hkey⟩ := List.eq_append_cons_of_mem heq
    rw [List.mem_append, List.mem_cons, not_or, not_or] at hsc hlone
    have hentry : Segment.entry lone (key ++ .plain '=' :: value)
        = (Segment.text lone key, some (Segment.text lone value)) := by
      unfold Segment.entry
      rw [splitFirst_append _ key value hkey]
      rfl
    rw [List.foldl_append, foldl_take_append lone key _ hsc.1 hlone.1 fun h => absurd h hkey,
      List.foldl_cons]
    show Scan.semicolon (value.foldl Scan.take
      { parseId := parseId, result := o, key := some (Segment.text lone key) }) = _
    rw [foldl_take_append lone value _ hsc.2.2 hlone.2.2 fun _ => by simp, say,
      if_neg (by simp), if_neg fun h => h.2 heq, hentry]
    rfl
  · have hentry : Segment.entry lone seg = (Segment.text lone seg, none) := by
      unfold Segment.entry
      rw [splitFirst_of_not_mem _ seg heq]
      rfl
    rw [foldl_take_append lone seg _ hsc hlone fun h => absurd h heq, say, hentry]
    show (if Segment.text lone seg = [] then _ else if parseId = true then _ else _) = _
    by_cases hseg : seg = []
    · subst hseg
      rfl
    · rw [if_neg fun h => hseg (text_eq_nil hlone h), if_neg hseg]
      cases parseId with
      | true => rw [if_pos rfl, if_pos ⟨rfl, heq⟩]; rfl
      | false => rfl

/-- **All segments that are closed are read**, by induction on them. -/
theorem foldl_take_unlines (lone : Str) (segs : List Segment)
    (hsegs : ∀ seg ∈ segs, .plain ';' ∉ seg ∧ .lone ∉ seg) :
    (unlines (Mark.plain ';') segs).foldl Scan.take { parseId := true }
      = { parseId := segs.isEmpty, result := options lone segs } := by
  induction segs using List.reverseRecOn with
  | nil => rfl
  | append_singleton segs seg ih =>
      rw [List.forall_mem_append, List.forall_mem_singleton] at hsegs
      obtain ⟨hbefore, hsc, hlone⟩ := hsegs
      rw [unlines_append, List.foldl_append, ih hbefore, options_append]
      have hone : unlines (.plain ';') [seg] = seg ++ [.plain ';'] := List.flatMap_singleton _ _
      have hflag : (segs ++ [seg]).isEmpty = false := by simp
      rw [hone, foldl_take_segment lone segs.isEmpty _ hsc hlone, hflag]

/-- Without a `;`, nothing is stored. -/
theorem result_foldl_take (seg : Segment) (st : Scan) (hsc : .plain ';' ∉ seg) :
    (seg.foldl Scan.take st).result = st.result := by
  induction seg generalizing st with
  | nil => rfl
  | cons m seg ih =>
      rw [List.mem_cons, not_or] at hsc
      rw [List.foldl_cons, ih _ hsc.2]
      cases m with
      | escaped c => rfl
      | lone => rfl
      | plain c =>
          have hc : c ≠ ';' := fun h => hsc.1 (h ▸ rfl)
          show Scan.result (if c = '=' then st.equals else if c = ';' then _ else _) = _
          rw [if_neg hc]
          split
          next =>
            unfold Scan.equals
            split <;> rfl
          next => rfl

/-! ## §4. Whole strings. -/

/-- A segment is made of marks of the text. -/
theorem mem_of_mem_splitOn {ms : List Mark} {seg : Segment} {m : Mark}
    (hseg : seg ∈ ms.splitOn (.plain ';')) (hm : m ∈ seg) : m ∈ ms := by
  have hall : m ∈ unlines (.plain ';') (ms.splitOn (.plain ';')) :=
    List.mem_flatMap.mpr ⟨seg, hseg, List.mem_append_left _ hm⟩
  rw [unlines_splitOn, List.mem_append, List.mem_singleton] at hall
  refine hall.resolve_right fun h => ?_
  rw [h] at hm
  exact not_mem_of_mem_splitOn hseg hm

/-- What the loop may meet in the segments of marks that are all taken. -/
theorem splitOn_readable {ms : List Mark} (hlone : .lone ∉ ms) :
    ∀ seg ∈ ms.splitOn (.plain ';'), .plain ';' ∉ seg ∧ .lone ∉ seg :=
  fun _ hseg => ⟨not_mem_of_mem_splitOn hseg, fun h => hlone (mem_of_mem_splitOn hseg h)⟩

/-- The loop over a text and the `;` behind it. -/
theorem ofString_eq_of_marks {s : Str} (hs : ∀ c ∈ s, isISOControl c = false)
    (hlone : .lone ∉ marks (s ++ [';'])) :
    ofString (some s)
      = .ok ((marks (s ++ [';'])).foldl Scan.take { parseId := true }).result := by
  by_cases hne : s = []
  · subst hne
    rfl
  · rw [ofString, ofText_eq hne (any_isISOControl_iff.mpr hs), scanChars_eq _ _ hlone]
    rfl

/-- **A text with no such backslash**: all segments are read. -/
theorem ofString_eq_options (lone : Str) {s : Str} (hs : ∀ c ∈ s, isISOControl c = false)
    (hend : ¬ EndsInBackslash s) : ofString (some s) = .ok (options lone (segments s)) := by
  obtain ⟨ms, hlone, ⟨htext, hclosed⟩ | ⟨htext, _⟩⟩ := closing s
  · rw [ofString_eq_of_marks hs (by rw [hclosed]; simp [hlone]), hclosed, ← htext,
      ← unlines_splitOn, foldl_take_unlines lone _ (splitOn_readable (htext ▸ hlone))]
    rfl
  · refine absurd ?_ hend
    show Mark.lone ∈ marks s
    rw [htext]
    exact List.mem_append_right _ (List.mem_singleton_self _)

/-- **A text that ends in a backslash**: all segments are read but the last
one, which is not empty and is lost. -/
theorem ofString_eq_dropped (lone : Str) {s : Str} (hs : ∀ c ∈ s, isISOControl c = false)
    (hend : EndsInBackslash s) :
    ∃ earlier last, segments s = earlier ++ [last] ∧ last ≠ []
      ∧ ofString (some s) = .ok (options lone earlier) := by
  obtain ⟨ms, hlone, ⟨htext, _⟩ | ⟨htext, hclosed⟩⟩ := closing s
  · rw [← htext] at hlone
    exact absurd hend hlone
  · have hmark : Mark.lone ≠ .plain ';' := Mark.noConfusion
    obtain ⟨earlier, last, hsplit, hsegs, hms⟩ := splitOn_concat hmark ms
    have hread := splitOn_readable hlone
    rw [hsplit, List.forall_mem_append, List.forall_mem_singleton] at hread
    refine ⟨earlier, last ++ [.lone], ?_, by simp, ?_⟩
    · rw [segments, htext, hsegs]
    · -- the `;` behind the text is one more character of the last segment
      have hopen : Mark.plain ';' ∉ last ++ [.escaped ';'] := by simp [hread.2.1]
      rw [ofString_eq_of_marks hs (by rw [hclosed]; simp [hlone]), hclosed, hms, List.append_assoc,
        List.foldl_append, foldl_take_unlines lone earlier hread.1, result_foldl_take _ _ hopen]

/-- The constructor returned: it is a matter of its options. -/
theorem accounts_iff_of_ok {lone s : Str} {o : PluginOptions} (h : ofString (some s) = .ok o) :
    Accounts lone s ↔ Says lone (segments s) o := by
  unfold Accounts
  rw [h]
  constructor
  · rintro (⟨fault, hfault⟩ | ⟨o', ho, hspec⟩)
    · exact absurd hfault (by simp)
    · exact Except.ok.inj ho ▸ hspec
  · exact fun hspec => Or.inr ⟨o, rfl, hspec⟩

/-- A last segment that is not empty changes nothing. -/
theorem saidBefore_append_iff (lone : Str) (earlier : List Segment) {last : Segment}
    (hlast : last ≠ []) :
    SaidBefore lone (earlier ++ [last])
      ↔ Says lone (earlier ++ [last]) (options lone earlier) := by
  obtain ⟨hid, hget⟩ := says_options lone earlier
  rw [says_iff_same, options_append, same_say_iff lone hlast]
  unfold SaidBefore
  rw [List.dropLast_concat, List.getLastD_concat, ← hget]
  have hflag : earlier.isEmpty = true ↔ earlier = [] := List.isEmpty_iff
  by_cases hfirst : earlier = [] ∧ Mark.plain '=' ∉ last
  · -- the id of no segments is empty
    rw [if_pos hfirst, if_pos ⟨hflag.mpr hfirst.1, hfirst.2⟩, hid, hfirst.1]
    rfl
  · rw [if_neg hfirst, if_neg fun h => hfirst ⟨hflag.mp h.1, h.2⟩]

/-- **WHAT IS ACCOUNTED FOR.**  Every segment is, unless the text ends in a
backslash that escapes nothing; then only if the last segment changes
nothing. -/
theorem accounts_iff (lone s : Str) (hs : ∀ c ∈ s, isISOControl c = false) :
    Accounts lone s ↔ (¬ EndsInBackslash s ∨ SaidBefore lone (segments s)) := by
  by_cases hend : EndsInBackslash s
  · obtain ⟨earlier, last, hsegs, hlast, hread⟩ := ofString_eq_dropped lone hs hend
    rw [accounts_iff_of_ok hread, hsegs, saidBefore_append_iff lone earlier hlast]
    exact (or_iff_right (not_not_intro hend)).symm
  · rw [accounts_iff_of_ok (ofString_eq_options lone hs hend)]
    exact iff_of_true (says_options lone _) (Or.inl hend)

/-- Escapes, the last one of a backslash; and a last segment that repeats the
one before it. -/
theorem accounts_escaped :
    Accounts [] ['a', ';', 'b', '=', '\\', ';', '\\', '\\']
      ∧ Accounts [] ['a', ';', 'b', '=', 'c', ';', 'b', '=', 'c', '\\'] :=
  ⟨(accounts_iff [] _ (any_isISOControl_iff.mp (by decide))).mpr (Or.inl (by decide)),
    (accounts_iff [] _ (any_isISOControl_iff.mp (by decide))).mpr (Or.inr (by decide))⟩

/-- **A FLAG THAT IS DROPPED.**  Of `a;b\` the id is read and the second
segment is not, whatever its backslash stands for. -/
theorem not_accounts_flag :
    (∀ c ∈ ['a', ';', 'b', '\\'], isISOControl c = false)
      ∧ ofString (some ['a', ';', 'b', '\\']) = .ok { id := ['a'] }
      ∧ ∀ lone, ¬ Accounts lone ['a', ';', 'b', '\\'] := by
  have hread : ofString (some ['a', ';', 'b', '\\']) = .ok { id := ['a'] } := by decide
  refine ⟨any_isISOControl_iff.mp (by decide), hread, fun lone h => ?_⟩
  have hsegs : segments ['a', ';', 'b', '\\'] = [[.plain 'a'], [.plain 'b', .lone]] := by decide
  rw [accounts_iff_of_ok hread, hsegs] at h
  -- the segment says that its text is a key
  have hkey := h.2 ('b' :: (lone ++ []))
  have hvalue : valueOf (entriesOf lone [[.plain 'a'], [.plain 'b', .lone]]) ('b' :: (lone ++ []))
      = some none := by
    show valueOf ([] ++ [('b' :: (lone ++ []), none)]) _ = _
    rw [valueOf_append, if_pos rfl]
  rw [hvalue] at hkey
  exact absurd hkey (by simp [LinkedMap.get])

end FoxVpn.Plugin
