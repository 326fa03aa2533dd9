/-
  FoxVpn.Plugin.PluginOptions
  ───────────────────────────
  **THE OPTIONS OF ONE PLUGIN, READ AND PRINTED.**

  `PluginOptions` is a hash map from option names to values, where a value
  may be missing, and the id of the plugin.  Its text is a list of segments
  that end in `;`:

      id;key=value;flag;…        `\`, `=` and `;` are escaped by a `\`

  The reader works on the tokens of a `StringTokenizer`, the printer on
  characters; `scan_tokens` brings the reader to characters.  Main results:
  `ofString_toString` and `ofOptions_toString`, that what was printed, with
  or without the id, in whatever order the hash map is iterated, is read
  back.
-/
import Mathlib.Data.List.Perm.Basic
import FoxVpn.Lib.LinkedMap
import FoxVpn.Lib.Result
import FoxVpn.Lib.Text
import FoxVpn.Utils.Fault

namespace FoxVpn.Plugin

open FoxVpn.Lib

abbrev Str := List Char

/-- `Char.isISOControl`. -/
def isISOControl (c : Char) : Bool :=
  decide (c.toNat ≤ 0x1F) || (decide (0x7F ≤ c.toNat) && decide (c.toNat ≤ 0x9F))

/-- `PluginOptions`: the entries of the hash map as they were inserted, and
the id. -/
structure PluginOptions extends LinkedMap Str (Option Str) where
  id : Str := []
  deriving DecidableEq

namespace PluginOptions

/-! ## §1. The reader. -/

/-- The delimiters `\`, `=` and `;`. -/
def isDelim (c : Char) : Bool := c == '\\' || c == '=' || c == ';'

/-- The variables of the constructor's loop. -/
structure Scan where
  parseId : Bool
  result : PluginOptions := {}
  current : Str := []
  key : Option Str := none

namespace Scan

def append (s : Scan) (token : Str) : Scan := { s with current := s.current ++ token }

/-- The branch of the token `=`. -/
def equals (s : Scan) : Scan :=
  match s.key with
  | none => { s with key := some s.current, current := [] }
  | some _ => s.append ['=']

/-- The branch of the token `;`. -/
def semicolon (s : Scan) : Scan :=
  match s.key with
  | some key =>
      { s with
        result := { s.result with toLinkedMap := s.result.put key (some s.current) }
        key := none
        current := []
        parseId := false }
  | none =>
      if s.current = [] then { s with parseId := false }
      else if s.parseId then
        { s with result := { s.result with id := s.current }, current := [], parseId := false }
      else
        { s with
          result := { s.result with toLinkedMap := s.result.put s.current none }
          current := []
          parseId := false }

end Scan

/-- The loop over the tokens. -/
def scan (s : Scan) : List Str → Except Fault Scan
  | [] => .ok s
  | token :: rest =>
      if token = ['\\'] then
        match rest with
        | [] => .error .noSuchElement
        | next :: rest => scan (s.append next) rest
      else if token = ['='] then scan s.equals rest
      else if token = [';'] then scan s.semicolon rest
      else scan (s.append token) rest

/-- The private constructor. -/
def ofText (options : Option Str) (parseId : Bool) : Except Fault PluginOptions :=
  match options with
  | none => .ok {}
  | some options =>
      if options = [] then .ok {}
      else if options.any isISOControl then
        .error (.illegalState "No control characters allowed.")
      else
        (scan { parseId := parseId } (tokens isDelim (options ++ [';']))).map Scan.result

/-- `PluginOptions(options)`. -/
def ofString (options : Option Str) : Except Fault PluginOptions := ofText options true

/-- `PluginOptions(id, options)`. -/
def ofOptions (id : Str) (options : Option Str) : Except Fault PluginOptions :=
  (ofText options false).map fun o => { o with id := id }

/-! ## §2. The printer. -/

/-- The order in which a `HashMap` is iterated, which its contract leaves
open. -/
structure HashOrder where
  arrange : List (Str × Option Str) → List (Str × Option Str)
  perm : ∀ entries, (arrange entries).Perm entries

/-- `append(result, str)`. -/
def append (result str : Str) : Str :=
  str.foldl (fun result c => if isDelim c then result ++ ['\\', c] else result ++ [c]) result

/-- One round of the loop of `toString`. -/
def appendEntry (result : Str) (entry : Str × Option Str) : Str :=
  let result := append (if result ≠ [] then result ++ [';'] else result) entry.1
  match entry.2 with
  | none => result
  | some value => append (result ++ ['=']) value

/-- `toString(trimId)`. -/
def toString (H : HashOrder) (o : PluginOptions) (trimId : Bool) : Str :=
  if trimId then (H.arrange o.entries).foldl appendEntry []
  else if o.id = [] then []
  else (H.arrange o.entries).foldl appendEntry (append [] o.id)

/-! ## §3. The reader on characters. -/

/-- The loop, one character at a time. -/
def scanChars (s : Scan) : Str → Except Fault Scan
  | [] => .ok s
  | c :: cs =>
      if c = '\\' then
        match cs with
        | [] => .error .noSuchElement
        | c :: cs => scanChars (s.append [c]) cs
      else if c = '=' then scanChars s.equals cs
      else if c = ';' then scanChars s.semicolon cs
      else scanChars (s.append [c]) cs

theorem append_append (s : Scan) (t u : Str) : (s.append t).append u = s.append (t ++ u) := by
  simp [Scan.append]

theorem scan_backslash (s : Scan) (next : Str) (rest : List Str) :
    scan s (['\\'] :: next :: rest) = scan (s.append next) rest := by
  rw [scan, if_pos rfl]

/-- Any other token. -/
theorem scan_token (s : Scan) {token : Str} (h : token ≠ ['\\']) (rest : List Str) :
    scan s (token :: rest)
      = if token = ['='] then scan s.equals rest
        else if token = [';'] then scan s.semicolon rest
        else scan (s.append token) rest := by
  rw [scan.eq_def]
  exact if_neg h

theorem scanChars_backslash (s : Scan) (c : Char) (cs : Str) :
    scanChars s ('\\' :: c :: cs) = scanChars (s.append [c]) cs := by
  rw [scanChars, if_pos rfl]

/-- Any other character. -/
theorem scanChars_char (s : Scan) {c : Char} (h : c ≠ '\\') (cs : Str) :
    scanChars s (c :: cs)
      = if c = '=' then scanChars s.equals cs
        else if c = ';' then scanChars s.semicolon cs
        else scanChars (s.append [c]) cs := by
  rw [scanChars.eq_def]
  exact if_neg h

/-- A token with no delimiter is appended. -/
theorem scan_word (s : Scan) {t : Str} (ht : ∀ c ∈ t, isDelim c = false) (rest : List Str) :
    scan s (t :: rest) = scan (s.append t) rest := by
  have hne : ∀ c, isDelim c = true → t ≠ [c] := by
    intro c hc h
    have hno := ht c (h ▸ List.mem_singleton_self c)
    rw [hc] at hno
    exact Bool.noConfusion hno
  rw [scan_token s (hne '\\' rfl), if_neg (hne '=' rfl), if_neg (hne ';' rfl)]

/-- A character that is no delimiter is appended, whether it stands alone
or begins a longer word. -/
theorem scan_char (s : Scan) {c : Char} (hc : isDelim c = false) (cs : Str) :
    scan s (tokens isDelim (c :: cs)) = scan (s.append [c]) (tokens isDelim cs) := by
  have hone : ∀ x ∈ [c], isDelim x = false := fun x hx => List.mem_singleton.mp hx ▸ hc
  rcases tokens_of_not_delim isDelim hc cs with h | ⟨t, ts, htok, ht, h⟩
  · rw [h, scan_word s hone]
  · rw [h, htok, scan_word _ ht, append_append, scan_word s]
    · rfl
    · intro x hx
      rcases List.mem_cons.mp hx with rfl | hx
      · exact hc
      · exact ht x hx

/-- Behind a backslash the next token begins with the next character, which
is taken as it is. -/
theorem scan_escaped (s : Scan) (c : Char) (cs : Str) :
    scan s (['\\'] :: tokens isDelim (c :: cs)) = scan (s.append [c]) (tokens isDelim cs) := by
  by_cases hc : isDelim c = true
  · rw [tokens_of_delim isDelim hc, scan_backslash]
  · rw [Bool.not_eq_true] at hc
    rcases tokens_of_not_delim isDelim hc cs with h | ⟨t, ts, htok, ht, h⟩
    · rw [h, scan_backslash]
    · rw [h, htok, scan_word _ ht, append_append, scan_backslash]
      rfl

/-- **The tokenizer does not matter**: the loop over the tokens of a text is
the loop over its characters. -/
theorem scan_tokens : ∀ (cs : Str) (s : Scan), scan s (tokens isDelim cs) = scanChars s cs
  | [], s => rfl
  | c :: cs, s => by
      by_cases hb : c = '\\'
      · subst hb
        cases cs with
        | nil => rfl
        | cons c cs =>
            rw [tokens_of_delim isDelim (rfl : isDelim '\\' = true), scan_escaped,
              scanChars_backslash]
            exact scan_tokens cs _
      · rw [scanChars_char s hb]
        by_cases hc : isDelim c = true
        · have hb' : [c] ≠ ['\\'] := fun h => hb (List.head_eq_of_cons_eq h)
          rw [tokens_of_delim isDelim hc, scan_token s hb', scan_tokens cs, scan_tokens cs,
            scan_tokens cs]
          simp only [List.cons.injEq, and_true]
        · rw [Bool.not_eq_true] at hc
          have heq : c ≠ '=' := by
            rintro rfl
            exact Bool.noConfusion hc
          have hsc : c ≠ ';' := by
            rintro rfl
            exact Bool.noConfusion hc
          rw [scan_char s hc, if_neg heq, if_neg hsc]
          exact scan_tokens cs _

/-! ## §4. What was printed is read back. -/

/-- A text as `append` writes it. -/
def escape (str : Str) : Str := str.flatMap fun c => if isDelim c then ['\\', c] else [c]

theorem escape_cons (c : Char) (cs : Str) :
    escape (c :: cs) = (if isDelim c then ['\\', c] else [c]) ++ escape cs :=
  List.flatMap_cons

theorem append_eq (str : Str) : ∀ result, append result str = result ++ escape str := by
  induction str with
  | nil => exact fun result => (List.append_nil result).symm
  | cons c cs ih =>
      intro result
      show append (if isDelim c then result ++ ['\\', c] else result ++ [c]) cs = _
      rw [ih, escape_cons, ← List.append_assoc]
      split <;> rfl

theorem escape_eq_nil {str : Str} (h : escape str = []) : str = [] := by
  cases str with
  | nil => rfl
  | cons c cs =>
      rw [escape_cons, List.append_eq_nil_iff] at h
      exact absurd h.1 (by split <;> simp)

/-- An escaped text is appended whole, whatever follows. -/
theorem scanChars_escape (rest : Str) : ∀ (str : Str) (s : Scan),
    scanChars s (escape str ++ rest) = scanChars (s.append str) rest
  | [], s => by simp [escape, Scan.append]
  | c :: cs, s => by
      have happend : (s.append [c]).append cs = s.append (c :: cs) := append_append s [c] cs
      rw [escape_cons, List.append_assoc, ← happend, ← scanChars_escape rest cs]
      by_cases hc : isDelim c = true
      · rw [if_pos hc]
        exact scanChars_backslash s c _
      · rw [if_neg hc]
        -- no delimiter is neither of the three
        have hne : c ≠ '\\' ∧ c ≠ '=' ∧ c ≠ ';' := by
          refine ⟨?_, ?_, ?_⟩ <;> (rintro rfl; exact hc rfl)
        show scanChars s (c :: (escape cs ++ rest)) = _
        rw [scanChars_char s hne.1, if_neg hne.2.1, if_neg hne.2.2]

/-- An entry as the loop of `toString` writes it. -/
def segment (e : Str × Option Str) : Str :=
  escape e.1 ++ (match e.2 with
    | none => []
    | some value => '=' :: escape value)

theorem appendEntry_eq (result : Str) (e : Str × Option Str) :
    appendEntry result e = (if result ≠ [] then result ++ [';'] else result) ++ segment e := by
  unfold appendEntry segment
  cases e.2 with
  | none => rw [append_eq, List.append_nil]
  | some value =>
      show append (append _ e.1 ++ ['=']) value = _
      rw [append_eq, append_eq]
      simp only [List.append_assoc, List.singleton_append]

/-- An entry the reader can tell from no entry: it has a name or a value. -/
def Readable (e : Str × Option Str) : Prop := e.1 ≠ [] ∨ e.2 ≠ none

theorem segment_ne_nil {e : Str × Option Str} (h : Readable e) : segment e ≠ [] := by
  intro hnil
  rw [segment, List.append_eq_nil_iff] at hnil
  rcases h with h | h
  · exact h (escape_eq_nil hnil.1)
  · cases hv : e.2 with
    | none => exact h hv
    | some value =>
        rw [hv] at hnil
        exact absurd hnil.2 (List.cons_ne_nil _ _)

/-- Behind something, the entries are written with a `;` in front. -/
theorem foldl_appendEntry : ∀ (es : List (Str × Option Str)) (result : Str), result ≠ [] →
    es.foldl appendEntry result = result ++ es.flatMap fun e => ';' :: segment e
  | [], result, _ => (List.append_nil result).symm
  | e :: es, result, h => by
      have hne : appendEntry result e ≠ [] := by
        rw [appendEntry_eq, if_pos h]
        simp
      rw [List.foldl_cons, foldl_appendEntry es _ hne, appendEntry_eq, if_pos h,
        List.flatMap_cons]
      simp only [List.append_assoc, List.cons_append, List.nil_append]

/-- At the beginning, the first one is written without. -/
theorem foldl_appendEntry_nil {e : Str × Option Str} (hr : Readable e)
    (es : List (Str × Option Str)) :
    (e :: es).foldl appendEntry [] = segment e ++ es.flatMap fun e => ';' :: segment e := by
  have hfirst : appendEntry [] e = segment e := by
    rw [appendEntry_eq, if_neg (not_not_intro rfl), List.nil_append]
  rw [List.foldl_cons, hfirst, foldl_appendEntry es _ (segment_ne_nil hr)]

/-- The `;` the reader adds closes the last segment. -/
theorem flatMap_segment_append : ∀ es : List (Str × Option Str),
    (es.flatMap fun e => ';' :: segment e) ++ [';']
      = ';' :: es.flatMap fun e => segment e ++ [';']
  | [] => rfl
  | e :: es => by
      rw [List.flatMap_cons, List.append_assoc, flatMap_segment_append es, List.flatMap_cons]
      simp only [List.cons_append, List.append_assoc, List.nil_append]

/-- One entry is read. -/
theorem scanChars_segment (o : PluginOptions) {e : Str × Option Str} (h : Readable e)
    (rest : Str) :
    scanChars { parseId := false, result := o } (segment e ++ ';' :: rest)
      = scanChars { parseId := false
                    result := { o with toLinkedMap := o.put e.1 e.2 } } rest := by
  rw [segment, List.append_assoc, scanChars_escape]
  cases hv : e.2 with
  | none =>
      have hkey : e.1 ≠ [] := h.resolve_right (not_not_intro hv)
      rw [List.nil_append, scanChars_char _ (by decide), if_neg (by decide), if_pos rfl]
      simp [Scan.append, Scan.semicolon, hkey]
  | some value =>
      rw [List.cons_append, scanChars_char _ (by decide), if_pos rfl, scanChars_escape,
        scanChars_char _ (by decide), if_neg (by decide), if_pos rfl]
      simp [Scan.append, Scan.equals, Scan.semicolon]

/-- All entries are read, by induction on them. -/
theorem scanChars_segments : ∀ (es : List (Str × Option Str)) (o : PluginOptions),
    (∀ e ∈ es, Readable e) →
    scanChars { parseId := false, result := o } (es.flatMap fun e => segment e ++ [';'])
      = .ok { parseId := false, result := { o with toLinkedMap := o.putAll es } }
  | [], o, _ => rfl
  | e :: es, o, h => by
      rw [List.flatMap_cons, List.append_assoc, List.singleton_append,
        scanChars_segment o (h e List.mem_cons_self),
        scanChars_segments es _ fun e' he' => h e' (List.mem_cons_of_mem _ he')]
      rfl

/-- The id is read. -/
theorem scanChars_id {id : Str} (hid : id ≠ []) (rest : Str) :
    scanChars { parseId := true } (escape id ++ ';' :: rest)
      = scanChars { parseId := false, result := { id := id } } rest := by
  rw [scanChars_escape, scanChars_char _ (by decide), if_neg (by decide), if_pos rfl]
  simp [Scan.append, Scan.semicolon, hid]

theorem ofText_eq {t : Str} (hne : t ≠ []) (hc : t.any isISOControl = false) (parseId : Bool) :
    ofText (some t) parseId
      = (scanChars { parseId := parseId } (t ++ [';'])).map Scan.result := by
  show (if t = [] then _ else if t.any isISOControl then _ else _) = _
  rw [if_neg hne, hc, if_neg Bool.false_ne_true, scan_tokens]

/-- A text with a control character is not read. -/
theorem any_of_ofText {t : Str} {parseId : Bool} {o : PluginOptions}
    (h : ofText (some t) parseId = .ok o) : t.any isISOControl = false := by
  by_contra hc
  rw [Bool.not_eq_false] at hc
  have hne : t ≠ [] := by
    rintro rfl
    exact Bool.noConfusion hc
  have hrefused : ofText (some t) parseId
      = .error (.illegalState "No control characters allowed.") := by
    show (if _ then _ else _) = _
    rw [if_neg hne, if_pos hc]
  exact absurd (hrefused.symm.trans h) (by simp)

theorem any_isISOControl_iff {t : Str} :
    t.any isISOControl = false ↔ ∀ c ∈ t, isISOControl c = false := by
  rw [List.any_eq_false]
  exact forall₂_congr fun c _ => Bool.not_eq_true _ ▸ Iff.rfl

/-- The options with the entries in another order. -/
def rearranged (H : HashOrder) (o : PluginOptions) : PluginOptions :=
  { toLinkedMap := LinkedMap.ofList (H.arrange o.entries), id := o.id }

/-- `equals` of two `PluginOptions`. -/
def Same (o o' : PluginOptions) : Prop := o.id = o'.id ∧ ∀ k, o.get k = o'.get k

theorem rearranged_same (H : HashOrder) (o : PluginOptions) : (rearranged H o).Same o :=
  ⟨rfl, LinkedMap.get_ofList_of_perm (H.perm o.entries)⟩

/-- The printed options, with the id. -/
theorem toString_eq (H : HashOrder) {o : PluginOptions} (hid : o.id ≠ []) :
    o.toString H false
      = escape o.id ++ (H.arrange o.entries).flatMap fun e => ';' :: segment e := by
  have hesc : escape o.id ≠ [] := fun h => hid (escape_eq_nil h)
  rw [toString, if_neg Bool.false_ne_true, if_neg hid, append_eq, List.nil_append,
    foldl_appendEntry _ _ hesc]

section RoundTrip

variable (H : HashOrder) {o : PluginOptions} (hr : ∀ e ∈ o.entries, Readable e)

include hr

theorem arrange_readable : ∀ e ∈ H.arrange o.entries, Readable e :=
  fun e he => hr e ((H.perm o.entries).mem_iff.mp he)

/-- **With the id**: the printed options, if they pass the check for control
characters, are read back. -/
theorem ofString_toString (hid : o.id ≠ [])
    (hc : (o.toString H false).any isISOControl = false) :
    ofString (some (o.toString H false)) = .ok (rearranged H o) := by
  have hprint := toString_eq H hid
  have hne : o.toString H false ≠ [] := by
    rw [hprint]
    exact List.append_ne_nil_of_left_ne_nil (fun h => hid (escape_eq_nil h)) _
  rw [ofString, ofText_eq hne hc, hprint, List.append_assoc, flatMap_segment_append,
    scanChars_id hid, scanChars_segments _ _ (arrange_readable H hr)]
  rfl

/-- **Without the id**, which is given apart. -/
theorem ofOptions_toString (hc : (o.toString H true).any isISOControl = false) :
    ofOptions o.id (some (o.toString H true)) = .ok (rearranged H o) := by
  have hprint : o.toString H true = (H.arrange o.entries).foldl appendEntry [] := if_pos rfl
  have hall := arrange_readable H hr
  unfold rearranged
  cases hes : H.arrange o.entries with
  | nil =>
      rw [hprint, hes]
      rfl
  | cons e es =>
      rw [hes] at hprint hall
      have hfirst := hall e List.mem_cons_self
      rw [foldl_appendEntry_nil hfirst] at hprint
      have hne : o.toString H true ≠ [] := by
        rw [hprint]
        exact List.append_ne_nil_of_left_ne_nil (segment_ne_nil hfirst) _
      have hlong : o.toString H true ++ [';'] = (e :: es).flatMap fun e => segment e ++ [';'] := by
        rw [hprint, List.append_assoc, flatMap_segment_append, List.flatMap_cons,
          List.append_assoc, List.singleton_append]
      rw [ofOptions, ofText_eq hne hc, hlong, scanChars_segments _ _ hall]
      rfl

end RoundTrip

/-! ## §5. Which characters go through. -/

section Alphabet

variable (P : Char → Prop)

/-- An entry over the alphabet `P`. -/
def EntryOver (e : Str × Option Str) : Prop :=
  (∀ c ∈ e.1, P c) ∧ ∀ value, e.2 = some value → ∀ c ∈ value, P c

/-- Options over the alphabet `P`. -/
structure Over (o : PluginOptions) : Prop where
  id : ∀ c ∈ o.id, P c
  entries : ∀ e ∈ o.entries, EntryOver P e

variable {P}

theorem forall_escape (hb : P '\\') (str : Str) : (∀ c ∈ escape str, P c) ↔ ∀ c ∈ str, P c := by
  induction str with
  | nil => exact Iff.rfl
  | cons c cs ih =>
      rw [escape_cons, List.forall_mem_append, ih, List.forall_mem_cons]
      refine and_congr_left fun _ => ?_
      split <;> simp [hb]

theorem forall_segment (hb : P '\\') (he : P '=') (e : Str × Option Str) :
    (∀ c ∈ segment e, P c) ↔ EntryOver P e := by
  rw [segment, List.forall_mem_append, forall_escape hb, EntryOver]
  refine and_congr_right fun _ => ?_
  cases e.2 with
  | none => simp
  | some value =>
      rw [List.forall_mem_cons, forall_escape hb]
      simp [he]

theorem forall_foldl_appendEntry (hb : P '\\') (he : P '=') (hs : P ';') :
    ∀ (es : List (Str × Option Str)) (result : Str),
      (∀ c ∈ es.foldl appendEntry result, P c)
        ↔ (∀ c ∈ result, P c) ∧ ∀ e ∈ es, EntryOver P e
  | [], result => by simp
  | e :: es, result => by
      rw [List.foldl_cons, forall_foldl_appendEntry hb he hs es, appendEntry_eq,
        List.forall_mem_append, forall_segment hb he, List.forall_mem_cons, and_assoc]
      refine and_congr_left fun _ => ?_
      split
      · rw [List.forall_mem_append]
        simp [hs]
      · exact Iff.rfl

/-- **Printing keeps the alphabet**, up to the three special characters. -/
theorem forall_toString (hb : P '\\') (he : P '=') (hs : P ';') (H : HashOrder)
    {o : PluginOptions} (hid : o.id ≠ []) : (∀ c ∈ o.toString H false, P c) ↔ o.Over P := by
  rw [toString, if_neg Bool.false_ne_true, if_neg hid, forall_foldl_appendEntry hb he hs,
    append_eq, List.nil_append, forall_escape hb]
  have hmem : (∀ e ∈ H.arrange o.entries, EntryOver P e) ↔ ∀ e ∈ o.entries, EntryOver P e :=
    forall_congr' fun e => imp_congr_left (H.perm o.entries).mem_iff
  rw [hmem]
  exact ⟨fun h => ⟨h.1, h.2⟩, fun h => ⟨h.id, h.entries⟩⟩

/-- What the loop of the reader keeps. -/
structure ScanOver (P : Char → Prop) (s : Scan) : Prop where
  result : s.result.Over P
  readable : ∀ e ∈ s.result.entries, Readable e
  current : ∀ c ∈ s.current, P c
  key : ∀ key, s.key = some key → ∀ c ∈ key, P c

theorem ScanOver.append {s : Scan} (h : ScanOver P s) {t : Str} (ht : ∀ c ∈ t, P c) :
    ScanOver P (s.append t) :=
  ⟨h.result, h.readable, List.forall_mem_append.mpr ⟨h.current, ht⟩, h.key⟩

theorem ScanOver.equals {s : Scan} (h : ScanOver P s) (he : P '=') : ScanOver P s.equals := by
  unfold Scan.equals
  cases hk : s.key with
  | none =>
      refine ⟨h.result, h.readable, by simp, fun key hkey => ?_⟩
      obtain rfl := Option.some.inj hkey
      exact h.current
  | some key => exact h.append (by simpa using he)

/-- A new entry keeps them, if it is readable and over the alphabet. -/
theorem ScanOver.put {s : Scan} (h : ScanOver P s) {k : Str} {v : Option Str}
    (hr : Readable (k, v)) (ho : EntryOver P (k, v)) (parseId : Bool) :
    ScanOver P { parseId := parseId
                 result := { s.result with toLinkedMap := s.result.put k v } } := by
  refine ⟨⟨h.result.id, fun e he => ?_⟩, fun e he => ?_, by simp, by simp⟩
  · rcases LinkedMap.mem_put he with rfl | he
    · exact ho
    · exact h.result.entries e he
  · rcases LinkedMap.mem_put he with rfl | he
    · exact hr
    · exact h.readable e he

theorem ScanOver.semicolon {s : Scan} (h : ScanOver P s) : ScanOver P s.semicolon := by
  unfold Scan.semicolon
  cases hk : s.key with
  | some key =>
      refine h.put (Or.inr (by simp)) ⟨h.key key hk, fun value hv => ?_⟩ false
      obtain rfl := Option.some.inj hv
      exact h.current
  | none =>
      by_cases hc : s.current = []
      · rw [if_pos hc]
        exact ⟨h.result, h.readable, h.current, by simp⟩
      · rw [if_neg hc]
        by_cases hp : s.parseId = true
        · rw [if_pos hp]
          exact ⟨⟨h.current, h.result.entries⟩, h.readable, by simp, by simp⟩
        · rw [if_neg hp]
          exact h.put (Or.inl hc) ⟨h.current, by simp⟩ false

/-- The whole loop keeps them, by induction on the text. -/
theorem ScanOver.scanChars (he : P '=') : ∀ (t : Str) {s s' : Scan}, ScanOver P s →
    (∀ c ∈ t, P c) → scanChars s t = .ok s' → ScanOver P s'
  | [], s, s', h, _, hrun => by
      injection hrun with hrun
      exact hrun ▸ h
  | c :: cs, s, s', h, ht, hrun => by
      obtain ⟨hc, hcs⟩ := List.forall_mem_cons.mp ht
      by_cases hb : c = '\\'
      · subst hb
        cases cs with
        | nil => exact absurd hrun (by simp [PluginOptions.scanChars])
        | cons d ds =>
            obtain ⟨hd, hds⟩ := List.forall_mem_cons.mp hcs
            rw [scanChars_backslash] at hrun
            exact ScanOver.scanChars he ds (h.append (by simpa using hd)) hds hrun
      · rw [scanChars_char s hb] at hrun
        split at hrun
        next => exact ScanOver.scanChars he cs (h.equals he) hcs hrun
        next =>
          split at hrun
          next => exact ScanOver.scanChars he cs h.semicolon hcs hrun
          next => exact ScanOver.scanChars he cs (h.append (by simpa using hc)) hcs hrun

/-- **What was read** is over the alphabet of the text, its entries are
readable, and no control character got in. -/
theorem ofText_over (he : P '=') (hs : P ';') {t : Str} {parseId : Bool} {o : PluginOptions}
    (ht : ∀ c ∈ t, P c) (h : ofText (some t) parseId = .ok o) :
    o.Over (fun c => P c ∧ isISOControl c = false) ∧ ∀ e ∈ o.entries, Readable e := by
  by_cases hne : t = []
  · subst hne
    injection h with h
    subst h
    exact ⟨⟨by simp, by simp⟩, by simp⟩
  have hc := any_of_ofText h
  rw [ofText_eq hne hc] at h
  obtain ⟨s, hrun, rfl⟩ := map_eq_ok.mp h
  have hstart : ScanOver (fun c => P c ∧ isISOControl c = false) { parseId := parseId } :=
    ⟨⟨by simp, by simp⟩, by simp, by simp, by simp⟩
  have hchars : ∀ c ∈ t ++ [';'], P c ∧ isISOControl c = false := by
    refine List.forall_mem_append.mpr ⟨fun c hmem => ⟨ht c hmem, ?_⟩, ?_⟩
    · exact any_isISOControl_iff.mp hc c hmem
    · simpa using ⟨hs, by decide⟩
  have hend := hstart.scanChars ⟨he, by decide⟩ _ hchars hrun
  exact ⟨hend.result, hend.readable⟩

end Alphabet

/-! ## §6. The round trip, both ways. -/

/-- No control character, and no entry that prints as nothing. -/
structure Printable (o : PluginOptions) : Prop where
  alphabet : o.Over fun c => isISOControl c = false
  readable : ∀ e ∈ o.entries, Readable e

/-- Printable options pass the check for control characters. -/
theorem Printable.any_toString {o : PluginOptions} (h : o.Printable) (H : HashOrder) :
    (o.toString H true).any isISOControl = false
      ∧ (o.id ≠ [] → (o.toString H false).any isISOControl = false) := by
  have hentries : ∀ e ∈ H.arrange o.entries, EntryOver (fun c => isISOControl c = false) e :=
    fun e he => h.alphabet.entries e ((H.perm o.entries).mem_iff.mp he)
  have hall := forall_foldl_appendEntry (P := fun c => isISOControl c = false)
    (by decide) (by decide) (by decide) (H.arrange o.entries) []
  constructor
  · exact any_isISOControl_iff.mpr (hall.mpr ⟨by simp, hentries⟩)
  · intro hid
    have hchars := forall_toString (P := fun c => isISOControl c = false)
      (by decide) (by decide) (by decide) H hid
    exact any_isISOControl_iff.mpr (hchars.mpr h.alphabet)

/-- What is read from one string is printable. -/
theorem printable_of_ofString {t : Option Str} {o : PluginOptions} (h : ofString t = .ok o) :
    o.Printable := by
  cases t with
  | none =>
      injection h with h
      subst h
      exact ⟨⟨by simp, by simp⟩, by simp⟩
  | some t =>
      obtain ⟨hover, hreadable⟩ := ofText_over (P := fun _ => True) trivial trivial
        (fun _ _ => trivial) h
      refine ⟨⟨fun c hc => (hover.id c hc).2, fun e he => ?_⟩, hreadable⟩
      obtain ⟨hkey, hvalue⟩ := hover.entries e he
      exact ⟨fun c hc => (hkey c hc).2, fun v hv c hc => (hvalue v hv c hc).2⟩

/-- **Printing and reading**: printable options come back from either form in
any order of iteration, and whatever a string is read as is printable. -/
theorem read_print :
    (∀ (H : HashOrder) (o : PluginOptions), o.Printable →
      (∃ o', ofOptions o.id (some (o.toString H true)) = .ok o' ∧ o'.Same o)
        ∧ (o.id ≠ [] → ∃ o', ofString (some (o.toString H false)) = .ok o' ∧ o'.Same o))
      ∧ ∀ (options : Option Str) (o : PluginOptions), ofString options = .ok o → o.Printable := by
  refine ⟨fun H o h => ⟨?_, fun hid => ?_⟩, fun options o => printable_of_ofString⟩
  · exact ⟨_, ofOptions_toString H h.readable (h.any_toString H).1, rearranged_same H o⟩
  · exact ⟨_, ofString_toString H h.readable hid ((h.any_toString H).2 hid), rearranged_same H o⟩

/-- An id and a key of special characters, a value that is null and one that
is empty. -/
def special : PluginOptions where
  entries := [(['\\', ';', '='], none), ([], some [])]
  nodup := by decide
  id := ['=', '\\', ';', '\\']

/-- It is printed from the last entry to the first. -/
theorem read_print_special :
    (∃ o', ofOptions special.id (some (special.toString
        ⟨List.reverse, List.reverse_perm⟩ true)) = .ok o' ∧ o'.Same special)
      ∧ ∃ o', ofString (some (special.toString
        ⟨List.reverse, List.reverse_perm⟩ false)) = .ok o' ∧ o'.Same special := by
  have hprintable : special.Printable := by
    refine ⟨⟨any_isISOControl_iff.mp (by decide), ?_⟩, ?_⟩
    · refine List.forall_mem_cons.mpr ⟨⟨any_isISOControl_iff.mp (by decide), by simp⟩, ?_⟩
      exact List.forall_mem_singleton.mpr ⟨by simp, by simp⟩
    · refine List.forall_mem_cons.mpr ⟨Or.inl (by simp), List.forall_mem_singleton.mpr ?_⟩
      exact Or.inr (by simp)
  obtain ⟨htrimmed, hwhole⟩ := read_print.1 ⟨List.reverse, List.reverse_perm⟩ special hprintable
  exact ⟨htrimmed, hwhole (by decide)⟩

end PluginOptions

end FoxVpn.Plugin
