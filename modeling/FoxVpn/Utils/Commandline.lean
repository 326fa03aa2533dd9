/-
  FoxVpn.Utils.Commandline
  ────────────────────────
  **COMMAND LINES: SPLITTING UNDOES QUOTING.**

  `translateCommandline` runs a machine with three states and two flags over
  the tokens of a `StringTokenizer`; `toString` escapes with a backslash.

      foldl_tokens              the machine on tokens is the one on characters
      Renders arg t             the ways to write one argument: escaped, in
                                single quotes, in double quotes
      Rendering args line       arguments in any of these ways, with spaces
                                between them
      translate_rendering       a rendering is split into its arguments
-/
import FoxVpn.Lib.Text
import FoxVpn.Plugin.PluginOptions

namespace FoxVpn

open FoxVpn.Lib

namespace Utils.Commandline

open Plugin (Str)

/-! ## §1. `translateCommandline`. -/

inductive QuoteState where
  | normal
  | inQuote
  | inDoubleQuote
  deriving Repr, DecidableEq

/-- The variables of the loop. -/
structure Loop where
  state : QuoteState := .normal
  result : List Str := []
  current : Str := []
  lastTokenHasBeenQuoted : Bool := false
  lastTokenIsSlash : Bool := false
  deriving Repr, DecidableEq

def Loop.append (s : Loop) (token : Str) : Loop := { s with current := s.current ++ token }

/-- The word ends, if there is one. -/
def Loop.word (s : Loop) : Loop :=
  if s.lastTokenHasBeenQuoted || s.current ≠ [] then
    { s with result := s.result ++ [s.current], current := [] }
  else s

/-- The body of the loop. -/
def Loop.next (s : Loop) (nextTok : Str) : Loop :=
  match s.state with
  | .inQuote =>
      if nextTok = ['\''] then { s with lastTokenHasBeenQuoted := true, state := .normal }
      else s.append nextTok
  | .inDoubleQuote =>
      if nextTok = ['"'] then
        if s.lastTokenIsSlash then { s.append nextTok with lastTokenIsSlash := false }
        else { s with lastTokenHasBeenQuoted := true, state := .normal }
      else if nextTok = ['\\'] then
        if s.lastTokenIsSlash then { s.append nextTok with lastTokenIsSlash := false }
        else { s with lastTokenIsSlash := true }
      else if s.lastTokenIsSlash then
        { (s.append ['\\']).append nextTok with lastTokenIsSlash := false }
      else s.append nextTok
  | .normal =>
      let s' :=
        if s.lastTokenIsSlash then { s.append nextTok with lastTokenIsSlash := false }
        else if nextTok = ['\\'] then { s with lastTokenIsSlash := true }
        else if nextTok = ['\''] then { s with state := .inQuote }
        else if nextTok = ['"'] then { s with state := .inDoubleQuote }
        else if nextTok = [' '] then s.word
        else s.append nextTok
      { s' with lastTokenHasBeenQuoted := false }

def isDelim (c : Char) : Bool := c == '\\' || c == '"' || c == '\'' || c == ' '

/-- `translateCommandline(toProcess)`; the error is the message of the
IllegalArgumentException. -/
def translateCommandline (toProcess : Str) : Except Str (List Str) :=
  if toProcess = [] then .ok []
  else
    let s := ((tokens isDelim toProcess).foldl Loop.next {}).word
    if s.state = .inQuote ∨ s.state = .inDoubleQuote then
      .error ("unbalanced quotes in ".toList ++ toProcess)
    else if s.lastTokenIsSlash then
      .error ("escape character following nothing in ".toList ++ toProcess)
    else .ok s.result

/-! ## §2. Which characters go through. -/

section Alphabet

variable {P : Char → Prop}

/-- Everything the loop has collected is over the alphabet `P`. -/
structure Loop.Over (P : Char → Prop) (s : Loop) : Prop where
  result : ∀ word ∈ s.result, ∀ c ∈ word, P c
  current : ∀ c ∈ s.current, P c

theorem Loop.Over.append {s : Loop} (h : s.Over P) {t : Str} (ht : ∀ c ∈ t, P c) :
    (s.append t).Over P :=
  ⟨h.result, List.forall_mem_append.mpr ⟨h.current, ht⟩⟩

theorem Loop.Over.word {s : Loop} (h : s.Over P) : s.word.Over P := by
  unfold Loop.word
  split
  · refine ⟨List.forall_mem_append.mpr ⟨h.result, ?_⟩, by simp⟩
    intro word hword
    rw [List.mem_singleton.mp hword]
    exact h.current
  · exact h

theorem Loop.Over.next {s : Loop} (h : s.Over P) (hb : P '\\') {t : Str} (ht : ∀ c ∈ t, P c) :
    (s.next t).Over P := by
  have happ := h.append ht
  have hsame : ∀ s' : Loop, s'.result = s.result → s'.current = s.current → s'.Over P :=
    fun s' hr hc => ⟨hr ▸ h.result, hc ▸ h.current⟩
  unfold Loop.next
  cases s.state with
  | inQuote =>
      show Loop.Over P (if _ then _ else _)
      split
      · exact hsame _ rfl rfl
      · exact happ
  | inDoubleQuote =>
      show Loop.Over P (if _ then _ else _)
      split
      · split
        · exact ⟨happ.result, happ.current⟩
        · exact hsame _ rfl rfl
      · split
        · split
          · exact ⟨happ.result, happ.current⟩
          · exact hsame _ rfl rfl
        · split
          · -- the backslash was no escape: it is appended after all
            have hslash : ∀ c ∈ ['\\'], P c := by simpa using hb
            have hback := (h.append hslash).append ht
            exact ⟨hback.result, hback.current⟩
          · exact happ
  | normal =>
      -- the last assignment touches no text
      suffices hs : ∀ s' : Loop, s'.Over P → Loop.Over P { s' with lastTokenHasBeenQuoted := false }
        from hs _ (by
          split
          · exact ⟨happ.result, happ.current⟩
          · split
            · exact hsame _ rfl rfl
            · split
              · exact hsame _ rfl rfl
              · split
                · exact hsame _ rfl rfl
                · split
                  · exact h.word
                  · exact happ)
      exact fun s' hs' => ⟨hs'.result, hs'.current⟩

/-- The arguments of a command line are over its alphabet. -/
theorem translateCommandline_over (hb : P '\\') {t : Str} {args : List Str}
    (ht : ∀ c ∈ t, P c) (h : translateCommandline t = .ok args) :
    ∀ arg ∈ args, ∀ c ∈ arg, P c := by
  have hloop : ∀ (ts : List Str) (s : Loop), s.Over P → (∀ tok ∈ ts, ∀ c ∈ tok, P c) →
      (ts.foldl Loop.next s).Over P := by
    intro ts
    induction ts with
    | nil => exact fun s hs _ => hs
    | cons tok ts ih =>
        intro s hs hts
        obtain ⟨htok, hrest⟩ := List.forall_mem_cons.mp hts
        exact ih _ (hs.next hb htok) hrest
  have hend := (hloop (tokens isDelim t) {} ⟨by simp, by simp⟩ fun tok htok c hc =>
    ht c (mem_of_mem_tokens isDelim htok hc)).word
  unfold translateCommandline at h
  split at h
  next =>
    injection h with h
    subst h
    simp
  next =>
    dsimp only at h
    split at h
    next => exact absurd h (by simp)
    next =>
      split at h
      next => exact absurd h (by simp)
      next =>
        injection h with h
        subst h
        exact hend.result

end Alphabet

/-! ## §3. `toString`. -/

/-- The loop over the characters of an argument. -/
def appendArg (result arg : Str) : Str :=
  arg.foldl (fun result c => if isDelim c then result ++ ['\\', c] else result ++ [c]) result

/-- One round of the loop over the arguments. -/
def appendArgs (result : Str) (arg : Str) : Str :=
  appendArg (if result ≠ [] then result ++ [' '] else result) arg

/-- `toString(args)`. -/
def toString (args : Option (List Str)) : Str :=
  match args with
  | none => []
  | some args => args.foldl appendArgs []

/-- A backslash in front of every character that `d` accepts. -/
def escape (d : Char → Bool) (arg : Str) : Str :=
  arg.flatMap fun c => if d c then ['\\', c] else [c]

theorem escape_cons (d : Char → Bool) (c : Char) (cs : Str) :
    escape d (c :: cs) = (if d c then ['\\', c] else [c]) ++ escape d cs := rfl

theorem appendArg_eq (arg : Str) :
    ∀ result, appendArg result arg = result ++ escape isDelim arg := by
  induction arg with
  | nil => exact fun result => (List.append_nil result).symm
  | cons c cs ih =>
      intro result
      show appendArg (if isDelim c then result ++ ['\\', c] else result ++ [c]) cs = _
      rw [ih, escape_cons]
      split
      · rw [List.append_assoc]
      · rw [List.append_assoc]

theorem escape_eq_nil {d : Char → Bool} {arg : Str} (h : escape d arg = []) : arg = [] := by
  cases arg with
  | nil => rfl
  | cons c cs =>
      rw [escape_cons, List.append_eq_nil_iff] at h
      split at h
      · exact absurd h.1 (by simp)
      · exact absurd h.1 (by simp)

/-! ## §4. The machine on characters. -/

namespace Loop

/-- One character is a token. -/
def step (s : Loop) (c : Char) : Loop := s.next [c]

/-- The machine on a text. -/
def run (s : Loop) (cs : Str) : Loop := cs.foldl step s

theorem run_cons (s : Loop) (c : Char) (cs : Str) : s.run (c :: cs) = (s.step c).run cs := rfl

theorem run_append (s : Loop) (cs cs' : Str) : s.run (cs ++ cs') = (s.run cs).run cs' :=
  List.foldl_append

/-- What a token does that is no delimiter. -/
def plain (s : Loop) (t : Str) : Loop :=
  match s.state with
  | .inQuote => s.append t
  | .inDoubleQuote =>
      if s.lastTokenIsSlash then { (s.append ['\\']).append t with lastTokenIsSlash := false }
      else s.append t
  | .normal => { s.append t with lastTokenIsSlash := false, lastTokenHasBeenQuoted := false }

theorem next_plain (s : Loop) {t : Str} (ht : ∀ c ∈ t, isDelim c = false) :
    s.next t = s.plain t := by
  have hne : ∀ d, isDelim d = true → t ≠ [d] := by
    intro d hd h
    have := ht d (h ▸ List.mem_singleton_self d)
    rw [hd] at this
    cases this
  have hq := hne '\'' (by decide)
  have hd := hne '"' (by decide)
  have hb := hne '\\' (by decide)
  have hs := hne ' ' (by decide)
  obtain ⟨state, result, current, quoted, slash⟩ := s
  unfold next plain
  cases state with
  | inQuote => exact if_neg hq
  | inDoubleQuote =>
      show (if _ then _ else _) = _
      rw [if_neg hd, if_neg hb]
  | normal =>
      dsimp only
      rw [if_neg hb, if_neg hq, if_neg hd, if_neg hs]
      cases slash with
      | true => rfl
      | false => rfl

/-- A word may be cut anywhere. -/
theorem plain_append (s : Loop) (t t' : Str) : s.plain (t ++ t') = (s.plain t).plain t' := by
  obtain ⟨state, result, current, quoted, slash⟩ := s
  cases state with
  | inQuote => simp [plain, append]
  | inDoubleQuote =>
      cases slash with
      | true => simp [plain, append]
      | false => simp [plain, append]
  | normal => simp [plain, append]

theorem step_plain (s : Loop) {c : Char} (hc : isDelim c = false) : s.step c = s.plain [c] :=
  s.next_plain (by simpa using hc)

/-- **Tokens are no matter**: the machine does on the tokens of a text what
it does on its characters. -/
theorem foldl_tokens (cs : Str) (s : Loop) : (tokens isDelim cs).foldl next s = s.run cs := by
  induction cs generalizing s with
  | nil => rfl
  | cons c cs ih =>
      cases hc : isDelim c with
      | true =>
          rw [tokens_of_delim isDelim hc, List.foldl_cons, ih]
          rfl
      | false =>
          rcases tokens_of_not_delim isDelim hc cs with h | ⟨t, ts, htok, ht, h⟩
          · rw [h, List.foldl_cons, ih]
            rfl
          · -- the character begins the word that follows
            have hrest := ih (s.step c)
            have hword : ∀ x ∈ c :: t, isDelim x = false := List.forall_mem_cons.mpr ⟨hc, ht⟩
            rw [htok, List.foldl_cons, next_plain _ ht, step_plain _ hc, ← plain_append] at hrest
            rw [h, List.foldl_cons, next_plain _ hword, run_cons, step_plain _ hc]
            exact hrest

/-! ## §5. Runs over the parts of a command line. -/

/-- The state between two tokens of an argument. -/
def within (r : List Str) (current : Str) (quoted : Bool) : Loop :=
  ⟨.normal, r, current, quoted, false⟩

/-- An argument has been read that the next space or the end adds. -/
def Read (r : List Str) (arg : Str) (s : Loop) : Prop :=
  ∃ quoted, s = within r arg quoted ∧ (quoted = true ∨ arg ≠ [])

theorem step_space (s : Loop) (hs : s.state = .normal) (hslash : s.lastTokenIsSlash = false) :
    s.step ' ' = { s.word with lastTokenHasBeenQuoted := false } := by
  obtain ⟨state, result, current, quoted, slash⟩ := s
  cases hs
  cases hslash
  rfl

theorem word_of_read {r : List Str} {arg : Str} {s : Loop} (h : Read r arg s) :
    s.word = { s with result := r ++ [arg], current := [] } := by
  obtain ⟨quoted, rfl, hq⟩ := h
  refine if_pos ?_
  show (quoted || decide (arg ≠ [])) = true
  rw [Bool.or_eq_true, decide_eq_true_eq]
  exact hq

/-- Spaces after an argument. -/
theorem run_spaces {r : List Str} {arg : Str} {s : Loop} (h : Read r arg s) (n : Nat) :
    s.run (List.replicate (n + 1) ' ') = within (r ++ [arg]) [] false := by
  have hfirst : s.step ' ' = within (r ++ [arg]) [] false := by
    have hword := word_of_read h
    obtain ⟨quoted, rfl, -⟩ := h
    rw [step_space _ rfl rfl, hword]
    rfl
  have hmore : ∀ k, (within (r ++ [arg]) [] false).run (List.replicate k ' ')
      = within (r ++ [arg]) [] false := by
    intro k
    induction k with
    | zero => rfl
    | succ k ih => exact ih
  rw [List.replicate_succ, run_cons, hfirst]
  exact hmore n

/-- An escaped argument. -/
theorem run_escape (r : List Str) (arg : Str) : ∀ (current : Str) (quoted : Bool),
    (within r current quoted).run (escape isDelim arg)
      = within r (current ++ arg) (quoted && arg.isEmpty) := by
  induction arg with
  | nil =>
      intro current quoted
      rw [List.append_nil, List.isEmpty_nil, Bool.and_true]
      rfl
  | cons c cs ih =>
      intro current quoted
      have hcons : current ++ c :: cs = (current ++ [c]) ++ cs := by simp
      rw [escape_cons, List.isEmpty_cons, Bool.and_false, hcons]
      have hrest := ih (current ++ [c]) false
      rw [Bool.false_and] at hrest
      cases hc : isDelim c with
      | true => exact hrest
      | false =>
          rw [if_neg Bool.false_ne_true, run_append]
          show ((within r current quoted).step c).run _ = _
          rw [step_plain _ hc]
          exact hrest

/-- The inside of single quotes. -/
theorem run_inQuote (r : List Str) (arg : Str) (quoted : Bool) : ∀ current : Str, '\'' ∉ arg →
    (⟨.inQuote, r, current, quoted, false⟩ : Loop).run arg
      = ⟨.inQuote, r, current ++ arg, quoted, false⟩ := by
  induction arg with
  | nil =>
      intro current _
      rw [List.append_nil]
      rfl
  | cons c cs ih =>
      intro current h
      rw [List.mem_cons, not_or] at h
      have hc : [c] ≠ ['\''] := fun hc => h.1 (List.cons.inj hc).1.symm
      have hcons : current ++ c :: cs = (current ++ [c]) ++ cs := by simp
      rw [run_cons, hcons, ← ih (current ++ [c]) h.2]
      show Loop.run (if [c] = ['\''] then _ else _) cs = _
      rw [if_neg hc]
      rfl

/-- The characters to escape between double quotes. -/
def isEscaped (c : Char) : Bool := c == '\\' || c == '"'

/-- The inside of double quotes. -/
theorem run_inDoubleQuote (r : List Str) (arg : Str) (quoted : Bool) : ∀ current : Str,
    (⟨.inDoubleQuote, r, current, quoted, false⟩ : Loop).run (escape isEscaped arg)
      = ⟨.inDoubleQuote, r, current ++ arg, quoted, false⟩ := by
  induction arg with
  | nil =>
      intro current
      rw [List.append_nil]
      rfl
  | cons c cs ih =>
      intro current
      have hcons : current ++ c :: cs = (current ++ [c]) ++ cs := by simp
      rw [escape_cons, hcons, ← ih (current ++ [c]), run_append]
      refine congrArg (fun s : Loop => s.run (escape isEscaped cs)) ?_
      by_cases hb : c = '\\'
      · subst hb
        rfl
      by_cases hd : c = '"'
      · subst hd
        rfl
      -- any other character goes in as it is
      have hc : isEscaped c = false := by simp [isEscaped, hb, hd]
      have hb' : [c] ≠ ['\\'] := fun h => hb (List.cons.inj h).1
      have hd' : [c] ≠ ['"'] := fun h => hd (List.cons.inj h).1
      rw [if_neg (by rw [hc]; exact Bool.false_ne_true)]
      show (if [c] = ['"'] then _ else if [c] = ['\\'] then _ else _) = _
      rw [if_neg hd', if_neg hb']
      rfl

end Loop

/-! ## §6. Renderings. -/

/-- The ways to write one argument. -/
inductive Renders : Str → Str → Prop
  | escaped {arg : Str} (h : arg ≠ []) : Renders arg (escape isDelim arg)
  | quoted {arg : Str} (h : '\'' ∉ arg) : Renders arg ('\'' :: (arg ++ ['\'']))
  | doubleQuoted (arg : Str) : Renders arg ('"' :: (escape Loop.isEscaped arg ++ ['"']))

/-- The ways to write a list of arguments, with spaces between them. -/
inductive Rendering : List Str → Str → Prop
  | nil : Rendering [] []
  | last {arg t : Str} (h : Renders arg t) : Rendering [arg] t
  | cons {arg t line : Str} {args : List Str} (h : Renders arg t) (n : Nat)
      (hrest : Rendering args line) (hne : args ≠ []) :
      Rendering (arg :: args) (t ++ (List.replicate (n + 1) ' ' ++ line))

/-- An argument is read as it was meant, whichever way it is written. -/
theorem Renders.read {arg t : Str} (h : Renders arg t) (r : List Str) :
    Loop.Read r arg ((Loop.within r [] false).run t) := by
  cases h with
  | escaped hne =>
      rw [Loop.run_escape]
      exact ⟨_, rfl, Or.inr hne⟩
  | quoted hq =>
      have hinside := Loop.run_inQuote r arg false [] hq
      refine ⟨true, ?_, Or.inl rfl⟩
      rw [Loop.run_cons, Loop.run_append]
      show ((⟨.inQuote, r, [], false, false⟩ : Loop).run arg).run _ = _
      rw [hinside]
      rfl
  | doubleQuoted =>
      have hinside := Loop.run_inDoubleQuote r arg false []
      refine ⟨true, ?_, Or.inl rfl⟩
      rw [Loop.run_cons, Loop.run_append]
      show ((⟨.inDoubleQuote, r, [], false, false⟩ : Loop).run _).run _ = _
      rw [hinside]
      rfl

/-- A rendering is read argument by argument; the end adds the last one. -/
theorem Rendering.run {args : List Str} {line : Str} (h : Rendering args line) (r : List Str) :
    ∃ quoted, ((Loop.within r [] false).run line).word = Loop.within (r ++ args) [] quoted := by
  induction h generalizing r with
  | nil =>
      rw [List.append_nil]
      exact ⟨false, rfl⟩
  | last h =>
      obtain ⟨quoted, hrun, hq⟩ := h.read r
      exact ⟨quoted, by rw [Loop.word_of_read ⟨quoted, hrun, hq⟩, hrun]; rfl⟩
  | @cons arg _ _ _ h n _ _ ih =>
      obtain ⟨quoted, hrest⟩ := ih (r ++ [arg])
      refine ⟨quoted, ?_⟩
      rw [Loop.run_append, Loop.run_append, Loop.run_spaces (h.read r), hrest, List.append_assoc]
      rfl

/-- What the machine ends with decides what is returned. -/
theorem translateCommandline_of_run {line : Str} {args : List Str} {quoted : Bool}
    (h : (Loop.run {} line).word = Loop.within args [] quoted) :
    translateCommandline line = .ok args := by
  unfold translateCommandline
  split
  next hnil =>
    subst hnil
    have hargs : ([] : List Str) = args := congrArg Loop.result h
    rw [hargs]
  next =>
    rw [Loop.foldl_tokens, h]
    rfl

/-! ## §7. What `toString` prints. -/

/-- Once something is printed, every argument has its space. -/
theorem foldl_appendArgs (args : List Str) : ∀ result : Str, result ≠ [] →
    args.foldl appendArgs result
      = result ++ args.flatMap fun arg => ' ' :: escape isDelim arg := by
  induction args with
  | nil => exact fun result _ => (List.append_nil result).symm
  | cons arg args ih =>
      intro result hne
      have hround : appendArgs result arg = result ++ ' ' :: escape isDelim arg := by
        rw [appendArgs, if_pos hne, appendArg_eq]
        simp
      rw [List.foldl_cons, hround, ih _ (by simp [hne]), List.flatMap_cons, List.append_assoc]

/-- The run over arguments with a space in front of each: empty ones are
lost, since nothing marks them. -/
theorem run_flatMap (args : List Str) : ∀ (r : List Str) (current : Str),
    ((Loop.within r current false).run
      (args.flatMap fun arg => ' ' :: escape isDelim arg)).word
      = Loop.within (r ++ (current :: args).filter (· ≠ [])) [] false := by
  have hword : ∀ (r : List Str) (current : Str), (Loop.within r current false).word
      = Loop.within (r ++ [current].filter (· ≠ [])) [] false := by
    intro r current
    cases current with
    | nil => simp [Loop.word, Loop.within]
    | cons c cs => simp [Loop.word, Loop.within]
  induction args with
  | nil => exact hword
  | cons arg args ih =>
      intro r current
      have hspace := Loop.step_space (Loop.within r current false) rfl rfl
      rw [hword] at hspace
      rw [List.flatMap_cons, List.cons_append, Loop.run_cons, hspace, Loop.run_append]
      show (((Loop.within (r ++ [current].filter (· ≠ [])) [] false).run _).run _).word = _
      rw [Loop.run_escape, Bool.false_and, List.nil_append, ih, List.append_assoc,
        ← List.filter_append]
      rfl

theorem run_toString (args : List Str) :
    (Loop.run {} (args.foldl appendArgs [])).word
      = Loop.within (args.filter (· ≠ [])) [] false := by
  induction args with
  | nil => rfl
  | cons arg args ih =>
      have hround : appendArgs [] arg = escape isDelim arg := by
        rw [appendArgs, if_neg (by simp), appendArg_eq, List.nil_append]
      rw [List.foldl_cons, hround]
      by_cases hempty : arg = []
      · -- an empty argument in front prints nothing, not even a space
        subst hempty
        rw [List.filter_cons_of_neg (by simp)]
        exact ih
      · have hescape := Loop.run_escape [] arg [] false
        rw [Bool.false_and, List.nil_append] at hescape
        rw [foldl_appendArgs args _ fun h => hempty (escape_eq_nil h), Loop.run_append]
        show (((Loop.within [] [] false).run _).run _).word = _
        rw [hescape, run_flatMap, List.nil_append]

/-! ## §8. The round trip. -/

/-- **Splitting undoes quoting**: a rendering is split into its arguments,
and what `toString` prints into those that are not empty. -/
theorem translate_rendering :
    (∀ (args : List Str) (line : Str), Rendering args line →
      translateCommandline line = .ok args)
      ∧ ∀ args : Option (List Str),
        translateCommandline (toString args) = .ok ((args.getD []).filter (· ≠ [])) := by
  constructor
  · intro args line h
    obtain ⟨quoted, hrun⟩ := h.run []
    exact translateCommandline_of_run hrun
  · intro args
    cases args with
    | none => rfl
    | some args => exact translateCommandline_of_run (run_toString args)

/-- Three arguments, in the three ways; the second one is empty. -/
theorem translate_rendering_mixed :
    translateCommandline "a\\ b ''  \"it's \\\"\"".toList
      = .ok ["a b".toList, [], "it's \"".toList] := by
  have hlast : Rendering ["it's \"".toList] _ := .last (.doubleQuoted _)
  have hquoted : Rendering [[], "it's \"".toList] _ :=
    .cons (.quoted (by simp)) 1 hlast (by simp)
  exact translate_rendering.1 _ _ (.cons (.escaped (by decide)) 0 hquoted (by simp))

end Utils.Commandline

end FoxVpn
