/-
  FoxVpn.Lib.Text
  ───────────────
  **LINES, FIRST SEPARATORS, TRIMMED TEXT AND TOKENS.**

  Text is a list over any alphabet.  Ways to cut it:

      lines       at LF, CR and CR LF, the last line may lack its end
      splitFirst  at the first occurrence of a separator
      trim        what a predicate accepts, at both ends
      tokens      at delimiters, which are tokens themselves
      runs        where a class of characters ends

  Each comes with what its results cannot contain and with the texts it
  gives back unchanged, which is what a printer needs to know about its
  reader.
-/
import Mathlib.Data.List.DropRight
import Mathlib.Data.List.Basic

namespace FoxVpn.Lib

variable {α : Type*}

/-! ## §1. Lines. -/

section Lines

variable [DecidableEq α]

/-- A character at the front of the line that follows. -/
def consLine (c : α) : List (List α) → List (List α)
  | [] => [[c]]
  | l :: ls => (c :: l) :: ls

/-- The lines of the rest of a text; `skip` after a CR, whose LF is part of
the same end of line. -/
def linesFrom (lf cr : α) : Bool → List α → List (List α)
  | _, [] => []
  | skip, c :: cs =>
      if c = lf then
        if skip then linesFrom lf cr false cs else [] :: linesFrom lf cr false cs
      else if c = cr then [] :: linesFrom lf cr true cs
      else consLine c (linesFrom lf cr false cs)

/-- The lines of a text, as a buffered reader returns them. -/
def lines (lf cr : α) (t : List α) : List (List α) := linesFrom lf cr false t

/-- Every line with its end. -/
def unlines (lf : α) (ls : List (List α)) : List α := ls.flatMap (· ++ [lf])

omit [DecidableEq α] in
theorem unlines_cons (lf : α) (l : List α) (ls : List (List α)) :
    unlines lf (l :: ls) = l ++ lf :: unlines lf ls := by
  simp [unlines]

omit [DecidableEq α] in
theorem unlines_append (lf : α) (ls ls' : List (List α)) :
    unlines lf (ls ++ ls') = unlines lf ls ++ unlines lf ls' := List.flatMap_append

omit [DecidableEq α] in
/-- Joined with LF and closed by one, a list that is not empty. -/
theorem intercalate_append (lf : α) : ∀ (ls : List (List α)), ls ≠ [] →
    [lf].intercalate ls ++ [lf] = unlines lf ls
  | [], h => absurd rfl h
  | [l], _ => by simp [unlines]
  | l :: l' :: ls, _ => by
      rw [List.intercalate_cons_cons, unlines_cons, ← intercalate_append lf (l' :: ls) (by simp)]
      simp

/-- A line without LF and CR is read up to its end. -/
theorem lines_append (lf cr : α) : ∀ (l rest : List α), lf ∉ l → cr ∉ l →
    lines lf cr (l ++ lf :: rest) = l :: lines lf cr rest
  | [], rest, _, _ => by simp [lines, linesFrom]
  | c :: l, rest, hlf, hcr => by
      rw [List.mem_cons, not_or] at hlf hcr
      have ih := lines_append lf cr l rest hlf.2 hcr.2
      unfold lines at ih ⊢
      rw [List.cons_append, linesFrom, if_neg (Ne.symm hlf.1), if_neg (Ne.symm hcr.1), ih]
      rfl

/-- **The lines of a printed text** are what was printed. -/
theorem lines_unlines (lf cr : α) : ∀ (ls : List (List α)), (∀ l ∈ ls, lf ∉ l ∧ cr ∉ l) →
    lines lf cr (unlines lf ls) = ls
  | [], _ => rfl
  | l :: ls, h => by
      obtain ⟨hlf, hcr⟩ := h l List.mem_cons_self
      rw [unlines_cons, lines_append lf cr l _ hlf hcr,
        lines_unlines lf cr ls fun l' hl' => h l' (List.mem_cons_of_mem _ hl')]

/-- No line contains an end of line. -/
theorem not_mem_of_mem_linesFrom (lf cr : α) : ∀ (skip : Bool) (t l : List α),
    l ∈ linesFrom lf cr skip t → lf ∉ l ∧ cr ∉ l
  | _, [], l, hl => absurd hl (by simp [linesFrom])
  | skip, c :: cs, l, hl => by
      have hempty : lf ∉ ([] : List α) ∧ cr ∉ ([] : List α) := by simp
      rw [linesFrom] at hl
      split at hl
      next =>
        split at hl
        next => exact not_mem_of_mem_linesFrom lf cr false cs l hl
        next =>
          rcases List.mem_cons.mp hl with rfl | hl
          · exact hempty
          · exact not_mem_of_mem_linesFrom lf cr false cs l hl
      next hlf =>
        split at hl
        next =>
          rcases List.mem_cons.mp hl with rfl | hl
          · exact hempty
          · exact not_mem_of_mem_linesFrom lf cr true cs l hl
        next hcr =>
          have ih := not_mem_of_mem_linesFrom lf cr false cs
          have hcons : ∀ l' : List α, lf ∉ l' ∧ cr ∉ l' → lf ∉ c :: l' ∧ cr ∉ c :: l' := by
            intro l' ⟨h1, h2⟩
            rw [List.mem_cons, not_or, List.mem_cons, not_or]
            exact ⟨⟨Ne.symm hlf, h1⟩, Ne.symm hcr, h2⟩
          cases hrest : linesFrom lf cr false cs with
          | nil =>
              rw [hrest] at hl
              rw [List.mem_singleton.mp hl]
              exact hcons [] hempty
          | cons l' ls =>
              rw [hrest] at hl ih
              rcases List.mem_cons.mp hl with rfl | hl
              · exact hcons l' (ih l' List.mem_cons_self)
              · exact ih l (List.mem_cons_of_mem _ hl)

theorem not_mem_of_mem_lines {lf cr : α} {t l : List α} (hl : l ∈ lines lf cr t) :
    lf ∉ l ∧ cr ∉ l := not_mem_of_mem_linesFrom lf cr false t l hl

end Lines

/-! ## §2. The first separator. -/

section SplitFirst

variable [DecidableEq α]

/-- The text before the first `c`, and what follows it. -/
def splitFirst (c : α) : List α → List α × Option (List α)
  | [] => ([], none)
  | x :: xs =>
      if x = c then ([], some xs) else (x :: (splitFirst c xs).1, (splitFirst c xs).2)

theorem splitFirst_of_not_mem (c : α) : ∀ (l : List α), c ∉ l → splitFirst c l = (l, none)
  | [], _ => rfl
  | x :: xs, h => by
      rw [List.mem_cons, not_or] at h
      rw [splitFirst, if_neg (Ne.symm h.1), splitFirst_of_not_mem c xs h.2]

theorem splitFirst_append (c : α) : ∀ (l r : List α), c ∉ l →
    splitFirst c (l ++ c :: r) = (l, some r)
  | [], r, _ => by rw [List.nil_append, splitFirst, if_pos rfl]
  | x :: xs, r, h => by
      rw [List.mem_cons, not_or] at h
      rw [List.cons_append, splitFirst, if_neg (Ne.symm h.1), splitFirst_append c xs r h.2]

theorem not_mem_splitFirst (c : α) : ∀ (l : List α), c ∉ (splitFirst c l).1
  | [] => by simp [splitFirst]
  | x :: xs => by
      rw [splitFirst]
      split
      next => simp
      next hx =>
        rw [List.mem_cons, not_or]
        exact ⟨Ne.symm hx, not_mem_splitFirst c xs⟩

theorem mem_of_mem_splitFirst (c : α) {x : α} : ∀ (l : List α), x ∈ (splitFirst c l).1 → x ∈ l
  | [], h => absurd h (by simp [splitFirst])
  | y :: ys, h => by
      rw [splitFirst] at h
      split at h
      next => exact absurd h (by simp)
      next =>
        rcases List.mem_cons.mp h with rfl | h
        · exact List.mem_cons_self
        · exact List.mem_cons_of_mem _ (mem_of_mem_splitFirst c ys h)

theorem mem_of_splitFirst_eq_some (c : α) {x : α} : ∀ {l r : List α},
    (splitFirst c l).2 = some r → x ∈ r → x ∈ l
  | [], _, h, _ => absurd h (by simp [splitFirst])
  | y :: ys, r, h, hx => by
      rw [splitFirst] at h
      split at h
      next =>
        rw [← Option.some.inj h] at hx
        exact List.mem_cons_of_mem _ hx
      next => exact List.mem_cons_of_mem _ (mem_of_splitFirst_eq_some c h hx)

end SplitFirst

/-! ## §3. Trimming. -/

/-- What `p` accepts is taken off at both ends. -/
def trim (p : α → Bool) (l : List α) : List α := (l.dropWhile p).rdropWhile p

/-- Neither end is accepted by `p`. -/
def Trimmed (p : α → Bool) (l : List α) : Prop :=
  (∀ c, l.head? = some c → p c = false) ∧ ∀ c, l.getLast? = some c → p c = false

theorem mem_of_mem_trim {p : α → Bool} {l : List α} {x : α} (h : x ∈ trim p l) : x ∈ l :=
  (List.dropWhile_sublist p).subset ((List.rdropWhile_prefix p _).subset h)

theorem trim_eq_self {p : α → Bool} {l : List α} (h : Trimmed p l) : trim p l = l := by
  have hfront : l.dropWhile p = l := by
    cases l with
    | nil => rfl
    | cons c l => rw [List.dropWhile_cons_of_neg (by simp [h.1 c rfl])]
  unfold trim
  rw [hfront, List.rdropWhile_eq_self_iff]
  intro hne
  rw [Bool.not_eq_true]
  exact h.2 _ (List.getLast?_eq_some_getLast hne)

theorem trimmed_trim (p : α → Bool) (l : List α) : Trimmed p (trim p l) := by
  constructor
  · -- the head of a prefix of what remains after the front
    intro c hc
    obtain ⟨r, hr⟩ : ∃ r, trim p l ++ r = l.dropWhile p :=
      List.rdropWhile_prefix p _
    have hhead : (l.dropWhile p).head? = some c := by
      rw [← hr, List.head?_append, hc]
      rfl
    have := List.head?_dropWhile_not p l
    rw [hhead] at this
    simpa using this
  · intro c hc
    have hne : (trim p l) ≠ [] := by
      intro he
      rw [he] at hc
      exact absurd hc (by simp)
    rw [List.getLast?_eq_some_getLast hne] at hc
    have hlast := List.rdropWhile_last_not p (l.dropWhile p) hne
    rw [← Option.some.inj hc]
    exact Bool.not_eq_true _ ▸ hlast

/-! ## §4. Parts between separators. -/

section Parts

variable [DecidableEq α]

/-- A part has no separator. -/
theorem not_mem_of_mem_splitOn {x : α} : ∀ {xs l : List α}, l ∈ xs.splitOn x → x ∉ l
  | [], l, h => by
      rw [List.splitOn_nil, List.mem_singleton] at h
      rw [h]
      exact List.not_mem_nil
  | c :: xs, l, h => by
      rw [List.splitOn_cons_eq_if_modifyHead] at h
      split at h
      next =>
        rcases List.mem_cons.mp h with rfl | h
        · exact List.not_mem_nil
        · exact not_mem_of_mem_splitOn h
      next hc =>
        -- the first part grows by `c`, the others stay
        cases hs : xs.splitOn x with
        | nil => exact absurd hs (List.splitOn_ne_nil x xs)
        | cons p ps =>
            have ih : ∀ l ∈ p :: ps, x ∉ l := fun l hl => not_mem_of_mem_splitOn (hs ▸ hl)
            rw [hs, List.modifyHead_cons, List.mem_cons] at h
            rcases h with rfl | h
            · rw [List.mem_cons, not_or]
              refine ⟨fun hx => hc ?_, ih p List.mem_cons_self⟩
              rw [hx]
              exact beq_self_eq_true c
            · exact ih l (List.mem_cons_of_mem _ h)

/-- A text with no separator is one part. -/
theorem splitOn_of_not_mem {x : α} {xs : List α} (h : x ∉ xs) : xs.splitOn x = [xs] := by
  have hsplit : ([x].intercalate [xs]).splitOn x = [xs] :=
    List.splitOn_intercalate x (by simpa using h) (by simp)
  have hjoin : [x].intercalate [xs] = xs := by simp [List.intercalate]
  rw [hjoin] at hsplit
  exact hsplit

/-- Closed by a separator, a text is its parts, each of them closed. -/
theorem unlines_splitOn (x : α) (xs : List α) : unlines x (xs.splitOn x) = xs ++ [x] := by
  rw [← intercalate_append x _ (List.splitOn_ne_nil x xs), List.intercalate_splitOn]

/-- One more character is one more of the last part. -/
theorem splitOn_concat {x y : α} (hy : y ≠ x) (xs : List α) :
    ∃ earlier last, xs.splitOn x = earlier ++ [last]
      ∧ (xs ++ [y]).splitOn x = earlier ++ [last ++ [y]]
      ∧ xs = unlines x earlier ++ last := by
  obtain ⟨earlier, last, hsplit⟩ :=
    (List.eq_nil_or_concat' (xs.splitOn x)).resolve_left (List.splitOn_ne_nil x xs)
  have hone : ∀ l : List α, unlines x [l] = l ++ [x] := fun l => List.flatMap_singleton _ _
  have hxs : xs = unlines x earlier ++ last := by
    have hall := unlines_splitOn x xs
    rw [hsplit, unlines_append, hone, ← List.append_assoc] at hall
    exact (List.append_cancel_right hall).symm
  refine ⟨earlier, last, hsplit, ?_, hxs⟩
  -- joined again, the parts are the longer text
  have hne : earlier ++ [last ++ [y]] ≠ [] := by simp
  have hclosed : [x].intercalate (earlier ++ [last ++ [y]]) ++ [x] = xs ++ [y] ++ [x] := by
    rw [intercalate_append x _ hne, unlines_append, hone, hxs]
    simp only [List.append_assoc]
  have hjoin := List.append_cancel_right hclosed
  have hfree : ∀ l ∈ xs.splitOn x, x ∉ l := fun l => not_mem_of_mem_splitOn
  rw [hsplit, List.forall_mem_append, List.forall_mem_singleton] at hfree
  rw [← hjoin]
  refine List.splitOn_intercalate x (List.forall_mem_append.mpr ⟨hfree.1, ?_⟩) hne
  rw [List.forall_mem_singleton, List.mem_append, List.mem_singleton, not_or]
  exact ⟨hfree.2, hy.symm⟩

end Parts

/-! ## §5. Tokens. -/

section Tokens

variable (d : α → Bool)

/-- A text cut at its delimiters, each of which is a token of its own. -/
def tokens : List α → List (List α)
  | [] => []
  | c :: cs =>
      if d c then [c] :: tokens cs
      else
        match tokens cs with
        | [] => [[c]]
        | t :: ts => if t.any d then [c] :: t :: ts else (c :: t) :: ts

theorem tokens_of_delim {c : α} (hc : d c = true) (cs : List α) :
    tokens d (c :: cs) = [c] :: tokens d cs := by
  rw [tokens, if_pos hc]

/-- Tokens are made of the characters of the text. -/
theorem mem_of_mem_tokens {x : α} : ∀ {cs t : List α}, t ∈ tokens d cs → x ∈ t → x ∈ cs
  | [], _, h, _ => absurd h List.not_mem_nil
  | c :: cs, t, h, hx => by
      have hrest : ∀ t' ∈ tokens d cs, x ∈ t' → x ∈ c :: cs := fun t' ht' hx' =>
        List.mem_cons_of_mem _ (mem_of_mem_tokens ht' hx')
      have hone : t = [c] → x ∈ c :: cs := by
        rintro rfl
        rw [List.mem_singleton] at hx
        exact hx ▸ List.mem_cons_self
      rw [tokens] at h
      split at h
      next =>
        rcases List.mem_cons.mp h with h | h
        · exact hone h
        · exact hrest t h hx
      next =>
        cases htok : tokens d cs with
        | nil =>
            rw [htok] at h
            exact hone (List.mem_singleton.mp h)
        | cons u us =>
            rw [htok] at h hrest
            simp only at h
            split at h
            next =>
              rcases List.mem_cons.mp h with h | h
              · exact hone h
              · exact hrest t h hx
            next =>
              rcases List.mem_cons.mp h with rfl | h
              · rcases List.mem_cons.mp hx with rfl | hx
                · exact List.mem_cons_self
                · exact hrest u List.mem_cons_self hx
              · exact hrest t (List.mem_cons_of_mem _ h) hx

/-- Another character stands alone, or goes in front of the word that
follows. -/
theorem tokens_of_not_delim {c : α} (hc : d c = false) (cs : List α) :
    tokens d (c :: cs) = [c] :: tokens d cs
      ∨ ∃ t ts, tokens d cs = t :: ts ∧ (∀ x ∈ t, d x = false)
          ∧ tokens d (c :: cs) = (c :: t) :: ts := by
  rw [tokens, if_neg (by rw [hc]; exact Bool.false_ne_true)]
  cases htok : tokens d cs with
  | nil => exact Or.inl rfl
  | cons t ts =>
      by_cases ht : t.any d = true
      · exact Or.inl (if_pos ht)
      · refine Or.inr ⟨t, ts, rfl, fun x hx => ?_, if_neg ht⟩
        by_contra hdx
        exact ht (List.any_eq_true.mpr ⟨x, hx, (Bool.not_eq_false _).mp hdx⟩)

end Tokens

/-! ## §6. Where a run ends. -/

section Runs

theorem head_stop {p : α → Bool} {x : α} {b : List α} (h : p x = false) :
    ∀ y, (x :: b).head? = some y → p y = false := by
  intro y hy
  obtain rfl := Option.some.inj hy
  exact h

variable {p : α → Bool} {a b : List α} (ha : ∀ x ∈ a, p x = true)
  (hb : ∀ x, b.head? = some x → p x = false)

include ha hb

/-- A run of one class ends where the class does. -/
theorem takeWhile_append_stop : (a ++ b).takeWhile p = a := by
  rw [List.takeWhile_append_of_pos ha]
  cases b with
  | nil => exact List.append_nil a
  | cons x b =>
      rw [List.takeWhile_cons, hb x rfl]
      exact List.append_nil a

theorem dropWhile_append_stop : (a ++ b).dropWhile p = b := by
  rw [List.dropWhile_append_of_pos ha]
  cases b with
  | nil => rfl
  | cons x b =>
      rw [List.dropWhile_cons, hb x rfl]
      rfl

end Runs

end FoxVpn.Lib
