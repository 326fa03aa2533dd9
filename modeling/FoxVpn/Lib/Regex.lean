/-
  FoxVpn.Lib.Regex
  ────────────────
  **BACKTRACKING PATTERNS.**

  A pattern is a sequence of pieces, each of which takes characters of one
  class: exactly one, as many as possible, or as few as possible.

      c  [class]       once
      [class]*         greedy 0          [class]+?       lazy 1
      ( … )            the piece is a group

  `run` lists the matches at the beginning of a text in the order a
  backtracking matcher tries them, each with its groups and what it leaves;
  the first one counts.  `findAll` goes through a text from match to match.

  The rules below find that first match without enumerating the others: a
  greedy run backs off to the LAST character the next piece takes, a lazy
  one stops at the FIRST.  `exists_of_matchEntire` takes a match of a whole
  text apart, piece by piece.
-/
import Mathlib.Data.List.Range
import Mathlib.Data.List.TakeWhile

namespace FoxVpn.Lib.Regex

universe u

variable {α : Type u}

/-! ## §1. Patterns. -/

inductive Quantifier where
  | once
  | greedy (least : Nat)
  | lazy (least : Nat)
  deriving Repr, DecidableEq

/-- Characters of one class, repeated. -/
structure Piece (α : Type u) where
  accepts : α → Bool
  quantifier : Quantifier := .once
  group : Bool := false

/-- How many characters of a run of `n` a piece may take, in the order they
are tried. -/
def Quantifier.lengths : Quantifier → Nat → List Nat
  | .once, n => if 1 ≤ n then [1] else []
  | .greedy least, n => (List.range' least (n + 1 - least)).reverse
  | .lazy least, n => List.range' least (n + 1 - least)

/-- The matches at the beginning of a text: groups and rest. -/
def run : List (Piece α) → List α → List (List (List α) × List α)
  | [], t => [([], t)]
  | p :: ps, t =>
      (p.quantifier.lengths (t.takeWhile p.accepts).length).flatMap fun n =>
        (run ps (t.drop n)).map fun r => (if p.group then t.take n :: r.1 else r.1, r.2)

/-- The groups of a match of the whole text. -/
def matchEntire (ps : List (Piece α)) (t : List α) : Option (List (List α)) :=
  ((run ps t).find? fun r => r.2.isEmpty).map Prod.fst

/-- The matched texts, from left to right; the first `skip` characters
belong to the match before. -/
def findAll (ps : List (Piece α)) : Nat → List α → List (List α)
  | _, [] => []
  | skip + 1, _ :: t => findAll ps skip t
  | 0, c :: t =>
      match (run ps (c :: t)).head? with
      | none => findAll ps 0 t
      | some (_, rest) =>
          let n := (c :: t).length - rest.length
          (c :: t).take n :: findAll ps (n - 1) t

/-! ## §2. The first match. -/

theorem findAll_skip (ps : List (Piece α)) : ∀ (n : Nat) (t : List α),
    findAll ps n t = findAll ps 0 (t.drop n)
  | 0, _ => rfl
  | _ + 1, [] => rfl
  | n + 1, _ :: t => findAll_skip ps n t

/-- A match at the very beginning, and the search behind it. -/
theorem findAll_of_head {ps : List (Piece α)} {v w : List α} {gs : List (List α)} (hv : v ≠ [])
    (h : (run ps (v ++ w)).head? = some (gs, w)) :
    findAll ps 0 (v ++ w) = v :: findAll ps 0 w := by
  cases v with
  | nil => exact absurd rfl hv
  | cons c t =>
      rw [List.cons_append] at h ⊢
      rw [findAll, h]
      have hn : (c :: (t ++ w)).length - w.length = t.length + 1 := by
        rw [List.length_cons, List.length_append]
        omega
      dsimp only
      rw [hn, Nat.add_sub_cancel, findAll_skip, List.drop_left, List.take_succ_cons, List.take_left]

/-- A text that has no character to begin a match with. -/
theorem findAll_eq_nil {p : Piece α} {ps : List (Piece α)} (hp : p.quantifier = .once) :
    ∀ {t : List α}, (∀ c ∈ t, p.accepts c = false) → findAll (p :: ps) 0 t = []
  | [], _ => rfl
  | c :: t, h => by
      obtain ⟨hc, ht⟩ := List.forall_mem_cons.mp h
      have hno : run (p :: ps) (c :: t) = [] := by
        rw [run, hp, List.takeWhile_cons, hc]
        rfl
      rw [findAll, hno]
      exact findAll_eq_nil hp ht

section Pieces

variable (p : Piece α) (ps : List (Piece α))

/-- A piece that takes one character, and has it. -/
theorem run_once {c : α} (t : List α) (hp : p.quantifier = .once) (hg : p.group = false)
    (hc : p.accepts c = true) : run (p :: ps) (c :: t) = run ps t := by
  rw [run, hp, List.takeWhile_cons, hc, hg]
  show [1].flatMap _ = _
  simp

/-- A piece that takes one character, and has it not. -/
theorem run_once_eq_nil {t : List α} (hp : p.quantifier = .once)
    (ht : ∀ c, t.head? = some c → p.accepts c = false) : run (p :: ps) t = [] := by
  rw [run, hp]
  cases t with
  | nil => rfl
  | cons c t =>
      rw [List.takeWhile_cons, ht c rfl]
      rfl

end Pieces

/-- The lengths that lead nowhere do not count. -/
theorem flatMap_skip {β : Type*} {f : Nat → List β} {ks ls : List Nat} (m : Nat)
    (h : ∀ k ∈ ks, f k = []) : (ks ++ m :: ls).flatMap f = f m ++ ls.flatMap f := by
  rw [List.flatMap_append, List.flatMap_cons, List.flatMap_eq_nil_iff.mpr h, List.nil_append]

/-- The lengths below one, that one, and the lengths above it. -/
theorem range_split {least m n : Nat} (hm : least ≤ m) (hn : m ≤ n) :
    List.range' least (n + 1 - least)
      = List.range' least (m - least) ++ m :: List.range' (m + 1) (n - m) := by
  have hcount : n + 1 - least = (m - least) + (n - m + 1) := by omega
  have hat : least + 1 * (m - least) = m := by omega
  rw [hcount, ← List.range'_append, hat, List.range'_succ]

theorem lengths_greedy_split {least m n : Nat} (hm : least ≤ m) (hn : m ≤ n) :
    (Quantifier.greedy least).lengths n
      = (List.range' (m + 1) (n - m)).reverse ++ m :: (List.range' least (m - least)).reverse := by
  rw [Quantifier.lengths, range_split hm hn, List.reverse_append, List.reverse_cons,
    List.append_assoc, List.singleton_append]

/-- **Greedy**: the longest length that leads on comes first. -/
theorem run_greedy (p : α → Bool) (g : Bool) (ps : List (Piece α)) (t : List α) (least m : Nat)
    (hm : least ≤ m) (hn : m ≤ (t.takeWhile p).length)
    (h : ∀ k, m < k → k ≤ (t.takeWhile p).length → run ps (t.drop k) = []) :
    ∃ others, run (⟨p, .greedy least, g⟩ :: ps) t
      = (run ps (t.drop m)).map (fun r => (if g then t.take m :: r.1 else r.1, r.2))
        ++ others := by
  generalize hlen : (t.takeWhile p).length = n at hn h
  rw [run, hlen, lengths_greedy_split hm hn]
  refine ⟨_, flatMap_skip m fun k hk => ?_⟩
  rw [List.mem_reverse, List.mem_range'_1] at hk
  rw [h k (by omega) (by omega), List.map_nil]

/-- A character in front of the place is of the first part. -/
theorem mem_of_head?_drop {a t : List α} {k : Nat} {x : α} (hk : k < a.length)
    (hx : ((a ++ t).drop k).head? = some x) : x ∈ a := by
  rw [List.drop_append_of_le_length (by omega)] at hx
  cases hdrop : a.drop k with
  | nil => exact absurd (List.drop_eq_nil_iff.mp hdrop) (by omega)
  | cons y ys =>
      rw [hdrop] at hx
      obtain rfl : y = x := Option.some.inj hx
      exact List.mem_of_mem_drop (hdrop ▸ List.mem_cons_self)

/-- A character behind the place is of the last part. -/
theorem mem_of_head?_drop_behind {a w : List α} {c : α} {k : Nat} {x : α} (hk : a.length < k)
    (hx : ((a ++ c :: w).drop k).head? = some x) : x ∈ w := by
  obtain ⟨j, rfl⟩ := Nat.exists_eq_add_of_lt hk
  rw [Nat.add_assoc, List.drop_length_add_append, List.drop_succ_cons] at hx
  exact List.mem_of_mem_drop (List.mem_of_mem_head? hx)

/-- `[p]*[q]`: the match ends at the last character of the run that is of
the class `q`; behind the run, at `t`, is none of either class. -/
theorem head?_run_greedy_once {p q : α → Bool} {a w t : List α} {c : α}
    (hp : ∀ x ∈ a ++ c :: w, p x = true) (hc : q c = true) (hw : ∀ x ∈ w, q x = false)
    (ht : ∀ x, t.head? = some x → p x = false ∧ q x = false) :
    (run [⟨p, .greedy 0, false⟩, ⟨q, .once, false⟩] (a ++ c :: (w ++ t))).head?
      = some ([], w ++ t) := by
  have hstop : t.takeWhile p = [] := by
    cases t with
    | nil => rfl
    | cons x t => rw [List.takeWhile_cons, (ht x rfl).1]; rfl
  have hlen : ((a ++ c :: (w ++ t)).takeWhile p).length = a.length + 1 + w.length := by
    rw [← List.cons_append, ← List.append_assoc, List.takeWhile_append_of_pos hp, hstop,
      List.append_nil, List.length_append, List.length_cons]
    omega
  -- behind `c` there is nothing of the class
  have hbehind : ∀ k, a.length < k → k ≤ a.length + 1 + w.length →
      run [(⟨q, .once, false⟩ : Piece α)] ((a ++ c :: (w ++ t)).drop k) = [] := by
    intro k hk hle
    refine run_once_eq_nil _ _ rfl fun x hx => ?_
    obtain ⟨j, rfl⟩ := Nat.exists_eq_add_of_lt hk
    rw [Nat.add_assoc, List.drop_length_add_append, List.drop_succ_cons] at hx
    by_cases hj : j < w.length
    · exact hw x (mem_of_head?_drop hj hx)
    · obtain rfl : j = w.length := by omega
      rw [List.drop_left] at hx
      exact (ht x hx).2
  obtain ⟨others, hrun⟩ := run_greedy p false [⟨q, .once, false⟩] (a ++ c :: (w ++ t))
    0 a.length (Nat.zero_le _) (by omega) fun k hk hle => hbehind k hk (hlen ▸ hle)
  rw [hrun, List.drop_left, run_once _ _ _ rfl rfl hc]
  rfl

/-- What is found is no longer than the text. -/
theorem length_le_of_mem_findAll {ps : List (Piece α)} {v : List α} :
    ∀ {skip : Nat} {t : List α}, v ∈ findAll ps skip t → v.length ≤ t.length
  | skip, [], h => by
      cases skip <;> exact absurd h List.not_mem_nil
  | skip + 1, c :: t, h => by
      have hle := length_le_of_mem_findAll (show v ∈ findAll ps skip t from h)
      rw [List.length_cons]
      omega
  | 0, c :: t, h => by
      rw [findAll] at h
      cases hrun : (run ps (c :: t)).head? with
      | none =>
          rw [hrun] at h
          have hle := length_le_of_mem_findAll (show v ∈ findAll ps 0 t from h)
          rw [List.length_cons]
          omega
      | some r =>
          rw [hrun] at h
          rcases List.mem_cons.mp h with rfl | h
          · exact List.length_take_le' _ _
          · have hle := length_le_of_mem_findAll h
            rw [List.length_cons]
            omega

/-! ## §3. Matches of the whole text. -/

/-- The least number of characters a piece takes. -/
def Quantifier.least : Quantifier → Nat
  | .once => 1
  | .greedy least => least
  | .lazy least => least

theorem Quantifier.of_mem_lengths {q : Quantifier} {n m : Nat} (h : m ∈ q.lengths n) :
    q.least ≤ m ∧ m ≤ n := by
  cases q with
  | once =>
      have h : m ∈ if 1 ≤ n then [1] else [] := h
      split at h
      next hn =>
        rw [List.mem_singleton.mp h]
        exact ⟨Nat.le_refl 1, hn⟩
      next => exact absurd h List.not_mem_nil
  | greedy least =>
      rw [lengths, List.mem_reverse, List.mem_range'_1] at h
      show least ≤ m ∧ m ≤ n
      omega
  | lazy least =>
      rw [lengths, List.mem_range'_1] at h
      show least ≤ m ∧ m ≤ n
      omega

/-- The lengths of the first piece are tried in turn. -/
theorem matchEntire_cons (p : Piece α) (ps : List (Piece α)) (t : List α) :
    matchEntire (p :: ps) t
      = (p.quantifier.lengths (t.takeWhile p.accepts).length).findSome? fun n =>
          (matchEntire ps (t.drop n)).map fun gs => if p.group then t.take n :: gs else gs := by
  unfold matchEntire
  rw [run, List.find?_flatMap, List.map_findSome?]
  congr 1
  funext n
  show Option.map _ (List.find? _ _) = _
  rw [List.find?_map, Option.map_map, Option.map_map]
  rfl

/-- **A match, taken apart**: what the first piece took, and the match of
the rest. -/
theorem exists_of_matchEntire {p : Piece α} {ps : List (Piece α)} {t : List α}
    {gs : List (List α)} (h : matchEntire (p :: ps) t = some gs) :
    ∃ u v rest, t = u ++ v ∧ (∀ c ∈ u, p.accepts c = true) ∧ p.quantifier.least ≤ u.length
      ∧ matchEntire ps v = some rest ∧ gs = if p.group then u :: rest else rest := by
  rw [matchEntire_cons] at h
  obtain ⟨n, hn, hmap⟩ := List.exists_of_findSome?_eq_some h
  obtain ⟨rest, hrest, hgs⟩ := Option.map_eq_some_iff.mp hmap
  obtain ⟨hleast, hle⟩ := Quantifier.of_mem_lengths hn
  have hinit : t.take n <+: t.takeWhile p.accepts := by
    have htake : t.take n = (t.takeWhile p.accepts).take n := by
      obtain ⟨w, hw⟩ := List.takeWhile_prefix p.accepts (l := t)
      conv_lhs => rw [← hw]
      exact List.take_append_of_le_length hle
    rw [htake]
    exact List.take_prefix _ _
  have hlength : n ≤ t.length := hle.trans (List.takeWhile_prefix p.accepts).length_le
  refine ⟨t.take n, t.drop n, rest, (List.take_append_drop n t).symm, fun c hc => ?_, ?_, hrest,
    hgs.symm⟩
  · exact List.mem_takeWhile_imp (hinit.subset hc)
  · rw [List.length_take, Nat.min_eq_left hlength]
    exact hleast

theorem of_matchEntire_nil {t : List α} {gs : List (List α)} (h : matchEntire [] t = some gs) :
    t = [] ∧ gs = [] := by
  cases t with
  | nil => exact ⟨rfl, (Option.some.inj h).symm⟩
  | cons c t => exact absurd h (by simp [matchEntire, run])

theorem matchEntire_once {a : α → Bool} (ps : List (Piece α)) {c : α} (t : List α)
    (hc : a c = true) : matchEntire (⟨a, .once, false⟩ :: ps) (c :: t) = matchEntire ps t := by
  unfold matchEntire
  rw [run_once _ _ _ rfl rfl hc]

theorem matchEntire_once_none {a : α → Bool} (ps : List (Piece α)) {t : List α}
    (ht : ∀ c, t.head? = some c → a c = false) :
    matchEntire (⟨a, .once, false⟩ :: ps) t = none := by
  unfold matchEntire
  rw [run_once_eq_nil _ _ rfl ht]
  rfl

/-- One character, taken apart. -/
theorem exists_of_matchEntire_once {a : α → Bool} {ps : List (Piece α)} {t : List α}
    {gs : List (List α)} (h : matchEntire (⟨a, .once, false⟩ :: ps) t = some gs) :
    ∃ c v, t = c :: v ∧ a c = true ∧ matchEntire ps v = some gs := by
  cases t with
  | nil =>
      rw [matchEntire_once_none ps (by simp)] at h
      exact absurd h (by simp)
  | cons c v =>
      cases hc : a c with
      | true => exact ⟨c, v, rfl, hc, (matchEntire_once ps v hc).symm.trans h⟩
      | false =>
          have hhead : ∀ x, (c :: v).head? = some x → a x = false := by
            intro x hx
            rw [← Option.some.inj hx]
            exact hc
          rw [matchEntire_once_none ps hhead] at h
          exact absurd h (by simp)

section Group

variable {p : α → Bool} {ps : List (Piece α)} {a t : List α} {least : Nat} {gs : List (List α)}

theorem length_le_takeWhile (ha : ∀ c ∈ a, p c = true) :
    a.length ≤ ((a ++ t).takeWhile p).length := by
  rw [List.takeWhile_append_of_pos ha, List.length_append]
  omega

/-- **Lazy**: the shortest length with which the rest is matched. -/
theorem matchEntire_lazy (hle : least ≤ a.length) (ha : ∀ c ∈ a, p c = true)
    (hno : ∀ k, least ≤ k → k < a.length → matchEntire ps ((a ++ t).drop k) = none)
    (hyes : matchEntire ps t = some gs) :
    matchEntire (⟨p, .lazy least, true⟩ :: ps) (a ++ t) = some (a :: gs) := by
  rw [matchEntire_cons, List.findSome?_eq_some_iff]
  refine ⟨_, a.length, _, range_split hle (length_le_takeWhile ha), ?_, fun k hk => ?_⟩
  · rw [List.drop_left, hyes, List.take_left]
    rfl
  · rw [List.mem_range'_1] at hk
    rw [hno k hk.1 (by omega)]
    rfl

/-- **Greedy**: the longest one. -/
theorem matchEntire_greedy (hle : least ≤ a.length) (ha : ∀ c ∈ a, p c = true)
    (hno : ∀ k, a.length < k → matchEntire ps ((a ++ t).drop k) = none)
    (hyes : matchEntire ps t = some gs) :
    matchEntire (⟨p, .greedy least, true⟩ :: ps) (a ++ t) = some (a :: gs) := by
  rw [matchEntire_cons, List.findSome?_eq_some_iff]
  refine ⟨_, a.length, _, lengths_greedy_split hle (length_le_takeWhile ha), ?_, fun k hk => ?_⟩
  · rw [List.drop_left, hyes, List.take_left]
    rfl
  · rw [List.mem_reverse, List.mem_range'_1] at hk
    rw [hno k (by omega)]
    rfl

/-- **The last piece** takes all that is left. -/
theorem matchEntire_last {q : Quantifier} (hq : a.length ∈ q.lengths a.length)
    (ha : ∀ c ∈ a, p c = true) : matchEntire [⟨p, q, true⟩] a = some [a] := by
  cases h : matchEntire [⟨p, q, true⟩] a with
  | none =>
      rw [matchEntire_cons, List.findSome?_eq_none_iff, List.takeWhile_eq_self_iff.mpr ha] at h
      have hall := h a.length hq
      rw [List.drop_length] at hall
      exact absurd hall (by simp [matchEntire, run])
  | some gs =>
      obtain ⟨u, v, rest, rfl, -, -, hrest, rfl⟩ := exists_of_matchEntire h
      obtain ⟨rfl, rfl⟩ := of_matchEntire_nil hrest
      rw [List.append_nil]
      rfl

end Group

/-- `([p]+?)s([p]*)` on the whole text: the first group ends at the first
separator. -/
theorem matchEntire_lazy_greedy {p s : α → Bool} {a b : List α} {c : α} (ha : a ≠ [])
    (hpa : ∀ x ∈ a, p x = true) (hsa : ∀ x ∈ a, s x = false) (hc : s c = true)
    (hpb : ∀ x ∈ b, p x = true) :
    matchEntire [⟨p, .lazy 1, true⟩, ⟨s, .once, false⟩, ⟨p, .greedy 0, true⟩] (a ++ c :: b)
      = some [a, b] := by
  refine matchEntire_lazy (List.length_pos_iff.mpr ha) hpa (fun k _ hk => ?_) ?_
  · -- before the separator the next piece finds none
    exact matchEntire_once_none _ fun x hx => hsa x (mem_of_head?_drop hk hx)
  · rw [matchEntire_once _ _ hc]
    refine matchEntire_last ?_ hpb
    rw [Quantifier.lengths, List.mem_reverse, List.mem_range'_1]
    omega

end FoxVpn.Lib.Regex
