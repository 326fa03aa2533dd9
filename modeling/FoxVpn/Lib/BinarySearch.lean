/-
  FoxVpn.Lib.BinarySearch
  ───────────────────────
  **A SORTED LIST, FILLED BY BINARY SEARCH.**

  A comparison returns a NUMBER, of which only the sign counts.  The search
  halves the interval from `left` to `right` until it meets an item that
  compares equal, or until nothing is left of the interval:

      before left       everything is below the item
      from right on     everything is above it           `Bracket`

  An item that was found is replaced, any other one is inserted where the
  interval has closed.  On a list in strict order this is what going through
  the list from its beginning does (`add_eq_insert`), so the results about
  sorted lists hold of lists that are filled this way.
-/
import FoxVpn.Lib.SortedList

namespace FoxVpn.Lib

variable {α : Type*}

/-- A comparison as a number. -/
def signum : Ordering → Int
  | .lt => -1
  | .eq => 0
  | .gt => 1

theorem signum_lt_zero {o : Ordering} : signum o < 0 ↔ o = .lt := by
  cases o <;> decide

theorem signum_eq_zero {o : Ordering} : signum o = 0 ↔ o = .eq := by
  cases o <;> decide

theorem signum_pos {o : Ordering} : 0 < signum o ↔ o = .gt := by
  cases o <;> decide

theorem signum_le_zero {o : Ordering} : signum o ≤ 0 ↔ o.isLE = true := by
  cases o <;> decide

theorem sign_signum_swap (o : Ordering) : (signum o).sign = -(signum o.swap).sign := by
  cases o <;> rfl

/-- A comparison that goes on only if the first one is undecided. -/
theorem signum_then (o p : Ordering) :
    signum (o.then p) = if signum o ≠ 0 then signum o else signum p := by
  cases o <;> rfl

namespace BinarySearch

/-! ## §1. The search. -/

/-- Where an item is, or where it belongs. -/
inductive Position where
  | found (index : Nat)
  | missing (index : Nat)
  deriving Repr, DecidableEq

section Search

variable (compare : α → α → Int) (item : α) (data : List α)

/-- The search between `left` and `right`. -/
def findIndexOf (left right : Nat) (hright : right ≤ data.length) : Position :=
  if hlt : left < right then
    have hmiddle : (left + right) / 2 < data.length := by omega
    if compare data[(left + right) / 2] item < 0 then
      findIndexOf ((left + right) / 2 + 1) right hright
    else if compare data[(left + right) / 2] item = 0 then .found ((left + right) / 2)
    else findIndexOf left ((left + right) / 2) (by omega)
  else .missing left
termination_by right - left

/-- An item that compares equal is replaced; otherwise the item is
inserted. -/
def add : List α :=
  match findIndexOf compare item data 0 data.length (Nat.le_refl _) with
  | .found index => data.set index item
  | .missing index => data.take index ++ item :: data.drop index

/-- The items lie in order around the one that is searched for. -/
def Around : Prop := data.Pairwise fun y z => compare z item ≤ 0 → compare y item < 0

/-- What is known outside of the interval. -/
structure Bracket (left right : Nat) : Prop where
  below : ∀ i (hi : i < data.length), i < left → compare data[i] item < 0
  above : ∀ i (hi : i < data.length), right ≤ i → 0 < compare data[i] item

/-- What the search returns. -/
def Found : Position → Prop
  | .found index => ∃ hi : index < data.length, compare data[index] item = 0
  | .missing index => index ≤ data.length ∧ Bracket compare item data index index

end Search

section Correct

variable {compare : α → α → Int} {item : α} {data : List α}

/-- The middle is below: so is all before it. -/
theorem Bracket.raise (hsorted : Around compare item data) {left right middle : Nat}
    (h : Bracket compare item data left right) (hm : middle < data.length)
    (hlt : compare data[middle] item < 0) :
    Bracket compare item data (middle + 1) right := by
  refine ⟨fun i hi him => ?_, h.above⟩
  rcases Nat.lt_or_ge i middle with hless | hge
  · exact List.pairwise_iff_getElem.mp hsorted i middle hi hm hless (by omega)
  · obtain rfl : i = middle := by omega
    exact hlt

/-- The middle is above: so is all behind it. -/
theorem Bracket.lower (hsorted : Around compare item data) {left right middle : Nat}
    (h : Bracket compare item data left right) (hm : middle < data.length)
    (hgt : 0 < compare data[middle] item) :
    Bracket compare item data left middle := by
  refine ⟨h.below, fun i hi him => ?_⟩
  rcases Nat.lt_or_ge middle i with hless | hge
  · have hpair := List.pairwise_iff_getElem.mp hsorted middle i hm hi hless
    by_contra hle
    have hmiddle := hpair (by omega)
    omega
  · obtain rfl : i = middle := by omega
    exact hgt

/-- **The loop**, by induction on the length of the interval. -/
theorem findIndexOf_found (hsorted : Around compare item data) (n : Nat) :
    ∀ (left right : Nat) (hright : right ≤ data.length), right - left = n → left ≤ right →
      Bracket compare item data left right →
        Found compare item data (findIndexOf compare item data left right hright) := by
  induction n using Nat.strongRecOn with
  | ind n ih =>
      intro left right hright hn hle h
      unfold findIndexOf
      by_cases hlt : left < right
      · have hm : (left + right) / 2 < data.length := by omega
        rw [dif_pos hlt]
        dsimp only
        by_cases hbelow : compare data[(left + right) / 2] item < 0
        · rw [if_pos hbelow]
          exact ih (right - ((left + right) / 2 + 1)) (by omega) _ _ _ rfl (by omega)
            (h.raise hsorted hm hbelow)
        · rw [if_neg hbelow]
          by_cases hequal : compare data[(left + right) / 2] item = 0
          · rw [if_pos hequal]
            exact ⟨hm, hequal⟩
          · rw [if_neg hequal]
            exact ih ((left + right) / 2 - left) (by omega) _ _ _ rfl (by omega)
              (h.lower hsorted hm (by omega))
      · rw [dif_neg hlt]
        obtain rfl : left = right := by omega
        exact ⟨hright, h⟩

/-- The search of a whole list. -/
theorem findIndexOf_whole (hsorted : Around compare item data) :
    Found compare item data (findIndexOf compare item data 0 data.length (Nat.le_refl _)) := by
  refine findIndexOf_found hsorted _ 0 data.length _ rfl (Nat.zero_le _) ⟨?_, ?_⟩
  · intro i _ hi
    omega
  · intro i hi hge
    omega

end Correct

end BinarySearch

/-! ## §2. Going through the list. -/

namespace Callback

variable (cb : Callback α) {x : α}

/-- What is below the item is passed. -/
theorem insert_append {a : List α} (b : List α) (ha : ∀ y ∈ a, cb.compare x y = .gt) :
    cb.insert x (a ++ b) = a ++ cb.insert x b := by
  induction a with
  | nil => rfl
  | cons y a ih =>
      obtain ⟨hy, ha⟩ := List.forall_mem_cons.mp ha
      rw [List.cons_append, insert, hy]
      show y :: cb.insert x (a ++ b) = _
      rw [ih ha, List.cons_append]

/-- In front of what is above it, it stays. -/
theorem insert_of_lt {b : List α} (hb : ∀ y ∈ b, cb.compare x y = .lt) :
    cb.insert x b = x :: b := by
  cases b with
  | nil => rfl
  | cons y b => rw [insert, hb y List.mem_cons_self]

theorem insert_of_same {y : α} (b : List α) (heq : cb.compare x y = .eq)
    (hsame : cb.areItemsTheSame x y = true) : cb.insert x (y :: b) = x :: b := by
  rw [insert, heq]
  show (if cb.areItemsTheSame x y then x :: b else y :: cb.insert x b) = x :: b
  rw [if_pos hsame]

end Callback

namespace BinarySearch

variable {cb : Callback α} {compare : α → α → Int}
  (hcompare : ∀ a b, compare a b = signum (cb.compare a b))
  (hsame : ∀ a b, cb.compare a b = .eq → cb.areItemsTheSame a b = true)

include hcompare hsame

/-- A sorted list without two items that compare equal lies in order around
any item. -/
theorem around_items (l : SortedList cb) (item : α) : Around compare item l.items := by
  have := cb.trans_compare
  refine (l.sorted.and (l.pairwise_ne_eq hsame)).imp fun {y z} ⟨hbefore, hne⟩ hz => ?_
  rw [hcompare] at hz ⊢
  have hlt : cb.compare y z = .lt := by
    cases hyz : cb.compare y z with
    | lt => rfl
    | eq => exact absurd hyz hne
    | gt => exact absurd hyz hbefore.1
  exact signum_lt_zero.mpr (Std.TransCmp.lt_of_lt_of_isLE hlt (signum_le_zero.mp hz))

omit hsame in
/-- What the search passed is below the item. -/
theorem compare_of_mem_take {data : List α} {item : α} {index : Nat}
    (hbelow : ∀ i (hi : i < data.length), i < index → compare data[i] item < 0) :
    ∀ y ∈ data.take index, cb.compare item y = .gt := by
  have := cb.trans_compare
  intro y hy
  obtain ⟨i, hi, rfl⟩ := List.mem_take_iff_getElem.mp hy
  have hlt := hbelow i (by omega) (by omega)
  rw [hcompare, signum_lt_zero] at hlt
  exact Std.OrientedCmp.gt_of_lt hlt

/-- An item that was found is replaced by going through the list, too. -/
theorem insert_of_found (l : SortedList cb) {item : α} {index : Nat}
    (hi : index < l.items.length) (hequal : compare l.items[index] item = 0) :
    cb.insert item l.items = l.items.set index item := by
  have := cb.trans_compare
  have hsorted := around_items hcompare hsame l item
  have hbelow := compare_of_mem_take hcompare fun i hlt hless =>
    List.pairwise_iff_getElem.mp hsorted i index hlt hi hless (by omega)
  have heq : cb.compare item l.items[index] = .eq := by
    rw [hcompare, signum_eq_zero] at hequal
    exact Std.OrientedCmp.eq_symm hequal
  have hsplit : l.items = l.items.take index ++ l.items[index] :: l.items.drop (index + 1) := by
    rw [List.getElem_cons_drop, List.take_append_drop]
  rw [List.set_eq_take_append_cons_drop, if_pos hi]
  conv_lhs => rw [hsplit]
  rw [cb.insert_append _ hbelow, cb.insert_of_same _ heq (hsame _ _ heq)]

omit hsame in
/-- An item that is missing is inserted where the interval has closed. -/
theorem insert_of_missing {data : List α} {item : α} {index : Nat}
    (h : Bracket compare item data index index) :
    cb.insert item data = data.take index ++ item :: data.drop index := by
  have := cb.trans_compare
  have hbelow := compare_of_mem_take hcompare h.below
  have habove : ∀ y ∈ data.drop index, cb.compare item y = .lt := by
    intro y hy
    obtain ⟨j, hj, rfl⟩ := List.mem_drop_iff_getElem.mp hy
    have hpos := h.above (index + j) (by omega) (by omega)
    rw [hcompare, signum_pos] at hpos
    exact Std.OrientedCmp.lt_of_gt hpos
  conv_lhs => rw [← List.take_append_drop index data]
  rw [cb.insert_append _ hbelow, cb.insert_of_lt habove]

/-- **Binary search and going through the list add alike.** -/
theorem add_eq_insert (l : SortedList cb) (item : α) :
    add compare item l.items = (l.add item).items := by
  have hfound := findIndexOf_whole (around_items hcompare hsame l item)
  show add compare item l.items = cb.insert item l.items
  unfold add
  cases hindex : findIndexOf compare item l.items 0 l.items.length (Nat.le_refl _) with
  | found index =>
      rw [hindex] at hfound
      obtain ⟨hi, hequal⟩ := hfound
      exact (insert_of_found hcompare hsame l hi hequal).symm
  | missing index =>
      rw [hindex] at hfound
      exact (insert_of_missing hcompare hfound.2).symm

/-- One after the other. -/
theorem foldl_add_eq (xs : List α) (l : SortedList cb) :
    xs.foldl (fun data item => add compare item data) l.items = (l.addAll xs).items := by
  induction xs generalizing l with
  | nil => rfl
  | cons x xs ih =>
      rw [List.foldl_cons, add_eq_insert hcompare hsame]
      exact ih (l.add x)

end BinarySearch

end FoxVpn.Lib
