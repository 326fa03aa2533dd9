/-
  FoxVpn.Lib.SortedList
  ─────────────────────
  **A SORTED LIST WITH A CALLBACK.**

  The callback compares items and tells which of them are the SAME.  Adding
  an item replaces the one that compares equal and is the same, if there is
  one; otherwise the item goes to its place in the order.  Items that
  compare equal without being the same are kept side by side.

  A `SortedList` carries its invariant: in order, and no item twice.  What
  the results below use is only that: where a new item lands among items
  that compare equal never matters.
-/
import Mathlib.Data.List.Perm.Basic
import Mathlib.Data.List.Pairwise
import Mathlib.Order.Defs.LinearOrder

namespace FoxVpn.Lib

variable {α : Type*}

/-! ## §1. The callback, and the place of an item. -/

/-- The callback of a sorted list: a total preorder, and an equivalence on
top of it. -/
structure Callback (α : Type*) where
  compare : α → α → Ordering
  areItemsTheSame : α → α → Bool
  trans_compare : Std.TransCmp compare
  same_symm : ∀ a b, areItemsTheSame a b = true → areItemsTheSame b a = true
  same_trans : ∀ a b c, areItemsTheSame a b = true → areItemsTheSame b c = true →
    areItemsTheSame a c = true

namespace Callback

variable (cb : Callback α)

/-- Both are kept: they do not compare equal, or are not the same. -/
def Distinct (a b : α) : Prop := cb.compare a b = .eq → cb.areItemsTheSame a b = false

/-- What holds of an item and a later one. -/
def Before (a b : α) : Prop := cb.compare a b ≠ .gt ∧ cb.Distinct a b

theorem Distinct.symm {cb : Callback α} {a b : α} (h : cb.Distinct a b) : cb.Distinct b a := by
  have := cb.trans_compare
  intro heq
  rw [← Bool.not_eq_true]
  intro hsame
  have hno := h (Std.OrientedCmp.eq_symm heq)
  rw [cb.same_symm b a hsame] at hno
  exact absurd hno (by simp)

/-- An item goes to its place. -/
def insert (x : α) : List α → List α
  | [] => [x]
  | y :: ys =>
      match cb.compare x y with
      | .lt => x :: y :: ys
      | .eq => if cb.areItemsTheSame x y then x :: ys else y :: insert x ys
      | .gt => y :: insert x ys

theorem mem_of_mem_insert {x z : α} : ∀ (l : List α), z ∈ cb.insert x l → z = x ∨ z ∈ l
  | [], h => Or.inl (List.mem_singleton.mp h)
  | y :: ys, h => by
      have hrec : z ∈ y :: cb.insert x ys → z = x ∨ z ∈ y :: ys := by
        intro h
        rcases List.mem_cons.mp h with rfl | h
        · exact Or.inr List.mem_cons_self
        · exact (mem_of_mem_insert ys h).imp_right (List.mem_cons_of_mem _)
      rw [insert] at h
      split at h
      next => exact List.mem_cons.mp h
      next =>
        split at h
        next => exact (List.mem_cons.mp h).imp_right (List.mem_cons_of_mem _)
        next => exact hrec h
      next => exact hrec h

/-- Without the same item in the list, nothing is replaced. -/
theorem insert_perm {x : α} : ∀ (l : List α), (∀ y ∈ l, cb.Distinct x y) →
    (cb.insert x l).Perm (x :: l)
  | [], _ => List.Perm.refl _
  | y :: ys, h => by
      have hrec : (y :: cb.insert x ys).Perm (x :: y :: ys) :=
        ((insert_perm ys fun z hz => h z (List.mem_cons_of_mem _ hz)).cons y).trans
          (List.Perm.swap x y ys)
      rw [insert]
      split
      next => exact List.Perm.refl _
      next heq =>
        rw [if_neg (by rw [h y List.mem_cons_self heq]; exact Bool.false_ne_true)]
        exact hrec
      next => exact hrec

/-- **Adding keeps the list in order and without doubles.** -/
theorem insert_pairwise {x : α} : ∀ (l : List α), l.Pairwise cb.Before →
    (cb.insert x l).Pairwise cb.Before
  | [], _ => List.pairwise_singleton _ _
  | y :: ys, h => by
      have := cb.trans_compare
      obtain ⟨hy, hys⟩ := List.pairwise_cons.mp h
      -- past `y`: `x` stands after it
      have hrec : cb.Before y x → (y :: cb.insert x ys).Pairwise cb.Before := by
        intro hyx
        refine List.pairwise_cons.mpr ⟨fun z hz => ?_, insert_pairwise ys hys⟩
        rcases cb.mem_of_mem_insert ys hz with rfl | hz
        · exact hyx
        · exact hy z hz
      rw [insert]
      split
      next hlt =>
        refine List.pairwise_cons.mpr ⟨fun z hz => ?_, h⟩
        have hxz : cb.compare x z = .lt := by
          rcases List.mem_cons.mp hz with rfl | hz
          · exact hlt
          · exact Std.TransCmp.lt_of_lt_of_isLE hlt
              (Ordering.isLE_iff_ne_gt.mpr (hy z hz).1)
        exact ⟨by rw [hxz]; decide, fun heq => absurd (hxz.symm.trans heq) (by decide)⟩
      next heq =>
        split
        next hsame =>
          -- `x` takes the place of `y`
          refine List.pairwise_cons.mpr ⟨fun z hz => ?_, hys⟩
          obtain ⟨hle, hdist⟩ := hy z hz
          have hcongr : cb.compare x z = cb.compare y z := Std.TransCmp.congr_left heq
          refine ⟨by rw [hcongr]; exact hle, fun hxz => ?_⟩
          rw [← Bool.not_eq_true]
          intro hsame'
          have := hdist (hcongr.symm.trans hxz)
          rw [cb.same_trans y x z (cb.same_symm x y hsame) hsame'] at this
          exact absurd this (by simp)
        next hsame =>
          refine hrec ⟨by rw [Std.OrientedCmp.eq_symm heq]; decide, ?_⟩
          exact Distinct.symm fun _ => Bool.not_eq_true _ ▸ hsame
      next hgt =>
        have hlt : cb.compare y x = .lt := Std.OrientedCmp.lt_of_gt hgt
        exact hrec ⟨by rw [hlt]; decide, fun heq => absurd (hlt.symm.trans heq) (by decide)⟩

end Callback

/-! ## §2. Sorted lists. -/

structure SortedList (cb : Callback α) where
  items : List α
  sorted : items.Pairwise cb.Before

namespace SortedList

variable {cb : Callback α}

/-- Sorted lists are told apart by their items. -/
@[ext] theorem ext {l l' : SortedList cb} (h : l.items = l'.items) : l = l' := by
  cases l
  cases l'
  cases h
  rfl

instance : Membership α (SortedList cb) := ⟨fun l x => x ∈ l.items⟩

theorem mem_iff {l : SortedList cb} {x : α} : x ∈ l ↔ x ∈ l.items := Iff.rfl

/-- The list without items. -/
def empty : SortedList cb := ⟨[], List.Pairwise.nil⟩

def add (l : SortedList cb) (x : α) : SortedList cb :=
  ⟨cb.insert x l.items, cb.insert_pairwise l.items l.sorted⟩

/-- One after the other. -/
def addAll (l : SortedList cb) (xs : List α) : SortedList cb := xs.foldl add l

theorem not_mem_empty (x : α) : x ∉ (empty : SortedList cb) := by
  simp [mem_iff, empty]

theorem mem_of_mem_add {l : SortedList cb} {x z : α} (h : z ∈ l.add x) : z = x ∨ z ∈ l :=
  cb.mem_of_mem_insert l.items h

theorem mem_of_mem_addAll {z : α} : ∀ (xs : List α) (l : SortedList cb), z ∈ l.addAll xs →
    z ∈ l ∨ z ∈ xs
  | [], _, h => Or.inl h
  | x :: xs, l, h => by
      rcases mem_of_mem_addAll xs (l.add x) h with h | h
      · rcases mem_of_mem_add h with rfl | h
        · exact Or.inr List.mem_cons_self
        · exact Or.inl h
      · exact Or.inr (List.mem_cons_of_mem _ h)

theorem forall_mem_empty {p : α → Prop} : ∀ x ∈ (empty : SortedList cb), p x :=
  fun x hx => absurd hx (not_mem_empty x)

/-- Everything a list takes in is what it was given. -/
theorem forall_mem_addAll {p : α → Prop} {xs : List α} {l : SortedList cb} (hl : ∀ x ∈ l, p x)
    (h : ∀ x ∈ xs, p x) : ∀ x ∈ l.addAll xs, p x := by
  intro x hx
  rcases mem_of_mem_addAll xs l hx with hx | hx
  · exact hl x hx
  · exact h x hx

/-- A list that is built from nothing. -/
theorem forall_mem_addAll_empty {p : α → Prop} {xs : List α} (h : ∀ x ∈ xs, p x) :
    ∀ x ∈ (empty : SortedList cb).addAll xs, p x := forall_mem_addAll forall_mem_empty h

/-- Items that are pairwise distinct all stay. -/
theorem addAll_perm : ∀ (xs : List α) (l : SortedList cb), xs.Pairwise cb.Distinct →
    (∀ x ∈ xs, ∀ y ∈ l, cb.Distinct x y) → (l.addAll xs).items.Perm (l.items ++ xs)
  | [], l, _, _ => by rw [List.append_nil]; exact List.Perm.refl _
  | x :: xs, l, hxs, hl => by
      obtain ⟨hx, hxs⟩ := List.pairwise_cons.mp hxs
      have hadd : (l.add x).items.Perm (x :: l.items) :=
        cb.insert_perm l.items fun y hy => hl x List.mem_cons_self y hy
      refine (addAll_perm xs (l.add x) hxs fun z hz y hy => ?_).trans ?_
      · rcases mem_of_mem_add hy with rfl | hy
        · exact (hx z hz).symm
        · exact hl z (List.mem_cons_of_mem _ hz) y hy
      · exact (hadd.append_right xs).trans List.perm_middle.symm

/-- **Rebuilding**: adding the items of a list to an empty one gives its
items back. -/
theorem addAll_items_perm (l : SortedList cb) : (empty.addAll l.items : SortedList cb).items.Perm
    l.items := by
  have h := addAll_perm l.items (empty : SortedList cb) (l.sorted.imp fun h => h.2)
    fun _ _ y hy => absurd hy (not_mem_empty y)
  exact h

/-- Two lists with the same items are equal where no two items compare
equal. -/
theorem eq_of_perm {l l' : SortedList cb} (h : l'.items.Perm l.items)
    (hlt : l.items.Pairwise fun a b => cb.compare a b ≠ .eq) : l' = l := by
  have := cb.trans_compare
  have hsymm : Std.Symm fun a b => cb.compare a b ≠ .eq :=
    ⟨fun _ _ hab heq => hab (Std.OrientedCmp.eq_symm heq)⟩
  have hne : ∀ a ∈ l.items, ∀ b ∈ l.items, cb.compare a b = .eq → a = b := by
    intro a ha b hb heq
    by_contra hab
    exact hlt.forall ha hb hab heq
  refine ext (h.eq_of_pairwise (fun a b ha hb hab hba => ?_) l'.sorted l.sorted)
  refine hne a (h.subset ha) b hb ?_
  cases hcmp : cb.compare a b with
  | eq => rfl
  | gt => exact absurd hcmp hab.1
  | lt => exact absurd (Std.OrientedCmp.gt_of_lt hcmp) hba.1

/-- A callback for which items that compare equal are the same keeps no two
of them. -/
theorem pairwise_ne_eq (l : SortedList cb)
    (hcb : ∀ a b, cb.compare a b = .eq → cb.areItemsTheSame a b = true) :
    l.items.Pairwise fun a b => cb.compare a b ≠ .eq :=
  l.sorted.imp fun h heq => absurd ((h.2 heq).symm.trans (hcb _ _ heq)) Bool.false_ne_true

/-- Such a list has no item twice. -/
theorem nodup_items (l : SortedList cb)
    (hcb : ∀ a b, cb.compare a b = .eq → cb.areItemsTheSame a b = true) : l.items.Nodup := by
  have := cb.trans_compare
  refine (l.pairwise_ne_eq hcb).imp fun {a b} hne heq => ?_
  rw [heq] at hne
  exact hne Std.ReflCmp.compare_self

/-- **Such a list is the set of its items.** -/
theorem eq_of_mem_iff {l l' : SortedList cb}
    (hcb : ∀ a b, cb.compare a b = .eq → cb.areItemsTheSame a b = true)
    (h : ∀ x, x ∈ l' ↔ x ∈ l) : l' = l := by
  have hperm : l'.items.Perm l.items :=
    (List.perm_ext_iff_of_nodup (l'.nodup_items hcb) (l.nodup_items hcb)).mpr h
  exact eq_of_perm hperm (l.pairwise_ne_eq hcb)

/-! ## §3. Items that are the same only if equal. -/

section Exact

variable (hsame : ∀ a b, cb.areItemsTheSame a b = true → a = b)
include hsame

theorem mem_add_iff {l : SortedList cb} {x z : α} : z ∈ l.add x ↔ z = x ∨ z ∈ l := by
  refine ⟨mem_of_mem_add, ?_⟩
  show z = x ∨ z ∈ l.items → z ∈ cb.insert x l.items
  generalize l.items = ys
  induction ys with
  | nil => simp [Callback.insert]
  | cons y ys ih =>
      intro h
      have hrec : z ∈ y :: cb.insert x ys := by
        rcases h with h | h
        · exact List.mem_cons_of_mem _ (ih (Or.inl h))
        · rcases List.mem_cons.mp h with rfl | h
          · exact List.mem_cons_self
          · exact List.mem_cons_of_mem _ (ih (Or.inr h))
      rw [Callback.insert]
      split
      next => exact List.mem_cons.mpr h
      next =>
        split
        next hs =>
          -- the item that is replaced is the new one
          rw [hsame x y hs] at h ⊢
          rcases h with rfl | h
          · exact List.mem_cons_self
          · exact h
        next => exact hrec
      next => exact hrec

theorem mem_addAll_iff {z : α} : ∀ (xs : List α) (l : SortedList cb),
    z ∈ l.addAll xs ↔ z ∈ l ∨ z ∈ xs
  | [], l => by simp [addAll]
  | x :: xs, l => by
      show z ∈ (l.add x).addAll xs ↔ _
      rw [mem_addAll_iff xs (l.add x), mem_add_iff hsame, List.mem_cons, or_comm (a := z = x),
        or_assoc]

end Exact

end SortedList

end FoxVpn.Lib
