/-
  FoxVpn.Acl.SubnetOrder
  ──────────────────────
  **THE ORDER OF SUBNETS, AND THE LIST IT SORTS.**

  `compareTo` returns a number.  It compares the sizes of the addresses, then
  goes through their bytes, which are SIGNED and are cut back to eight bits
  first, and ends with the prefix sizes:

      IPv4 before IPv6 · the address as a number · prefixSize

  `compareToInt` is this loop, with the index that may run out of the other
  address.  `compareToInt_eq`: it never does, and the number it returns is
  the sign of `compareTo` in the model of subnets.

  `Acl.subnets` is filled by binary search with this number.  Main result
  `subnet_order`: the number orders the subnets totally, it is 0 for equal
  ones and for no others, and what the list contains depends on which
  subnets were added and on nothing else.
-/
import FoxVpn.Lib.BinarySearch
import FoxVpn.Lib.Bits
import FoxVpn.Acl.Acl

namespace FoxVpn.Net

open FoxVpn.Lib

/-! ## §1. `compareTo` and `equals`. -/

/-- `Int.compareTo`. -/
def compareInt (a b : Int) : Int := if a < b then -1 else if a = b then 0 else 1

/-- `unsigned()`: the byte as an `Int`, without its sign extension. -/
def unsigned (x : UInt8) : BitVec 32 := x.toBitVec.signExtend 32 &&& 0xFF#32

/-- The loop over the indices of the address, which ends with 0 or returns;
`none` is the ArrayIndexOutOfBoundsException. -/
def compareBytes (addrThis addrThat : List UInt8) : List Nat → Option Int
  | [] => some 0
  | i :: indices =>
      match addrThis[i]?, addrThat[i]? with
      | some x, some y =>
          let result := compareInt (unsigned x).toInt (unsigned y).toInt
          if result ≠ 0 then some result else compareBytes addrThis addrThat indices
      | _, _ => none

namespace Subnet

variable {α : Type} [InetAddress α]

/-- `address.address`. -/
def bytes (s : Subnet α) : List UInt8 := InetAddress.address s.address

/-- `compareTo(other)`, as a number. -/
def compareToInt (s other : Subnet α) : Option Int :=
  let result := compareInt s.bytes.length other.bytes.length
  if result ≠ 0 then some result
  else
    (compareBytes s.bytes other.bytes (List.range s.bytes.length)).map fun result =>
      if result ≠ 0 then result else compareInt s.prefixSize other.prefixSize

/-- `equals(other)`. -/
def equals [DecidableEq α] (s other : Subnet α) : Bool :=
  decide (s.address = other.address) && s.prefixSize == other.prefixSize

end Subnet

/-! ## §2. The loop. -/

theorem compareInt_natCast (m n : Nat) : compareInt m n = signum (compare m n) := by
  unfold compareInt
  rcases Nat.lt_trichotomy m n with h | h | h
  · rw [if_pos (by omega), Nat.compare_eq_lt.mpr h]
    rfl
  · rw [if_neg (by omega), if_pos (by omega), Nat.compare_eq_eq.mpr h]
    rfl
  · rw [if_neg (by omega), if_neg (by omega), Nat.compare_eq_gt.mpr h]
    rfl

/-- What the mask leaves is the byte as it is meant. -/
theorem toInt_unsigned (x : UInt8) : (unsigned x).toInt = x.toNat := by
  have hall : ∀ n < 256, (unsigned (UInt8.ofNat n)).toInt = n := by decide +kernel
  have hx := hall x.toNat x.toNat_lt
  rwa [UInt8.ofNat_toNat] at hx

/-- **The loop, from any byte on**: no index is out of range, and the result
is the order of what is left of the addresses. -/
theorem compareBytes_eq {a b : List UInt8} (hlen : a.length = b.length) (n i : Nat)
    (hi : i + n = a.length) :
    compareBytes a b (List.range' i n) = some (signum (compare (a.drop i) (b.drop i))) := by
  induction n generalizing i with
  | zero =>
      rw [List.drop_of_length_le (by omega), List.drop_of_length_le (by omega)]
      rfl
  | succ n ih =>
      have ha : i < a.length := by omega
      have hb : i < b.length := by omega
      rw [List.range'_succ, compareBytes, List.getElem?_eq_getElem ha,
        List.getElem?_eq_getElem hb, List.drop_eq_getElem_cons ha, List.drop_eq_getElem_cons hb,
        List.compare_cons_cons, signum_then]
      dsimp only
      rw [toInt_unsigned, toInt_unsigned, compareInt_natCast, Bits.compare_toNat]
      by_cases hbyte : signum (compare a[i] b[i]) ≠ 0
      · rw [if_pos hbyte, if_pos hbyte]
      · rw [if_neg hbyte, if_neg hbyte]
        exact ih (i + 1) (by omega)

namespace Subnet

variable {α : Type} [InetAddress α]

/-- **`compareTo` returns**, and what it returns is the sign of the order by
size, bytes and prefix size. -/
theorem compareToInt_eq (s t : Subnet α) : s.compareToInt t = some (signum (s.compareTo t)) := by
  have horder : s.compareTo t
      = (compare s.bytes.length t.bytes.length).then
        ((compare s.bytes t.bytes).then (compare s.prefixSize t.prefixSize)) := rfl
  unfold compareToInt
  dsimp only
  rw [horder, signum_then, compareInt_natCast, compareInt_natCast]
  by_cases hsize : signum (compare s.bytes.length t.bytes.length) ≠ 0
  · rw [if_pos hsize, if_pos hsize]
  · -- of one size: the loop stays inside both addresses
    have hlen : s.bytes.length = t.bytes.length :=
      Nat.compare_eq_eq.mp (signum_eq_zero.mp (not_not.mp hsize))
    have hloop := compareBytes_eq hlen s.bytes.length 0 (Nat.zero_add _)
    rw [List.drop_zero, List.drop_zero] at hloop
    rw [if_neg hsize, if_neg hsize, List.range_eq_range', hloop, signum_then]
    rfl

theorem equals_iff [DecidableEq α] (s t : Subnet α) : s.equals t = true ↔ s = t := by
  unfold equals
  rw [Bool.and_eq_true, decide_eq_true_eq, beq_iff_eq]
  exact ⟨fun h => ext h.1 h.2, fun h => h ▸ ⟨rfl, rfl⟩⟩

/-! ## §3. A total order. -/

/-- **What `compareTo` has to be**, as a number. -/
structure TotalOrder [DecidableEq α] (cmp : Subnet α → Subnet α → Int) : Prop where
  antisymmetric : ∀ a b, (cmp a b).sign = -(cmp b a).sign
  transitive : ∀ a b c, cmp a b ≤ 0 → cmp b c ≤ 0 → cmp a c ≤ 0
  equals : ∀ a b, cmp a b = 0 ↔ a.equals b = true
  /-- IPv4 before IPv6. -/
  family : ∀ a b : Subnet α, a.bytes.length = 4 → b.bytes.length = 16 → cmp a b < 0
  /-- Within a family: the addresses as numbers, then the prefix sizes. -/
  number : ∀ a b : Subnet α, a.bytes.length = b.bytes.length →
    (cmp a b < 0 ↔ Bits.value a.bytes < Bits.value b.bytes
      ∨ (Bits.value a.bytes = Bits.value b.bytes ∧ a.prefixSize < b.prefixSize))

theorem totalOrder_compareTo [DecidableEq α] :
    TotalOrder fun a b : Subnet α => signum (a.compareTo b) where
  antisymmetric a b := by
    have hswap : b.compareTo a = (a.compareTo b).swap := Std.OrientedCmp.eq_swap
    rw [hswap]
    exact sign_signum_swap _
  transitive a b c hab hbc := by
    rw [signum_le_zero] at hab hbc ⊢
    exact Std.TransCmp.isLE_trans hab hbc
  equals a b := by rw [signum_eq_zero, compareTo_eq_iff, equals_iff]
  family a b ha hb := by
    rw [signum_lt_zero]
    show (compare a.bytes.length b.bytes.length).then _ = .lt
    rw [Nat.compare_eq_lt.mpr (by omega)]
    rfl
  number a b hlen := by
    rw [signum_lt_zero]
    show (compare a.bytes.length b.bytes.length).then
      ((compare a.bytes b.bytes).then (compare a.prefixSize b.prefixSize)) = .lt ↔ _
    -- the sizes decide nothing, and the bytes are the digits of the number
    rw [Nat.compare_eq_eq.mpr hlen, Ordering.eq_then, ← Bits.compare_value hlen,
      Ordering.then_eq_lt, Nat.compare_eq_lt, Nat.compare_eq_eq, Nat.compare_eq_lt]

end Subnet

end FoxVpn.Net

/-! ## §4. `Acl.subnets`. -/

namespace FoxVpn.Acl

open FoxVpn.Lib FoxVpn.Net

/-- `BaseSorter.compare`: null goes last. -/
def BaseSorter.compare {T : Type} (compareNonNull : T → T → Option Int) :
    Option T → Option T → Option Int
  | none, none => some 0
  | none, some _ => some 1
  | some _, none => some (-1)
  | some o1, some o2 => compareNonNull o1 o2

variable {α : Type} [InetAddress α] [DecidableEq α]

/-- The subnets of an ACL after these have been added, one after the other,
to none. -/
def addSubnets (cmp : Subnet α → Subnet α → Int) (added : List (Subnet α)) : List (Subnet α) :=
  added.foldl (fun subnets item => BinarySearch.add cmp item subnets) []

/-- **The list is what was added**: every subnet once, in an order that the
order of the additions has no part in. -/
structure Canonical (cmp : Subnet α → Subnet α → Int) : Prop where
  mem : ∀ added s, s ∈ addSubnets cmp added ↔ s ∈ added
  nodup : ∀ added, (addSubnets cmp added).Nodup
  order : ∀ added added', (∀ s, s ∈ added ↔ s ∈ added') →
    addSubnets cmp added = addSubnets cmp added'

/-- The list filled by binary search is the sorted list of the model. -/
theorem addSubnets_eq (added : List (Subnet α)) :
    addSubnets (fun a b => signum (a.compareTo b)) added
      = (SortedList.empty.addAll added : SortedList (SubnetSorter α)).items :=
  BinarySearch.foldl_add_eq (fun _ _ => rfl) subnetSorter_of_eq added SortedList.empty

theorem mem_addSubnets (added : List (Subnet α)) (s : Subnet α) :
    s ∈ addSubnets (fun a b => signum (a.compareTo b)) added ↔ s ∈ added := by
  rw [addSubnets_eq, ← SortedList.mem_iff, SortedList.mem_addAll_iff fun a b => of_decide_eq_true]
  exact or_iff_right (SortedList.not_mem_empty s)

theorem nodup_addSubnets (added : List (Subnet α)) :
    (addSubnets (fun a b => signum (a.compareTo b)) added).Nodup := by
  rw [addSubnets_eq]
  exact SortedList.nodup_items _ subnetSorter_of_eq

theorem canonical_addSubnets : Canonical fun a b : Subnet α => signum (a.compareTo b) where
  mem := mem_addSubnets
  nodup := nodup_addSubnets
  order added added' h := by
    have hmem : ∀ s, s ∈ addSubnets (fun a b => signum (a.compareTo b)) added
        ↔ s ∈ addSubnets (fun a b => signum (a.compareTo b)) added' := by
      intro s
      rw [mem_addSubnets, mem_addSubnets, h s]
    -- two sorted lists with the same items, no two of which compare equal
    rw [addSubnets_eq, addSubnets_eq] at hmem ⊢
    rw [SortedList.eq_of_mem_iff subnetSorter_of_eq hmem]

/-- **`compareTo` NEVER THROWS AND IS A TOTAL ORDER CONSISTENT WITH `equals`**,
and a list of subnets filled by binary search on it has every subnet once,
whatever the order they came in. -/
theorem subnet_order (α : Type) [InetAddress α] [DecidableEq α] :
    ∃ cmp : Subnet α → Subnet α → Int,
      (∀ a b, BaseSorter.compare Subnet.compareToInt (some a) (some b) = some (cmp a b)
        ∧ a.compareToInt b = some (cmp a b))
      ∧ Subnet.TotalOrder cmp ∧ Canonical cmp
      ∧ ∀ added, addSubnets cmp added
        = (SortedList.empty.addAll added : SortedList (SubnetSorter α)).items := by
  refine ⟨fun a b => signum (a.compareTo b), fun a b => ⟨?_, Subnet.compareToInt_eq a b⟩,
    Subnet.totalOrder_compareTo, canonical_addSubnets, addSubnets_eq⟩
  exact Subnet.compareToInt_eq a b

end FoxVpn.Acl
