/-
  FoxVpn.Net.Subnet
  ─────────────────
  **SUBNETS AND THEIR TEXT.**

  `Subnet.fromString` reads `address` or `address/prefixSize`,
  `Subnet.toString` prints the prefix size unless it is the whole address,
  `compareTo` orders by family, address and prefix size.

  Text is what the platform's strings are: UTF-16 code units, lone
  surrogates included.  `java.net.InetAddress` is a class with its
  documented behaviour; everything else is computed.

      fromString (toString s) = s        `fromString_toString`
      compareTo a b = 0  ↔  a = b        `compareTo_eq_iff`
-/
import Mathlib.Algebra.Ring.Nat
import FoxVpn.Lib.Text
import FoxVpn.Lib.SortedList

namespace FoxVpn.Net

open FoxVpn.Lib

/-! ## §1. Strings. -/

/-- A string of the platform. -/
abbrev Text := List UInt16

/-- A literal; the ones here are ASCII. -/
def text (s : String) : Text := s.toList.map fun c => c.toNat.toUInt16

def lf : UInt16 := 10
def cr : UInt16 := 13
def hash : UInt16 := 35
def slash : UInt16 := 47
def bracket : UInt16 := 91

/-- `Char.isWhitespace`: the separators, and the controls Java counts as
white space. -/
def isWhitespace (c : UInt16) : Bool :=
  (9 ≤ c && c ≤ 13) || (28 ≤ c && c ≤ 32) || c == 0xA0 || c == 0x1680
    || (0x2000 ≤ c && c ≤ 0x200A) || c == 0x2028 || c == 0x2029 || c == 0x202F || c == 0x205F
    || c == 0x3000

/-- The zeros of the decimal digits of the basic plane. -/
def zeros : List UInt16 :=
  [0x0030, 0x0660, 0x06F0, 0x07C0, 0x0966, 0x09E6, 0x0A66, 0x0AE6, 0x0B66, 0x0BE6, 0x0C66, 0x0CE6,
    0x0D66, 0x0DE6, 0x0E50, 0x0ED0, 0x0F20, 0x1040, 0x1090, 0x17E0, 0x1810, 0x1946, 0x19D0, 0x1A80,
    0x1A90, 0x1B50, 0x1BB0, 0x1C40, 0x1C50, 0xA620, 0xA8D0, 0xA900, 0xA9D0, 0xA9F0, 0xAA50, 0xABF0,
    0xFF10]

/-- `Character.digit(c, 10)`. -/
def digit (c : UInt16) : Option Nat :=
  (zeros.find? fun z => z ≤ c && c.toNat < z.toNat + 10).map fun z => c.toNat - z.toNat

/-- The value of a run of digits that is not empty. -/
def digits : Text → Option Nat
  | [] => none
  | c :: cs => (c :: cs).foldlM (fun n c => (digit c).map (n * 10 + ·)) 0

/-- `String.toInt()`; `none` is the NumberFormatException. -/
def toInt : Text → Option Int
  | [] => none
  | c :: cs =>
      if c = 45 then (digits cs).bind fun n => if n ≤ 2147483648 then some (-n) else none
      else (digits (if c = 43 then cs else c :: cs)).bind fun n =>
        if n ≤ 2147483647 then some n else none

/-- `Int.toString()` of a number that is not negative. -/
def decimal (n : Nat) : Text := (Nat.toDigits 10 n).map fun c => c.toNat.toUInt16

theorem exists_of_isDigit {c : Char} (h : c.isDigit = true) : ∃ k < 10, c.toNat = 48 + k := by
  have hrange : 48 ≤ c.toNat ∧ c.toNat ≤ 57 := Char.isDigit_iff_toNat.mp h
  exact ⟨c.toNat - 48, by omega, by omega⟩

theorem digit_lt {c : UInt16} {d : Nat} (h : digit c = some d) : d < 10 := by
  obtain ⟨z, hz, rfl⟩ := Option.map_eq_some_iff.mp h
  have hrange := List.find?_some hz
  rw [Bool.and_eq_true, decide_eq_true_eq, decide_eq_true_eq] at hrange
  omega

/-- Half of a character outside the basic plane is no digit. -/
theorem digit_surrogate {c : UInt16} (hle : 0xD800 ≤ c.toNat) (hlt : c.toNat < 0xE000) :
    digit c = none := by
  have hzeros : (zeros.all fun z => z.toNat + 10 ≤ 0xD800 ∨ 0xE000 ≤ z.toNat) = true := by decide
  rw [digit, Option.map_eq_none_iff, List.find?_eq_none]
  intro z hz hrange
  rw [Bool.and_eq_true, decide_eq_true_eq, decide_eq_true_eq, UInt16.le_iff_toNat_le] at hrange
  rcases of_decide_eq_true (List.all_eq_true.mp hzeros z hz) with h | h
  · omega
  · omega

/-- A run of digits denotes a number with no more digits, and each of its
code units is one. -/
theorem digits_eq_some {t : Text} {n : Nat} (h : digits t = some n) :
    t ≠ [] ∧ n < 10 ^ t.length ∧ ∀ c ∈ t, digit c ≠ none := by
  have hfold : ∀ (t : Text) (m n : Nat),
      t.foldlM (fun n c => (digit c).map (n * 10 + ·)) m = some n →
        n < 10 ^ t.length * (m + 1) ∧ ∀ c ∈ t, digit c ≠ none := by
    intro t
    induction t with
    | nil =>
        intro m n hn
        rw [← Option.some.inj hn]
        exact ⟨by simp, fun c hc => absurd hc List.not_mem_nil⟩
    | cons c t ih =>
        intro m n hn
        rw [List.foldlM_cons] at hn
        obtain ⟨k, hk, hn⟩ := Option.bind_eq_some_iff.mp hn
        obtain ⟨d, hd, rfl⟩ := Option.map_eq_some_iff.mp hk
        obtain ⟨hlt, hrest⟩ := ih _ _ hn
        have hten := digit_lt hd
        refine ⟨?_, List.forall_mem_cons.mpr ⟨by simp [hd], hrest⟩⟩
        -- the digit is below 10, so the bound of the rest covers it
        rw [List.length_cons, Nat.pow_succ, Nat.mul_assoc]
        exact hlt.trans_le (Nat.mul_le_mul_left _ (by omega))
  cases t with
  | nil => exact absurd h (by simp [digits])
  | cons c t =>
      obtain ⟨hlt, hall⟩ := hfold (c :: t) 0 n h
      exact ⟨by simp, by simpa using hlt, hall⟩

/-- The ASCII digits. -/
theorem digit_of_isDigit {c : Char} (h : c.isDigit = true) :
    digit c.toNat.toUInt16 = some (c.toNat - '0'.toNat) := by
  have hten : ∀ k < 10, digit (48 + k).toUInt16 = some k := by decide
  obtain ⟨k, hlt, hk⟩ := exists_of_isDigit h
  rw [hk, hten k hlt]
  show some k = some (48 + k - 48)
  rw [Nat.add_sub_cancel_left]

/-- A run of ASCII digits is read as the number it denotes. -/
theorem digits_of_isDigit {cs : List Char} (hne : cs ≠ []) (hcs : ∀ c ∈ cs, c.isDigit = true) :
    digits (cs.map fun c => c.toNat.toUInt16) = some (Nat.ofDigitChars 10 cs 0) := by
  have hfold : ∀ (cs : List Char) (m : Nat), (∀ c ∈ cs, c.isDigit = true) →
      (cs.map fun c => c.toNat.toUInt16).foldlM (fun n c => (digit c).map (n * 10 + ·)) m
        = some (Nat.ofDigitChars 10 cs m) := by
    intro cs
    induction cs with
    | nil => exact fun m _ => rfl
    | cons c cs ih =>
        intro m hcs
        obtain ⟨hc, hcs⟩ := List.forall_mem_cons.mp hcs
        rw [List.map_cons, List.foldlM_cons, digit_of_isDigit hc, Nat.ofDigitChars_cons,
          Nat.mul_comm 10 m]
        exact ih _ hcs
  cases cs with
  | nil => exact absurd rfl hne
  | cons c cs => exact hfold (c :: cs) 0 hcs

/-- No sign is taken for one of them. -/
theorem toInt_of_isDigit {cs : List Char} (hne : cs ≠ []) (hcs : ∀ c ∈ cs, c.isDigit = true) :
    toInt (cs.map fun c => c.toNat.toUInt16)
      = if Nat.ofDigitChars 10 cs 0 ≤ 2147483647 then some (Nat.ofDigitChars 10 cs 0 : Int)
        else none := by
  have hread := digits_of_isDigit hne hcs
  cases cs with
  | nil => exact absurd rfl hne
  | cons c cs =>
      -- a digit is no sign
      have hc := digit_of_isDigit (hcs c List.mem_cons_self)
      have hsign : digit 45 = none ∧ digit 43 = none := by decide
      have hminus : c.toNat.toUInt16 ≠ 45 := by
        intro h
        rw [h, hsign.1] at hc
        cases hc
      have hplus : c.toNat.toUInt16 ≠ 43 := by
        intro h
        rw [h, hsign.2] at hc
        cases hc
      rw [List.map_cons] at hread ⊢
      rw [toInt, if_neg hminus, if_neg hplus, hread]
      rfl

section Decimal

variable (n : Nat)

theorem isDigit_of_mem_toDigits : ∀ c ∈ Nat.toDigits 10 n, c.isDigit = true := fun _ hc =>
  Nat.isDigit_of_mem_toDigits (by decide) (by decide) hc

theorem ofDigitChars_toDigits : Nat.ofDigitChars 10 (Nat.toDigits 10 n) 0 = n :=
  Nat.ofDigitChars_toDigits (by decide) (by decide)

/-- A number is read as it is printed. -/
theorem digits_decimal : digits (decimal n) = some n := by
  rw [decimal, digits_of_isDigit Nat.toDigits_ne_nil (isDigit_of_mem_toDigits n),
    ofDigitChars_toDigits]

theorem toInt_decimal :
    toInt (decimal n) = if n ≤ 2147483647 then some (n : Int) else none := by
  rw [decimal, toInt_of_isDigit Nat.toDigits_ne_nil (isDigit_of_mem_toDigits n),
    ofDigitChars_toDigits]

/-- And with a sign in front of it. -/
theorem toInt_neg_decimal :
    toInt (45 :: decimal n) = if n ≤ 2147483648 then some (-n : Int) else none := by
  rw [toInt, if_pos rfl, digits_decimal]
  rfl

end Decimal

/-- A character that means nothing to the readers of rules. -/
def Plain (c : UInt16) : Prop :=
  c ≠ hash ∧ c ≠ slash ∧ c ≠ bracket ∧ isWhitespace c = false

instance (c : UInt16) : Decidable (Plain c) := inferInstanceAs (Decidable (_ ∧ _))

/-- A text is plain if the check of each character succeeds. -/
theorem plain_of_all {t : Text} (h : (t.all fun c => decide (Plain c)) = true) :
    ∀ c ∈ t, Plain c := fun c hc => of_decide_eq_true (List.all_eq_true.mp h c hc)

theorem decimal_plain (n : Nat) : ∀ c ∈ decimal n, Plain c := by
  have hten : ∀ k < 10, Plain (48 + k).toUInt16 := by decide
  intro c hc
  obtain ⟨d, hd, rfl⟩ := List.mem_map.mp hc
  obtain ⟨k, hlt, hk⟩ := exists_of_isDigit
    (Nat.isDigit_of_mem_toDigits (by decide) (by decide) hd)
  rw [hk]
  exact hten k hlt

/-! ## §2. Addresses. -/

/-- `java.net.InetAddress` as the code uses it, up to `equals`. -/
class InetAddress (α : Type) where
  /-- `getAddress()`. -/
  address : α → List UInt8
  hostAddress : α → Text
  parseNumericAddress : Text → Option α
  /-- An address is of IPv4 or of IPv6, and equal to any other with its
  bytes. -/
  address_size : ∀ a, (address a).length = 4 ∨ (address a).length = 16
  address_injective : Function.Injective address
  /-- The textual form is parsed to the address it was made for. -/
  parse_hostAddress : ∀ s a, parseNumericAddress s = some a →
    parseNumericAddress (hostAddress a) = some a
  /-- It consists of digits, letters, colons, dots and a percent sign. -/
  hostAddress_plain : ∀ a, ∀ c ∈ hostAddress a, Plain c
  parse_nil : parseNumericAddress [] = none

open InetAddress

/-- A subnet: the prefix fits the address. -/
structure Subnet (α : Type) [InetAddress α] where
  address : α
  prefixSize : Nat
  prefixSize_le : prefixSize ≤ (InetAddress.address address).length * 8

namespace Subnet

variable {α : Type} [InetAddress α]

/-- Two subnets with the same address and prefix size are equal. -/
@[ext] theorem ext {s t : Subnet α} (ha : s.address = t.address)
    (hp : s.prefixSize = t.prefixSize) : s = t := by
  cases s
  cases t
  cases ha
  cases hp
  rfl

instance [DecidableEq α] : DecidableEq (Subnet α) := fun s t =>
  decidable_of_iff (s.address = t.address ∧ s.prefixSize = t.prefixSize)
    ⟨fun h => ext h.1 h.2, fun h => h ▸ ⟨rfl, rfl⟩⟩

def addressLength (s : Subnet α) : Nat := (InetAddress.address s.address).length * 8

/-- `Subnet(addr, prefixSize)` for a prefix size in range. -/
def ofPrefix (addr : α) (prefixSize : Int) : Option (Subnet α) :=
  if h : prefixSize < 0 ∨ prefixSize > (InetAddress.address addr).length * 8 then none
  else some ⟨addr, prefixSize.toNat, by omega⟩

/-- `Subnet.fromString(value)`. -/
def fromString (value : Text) : Option (Subnet α) :=
  match parseNumericAddress (splitFirst slash value).1 with
  | none => none
  | some addr =>
      match (splitFirst slash value).2 with
      | none => some ⟨addr, (InetAddress.address addr).length * 8, le_refl _⟩
      | some size => (toInt size).bind (ofPrefix addr)

def toString (s : Subnet α) : Text :=
  if s.prefixSize = s.addressLength then hostAddress s.address
  else hostAddress s.address ++ slash :: decimal s.prefixSize

theorem prefixSize_le_128 (s : Subnet α) : s.prefixSize ≤ 128 := by
  have h := s.prefixSize_le
  rcases address_size s.address with h4 | h16
  · omega
  · omega

/-- What is read comes from an address that parses. -/
theorem address_of_fromString {value : Text} {s : Subnet α} (h : fromString value = some s) :
    ∃ t, parseNumericAddress t = some s.address := by
  unfold fromString at h
  split at h
  next => exact absurd h (by simp)
  next addr haddr =>
    refine ⟨_, haddr.trans ?_⟩
    split at h
    next => rw [← Option.some.inj h]
    next =>
      obtain ⟨n, _, hn⟩ := Option.bind_eq_some_iff.mp h
      unfold ofPrefix at hn
      split at hn
      next => exact absurd hn (by simp)
      next => rw [← Option.some.inj hn]

theorem slash_not_mem (a : α) : slash ∉ hostAddress a := fun h =>
  (hostAddress_plain a slash h).2.1 rfl

/-- **A printed subnet is read back.** -/
theorem fromString_toString {s : Subnet α} (hs : ∃ t, parseNumericAddress t = some s.address) :
    fromString s.toString = some s := by
  obtain ⟨t, ht⟩ := hs
  have hparse := parse_hostAddress t s.address ht
  unfold toString fromString
  by_cases hfull : s.prefixSize = s.addressLength
  · rw [if_pos hfull, splitFirst_of_not_mem slash _ (slash_not_mem s.address)]
    simp only [hparse]
    exact congrArg some (ext rfl hfull.symm)
  · rw [if_neg hfull, splitFirst_append slash _ _ (slash_not_mem s.address)]
    have hsmall := s.prefixSize_le_128
    simp only [hparse, toInt_decimal, if_pos (show s.prefixSize ≤ 2147483647 by omega),
      Option.bind_some]
    have hle := s.prefixSize_le
    unfold ofPrefix
    rw [dif_neg (by omega)]
    exact congrArg some (ext rfl (Int.toNat_natCast _))

/-- Every character of a printed subnet is a slash or plain. -/
theorem mem_toString {s : Subnet α} {c : UInt16} (h : c ∈ s.toString) : c = slash ∨ Plain c := by
  unfold toString at h
  split at h
  next => exact Or.inr (hostAddress_plain _ c h)
  next =>
    rcases List.mem_append.mp h with h | h
    · exact Or.inr (hostAddress_plain _ c h)
    · rcases List.mem_cons.mp h with h | h
      · exact Or.inl h
      · right
        exact decimal_plain s.prefixSize c h

/-! ## §3. The order. -/

/-- `compareTo`: by the size of the address, its bytes, the prefix size. -/
def compareTo : Subnet α → Subnet α → Ordering :=
  compareLex (compareOn fun s => (InetAddress.address s.address).length)
    (compareLex (compareOn fun s => InetAddress.address s.address)
      (compareOn fun s => s.prefixSize))

instance : Std.TransCmp (compareTo (α := α)) := by
  unfold compareTo
  infer_instance

theorem compareTo_eq_iff {s t : Subnet α} : compareTo s t = .eq ↔ s = t := by
  constructor
  · intro h
    simp only [compareTo, compareLex, compareOn, Ordering.then_eq_eq] at h
    obtain ⟨_, haddr, hsize⟩ := h
    exact ext (address_injective (Std.LawfulEqCmp.eq_of_compare haddr))
      (Std.LawfulEqCmp.eq_of_compare hsize)
  · rintro rfl
    exact Std.ReflCmp.compare_self

end Subnet

end FoxVpn.Net
