/-
  FoxVpn.Lib.Base64
  ─────────────────
  **BASE64 WITHOUT PADDING.**

  Three bytes are four digits of six bits; one or two bytes at the end are
  two or three digits.  An alphabet is a list of 64 characters.

  `decode_encode`: what was written in an alphabet with no character twice
  is read back; `mem_encode`: it is written in that alphabet.
  `decode_of_cut`: what is cut short is read as fewer bytes or not at all.
-/
import Mathlib.Data.List.GetD
import Mathlib.Data.List.Infix
import Mathlib.Data.List.Nodup

namespace FoxVpn.Lib.Base64

/-! ## §1. Digits. -/

/-- The digits of bytes. -/
def digits : List UInt8 → List Nat
  | a :: b :: c :: rest =>
      a.toNat / 4 :: (a.toNat % 4 * 16 + b.toNat / 16) :: (b.toNat % 16 * 4 + c.toNat / 64)
        :: c.toNat % 64 :: digits rest
  | [a, b] => [a.toNat / 4, a.toNat % 4 * 16 + b.toNat / 16, b.toNat % 16 * 4]
  | [a] => [a.toNat / 4, a.toNat % 4 * 16]
  | [] => []

/-- The bytes of digits; one digit alone is no byte. -/
def bytes : List Nat → Option (List UInt8)
  | w :: x :: y :: z :: rest =>
      (bytes rest).map fun bs =>
        UInt8.ofNat (w * 4 + x / 16) :: UInt8.ofNat (x % 16 * 16 + y / 4)
          :: UInt8.ofNat (y % 4 * 64 + z) :: bs
  | [w, x, y] => some [UInt8.ofNat (w * 4 + x / 16), UInt8.ofNat (x % 16 * 16 + y / 4)]
  | [w, x] => some [UInt8.ofNat (w * 4 + x / 16)]
  | [_] => none
  | [] => some []

theorem ofNat_of_eq {n : Nat} {b : UInt8} (h : n = b.toNat) : UInt8.ofNat n = b := by
  rw [h, UInt8.ofNat_toNat]

/-- The two bytes and a half that the first digits hold. -/
theorem first_byte (a b : UInt8) :
    UInt8.ofNat (a.toNat / 4 * 4 + (a.toNat % 4 * 16 + b.toNat / 16) / 16) = a := by
  have hb : b.toNat < 256 := b.toNat_lt
  exact ofNat_of_eq (by omega)

theorem second_byte (a b : UInt8) (z : Nat) (hz : z < 4) :
    UInt8.ofNat ((a.toNat % 4 * 16 + b.toNat / 16) % 16 * 16 + (b.toNat % 16 * 4 + z) / 4) = b := by
  have hb : b.toNat < 256 := b.toNat_lt
  exact ofNat_of_eq (by omega)

theorem third_byte (b c : UInt8) :
    UInt8.ofNat ((b.toNat % 16 * 4 + c.toNat / 64) % 4 * 64 + c.toNat % 64) = c := by
  have hc : c.toNat < 256 := c.toNat_lt
  exact ofNat_of_eq (by omega)

theorem bytes_digits : ∀ bs : List UInt8, bytes (digits bs) = some bs
  | [] => rfl
  | [a] => by
      have ha : UInt8.ofNat (a.toNat / 4 * 4 + a.toNat % 4 * 16 / 16) = a :=
        ofNat_of_eq (by omega)
      rw [digits, bytes, ha]
  | [a, b] => by
      rw [digits, bytes, first_byte]
      have hb := second_byte a b 0 (by omega)
      rw [Nat.add_zero] at hb
      rw [hb]
  | a :: b :: c :: rest => by
      have hc : c.toNat < 256 := c.toNat_lt
      rw [digits, bytes, bytes_digits rest, first_byte, second_byte a b _ (by omega), third_byte]
      rfl

/-- Digits that are cut short hold fewer bytes, or are no bytes at all. -/
theorem bytes_take_digits : ∀ (bs : List UInt8) (n : Nat), n < (digits bs).length →
    bytes ((digits bs).take n) = none
      ∨ ∃ k < bs.length, bytes ((digits bs).take n) = some (bs.take k)
  | [], n, h => absurd h (by simp [digits])
  | [a], n, h => by
      rcases n with _ | _ | n
      · exact Or.inr ⟨0, by simp, rfl⟩
      · exact Or.inl rfl
      · exact absurd h (by simp [digits])
  | [a, b], n, h => by
      rcases n with _ | _ | _ | n
      · exact Or.inr ⟨0, by simp, rfl⟩
      · exact Or.inl rfl
      · refine Or.inr ⟨1, by simp, ?_⟩
        show some [UInt8.ofNat _] = some [a]
        rw [first_byte]
      · exact absurd h (by simp [digits])
  | a :: b :: c :: rest, n, h => by
      have hc : c.toNat < 256 := c.toNat_lt
      rcases n with _ | _ | _ | _ | n
      · exact Or.inr ⟨0, by simp, rfl⟩
      · exact Or.inl rfl
      · refine Or.inr ⟨1, by simp, ?_⟩
        show some [UInt8.ofNat _] = some [a]
        rw [first_byte]
      · refine Or.inr ⟨2, by simp, ?_⟩
        show some [UInt8.ofNat _, UInt8.ofNat _] = some [a, b]
        rw [first_byte, second_byte a b _ (by omega)]
      · have hn : n < (digits rest).length := by
          simp only [digits, List.length_cons] at h
          omega
        rw [digits, List.take_succ_cons, List.take_succ_cons, List.take_succ_cons,
          List.take_succ_cons, bytes, first_byte, second_byte a b _ (by omega), third_byte]
        rcases bytes_take_digits rest n hn with hnone | ⟨k, hk, hsome⟩
        · exact Or.inl (by rw [hnone]; rfl)
        · exact Or.inr ⟨k + 3, by simpa using hk, by rw [hsome]; rfl⟩

theorem digits_lt : ∀ (bs : List UInt8), ∀ n ∈ digits bs, n < 64
  | [] => by simp [digits]
  | [a] => by
      have ha : a.toNat < 256 := a.toNat_lt
      simp only [digits, List.forall_mem_cons, List.not_mem_nil, false_implies, implies_true,
        and_true]
      omega
  | [a, b] => by
      have ha : a.toNat < 256 := a.toNat_lt
      have hb : b.toNat < 256 := b.toNat_lt
      simp only [digits, List.forall_mem_cons, List.not_mem_nil, false_implies, implies_true,
        and_true]
      omega
  | a :: b :: c :: rest => by
      have ha : a.toNat < 256 := a.toNat_lt
      have hb : b.toNat < 256 := b.toNat_lt
      have hc : c.toNat < 256 := c.toNat_lt
      rw [digits]
      simp only [List.forall_mem_cons]
      refine ⟨by omega, by omega, by omega, by omega, digits_lt rest⟩

/-- Four digits are three bytes. -/
theorem length_bytes_le : ∀ {ds : List Nat} {bs : List UInt8}, bytes ds = some bs →
    bs.length ≤ ds.length
  | [], bs, h => by
      rw [← Option.some.inj h]
      exact Nat.le_refl 0
  | [_], bs, h => absurd h (by simp [bytes])
  | [w, x], bs, h => by
      rw [← Option.some.inj h]
      simp
  | [w, x, y], bs, h => by
      rw [← Option.some.inj h]
      simp
  | w :: x :: y :: z :: rest, bs, h => by
      rw [bytes] at h
      obtain ⟨cs, hcs, rfl⟩ := Option.map_eq_some_iff.mp h
      have hle := length_bytes_le hcs
      simp only [List.length_cons]
      omega

/-! ## §2. Characters. -/

/-- `A` to `Z`, `a` to `z`, `0` to `9` and two more. -/
def characters (urlSafe : Bool) : List Char :=
  (List.range' 65 26 ++ List.range' 97 26 ++ List.range' 48 10).map Char.ofNat
    ++ if urlSafe then ['-', '_'] else ['+', '/']

variable (alphabet : List Char)

def encode (bs : List UInt8) : List Char := (digits bs).map fun n => alphabet.getD n '='

def decode (s : List Char) : Option (List UInt8) :=
  if s.all alphabet.contains then bytes (s.map alphabet.idxOf) else none

theorem length_decode_le {s : List Char} {bs : List UInt8} (h : decode alphabet s = some bs) :
    bs.length ≤ s.length := by
  unfold decode at h
  split at h
  next => exact (length_bytes_le h).trans (Nat.le_of_eq (List.length_map _))
  next => exact absurd h (by simp)

variable {alphabet} (hlen : alphabet.length = 64)

include hlen

theorem mem_encode {bs : List UInt8} {c : Char} (h : c ∈ encode alphabet bs) : c ∈ alphabet := by
  obtain ⟨n, hn, rfl⟩ := List.mem_map.mp h
  have hlt := digits_lt bs n hn
  rw [List.getD_eq_getElem _ _ (by omega)]
  exact List.getElem_mem _

theorem map_idxOf_encode (hnd : alphabet.Nodup) (bs : List UInt8) :
    (encode alphabet bs).map alphabet.idxOf = digits bs := by
  rw [encode, List.map_map]
  refine (List.map_congr_left fun n hn => ?_).trans (List.map_id _)
  have hlt := digits_lt bs n hn
  show alphabet.idxOf (alphabet.getD n '=') = n
  rw [List.getD_eq_getElem _ _ (by omega)]
  exact hnd.idxOf_getElem n _

theorem decode_encode (hnd : alphabet.Nodup) (bs : List UInt8) :
    decode alphabet (encode alphabet bs) = some bs := by
  have hall : (encode alphabet bs).all alphabet.contains = true := by
    rw [List.all_eq_true]
    intro c hc
    exact List.contains_iff_mem.mpr (mem_encode hlen hc)
  rw [decode, if_pos hall, map_idxOf_encode hlen hnd, bytes_digits]

/-- **A text that is cut short** gives fewer bytes, or none. -/
theorem decode_of_cut (hnd : alphabet.Nodup) {bs : List UInt8} {s : List Char}
    (hs : s <+: encode alphabet bs) (hcut : s ≠ encode alphabet bs) :
    decode alphabet s = none ∨ ∃ k < bs.length, decode alphabet s = some (bs.take k) := by
  have htake : s = (encode alphabet bs).take s.length := List.prefix_iff_eq_take.mp hs
  have hall : s.all alphabet.contains = true := by
    rw [List.all_eq_true]
    intro c hc
    exact List.contains_iff_mem.mpr (mem_encode hlen (hs.subset hc))
  have hlt : s.length < (digits bs).length := by
    have hle := hs.length_le
    have hne : s.length ≠ (encode alphabet bs).length := fun h => hcut (hs.eq_of_length h)
    rw [encode, List.length_map] at hle hne
    omega
  have hdigits : s.map alphabet.idxOf = (digits bs).take s.length := by
    rw [← map_idxOf_encode hlen hnd, ← List.map_take, ← htake]
  rw [decode, if_pos hall, hdigits]
  exact bytes_take_digits bs s.length hlt

end FoxVpn.Lib.Base64
