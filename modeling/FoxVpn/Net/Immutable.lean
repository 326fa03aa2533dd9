/-
  FoxVpn.Net.Immutable
  ────────────────────
  **DOES AN ADDRESS LIE IN A SUBNET?  `Subnet.Immutable`.**

  `toImmutable` clears the host bits of a copy of the address, `matches`
  compares the whole bytes of the prefix and then one masked byte.  Bytes are
  signed: a byte is sign-extended, masked as an `Int` and cut back.

      every index is in range, and
      s.toImmutable().matches(b)  ↔  b has the length of the address and its
                                     first prefixSize bits    `matches_iff`
-/
import FoxVpn.Lib.Bits
import FoxVpn.Net.Subnet

namespace FoxVpn.Net

open FoxVpn.Lib

/-! ## §1. `toImmutable` and `matches`. -/

/-- `(x.toInt() and -(1 shl n)).toByte()`; of the shift count the lowest
five bits are used. -/
def maskByte (x : UInt8) (n : Int) : UInt8 :=
  UInt8.ofBitVec ((x.toBitVec.signExtend 32 &&& -(1#32 <<< (n % 32).toNat)).setWidth 8)

/-- `it[i] = x`; `none` is the ArrayIndexOutOfBoundsException. -/
def setByte (it : List UInt8) (i : Nat) (x : UInt8) : Option (List UInt8) :=
  if i < it.length then some (it.set i x) else none

namespace Subnet

/-- `Subnet.Immutable`. -/
structure Immutable where
  a : List UInt8
  prefixSize : Nat := 0
  deriving Repr, DecidableEq

variable {α : Type} [InetAddress α]

/-- `toImmutable()`; `none` is an index out of range. -/
def toImmutable (s : Subnet α) : Option Immutable := do
  let it := InetAddress.address s.address
  let i := s.prefixSize / 8
  let (it, i) ←
    if s.prefixSize % 8 > 0 then do
      let x ← it[i]?
      let it ← setByte it i (maskByte x (i * 8 + 8 - s.prefixSize))
      pure (it, i + 1)
    else pure (it, i)
  -- while (i < it.size) it[i++] = 0
  let it ← (List.range' i (it.length - i)).foldlM (fun it i => setByte it i 0) it
  pure ⟨it, s.prefixSize⟩

namespace Immutable

/-- The loop of `matches` and what follows it. -/
def matchesFrom (im : Immutable) (b : List UInt8) (i : Nat) : Option Bool :=
  if i * 8 < im.prefixSize ∧ i * 8 + 8 ≤ im.prefixSize then
    match im.a[i]?, b[i]? with
    | some x, some y => if x ≠ y then some false else matchesFrom im b (i + 1)
    | _, _ => none
  else if i * 8 = im.prefixSize then some true
  else
    match im.a[i]?, b[i]? with
    | some x, some y => some (x == maskByte y (i * 8 + 8 - im.prefixSize))
    | _, _ => none
termination_by im.prefixSize - i * 8

/-- `matches(b)`; `none` is an index out of range. -/
def matchesBytes (im : Immutable) (b : List UInt8) : Option Bool :=
  if im.a.length ≠ b.length then some false else im.matchesFrom b 0

/-! ## §2. The mask. -/

/-- Clearing the last bits of a byte. -/
theorem toNat_maskByte (x : UInt8) {k : Nat} (hk : k < 8) :
    (maskByte x k).toNat = x.toNat / 2 ^ k * 2 ^ k := by
  have hall : ∀ k : Nat, k < 8 → ∀ n < 256,
      (maskByte (UInt8.ofNat n) k).toNat = n / 2 ^ k * 2 ^ k := by
    decide +kernel
  have hx := hall k hk x.toNat x.toNat_lt
  rwa [UInt8.ofNat_toNat] at hx

/-- Two masked bytes are equal if the bytes agree above the mask. -/
theorem maskByte_eq_iff (x y : UInt8) {k : Nat} (hk : k < 8) :
    maskByte x k = maskByte y k ↔ x.toNat / 2 ^ k = y.toNat / 2 ^ k := by
  rw [← UInt8.toNat_inj, toNat_maskByte x hk, toNat_maskByte y hk]
  exact Nat.mul_left_inj (Nat.two_pow_pos k).ne'

/-! ## §3. `matches`. -/

/-- What is left to compare from byte `i` on. -/
def Agree (im : Immutable) (b : List UInt8) (i : Nat) : Prop :=
  (∀ j, i ≤ j → j < im.prefixSize / 8 → im.a[j]? = b[j]?)
    ∧ (im.prefixSize % 8 = 0
      ∨ im.a[im.prefixSize / 8]?
        = b[im.prefixSize / 8]?.map fun y => maskByte y ((8 - im.prefixSize % 8 : Nat) : Int))

/-- **The loop, from any byte of the prefix on**: it ends without an index
out of range, and compares what is left. -/
theorem matchesFrom_spec (im : Immutable) (b : List UInt8) (hlen : im.a.length = b.length)
    (hsize : im.prefixSize ≤ 8 * im.a.length) (m i : Nat) (hi : i + m = im.prefixSize / 8) :
    ∃ r, im.matchesFrom b i = some r ∧ (r = true ↔ im.Agree b i) := by
  induction m generalizing i with
  | zero =>
      have hstop : ¬ (i * 8 < im.prefixSize ∧ i * 8 + 8 ≤ im.prefixSize) := by omega
      have hnone : ∀ j, i ≤ j → j < im.prefixSize / 8 → im.a[j]? = b[j]? := fun j h1 h2 => by omega
      rw [matchesFrom, if_neg hstop]
      by_cases hend : i * 8 = im.prefixSize
      · rw [if_pos hend]
        exact ⟨true, rfl, fun _ => ⟨hnone, Or.inl (by omega)⟩, fun _ => rfl⟩
      · -- the byte at the end of the prefix is there in both
        have hia : i < im.a.length := by omega
        have hib : i < b.length := by omega
        have hdiv : im.prefixSize / 8 = i := by omega
        have hshift : ((i : Int) * 8 + 8 - im.prefixSize)
            = ((8 - im.prefixSize % 8 : Nat) : Int) := by omega
        rw [if_neg hend, List.getElem?_eq_getElem hia, List.getElem?_eq_getElem hib]
        refine ⟨_, rfl, ?_⟩
        rw [beq_iff_eq, hshift, Agree, hdiv, List.getElem?_eq_getElem hia,
          List.getElem?_eq_getElem hib, Option.map_some, Option.some.injEq]
        constructor
        · exact fun h => ⟨fun j h1 h2 => by omega, Or.inr h⟩
        · rintro ⟨-, h | h⟩
          · omega
          · exact h
  | succ m ih =>
      have hgo : i * 8 < im.prefixSize ∧ i * 8 + 8 ≤ im.prefixSize := by omega
      have hia : i < im.a.length := by omega
      have hib : i < b.length := by omega
      rw [matchesFrom, if_pos hgo, List.getElem?_eq_getElem hia, List.getElem?_eq_getElem hib]
      dsimp only
      by_cases hxy : im.a[i] = b[i]
      · obtain ⟨r, hr, hiff⟩ := ih (i + 1) (by omega)
        rw [if_neg (not_not_intro hxy)]
        refine ⟨r, hr, hiff.trans (and_congr_left fun _ => ?_)⟩
        constructor
        · intro h j h1 h2
          by_cases hj : j = i
          · rw [hj, List.getElem?_eq_getElem hia, List.getElem?_eq_getElem hib, hxy]
          · exact h j (by omega) h2
        · exact fun h j h1 h2 => h j (by omega) h2
      · rw [if_pos hxy]
        refine ⟨false, rfl, fun h => absurd h (by simp), fun h => absurd ?_ hxy⟩
        have hi' := h.1 i (Nat.le_refl i) (by omega)
        rw [List.getElem?_eq_getElem hia, List.getElem?_eq_getElem hib] at hi'
        exact Option.some.inj hi'

end Immutable

/-! ## §4. `toImmutable`. -/

/-- The bytes from `i` on are cleared, the others stay. -/
theorem clear_spec (m i : Nat) (it : List UInt8) (hi : i + m = it.length) :
    ∃ it', (List.range' i m).foldlM (fun it i => setByte it i 0) it = some it'
      ∧ it'.length = it.length ∧ ∀ j < i, it'[j]? = it[j]? := by
  induction m generalizing i it with
  | zero => exact ⟨it, rfl, rfl, fun _ _ => rfl⟩
  | succ m ih =>
      have hset : setByte it i 0 = some (it.set i 0) := if_pos (by omega)
      obtain ⟨it', hfold, hlen, hsame⟩ := ih (i + 1) (it.set i 0) (by rw [List.length_set]; omega)
      refine ⟨it', ?_, by rw [hlen, List.length_set], fun j hj => ?_⟩
      · rw [List.range'_succ, List.foldlM_cons, hset]
        exact hfold
      · rw [hsame j (by omega), List.getElem?_set_ne (by omega)]

/-- The copy agrees with the address in the whole bytes of the prefix, and
has the next one masked. -/
theorem toImmutable_spec (s : Subnet α) :
    ∃ im : Immutable, s.toImmutable = some im ∧ im.prefixSize = s.prefixSize
      ∧ im.a.length = (InetAddress.address s.address).length
      ∧ (∀ j < s.prefixSize / 8, im.a[j]? = (InetAddress.address s.address)[j]?)
      ∧ (s.prefixSize % 8 > 0 → im.a[s.prefixSize / 8]?
        = (InetAddress.address s.address)[s.prefixSize / 8]?.map
          fun x => maskByte x ((8 - s.prefixSize % 8 : Nat) : Int)) := by
  have hsize := s.prefixSize_le
  unfold toImmutable
  generalize InetAddress.address s.address = it at hsize ⊢
  by_cases hmod : s.prefixSize % 8 > 0
  · have hi : s.prefixSize / 8 < it.length := by omega
    have hshift : ((s.prefixSize / 8 : Nat) : Int) * 8 + 8 - s.prefixSize
        = ((8 - s.prefixSize % 8 : Nat) : Int) := by omega
    obtain ⟨it', hfold, hlen, hsame⟩ := clear_spec (it.length - (s.prefixSize / 8 + 1))
      (s.prefixSize / 8 + 1)
      (it.set (s.prefixSize / 8) (maskByte it[s.prefixSize / 8] (8 - s.prefixSize % 8 : Nat)))
      (by rw [List.length_set]; omega)
    refine ⟨⟨it', s.prefixSize⟩, ?_, rfl, ?_, fun j hj => ?_, fun _ => ?_⟩
    · have hset : ∀ x, setByte it (s.prefixSize / 8) x = some (it.set (s.prefixSize / 8) x) :=
        fun x => if_pos hi
      simp only [if_pos hmod, List.getElem?_eq_getElem hi, hshift, hset, Option.bind_eq_bind,
        Option.bind_some, Option.pure_def, List.length_set]
      rw [hfold]
      rfl
    · rw [hlen, List.length_set]
    · rw [hsame j (by omega), List.getElem?_set_ne (by omega)]
    · rw [hsame _ (by omega), List.getElem?_set_self hi, List.getElem?_eq_getElem hi]
      rfl
  · obtain ⟨it', hfold, hlen, hsame⟩ := clear_spec (it.length - s.prefixSize / 8)
      (s.prefixSize / 8) it (by omega)
    refine ⟨⟨it', s.prefixSize⟩, ?_, rfl, hlen, hsame, fun h => absurd h hmod⟩
    simp only [if_neg hmod, Option.bind_eq_bind, Option.pure_def, Option.bind_some]
    rw [hfold]
    rfl

/-! ## §5. Subnets as prefixes. -/

/-- `b` has the length of the address and its first bits. -/
def Covers (s : Subnet α) (b : List UInt8) : Prop :=
  b.length = (InetAddress.address s.address).length
    ∧ (Bits.bits b).take s.prefixSize
      = (Bits.bits (InetAddress.address s.address)).take s.prefixSize

/-- What is compared, on the bits. -/
theorem agree_iff (s : Subnet α) {im : Immutable} {b : List UInt8}
    (hp : im.prefixSize = s.prefixSize)
    (hb : b.length = (InetAddress.address s.address).length)
    (hwhole : ∀ j < s.prefixSize / 8, im.a[j]? = (InetAddress.address s.address)[j]?)
    (hlast : s.prefixSize % 8 > 0 → im.a[s.prefixSize / 8]?
      = (InetAddress.address s.address)[s.prefixSize / 8]?.map
        fun x => maskByte x ((8 - s.prefixSize % 8 : Nat) : Int)) :
    im.Agree b 0 ↔ (Bits.bits b).take s.prefixSize
      = (Bits.bits (InetAddress.address s.address)).take s.prefixSize := by
  have hsize := s.prefixSize_le
  rw [Bits.take_bits_iff hb, Immutable.Agree, hp]
  generalize InetAddress.address s.address = it at hsize hb hwhole hlast ⊢
  refine and_congr ⟨fun h => ?_, fun h j _ hj => ?_⟩ ?_
  · refine List.ext_getElem? fun j => ?_
    rw [List.getElem?_take, List.getElem?_take]
    split_ifs with hj
    · rw [← hwhole j hj, h j (Nat.zero_le j) hj]
    · rfl
  · have hj' := congrArg (·[j]?) h
    simp only [List.getElem?_take, if_pos hj] at hj'
    rw [hwhole j hj, hj']
  · by_cases hmod : s.prefixSize % 8 = 0
    · -- no bit of the next byte belongs to the prefix
      rw [hmod]
      have hb0 := Nat.div_eq_of_lt (b.getD (s.prefixSize / 8) 0).toNat_lt
      have hi0 := Nat.div_eq_of_lt (it.getD (s.prefixSize / 8) 0).toNat_lt
      exact ⟨fun _ => hb0.trans hi0.symm, fun _ => Or.inl rfl⟩
    · have hi : s.prefixSize / 8 < it.length := by omega
      have hi' : s.prefixSize / 8 < b.length := by omega
      rw [or_iff_right hmod, hlast (by omega), List.getD_eq_getElem?_getD,
        List.getD_eq_getElem?_getD, List.getElem?_eq_getElem hi, List.getElem?_eq_getElem hi',
        Option.map_some, Option.map_some, Option.some.injEq, eq_comm]
      exact Immutable.maskByte_eq_iff _ _ (by omega)

/-- **Matching is bit-prefix equality**, for every subnet and every byte
array, and no index is out of range. -/
theorem matches_iff (s : Subnet α) (b : List UInt8) :
    ∃ im r, s.toImmutable = some im ∧ im.matchesBytes b = some r ∧ (r = true ↔ s.Covers b) := by
  obtain ⟨im, him, hp, hlen, hwhole, hlast⟩ := s.toImmutable_spec
  have hsize := s.prefixSize_le
  by_cases hb : im.a.length = b.length
  · obtain ⟨r, hr, hiff⟩ := im.matchesFrom_spec b hb (by omega) (im.prefixSize / 8) 0 (by omega)
    refine ⟨im, r, him, (if_neg (not_not_intro hb)).trans hr, ?_⟩
    rw [hiff, Covers, and_iff_right (by omega)]
    exact s.agree_iff hp (by omega) hwhole hlast
  · refine ⟨im, false, him, if_pos hb, fun h => absurd h (by simp), fun h => ?_⟩
    exact absurd (hlen.trans h.1.symm) hb

end Subnet

end FoxVpn.Net
