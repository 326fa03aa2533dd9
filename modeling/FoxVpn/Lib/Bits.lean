/-
  FoxVpn.Lib.Bits
  ───────────────
  **BYTE STRINGS AS BIT STRINGS.**

  The bits of a byte string, most significant first, and its value as a
  number.  Two byte strings of one length share their first `n` bits in three
  equivalent ways:

      (bits a).take n = (bits b).take n
      the first n / 8 bytes are equal, and so are the top n % 8 bits of the
      byte that follows                                  `take_bits_iff`
      the numbers agree without their last bits          `take_bits_iff_value`

  Strings of one length are ordered as the numbers are (`compare_value`).

  Read as numbers, the strings with a given prefix are an interval, and
  whether a list of intervals leaves no gap is decided by one pass over it
  (`exists_within_of_sweep`).

  Words are read as signed numbers where the results stay in range
  (`toInt_sub_of_lt`, `toInt_mul_sdiv`).
-/
import Mathlib.Data.Nat.Bits
import Mathlib.Data.List.Basic
import Mathlib.Tactic.Ring

namespace FoxVpn.Lib.Bits

/-! ## §1. Bits and the numbers they spell. -/

/-- The bits of a byte. -/
def byteBits (x : UInt8) : List Bool := (List.range 8).map fun k => x.toNat.testBit (7 - k)

/-- The bits of a byte string. -/
def bits (b : List UInt8) : List Bool := b.flatMap byteBits

/-- The number a byte string spells. -/
def value : List UInt8 → Nat
  | [] => 0
  | x :: b => x.toNat * 256 ^ b.length + value b

/-- The number a bit string spells. -/
def ofBits : List Bool → Nat
  | [] => 0
  | x :: l => x.toNat * 2 ^ l.length + ofBits l

theorem ofBits_lt (l : List Bool) : ofBits l < 2 ^ l.length := by
  induction l with
  | nil => decide
  | cons x l ih =>
      have hx : x.toNat ≤ 1 := Bool.toNat_le x
      have hmul : x.toNat * 2 ^ l.length ≤ 1 * 2 ^ l.length := Nat.mul_le_mul_right _ hx
      show x.toNat * 2 ^ l.length + ofBits l < 2 ^ (l.length + 1)
      rw [Nat.pow_succ]
      omega

theorem ofBits_append (l m : List Bool) : ofBits (l ++ m) = ofBits l * 2 ^ m.length + ofBits m := by
  induction l with
  | nil => simp [ofBits]
  | cons x l ih =>
      show x.toNat * 2 ^ (l ++ m).length + ofBits (l ++ m)
        = (x.toNat * 2 ^ l.length + ofBits l) * 2 ^ m.length + ofBits m
      rw [ih, List.length_append, Nat.pow_add]
      ring

/-- The first bits are the number without the last ones. -/
theorem ofBits_take (l : List Bool) (n : Nat) :
    ofBits (l.take n) = ofBits l / 2 ^ (l.length - n) := by
  have hsplit := ofBits_append (l.take n) (l.drop n)
  have hlt := ofBits_lt (l.drop n)
  rw [List.take_append_drop] at hsplit
  rw [List.length_drop] at hsplit hlt
  rw [hsplit, Nat.mul_comm, Nat.mul_add_div (Nat.two_pow_pos _), Nat.div_eq_of_lt hlt,
    Nat.add_zero]

/-- Bit strings of one length are equal if their numbers are. -/
theorem eq_of_ofBits {l m : List Bool} (hlen : l.length = m.length) (h : ofBits l = ofBits m) :
    l = m := by
  induction l generalizing m with
  | nil => exact (List.length_eq_zero_iff.mp hlen.symm).symm
  | cons x l ih =>
      cases m with
      | nil => exact absurd hlen (by simp)
      | cons y m =>
          have hlen' : l.length = m.length := Nat.succ.inj hlen
          have hl := ofBits_lt l
          have hm := ofBits_lt m
          have hsum : x.toNat * 2 ^ l.length + ofBits l = y.toNat * 2 ^ m.length + ofBits m := h
          rw [← hlen'] at hsum hm
          have hpos : 0 < 2 ^ l.length := Nat.two_pow_pos _
          have hxy : x = y := by
            cases x <;> cases y <;> simp only [Bool.toNat_true, Bool.toNat_false] at hsum <;>
              first | rfl | omega
          subst hxy
          rw [ih hlen' (by omega)]

/-! ## §2. Bytes. -/

theorem length_byteBits (x : UInt8) : (byteBits x).length = 8 := by
  rw [byteBits, List.length_map, List.length_range]

theorem ofBits_byteBits (x : UInt8) : ofBits (byteBits x) = x.toNat := by
  have hall : ∀ n < 256, ofBits ((List.range 8).map fun k => n.testBit (7 - k)) = n := by
    decide +kernel
  exact hall x.toNat x.toNat_lt

theorem bits_cons (x : UInt8) (b : List UInt8) : bits (x :: b) = byteBits x ++ bits b :=
  List.flatMap_cons

theorem length_bits (b : List UInt8) : (bits b).length = 8 * b.length := by
  induction b with
  | nil => rfl
  | cons x b ih =>
      rw [bits_cons, List.length_append, length_byteBits, ih, List.length_cons]
      omega

theorem ofBits_bits (b : List UInt8) : ofBits (bits b) = value b := by
  induction b with
  | nil => rfl
  | cons x b ih =>
      rw [bits_cons, ofBits_append, ofBits_byteBits, length_bits, ih, Nat.pow_mul]
      rfl

theorem value_lt (b : List UInt8) : value b < 256 ^ b.length := by
  have hlt := ofBits_lt (bits b)
  rwa [ofBits_bits, length_bits, Nat.pow_mul] at hlt

theorem compare_toNat (x y : UInt8) : compare x.toNat y.toNat = compare x y := by
  show compareOfLessAndEq x.toNat y.toNat = compareOfLessAndEq x y
  unfold compareOfLessAndEq
  simp only [UInt8.lt_iff_toNat_lt, UInt8.toNat_inj]

/-- **Byte strings of one length are in the order of their numbers.** -/
theorem compare_value {a b : List UInt8} (hlen : a.length = b.length) :
    compare (value a) (value b) = compare a b := by
  induction a generalizing b with
  | nil =>
      rw [List.length_eq_zero_iff.mp hlen.symm]
      rfl
  | cons x a ih =>
      cases b with
      | nil => exact absurd hlen (by simp)
      | cons y b =>
          have hlen' : a.length = b.length := Nat.succ.inj hlen
          have ha := value_lt a
          have hb := value_lt b
          rw [List.compare_cons_cons, ← compare_toNat x y, ← ih hlen']
          show compare (x.toNat * 256 ^ a.length + value a) (y.toNat * 256 ^ b.length + value b) = _
          rw [← hlen'] at hb ⊢
          rcases Nat.lt_trichotomy x.toNat y.toNat with h | h | h
          · -- the first byte outweighs the others
            have hmul := Nat.mul_le_mul_right (256 ^ a.length) (Nat.succ_le_of_lt h)
            rw [Nat.succ_mul] at hmul
            rw [Nat.compare_eq_lt.mpr h, Nat.compare_eq_lt.mpr (by omega)]
            rfl
          · rw [h, Nat.compare_eq_eq.mpr rfl]
            show _ = compare (value a) (value b)
            rcases Nat.lt_trichotomy (value a) (value b) with hv | hv | hv
            · rw [Nat.compare_eq_lt.mpr hv, Nat.compare_eq_lt.mpr (by omega)]
            · rw [Nat.compare_eq_eq.mpr hv, Nat.compare_eq_eq.mpr (by omega)]
            · rw [Nat.compare_eq_gt.mpr hv, Nat.compare_eq_gt.mpr (by omega)]
          · have hmul := Nat.mul_le_mul_right (256 ^ a.length) (Nat.succ_le_of_lt h)
            rw [Nat.succ_mul] at hmul
            rw [Nat.compare_eq_gt.mpr h, Nat.compare_eq_gt.mpr (by omega)]
            rfl

/-! ## §3. A shared prefix. -/

/-- **Sharing the first bits**, in numbers. -/
theorem take_bits_iff_value {a b : List UInt8} (hlen : a.length = b.length) (n : Nat) :
    (bits a).take n = (bits b).take n
      ↔ value a / 2 ^ (8 * a.length - n) = value b / 2 ^ (8 * a.length - n) := by
  have hta := ofBits_take (bits a) n
  have htb := ofBits_take (bits b) n
  rw [length_bits, ofBits_bits] at hta htb
  rw [← hlen] at htb
  constructor
  · intro h
    rw [← hta, ← htb, h]
  · intro h
    refine eq_of_ofBits ?_ ?_
    · rw [List.length_take, List.length_take, length_bits, length_bits, hlen]
    · rw [hta, htb, h]

/-- The top bits of a byte. -/
theorem take_byteBits_iff (x y : UInt8) (r : Nat) :
    (byteBits x).take r = (byteBits y).take r
      ↔ x.toNat / 2 ^ (8 - r) = y.toNat / 2 ^ (8 - r) := by
  have hone := take_bits_iff_value (a := [x]) (b := [y]) rfl r
  simpa [bits, value] using hone

theorem byteBits_injective {x y : UInt8} (h : byteBits x = byteBits y) : x = y := by
  have hvalue := congrArg ofBits h
  rw [ofBits_byteBits, ofBits_byteBits] at hvalue
  exact UInt8.toNat_inj.mp hvalue

/-- **Sharing the first bits**, in bytes: the whole ones, and the top of the
next. -/
theorem take_bits_iff {a b : List UInt8} (hlen : a.length = b.length) (n : Nat) :
    (bits a).take n = (bits b).take n
      ↔ a.take (n / 8) = b.take (n / 8)
        ∧ (a.getD (n / 8) 0).toNat / 2 ^ (8 - n % 8) = (b.getD (n / 8) 0).toNat / 2 ^ (8 - n % 8)
    := by
  induction a generalizing b n with
  | nil =>
      obtain rfl := List.length_eq_zero_iff.mp hlen.symm
      simp
  | cons x a ih =>
      cases b with
      | nil => exact absurd hlen (by simp)
      | cons y b =>
          have hlen' : a.length = b.length := Nat.succ.inj hlen
          rw [bits_cons, bits_cons, List.take_append, List.take_append, length_byteBits,
            length_byteBits]
          by_cases hn : n < 8
          · -- inside the first byte
            have hdiv : n / 8 = 0 := by omega
            have hmod : n % 8 = n := by omega
            have hrest : n - 8 = 0 := by omega
            rw [hdiv, hmod, hrest]
            simpa using take_byteBits_iff x y n
          · -- the first byte goes, and `n` loses its bits
            have hfull : ∀ z : UInt8, (byteBits z).take n = byteBits z := fun z =>
              List.take_of_length_le (by rw [length_byteBits]; omega)
            have hdiv : n / 8 = (n - 8) / 8 + 1 := by omega
            have hmod : n % 8 = (n - 8) % 8 := by omega
            rw [hfull, hfull, hdiv, hmod, List.take_succ_cons, List.take_succ_cons,
              List.getD_cons_succ, List.getD_cons_succ, List.cons.injEq, and_assoc,
              ← ih hlen' (n - 8)]
            constructor
            · intro h
              obtain ⟨hx, hrest⟩ := List.append_inj h (by rw [length_byteBits, length_byteBits])
              exact ⟨byteBits_injective hx, hrest⟩
            · rintro ⟨rfl, hrest⟩
              rw [hrest]

/-! ## §4. Prefixes as intervals. -/

/-- The numbers `v` shares all but the last `k` bits with: from, and up to. -/
def block (k v : Nat) : Nat × Nat := (v / 2 ^ k * 2 ^ k, (v / 2 ^ k + 1) * 2 ^ k)

/-- `x` lies in an interval. -/
def Within (x : Nat) (i : Nat × Nat) : Prop := i.1 ≤ x ∧ x < i.2

theorem within_block (k v x : Nat) : Within x (block k v) ↔ x / 2 ^ k = v / 2 ^ k := by
  rw [Nat.div_eq_iff (Nat.two_pow_pos k), Within, block]
  have hpos := Nat.two_pow_pos k
  have hsucc : (v / 2 ^ k + 1) * 2 ^ k = v / 2 ^ k * 2 ^ k + 2 ^ k := Nat.succ_mul _ _
  omega

/-- Do the intervals, in this order, leave no gap between `reached` and
`stop`? -/
def sweep (stop : Nat) : Nat → List (Nat × Nat) → Bool
  | reached, [] => stop ≤ reached
  | reached, i :: is => i.1 ≤ reached && sweep stop (max reached i.2) is

/-- **A pass that meets no gap** has every number in some interval. -/
theorem exists_within_of_sweep {stop x : Nat} (hx : x < stop) (is : List (Nat × Nat))
    (reached : Nat) (hr : reached ≤ x) (h : sweep stop reached is = true) :
    ∃ i ∈ is, Within x i := by
  induction is generalizing reached with
  | nil =>
      have hstop : stop ≤ reached := of_decide_eq_true h
      omega
  | cons i is ih =>
      obtain ⟨hlo, hrest⟩ := Bool.and_eq_true_iff.mp h
      have hlo : i.1 ≤ reached := of_decide_eq_true hlo
      by_cases hi : x < i.2
      · exact ⟨i, List.mem_cons_self, by omega, hi⟩
      · obtain ⟨j, hj, hwithin⟩ := ih (max reached i.2) (by omega) hrest
        exact ⟨j, List.mem_cons_of_mem _ hj, hwithin⟩

/-- Intervals without a number in common. -/
def apart (i j : Nat × Nat) : Bool := i.2 ≤ j.1 || j.2 ≤ i.1

theorem not_within_of_apart {i j : Nat × Nat} {x : Nat} (h : apart i j = true) (hx : Within x i) :
    ¬ Within x j := by
  intro hj
  unfold Within at hx hj
  rcases Bool.or_eq_true_iff.mp h with h | h
  · have := of_decide_eq_true h
    omega
  · have := of_decide_eq_true h
    omega

/-! ## §5. Signed arithmetic within range. -/

section Signed

variable {w : Nat}

/-- A number of less than half the range is its own residue. -/
theorem bmod_of_natAbs_lt {n : Int} {m : Nat} (h : 2 * n.natAbs < m) : n.bmod m = n :=
  Int.bmod_eq_of_le_mul_two (by omega) (by omega)

theorem toInt_sub_of_lt {x y : BitVec w} (h : 2 * (x.toInt - y.toInt).natAbs < 2 ^ w) :
    (x - y).toInt = x.toInt - y.toInt := by
  rw [BitVec.toInt_sub, bmod_of_natAbs_lt h]

/-- A difference, scaled and divided: nothing overflows if the scaled
difference is in range, and the quotient is TRUNCATED. -/
theorem toInt_mul_sdiv {x y k d : BitVec w}
    (h : 2 * ((x.toInt - y.toInt) * k.toInt).natAbs < 2 ^ w) :
    (((x - y) * k).sdiv d).toInt = ((x.toInt - y.toInt) * k.toInt).tdiv d.toInt := by
  have hscaled : ((x - y) * k).toInt = (x.toInt - y.toInt) * k.toInt := by
    rw [BitVec.toInt_mul, BitVec.toInt_sub, Int.bmod_mul_bmod, bmod_of_natAbs_lt h]
  have hquot := Int.natAbs_tdiv_le_natAbs ((x.toInt - y.toInt) * k.toInt) d.toInt
  rw [BitVec.toInt_sdiv, hscaled]
  exact bmod_of_natAbs_lt (by omega)

end Signed

end FoxVpn.Lib.Bits
