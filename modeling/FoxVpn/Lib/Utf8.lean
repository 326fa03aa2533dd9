/-
  FoxVpn.Lib.Utf8
  ───────────────
  **BYTES AGAINST CODE UNITS.**

  A text has a length in UTF-8 bytes and one in UTF-16 code units.  They are
  equal for ASCII and for nothing else (`utf16Length_lt`); and where a byte
  below 0x80 stands, a character begins (`exists_of_ascii_byte`).  Bytes that
  begin like those of a text are its first characters
  (`isPrefix_of_utf8Encode`).
-/
import Mathlib.Data.List.Infix
import FoxVpn.Lib.Percent

namespace FoxVpn.Lib

open Percent (utf8Encode)

/-- The code units of a character. -/
def codeUnits (c : Char) : List UInt16 :=
  if c.toNat < 0x10000 then [c.toNat.toUInt16]
  else [(0xD800 + (c.toNat - 0x10000) / 0x400).toUInt16,
    (0xDC00 + (c.toNat - 0x10000) % 0x400).toUInt16]

/-- The length of a text in UTF-16 code units. -/
def utf16Length (s : List Char) : Nat := (s.flatMap codeUnits).length

/-- Every character is below 0x80. -/
def Ascii (s : List Char) : Prop := ∀ c ∈ s, c.toNat < 128

theorem utf16Length_append (s t : List Char) :
    utf16Length (s ++ t) = utf16Length s + utf16Length t := by
  rw [utf16Length, List.flatMap_append, List.length_append]
  rfl

theorem utf16Length_cons (c : Char) (s : List Char) :
    utf16Length (c :: s) = (codeUnits c).length + utf16Length s := by
  rw [utf16Length, List.flatMap_cons, List.length_append]
  rfl

/-- One code unit in the basic plane, two outside. -/
theorem length_codeUnits (c : Char) :
    (codeUnits c).length = if c.toNat < 0x10000 then 1 else 2 := by
  unfold codeUnits
  split <;> rfl

theorem codeUnits_of_lt {c : Char} (h : c.toNat < 0x10000) :
    codeUnits c = [c.toNat.toUInt16] ∧ c.toNat.toUInt16.toNat = c.toNat := by
  refine ⟨if_pos h, ?_⟩
  show (UInt16.ofNat c.toNat).toNat = c.toNat
  rw [UInt16.toNat_ofNat']
  omega

/-- Outside the basic plane the first code unit is a high surrogate. -/
theorem codeUnits_of_le {c : Char} (h : 0x10000 ≤ c.toNat) :
    ∃ u v, codeUnits c = [u, v] ∧ 0xD800 ≤ u.toNat ∧ u.toNat < 0xDC00 := by
  have hmax : c.toNat < 0x110000 := by
    have hval : c.toNat = c.val.toNat := rfl
    rcases c.valid with hv | ⟨-, hv⟩
    · omega
    · omega
  have hhigh : (UInt16.ofNat (0xD800 + (c.toNat - 0x10000) / 0x400)).toNat
      = 0xD800 + (c.toNat - 0x10000) / 0x400 := by
    rw [UInt16.toNat_ofNat']
    omega
  refine ⟨_, _, if_neg (by omega), ?_⟩
  show 0xD800 ≤ (UInt16.ofNat (0xD800 + (c.toNat - 0x10000) / 0x400)).toNat
    ∧ (UInt16.ofNat (0xD800 + (c.toNat - 0x10000) / 0x400)).toNat < 0xDC00
  rw [hhigh]
  omega

theorem utf8Encode_cons (c : Char) (s : List Char) :
    utf8Encode (c :: s) = String.utf8EncodeChar c ++ utf8Encode s := rfl

/-! ## §1. One character. -/

theorem utf8EncodeChar_ascii {c : Char} (h : c.toNat < 128) :
    String.utf8EncodeChar c = [UInt8.ofNat c.toNat] := if_pos (Nat.le_of_lt_succ h)

/-- Outside ASCII there are more bytes than code units, all of them from
0x80 on. -/
theorem utf8EncodeChar_high {c : Char} (h : 128 ≤ c.toNat) :
    (codeUnits c).length < (String.utf8EncodeChar c).length
      ∧ ∀ b ∈ String.utf8EncodeChar c, 128 ≤ b.toNat := by
  have h1 : ¬ c.toNat ≤ 127 := by omega
  have hmem : ∀ l : List Nat, (∀ n ∈ l, 128 ≤ n ∧ n < 256) →
      ∀ b ∈ l.map UInt8.ofNat, 128 ≤ b.toNat := by
    intro l hl b hb
    obtain ⟨n, hn, rfl⟩ := List.mem_map.mp hb
    rw [UInt8.toNat_ofNat', Nat.mod_eq_of_lt (hl n hn).2]
    exact (hl n hn).1
  by_cases h2 : c.toNat ≤ 2047
  · have henc : String.utf8EncodeChar c
        = [c.toNat / 64 % 32 + 192, c.toNat % 64 + 128].map UInt8.ofNat :=
      (if_neg h1).trans (if_pos h2)
    have hone : (codeUnits c).length = 1 := (length_codeUnits c).trans (if_pos (by omega))
    rw [henc, hone]
    refine ⟨by simp, hmem _ ?_⟩
    simp only [List.forall_mem_cons, List.not_mem_nil, false_imp_iff, implies_true, and_true]
    omega
  by_cases h3 : c.toNat ≤ 65535
  · have henc : String.utf8EncodeChar c
        = [c.toNat / 4096 % 16 + 224, c.toNat / 64 % 64 + 128, c.toNat % 64 + 128].map
          UInt8.ofNat :=
      (if_neg h1).trans ((if_neg h2).trans (if_pos h3))
    have hone : (codeUnits c).length = 1 := (length_codeUnits c).trans (if_pos (by omega))
    rw [henc, hone]
    refine ⟨by simp, hmem _ ?_⟩
    simp only [List.forall_mem_cons, List.not_mem_nil, false_imp_iff, implies_true, and_true]
    omega
  · have henc : String.utf8EncodeChar c
        = [c.toNat / 262144 % 8 + 240, c.toNat / 4096 % 64 + 128, c.toNat / 64 % 64 + 128,
          c.toNat % 64 + 128].map UInt8.ofNat :=
      (if_neg h1).trans ((if_neg h2).trans (if_neg h3))
    have htwo : (codeUnits c).length = 2 := (length_codeUnits c).trans (if_neg (by omega))
    rw [henc, htwo]
    refine ⟨by simp, hmem _ ?_⟩
    simp only [List.forall_mem_cons, List.not_mem_nil, false_imp_iff, implies_true, and_true]
    omega

theorem length_codeUnits_ascii {c : Char} (h : c.toNat < 128) : (codeUnits c).length = 1 :=
  (length_codeUnits c).trans (if_pos (by omega))

/-! ## §2. Texts. -/

theorem length_utf8Encode_ascii {s : List Char} (h : Ascii s) :
    (utf8Encode s).length = utf16Length s := by
  induction s with
  | nil => rfl
  | cons c s ih =>
      obtain ⟨hc, hs⟩ := List.forall_mem_cons.mp h
      rw [utf8Encode_cons, utf16Length_cons, List.length_append, ih hs, utf8EncodeChar_ascii hc,
        length_codeUnits_ascii hc, List.length_singleton]

theorem utf16Length_le (s : List Char) : utf16Length s ≤ (utf8Encode s).length := by
  induction s with
  | nil => exact Nat.le_refl 0
  | cons c s ih =>
      rw [utf8Encode_cons, utf16Length_cons, List.length_append]
      by_cases hc : c.toNat < 128
      · rw [utf8EncodeChar_ascii hc, length_codeUnits_ascii hc, List.length_singleton]
        omega
      · have hlt := (utf8EncodeChar_high (Nat.le_of_not_lt hc)).1
        omega

/-- **Only ASCII has as many bytes as code units.** -/
theorem utf16Length_lt {s : List Char} (h : ¬ Ascii s) :
    utf16Length s < (utf8Encode s).length := by
  induction s with
  | nil => exact absurd (fun c hc => absurd hc List.not_mem_nil) h
  | cons c s ih =>
      have hle := utf16Length_le s
      rw [utf8Encode_cons, utf16Length_cons, List.length_append]
      by_cases hc : c.toNat < 128
      · have hs : ¬ Ascii s := fun hs => h (List.forall_mem_cons.mpr ⟨hc, hs⟩)
        have hlt := ih hs
        rw [utf8EncodeChar_ascii hc, length_codeUnits_ascii hc, List.length_singleton]
        omega
      · have hlt := (utf8EncodeChar_high (Nat.le_of_not_lt hc)).1
        omega

/-- **A byte below 0x80 begins a character**: what stands before it is the
encoding of a proper prefix. -/
theorem exists_of_ascii_byte {b : UInt8} (hb : b.toNat < 128) (s : List Char) :
    ∀ n, (utf8Encode s)[n]? = some b →
      ∃ u t, s = u ++ t ∧ t ≠ [] ∧ (utf8Encode s).take n = utf8Encode u := by
  induction s with
  | nil =>
      intro n h
      cases h
  | cons c s ih =>
      intro n h
      rw [utf8Encode_cons] at h ⊢
      by_cases hn : n < (String.utf8EncodeChar c).length
      · -- inside the first character, which is ASCII then
        rw [List.getElem?_append_left hn] at h
        have hc : c.toNat < 128 := by
          by_contra hc
          have hhigh := (utf8EncodeChar_high (Nat.le_of_not_lt hc)).2 b (List.mem_of_getElem? h)
          omega
        rw [utf8EncodeChar_ascii hc, List.length_singleton] at hn
        have hzero : n = 0 := by omega
        subst hzero
        exact ⟨[], c :: s, rfl, List.cons_ne_nil c s, rfl⟩
      · have hn : (String.utf8EncodeChar c).length ≤ n := Nat.le_of_not_lt hn
        rw [List.getElem?_append_right hn] at h
        obtain ⟨u, t, hs, ht, htake⟩ := ih _ h
        refine ⟨c :: u, t, by rw [hs]; rfl, ht, ?_⟩
        rw [List.take_append, List.take_of_length_le hn, htake, utf8Encode_cons]

/-! ## §3. Prefixes. -/

/-- What the first bytes encode is determined by them. -/
theorem eq_of_utf8EncodeChar_append {c d : Char} {u v : List UInt8}
    (h : String.utf8EncodeChar c ++ u = String.utf8EncodeChar d ++ v) : c = d := by
  have hfirst : ∀ (e : Char) (w : List UInt8),
      (String.utf8EncodeChar e ++ w).toByteArray.utf8DecodeChar? 0 = some e := by
    intro e w
    have hone : ([e] : List Char).utf8Encode.utf8DecodeChar? 0 = some e :=
      List.utf8DecodeChar?_utf8Encode_cons
    rw [← ByteArray.utf8DecodeChar?_append_eq_some hone w.toByteArray]
    congr 1
    simp [List.utf8Encode]
  have hc := hfirst c u
  rw [h, hfirst d v] at hc
  exact (Option.some.inj hc).symm

/-- **UTF-8 is prefix-free.** -/
theorem isPrefix_of_utf8Encode : ∀ {t s : List Char}, utf8Encode t <+: utf8Encode s → t <+: s
  | [], _, _ => List.nil_prefix
  | c :: t, [], h => by
      have hlen := h.length_le
      rw [utf8Encode_cons, List.length_append, String.length_utf8EncodeChar] at hlen
      have hpos := c.utf8Size_pos
      have hnil : (utf8Encode []).length = 0 := rfl
      omega
  | c :: t, d :: s, h => by
      obtain ⟨rest, hrest⟩ := h
      rw [utf8Encode_cons, utf8Encode_cons, List.append_assoc] at hrest
      obtain rfl := eq_of_utf8EncodeChar_append hrest
      have ht : utf8Encode t <+: utf8Encode s := ⟨rest, List.append_cancel_left hrest⟩
      exact List.cons_prefix_cons.mpr ⟨rfl, isPrefix_of_utf8Encode ht⟩

end FoxVpn.Lib
