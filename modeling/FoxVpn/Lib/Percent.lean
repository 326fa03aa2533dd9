/-
  FoxVpn.Lib.Percent
  ──────────────────
  **PERCENT-ENCODING.**

  `encode` leaves the unreserved characters as they are and writes every
  other one as the escaped bytes of its UTF-8:

      A-Z a-z 0-9 _ - ! . ~ ' ( ) *        %XX for anything else

  `decode` reads it back (`decode_encode`), also where a `+` stands for a
  blank, since none is ever written.
-/
import Mathlib.Data.List.Basic

namespace FoxVpn.Lib.Percent

/-! ## §1. UTF-8. -/

def utf8Encode (s : List Char) : List UInt8 := s.flatMap String.utf8EncodeChar

/-- The text of bytes; one replacement character if they are not UTF-8. -/
def utf8Decode (bytes : List UInt8) : List Char :=
  match bytes.toByteArray.utf8Decode? with
  | none => [Char.ofNat 0xFFFD]
  | some s => s.toList

theorem utf8Decode_encode (s : List Char) : utf8Decode (utf8Encode s) = s := by
  have hbytes : (utf8Encode s).toByteArray.utf8Decode? = some s.toArray :=
    List.utf8Decode?_utf8Encode
  rw [utf8Decode, hbytes]

/-- Bytes are UTF-8, or their text is the replacement character. -/
theorem utf8Decode_cases (bytes : List UInt8) :
    (∃ s, bytes = utf8Encode s) ∨ utf8Decode bytes = [Char.ofNat 0xFFFD] := by
  unfold utf8Decode
  cases h : bytes.toByteArray.utf8Decode? with
  | none => exact Or.inr rfl
  | some s =>
      refine Or.inl ⟨s.toList, ?_⟩
      have hback := ByteArray.utf8Encode_get_utf8Decode? (b := bytes.toByteArray)
        (h := by rw [h]; rfl)
      simp only [h, Option.get_some] at hback
      have hdata := congrArg (fun b : ByteArray => b.data.toList) hback
      simpa [List.utf8Encode, utf8Encode] using hdata.symm

/-- How many characters begin in these bytes. -/
def leads (bytes : List UInt8) : Nat := bytes.countP fun b => decide b.IsUTF8FirstByte

theorem leads_append (bs cs : List UInt8) : leads (bs ++ cs) = leads bs + leads cs :=
  List.countP_append

theorem leads_utf8EncodeChar (c : Char) : leads (String.utf8EncodeChar c) = 1 := by
  have hfirst : ∀ (i : Nat) (hi : i < (String.utf8EncodeChar c).length),
      (String.utf8EncodeChar c)[i].IsUTF8FirstByte ↔ i = 0 := fun i hi =>
    UInt8.isUTF8FirstByte_getElem_utf8EncodeChar
  have hne : String.utf8EncodeChar c ≠ [] := String.utf8EncodeChar_ne_nil
  generalize String.utf8EncodeChar c = bs at hfirst hne
  cases bs with
  | nil => exact absurd rfl hne
  | cons b bs =>
      have hb : b.IsUTF8FirstByte := (hfirst 0 (by simp)).mpr rfl
      -- the other bytes continue the character
      have hrest : ∀ x ∈ bs, ¬ x.IsUTF8FirstByte := by
        intro x hx hlead
        obtain ⟨i, hi, rfl⟩ := List.getElem_of_mem hx
        exact absurd ((hfirst (i + 1) (by simpa using hi)).mp hlead) (by omega)
      have hzero : leads bs = 0 := List.countP_eq_zero.mpr fun x hx => by simpa using hrest x hx
      have hcons : leads (b :: bs) = leads bs + 1 := by
        unfold leads
        rw [List.countP_cons, if_pos (decide_eq_true hb)]
      rw [hcons, hzero]

theorem leads_utf8Encode (s : List Char) : leads (utf8Encode s) = s.length := by
  induction s with
  | nil => rfl
  | cons c s ih =>
      show leads (String.utf8EncodeChar c ++ utf8Encode s) = _
      rw [leads_append, leads_utf8EncodeChar, ih, List.length_cons, Nat.add_comm]

/-- There are no more characters than begin in the bytes; bytes that are no
UTF-8 are one. -/
theorem length_utf8Decode_le (bytes : List UInt8) :
    (utf8Decode bytes).length ≤ leads bytes ∨ bytes ≠ [] ∧ (utf8Decode bytes).length = 1 := by
  rcases utf8Decode_cases bytes with ⟨s, rfl⟩ | h
  · rw [utf8Decode_encode, leads_utf8Encode]
    exact Or.inl (Nat.le_refl _)
  · refine Or.inr ⟨?_, by rw [h]; rfl⟩
    rintro rfl
    exact absurd ((utf8Decode_encode []).symm.trans h) (by simp)

/-! ## §2. The encoding. -/

def isUnreserved (c : Char) : Bool :=
  c.isAlphanum || ['_', '-', '!', '.', '~', '\'', '(', ')', '*'].contains c

def hexDigits : List Char :=
  ['0', '1', '2', '3', '4', '5', '6', '7', '8', '9', 'A', 'B', 'C', 'D', 'E', 'F']

def hexDigit (n : Nat) : Char := hexDigits.getD n '0'

def escape (b : UInt8) : List Char := ['%', hexDigit (b.toNat / 16), hexDigit (b.toNat % 16)]

def encodeChar (c : Char) : List Char :=
  if isUnreserved c then [c] else (String.utf8EncodeChar c).flatMap escape

def encode (s : List Char) : List Char := s.flatMap encodeChar

theorem encode_append (s t : List Char) : encode (s ++ t) = encode s ++ encode t :=
  List.flatMap_append

theorem encode_of_unreserved {s : List Char} (h : ∀ c ∈ s, isUnreserved c = true) :
    encode s = s := by
  induction s with
  | nil => rfl
  | cons c s ih =>
      obtain ⟨hc, hs⟩ := List.forall_mem_cons.mp h
      show encodeChar c ++ encode s = c :: s
      rw [encodeChar, if_pos hc, ih hs, List.singleton_append]

theorem isAlphanum_hexDigit {n : Nat} (h : n < 16) : (hexDigit n).isAlphanum = true := by
  have hall : ∀ n < 16, (hexDigit n).isAlphanum = true := by decide
  exact hall n h

theorem mem_escape {b : UInt8} {c : Char} (h : c ∈ escape b) : c = '%' ∨ c.isAlphanum = true := by
  have hlt : b.toNat < 256 := b.toNat_lt
  simp only [escape, List.mem_cons, List.not_mem_nil, or_false] at h
  rcases h with rfl | rfl | rfl
  · exact Or.inl rfl
  · exact Or.inr (isAlphanum_hexDigit (by omega))
  · exact Or.inr (isAlphanum_hexDigit (by omega))

/-- The alphabet of what is written. -/
theorem mem_encode {s : List Char} {c : Char} (h : c ∈ encode s) :
    c = '%' ∨ isUnreserved c = true := by
  obtain ⟨d, -, hd⟩ := List.mem_flatMap.mp h
  rw [encodeChar] at hd
  split at hd
  next hu =>
    rw [List.mem_singleton.mp hd]
    exact Or.inr hu
  next =>
    obtain ⟨b, -, hb⟩ := List.mem_flatMap.mp hd
    refine (mem_escape hb).imp_right fun hc => ?_
    rw [isUnreserved, hc, Bool.true_or]

/-- The last character of what is written: that of the text, if it is
unreserved, and otherwise a hexadecimal digit. -/
theorem encode_concat (s : List Char) (c : Char) :
    ∃ a x, encode (s ++ [c]) = a ++ [x]
      ∧ (isUnreserved c = true ∧ x = c ∨ isUnreserved c = false ∧ x.isAlphanum = true) := by
  have hone : encode (s ++ [c]) = encode s ++ encodeChar c := by
    rw [encode_append]
    exact congrArg (encode s ++ ·) (List.append_nil _)
  rw [hone, encodeChar]
  by_cases hu : isUnreserved c = true
  · rw [if_pos hu]
    exact ⟨encode s, c, rfl, Or.inl ⟨hu, rfl⟩⟩
  · rw [if_neg hu]
    have hne : String.utf8EncodeChar c ≠ [] := by
      intro hnil
      have hsize := String.length_utf8EncodeChar c
      rw [hnil] at hsize
      exact absurd hsize.symm (Nat.ne_of_gt c.utf8Size_pos)
    obtain ⟨bs, b, hbs⟩ := (List.eq_nil_or_concat _).resolve_left hne
    have hlt : b.toNat < 256 := b.toNat_lt
    refine ⟨encode s ++ (bs.flatMap escape ++ ['%', hexDigit (b.toNat / 16)]),
      hexDigit (b.toNat % 16), ?_, Or.inr ⟨Bool.not_eq_true _ ▸ hu, isAlphanum_hexDigit (by omega)⟩⟩
    rw [hbs, List.concat_eq_append, List.flatMap_append]
    simp [escape]

/-! ## §3. The decoding. -/

def hexValue (c : Char) : Nat := hexDigits.idxOf c

/-- The bytes of an encoded text, up to an escape that is cut off. -/
def decodeBytes : List Char → List UInt8
  | [] => []
  | c :: cs =>
      if c = '%' then
        match cs with
        | h :: l :: cs => UInt8.ofNat (hexValue h * 16 + hexValue l) :: decodeBytes cs
        | _ => String.utf8EncodeChar (Char.ofNat 0xFFFD)
      else String.utf8EncodeChar c ++ decodeBytes cs

/-- `plus`: a `+` is a blank. -/
def decode (plus : Bool) (s : List Char) : List Char :=
  utf8Decode (decodeBytes (if plus then s.map fun c => if c = '+' then ' ' else c else s))

theorem decodeBytes_escape (b : UInt8) (cs : List Char) :
    decodeBytes (escape b ++ cs) = b :: decodeBytes cs := by
  have hlt : b.toNat < 256 := b.toNat_lt
  have hall : ∀ n < 16, hexValue (hexDigit n) = n := by decide
  have hbyte : b.toNat / 16 * 16 + b.toNat % 16 = b.toNat := Nat.div_add_mod' _ _
  rw [escape, List.cons_append, List.cons_append, List.cons_append, decodeBytes, if_pos rfl,
    hall _ (by omega), hall _ (by omega), hbyte, UInt8.ofNat_toNat, List.nil_append]

theorem decodeBytes_encode (s : List Char) : decodeBytes (encode s) = utf8Encode s := by
  have hescapes : ∀ (bs : List UInt8) (cs : List Char),
      decodeBytes (bs.flatMap escape ++ cs) = bs ++ decodeBytes cs := by
    intro bs cs
    induction bs with
    | nil => rfl
    | cons b bs ih =>
        rw [List.flatMap_cons, List.append_assoc, decodeBytes_escape, ih, List.cons_append]
  induction s with
  | nil => rfl
  | cons c s ih =>
      show decodeBytes (encodeChar c ++ encode s) = String.utf8EncodeChar c ++ utf8Encode s
      rw [← ih, encodeChar]
      split
      next hu =>
        have hne : c ≠ '%' := by
          rintro rfl
          exact absurd hu (by decide)
        rw [List.singleton_append, decodeBytes.eq_def]
        exact if_neg hne
      next => exact hescapes _ _

/-- Without escapes there is nothing to decode. -/
theorem decode_of_not_mem {s : List Char} (h : '%' ∉ s) : decode false s = s := by
  have hbytes : decodeBytes s = utf8Encode s := by
    induction s with
    | nil => rfl
    | cons c s ih =>
        obtain ⟨hc, hs⟩ := not_or.mp (mt List.mem_cons.mpr h)
        rw [decodeBytes.eq_def]
        show (if c = '%' then _ else String.utf8EncodeChar c ++ decodeBytes s) = _
        rw [if_neg (Ne.symm hc), ih hs]
        rfl
  show utf8Decode (decodeBytes s) = s
  rw [hbytes, utf8Decode_encode]

/-- **What was written is read back.** -/
theorem decode_encode (plus : Bool) (s : List Char) : decode plus (encode s) = s := by
  have hplus : (encode s).map (fun c => if c = '+' then ' ' else c) = encode s := by
    refine (List.map_congr_left fun c hc => ?_).trans (List.map_id _)
    refine if_neg ?_
    rintro rfl
    rcases mem_encode hc with h | h
    · exact absurd h (by decide)
    · exact absurd h (by decide)
  rw [decode, hplus, ite_self, decodeBytes_encode, utf8Decode_encode]

theorem leads_decodeBytes_le (s : List Char) : leads (decodeBytes s) ≤ s.length := by
  induction s using decodeBytes.induct with
  | case1 => exact Nat.le_refl 0
  | case2 h l cs ih =>
      -- an escape is one byte
      rw [decodeBytes, if_pos rfl]
      have hone : leads [UInt8.ofNat (hexValue h * 16 + hexValue l)] ≤ 1 := List.countP_le_length
      have happ := leads_append [UInt8.ofNat (hexValue h * 16 + hexValue l)] (decodeBytes cs)
      rw [List.singleton_append] at happ
      simp only [List.length_cons]
      omega
  | case3 cs hcs =>
      -- one that is cut off is one character
      rw [decodeBytes.eq_def]
      simp only [if_true]
      rw [leads_utf8EncodeChar, List.length_cons]
      omega
  | case4 c cs hc ih =>
      unfold decodeBytes
      rw [if_neg hc, leads_append, leads_utf8EncodeChar, List.length_cons]
      omega

/-- **Decoding makes no text longer.** -/
theorem length_decode_le (s : List Char) : (decode false s).length ≤ s.length := by
  show (utf8Decode (decodeBytes s)).length ≤ s.length
  have hleads := leads_decodeBytes_le s
  rcases length_utf8Decode_le (decodeBytes s) with hle | ⟨hne, hone⟩
  · omega
  · have hpos : 0 < s.length := by
      rw [List.length_pos_iff]
      rintro rfl
      exact hne rfl
    omega

end FoxVpn.Lib.Percent
