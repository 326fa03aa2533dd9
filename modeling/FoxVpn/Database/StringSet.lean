/-
  FoxVpn.Database.StringSet
  ─────────────────────────
  **SETS OF STRINGS IN A `KeyValuePair`.**

  `put(Set<String>)` writes every element as a length and its UTF-8 bytes;
  `stringSet` reads lengths and bytes until the buffer is empty.  The length
  written is that of the `String`, in UTF-16 CODE UNITS; the length read
  counts BYTES.

      all elements ASCII        the set is read back in any order of iteration
      one element is not        it is cut short, and the bytes left over are
                                taken for a length

  Main result `stringSet_put_iff`: the set comes back from every order
  exactly if it is ASCII.
-/
import Mathlib.Data.Finset.Max
import Mathlib.Data.Finset.Image
import FoxVpn.Lib.Result
import FoxVpn.Lib.Utf8
import FoxVpn.Preference.DataStore

namespace FoxVpn.Database

open FoxVpn.Lib Percent

/-! ## §1. `put(Set<String>)` and `stringSet`. -/

/-- A charset whose bytes are UTF-8. -/
structure Utf8Charset extends Charset where
  encode_eq : ∀ s, encode s = (utf8Encode s.toList).map UInt8.toBitVec

/-- A string of the platform: its length is an `Int`. -/
structure JString where
  val : String
  length_lt : utf16Length val.toList < 2 ^ 31
  deriving DecidableEq

/-- `String.length`. -/
def JString.length (v : JString) : Nat := utf16Length v.val.toList

/-- What reading a set can throw. -/
inductive BufferFault where
  | bufferUnderflow
  | negativeArraySize
  deriving Repr, DecidableEq

namespace KeyValuePair

def TYPE_STRING_SET : Int := 6

/-- `buffer.int`. -/
def bufferInt (buffer : List Byte) : Int := (BitVec.ofNat 32 (bigEndian (buffer.take 4))).toInt

/-- The loop of `stringSet` over what remains of the buffer: the strings it
adds. -/
def readStrings (C : Charset) (buffer : List Byte) : Except BufferFault (List String) :=
  if buffer.length = 0 then .ok []
  else if buffer.length < 4 then .error .bufferUnderflow
  else if bufferInt buffer < 0 then .error .negativeArraySize
  else if ((buffer.drop 4).length : Int) < bufferInt buffer then .error .bufferUnderflow
  else
    (readStrings C ((buffer.drop 4).drop (bufferInt buffer).toNat)).map fun result =>
      C.decode ((buffer.drop 4).take (bufferInt buffer).toNat) :: result
termination_by buffer.length
decreasing_by
  rw [List.length_drop, List.length_drop]
  omega

def stringSet (C : Charset) (r : KeyValuePair) : Except BufferFault (Option (Finset String)) :=
  if r.valueType = TYPE_STRING_SET then
    (readStrings C r.value).map fun result => some result.toFinset
  else .ok none

/-- `put(value: Set<String>)`, which iterates the set in this order. -/
def putStringSet (C : Charset) (r : KeyValuePair) (value : List JString) : KeyValuePair :=
  { r with
    valueType := TYPE_STRING_SET
    value := value.flatMap fun v => toBigEndian 4 v.length ++ C.encode v.val }

/-! ## §2. One round of the reader. -/

theorem bufferInt_append {n : Nat} (hn : n < 2 ^ 31) (rest : List Byte) :
    bufferInt (toBigEndian 4 n ++ rest) = n := by
  have hlen := length_toBigEndian 4 n
  have hint : bufferInt (toBigEndian 4 n ++ rest)
      = (BitVec.ofNat 32 (bigEndian (toBigEndian 4 n))).toInt := by
    unfold bufferInt
    rw [List.take_left' hlen]
  rw [hint, bigEndian_toBigEndian, BitVec.toInt_eq_toNat_cond, BitVec.toNat_ofNat]
  have hmod : n % 256 ^ 4 % 2 ^ 32 = n := by omega
  rw [hmod, if_pos (by omega)]

/-- A length and at least as many bytes. -/
theorem readStrings_round (C : Charset) {n : Nat} (hn : n < 2 ^ 31) {rest : List Byte}
    (hrest : n ≤ rest.length) :
    readStrings C (toBigEndian 4 n ++ rest)
      = (readStrings C (rest.drop n)).map fun result => C.decode (rest.take n) :: result := by
  have hlen := length_toBigEndian 4 n
  have htotal : (toBigEndian 4 n ++ rest).length = 4 + rest.length := by
    rw [List.length_append, hlen]
  have hdrop : (toBigEndian 4 n ++ rest).drop 4 = rest := List.drop_left' hlen
  rw [readStrings, if_neg (by omega), if_neg (by omega), bufferInt_append hn, if_neg (by omega),
    hdrop, if_neg (by omega), Int.toNat_natCast]

/-- A byte from 0x80 on is no length. -/
theorem readStrings_high (C : Charset) {b : Byte} (hb : 128 ≤ b.toNat) (rest : List Byte) :
    ∃ e, readStrings C (b :: rest) = .error e := by
  rw [readStrings, if_neg (by simp)]
  by_cases hshort : (b :: rest).length < 4
  · exact ⟨_, if_pos hshort⟩
  · rw [if_neg hshort]
    obtain ⟨x, y, z, more, rfl⟩ : ∃ x y z more, rest = x :: y :: z :: more := by
      rcases rest with _ | ⟨x, _ | ⟨y, _ | ⟨z, more⟩⟩⟩
      · simp at hshort
      · simp at hshort
      · simp at hshort
      · exact ⟨x, y, z, more, rfl⟩
    have hvalue : bigEndian ((b :: x :: y :: z :: more).take 4)
        = ((b.toNat * 256 + x.toNat) * 256 + y.toNat) * 256 + z.toNat := by
      simp [bigEndian]
    have hb' := b.isLt
    have hx := x.isLt
    have hy := y.isLt
    have hz := z.isLt
    have hneg : bufferInt (b :: x :: y :: z :: more) < 0 := by
      unfold bufferInt
      rw [hvalue, BitVec.toInt_eq_toNat_cond, BitVec.toNat_ofNat, Nat.mod_eq_of_lt (by omega),
        if_neg (by omega)]
      omega
    exact ⟨_, if_pos hneg⟩

/-! ## §3. Sets of ASCII strings. -/

theorem length_encode (C : Utf8Charset) (s : String) :
    (C.encode s).length = (utf8Encode s.toList).length := by
  rw [C.encode_eq, List.length_map]

/-- **Every ASCII element is read back**, and the reader stays in step. -/
theorem readStrings_ascii (C : Utf8Charset) (order : List JString)
    (h : ∀ v ∈ order, Ascii v.val.toList) :
    readStrings C.toCharset (order.flatMap fun v => toBigEndian 4 v.length ++ C.encode v.val)
      = .ok (order.map JString.val) := by
  induction order with
  | nil =>
      rw [List.flatMap_nil, readStrings, if_pos List.length_nil]
      rfl
  | cons v order ih =>
      obtain ⟨hv, hrest⟩ := List.forall_mem_cons.mp h
      have hsize : v.length < 2 ^ 31 := v.length_lt
      have hlen : (C.encode v.val).length = v.length :=
        (length_encode C v.val).trans (length_utf8Encode_ascii hv)
      rw [List.flatMap_cons, List.append_assoc,
        readStrings_round C.toCharset hsize (by rw [List.length_append]; omega),
        List.drop_left' hlen, List.take_left' hlen, ih hrest, C.decode_encode]
      rfl

/-- The getters of the other types. -/
def OtherGettersNull (C : Charset) (r : KeyValuePair) : Prop :=
  r.boolean = .ok none ∧ r.float = .ok none ∧ r.int = .ok none ∧ r.long = .ok none
    ∧ r.string C = none

theorem otherGettersNull_put (C : Charset) (r : KeyValuePair) (order : List JString) :
    OtherGettersNull C (r.putStringSet C order) := ⟨rfl, rfl, rfl, rfl, rfl⟩

/-! ## §4. A string that is not ASCII. -/

/-- **The shortest element that is not ASCII, written first**: either the
reader throws, or it adds a string that is not ASCII and shorter. -/
theorem readStrings_not_ascii (C : Utf8Charset) {v : JString} (hv : ¬ Ascii v.val.toList)
    (rest : List Byte) {result : List String}
    (h : readStrings C.toCharset (toBigEndian 4 v.length ++ (C.encode v.val ++ rest))
      = .ok result) :
    ∃ u ∈ result, ¬ Ascii u.toList ∧ utf16Length u.toList < v.length := by
  have hsize : v.length < 2 ^ 31 := v.length_lt
  have hbytes : v.length < (utf8Encode v.val.toList).length := utf16Length_lt hv
  have hlt : v.length < (C.encode v.val).length := (length_encode C v.val).symm ▸ hbytes
  rw [readStrings_round C.toCharset hsize (by rw [List.length_append]; omega),
    List.drop_append_of_le_length (Nat.le_of_lt hlt),
    List.take_append_of_le_length (Nat.le_of_lt hlt), C.encode_eq] at h
  obtain ⟨result', hleft, rfl⟩ := map_eq_ok.mp h
  -- the first byte left over
  by_cases hb : (utf8Encode v.val.toList)[v.length].toNat < 128
  · obtain ⟨u, t, hs, ht, htake⟩ := exists_of_ascii_byte hb v.val.toList v.length
      (List.getElem?_eq_getElem hbytes)
    have hdecode : C.decode (((utf8Encode v.val.toList).map UInt8.toBitVec).take v.length)
        = String.ofList u := by
      have hencode := C.encode_eq (String.ofList u)
      rw [String.toList_ofList] at hencode
      rw [← List.map_take, htake, ← hencode, C.decode_encode]
    have hlength : (utf8Encode u).length = v.length := by
      rw [← htake, List.length_take]
      omega
    have hpos : 0 < utf16Length t := by
      cases t with
      | nil => exact absurd rfl ht
      | cons c t =>
          rw [utf16Length_cons, length_codeUnits]
          split <;> omega
    have hv_length : v.length = utf16Length u + utf16Length t := by
      rw [JString.length, hs, utf16Length_append]
    refine ⟨String.ofList u, ?_, ?_, ?_⟩
    · rw [hdecode]
      exact List.mem_cons_self
    · rw [String.toList_ofList]
      intro hascii
      have heq := length_utf8Encode_ascii hascii
      omega
    · rw [String.toList_ofList]
      omega
  · have hdrop : ((utf8Encode v.val.toList).map UInt8.toBitVec).drop v.length
        = (utf8Encode v.val.toList)[v.length].toBitVec
          :: ((utf8Encode v.val.toList).drop (v.length + 1)).map UInt8.toBitVec := by
      rw [← List.map_drop, List.drop_eq_getElem_cons hbytes, List.map_cons]
    have hhigh : 128 ≤ (utf8Encode v.val.toList)[v.length].toBitVec.toNat := Nat.le_of_not_lt hb
    obtain ⟨e, he⟩ := readStrings_high C.toCharset hhigh
      (((utf8Encode v.val.toList).drop (v.length + 1)).map UInt8.toBitVec ++ rest)
    rw [hdrop, List.cons_append, he] at hleft
    cases hleft

/-! ## §5. The round trip. -/

/-- The charset of the platform. -/
def utf8Charset : Utf8Charset where
  toCharset := Preference.utf8
  encode_eq s := by
    have hbytes : s.toUTF8 = (utf8Encode s.toList).toByteArray := String.utf8Encode_toList.symm
    show s.toUTF8.data.toList.map UInt8.toBitVec = _
    rw [hbytes, List.toList_data_toByteArray]

/-- **A set comes back from every order of iteration exactly if it is
ASCII.** -/
theorem stringSet_put_iff (C : Utf8Charset) (key : String) (S : Finset JString) :
    (∀ order : List JString, order.Nodup → order.toFinset = S →
      (putStringSet C.toCharset { key } order).stringSet C.toCharset
          = .ok (some (S.image JString.val))
        ∧ OtherGettersNull C.toCharset (putStringSet C.toCharset { key } order))
      ↔ ∀ v ∈ S, Ascii v.val.toList := by
  have hread : ∀ order : List JString,
      (putStringSet C.toCharset { key } order).stringSet C.toCharset
        = (readStrings C.toCharset
          (order.flatMap fun v => toBigEndian 4 v.length ++ C.encode v.val)).map
            fun result => some result.toFinset := fun _ => rfl
  constructor
  · -- by induction on the length: a string is ASCII if all shorter ones are
    intro h v hv
    induction hn : v.length using Nat.strong_induction_on generalizing v with
    | _ n ih =>
        by_contra hascii
        have hnodup : (v :: (S.erase v).toList).Nodup := by
          rw [List.nodup_cons]
          exact ⟨by simp, Finset.nodup_toList _⟩
        have horder : (v :: (S.erase v).toList).toFinset = S := by
          rw [List.toFinset_cons, Finset.toList_toFinset, Finset.insert_erase hv]
        obtain ⟨hset, -⟩ := h _ hnodup horder
        rw [hread] at hset
        obtain ⟨result, hresult, himage⟩ := map_eq_ok.mp hset
        rw [List.flatMap_cons, List.append_assoc] at hresult
        obtain ⟨u, hu, hnot, hlt⟩ := readStrings_not_ascii C hascii _ hresult
        -- what was read in its place is an element as well
        have hmem : u ∈ S.image JString.val := by
          rw [← Option.some.inj himage]
          exact List.mem_toFinset.mpr hu
        obtain ⟨w, hw, rfl⟩ := Finset.mem_image.mp hmem
        exact hnot (ih w.length (hn ▸ hlt) w hw rfl)
  · intro h order _ horder
    refine ⟨?_, otherGettersNull_put C.toCharset _ order⟩
    have hascii : ∀ v ∈ order, Ascii v.val.toList := fun v hv =>
      h v (horder ▸ List.mem_toFinset.mpr hv)
    have himage : (order.map JString.val).toFinset = S.image JString.val := by
      ext x
      rw [List.mem_toFinset, List.mem_map, ← horder, Finset.mem_image]
      simp only [List.mem_toFinset]
    rw [hread, readStrings_ascii C order hascii, ← himage]
    rfl

/-- Two ASCII strings, one of them empty, in either order. -/
theorem stringSet_put_two :
    (putStringSet utf8Charset.toCharset { key := "k" }
      [⟨"", by decide⟩, ⟨"ab", by decide⟩]).stringSet
        utf8Charset.toCharset = .ok (some {"", "ab"})
      ∧ (putStringSet utf8Charset.toCharset { key := "k" }
        [⟨"ab", by decide⟩, ⟨"", by decide⟩]).stringSet utf8Charset.toCharset
          = .ok (some {"", "ab"}) := by
  have hascii : ∀ v ∈ ({⟨"", by decide⟩, ⟨"ab", by decide⟩} : Finset JString),
      Ascii v.val.toList := by
    intro v hv
    rw [Finset.mem_insert, Finset.mem_singleton] at hv
    rcases hv with rfl | rfl
    · exact fun c hc => absurd hc (by simp)
    · have hall : ("ab".toList.all fun c => c.toNat < 128) = true := by decide
      exact fun c hc => of_decide_eq_true (List.all_eq_true.mp hall c hc)
  have hall := (stringSet_put_iff utf8Charset "k" _).mpr hascii
  exact ⟨(hall [⟨"", by decide⟩, ⟨"ab", by decide⟩] (by decide) (by decide)).1,
    (hall [⟨"ab", by decide⟩, ⟨"", by decide⟩] (by decide) (by decide)).1⟩

/-- The letter é has one code unit and two bytes. -/
def accented : JString := ⟨"é", by decide⟩

/-- Its set is not read back: after its first byte there is no length. -/
theorem stringSet_accented :
    (putStringSet utf8Charset.toCharset { key := "k" } [accented]).stringSet utf8Charset.toCharset
      = .error .bufferUnderflow := by
  have hencode : utf8Charset.encode accented.val = [0xC3, 0xA9] := by
    rw [utf8Charset.encode_eq]
    decide
  have hleft : readStrings utf8Charset.toCharset [0xA9] = .error .bufferUnderflow := by
    rw [readStrings, if_neg (by decide), if_pos (by decide)]
  show (readStrings utf8Charset.toCharset
    ((toBigEndian 4 1 ++ utf8Charset.encode accented.val) ++ [])).map _ = _
  rw [List.append_nil, hencode, readStrings_round _ (by decide) (by decide)]
  show ((readStrings utf8Charset.toCharset [0xA9]).map _).map _ = _
  rw [hleft]
  rfl

end KeyValuePair

end FoxVpn.Database
