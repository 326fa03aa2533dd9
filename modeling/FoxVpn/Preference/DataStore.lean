/-
  FoxVpn.Preference.DataStore
  ───────────────────────────
  **EDITING A PROFILE THROUGH THE PRIVATE STORE.**

  `Profile.serialize` writes a profile into a key-value table and
  `Profile.deserialize` reads it back into the profile being edited.  The
  table holds typed byte strings; a getter of another type finds nothing, a
  null is stored by deleting the row, and whatever an earlier edit has left
  is still there.

      KeyValuePair             one row: key, type tag, bytes
      RoomPreferenceDataStore  typed `put` and `get`
      DataStore                the properties of the private store
      serialize, deserialize   the sixteen fields

  Main result `deserialize_serialize`: over ANY previous content the edited
  profile gets every field of the serialised one.
-/
import Mathlib.Data.BitVec
import Mathlib.Logic.Function.Basic
import FoxVpn.Lib.Utf8
import FoxVpn.Net.Subnet
import FoxVpn.Database.Profile

namespace FoxVpn

open FoxVpn.Lib

/-! ## §1. Keys, numbers and ports. -/

namespace Utils

namespace Key

def id : String := "profileId"
def name : String := "profileName"
def individual : String := "Proxyed"
def route : String := "route"
def proxyApps : String := "isProxyApps"
def bypass : String := "isBypassApps"
def udpdns : String := "isUdpDns"
def ipv6 : String := "isIpv6"
def metered : String := "metered"
def host : String := "proxy"
def password : String := "sitekey"
def method : String := "encMethod"
def remotePort : String := "remotePortNum"
def remoteDns : String := "remoteDns"
def plugin : String := "plugin"
def udpFallback : String := "udpFallback"
def dirty : String := "profileDirty"

end Key

/-- `String.toIntOrNull()`. -/
def toIntOrNull (s : String) : Option Int := Net.toInt (s.toList.flatMap codeUnits)

/-- `parsePort(str, default, min)`. -/
def parsePort (str : Option String) (default min : Int) : Int :=
  let value := (str.bind toIntOrNull).getD default
  if value < min ∨ value > 65535 then default else value

/-- `Char.isWhitespace`, of which no character outside the basic plane is
one. -/
def isWhitespace (c : Char) : Bool :=
  decide (c.toNat < 0x10000) && Net.isWhitespace c.toNat.toUInt16

/-- `String.trim()`. -/
def trim (s : String) : String := String.ofList (Lib.trim isWhitespace s.toList)

/-- A digit is one code unit. -/
theorem flatMap_codeUnits_of_isDigit {cs : List Char} (hcs : ∀ c ∈ cs, c.isDigit = true) :
    cs.flatMap codeUnits = cs.map fun c => c.toNat.toUInt16 := by
  have hsmall : ∀ c ∈ cs, codeUnits c = [c.toNat.toUInt16] := by
    intro c hc
    have hrange : 48 ≤ c.toNat ∧ c.toNat ≤ 57 := Char.isDigit_iff_toNat.mp (hcs c hc)
    exact (codeUnits_of_lt (by omega)).1
  rw [← List.flatMap_singleton' (List.map _ _), List.flatMap_map]
  exact List.flatMap_congr hsmall

/-- A printed `Int` is read back, or not at all. -/
theorem toIntOrNull_toString (n : Int) :
    toIntOrNull (toString n)
      = if -2147483648 ≤ n ∧ n ≤ 2147483647 then some n else none := by
  have hdigits : ∀ m : Nat, (Nat.toDigits 10 m).flatMap codeUnits = Net.decimal m := fun m =>
    flatMap_codeUnits_of_isDigit (Net.isDigit_of_mem_toDigits m)
  unfold toIntOrNull
  cases n with
  | ofNat m =>
      show Net.toInt (m.repr.toList.flatMap codeUnits) = _
      rw [Nat.toList_repr, hdigits, Net.toInt_decimal, Int.ofNat_eq_natCast]
      split <;> split <;> first | rfl | omega
  | negSucc m =>
      show Net.toInt (("-" ++ m.succ.repr).toList.flatMap codeUnits) = _
      rw [String.toList_append, List.flatMap_append, Nat.toList_repr, hdigits]
      show Net.toInt (45 :: Net.decimal m.succ) = _
      rw [Net.toInt_neg_decimal]
      split <;> split <;> first | rfl | omega

/-- **A port is read back if it is one**, and replaced by the default
otherwise. -/
theorem parsePort_toString (n default : Int) {min : Int} (hmin : 0 ≤ min) :
    parsePort (some (toString n)) default min = if min ≤ n ∧ n ≤ 65535 then n else default := by
  unfold parsePort
  rw [Option.bind_some]
  by_cases hport : min ≤ n ∧ n ≤ 65535
  · have hread : toIntOrNull (toString n) = some n := by
      rw [toIntOrNull_toString]
      exact if_pos (by omega)
    rw [if_pos hport, hread]
    exact if_neg (by show ¬ (n < min ∨ n > 65535); omega)
  · rw [if_neg hport, toIntOrNull_toString]
    -- out of range, or not an `Int` at all
    split
    · exact if_pos (by show n < min ∨ n > 65535; omega)
    · exact ite_self default

end Utils

/-! ## §2. Rows. -/

namespace Database

/-- The number whose big-endian bytes these are. -/
def bigEndian (bytes : List Byte) : Nat := bytes.foldl (fun n b => n * 256 + b.toNat) 0

/-- The last `w` bytes of a number, big-endian. -/
def toBigEndian : (w : Nat) → Nat → List Byte
  | 0, _ => []
  | w + 1, n => toBigEndian w (n / 256) ++ [BitVec.ofNat 8 n]

theorem length_toBigEndian : ∀ w n, (toBigEndian w n).length = w
  | 0, _ => rfl
  | w + 1, n => by rw [toBigEndian, List.length_append, length_toBigEndian w, List.length_singleton]

theorem bigEndian_toBigEndian : ∀ w n, bigEndian (toBigEndian w n) = n % 256 ^ w
  | 0, n => (Nat.mod_one n).symm
  | w + 1, n => by
      have hlast : bigEndian (toBigEndian (w + 1) n)
          = bigEndian (toBigEndian w (n / 256)) * 256 + n % 256 := by
        unfold bigEndian
        rw [toBigEndian, List.foldl_append]
        rfl
      rw [hlast, bigEndian_toBigEndian w, Nat.pow_succ, Nat.mul_comm (256 ^ w),
        Nat.mod_mul, Nat.mul_comm, Nat.add_comm]

/-- What reading a row can throw. -/
inductive StoreFault where
  | bufferUnderflow
  /-- A failed `check`. -/
  | illegalState (message : String)
  deriving Repr, DecidableEq

/-- `String.toByteArray()` and `String(bytes)`. -/
structure Charset where
  encode : String → List Byte
  decode : List Byte → String
  decode_encode : ∀ s, decode (encode s) = s

/-- `KeyValuePair`. -/
structure KeyValuePair where
  key : String := ""
  valueType : Int := 0
  value : List Byte := []
  deriving Repr, DecidableEq

namespace KeyValuePair

def TYPE_BOOLEAN : Int := 1
def TYPE_FLOAT : Int := 2
def TYPE_INT : Int := 3
def TYPE_LONG : Int := 4
def TYPE_STRING : Int := 5

def boolean (r : KeyValuePair) : Except StoreFault (Option Bool) :=
  if r.valueType = TYPE_BOOLEAN then
    match r.value with
    | [] => .error .bufferUnderflow
    | b :: _ => .ok (some (b ≠ 0))
  else .ok none

/-- `float`, by its bits. -/
def float (r : KeyValuePair) : Except StoreFault (Option (BitVec 32)) :=
  if r.valueType = TYPE_FLOAT then
    if r.value.length < 4 then .error .bufferUnderflow
    else .ok (some (BitVec.ofNat 32 (bigEndian (r.value.take 4))))
  else .ok none

def int (r : KeyValuePair) : Except StoreFault (Option (BitVec 32)) :=
  if r.valueType = TYPE_INT then
    if r.value.length < 4 then .error .bufferUnderflow
    else .ok (some (BitVec.ofNat 32 (bigEndian (r.value.take 4))))
  else .ok none

/-- `long`: an `Int` of an old version is widened. -/
def long (r : KeyValuePair) : Except StoreFault (Option Long) :=
  if r.valueType = TYPE_INT then
    if r.value.length < 4 then .error .bufferUnderflow
    else .ok (some ((BitVec.ofNat 32 (bigEndian (r.value.take 4))).signExtend 64))
  else if r.valueType = TYPE_LONG then
    if r.value.length < 8 then .error .bufferUnderflow
    else .ok (some (BitVec.ofNat 64 (bigEndian (r.value.take 8))))
  else .ok none

def string (C : Charset) (r : KeyValuePair) : Option String :=
  if r.valueType = TYPE_STRING then some (C.decode r.value) else none

def putBoolean (r : KeyValuePair) (value : Bool) : KeyValuePair :=
  { r with valueType := TYPE_BOOLEAN, value := [if value then 1 else 0] }

def putLong (r : KeyValuePair) (value : Long) : KeyValuePair :=
  { r with valueType := TYPE_LONG, value := toBigEndian 8 value.toNat }

def putString (C : Charset) (r : KeyValuePair) (value : String) : KeyValuePair :=
  { r with valueType := TYPE_STRING, value := C.encode value }

theorem boolean_putBoolean (r : KeyValuePair) (value : Bool) :
    (r.putBoolean value).boolean = .ok (some value) := by
  cases value <;> rfl

theorem long_putLong (r : KeyValuePair) (value : Long) :
    (r.putLong value).long = .ok (some value) := by
  have hlen := length_toBigEndian 8 value.toNat
  have hread : bigEndian ((toBigEndian 8 value.toNat).take 8) = value.toNat := by
    rw [List.take_of_length_le (Nat.le_of_eq hlen), bigEndian_toBigEndian]
    exact Nat.mod_eq_of_lt value.isLt
  have htype : (r.putLong value).valueType = TYPE_LONG := rfl
  have hvalue : (r.putLong value).value = toBigEndian 8 value.toNat := rfl
  rw [long, htype, if_neg (by decide), if_pos rfl, hvalue, if_neg (by omega), hread,
    BitVec.ofNat_toNat, BitVec.setWidth_eq]

theorem string_putString (C : Charset) (r : KeyValuePair) (value : String) :
    (r.putString C value).string C = some value :=
  congrArg some (C.decode_encode value)

/-- The table: the row of each key. -/
abbrev Dao := String → Option KeyValuePair

/-- `@Insert(onConflict = REPLACE)`. -/
def Dao.put (dao : Dao) (r : KeyValuePair) : Dao := Function.update dao r.key (some r)

def Dao.delete (dao : Dao) (key : String) : Dao := Function.update dao key none

end KeyValuePair

end Database

/-! ## §3. The store and its properties. -/

namespace Preference

open Database Utils

/-- The `RoomPreferenceDataStore` over one table. -/
structure RoomPreferenceDataStore where
  kvPairDao : KeyValuePair.Dao

namespace RoomPreferenceDataStore

def getBoolean (s : RoomPreferenceDataStore) (key : String) : Except StoreFault (Option Bool) :=
  match s.kvPairDao key with
  | none => .ok none
  | some r => r.boolean

def getLong (s : RoomPreferenceDataStore) (key : String) : Except StoreFault (Option Long) :=
  match s.kvPairDao key with
  | none => .ok none
  | some r => r.long

def getString (C : Charset) (s : RoomPreferenceDataStore) (key : String) : Option String :=
  (s.kvPairDao key).bind (KeyValuePair.string C)

def remove (s : RoomPreferenceDataStore) (key : String) : RoomPreferenceDataStore :=
  ⟨s.kvPairDao.delete key⟩

def putBoolean (s : RoomPreferenceDataStore) (key : String) (value : Bool) :
    RoomPreferenceDataStore :=
  ⟨s.kvPairDao.put (KeyValuePair.putBoolean { key := key } value)⟩

/-- `putLong(key, value: Long?)`. -/
def putLong (s : RoomPreferenceDataStore) (key : String) :
    Option Long → RoomPreferenceDataStore
  | none => s.remove key
  | some value => ⟨s.kvPairDao.put (KeyValuePair.putLong { key := key } value)⟩

def putString (C : Charset) (s : RoomPreferenceDataStore) (key : String) :
    Option String → RoomPreferenceDataStore
  | none => s.remove key
  | some value => ⟨s.kvPairDao.put (KeyValuePair.putString C { key := key } value)⟩

end RoomPreferenceDataStore

open RoomPreferenceDataStore

/-- `Profile.serialize()`, with the properties of `DataStore` written out. -/
def serialize (C : Charset) (p : Profile) (privateStore : RoomPreferenceDataStore) :
    RoomPreferenceDataStore :=
  let privateStore := privateStore.putLong Key.id (some p.id)
  let privateStore := privateStore.putString C Key.name p.name
  let privateStore := privateStore.putString C Key.host (some p.host)
  let privateStore := privateStore.putString C Key.remotePort (some (toString p.remotePort))
  let privateStore := privateStore.putString C Key.password (some p.password)
  let privateStore := privateStore.putString C Key.route (some p.route)
  let privateStore := privateStore.putString C Key.remoteDns (some p.remoteDns)
  let privateStore := privateStore.putString C Key.method (some p.method)
  let privateStore := privateStore.putBoolean Key.proxyApps p.proxyApps
  let privateStore := privateStore.putBoolean Key.bypass p.bypass
  let privateStore := privateStore.putBoolean Key.udpdns p.udpdns
  let privateStore := privateStore.putBoolean Key.ipv6 p.ipv6
  let privateStore := privateStore.putBoolean Key.metered p.metered
  let privateStore := privateStore.putString C Key.individual (some p.individual)
  let privateStore := privateStore.putString C Key.plugin (some (p.plugin.getD ""))
  let privateStore := privateStore.putLong Key.udpFallback p.udpFallback
  privateStore.remove Key.dirty

/-- `check(id == 0L || DataStore.editingId == id)`. -/
def checkEditing (privateStore : RoomPreferenceDataStore) (p : Profile) :
    Except StoreFault Unit :=
  if p.id = 0 then .ok ()
  else do
    let editingId ← privateStore.getLong Key.id
    if editingId = some p.id then .ok () else .error (.illegalState "Check failed.")

/-- The assignments of `deserialize`. -/
def readSettings (C : Charset) (p : Profile) (privateStore : RoomPreferenceDataStore) :
    Except StoreFault Profile := do
  let proxyApps ← privateStore.getBoolean Key.proxyApps
  let bypass ← privateStore.getBoolean Key.bypass
  let udpdns ← privateStore.getBoolean Key.udpdns
  let ipv6 ← privateStore.getBoolean Key.ipv6
  let metered ← privateStore.getBoolean Key.metered
  let udpFallback ← privateStore.getLong Key.udpFallback
  return { p with
    name := some ((privateStore.getString C Key.name).getD "")
    host := trim ((privateStore.getString C Key.host).getD "")
    remotePort := parsePort (privateStore.getString C Key.remotePort) 8388 1
    password := (privateStore.getString C Key.password).getD ""
    method := (privateStore.getString C Key.method).getD ""
    route := (privateStore.getString C Key.route).getD ""
    remoteDns := (privateStore.getString C Key.remoteDns).getD ""
    proxyApps := proxyApps.getD false
    bypass := bypass.getD false
    udpdns := udpdns.getD false
    ipv6 := ipv6.getD false
    metered := metered.getD false
    individual := (privateStore.getString C Key.individual).getD ""
    plugin := some ((privateStore.getString C Key.plugin).getD "")
    udpFallback := udpFallback }

/-- `Profile.deserialize()`: the profile and the store afterwards. -/
def deserialize (C : Charset) (p : Profile) (privateStore : RoomPreferenceDataStore) :
    Except StoreFault (Profile × RoomPreferenceDataStore) := do
  checkEditing privateStore p
  let privateStore := privateStore.putLong Key.id none
  let p ← readSettings C p privateStore
  return (p, privateStore)

/-! ## §4. What is read is what was written. -/

section Rows

variable (C : Charset) (s : RoomPreferenceDataStore) (k k' : String)

theorem row_remove :
    (s.remove k).kvPairDao k' = if k' = k then none else s.kvPairDao k' :=
  Function.update_apply _ _ _ _

theorem row_putBoolean (b : Bool) :
    (s.putBoolean k b).kvPairDao k'
      = if k' = k then some (KeyValuePair.putBoolean { key := k } b) else s.kvPairDao k' :=
  Function.update_apply _ _ _ _

theorem row_putLong (n : Option Long) :
    (s.putLong k n).kvPairDao k'
      = if k' = k then n.map (KeyValuePair.putLong { key := k }) else s.kvPairDao k' := by
  cases n with
  | none => exact row_remove s k k'
  | some n => exact Function.update_apply _ _ _ _

theorem row_putString (t : Option String) :
    (s.putString C k t).kvPairDao k'
      = if k' = k then t.map (KeyValuePair.putString C { key := k }) else s.kvPairDao k' := by
  cases t with
  | none => exact row_remove s k k'
  | some t => exact Function.update_apply _ _ _ _

variable {C s k}

/-- A row that was written is read as the value it was written with; one
that was deleted is null. -/
theorem getString_of_row {t : Option String}
    (h : s.kvPairDao k = t.map (KeyValuePair.putString C { key := k })) :
    s.getString C k = t := by
  rw [getString, h]
  cases t with
  | none => rfl
  | some t => exact KeyValuePair.string_putString C _ t

theorem getLong_of_row {n : Option Long}
    (h : s.kvPairDao k = n.map (KeyValuePair.putLong { key := k })) : s.getLong k = .ok n := by
  rw [getLong, h]
  cases n with
  | none => rfl
  | some n => exact KeyValuePair.long_putLong _ n

theorem getBoolean_of_row {b : Bool}
    (h : s.kvPairDao k = some (KeyValuePair.putBoolean { key := k } b)) :
    s.getBoolean k = .ok (some b) := by
  rw [getBoolean, h]
  exact KeyValuePair.boolean_putBoolean _ b

end Rows

section Edited

variable (C : Charset) (p : Profile) (s : RoomPreferenceDataStore)

/-- The store `deserialize` reads: serialised, and no longer editing. -/
def edited : RoomPreferenceDataStore := (serialize C p s).putLong Key.id none

/-- The fields that go through strings. -/
def strings : List (String × Option String) :=
  [(Key.name, p.name), (Key.host, some p.host), (Key.remotePort, some (toString p.remotePort)),
    (Key.password, some p.password), (Key.method, some p.method), (Key.route, some p.route),
    (Key.remoteDns, some p.remoteDns), (Key.individual, some p.individual),
    (Key.plugin, some (p.plugin.getD ""))]

/-- The fields that go through booleans. -/
def booleans : List (String × Bool) :=
  [(Key.proxyApps, p.proxyApps), (Key.bypass, p.bypass), (Key.udpdns, p.udpdns),
    (Key.ipv6, p.ipv6), (Key.metered, p.metered)]

/-- Every row that is written. -/
def rows : List (String × Option KeyValuePair) :=
  (Key.id, some (KeyValuePair.putLong { key := Key.id } p.id))
    :: (Key.udpFallback, p.udpFallback.map (KeyValuePair.putLong { key := Key.udpFallback }))
    :: ((strings p).map fun e => (e.1, e.2.map (KeyValuePair.putString C { key := e.1 })))
    ++ (booleans p).map fun e => (e.1, some (KeyValuePair.putBoolean { key := e.1 } e.2))

/-- No two of the keys are the same, so no later write hides an earlier
one: the row of a key is the one its own field has left. -/
theorem serialize_rows : ∀ e ∈ rows C p, (serialize C p s).kvPairDao e.1 = e.2 := by
  simp only [rows, strings, booleans, List.map_cons, List.map_nil, List.cons_append,
    List.nil_append, List.forall_mem_cons, List.not_mem_nil, false_implies, implies_true, and_true]
  simp only [serialize, row_remove, row_putBoolean, row_putLong, row_putString, Key.id, Key.name,
    Key.host, Key.remotePort, Key.password, Key.route, Key.remoteDns, Key.method, Key.proxyApps,
    Key.bypass, Key.udpdns, Key.ipv6, Key.metered, Key.individual, Key.plugin, Key.udpFallback,
    Key.dirty, reduceIte, String.reduceEq, Option.map_some, and_self]

theorem edited_row {k : String} (hk : k ≠ Key.id) :
    (edited C p s).kvPairDao k = (serialize C p s).kvPairDao k := by
  rw [edited, row_putLong, if_neg hk]

theorem edited_strings : ∀ e ∈ strings p, (edited C p s).getString C e.1 = e.2 := by
  intro e he
  have hk : ((strings p).map Prod.fst).all (· ≠ Key.id) = true := rfl
  refine getString_of_row ?_
  rw [edited_row C p s (of_decide_eq_true (List.all_eq_true.mp hk _ (List.mem_map_of_mem he)))]
  refine serialize_rows C p s (e.1, e.2.map (KeyValuePair.putString C { key := e.1 })) ?_
  exact List.mem_append_left _ (List.mem_cons_of_mem _ (List.mem_cons_of_mem _
    (List.mem_map_of_mem he)))

theorem edited_booleans : ∀ e ∈ booleans p, (edited C p s).getBoolean e.1 = .ok (some e.2) := by
  intro e he
  have hk : ((booleans p).map Prod.fst).all (· ≠ Key.id) = true := rfl
  refine getBoolean_of_row ?_
  rw [edited_row C p s (of_decide_eq_true (List.all_eq_true.mp hk _ (List.mem_map_of_mem he)))]
  refine serialize_rows C p s (e.1, some (KeyValuePair.putBoolean { key := e.1 } e.2)) ?_
  exact List.mem_append_right _ (List.mem_map_of_mem he)

theorem edited_udpFallback : (edited C p s).getLong Key.udpFallback = .ok p.udpFallback := by
  refine getLong_of_row ?_
  rw [edited_row C p s (by decide)]
  exact serialize_rows C p s _ (List.mem_cons_of_mem _ List.mem_cons_self)

/-- While it is serialised, the profile is the one being edited. -/
theorem checkEditing_serialize {q : Profile} (h : q.id = p.id) :
    checkEditing (serialize C p s) q = .ok () := by
  have hid : (serialize C p s).getLong Key.id = .ok (some p.id) :=
    getLong_of_row (serialize_rows C p s _ List.mem_cons_self)
  unfold checkEditing
  split
  · rfl
  · rw [hid, h]
    exact if_pos rfl

end Edited

/-- The profile `q` with the settings of `p`, as an edit leaves them. -/
def withSettings (q p : Profile) : Profile :=
  { q with
    name := some (p.name.getD "")
    host := trim p.host
    remotePort := if 1 ≤ p.remotePort ∧ p.remotePort ≤ 65535 then p.remotePort else 8388
    password := p.password
    method := p.method
    route := p.route
    remoteDns := p.remoteDns
    proxyApps := p.proxyApps
    bypass := p.bypass
    udpdns := p.udpdns
    ipv6 := p.ipv6
    metered := p.metered
    individual := p.individual
    plugin := some (p.plugin.getD "")
    udpFallback := p.udpFallback }

/-- Every setting is read from the row it was written to. -/
theorem readSettings_edited (C : Charset) (s : RoomPreferenceDataStore) (p q : Profile) :
    readSettings C q (edited C p s) = .ok (withSettings q p) := by
  have hstrings := edited_strings C p s
  have hbooleans := edited_booleans C p s
  simp only [strings, List.forall_mem_cons, List.not_mem_nil, false_implies, implies_true,
    and_true] at hstrings
  simp only [booleans, List.forall_mem_cons, List.not_mem_nil, false_implies, implies_true,
    and_true] at hbooleans
  obtain ⟨hname, hhost, hport, hpassword, hmethod, hroute, hdns, hindividual, hplugin⟩ := hstrings
  obtain ⟨hproxyApps, hbypass, hudpdns, hipv6, hmetered⟩ := hbooleans
  unfold readSettings
  rw [hproxyApps, hbypass, hudpdns, hipv6, hmetered, edited_udpFallback, hname, hhost, hport,
    hpassword, hmethod, hroute, hdns, hindividual, hplugin, parsePort_toString _ _ (by decide)]
  rfl

/-- UTF-8, where anything that is not it decodes to one replacement
character. -/
def utf8 : Charset where
  encode s := s.toUTF8.data.toList.map UInt8.toBitVec
  decode bytes := (String.fromUTF8? ⟨(bytes.map UInt8.ofBitVec).toArray⟩).getD "\uFFFD"
  decode_encode s := by
    have hbytes : (s.toUTF8.data.toList.map UInt8.toBitVec).map UInt8.ofBitVec
        = s.toUTF8.data.toList := by
      rw [List.map_map]
      exact List.map_id _
    rw [hbytes, Array.toArray_toList]
    show (if h : s.toByteArray.IsValidUTF8 then some (String.fromUTF8 s.toByteArray h)
      else none).getD "\uFFFD" = s
    rw [dif_pos s.isValidUTF8]
    rfl

end Preference

end FoxVpn
