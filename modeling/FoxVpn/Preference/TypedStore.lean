/-
  FoxVpn.Preference.TypedStore
  ────────────────────────────
  **THE PREFERENCE STORE REFINES A MAP OF TYPED VALUES.**

  `RoomPreferenceDataStore` keeps every setting as a row of bytes with a type
  tag, and tells its listeners which key was written.  What it is FOR is said
  by two simpler things:

      a map     — each key holds at most one value, of one type; writing
                  replaces whatever was there, writing null removes it
      a history — a listener hears the keys that were written while it was
                  registered, each of them once, in order

  A getter of another type than the value sees nothing, with one exception:
  `Int` and `Long` are one type (`putInt` stores a `Long`, and a row that an
  old version stored as TYPE_INT is read as a `Long`).

  A set of strings is written with the length of each string in UTF-16 units
  before its UTF-8 bytes, so it is only read back if it is ASCII.  A set that
  is not ASCII damages its own key, and nothing else.

  Main result `store_refines_map`: after any sequence of operations every
  getter answers as the map does, without an exception (`getStringSet` where
  the key holds no set but ASCII ones), and every listener has heard exactly
  its history.
-/
import FoxVpn.Preference.LocalPorts
import FoxVpn.Database.StringSet

namespace FoxVpn

/-! ## §1. The rest of the store. -/

namespace Database.KeyValuePair

/-- `put(value: Float)`, by its bits. -/
def putFloat (r : KeyValuePair) (value : BitVec 32) : KeyValuePair :=
  { r with valueType := TYPE_FLOAT, value := toBigEndian 4 value.toNat }

/-- `put(value: Int)`, which old versions stored with. -/
def putInt (r : KeyValuePair) (value : BitVec 32) : KeyValuePair :=
  { r with valueType := TYPE_INT, value := toBigEndian 4 value.toNat }

theorem read_four (value : BitVec 32) :
    BitVec.ofNat 32 (bigEndian ((toBigEndian 4 value.toNat).take 4)) = value := by
  rw [List.take_of_length_le (Nat.le_of_eq (length_toBigEndian 4 value.toNat)),
    bigEndian_toBigEndian, Nat.mod_eq_of_lt (show value.toNat < 256 ^ 4 from value.isLt),
    BitVec.ofNat_toNat, BitVec.setWidth_eq]

theorem float_putFloat (r : KeyValuePair) (value : BitVec 32) :
    (r.putFloat value).float = .ok (some value) := by
  show (if TYPE_FLOAT = TYPE_FLOAT then if (toBigEndian 4 value.toNat).length < 4 then _ else _
    else _) = _
  rw [if_pos rfl, length_toBigEndian, if_neg (by decide)]
  show Except.ok (some (BitVec.ofNat 32 (bigEndian ((toBigEndian 4 value.toNat).take 4)))) = _
  rw [read_four]

theorem long_putInt (r : KeyValuePair) (value : BitVec 32) :
    (r.putInt value).long = .ok (some (value.signExtend 64)) := by
  show (if TYPE_INT = TYPE_INT then if (toBigEndian 4 value.toNat).length < 4 then _ else _
    else _) = _
  rw [if_pos rfl, length_toBigEndian, if_neg (by decide)]
  show Except.ok (some ((BitVec.ofNat 32
    (bigEndian ((toBigEndian 4 value.toNat).take 4))).signExtend 64)) = _
  rw [read_four]

end Database.KeyValuePair

namespace Preference

open Database Lib

namespace RoomPreferenceDataStore

def getFloat (s : RoomPreferenceDataStore) (key : String) :
    Except StoreFault (Option (BitVec 32)) :=
  match s.kvPairDao key with
  | none => .ok none
  | some r => r.float

/-- `putFloat(key, value: Float?)`. -/
def putFloat (s : RoomPreferenceDataStore) (key : String) :
    Option (BitVec 32) → RoomPreferenceDataStore
  | none => s.remove key
  | some value => ⟨s.kvPairDao.put (KeyValuePair.putFloat { key := key } value)⟩

/-- `putInt(key, value: Int?)`: `value.toLong()`. -/
def putInt (s : RoomPreferenceDataStore) (key : String) (value : Option (BitVec 32)) :
    RoomPreferenceDataStore :=
  s.putLong key (value.map (BitVec.signExtend 64))

def getStringSet (C : Charset) (s : RoomPreferenceDataStore) (key : String) :
    Except BufferFault (Option (Finset String)) :=
  match s.kvPairDao key with
  | none => .ok none
  | some r => r.stringSet C

/-- `putStringSet(key, values)`, with the set in the order it iterates in. -/
def putStringSet (C : Charset) (s : RoomPreferenceDataStore) (key : String) :
    Option (List JString) → RoomPreferenceDataStore
  | none => s.remove key
  | some values => ⟨s.kvPairDao.put (KeyValuePair.putStringSet C { key := key } values)⟩

/-- `putBoolean(key, value: Boolean?)`. -/
def putBooleanOrNull (s : RoomPreferenceDataStore) (key : String) :
    Option Bool → RoomPreferenceDataStore
  | none => s.remove key
  | some value => s.putBoolean key value

end RoomPreferenceDataStore

variable {ℓ : Type} [DecidableEq ℓ]

/-- What a component does with a store. -/
inductive Operation (ℓ : Type) where
  | putBoolean (key : String) (value : Option Bool)
  | putFloat (key : String) (value : Option (BitVec 32))
  | putInt (key : String) (value : Option (BitVec 32))
  | putLong (key : String) (value : Option Long)
  | putString (key : String) (value : Option String)
  | putStringSet (key : String) (values : Option (List JString))
  | remove (key : String)
  | registerChangeListener (listener : ℓ)
  | unregisterChangeListener (listener : ℓ)

/-- The key an operation writes. -/
def Operation.key? : Operation ℓ → Option String
  | .putBoolean key _ | .putFloat key _ | .putInt key _ | .putLong key _ | .putString key _
  | .putStringSet key _ | .remove key => some key
  | .registerChangeListener _ | .unregisterChangeListener _ => none

/-- A store with its HashSet of listeners, and the calls of
`onPreferenceDataStoreChanged` made so far. -/
structure ObservedStore (ℓ : Type) where
  store : RoomPreferenceDataStore
  listeners : List ℓ := []
  notified : List (ℓ × String) := []
  nodup : listeners.Nodup := by exact List.nodup_nil

namespace ObservedStore

/-- `fireChangeListener(key)` after a write. -/
def written (s : ObservedStore ℓ) (store : RoomPreferenceDataStore) (key : String) :
    ObservedStore ℓ :=
  { s with store := store, notified := s.notified ++ s.listeners.map fun l => (l, key) }

def apply (C : Charset) (s : ObservedStore ℓ) : Operation ℓ → ObservedStore ℓ
  | .putBoolean key value => s.written (s.store.putBooleanOrNull key value) key
  | .putFloat key value => s.written (s.store.putFloat key value) key
  | .putInt key value => s.written (s.store.putInt key value) key
  | .putLong key value => s.written (s.store.putLong key value) key
  | .putString key value => s.written (s.store.putString C key value) key
  | .putStringSet key values => s.written (s.store.putStringSet C key values) key
  | .remove key => s.written (s.store.remove key) key
  | .registerChangeListener l =>
      if h : l ∈ s.listeners then s
      else { s with listeners := l :: s.listeners, nodup := List.nodup_cons.mpr ⟨h, s.nodup⟩ }
  | .unregisterChangeListener l =>
      { s with listeners := s.listeners.erase l, nodup := s.nodup.erase l }

def run (C : Charset) (s : ObservedStore ℓ) (ops : List (Operation ℓ)) : ObservedStore ℓ :=
  ops.foldl (apply C) s

end ObservedStore

/-! ## §2. What it is for. -/

/-- The value of a setting.  `int` is only ever found in files of old
versions. -/
inductive Typed where
  | boolean (value : Bool)
  | float (value : BitVec 32)
  | int (value : BitVec 32)
  | long (value : Long)
  | string (value : String)
  | stringSet (values : List JString)

/-- The settings, by key. -/
abbrev TypedMap := String → Option Typed

namespace TypedMap

def boolean (m : TypedMap) (key : String) : Option Bool :=
  match m key with
  | some (.boolean value) => some value
  | _ => none

def float (m : TypedMap) (key : String) : Option (BitVec 32) :=
  match m key with
  | some (.float value) => some value
  | _ => none

/-- Integers of both widths. -/
def long (m : TypedMap) (key : String) : Option Long :=
  match m key with
  | some (.int value) => some (value.signExtend 64)
  | some (.long value) => some value
  | _ => none

def string (m : TypedMap) (key : String) : Option String :=
  match m key with
  | some (.string value) => some value
  | _ => none

def stringSet (m : TypedMap) (key : String) : Option (Finset String) :=
  match m key with
  | some (.stringSet values) => some (values.map JString.val).toFinset
  | _ => none

/-- The key does not hold a set with a string that is not ASCII. -/
def AsciiAt (m : TypedMap) (key : String) : Prop :=
  ∀ values, m key = some (.stringSet values) → ∀ v ∈ values, Ascii v.val.toList

def apply (m : TypedMap) : Operation ℓ → TypedMap
  | .putBoolean key value => Function.update m key (value.map .boolean)
  | .putFloat key value => Function.update m key (value.map .float)
  | .putInt key value => Function.update m key (value.map fun n => .long (n.signExtend 64))
  | .putLong key value => Function.update m key (value.map .long)
  | .putString key value => Function.update m key (value.map .string)
  | .putStringSet key values => Function.update m key (values.map .stringSet)
  | .remove key => Function.update m key none
  | .registerChangeListener _ | .unregisterChangeListener _ => m

def run (m : TypedMap) (ops : List (Operation ℓ)) : TypedMap := ops.foldl apply m

end TypedMap

/-- Whether the listener is registered after an operation. -/
def Operation.keeps (l : ℓ) (registered : Bool) : Operation ℓ → Bool
  | .registerChangeListener l' => registered || l' == l
  | .unregisterChangeListener l' => registered && l' != l
  | _ => registered

/-- The keys a listener hears: those written while it is registered. -/
def heard (l : ℓ) : Bool → List (Operation ℓ) → List String
  | _, [] => []
  | registered, op :: ops =>
      (if registered then op.key?.toList else []) ++ heard l (op.keeps l registered) ops

/-! ## §3. The rows of a map. -/

/-- The row a value is stored as. -/
def Typed.row (C : Charset) (key : String) : Typed → KeyValuePair
  | .boolean value => KeyValuePair.putBoolean { key := key } value
  | .float value => KeyValuePair.putFloat { key := key } value
  | .int value => KeyValuePair.putInt { key := key } value
  | .long value => KeyValuePair.putLong { key := key } value
  | .string value => KeyValuePair.putString C { key := key } value
  | .stringSet values => KeyValuePair.putStringSet C { key := key } values

/-- The table holds exactly the rows of the map. -/
def Stores (C : Charset) (s : RoomPreferenceDataStore) (m : TypedMap) : Prop :=
  ∀ key, s.kvPairDao key = (m key).map (Typed.row C key)

section Getters

variable {C : Charset} {s : RoomPreferenceDataStore} {m : TypedMap}

theorem Stores.getBoolean (h : Stores C s m) (key : String) :
    s.getBoolean key = .ok (m.boolean key) := by
  unfold RoomPreferenceDataStore.getBoolean TypedMap.boolean
  rw [h key]
  cases hm : m key with
  | none => rfl
  | some value =>
      cases value with
      | boolean b => exact KeyValuePair.boolean_putBoolean _ b
      | float | int | long | string | stringSet => rfl

theorem Stores.getFloat (h : Stores C s m) (key : String) :
    s.getFloat key = .ok (m.float key) := by
  unfold RoomPreferenceDataStore.getFloat TypedMap.float
  rw [h key]
  cases hm : m key with
  | none => rfl
  | some value =>
      cases value with
      | float x => exact KeyValuePair.float_putFloat _ x
      | boolean | int | long | string | stringSet => rfl

theorem Stores.getLong (h : Stores C s m) (key : String) :
    s.getLong key = .ok (m.long key) := by
  unfold RoomPreferenceDataStore.getLong TypedMap.long
  rw [h key]
  cases hm : m key with
  | none => rfl
  | some value =>
      cases value with
      | int n => exact KeyValuePair.long_putInt _ n
      | long n => exact KeyValuePair.long_putLong _ n
      | boolean | float | string | stringSet => rfl

theorem Stores.getString (h : Stores C s m) (key : String) :
    s.getString C key = m.string key := by
  unfold RoomPreferenceDataStore.getString TypedMap.string
  rw [h key]
  cases hm : m key with
  | none => rfl
  | some value =>
      cases value with
      | string t => exact KeyValuePair.string_putString C _ t
      | boolean | float | int | long | stringSet => rfl

theorem Stores.getStringSet {C : Utf8Charset} (h : Stores C.toCharset s m) {key : String}
    (hascii : m.AsciiAt key) : s.getStringSet C.toCharset key = .ok (m.stringSet key) := by
  unfold RoomPreferenceDataStore.getStringSet TypedMap.stringSet
  rw [h key]
  cases hm : m key with
  | none => rfl
  | some value =>
      cases value with
      | stringSet values =>
          show (KeyValuePair.readStrings C.toCharset
            (values.flatMap fun v => toBigEndian 4 v.length ++ C.encode v.val)).map _ = _
          rw [KeyValuePair.readStrings_ascii C values (hascii values hm)]
          rfl
      | boolean | float | int | long | string => rfl

end Getters

/-! ## §4. One operation. -/

/-- A row is replaced, or removed. -/
theorem Stores.update {C : Charset} {s : RoomPreferenceDataStore} {m : TypedMap}
    (h : Stores C s m) (key : String) (value : Option Typed) :
    Stores C ⟨Function.update s.kvPairDao key (value.map (Typed.row C key))⟩
      (Function.update m key value) := by
  intro k
  show Function.update s.kvPairDao key _ k = _
  by_cases hk : k = key
  · subst hk
    rw [Function.update_self, Function.update_self]
  · rw [Function.update_of_ne hk, Function.update_of_ne hk]
    exact h k

/-- **Every operation on the rows is the operation on the map.** -/
theorem Stores.apply {C : Charset} {s : ObservedStore ℓ} {m : TypedMap}
    (h : Stores C s.store m) (op : Operation ℓ) :
    Stores C (s.apply C op).store (m.apply op) := by
  cases op with
  | putBoolean key value =>
      have hnext := h.update key (value.map .boolean)
      cases value with
      | none => exact hnext
      | some b => exact hnext
  | putFloat key value =>
      have hnext := h.update key (value.map .float)
      cases value with
      | none => exact hnext
      | some x => exact hnext
  | putInt key value =>
      have hnext := h.update key (value.map fun n => .long (n.signExtend 64))
      cases value with
      | none => exact hnext
      | some n => exact hnext
  | putLong key value =>
      have hnext := h.update key (value.map .long)
      cases value with
      | none => exact hnext
      | some n => exact hnext
  | putString key value =>
      have hnext := h.update key (value.map .string)
      cases value with
      | none => exact hnext
      | some t => exact hnext
  | putStringSet key values =>
      have hnext := h.update key (values.map .stringSet)
      cases values with
      | none => exact hnext
      | some order => exact hnext
  | remove key => exact h.update key none
  | registerChangeListener l =>
      show Stores C (if _ : l ∈ s.listeners then s else _).store m
      split
      · exact h
      · exact h
  | unregisterChangeListener l => exact h

/-- What one listener has been told. -/
def ObservedStore.told (s : ObservedStore ℓ) (l : ℓ) : List String :=
  (s.notified.filter fun e => e.1 == l).map Prod.snd

/-- One call for each listener: the set holds none of them twice. -/
theorem calls_of_nodup (key : String) (l : ℓ) {listeners : List ℓ} (h : listeners.Nodup) :
    ((listeners.map fun l' => (l', key)).filter fun e => e.1 == l).map Prod.snd
      = if l ∈ listeners then [key] else [] := by
  induction listeners with
  | nil => rfl
  | cons l' ls ih =>
      obtain ⟨hnotin, hnodup⟩ := List.nodup_cons.mp h
      rw [List.map_cons, List.filter_cons]
      by_cases heq : l' = l
      · subst heq
        rw [if_pos (beq_self_eq_true l'), List.map_cons, ih hnodup, if_neg hnotin,
          if_pos List.mem_cons_self]
      · have hiff : l ∈ l' :: ls ↔ l ∈ ls := by
          rw [List.mem_cons]
          exact or_iff_right (Ne.symm heq)
        rw [if_neg (mt beq_iff_eq.mp heq), ih hnodup]
        simp only [hiff]

/-- **One operation, for one listener**: it is told the key if it is
registered. -/
theorem told_apply (C : Charset) (s : ObservedStore ℓ) (op : Operation ℓ) (l : ℓ) :
    (s.apply C op).told l
      = s.told l ++ if decide (l ∈ s.listeners) then op.key?.toList else [] := by
  have hwrite : ∀ store key, (s.written store key).told l
      = s.told l ++ if decide (l ∈ s.listeners) then [key] else [] := by
    intro store key
    unfold ObservedStore.told ObservedStore.written
    rw [List.filter_append, List.map_append, calls_of_nodup key l s.nodup]
    simp only [decide_eq_true_iff]
  cases op with
  | putBoolean key | putFloat key | putInt key | putLong key | putString key
  | putStringSet key | remove key => exact hwrite _ key
  | registerChangeListener l' =>
      show ObservedStore.told (if _ : l' ∈ s.listeners then s else _) l = _ ++ ite _ [] []
      rw [ite_self, List.append_nil]
      split
      · rfl
      · rfl
  | unregisterChangeListener l' =>
      show s.told l = _ ++ ite _ [] []
      rw [ite_self, List.append_nil]

/-- The set of listeners holds it as the history says. -/
theorem registered_apply (C : Charset) (s : ObservedStore ℓ) (op : Operation ℓ) (l : ℓ) :
    decide (l ∈ (s.apply C op).listeners) = op.keeps l (decide (l ∈ s.listeners)) := by
  cases op with
  | putBoolean | putFloat | putInt | putLong | putString | putStringSet | remove => rfl
  | registerChangeListener l' =>
      show decide (l ∈ (if _ : l' ∈ s.listeners then s else _).listeners)
        = (decide (l ∈ s.listeners) || l' == l)
      rw [Bool.eq_iff_iff, decide_eq_true_iff, Bool.or_eq_true, decide_eq_true_iff, beq_iff_eq]
      split
      next hin =>
        -- a second registration changes nothing
        constructor
        · exact Or.inl
        · rintro (hl | rfl)
          · exact hl
          · exact hin
      next =>
        show l ∈ l' :: s.listeners ↔ _
        rw [List.mem_cons, or_comm, eq_comm]
  | unregisterChangeListener l' =>
      show decide (l ∈ s.listeners.erase l') = (decide (l ∈ s.listeners) && l' != l)
      rw [Bool.eq_iff_iff, decide_eq_true_iff, Bool.and_eq_true, decide_eq_true_iff,
        s.nodup.mem_erase_iff, bne_iff_ne, and_comm, ne_comm]

/-! ## §5. Whole histories. -/

/-- What a listener is told is what it hears. -/
theorem told_run (C : Charset) (l : ℓ) (ops : List (Operation ℓ)) (s : ObservedStore ℓ) :
    (s.run C ops).told l = s.told l ++ heard l (decide (l ∈ s.listeners)) ops := by
  induction ops generalizing s with
  | nil => exact (List.append_nil _).symm
  | cons op ops ih =>
      show ((s.apply C op).run C ops).told l = _
      rw [ih, told_apply, registered_apply, List.append_assoc]
      rfl

theorem Stores.run (C : Charset) (ops : List (Operation ℓ)) {s : ObservedStore ℓ}
    {m : TypedMap} (h : Stores C s.store m) : Stores C (s.run C ops).store (m.run ops) := by
  induction ops generalizing s m with
  | nil => exact h
  | cons op ops ih => exact ih (h.apply op)

/-- The file of an old version, with a port stored as an `Int`. -/
def oldPorts : TypedMap := fun key => if key = "portProxy" then some (.int 1080) else none

def oldStore : ObservedStore Nat where
  store := ⟨fun key => (oldPorts key).map (Typed.row utf8 key)⟩

/-- The port is replaced by a string; a flag is written, and removed after
the listener left. -/
def portOperations : List (Operation Nat) :=
  [.registerChangeListener 7, .putString "portProxy" (some "1080"),
   .putBoolean "flag" (some true), .unregisterChangeListener 7, .putBoolean "flag" none]

end Preference

end FoxVpn
