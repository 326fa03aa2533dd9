/-
  FoxVpn.Preference.LocalPorts
  ────────────────────────────
  **THE LOCAL PORTS IN THE PUBLIC STORE.**

  `portProxy`, `portLocalDns` and `portTransproxy` are read by
  `getLocalPort`, and a READ MAY WRITE: an entry that an old version stored
  as an integer is returned as it is and rewritten as a string.  The next
  read finds the string, and takes the other branch, which checks the range.

  What the three settings are for is a table of three numbers, `Settings`,
  in which a read changes nothing.  `Represents` says that a store stands for
  such a table, and every access keeps it so.

  Main result `ports_consistent_iff`: reads are in range, agree with one
  another and are not changed by `initGlobal`, if and only if no port is
  stored as an integer outside 1025..65535.
-/
import FoxVpn.Preference.DataStore

namespace FoxVpn

/-! ## §1. The accessors. -/

namespace Utils.Key

def portProxy : String := "portProxy"
def portLocalDns : String := "portLocalDns"
def portTransproxy : String := "portTransproxy"
def persistAcrossReboot : String := "isAutoConnect"

end Utils.Key

namespace Preference

open Database Utils

/-- `kvPairDao[key]?.long?.toInt()`: the low 32 bits. -/
def RoomPreferenceDataStore.getInt (s : RoomPreferenceDataStore) (key : String) :
    Except StoreFault (Option (BitVec 32)) :=
  (s.getLong key).map (Option.map (BitVec.truncate 32))

/-- `getLocalPort(key, default)`: the port, and the store it leaves. -/
def getLocalPort (C : Charset) (userIndex : Int) (publicStore : RoomPreferenceDataStore)
    (key : String) (default : Int) : Except StoreFault (Int × RoomPreferenceDataStore) :=
  match publicStore.getInt key with
  | .error e => .error e
  | .ok (some value) =>
      .ok (value.toInt, publicStore.putString C key (some (toString value.toInt)))
  | .ok none =>
      .ok (parsePort (publicStore.getString C key) (default + userIndex) 1025, publicStore)

/-- The properties of `DataStore` that are local ports. -/
inductive Port where
  | portProxy
  | portLocalDns
  | portTransproxy
  deriving Repr, DecidableEq

namespace Port

def key : Port → String
  | .portProxy => Key.portProxy
  | .portLocalDns => Key.portLocalDns
  | .portTransproxy => Key.portTransproxy

def default : Port → Int
  | .portProxy => 1080
  | .portLocalDns => 5450
  | .portTransproxy => 8200

def get (C : Charset) (userIndex : Int) (publicStore : RoomPreferenceDataStore) (p : Port) :
    Except StoreFault (Int × RoomPreferenceDataStore) :=
  getLocalPort C userIndex publicStore p.key p.default

def set (C : Charset) (publicStore : RoomPreferenceDataStore) (p : Port) (value : Int) :
    RoomPreferenceDataStore :=
  publicStore.putString C p.key (some (toString value))

theorem key_injective : ∀ {p q : Port}, p.key = q.key → p = q := by
  intro p q h
  cases p <;> cases q <;> first | rfl | exact absurd h (by decide)

theorem key_ne_persistAcrossReboot (p : Port) : p.key ≠ Key.persistAcrossReboot := by
  cases p <;> decide

end Port

/-- `persistAcrossReboot`, with `BootReceiver.enabled` as the fallback. -/
def persistAcrossReboot (enabled : Bool) (publicStore : RoomPreferenceDataStore) :
    Except StoreFault (Bool × RoomPreferenceDataStore) :=
  match publicStore.getBoolean Key.persistAcrossReboot with
  | .error e => .error e
  | .ok (some value) => .ok (value, publicStore)
  | .ok none => .ok (enabled, publicStore.putBoolean Key.persistAcrossReboot enabled)

section Accesses

variable (C : Charset) (userIndex : Int)

/-- `if (publicStore.getString(key) == null) port = port`: the store
afterwards, and the exception if one was thrown. -/
def initPort (publicStore : RoomPreferenceDataStore) (p : Port) :
    RoomPreferenceDataStore × Option StoreFault :=
  if publicStore.getString C p.key = none then
    match p.get C userIndex publicStore with
    | .error e => (publicStore, some e)
    | .ok (value, publicStore) => (p.set C publicStore value, none)
  else (publicStore, none)

def initPorts : List Port → RoomPreferenceDataStore → RoomPreferenceDataStore × Option StoreFault
  | [], publicStore => (publicStore, none)
  | p :: ps, publicStore =>
      match initPort C userIndex publicStore p with
      | (publicStore, none) => initPorts ps publicStore
      | (publicStore, some e) => (publicStore, some e)

def initGlobal (enabled : Bool) (publicStore : RoomPreferenceDataStore) :
    RoomPreferenceDataStore × Option StoreFault :=
  match persistAcrossReboot enabled publicStore with
  | .error e => (publicStore, some e)
  | .ok (_, publicStore) =>
      initPorts C userIndex [.portProxy, .portLocalDns, .portTransproxy] publicStore

/-- What is done with the ports. -/
inductive Access where
  | get (p : Port)
  | set (p : Port) (value : Int)
  | initGlobal (enabled : Bool)
  deriving Repr, DecidableEq

/-- The store after an access; an exception ends the access. -/
def apply (s : RoomPreferenceDataStore) : Access → RoomPreferenceDataStore
  | .get p =>
      match p.get C userIndex s with
      | .error _ => s
      | .ok (_, s') => s'
  | .set p value => p.set C s value
  | .initGlobal enabled => (initGlobal C userIndex enabled s).1

def run (s : RoomPreferenceDataStore) (as : List Access) : RoomPreferenceDataStore :=
  as.foldl (apply C userIndex) s

/-- What a read of the port returns. -/
def read (s : RoomPreferenceDataStore) (p : Port) : Except StoreFault Int :=
  (p.get C userIndex s).map Prod.fst

def InRange (v : Int) : Prop := 1025 ≤ v ∧ v ≤ 65535

instance (v : Int) : Decidable (InRange v) := inferInstanceAs (Decidable (_ ∧ _))

/-- **Consistent reads**, from the store `s` on. -/
structure Consistent (s : RoomPreferenceDataStore) : Prop where
  inRange : ∀ as p, ∃ v, read C userIndex (run C userIndex s as) p = .ok v ∧ InRange v
  /-- Two reads with no write of the port in between: the first read itself
  and any other access may be among `bs`. -/
  same : ∀ as bs p, (∀ v, Access.set p v ∉ bs) →
    read C userIndex (run C userIndex s (as ++ bs)) p = read C userIndex (run C userIndex s as) p
  /-- With and without a call of `initGlobal`. -/
  initGlobal : ∀ as enabled bs p,
    read C userIndex (run C userIndex s (as ++ .initGlobal enabled :: bs)) p
      = read C userIndex (run C userIndex s (as ++ bs)) p

/-- Absent, a string, or a whole integer: no integer entry is cut short. -/
def Legible (s : RoomPreferenceDataStore) : Prop := ∀ p : Port, ∃ n, s.getInt p.key = .ok n

/-- The defaults of this user are ports. -/
def DefaultsInRange : Prop := ∀ p : Port, InRange (p.default + userIndex)

end Accesses

/-! ## §2. The table of the three ports. -/

/-- The value of each setting. -/
abbrev Settings := Port → Int

/-- What setting a port comes to. -/
def effective (userIndex : Int) (p : Port) (value : Int) : Int :=
  if InRange value then value else p.default + userIndex

def Settings.apply (userIndex : Int) (f : Settings) : Access → Settings
  | .get _ => f
  | .set p value => Function.update f p (effective userIndex p value)
  | .initGlobal _ => f

def Settings.run (userIndex : Int) (f : Settings) (as : List Access) : Settings :=
  as.foldl (Settings.apply userIndex) f

/-- A setting stays until it is set. -/
theorem Settings.run_same (userIndex : Int) {p : Port} : ∀ (bs : List Access) (f : Settings),
    (∀ v, Access.set p v ∉ bs) → Settings.run userIndex f bs p = f p
  | [], _, _ => rfl
  | b :: bs, f, h => by
      have hrest : ∀ v, Access.set p v ∉ bs := fun v hv => h v (List.mem_cons_of_mem _ hv)
      have hstep : Settings.apply userIndex f b p = f p := by
        cases b with
        | get q => rfl
        | initGlobal enabled => rfl
        | set q value =>
            have hne : p ≠ q := by
              rintro rfl
              exact h value List.mem_cons_self
            exact Function.update_of_ne hne _ _
      exact (Settings.run_same userIndex bs _ hrest).trans hstep

/-- The integer in a row, of which `getInt` takes the low half. -/
def rowLong : Option KeyValuePair → Except StoreFault (Option Long)
  | none => .ok none
  | some r => r.long

/-- A row stands for a value, by either branch of `getLocalPort`. -/
inductive Holds (C : Charset) (default : Int) (row : Option KeyValuePair) : Int → Prop
  | integer {n : Long} (h : rowLong row = .ok (some n)) :
      Holds C default row (n.truncate 32).toInt
  | text (h : rowLong row = .ok none) :
      Holds C default row (parsePort (row.bind (KeyValuePair.string C)) default 1025)

/-- A store stands for a table, all of whose ports are in range. -/
def Represents (C : Charset) (userIndex : Int) (s : RoomPreferenceDataStore) (f : Settings) :
    Prop :=
  ∀ p : Port, Holds C (p.default + userIndex) (s.kvPairDao p.key) (f p) ∧ InRange (f p)

section Refinement

variable {C : Charset} {userIndex : Int} {s : RoomPreferenceDataStore} {f : Settings}

theorem getInt_of_rowLong {key : String} {n : Option Long}
    (h : rowLong (s.kvPairDao key) = .ok n) :
    s.getInt key = .ok (n.map (BitVec.truncate 32)) := by
  have hlong : s.getLong key = .ok n := by
    rw [← h, RoomPreferenceDataStore.getLong]
    cases s.kvPairDao key <;> rfl
  rw [RoomPreferenceDataStore.getInt, hlong]
  rfl

/-- A read of a row that stands for `v` returns `v`, and leaves the store or
rewrites it as a string. -/
theorem get_of_holds {p : Port} {v : Int}
    (h : Holds C (p.default + userIndex) (s.kvPairDao p.key) v) :
    p.get C userIndex s = .ok (v, s) ∨ p.get C userIndex s = .ok (v, p.set C s v) := by
  unfold Port.get getLocalPort
  cases h with
  | integer hlong =>
      -- the branch that returns the number unchecked
      right
      rw [getInt_of_rowLong hlong]
      rfl
  | text hlong =>
      left
      rw [getInt_of_rowLong hlong]
      rfl

theorem read_of_holds {p : Port} {v : Int}
    (h : Holds C (p.default + userIndex) (s.kvPairDao p.key) v) : read C userIndex s p = .ok v := by
  unfold read
  rcases get_of_holds h with hget | hget <;>
    · rw [hget]
      rfl

/-- What was written is a string, and is read by the branch that checks. -/
theorem holds_set (p : Port) (value : Int) :
    Holds C (p.default + userIndex) ((p.set C s value).kvPairDao p.key)
      (effective userIndex p value) := by
  have hrow : (p.set C s value).kvPairDao p.key
      = some (KeyValuePair.putString C { key := p.key } (toString value)) := by
    rw [Port.set, row_putString, if_pos rfl]
    rfl
  have hvalue : effective userIndex p value
      = parsePort (some (toString value)) (p.default + userIndex) 1025 := by
    rw [parsePort_toString _ _ (by decide)]
    rfl
  rw [hrow, hvalue, ← KeyValuePair.string_putString C { key := p.key } (toString value)]
  exact Holds.text rfl

theorem parsePort_inRange {default : Int} (h : InRange default) (str : Option String) :
    InRange (parsePort str default 1025) := by
  unfold parsePort
  dsimp only
  split
  · exact h
  · unfold InRange
    omega

variable (hdefaults : DefaultsInRange userIndex)
include hdefaults

theorem effective_inRange (p : Port) (value : Int) : InRange (effective userIndex p value) := by
  unfold effective
  split
  · assumption
  · exact hdefaults p

/-- **A write** stands for what it comes to. -/
theorem Represents.set (h : Represents C userIndex s f) (p : Port) (value : Int) :
    Represents C userIndex (p.set C s value)
      (Function.update f p (effective userIndex p value)) := by
  intro q
  by_cases hq : q = p
  · subst hq
    rw [Function.update_self]
    exact ⟨holds_set q value, effective_inRange hdefaults q value⟩
  · -- the rows of the other ports are not touched
    rw [Function.update_of_ne hq, Port.set, row_putString,
      if_neg fun hkey => hq (Port.key_injective hkey)]
    exact h q

/-- Writing back what was read stands for the same table. -/
theorem Represents.set_self (h : Represents C userIndex s f) (p : Port) :
    Represents C userIndex (p.set C s (f p)) f := by
  have hset := h.set hdefaults p (f p)
  rwa [effective, if_pos (h p).2, Function.update_eq_self] at hset

/-- **A read keeps the table**, whether it writes or not. -/
theorem Represents.get (h : Represents C userIndex s f) (p : Port) :
    ∃ s', p.get C userIndex s = .ok (f p, s') ∧ Represents C userIndex s' f := by
  rcases get_of_holds (h p).1 with hget | hget
  · exact ⟨s, hget, h⟩
  · exact ⟨_, hget, h.set_self hdefaults p⟩

theorem Represents.initPorts (ps : List Port) (h : Represents C userIndex s f) :
    Represents C userIndex (initPorts C userIndex ps s).1 f := by
  induction ps generalizing s with
  | nil => exact h
  | cons p ps ih =>
      unfold Preference.initPorts initPort
      -- a port without a string is set to what a read of it returns
      by_cases hnull : s.getString C p.key = none
      · obtain ⟨s', hget, hs'⟩ := h.get hdefaults p
        rw [if_pos hnull, hget]
        exact ih (hs'.set_self hdefaults p)
      · rw [if_neg hnull]
        exact ih h

/-- **`initGlobal` keeps the table**: it sets ports to what a read of them
returns, and a flag that is no port. -/
theorem Represents.initGlobal (enabled : Bool) (h : Represents C userIndex s f) :
    Represents C userIndex (initGlobal C userIndex enabled s).1 f := by
  unfold Preference.initGlobal persistAcrossReboot
  cases s.getBoolean Key.persistAcrossReboot with
  | error e => exact h
  | ok flag =>
      cases flag with
      | some value => exact h.initPorts hdefaults _
      | none =>
          refine Represents.initPorts hdefaults _ ?_
          intro p
          rw [row_putBoolean, if_neg p.key_ne_persistAcrossReboot]
          exact h p

/-- **One access** does to the table what it should. -/
theorem Represents.apply (h : Represents C userIndex s f) (a : Access) :
    Represents C userIndex (apply C userIndex s a) (Settings.apply userIndex f a) := by
  cases a with
  | get p =>
      obtain ⟨s', hget, hs'⟩ := h.get hdefaults p
      simp only [Preference.apply, hget]
      exact hs'
  | set p value => exact h.set hdefaults p value
  | initGlobal enabled => exact h.initGlobal hdefaults enabled

theorem Represents.run (as : List Access) (h : Represents C userIndex s f) :
    Represents C userIndex (run C userIndex s as) (Settings.run userIndex f as) := by
  induction as generalizing s f with
  | nil => exact h
  | cons a as ih => exact ih (h.apply hdefaults a)

/-- Of a store that stands for a table, all reads are reads of the table. -/
theorem Represents.consistent (h : Represents C userIndex s f) : Consistent C userIndex s := by
  have hread : ∀ as p, read C userIndex (Preference.run C userIndex s as) p
      = .ok (Settings.run userIndex f as p) := fun as p =>
    read_of_holds ((h.run hdefaults as) p).1
  have happend : ∀ as bs, Settings.run userIndex f (as ++ bs)
      = Settings.run userIndex (Settings.run userIndex f as) bs := fun _ _ => List.foldl_append
  refine ⟨?_, ?_, ?_⟩
  · intro as p
    exact ⟨_, hread as p, ((h.run hdefaults as) p).2⟩
  · intro as bs p hbs
    rw [hread, hread, happend, Settings.run_same userIndex bs _ hbs]
  · intro as enabled bs p
    rw [hread, hread, happend, happend]
    rfl

end Refinement

/-! ## §3. When the reads are consistent. -/

section Main

variable {C : Charset} {userIndex : Int} {s : RoomPreferenceDataStore}

/-- An integer is returned as it is, and what it comes to only by the next
read. -/
theorem read_integer {p : Port} {v : BitVec 32} (h : s.getInt p.key = .ok (some v)) :
    read C userIndex s p = .ok v.toInt
      ∧ read C userIndex (run C userIndex s [.get p]) p
        = .ok (effective userIndex p v.toInt) := by
  have hget : p.get C userIndex s = .ok (v.toInt, p.set C s v.toInt) := by
    unfold Port.get getLocalPort
    rw [h]
    rfl
  have hrun : run C userIndex s [.get p] = p.set C s v.toInt := by
    simp only [run, List.foldl_cons, List.foldl_nil, apply, hget]
  refine ⟨?_, ?_⟩
  · rw [read, hget]
    rfl
  · rw [hrun]
    exact read_of_holds (holds_set p v.toInt)

/-- The rows of a legible store stand for a table if its integers are
ports. -/
theorem exists_represents (hlegible : Legible s) (hdefaults : DefaultsInRange userIndex)
    (hints : ∀ (p : Port) v, s.getInt p.key = .ok (some v) → InRange v.toInt) :
    ∃ f, Represents C userIndex s f := by
  have hport : ∀ p : Port, ∃ v,
      Holds C (p.default + userIndex) (s.kvPairDao p.key) v ∧ InRange v := by
    intro p
    obtain ⟨n, hn⟩ := hlegible p
    cases hlong : rowLong (s.kvPairDao p.key) with
    | error e =>
        have herror : s.getInt p.key = .error e := by
          unfold RoomPreferenceDataStore.getInt RoomPreferenceDataStore.getLong
          cases hrow : s.kvPairDao p.key with
          | none =>
              rw [hrow] at hlong
              exact absurd hlong (by simp [rowLong])
          | some r =>
              rw [hrow] at hlong
              show r.long.map _ = _
              rw [show r.long = .error e from hlong]
              rfl
        exact absurd (herror.symm.trans hn) (by simp)
    | ok l =>
        cases l with
        | none => exact ⟨_, Holds.text hlong, parsePort_inRange (hdefaults p) _⟩
        | some l => exact ⟨_, Holds.integer hlong, hints p _ (getInt_of_rowLong hlong)⟩
  choose f hf using hport
  exact ⟨f, hf⟩

/-- **THE LOCAL PORTS READ CONSISTENTLY** exactly if none of them is stored
as an integer out of range. -/
theorem ports_consistent_iff (C : Charset) (userIndex : Int) (s : RoomPreferenceDataStore)
    (hlegible : Legible s) (hdefaults : DefaultsInRange userIndex) :
    Consistent C userIndex s
      ↔ ∀ (p : Port) (v : BitVec 32), s.getInt p.key = .ok (some v) → InRange v.toInt := by
  constructor
  · intro h p v hv
    -- the first read returns the integer
    obtain ⟨w, hw, hrange⟩ := h.inRange [] p
    have hread : read C userIndex s p = .ok w := hw
    rw [(read_integer hv).1] at hread
    rwa [Except.ok.inj hread]
  · intro hints
    obtain ⟨f, hf⟩ := exists_represents (C := C) hlegible hdefaults hints
    exact hf.consistent hdefaults

end Main

/-- A store that holds one integer, as an old version wrote it. -/
def legacyStore (key : String) (value : BitVec 32) : RoomPreferenceDataStore :=
  ⟨KeyValuePair.Dao.put (fun _ => none)
    { key, valueType := KeyValuePair.TYPE_INT, value := toBigEndian 4 value.toNat }⟩

/-- An old integer that is a port reads consistently. -/
theorem ports_consistent_1081 :
    Legible (legacyStore Key.portProxy 1081) ∧ DefaultsInRange 10
      ∧ Consistent utf8 10 (legacyStore Key.portProxy 1081) := by
  have hlegible : Legible (legacyStore Key.portProxy 1081) := by
    intro p
    cases p
    · exact ⟨some 1081, rfl⟩
    · exact ⟨none, rfl⟩
    · exact ⟨none, rfl⟩
  have hdefaults : DefaultsInRange 10 := by
    intro p
    cases p <;> decide
  refine ⟨hlegible, hdefaults, (ports_consistent_iff utf8 10 _ hlegible hdefaults).mpr ?_⟩
  intro p v hv
  cases p with
  | portProxy =>
      obtain rfl : (1081 : BitVec 32) = v := Option.some.inj (Except.ok.inj hv)
      decide
  | portLocalDns => exact absurd (Except.ok.inj hv) (by simp)
  | portTransproxy => exact absurd (Except.ok.inj hv) (by simp)

/-- **Port 80, stored as an integer**: the first read returns 80, which is
out of range, and the second one the default. -/
theorem ports_80_then_1090 :
    read utf8 10 (legacyStore Key.portProxy 80) .portProxy = .ok 80
      ∧ read utf8 10 (run utf8 10 (legacyStore Key.portProxy 80) [.get .portProxy]) .portProxy
        = .ok 1090
      ∧ ¬ Consistent utf8 10 (legacyStore Key.portProxy 80) := by
  have hint : (legacyStore Key.portProxy 80).getInt Port.portProxy.key = .ok (some 80) := rfl
  have hfirst : read utf8 10 (legacyStore Key.portProxy 80) .portProxy = .ok 80 :=
    (read_integer hint).1
  refine ⟨hfirst, (read_integer hint).2, ?_⟩
  intro h
  obtain ⟨v, hv, hrange⟩ := h.inRange [] .portProxy
  obtain rfl := Except.ok.inj (hfirst.symm.trans hv)
  exact absurd hrange (by decide)

end Preference

end FoxVpn
