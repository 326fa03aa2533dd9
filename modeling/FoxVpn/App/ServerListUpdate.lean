/-
  FoxVpn.App.ServerListUpdate
  ───────────────────────────
  **ALL OR NOTHING: `parsePeiHr` AND `parseAiec`, statement by statement.**

  Three layers can throw: Base64, the JSON parser, and the cast of any one
  element.  The list is CLEARED in the middle of a `try` whose exceptions are
  swallowed, and what a statement has done before an exception stays done.
  So the functions are written here in the order of their statements, over
  the state they assign, and a block returns the state in which it was left.

  `update_eq`: the statements do to the list what `parseServers` says, since
  all that can throw comes before the clear.  Main result
  `parse_all_or_nothing`, over any decoder; §3 is one, and a string that it
  decodes.
-/
import Mathlib.Data.List.Forall2
import FoxVpn.App.FoxFbManager
import FoxVpn.Lib.Base64
import FoxVpn.Lib.Percent
import FoxVpn.Lib.Result

namespace FoxVpn.App

open FoxVpn.Lib

/-! ## §1. The statements. -/

/-- The exceptions of the three layers. -/
inductive Thrown where
  | illegalArgument
  | json
  | classCast
  deriving Repr, DecidableEq

/-- `org.json.JSONArray`: an element may be null, as in `[,]`. -/
abbrev JSONArray := List (Option JSONValue)

/-- What the platform makes of a string. -/
structure Decoder where
  /-- `Base64.decode(_, DEFAULT)`. -/
  base64 : String → Except Thrown (List UInt8)
  /-- `String(_)`. -/
  string : List UInt8 → String
  /-- `JSONArray(_)`. -/
  jsonArray : String → Except Thrown JSONArray
  /-- The empty string is the Base64 of nothing, and that is no array. -/
  empty : ∃ e, (base64 "").bind (fun bytes => jsonArray (string bytes)) = .error e

/-- The block of `runCatching`. -/
def Decoder.decode (D : Decoder) (result : String) : Except Thrown JSONArray :=
  (D.base64 result).bind fun bytes => D.jsonArray (D.string bytes)

namespace JSONArray

/-- `array[i]`, which throws for a null. -/
def get (array : JSONArray) (i : Nat) : Except Thrown JSONValue :=
  match array[i]? with
  | some (some v) => .ok v
  | _ => .error .json

/-- `_ as JSONObject`. -/
def cast : JSONValue → Except Thrown JSONObject
  | .object o => .ok o
  | .other => .error .classCast

/-- `(0 until array.length()).map { array[it] as JSONObject }`. -/
def items (array : JSONArray) : Except Thrown (List JSONObject) :=
  (List.range array.length).mapM fun i => (get array i).bind cast

end JSONArray

/-- The list that a function assigns. -/
inductive ServerList where
  | foxSmartServers
  | foxServers
  deriving Repr, DecidableEq

namespace ServerList

def read : ServerList → FoxFbManager → List ServerItem
  | .foxSmartServers, s => s.foxSmartServers
  | .foxServers, s => s.foxServers

def assign : ServerList → FoxFbManager → List ServerItem → FoxFbManager
  | .foxSmartServers, s, servers => { s with foxSmartServers := servers }
  | .foxServers, s, servers => { s with foxServers := servers }

def clear (t : ServerList) (s : FoxFbManager) : FoxFbManager := t.assign s []

def add (t : ServerList) (s : FoxFbManager) (o : JSONObject) : FoxFbManager :=
  t.assign s (t.read s ++ [o.serverItem])

/-- The `try` block: the state it leaves behind, whether it throws or not. -/
def tryBlock (t : ServerList) (array : JSONArray) (s : FoxFbManager) :
    Except Thrown Unit × FoxFbManager :=
  match array.items with
  | .error e => (.error e, s)
  | .ok items => (.ok (), items.foldl t.add (t.clear s))

/-- The body of both functions. -/
def update (t : ServerList) (D : Decoder) (s : FoxFbManager) (result : String) : FoxFbManager :=
  if result = "" then s
  else
    match D.decode result with
    | .error _ => s
    | .ok array => if array.length = 0 then s else (t.tryBlock array s).2

def parsePeiHr (D : Decoder) (s : FoxFbManager) (result : String) : FoxFbManager :=
  ServerList.foxSmartServers.update D s result

def parseAiec (D : Decoder) (s : FoxFbManager) (result : String) : FoxFbManager :=
  ServerList.foxServers.update D s result

/-! ## §2. What they come to. -/

@[simp] theorem read_assign (t : ServerList) (s : FoxFbManager) (servers : List ServerItem) :
    t.read (t.assign s servers) = servers := by
  cases t <;> rfl

@[simp] theorem assign_assign (t : ServerList) (s : FoxFbManager) (l m : List ServerItem) :
    t.assign (t.assign s l) m = t.assign s m := by
  cases t <;> rfl

@[simp] theorem assign_read (t : ServerList) (s : FoxFbManager) : t.assign s (t.read s) = s := by
  cases t <;> rfl

/-- The loop of `add` appends its items in order. -/
theorem foldl_add (t : ServerList) : ∀ (items : List JSONObject) (s : FoxFbManager)
    (servers : List ServerItem),
    items.foldl t.add (t.assign s servers)
      = t.assign s (servers ++ items.map JSONObject.serverItem)
  | [], s, servers => by rw [List.map_nil, List.append_nil]; rfl
  | o :: items, s, servers => by
      have hadd : t.add (t.assign s servers) o = t.assign s (servers ++ [o.serverItem]) := by
        rw [add, read_assign, assign_assign]
      rw [List.foldl_cons, hadd, foldl_add t items, List.append_assoc]
      rfl

end ServerList

namespace JSONArray

/-- The array whose elements are these objects. -/
def ofObjects (items : List JSONObject) : JSONArray := items.map fun o => some (.object o)

theorem get_cast_eq_ok {array : JSONArray} {i : Nat} {o : JSONObject} :
    (get array i).bind cast = .ok o ↔ array[i]? = some (some (.object o)) := by
  unfold get
  cases array[i]? with
  | none => simp [Except.bind]
  | some v =>
      cases v with
      | none => simp [Except.bind]
      | some v =>
          cases v with
          | object o' => simp [Except.bind, cast]
          | other => simp [Except.bind, cast]

/-- **The casts succeed** on an array of objects and on no other. -/
theorem items_eq_ok {array : JSONArray} {items : List JSONObject} :
    array.items = .ok items ↔ array = ofObjects items := by
  unfold JSONArray.items
  rw [mapM_ok_iff, List.forall₂_iff_get]
  simp only [List.length_range, List.get_eq_getElem, List.getElem_range, get_cast_eq_ok]
  constructor
  · rintro ⟨hlen, h⟩
    refine List.ext_getElem (by simp [ofObjects, hlen]) fun i h₁ h₂ => ?_
    have hi := h i (by omega) (by omega)
    rw [List.getElem?_eq_getElem h₁] at hi
    simpa [ofObjects] using Option.some.inj hi
  · rintro rfl
    refine ⟨by simp [ofObjects], fun i h₁ h₂ => ?_⟩
    simp [ofObjects, h₂]

/-- The same array with the nulls as values that are no objects. -/
def values (array : JSONArray) : List JSONValue := array.map fun v => v.getD .other

theorem values_mapM : ∀ {array : JSONArray} {items : List JSONObject},
    array.values.mapM JSONValue.asObject = some items ↔ array = ofObjects items
  | [], items => by
      constructor
      · intro h
        obtain rfl : [] = items := Option.some.inj h
        rfl
      · intro h
        rw [List.map_eq_nil_iff.mp h.symm]
        rfl
  | v :: array, items => by
      have hrest := @values_mapM array
      show (v.getD .other :: JSONArray.values array).mapM JSONValue.asObject = some items ↔ _
      rw [List.mapM_cons]
      match v with
      | some (.object o) =>
          simp only [Option.getD_some, JSONValue.asObject, Option.bind_eq_bind, Option.bind_some,
            Option.bind_eq_some_iff, Option.pure_def, Option.some.injEq, hrest, ofObjects]
          constructor
          · rintro ⟨os, rfl, rfl⟩
            rfl
          · intro h
            cases items with
            | nil => simp at h
            | cons o' os =>
                simp only [List.map_cons, List.cons.injEq, Option.some.injEq,
                  JSONValue.object.injEq] at h
                exact ⟨os, h.2, by rw [h.1]⟩
      | some .other => cases items <;> simp [JSONValue.asObject, ofObjects]
      | none => cases items <;> simp [JSONValue.asObject, ofObjects]

end JSONArray

/-- The decoding that `parseServers` is given. -/
def Decoder.values (D : Decoder) (result : String) : Option (List JSONValue) :=
  (D.decode result).toOption.map JSONArray.values

namespace ServerList

/-- **Nothing throws after the clear**: the statements do to the list what
`parseServers` says, and nothing to anything else. -/
theorem update_eq (t : ServerList) (D : Decoder) (s : FoxFbManager) (result : String) :
    t.update D s result = t.assign s (parseServers D.values (t.read s) result) := by
  unfold update parseServers Decoder.values
  by_cases hempty : result = ""
  · rw [if_pos hempty, if_pos hempty, assign_read]
  · rw [if_neg hempty, if_neg hempty]
    cases D.decode result with
    | error e => exact (assign_read t s).symm
    | ok array =>
        show (if array.length = 0 then s else (t.tryBlock array s).2)
          = t.assign s (if array.values.length = 0 then t.read s else _)
        have hlen : array.values.length = array.length := List.length_map _
        rw [hlen]
        by_cases hzero : array.length = 0
        · rw [if_pos hzero, if_pos hzero, assign_read]
        · rw [if_neg hzero, if_neg hzero]
          unfold tryBlock
          cases hitems : array.items with
          | ok items =>
              rw [JSONArray.values_mapM.mpr (JSONArray.items_eq_ok.mp hitems)]
              exact foldl_add t items s []
          | error e =>
              -- one element is no object
              cases hvalues : array.values.mapM JSONValue.asObject with
              | none => exact (assign_read t s).symm
              | some items =>
                  have hok := JSONArray.items_eq_ok.mpr (JSONArray.values_mapM.mp hvalues)
                  exact absurd (hitems.symm.trans hok) (by simp)

/-- The string decodes to a non-empty array of these objects. -/
def Decodes (D : Decoder) (result : String) (items : List JSONObject) : Prop :=
  items ≠ [] ∧ D.decode result = .ok (JSONArray.ofObjects items)

theorem Decodes.ne_empty {D : Decoder} {result : String} {items : List JSONObject}
    (h : Decodes D result items) : result ≠ "" := by
  rintro rfl
  obtain ⟨e, he⟩ := D.empty
  exact absurd (h.2.symm.trans he) (by simp)

theorem usable_iff_decodes {D : Decoder} {result : String} :
    Usable D.values result ↔ ∃ items, Decodes D result items := by
  constructor
  · rintro ⟨-, values, items, hdec, hne, hitems⟩
    unfold Decoder.values at hdec
    obtain ⟨array, harray, rfl⟩ := Option.map_eq_some_iff.mp hdec
    obtain rfl := JSONArray.values_mapM.mp hitems
    refine ⟨items, ?_, ?_⟩
    · rintro rfl
      exact hne rfl
    · cases hd : D.decode result with
      | error e =>
          rw [hd] at harray
          exact absurd harray (by simp [Except.toOption])
      | ok a =>
          rw [hd] at harray
          exact congrArg Except.ok (Option.some.inj harray)
  · rintro ⟨items, h⟩
    refine ⟨h.ne_empty, (JSONArray.ofObjects items).values, items, ?_, ?_,
      JSONArray.values_mapM.mpr rfl⟩
    · rw [Decoder.values, h.2]
      rfl
    · simpa [JSONArray.values, JSONArray.ofObjects] using h.1

theorem parseServers_decodes {D : Decoder} {result : String} {items : List JSONObject}
    (h : Decodes D result items) (servers : List ServerItem) :
    parseServers D.values servers result = items.map JSONObject.serverItem := by
  have hvalues : D.values result = some (JSONArray.ofObjects items).values := by
    rw [Decoder.values, h.2]
    rfl
  have hlen : (JSONArray.ofObjects items).values.length ≠ 0 := by
    simpa [JSONArray.values, JSONArray.ofObjects] using h.1
  unfold parseServers
  rw [if_neg h.ne_empty, hvalues]
  show (if (JSONArray.ofObjects items).values.length = 0 then servers else _) = _
  rw [if_neg hlen, JSONArray.values_mapM.mpr rfl]

/-- What becomes of the list `t`, and of everything else, from `s` to
`s'`. -/
structure AllOrNothing (D : Decoder) (t : ServerList) (result : String) (s s' : FoxFbManager) :
    Prop where
  /-- Exactly as before, or all elements in order. -/
  outcome : s' = s
    ∨ ∃ items, Decodes D result items ∧ t.read s' = items.map JSONObject.serverItem
  /-- Replaced if the string decodes … -/
  replaced : ∀ items, Decodes D result items → t.read s' = items.map JSONObject.serverItem
  /-- … and only then. -/
  kept : (¬ ∃ items, Decodes D result items) → s' = s
  nonempty : t.read s ≠ [] → t.read s' ≠ []
  /-- Nothing but the list is assigned. -/
  frame : s' = t.assign s (t.read s')

theorem update_allOrNothing (t : ServerList) (D : Decoder) (s : FoxFbManager) (result : String) :
    AllOrNothing D t result s (t.update D s result) := by
  have hreplaced : ∀ items, Decodes D result items →
      t.read (t.update D s result) = items.map JSONObject.serverItem := by
    intro items h
    rw [update_eq, read_assign, parseServers_decodes h]
  have hkept : (¬ ∃ items, Decodes D result items) → t.update D s result = s := by
    intro h
    rw [update_eq, parseServers_unusable (mt usable_iff_decodes.mp h), assign_read]
  refine ⟨?_, hreplaced, hkept, ?_, ?_⟩
  · by_cases h : ∃ items, Decodes D result items
    · obtain ⟨items, h⟩ := h
      exact Or.inr ⟨items, h, hreplaced items h⟩
    · exact Or.inl (hkept h)
  · intro hne
    rw [update_eq, read_assign]
    exact parseServers_ne_nil hne result
  · rw [update_eq, read_assign]

/-- **A SERVER LIST IS UPDATED AS A WHOLE OR NOT AT ALL**, whatever the
string, by either function. -/
theorem parse_all_or_nothing (D : Decoder) (s : FoxFbManager) (result : String) :
    AllOrNothing D .foxSmartServers result s (parsePeiHr D s result)
      ∧ AllOrNothing D .foxServers result s (parseAiec D s result) :=
  ⟨update_allOrNothing .foxSmartServers D s result, update_allOrNothing .foxServers D s result⟩

end ServerList

/-! ## §3. A decoder. -/

namespace Reference

/-- The elements of an array up to its bracket: `true` for an object without
members, `false` for null. -/
def elements : List Char → Option (List Bool)
  | ['{', '}', ']'] => some [true]
  | ['n', 'u', 'l', 'l', ']'] => some [false]
  | '{' :: '}' :: ',' :: s => (elements s).map (true :: ·)
  | 'n' :: 'u' :: 'l' :: 'l' :: ',' :: s => (elements s).map (false :: ·)
  | _ => none

/-- The object without members. -/
def noMembers : JSONObject where
  optString _ := ""
  optInt _ := 0

/-- Base64 with or without padding, UTF-8, and arrays of nulls and of
objects without members. -/
def decoder : Decoder where
  base64 s :=
    match Base64.decode (Base64.characters false) (s.toList.filter (· ≠ '=')) with
    | none => .error .illegalArgument
    | some bytes => .ok bytes
  string bytes := String.ofList (Percent.utf8Decode bytes)
  jsonArray s :=
    match s.toList with
    | ['[', ']'] => .ok []
    | '[' :: s =>
        match elements s with
        | none => .error .json
        | some es => .ok (es.map fun e => some (if e then .object noMembers else .other))
    | _ => .error .json
  empty := ⟨.json, by rfl⟩

end Reference

namespace ServerList

/-- **`W3t9LHt9XQ==`** is `[{},{}]`: both lists are replaced, by two servers
that have nothing but the defaults. -/
theorem parse_two_servers :
    Decodes Reference.decoder "W3t9LHt9XQ==" [Reference.noMembers, Reference.noMembers]
      ∧ (parsePeiHr Reference.decoder {} "W3t9LHt9XQ==").foxSmartServers
        = [Reference.noMembers.serverItem, Reference.noMembers.serverItem]
      ∧ (parseAiec Reference.decoder {} "W3t9LHt9XQ==").foxServers
        = [Reference.noMembers.serverItem, Reference.noMembers.serverItem] := by
  have hbytes : Reference.decoder.base64 "W3t9LHt9XQ=="
      = .ok [91, 123, 125, 44, 123, 125, 93] := by decide +kernel
  have htext : Reference.decoder.string [91, 123, 125, 44, 123, 125, 93]
      = "[\x7b\x7d,\x7b\x7d]" := by decide +kernel
  have hdecodes : Decodes Reference.decoder "W3t9LHt9XQ=="
      [Reference.noMembers, Reference.noMembers] := by
    refine ⟨by simp, ?_⟩
    rw [Decoder.decode, hbytes, Except.bind, htext]
    rfl
  obtain ⟨hsmart, hservers⟩ := parse_all_or_nothing Reference.decoder {} "W3t9LHt9XQ=="
  exact ⟨hdecodes, hsmart.replaced _ hdecodes, hservers.replaced _ hdecodes⟩

end ServerList

end FoxVpn.App
