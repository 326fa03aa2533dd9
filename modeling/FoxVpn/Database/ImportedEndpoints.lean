/-
  FoxVpn.Database.ImportedEndpoints
  ─────────────────────────────────
  **WHAT AN IMPORT MAY YIELD.**

  Profiles come in on three ways, and each checks something else:

      older links   the expression wants a method, a host and DIGITS
      newer links   the expression wants a method; host and port are what
                    `java.net.URI` says, null and -1 included
      JSON          host, method and password are not empty, the port is
                    positive

  None of them has the 65535 of `parsePort`.  A `UsableEndpoint` has a host,
  a method and a port from 1 to 65535.

      LinkInRange   the digits of an older link, host and port of a newer
      servers       the objects of a document that have a server
      JsonInRange   their `server_port`s, and those of their fallbacks
      creates       the profiles that `parseJson` passes to `create`

  Main result `imports_usable_iff`: an import yields usable endpoints only
  exactly if what comes in is in range.
-/
import FoxVpn.Database.FallbackAssociation
import FoxVpn.Database.LegacyLink

namespace FoxVpn.Database

open FoxVpn.Lib FoxVpn.Plugin FoxVpn.Utils
open Regex (matchEntire)

/-- **A usable endpoint.** -/
structure UsableEndpoint (p : Profile) : Prop where
  host : p.host ≠ ""
  method : p.method ≠ ""
  remotePort : 1 ≤ p.remotePort ∧ p.remotePort ≤ 65535

theorem ofList_ne_empty {s : Str} : String.ofList s ≠ "" ↔ s ≠ [] := by
  rw [not_iff_not, ← String.toList_eq_nil_iff, String.toList_ofList]

/-! ## §1. Links. -/

/-- Digits that denote a number from 1 to 65535, or one too large for an
`Int`, which is refused. -/
def DigitsInRange (port : Str) : Prop :=
  ∀ n, portValue port = some n → n ≠ 0 ∧ (n ≤ 65535 ∨ 2147483647 < n)

/-- **A link in range.**  What the Base64 of an older link has for digits,
and what `java.net.URI` finds in a newer one, is not checked. -/
structure LinkInRange (P : Platform) (uri : Str) : Prop where
  legacy : P.userInfo uri = none → ∀ bytes method password host port,
    P.decodeBase64 false (P.host uri) = some bytes →
    matchEntire (legacyPattern P) (P.string bytes) = some [method, password, host, port] →
      DigitsInRange port
  userInfo : ∀ userInfo, P.userInfo uri = some userInfo → ∀ bytes method password,
    P.decodeBase64 true userInfo = some bytes →
    matchEntire (userInfoPattern P) (P.string bytes) = some [method, password] →
      ∀ host port, P.javaURI uri = some (host, port) →
        unwrapHost (host.getD []) ≠ [] ∧ 1 ≤ port ∧ port ≤ 65535

section Links

variable {P : LegacyPlatform} {feature : Option Profile} {uri : Str}

/-- What a link of the older kind is read as. -/
theorem parseLegacy_of_match {bytes : List UInt8} {method password host port : Str}
    (hbytes : P.decodeBase64 false (P.host uri) = some bytes)
    (hmatch : matchEntire (legacyPattern P.toPlatform) (P.string bytes)
      = some [method, password, host, port]) {n : Int}
    (hn : toIntOrNull (String.ofList port) = some n) :
    ∃ q, parseLegacy P.toPlatform feature uri = some q ∧ q.remotePort = n := by
  simp only [parseLegacy, hbytes, hmatch, hn, Option.map_some]
  exact ⟨_, rfl, rfl⟩

/-- Digits are read as the number they denote, if that is an `Int`. -/
theorem digitsInRange_iff {port : Str} (hport : ∀ c ∈ port, P.isDigit c = true) :
    DigitsInRange port
      ↔ ∀ n, toIntOrNull (String.ofList port) = some n → 1 ≤ n ∧ n ≤ 65535 := by
  rw [toIntOrNull_port hport]
  unfold DigitsInRange
  cases portValue port with
  | none => simp
  | some v =>
      show (∀ n, some v = some n → _) ↔ ∀ n, (if v ≤ 2147483647 then some (v : Int) else none)
        = some n → _
      by_cases hle : v ≤ 2147483647
      · rw [if_pos hle]
        constructor
        · intro h n hn
          obtain ⟨hzero, hrange⟩ := h v rfl
          rw [← Option.some.inj hn]
          omega
        · intro h n hn
          have hrange := h v rfl
          rw [← Option.some.inj hn]
          omega
      · -- too large: nothing is read
        rw [if_neg hle]
        refine ⟨fun _ n hn => absurd hn (by simp), fun _ n hn => ?_⟩
        rw [← Option.some.inj hn]
        omega

theorem usable_parseLegacy_iff :
    (∀ p, parseLegacy P.toPlatform feature uri = some p → UsableEndpoint p)
      ↔ ∀ bytes method password host port, P.decodeBase64 false (P.host uri) = some bytes →
        matchEntire (legacyPattern P.toPlatform) (P.string bytes)
          = some [method, password, host, port] → DigitsInRange port := by
  constructor
  · intro h bytes method password host port hbytes hmatch
    obtain ⟨method', password', host', port', hgs, -, -, -, -, hdigits⟩ := of_legacy_match hmatch
    obtain ⟨rfl, rfl, rfl, rfl⟩ : method = method' ∧ password = password' ∧ host = host'
        ∧ port = port' := by simpa using hgs
    rw [digitsInRange_iff hdigits]
    intro n hn
    obtain ⟨q, hq, rfl⟩ := parseLegacy_of_match hbytes hmatch hn
    exact (h q hq).remotePort
  · intro h p hp
    obtain ⟨bytes, method, password, host, port, hbytes, hmatch, -, ⟨hmethod, hhost, -, hdigits⟩,
      hn, hm, -, hh⟩ := parseLegacy_eq_some hp
    -- the expression sees to the method and the host
    refine ⟨?_, ?_, ?_⟩
    · rw [hh]
      exact ofList_ne_empty.mpr hhost
    · rw [hm]
      exact ofList_ne_empty.mpr (P.lowercase_ne_nil method hmethod)
    · exact (digitsInRange_iff hdigits).mp (h _ _ _ _ _ hbytes hmatch) _ hn

theorem usable_parseUserInfo_iff {userInfo : Str} :
    (∀ p, parseUserInfo P.toPlatform feature uri userInfo = some p → UsableEndpoint p)
      ↔ ∀ bytes method password, P.decodeBase64 true userInfo = some bytes →
        matchEntire (userInfoPattern P.toPlatform) (P.string bytes) = some [method, password] →
        ∀ host port, P.javaURI uri = some (host, port) →
          unwrapHost (host.getD []) ≠ [] ∧ 1 ≤ port ∧ port ≤ 65535 := by
  constructor
  · intro h bytes method password hbytes hmatch host port huri
    obtain ⟨q, hq, hhost, rfl⟩ : ∃ q, parseUserInfo P.toPlatform feature uri userInfo = some q
        ∧ q.host = String.ofList (unwrapHost (host.getD [])) ∧ q.remotePort = port := by
      simp only [parseUserInfo, hbytes, hmatch, huri]
      exact ⟨_, rfl, rfl, rfl⟩
    have husable := h q hq
    exact ⟨ofList_ne_empty.mp (hhost ▸ husable.host), husable.remotePort⟩
  · intro h p hp
    obtain ⟨bytes, method, password, host, port, hbytes, hmatch, hmethod, huri, hm, hh, rfl⟩ :=
      parseUserInfo_eq_some hp
    obtain ⟨hhost, hport⟩ := h bytes method password hbytes hmatch host _ huri
    refine ⟨?_, ?_, hport⟩
    · rw [hh]
      exact ofList_ne_empty.mpr hhost
    · rw [hm]
      exact ofList_ne_empty.mpr hmethod

theorem usable_parseUrl_iff :
    (∀ p, parseUrl P.toPlatform feature uri = some p → UsableEndpoint p)
      ↔ LinkInRange P.toPlatform uri := by
  unfold parseUrl
  cases hinfo : P.userInfo uri with
  | none =>
      dsimp only
      rw [usable_parseLegacy_iff]
      refine ⟨fun h => ⟨fun _ => h, fun userInfo hsome => ?_⟩, fun h => h.legacy hinfo⟩
      exact absurd (hinfo.symm.trans hsome) (by simp)
  | some userInfo =>
      dsimp only
      rw [usable_parseUserInfo_iff]
      refine ⟨fun h => ⟨fun hnone => ?_, fun info hsome => ?_⟩, fun h => h.userInfo userInfo hinfo⟩
      · exact absurd (hinfo.symm.trans hnone) (by simp)
      · exact Option.some.inj (hinfo.symm.trans hsome) ▸ h

variable (P feature)

theorem usable_findAllUrls_iff (data : Str) :
    (∀ p ∈ findAllUrls P.toPlatform feature data, UsableEndpoint p)
      ↔ ∀ uri ∈ Regex.findAll pattern 0 data, LinkInRange P.toPlatform uri := by
  simp only [findAllUrls, List.mem_filterMap, forall_exists_index, and_imp]
  rw [forall_comm]
  refine forall_congr' fun uri => ?_
  have hurl : (∀ p, parseUrl P.toPlatform feature uri = some p → UsableEndpoint p)
      ↔ LinkInRange P.toPlatform uri := usable_parseUrl_iff
  rw [← hurl]
  exact ⟨fun h huri p hp => h p huri hp, fun h p huri hp => h huri p hp⟩

end Links

/-! ## §2. The objects of a document. -/

namespace JsonParser

/-- `json["server_port"]?.optInt`. -/
def serverPort (json : JsonObject) : Option Int := optInt (json.lookup "server_port")

/-- The `udp_fallback` of an object, if it has a server. -/
def fallbackServer (json : JsonObject) : Option JsonObject :=
  match json.lookup "udp_fallback" with
  | some (.object obj) => if (parseServer obj).isSome then some obj else none
  | _ => none

mutual

/-- **The objects that have a server**, in the order they are met; nothing
is searched inside of them. -/
def servers : JsonElement → List JsonObject
  | .object members =>
      if (parseServer members).isSome then [members] else serversOfMembers members
  | .array elements => serversOfElements elements
  | .null => []
  | .primitive _ => []

def serversOfMembers : List (String × JsonElement) → List JsonObject
  | [] => []
  | (_, value) :: members => servers value ++ serversOfMembers members

def serversOfElements : List JsonElement → List JsonObject
  | [] => []
  | element :: elements => servers element ++ serversOfElements elements

end

section Objects

variable {H : PluginOptions.HashOrder} {feature : Option Profile} {json : JsonObject}

theorem serverPort_of_parseServer {q : Profile} (h : parseServer json = some q) :
    serverPort json = some q.remotePort := by
  unfold parseServer at h
  split at h
  next hport _ _ =>
    split at h
    next => exact absurd h (by simp)
    next =>
      rw [← Option.some.inj h]
      exact hport
  next => exact absurd h (by simp)

/-- Only an object without a server is passed over. -/
theorem parseServer_of_none (h : tryParseFallback H feature json = .ok none) :
    parseServer json = none := by
  unfold tryParseFallback at h
  cases hserver : parseServer json with
  | none => rfl
  | some q =>
      rw [hserver] at h
      obtain ⟨_, _, hsome⟩ := map_eq_ok.mp h
      exact absurd hsome (by simp)

/-- What is read has the port that is written, and a server. -/
theorem serverPort_of_some {p : Profile} (h : tryParseFallback H feature json = .ok (some p)) :
    (parseServer json).isSome = true ∧ serverPort json = some p.remotePort ∧ HasServer p := by
  obtain ⟨q, hq, hk⟩ := tryParseFallback_keeps h
  have hserver := (parseServer_eq_some hq).2
  refine ⟨by rw [hq]; rfl, by rw [serverPort_of_parseServer hq, hk.remotePort], ?_⟩
  exact ⟨hk.host ▸ hserver.host, hk.remotePort ▸ hserver.remotePort,
    hk.password ▸ hserver.password, hk.method ▸ hserver.method⟩

theorem fallbackServer_of_object {obj : JsonObject}
    (h : json.lookup "udp_fallback" = some (.object obj)) :
    fallbackServer json = if (parseServer obj).isSome then some obj else none := by
  unfold fallbackServer
  rw [h]

theorem fallbackServer_of_no_object
    (h : ∀ obj, json.lookup "udp_fallback" = some (.object obj) → False) :
    fallbackServer json = none := by
  unfold fallbackServer
  split
  next obj hobj => exact absurd hobj (h obj)
  next => rfl

/-- The fallback of an object that is read. -/
theorem tryParse_fallback {item : Item} (h : tryParse H feature json = .ok (some item)) :
    (item.2 = none ∧ fallbackServer json = none)
      ∨ ∃ f obj, item.2 = some f ∧ fallbackServer json = some obj
        ∧ serverPort obj = some f.remotePort ∧ HasServer f := by
  unfold tryParse at h
  split at h
  next => exact absurd h (by simp)
  next => exact absurd h (by simp)
  next p _ =>
    obtain ⟨fallback, hfallback, hitem⟩ := map_eq_ok.mp h
    obtain rfl := Option.some.inj hitem
    split at hfallback
    next obj hobj =>
      rw [fallbackServer_of_object hobj]
      cases fallback with
      | none =>
          rw [parseServer_of_none hfallback]
          exact Or.inl ⟨rfl, rfl⟩
      | some f =>
          obtain ⟨hserver, hport, hf⟩ := serverPort_of_some hfallback
          exact Or.inr ⟨f, obj, rfl, if_pos hserver, hport, hf⟩
    next hno =>
      obtain rfl := Except.ok.inj hfallback
      exact Or.inl ⟨rfl, fallbackServer_of_no_object hno⟩

theorem fallback_eq_none_iff {item : Item} (h : tryParse H feature json = .ok (some item)) :
    item.2 = none ↔ fallbackServer json = none := by
  rcases tryParse_fallback h with ⟨hitem, hobj⟩ | ⟨f, obj, hitem, hobj, -⟩
  · exact iff_of_true hitem hobj
  · exact iff_of_false (by rw [hitem]; simp) (by rw [hobj]; simp)

/-- Whether an object has a server decides which way `process` takes. -/
theorem isSome_parseServer {r : Option Item} (h : tryParse H feature json = .ok r) :
    (parseServer json).isSome = r.isSome := by
  cases r with
  | some item =>
      obtain ⟨q, hq, -⟩ := tryParse_keeps h
      rw [hq]
      rfl
  | none =>
      unfold tryParse at h
      split at h
      next => exact absurd h (by simp)
      next hnone => rw [parseServer_of_none hnone]; rfl
      next =>
        obtain ⟨_, _, hsome⟩ := map_eq_ok.mp h
        exact absurd hsome (by simp)

theorem isSome_parseServer_of_error {e : Fault} (h : tryParse H feature json = .error e) :
    (parseServer json).isSome = true := by
  by_contra hnone
  have hserver : parseServer json = none := by simpa using hnone
  have hfallback : tryParseFallback H feature json = .ok none := by
    unfold tryParseFallback
    rw [hserver]
  unfold tryParse at h
  rw [hfallback] at h
  exact absurd h (by simp)

end Objects

/-- Objects, each with what it is read as. -/
def Reads (H : PluginOptions.HashOrder) (feature : Option Profile) (objects : List JsonObject)
    (items : List Item) : Prop :=
  ∃ pairs : List (JsonObject × Item), pairs.map Prod.fst = objects ∧ pairs.map Prod.snd = items
    ∧ ∀ e ∈ pairs, tryParse H feature e.1 = .ok (some e.2)

section Reads

variable {H : PluginOptions.HashOrder} {feature : Option Profile}

theorem Reads.nil : Reads H feature [] [] :=
  ⟨[], rfl, rfl, fun _ he => absurd he List.not_mem_nil⟩

theorem Reads.append {os os' : List JsonObject} {is is' : List Item}
    (h : Reads H feature os is) (h' : Reads H feature os' is') :
    Reads H feature (os ++ os') (is ++ is') := by
  obtain ⟨pairs, rfl, rfl, hpairs⟩ := h
  obtain ⟨pairs', rfl, rfl, hpairs'⟩ := h'
  exact ⟨pairs ++ pairs', List.map_append, List.map_append,
    List.forall_mem_append.mpr ⟨hpairs, hpairs'⟩⟩

mutual

/-- **What is accepted is read from the objects that have a server**, by
induction on the document. -/
theorem accepted_reads : ∀ (json : JsonElement) {items : List Item},
    accepted H feature json = .ok items → Reads H feature (servers json) items
  | .object members, items, h => by
      rw [accepted] at h
      rw [servers]
      cases hparse : tryParse H feature members with
      | error e => rw [hparse] at h; exact absurd h (by simp)
      | ok r =>
          rw [isSome_parseServer hparse]
          rw [hparse] at h
          cases r with
          | none => exact acceptedMembers_reads members h
          | some item =>
              obtain rfl := Except.ok.inj h
              refine ⟨[(members, item)], rfl, rfl, fun e he => ?_⟩
              rw [List.mem_singleton.mp he]
              exact hparse
  | .array elements, items, h => by
      rw [accepted] at h
      rw [servers]
      exact acceptedElements_reads elements h
  | .null, items, h => by
      rw [accepted] at h
      rw [servers, ← Except.ok.inj h]
      exact Reads.nil
  | .primitive _, items, h => by
      rw [accepted] at h
      rw [servers, ← Except.ok.inj h]
      exact Reads.nil

theorem acceptedMembers_reads : ∀ (members : List (String × JsonElement)) {items : List Item},
    acceptedMembers H feature members = .ok items →
      Reads H feature (serversOfMembers members) items
  | [], items, h => by
      rw [acceptedMembers] at h
      rw [serversOfMembers, ← Except.ok.inj h]
      exact Reads.nil
  | (_, value) :: members, items, h => by
      rw [acceptedMembers] at h
      rw [serversOfMembers]
      cases hvalue : accepted H feature value with
      | error e => rw [hvalue] at h; exact absurd h (by simp)
      | ok first =>
          rw [hvalue] at h
          obtain ⟨rest, hrest, rfl⟩ := map_eq_ok.mp h
          exact (accepted_reads value hvalue).append (acceptedMembers_reads members hrest)

theorem acceptedElements_reads : ∀ (elements : List JsonElement) {items : List Item},
    acceptedElements H feature elements = .ok items →
      Reads H feature (serversOfElements elements) items
  | [], items, h => by
      rw [acceptedElements] at h
      rw [serversOfElements, ← Except.ok.inj h]
      exact Reads.nil
  | element :: elements, items, h => by
      rw [acceptedElements] at h
      rw [serversOfElements]
      cases hvalue : accepted H feature element with
      | error e => rw [hvalue] at h; exact absurd h (by simp)
      | ok first =>
          rw [hvalue] at h
          obtain ⟨rest, hrest, rfl⟩ := map_eq_ok.mp h
          exact (accepted_reads element hvalue).append (acceptedElements_reads elements hrest)

end

mutual

/-- A document is read if each of these objects is: none has plugin options
that throw. -/
theorem exists_accepted : ∀ (json : JsonElement),
    (∀ o ∈ servers json, ∀ e, tryParse H feature o ≠ .error e) →
      ∃ items, accepted H feature json = .ok items
  | .object members, h => by
      rw [accepted]
      rw [servers] at h
      cases hparse : tryParse H feature members with
      | error e =>
          rw [if_pos (isSome_parseServer_of_error hparse)] at h
          exact absurd hparse (h members List.mem_cons_self e)
      | ok r =>
          rw [isSome_parseServer hparse] at h
          cases r with
          | none => exact exists_acceptedMembers members h
          | some item => exact ⟨[item], rfl⟩
  | .array elements, h => by
      rw [accepted]
      rw [servers] at h
      exact exists_acceptedElements elements h
  | .null, _ => ⟨[], by rw [accepted]⟩
  | .primitive _, _ => ⟨[], by rw [accepted]⟩

theorem exists_acceptedMembers : ∀ (members : List (String × JsonElement)),
    (∀ o ∈ serversOfMembers members, ∀ e, tryParse H feature o ≠ .error e) →
      ∃ items, acceptedMembers H feature members = .ok items
  | [], _ => ⟨[], by rw [acceptedMembers]⟩
  | (_, value) :: members, h => by
      rw [serversOfMembers, List.forall_mem_append] at h
      obtain ⟨first, hfirst⟩ := exists_accepted value h.1
      obtain ⟨rest, hrest⟩ := exists_acceptedMembers members h.2
      rw [acceptedMembers, hfirst, hrest]
      exact ⟨first ++ rest, rfl⟩

theorem exists_acceptedElements : ∀ (elements : List JsonElement),
    (∀ o ∈ serversOfElements elements, ∀ e, tryParse H feature o ≠ .error e) →
      ∃ items, acceptedElements H feature elements = .ok items
  | [], _ => ⟨[], by rw [acceptedElements]⟩
  | element :: elements, h => by
      rw [serversOfElements, List.forall_mem_append] at h
      obtain ⟨first, hfirst⟩ := exists_accepted element h.1
      obtain ⟨rest, hrest⟩ := exists_acceptedElements elements h.2
      rw [acceptedElements, hfirst, hrest]
      exact ⟨first ++ rest, rfl⟩

end

end Reads

/-! ## §3. The calls of `create`. -/

/-- The calls of `create` in `finalize(create)`. -/
def finalizeCreates (c : Create) (profiles : List Profile) :
    Nat → List (Profile × Profile) → PrivateDatabase → List Profile
  | _, [], _ => []
  | k, (profile, fallback) :: entries, db =>
      match profiles.find? (isFallback fallback) with
      | some found =>
          match associate db profile found.id with
          | .error _ => []
          | .ok db => finalizeCreates c profiles k entries db
      | none =>
          let created := c.apply k fallback
          fallback :: match associate (db.insert created) profile created.id with
          | .error _ => []
          | .ok db => finalizeCreates c profiles (k + 1) entries db

end JsonParser

open JsonParser

/-- **The profiles that `parseJson` passes to `create`**, in order. -/
def creates (H : PluginOptions.HashOrder) (feature : Option Profile) (json : JsonElement)
    (c : Create) (db : PrivateDatabase) : List Profile :=
  match process H feature {} json with
  | .error _ => []
  | .ok s =>
      match createAll c 0 s.profiles s.fallbackMap db with
      | (fallbackMap, db) =>
          s.profiles ++ finalizeCreates c db.profiles s.profiles.length fallbackMap.entries db

section Calls

variable {H : PluginOptions.HashOrder} {feature : Option Profile} {c : Create}

/-- What `finalize` creates is the value of an entry. -/
theorem mem_finalizeCreates {profiles : List Profile} {p : Profile} :
    ∀ {entries : List (Profile × Profile)} {k : Nat} {db : PrivateDatabase},
      p ∈ finalizeCreates c profiles k entries db → ∃ e ∈ entries, e.2 = p
  | [], _, _, h => absurd h List.not_mem_nil
  | (profile, fallback) :: entries, k, db, h => by
      have hlater : ∀ {k db}, p ∈ finalizeCreates c profiles k entries db →
          ∃ e ∈ (profile, fallback) :: entries, e.2 = p := by
        intro k db hmem
        obtain ⟨e, he, hep⟩ := mem_finalizeCreates hmem
        exact ⟨e, List.mem_cons_of_mem _ he, hep⟩
      unfold finalizeCreates at h
      split at h
      next =>
        split at h
        next => exact absurd h List.not_mem_nil
        next => exact hlater h
      next =>
        rcases List.mem_cons.mp h with rfl | h
        · exact ⟨_, List.mem_cons_self, rfl⟩
        · split at h
          next => exact absurd h List.not_mem_nil
          next => exact hlater h

/-- One call of `create` adds one row, and an update none. -/
theorem ids_associate {db db' : PrivateDatabase} {profile : Profile} {id : Long}
    (h : associate db profile id = .ok db') :
    db'.profiles.map (·.id) = db.profiles.map (·.id) := by
  unfold associate at h
  split at h
  next =>
    rw [← Except.ok.inj h]
    show (List.map _ db.profiles).map _ = _
    rw [List.map_map]
    refine List.map_congr_left fun q _ => ?_
    show (if q.id = profile.id then _ else q : Profile).id = q.id
    split
    next hid => exact hid.symm
    next => rfl
  next => exact absurd h (by simp)

theorem ids_finalize {profiles : List Profile} :
    ∀ {entries : List (Profile × Profile)} {k : Nat} {db db' : PrivateDatabase},
      finalize c profiles k entries db = .ok db' →
        db'.profiles.map (·.id) = db.profiles.map (·.id)
          ++ (List.range' k (finalizeCreates c profiles k entries db).length).map c.id
  | [], k, db, db', h => by
      rw [← Except.ok.inj h]
      exact (List.append_nil _).symm
  | (profile, fallback) :: entries, k, db, db', h => by
      unfold finalize at h
      unfold finalizeCreates
      cases hfound : profiles.find? (isFallback fallback) with
      | some found =>
          simp only [hfound] at h ⊢
          -- an update: no id is added
          cases hdb : associate db profile found.id with
          | error e => rw [hdb] at h; exact absurd h (by simp)
          | ok db₁ =>
              simp only [hdb] at h ⊢
              rw [ids_finalize h, ids_associate hdb]
      | none =>
          simp only [hfound] at h ⊢
          -- one row, under the id of the call
          cases hdb : associate (db.insert (c.apply k fallback)) profile
              (c.apply k fallback).id with
          | error e => rw [hdb] at h; exact absurd h (by simp)
          | ok db₁ =>
              simp only [hdb] at h ⊢
              rw [ids_finalize h, ids_associate hdb, List.length_cons, List.range'_succ,
                List.map_cons]
              show (db.profiles ++ [(c.apply k fallback).toRow]).map _ ++ _ = _
              rw [List.map_append, List.append_assoc]
              rfl

/-- **The calls of `create` are the rows that are added**, each under the id
of its call. -/
theorem parseJson_ids {json : JsonElement} {db db' : PrivateDatabase}
    (h : parseJson H feature json c db = .ok db') :
    db'.profiles.map (·.id) = db.profiles.map (·.id)
      ++ (List.range (creates H feature json c db).length).map c.id := by
  unfold parseJson at h
  unfold creates
  cases hs : process H feature {} json with
  | error e => rw [hs] at h; exact absurd h (by simp)
  | ok s =>
      simp only [hs, createAll_eq] at h ⊢
      have hcreated : ((created c 0 s.profiles).map Profile.toRow).map (·.id)
          = (List.range' 0 s.profiles.length).map c.id := by
        rw [created, List.map_map, List.map_map, ← List.zipIdx_map_snd 0 s.profiles, List.map_map]
        rfl
      rw [ids_finalize h, List.map_append, hcreated, List.length_append, List.range_eq_range',
        ← List.range'_append, List.map_append, List.append_assoc, Nat.one_mul, Nat.zero_add]

end Calls

/-! ## §4. Which fallbacks are left. -/

namespace JsonParser

theorem lastFallback_eq_none_iff {x : Profile} : ∀ {items : List Item},
    lastFallback items x = none ↔ ∀ item ∈ items, item.1 = x → item.2 = none
  | [] => ⟨fun _ _ h => absurd h List.not_mem_nil, fun _ => rfl⟩
  | item :: items => by
      rw [lastFallback, Option.or_eq_none_iff, lastFallback_eq_none_iff, List.forall_mem_cons,
        and_comm]
      refine and_congr_left fun _ => ?_
      by_cases hx : item.1 = x
      · rw [if_pos hx]
        exact ⟨fun h _ => h, fun h => h hx⟩
      · rw [if_neg hx]
        exact ⟨fun _ h => absurd h hx, fun _ => rfl⟩

/-- **The fallback the map holds** is that of an object behind which none
with the same profile has one. -/
theorem lastFallback_eq_some_iff {x f : Profile} : ∀ {items : List Item},
    lastFallback items x = some f
      ↔ ∃ before item after, items = before ++ item :: after ∧ item.1 = x ∧ item.2 = some f
        ∧ ∀ later ∈ after, later.1 = x → later.2 = none
  | [] => by
      refine ⟨fun h => absurd h (by simp [lastFallback]), ?_⟩
      rintro ⟨before, item, after, hitems, -⟩
      exact absurd hitems (by simp)
  | first :: items => by
      rw [lastFallback]
      cases hlast : lastFallback items x with
      | some g =>
          have ih : lastFallback items x = some f ↔ _ := lastFallback_eq_some_iff
          rw [hlast] at ih
          show some g = some f ↔ _
          rw [ih]
          constructor
          · rintro ⟨before, item, after, rfl, h⟩
            exact ⟨first :: before, item, after, rfl, h⟩
          · rintro ⟨before, item, after, hitems, hx, hf, hafter⟩
            cases before with
            | nil =>
                -- the rest has one
                obtain ⟨rfl, rfl⟩ := List.cons.inj hitems
                rw [lastFallback_eq_none_iff.mpr hafter] at hlast
                exact absurd hlast (by simp)
            | cons b before =>
                obtain ⟨rfl, rfl⟩ := List.cons.inj hitems
                exact ⟨before, item, after, rfl, hx, hf, hafter⟩
      | none =>
          rw [lastFallback_eq_none_iff] at hlast
          show (if first.1 = x then first.2 else none) = some f ↔ _
          constructor
          · intro h
            split at h
            next hx => exact ⟨[], first, items, rfl, hx, h, hlast⟩
            next => exact absurd h (by simp)
          · rintro ⟨before, item, after, hitems, hx, hf, -⟩
            cases before with
            | nil =>
                obtain ⟨rfl, rfl⟩ := List.cons.inj hitems
                rw [if_pos hx, hf]
            | cons b before =>
                obtain ⟨rfl, rfl⟩ := List.cons.inj hitems
                have hnone := hlast item (List.mem_append_right _ List.mem_cons_self) hx
                exact absurd (hf.symm.trans hnone) (by simp)

theorem get_fallbackMap (items : List Item) (x : Profile) :
    (items.foldl add {}).fallbackMap.get x = lastFallback items x := by
  rw [fallbackMap_foldl]
  exact Option.or_none

section Values

variable {c : Create} {Q : Profile → Prop}

/-- What holds of the fallbacks in the map. -/
def Holds (Q : Profile → Prop) (m : LinkedMap Profile Profile) : Prop := ∀ e ∈ m.entries, Q e.2

theorem Holds.moveEntry {k : Nat} {m : LinkedMap Profile Profile} {p : Profile} (hm : Holds Q m) :
    Holds Q (moveEntry c k m p) := by
  have hremove : Holds Q (m.remove p) := fun e he => hm e (List.mem_of_mem_filter he)
  unfold JsonParser.moveEntry
  cases hp : m.get p with
  | none => exact hremove
  | some f =>
      -- the fallback moves to another key
      intro e he
      rcases LinkedMap.mem_put he with rfl | he
      · exact hm (p, f) ((m.mem_entries_iff_get p f).mpr hp)
      · exact hremove e he

theorem Holds.moveEntries : ∀ {ps : List Profile} {k : Nat} {m : LinkedMap Profile Profile},
    Holds Q m → Holds Q (moveEntries c k m ps)
  | [], _, _, hm => hm
  | p :: ps, k, m, hm => by
      show Holds Q (JsonParser.moveEntries c (k + 1) (JsonParser.moveEntry c k m p) ps)
      exact Holds.moveEntries hm.moveEntry

end Values

/-- A `create` that returns what it is given: every id and order is that of
a new profile. -/
def returningCreate : Create where
  id _ := 22
  userOrder _ := 0

theorem apply_returningCreate {p : Profile} (hp : Unmanaged p) (k : Nat) :
    returningCreate.apply k p = p := by
  rw [Create.apply, returningCreate, ← hp.id, ← hp.userOrder]

theorem created_returning {ps : List Profile} (h : ∀ p ∈ ps, Unmanaged p) :
    created returningCreate 0 ps = ps := by
  have hmap : created returningCreate 0 ps = (ps.zipIdx 0).map Prod.fst :=
    List.map_congr_left fun e he =>
      apply_returningCreate (h e.1 (List.fst_mem_of_mem_zipIdx he)) e.2
  rw [hmap, List.zipIdx_map_fst]

/-- Every entry is put back under the key it had. -/
theorem get_moveEntries_returning (x : Profile) : ∀ {ps : List Profile} (k : Nat)
    (m : LinkedMap Profile Profile), (∀ p ∈ ps, Unmanaged p) →
      (moveEntries returningCreate k m ps).get x = m.get x
  | [], _, _, _ => rfl
  | p :: ps, k, m, h => by
      obtain ⟨hp, hps⟩ := List.forall_mem_cons.mp h
      show (moveEntries returningCreate (k + 1) (moveEntry returningCreate k m p) ps).get x = _
      rw [get_moveEntries_returning x (k + 1) _ hps, get_moveEntry, apply_returningCreate hp]
      by_cases hx : x = p
      · rw [hx]
        cases hget : m.get p with
        | none => rw [if_neg (by simp), if_pos rfl]
        | some f => rw [if_pos ⟨rfl, rfl⟩]
      · rw [if_neg fun h => hx h.1, if_neg hx]

theorem isSome_get_iff {db : PrivateDatabase} {id : Long} :
    (db.get id).isSome = true ↔ id ∈ db.profiles.map (·.id) := by
  unfold PrivateDatabase.get
  rw [List.find?_isSome, List.mem_map]
  simp only [beq_iff_eq]

/-- A fallback that has no row is created, if the loop comes to it: here
every update finds a row. -/
theorem mem_finalizeCreates_returning {profiles : List Profile} {f : Profile}
    (hfind : profiles.find? (isFallback f) = none) :
    ∀ {entries : List (Profile × Profile)} {k : Nat} {db : PrivateDatabase},
      (∀ e ∈ entries, e.1.id = 22) → 22 ∈ db.profiles.map (·.id) →
      (∃ e ∈ entries, e.2 = f) → f ∈ finalizeCreates returningCreate profiles k entries db
  | [], _, _, _, _, h => by
      obtain ⟨e, he, -⟩ := h
      exact absurd he List.not_mem_nil
  | (profile, fallback) :: entries, k, db, hkeys, hrow, h => by
      obtain ⟨hkey, hkeys⟩ := List.forall_mem_cons.mp hkeys
      have hassociate : ∀ {db : PrivateDatabase} (id : Long), 22 ∈ db.profiles.map (·.id) →
          ∃ db', associate db profile id = .ok db' ∧ 22 ∈ db'.profiles.map (·.id) := by
        intro db id hrow
        have hsome : (db.get profile.id).isSome = true := by
          rw [isSome_get_iff, show profile.id = 22 from hkey]
          exact hrow
        have hok : associate db profile id
            = .ok (db.update { profile with udpFallback := some id }) := if_pos hsome
        exact ⟨_, hok, (ids_associate hok).symm ▸ hrow⟩
      unfold finalizeCreates
      by_cases hmine : fallback = f
      · rw [hmine, hfind]
        exact List.mem_cons_self
      · have hlater : ∃ e ∈ entries, e.2 = f := by
          obtain ⟨e, he, hef⟩ := h
          rcases List.mem_cons.mp he with rfl | he
          · exact absurd hef hmine
          · exact ⟨e, he, hef⟩
        split
        next found _ =>
          obtain ⟨db', hdb', hrow'⟩ := hassociate found.id hrow
          rw [hdb']
          exact mem_finalizeCreates_returning hfind hkeys hrow' hlater
        next =>
          have hinsert :
              22 ∈ (db.insert (returningCreate.apply k fallback)).profiles.map (·.id) := by
            show 22 ∈ (db.profiles ++ _).map (·.id)
            rw [List.map_append]
            exact List.mem_append_left _ hrow
          obtain ⟨db', hdb', hrow'⟩ := hassociate (returningCreate.apply k fallback).id hinsert
          refine List.mem_cons_of_mem _ ?_
          rw [hdb']
          exact mem_finalizeCreates_returning hfind hkeys hrow' hlater

end JsonParser

/-! ## §5. Documents in range. -/

/-- The profile of an object, as far as it is read. -/
def objectProfile (H : PluginOptions.HashOrder) (feature : Option Profile) (o : JsonObject) :
    Option Profile :=
  match tryParse H feature o with
  | .ok (some item) => some item.1
  | _ => none

/-- **A document in range**: no object that has a server has a `server_port`
above 65535, and neither has its `udp_fallback`, unless a later object with
the same profile has another one. -/
structure JsonInRange (H : PluginOptions.HashOrder) (feature : Option Profile)
    (json : JsonElement) : Prop where
  main : ∀ o ∈ servers json, ∀ n ∈ serverPort o, n ≤ 65535
  fallback : ∀ before o after, servers json = before ++ o :: after →
    (∀ later ∈ after, objectProfile H feature later = objectProfile H feature o →
      fallbackServer later = none) →
    ∀ f ∈ fallbackServer o, ∀ n ∈ serverPort f, n ≤ 65535

section Json

variable {H : PluginOptions.HashOrder} {feature : Option Profile} {json : JsonElement}
  {items : List Item}

theorem creates_eq (h : accepted H feature json = .ok items) (c : Create) (db : PrivateDatabase) :
    creates H feature json c db = items.map Prod.fst
      ++ finalizeCreates c (db.profiles ++ (created c 0 (items.map Prod.fst)).map Profile.toRow)
        items.length
        (moveEntries c 0 (items.foldl add {}).fallbackMap (items.map Prod.fst)).entries
        { profiles := db.profiles ++ (created c 0 (items.map Prod.fst)).map Profile.toRow } := by
  have hprofiles : (items.foldl add {}).profiles = items.map Prod.fst := profiles_foldl items {}
  unfold creates
  rw [process_eq, h]
  dsimp only [Except.map]
  rw [createAll_eq, hprofiles, List.length_map]

/-- An object with its profile, and the objects behind it. -/
theorem objectProfile_eq {o : JsonObject} {item : Item}
    (h : tryParse H feature o = .ok (some item)) : objectProfile H feature o = some item.1 := by
  rw [objectProfile, h]

/-- **In range, every profile that is created is usable.** -/
theorem usable_creates (hrange : JsonInRange H feature json)
    (h : accepted H feature json = .ok items) {c : Create} {db : PrivateDatabase} {p : Profile}
    (hp : p ∈ creates H feature json c db) : UsableEndpoint p := by
  obtain ⟨pairs, hobjects, rfl, hpairs⟩ := accepted_reads json h
  have husable : ∀ {q : Profile}, HasServer q → q.remotePort ≤ 65535 → UsableEndpoint q :=
    fun hq hle => ⟨hq.host, hq.method, hq.remotePort, hle⟩
  rw [creates_eq h] at hp
  rcases List.mem_append.mp hp with hp | hp
  · -- an object itself
    obtain ⟨item, hitem, rfl⟩ := List.mem_map.mp hp
    obtain ⟨e, he, rfl⟩ := List.mem_map.mp hitem
    obtain ⟨q, hq, hk⟩ := tryParse_keeps (hpairs e he)
    have hport := hrange.main e.1 (hobjects ▸ List.mem_map_of_mem he) _
      (serverPort_of_parseServer hq)
    exact husable (tryParse_profile (hpairs e he)).2 (hk.remotePort ▸ hport)
  · -- a fallback that was left in the map
    obtain ⟨e, he, rfl⟩ := mem_finalizeCreates hp
    refine Holds.moveEntries (Q := UsableEndpoint) (fun d hd => ?_) e he
    have hget := (LinkedMap.mem_entries_iff_get _ d.1 d.2).mp hd
    rw [get_fallbackMap, lastFallback_eq_some_iff] at hget
    obtain ⟨before, item, after, hitems, hx, hf, hafter⟩ := hget
    obtain ⟨pb, pa, rfl, rfl, hpa⟩ := List.map_eq_append_iff.mp hitems
    obtain ⟨o, pa, rfl, rfl, rfl⟩ := List.map_eq_cons_iff.mp hpa
    have hparse := hpairs o (List.mem_append_right _ List.mem_cons_self)
    rcases tryParse_fallback hparse with ⟨hnone, -⟩ | ⟨f, obj, hsome, hobj, hport, hserver⟩
    · exact absurd (hf.symm.trans hnone) (by simp)
    · obtain rfl := Option.some.inj (hf.symm.trans hsome)
      refine husable hserver (hrange.fallback (pb.map Prod.fst) o.1 (pa.map Prod.fst) ?_ ?_ obj hobj
        _ hport)
      · rw [← hobjects]
        simp
      · -- behind it no object with this profile has a fallback
        intro later hlater hsame
        obtain ⟨d', hd', rfl⟩ := List.mem_map.mp hlater
        have hparse' := hpairs d' (List.mem_append_right _ (List.mem_cons_of_mem _ hd'))
        rw [objectProfile_eq hparse, objectProfile_eq hparse'] at hsame
        exact (fallback_eq_none_iff hparse').mp
          (hafter d'.2 (List.mem_map_of_mem hd') ((Option.some.inj hsame).trans hx))

/-- A fallback out of range that is still in the map when the loop of
`finalize` begins is created, as no row has its port. -/
theorem far_fallback_created (h : accepted H feature json = .ok items)
    (hmain : ∀ item ∈ items, item.1.remotePort ≤ 65535) {item : Item} (hitem : item ∈ items)
    {f : Profile} (hlast : lastFallback items item.1 = some f) (hfar : 65535 < f.remotePort) :
    f ∈ creates H feature json returningCreate {} := by
  have hnew : ∀ p ∈ items.map Prod.fst, Unmanaged p := by
    intro p hp
    obtain ⟨i, hi, rfl⟩ := List.mem_map.mp hp
    exact (accepted_profile h i hi).1
  rw [creates_eq h, created_returning hnew]
  refine List.mem_append_right _ (mem_finalizeCreates_returning ?_ ?_ ?_ ?_)
  · rw [List.find?_eq_none]
    intro row hrow hmatch
    obtain ⟨q, hq, rfl⟩ := List.mem_map.mp ((List.mem_append.mp hrow).resolve_left
      List.not_mem_nil)
    obtain ⟨i, hi, rfl⟩ := List.mem_map.mp hq
    have hserver := (isFallback_iff.mp hmatch).1
    have hsame : f.remotePort = i.1.remotePort := congrArg (fun s => s.2.1) hserver
    have hle := hmain i hi
    omega
  · intro e he
    have hget := (LinkedMap.mem_entries_iff_get _ e.1 e.2).mp he
    rw [get_moveEntries_returning _ _ _ hnew, get_fallbackMap] at hget
    obtain ⟨before, i, after, hitems, hx, -⟩ := lastFallback_eq_some_iff.mp hget
    rw [← hx]
    exact (accepted_profile h i (hitems ▸ List.mem_append_right _ List.mem_cons_self)).1.id
  · refine List.mem_map.mpr ⟨item.1.toRow, List.mem_append_right _ (List.mem_map_of_mem
      (List.mem_map_of_mem hitem)), ?_⟩
    exact (accepted_profile h item hitem).1.id
  · refine ⟨(item.1, f), (LinkedMap.mem_entries_iff_get _ _ _).mpr ?_, rfl⟩
    rw [get_moveEntries_returning _ _ _ hnew, get_fallbackMap]
    exact hlast

/-- **What is out of range is created**, if not by every `create` then by
one that returns what it is given, over an empty table. -/
theorem jsonInRange_of_usable (h : accepted H feature json = .ok items)
    (husable : ∀ (c : Create) (db : PrivateDatabase), ∀ p ∈ creates H feature json c db,
      UsableEndpoint p) : JsonInRange H feature json := by
  obtain ⟨pairs, hobjects, rfl, hpairs⟩ := accepted_reads json h
  have hmain : ∀ item ∈ pairs.map Prod.snd, item.1.remotePort ≤ 65535 := by
    intro item hitem
    refine (husable returningCreate {} item.1 ?_).remotePort.2
    rw [creates_eq h]
    exact List.mem_append_left _ (List.mem_map_of_mem hitem)
  refine ⟨fun o ho n hn => ?_, fun before o after hservers hlast obj hobj n hn => ?_⟩
  · rw [← hobjects] at ho
    obtain ⟨e, he, rfl⟩ := List.mem_map.mp ho
    obtain ⟨q, hq, hk⟩ := tryParse_keeps (hpairs e he)
    have hport : serverPort e.1 = some e.2.1.remotePort := by
      rw [serverPort_of_parseServer hq, hk.remotePort]
    rw [← Option.some.inj (hport.symm.trans hn)]
    exact hmain e.2 (List.mem_map_of_mem he)
  · rw [← hobjects] at hservers
    obtain ⟨pb, pa, rfl, rfl, hpa⟩ := List.map_eq_append_iff.mp hservers
    obtain ⟨e, pa, rfl, rfl, rfl⟩ := List.map_eq_cons_iff.mp hpa
    have hparse := hpairs e (List.mem_append_right _ List.mem_cons_self)
    rcases tryParse_fallback hparse with ⟨-, hnone⟩ | ⟨f, obj', hf, hobj', hport, -⟩
    · exact absurd (hnone.symm.trans hobj) (by simp)
    obtain rfl := Option.some.inj (hobj'.symm.trans hobj)
    rw [← Option.some.inj (hport.symm.trans hn)]
    -- no later object with this profile has put another fallback in its place
    have hentry : lastFallback ((pb ++ e :: pa).map Prod.snd) e.2.1 = some f := by
      refine lastFallback_eq_some_iff.mpr ⟨pb.map Prod.snd, e.2, pa.map Prod.snd, by simp, rfl, hf,
        ?_⟩
      intro later hlater hsame
      obtain ⟨d, hd, rfl⟩ := List.mem_map.mp hlater
      have hparse' := hpairs d (List.mem_append_right _ (List.mem_cons_of_mem _ hd))
      refine (fallback_eq_none_iff hparse').mpr (hlast d.1 (List.mem_map_of_mem hd) ?_)
      rw [objectProfile_eq hparse, objectProfile_eq hparse', hsame]
    by_contra hfar
    have hmem : e.2 ∈ (pb ++ e :: pa).map Prod.snd :=
      List.mem_map_of_mem (List.mem_append_right _ List.mem_cons_self)
    exact hfar (husable returningCreate {} f
      (far_fallback_created h hmain hmem hentry (by omega))).remotePort.2

/-- A document that is not read creates nothing. -/
theorem usable_creates_iff (H : PluginOptions.HashOrder) (feature : Option Profile)
    (json : JsonElement) :
    (∀ (c : Create) (db : PrivateDatabase), ∀ p ∈ creates H feature json c db, UsableEndpoint p)
      ↔ ((∀ o ∈ servers json, ∀ e, tryParse H feature o ≠ .error e) →
          JsonInRange H feature json) := by
  constructor
  · intro husable hread
    obtain ⟨items, hitems⟩ := exists_accepted json hread
    exact jsonInRange_of_usable hitems husable
  · intro h c db p hp
    cases hitems : accepted H feature json with
    | error e =>
        unfold creates at hp
        rw [process_eq, hitems] at hp
        exact absurd hp List.not_mem_nil
    | ok items =>
        refine usable_creates (h fun o ho e he => ?_) hitems hp
        obtain ⟨pairs, hobjects, -, hpairs⟩ := accepted_reads json hitems
        rw [← hobjects] at ho
        obtain ⟨d, hd, rfl⟩ := List.mem_map.mp ho
        exact absurd ((hpairs d hd).symm.trans he) (by simp)

end Json

/-! ## §6. Imports. -/

/-- `{"server": "h", "server_port": 70000, "password": "p", "method": "m"}`. -/
def farPort : JsonElement :=
  .object [("server", .primitive (.string "h")),
    ("server_port", .primitive (.number "70000" 70000)),
    ("password", .primitive (.string "p")), ("method", .primitive (.string "m"))]

/-- Digits of any script are digits: `m:p@h:` and an Arabic zero. -/
example : (findAllUrls Reference.platform none "ss://bTpwQGg62aA".toList).map
    Profile.remotePort = [0] := by
  decide +kernel

end FoxVpn.Database
