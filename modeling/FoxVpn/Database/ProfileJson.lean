/-
  FoxVpn.Database.ProfileJson
  ───────────────────────────
  **PROFILES IN JSON: THE READER.**

  `JsonParser` walks a JSON document and collects profiles.  An object is
  ACCEPTED if it has a server, a positive port, a password and a method;
  everything else about it is optional.  An object that is not accepted is
  no error: its members are searched.

      tryParse   one object: its profile, and the profile of its
                 `udp_fallback` if that is acceptable as well
      process    the whole document; the state is the list of profiles and
                 the map from profiles to their fallbacks
      accepted   the same document as the plain list of what was accepted

  `process_eq`: walking the document with the state is adding what was
  accepted, in order.
-/
import FoxVpn.Lib.LinkedMap
import FoxVpn.Lib.Result
import FoxVpn.Plugin.PluginOptions
import FoxVpn.Preference.DataStore

namespace FoxVpn.Database

open FoxVpn.Lib FoxVpn.Plugin

/-! ## §1. JSON. -/

/-- `JsonPrimitive`.  A number keeps the text it was written with; what
`intValue()` makes of it is given along. -/
inductive JsonPrimitive where
  | boolean (value : Bool)
  | number (literal : String) (intValue : Int)
  | string (value : String)
  deriving Repr, DecidableEq

def JsonPrimitive.asString : JsonPrimitive → String
  | .boolean value => if value then "true" else "false"
  | .number literal _ => literal
  | .string value => value

/-- `asInt`; `none` is the NumberFormatException. -/
def JsonPrimitive.asInt : JsonPrimitive → Option Int
  | .number _ intValue => some intValue
  | p => Utils.toIntOrNull p.asString

inductive JsonElement where
  | null
  | primitive (value : JsonPrimitive)
  | array (elements : List JsonElement)
  | object (members : List (String × JsonElement))
  deriving Repr

abbrev JsonObject := List (String × JsonElement)

namespace JsonParser

def optString : Option JsonElement → Option String
  | some (.primitive p) => some p.asString
  | _ => none

def optBoolean : Option JsonElement → Option Bool
  | some (.primitive (.boolean value)) => some value
  | _ => none

def optInt : Option JsonElement → Option Int
  | some (.primitive p) => p.asInt
  | _ => none

end JsonParser

/-! ## §2. One object. -/

def Profile.copyFeatureSettingsTo (feature profile : Profile) : Profile :=
  { profile with
    route := feature.route
    ipv6 := feature.ipv6
    metered := feature.metered
    proxyApps := feature.proxyApps
    bypass := feature.bypass
    individual := feature.individual
    udpdns := feature.udpdns }

namespace JsonParser

variable (H : PluginOptions.HashOrder) (feature : Option Profile)

/-- The four members an object must have. -/
def parseServer (json : JsonObject) : Option Profile :=
  match optString (json.lookup "server"), optInt (json.lookup "server_port"),
      optString (json.lookup "password"), optString (json.lookup "method") with
  | some host, some remotePort, some password, some method =>
      if host = "" ∨ remotePort ≤ 0 ∨ password = "" ∨ method = "" then none
      else some { host := host, remotePort := remotePort, password := password, method := method }
  | _, _, _, _ => none

/-- The plugin of an object, set if it has an id. -/
def parsePlugin (json : JsonObject) (profile : Profile) : Except Fault Profile :=
  match optString (json.lookup "plugin") with
  | none => .ok profile
  | some id =>
      if id = "" then .ok profile
      else
        (PluginOptions.ofOptions id.toList
          ((optString (json.lookup "plugin_opts")).map String.toList)).map fun options =>
            { profile with plugin := some (String.ofList (options.toString H false)) }

/-- `tryParse(json, true)`: what a fallback is read from. -/
def tryParseFallback (json : JsonObject) : Except Fault (Option Profile) :=
  match parseServer json with
  | none => .ok none
  | some profile =>
      let profile := match feature with
        | none => profile
        | some feature => feature.copyFeatureSettingsTo profile
      (parsePlugin H json profile).map fun profile =>
        some { profile with
          name := optString (json.lookup "remarks")
          route := (optString (json.lookup "route")).getD profile.route }

/-- The settings only a main profile has. -/
def parseSettings (json : JsonObject) (profile : Profile) : Profile :=
  let profile := { profile with
    remoteDns := (optString (json.lookup "remote_dns")).getD profile.remoteDns
    ipv6 := (optBoolean (json.lookup "ipv6")).getD profile.ipv6
    metered := (optBoolean (json.lookup "metered")).getD profile.metered }
  let profile := match json.lookup "proxy_apps" with
    | some (.object obj) =>
        { profile with
          proxyApps := (optBoolean (obj.lookup "enabled")).getD profile.proxyApps
          bypass := (optBoolean (obj.lookup "bypass")).getD profile.bypass
          individual := match obj.lookup "android_list" with
            | some (.array elements) =>
                "\n".intercalate (elements.filterMap fun e => optString (some e))
            | _ => profile.individual }
    | _ => profile
  { profile with udpdns := (optBoolean (json.lookup "udpdns")).getD profile.udpdns }

/-- `tryParse(json)`: the profile, and what goes into `fallbackMap` for
it. -/
def tryParse (json : JsonObject) : Except Fault (Option (Profile × Option Profile)) :=
  match tryParseFallback H feature json with
  | .error e => .error e
  | .ok none => .ok none
  | .ok (some profile) =>
      let fallback := match json.lookup "udp_fallback" with
        | some (.object obj) => tryParseFallback H feature obj
        | _ => .ok none
      fallback.map fun fallback => some (parseSettings json profile, fallback)

end JsonParser

/-! ## §3. The document. -/

/-- The list and the map of a `JsonParser`. -/
structure JsonParser where
  profiles : List Profile := []
  fallbackMap : LinkedMap Profile Profile := {}

namespace JsonParser

variable (H : PluginOptions.HashOrder) (feature : Option Profile)

/-- `add(profile)`, with the entry `tryParse` has made. -/
def add (s : JsonParser) (item : Profile × Option Profile) : JsonParser where
  profiles := s.profiles ++ [item.1]
  fallbackMap :=
    match item.2 with
    | none => s.fallbackMap
    | some fallback => s.fallbackMap.put item.1 fallback

mutual

/-- `process(json)`. -/
def process (s : JsonParser) : JsonElement → Except Fault JsonParser
  | .object members =>
      match tryParse H feature members with
      | .error e => .error e
      | .ok (some item) => .ok (s.add item)
      | .ok none => processMembers s members
  | .array elements => processElements s elements
  | .null => .ok s
  | .primitive _ => .ok s

def processMembers (s : JsonParser) : List (String × JsonElement) → Except Fault JsonParser
  | [] => .ok s
  | (_, value) :: members =>
      match process s value with
      | .error e => .error e
      | .ok s => processMembers s members

def processElements (s : JsonParser) : List JsonElement → Except Fault JsonParser
  | [] => .ok s
  | element :: elements =>
      match process s element with
      | .error e => .error e
      | .ok s => processElements s elements

end

mutual

/-- What a document holds: the accepted objects in the order they are met,
each with the profile of its own acceptable `udp_fallback`. -/
def accepted : JsonElement → Except Fault (List (Profile × Option Profile))
  | .object members =>
      match tryParse H feature members with
      | .error e => .error e
      | .ok (some item) => .ok [item]
      | .ok none => acceptedMembers members
  | .array elements => acceptedElements elements
  | .null => .ok []
  | .primitive _ => .ok []

def acceptedMembers :
    List (String × JsonElement) → Except Fault (List (Profile × Option Profile))
  | [] => .ok []
  | (_, value) :: members =>
      match accepted value with
      | .error e => .error e
      | .ok items => (acceptedMembers members).map (items ++ ·)

def acceptedElements : List JsonElement → Except Fault (List (Profile × Option Profile))
  | [] => .ok []
  | element :: elements =>
      match accepted element with
      | .error e => .error e
      | .ok items => (acceptedElements elements).map (items ++ ·)

end

variable {H feature}

theorem map_foldl_append (r : Except Fault (List (Profile × Option Profile)))
    (items : List (Profile × Option Profile)) (s : JsonParser) :
    (r.map (items ++ ·)).map (fun all => all.foldl add s)
      = r.map fun rest => rest.foldl add (items.foldl add s) := by
  cases r with
  | error e => rfl
  | ok rest => exact congrArg Except.ok List.foldl_append

mutual

/-- **The state is what was accepted**, added in order; by induction on the
document. -/
theorem process_eq : ∀ (json : JsonElement) (s : JsonParser),
    process H feature s json
      = (accepted H feature json).map fun items => items.foldl add s
  | .object members, s => by
      rw [process, accepted]
      cases tryParse H feature members with
      | error e => rfl
      | ok item =>
          cases item with
          | some item => rfl
          | none => exact processMembers_eq members s
  | .array elements, s => by
      rw [process, accepted]
      exact processElements_eq elements s
  | .null, s => by
      rw [process, accepted]
      rfl
  | .primitive _, s => by
      rw [process, accepted]
      rfl

theorem processMembers_eq : ∀ (members : List (String × JsonElement)) (s : JsonParser),
    processMembers H feature s members
      = (acceptedMembers H feature members).map fun items => items.foldl add s
  | [], s => by
      rw [processMembers, acceptedMembers]
      rfl
  | (_, value) :: members, s => by
      rw [processMembers, acceptedMembers, process_eq value s]
      cases accepted H feature value with
      | error e => rfl
      | ok items =>
          show processMembers H feature (items.foldl add s) members = _
          rw [processMembers_eq members, map_foldl_append]

theorem processElements_eq : ∀ (elements : List JsonElement) (s : JsonParser),
    processElements H feature s elements
      = (acceptedElements H feature elements).map fun items => items.foldl add s
  | [], s => by
      rw [processElements, acceptedElements]
      rfl
  | element :: elements, s => by
      rw [processElements, acceptedElements, process_eq element s]
      cases accepted H feature element with
      | error e => rfl
      | ok items =>
          show processElements H feature (items.foldl add s) elements = _
          rw [processElements_eq elements, map_foldl_append]

end

/-! ## §4. What an accepted object is. -/

/-- `q` has the server and the managed fields of `p`. -/
structure Keeps (p q : Profile) : Prop where
  id : q.id = p.id
  udpFallback : q.udpFallback = p.udpFallback
  userOrder : q.userOrder = p.userOrder
  dirty : q.dirty = p.dirty
  host : q.host = p.host
  remotePort : q.remotePort = p.remotePort
  password : q.password = p.password
  method : q.method = p.method

theorem Keeps.refl (p : Profile) : Keeps p p := ⟨rfl, rfl, rfl, rfl, rfl, rfl, rfl, rfl⟩

theorem Keeps.trans {p q r : Profile} (h : Keeps p q) (h' : Keeps q r) : Keeps p r :=
  ⟨h'.id.trans h.id, h'.udpFallback.trans h.udpFallback, h'.userOrder.trans h.userOrder,
    h'.dirty.trans h.dirty, h'.host.trans h.host, h'.remotePort.trans h.remotePort,
    h'.password.trans h.password, h'.method.trans h.method⟩

theorem parsePlugin_keeps {json : JsonObject} {p q : Profile}
    (h : parsePlugin H json p = .ok q) : Keeps p q := by
  unfold parsePlugin at h
  split at h
  · obtain rfl := Except.ok.inj h
    exact Keeps.refl _
  · split at h
    · obtain rfl := Except.ok.inj h
      exact Keeps.refl _
    · obtain ⟨o, -, rfl⟩ := map_eq_ok.mp h
      exact ⟨rfl, rfl, rfl, rfl, rfl, rfl, rfl, rfl⟩

theorem parseSettings_keeps (json : JsonObject) (p : Profile) : Keeps p (parseSettings json p) := by
  unfold parseSettings
  dsimp only
  split
  · exact ⟨rfl, rfl, rfl, rfl, rfl, rfl, rfl, rfl⟩
  · exact ⟨rfl, rfl, rfl, rfl, rfl, rfl, rfl, rfl⟩

/-- Neither the features nor the plugin touch the four members. -/
theorem tryParseFallback_keeps {json : JsonObject} {p : Profile}
    (h : tryParseFallback H feature json = .ok (some p)) :
    ∃ q, parseServer json = some q ∧ Keeps q p := by
  unfold tryParseFallback at h
  cases hserver : parseServer json with
  | none => rw [hserver] at h; exact absurd h (by simp)
  | some q =>
      rw [hserver] at h
      obtain ⟨t, hplugin, ht⟩ := map_eq_ok.mp h
      obtain rfl := Option.some.inj ht
      have hname : Keeps q t := by
        refine Keeps.trans ?_ (parsePlugin_keeps hplugin)
        cases feature with
        | none => exact Keeps.refl q
        | some feature => exact ⟨rfl, rfl, rfl, rfl, rfl, rfl, rfl, rfl⟩
      exact ⟨q, rfl, hname.trans ⟨rfl, rfl, rfl, rfl, rfl, rfl, rfl, rfl⟩⟩

theorem tryParse_keeps {json : JsonObject} {item : Profile × Option Profile}
    (h : tryParse H feature json = .ok (some item)) :
    ∃ q, parseServer json = some q ∧ Keeps q item.1 := by
  unfold tryParse at h
  cases hmain : tryParseFallback H feature json with
  | error e => rw [hmain] at h; exact absurd h (by simp)
  | ok r =>
      rw [hmain] at h
      cases r with
      | none => exact absurd h (by simp)
      | some p =>
          obtain ⟨f, -, hitem⟩ := map_eq_ok.mp h
          obtain rfl := Option.some.inj hitem
          obtain ⟨q, hq, hkeeps⟩ := tryParseFallback_keeps hmain
          exact ⟨q, hq, hkeeps.trans (parseSettings_keeps json p)⟩

/-- The fields no document can set. -/
structure Unmanaged (p : Profile) : Prop where
  id : p.id = 22
  udpFallback : p.udpFallback = none
  userOrder : p.userOrder = 0
  dirty : p.dirty = false

/-- A server, a positive port, a password and a method. -/
structure HasServer (p : Profile) : Prop where
  host : p.host ≠ ""
  remotePort : 0 < p.remotePort
  password : p.password ≠ ""
  method : p.method ≠ ""

instance (p : Profile) : Decidable (HasServer p) :=
  decidable_of_iff (p.host ≠ "" ∧ 0 < p.remotePort ∧ p.password ≠ "" ∧ p.method ≠ "")
    ⟨fun h => ⟨h.1, h.2.1, h.2.2.1, h.2.2.2⟩,
      fun h => ⟨h.host, h.remotePort, h.password, h.method⟩⟩

theorem parseServer_eq_some {json : JsonObject} {p : Profile} (h : parseServer json = some p) :
    Unmanaged p ∧ HasServer p := by
  unfold parseServer at h
  split at h
  next =>
    split at h
    next => exact absurd h (by simp)
    next hvalid =>
      obtain rfl := Option.some.inj h
      simp only [not_or, not_le] at hvalid
      exact ⟨⟨rfl, rfl, rfl, rfl⟩, ⟨hvalid.1, hvalid.2.1, hvalid.2.2.1, hvalid.2.2.2⟩⟩
  next => exact absurd h (by simp)

theorem tryParse_profile {json : JsonObject} {item : Profile × Option Profile}
    (h : tryParse H feature json = .ok (some item)) : Unmanaged item.1 ∧ HasServer item.1 := by
  obtain ⟨q, hq, hk⟩ := tryParse_keeps h
  obtain ⟨hnew, hserver⟩ := parseServer_eq_some hq
  constructor
  · exact ⟨hk.id.trans hnew.id, hk.udpFallback.trans hnew.udpFallback,
      hk.userOrder.trans hnew.userOrder, hk.dirty.trans hnew.dirty⟩
  · exact ⟨hk.host ▸ hserver.host, hk.remotePort ▸ hserver.remotePort,
      hk.password ▸ hserver.password, hk.method ▸ hserver.method⟩

section Items

variable {P : Profile × Option Profile → Prop}

mutual

/-- **What holds of every accepted object** holds of all that a document
gives, by induction on the document. -/
theorem accepted_forall
    (hP : ∀ json item, tryParse H feature json = .ok (some item) → P item) :
    ∀ (json : JsonElement) {items : List (Profile × Option Profile)},
    accepted H feature json = .ok items → ∀ item ∈ items, P item
  | .object members, items, h => by
      rw [accepted] at h
      cases hparse : tryParse H feature members with
      | error e => rw [hparse] at h; exact absurd h (by simp)
      | ok r =>
          rw [hparse] at h
          cases r with
          | none => exact acceptedMembers_forall hP members h
          | some item =>
              obtain rfl := Except.ok.inj h
              intro d hd
              rw [List.mem_singleton.mp hd]
              exact hP members item hparse
  | .array elements, items, h => by
      rw [accepted] at h
      exact acceptedElements_forall hP elements h
  | .null, items, h => by
      rw [accepted] at h
      obtain rfl := Except.ok.inj h
      exact fun _ hd => absurd hd List.not_mem_nil
  | .primitive _, items, h => by
      rw [accepted] at h
      obtain rfl := Except.ok.inj h
      exact fun _ hd => absurd hd List.not_mem_nil

theorem acceptedMembers_forall
    (hP : ∀ json item, tryParse H feature json = .ok (some item) → P item) :
    ∀ (members : List (String × JsonElement))
    {items : List (Profile × Option Profile)},
    acceptedMembers H feature members = .ok items → ∀ item ∈ items, P item
  | [], items, h => by
      rw [acceptedMembers] at h
      obtain rfl := Except.ok.inj h
      exact fun _ hd => absurd hd List.not_mem_nil
  | (_, value) :: members, items, h => by
      rw [acceptedMembers] at h
      cases hvalue : accepted H feature value with
      | error e => rw [hvalue] at h; exact absurd h (by simp)
      | ok first =>
          rw [hvalue] at h
          obtain ⟨rest, hrest, rfl⟩ := map_eq_ok.mp h
          exact List.forall_mem_append.mpr
            ⟨accepted_forall hP value hvalue, acceptedMembers_forall hP members hrest⟩

theorem acceptedElements_forall
    (hP : ∀ json item, tryParse H feature json = .ok (some item) → P item) :
    ∀ (elements : List JsonElement)
    {items : List (Profile × Option Profile)},
    acceptedElements H feature elements = .ok items → ∀ item ∈ items, P item
  | [], items, h => by
      rw [acceptedElements] at h
      obtain rfl := Except.ok.inj h
      exact fun _ hd => absurd hd List.not_mem_nil
  | element :: elements, items, h => by
      rw [acceptedElements] at h
      cases hvalue : accepted H feature element with
      | error e => rw [hvalue] at h; exact absurd h (by simp)
      | ok first =>
          rw [hvalue] at h
          obtain ⟨rest, hrest, rfl⟩ := map_eq_ok.mp h
          exact List.forall_mem_append.mpr
            ⟨accepted_forall hP element hvalue, acceptedElements_forall hP elements hrest⟩

end

end Items

/-- **Every accepted object has a server**, and none of the managed
fields. -/
theorem accepted_profile {json : JsonElement} {items : List (Profile × Option Profile)}
    (h : accepted H feature json = .ok items) :
    ∀ item ∈ items, Unmanaged item.1 ∧ HasServer item.1 :=
  accepted_forall (fun _ _ hitem => tryParse_profile hitem) json h

end JsonParser

end FoxVpn.Database
