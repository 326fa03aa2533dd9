/-
  FoxVpn.Database.JsonRoundTrip
  ─────────────────────────────
  **A PROFILE, EXPORTED AND IMPORTED: `toJson` THEN `parseJson`.**

  The export writes what a profile has.  The import has conditions of its
  own, which are not those under which a profile is used:

      used        a host, a method, a port, and a password OR the method
                  "none"
      imported    a host, a method, a port and a password

  and an object it does not accept is searched for others, so that a
  fallback may be imported in the place of its parent.  Main result
  `json_roundTrip_iff`: a profile that can be used comes back exactly if it
  has a password, its selected plugin is printable and its exported fallback
  is one the import accepts.
-/
import FoxVpn.Database.FallbackAssociation
import FoxVpn.Plugin.SelectedPlugin

namespace FoxVpn.Database

open FoxVpn.Lib FoxVpn.Plugin JsonParser
open PluginConfiguration (selectedOptions Selected printable)

/-! ## §1. `toJson`. -/

abbrev JSONObject := LinkedMap String JsonElement

/-- `JSONObject.put(name, value)`; `null` removes the name. -/
def JSONObject.putOpt (json : JSONObject) (name : String) : Option JsonElement → JSONObject
  | none => json.remove name
  | some value => json.put name value

def JsonElement.string (value : String) : JsonElement := .primitive (.string value)

def JsonElement.boolean (value : Bool) : JsonElement := .primitive (.boolean value)

/-- `toJson()`. -/
def Profile.serverJson (p : Profile) : JSONObject :=
  let json : JSONObject := {}
  let json := json.put "server" (.string p.host)
  let json := json.put "server_port" (.primitive (.number (toString p.remotePort) p.remotePort))
  let json := json.put "password" (.string p.password)
  json.put "method" (.string p.method)

/-- The fallback that is exported: the one the profile names, if it has no
plugin. -/
def Profile.exportedFallback (p : Profile) (profiles : Long → Option Profile) : Option Profile :=
  match p.udpFallback with
  | none => none
  | some id =>
      match profiles id with
      | none => none
      | some fallback => if fallback.plugin.getD "" = "" then some fallback else none

def Profile.proxyAppsJson (p : Profile) : JSONObject :=
  let json : JSONObject := {}
  let json := json.put "enabled" (.boolean p.proxyApps)
  if p.proxyApps then
    let json := json.put "bypass" (.boolean p.bypass)
    json.put "android_list" (.array ((p.individual.toList.splitOn '\n').map fun line =>
      .string (String.ofList line)))
  else json

/-- What `toJson(profiles)` puts, once the options of the selected plugin are
known. -/
def Profile.settingsJson (H : PluginOptions.HashOrder) (p : Profile) (options : PluginOptions)
    (fallback : Option Profile) : JSONObject :=
  let json := p.serverJson
  let json :=
    if options.id ≠ [] then
      (json.put "plugin" (.string (String.ofList options.id))).put "plugin_opts"
        (.string (String.ofList (options.toString H true)))
    else json
  let json := JSONObject.putOpt json "remarks" (p.name.map .string)
  let json := json.put "route" (.string p.route)
  let json := json.put "remote_dns" (.string p.remoteDns)
  let json := json.put "ipv6" (.boolean p.ipv6)
  let json := json.put "metered" (.boolean p.metered)
  let json := json.put "proxy_apps" (.object p.proxyAppsJson.entries)
  let json := json.put "udpdns" (.boolean p.udpdns)
  match fallback with
  | none => json
  | some fallback => json.put "udp_fallback" (.object fallback.serverJson.entries)

/-- `toJson(profiles)`. -/
def Profile.toJson (H : PluginOptions.HashOrder) (defaultConfig : Str → Option Str) (p : Profile)
    (profiles : Option (Long → Option Profile)) : Except Fault JSONObject :=
  match profiles with
  | none => .ok p.serverJson
  | some profiles =>
      (selectedOptions defaultConfig p.plugin).map fun options =>
        p.settingsJson H options (p.exportedFallback profiles)

/-! ## §2. What the import finds. -/

section Lookup

variable (H : PluginOptions.HashOrder) (p : Profile)

@[simp] theorem lookup_put (json : JSONObject) (name k : String) (value : JsonElement) :
    (json.put name value).entries.lookup k
      = if k = name then some value else json.entries.lookup k :=
  json.get_put name k value

@[simp] theorem lookup_putOpt (json : JSONObject) (name k : String) (value : Option JsonElement) :
    (JSONObject.putOpt json name value).entries.lookup k
      = if k = name then value else json.entries.lookup k := by
  cases value with
  | none => exact json.get_remove name k
  | some value => exact json.get_put name k value

/-- The four members an object must have. -/
structure ServerMembers (json : JsonObject) : Prop where
  host : json.lookup "server" = some (.string p.host)
  remotePort : json.lookup "server_port"
    = some (.primitive (.number (toString p.remotePort) p.remotePort))
  password : json.lookup "password" = some (.string p.password)
  method : json.lookup "method" = some (.string p.method)

theorem serverJson_members : ServerMembers p p.serverJson.entries := by
  constructor <;> simp [Profile.serverJson]

variable (options : PluginOptions) (fallback : Option Profile)

/-- All members of an export. -/
structure SettingsMembers (json : JsonObject) : Prop extends ServerMembers p json where
  plugin : json.lookup "plugin"
    = if options.id ≠ [] then some (.string (String.ofList options.id)) else none
  pluginOpts : json.lookup "plugin_opts"
    = if options.id ≠ [] then some (.string (String.ofList (options.toString H true))) else none
  name : json.lookup "remarks" = p.name.map .string
  route : json.lookup "route" = some (.string p.route)
  remoteDns : json.lookup "remote_dns" = some (.string p.remoteDns)
  ipv6 : json.lookup "ipv6" = some (.boolean p.ipv6)
  metered : json.lookup "metered" = some (.boolean p.metered)
  proxyApps : json.lookup "proxy_apps" = some (.object p.proxyAppsJson.entries)
  udpdns : json.lookup "udpdns" = some (.boolean p.udpdns)
  udpFallback : json.lookup "udp_fallback" = fallback.map fun f => .object f.serverJson.entries

theorem settingsJson_members :
    SettingsMembers H p options fallback (p.settingsJson H options fallback).entries := by
  unfold Profile.settingsJson
  by_cases hid : options.id = [] <;> cases fallback <;>
    refine ⟨⟨?_, ?_, ?_, ?_⟩, ?_, ?_, ?_, ?_, ?_, ?_, ?_, ?_, ?_, ?_⟩ <;>
      simp [Profile.serverJson, hid]

end Lookup

section Import

variable {H : PluginOptions.HashOrder} {p : Profile} {options : PluginOptions}
  {fallback : Option Profile} {json : JsonObject}

/-- A profile of which only the server is known. -/
def Profile.ofServer (p : Profile) : Profile :=
  { host := p.host, remotePort := p.remotePort, password := p.password, method := p.method }

theorem parseServer_members (h : ServerMembers p json) :
    parseServer json = if HasServer p then some p.ofServer else none := by
  unfold parseServer
  rw [h.host, h.remotePort, h.password, h.method]
  show (if p.host = "" ∨ p.remotePort ≤ 0 ∨ p.password = "" ∨ p.method = "" then none
    else some p.ofServer) = _
  by_cases hs : HasServer p
  · rw [if_pos hs, if_neg]
    rintro (hn | hn | hn | hn)
    · exact hs.host hn
    · exact absurd hs.remotePort (by omega)
    · exact hs.password hn
    · exact hs.method hn
  · rw [if_neg hs, if_pos]
    by_contra hn
    simp only [not_or, not_le] at hn
    exact hs ⟨hn.1, hn.2.1, hn.2.2.1, hn.2.2.2⟩

/-- The profile an exported fallback is read as. -/
def Profile.importedFallback (f : Profile) : Option Profile :=
  if HasServer f then some { f.ofServer with name := none } else none

theorem tryParseFallback_serverJson (f : Profile) :
    tryParseFallback H none f.serverJson.entries = .ok f.importedFallback := by
  unfold tryParseFallback Profile.importedFallback
  rw [parseServer_members (serverJson_members f)]
  by_cases hs : HasServer f
  · rw [if_pos hs, if_pos hs]
    simp [parsePlugin, optString, Profile.serverJson, Except.map, Profile.ofServer]
  · rw [if_neg hs, if_neg hs]

/-- What the plugin of the export is read as. -/
def importedPlugin (H : PluginOptions.HashOrder) (options : PluginOptions) :
    Except Fault (Option String) :=
  if options.id = [] then .ok none
  else
    (PluginOptions.ofOptions options.id (some (options.toString H true))).map fun r =>
      some (String.ofList (r.toString H false))

theorem parsePlugin_members (h : SettingsMembers H p options fallback json) {q : Profile}
    (hq : q.plugin = none) :
    parsePlugin H json q
      = (importedPlugin H options).map fun plugin => { q with plugin := plugin } := by
  unfold parsePlugin importedPlugin
  rw [h.plugin, h.pluginOpts]
  by_cases hid : options.id = []
  · rw [if_neg (not_not_intro hid), if_pos hid]
    show Except.ok q = Except.ok { q with plugin := none }
    rw [← hq]
  · have hne : String.ofList options.id ≠ "" := fun h => hid (String.ofList_eq_empty_iff.mp h)
    rw [if_pos hid, if_pos hid, if_neg hid]
    show (if String.ofList options.id = "" then _ else _) = _
    rw [if_neg hne]
    show (PluginOptions.ofOptions (String.ofList options.id).toList
      (some (String.ofList (options.toString H true)).toList)).map _ = _
    rw [String.toList_ofList, String.toList_ofList]
    cases PluginOptions.ofOptions options.id (some (options.toString H true)) with
    | error e => rfl
    | ok r => rfl

/-- The lines of `individual` are joined again. -/
theorem intercalate_lines (s : String) :
    "\n".intercalate ((s.toList.splitOn '\n').map String.ofList) = s := by
  apply String.toList_injective
  rw [String.toList_intercalate, List.map_map]
  have hid : String.toList ∘ String.ofList = id := funext fun l => String.toList_ofList
  rw [hid, List.map_id]
  exact List.intercalate_splitOn '\n'

/-- The main profile as it is imported.  The list of apps and its direction
are exported only if they are in use. -/
def Profile.imported (p : Profile) (plugin : Option String) : Profile :=
  { p.ofServer with
    name := p.name
    route := p.route
    remoteDns := p.remoteDns
    ipv6 := p.ipv6
    metered := p.metered
    proxyApps := p.proxyApps
    bypass := if p.proxyApps then p.bypass else false
    individual := if p.proxyApps then p.individual else ""
    udpdns := p.udpdns
    plugin := plugin }

theorem parseSettings_members (h : SettingsMembers H p options fallback json)
    (plugin : Option String) :
    parseSettings json { p.ofServer with name := p.name, route := p.route, plugin := plugin }
      = p.imported plugin := by
  have hjoin := intercalate_lines p.individual
  unfold parseSettings
  rw [h.remoteDns, h.ipv6, h.metered, h.proxyApps, h.udpdns]
  cases hp : p.proxyApps with
  | false =>
      simp [Profile.proxyAppsJson, hp, optString, optBoolean, JsonElement.string,
        JsonElement.boolean, JsonPrimitive.asString, Profile.imported, Profile.ofServer]
  | true =>
      simp [Profile.proxyAppsJson, hp, hjoin, optString, optBoolean, JsonElement.string,
        JsonElement.boolean, JsonPrimitive.asString, Profile.imported, Profile.ofServer]

/-- **An export that has a password is accepted**, unless its plugin is
refused. -/
theorem tryParse_members (h : SettingsMembers H p options fallback json) (hs : HasServer p) :
    tryParse H none json = (importedPlugin H options).map fun plugin =>
      some (p.imported plugin, fallback.bind Profile.importedFallback) := by
  have hmain : tryParseFallback H none json = (importedPlugin H options).map fun plugin =>
      some { p.ofServer with name := p.name, route := p.route, plugin := plugin } := by
    have hname : optString (p.name.map JsonElement.string) = p.name := by
      cases p.name with
      | none => rfl
      | some name => rfl
    unfold tryParseFallback
    rw [parseServer_members h.toServerMembers, if_pos hs]
    show (parsePlugin H json p.ofServer).map _ = _
    rw [parsePlugin_members h rfl, h.name, h.route, hname]
    cases importedPlugin H options with
    | error e => rfl
    | ok plugin => rfl
  unfold tryParse
  rw [hmain, h.udpFallback]
  cases importedPlugin H options with
  | error e => rfl
  | ok plugin =>
      cases fallback with
      | none =>
          show Except.ok (some (parseSettings json _, none)) = _
          rw [parseSettings_members h]
          rfl
      | some f =>
          show Except.map _ (tryParseFallback H none f.serverJson.entries) = _
          rw [tryParseFallback_serverJson]
          show Except.ok (some (parseSettings json _, f.importedFallback)) = _
          rw [parseSettings_members h]
          rfl

end Import

/-! ## §3. The round trip. -/

/-- A profile that can be used: it has a host, a port, a method and, as
`ProxyInstance` asks, a password unless the method is `none`. -/
structure Usable (p : Profile) : Prop where
  host : p.host ≠ ""
  remotePort : 0 < p.remotePort
  method : p.method ≠ ""
  password : p.password ≠ "" ∨ p.method = "none"

/-- What an imported profile `r` has to share with the exported `p`. -/
structure Agrees (defaultConfig : Str → Option Str) (p r : Profile) : Prop where
  server : server r = server p
  name : r.name = p.name
  route : r.route = p.route
  remoteDns : r.remoteDns = p.remoteDns
  ipv6 : r.ipv6 = p.ipv6
  metered : r.metered = p.metered
  proxyApps : r.proxyApps = p.proxyApps
  udpdns : r.udpdns = p.udpdns
  plugin : ∃ o o', selectedOptions defaultConfig p.plugin = .ok o
    ∧ selectedOptions defaultConfig r.plugin = .ok o' ∧ o'.Same o
  apps : p.proxyApps = true → r.bypass = p.bypass ∧ r.individual = p.individual

section RoundTrip

variable (H : PluginOptions.HashOrder) (defaultConfig : Str → Option Str) (p : Profile)
  (profiles : Long → Option Profile) (c : Create) (db : PrivateDatabase)

/-- The profile is exported; the document is read as ONE main profile, which
is created by the first call and agrees with `p`; and its row names a fallback
with the server of the exported one, or none if none was exported. -/
def RoundTrip : Prop :=
  ∃ json s q db' r, p.toJson H defaultConfig (some profiles) = .ok json
    ∧ process H none {} (.object json.entries) = .ok s ∧ s.profiles = [q]
    ∧ parseJson H none (.object json.entries) c db = .ok db' ∧ db'.get (c.id 0) = some r
    ∧ Agrees defaultConfig p r
    ∧ match p.exportedFallback profiles with
      | none => r.udpFallback = none
      | some f => ∃ fb ∈ db'.profiles, r.udpFallback = some fb.id ∧ server fb = server f

variable {H defaultConfig p profiles c db}

/-- The profile created from a document with one object. -/
theorem parseJson_one {json : JsonElement} {q : Profile} {f : Option Profile}
    (hc : c.Distinct 2) (hfresh : ∀ k < 2, db.get (c.id k) = none)
    (h : accepted H none json = .ok [(q, f)]) :
    ∃ db', parseJson H none json c db = .ok db' ∧ Right c 1 db' (c.apply 0 q) f := by
  have hsep : Separate c 0 [(q, f)] := ⟨fun _ hl => absurd hl List.not_mem_nil, trivial⟩
  obtain ⟨db', hrun, hright⟩ := @right_of_separate H none json c db [(q, f)] hc hfresh h hsep
  exact ⟨db', hrun, hright ((q, f), 0) List.mem_cons_self⟩

/-- Its row. -/
theorem row_of_right {n : Nat} {db' : PrivateDatabase} {q r : Profile} {f : Option Profile}
    (h : Right c n db' q f) (hr : db'.get q.id = some r) :
    server r = server q ∧ r.plugin = q.plugin ∧ (f = none → r.udpFallback = none) := by
  cases f with
  | none =>
      obtain rfl := Option.some.inj (hr.symm.trans h)
      exact ⟨rfl, rfl, fun _ => rfl⟩
  | some f =>
      obtain ⟨fb, -, -, -, hrow⟩ := h
      obtain rfl := Option.some.inj (hr.symm.trans hrow)
      exact ⟨rfl, rfl, fun hf => absurd hf (by simp)⟩

/-- The plugin comes back exactly if it is printable. -/
theorem importedPlugin_iff (H : PluginOptions.HashOrder) (defaultConfig : Str → Option Str)
    {o : PluginOptions} (ho : Selected o) :
    (∃ plugin o', importedPlugin H o = .ok plugin
        ∧ selectedOptions defaultConfig plugin = .ok o' ∧ o'.Same o)
      ↔ printable o = true := by
  unfold importedPlugin
  rcases ho with rfl | ⟨hid, hparsed⟩
  · have hprintable : printable {} = true := by decide
    refine iff_of_true ⟨none, {}, rfl, PluginConfiguration.selectedOptions_none, ?_⟩ hprintable
    exact ⟨rfl, fun _ => rfl⟩
  · rw [if_neg hid, ← PluginConfiguration.selectedOptions_ofOptions_iff defaultConfig H hid hparsed]
    constructor
    · rintro ⟨plugin, o', hplugin, ho', hsame⟩
      obtain ⟨r, hr, rfl⟩ := map_eq_ok.mp hplugin
      exact ⟨r, o', hr, ho', hsame⟩
    · rintro ⟨r, o', hr, ho', hsame⟩
      exact ⟨_, o', map_eq_ok.mpr ⟨r, hr, rfl⟩, ho', hsame⟩

/-- **An export with a password is one object**, unless its plugin is
refused. -/
theorem accepted_settingsJson (hs : HasServer p) (o : PluginOptions) (fallback : Option Profile) :
    accepted H none (.object (p.settingsJson H o fallback).entries)
      = (importedPlugin H o).map fun plugin =>
          [(p.imported plugin, fallback.bind Profile.importedFallback)] := by
  rw [accepted, tryParse_members (settingsJson_members H p o fallback) hs]
  cases importedPlugin H o with
  | error e => rfl
  | ok plugin => rfl

theorem agrees_imported {o o' : PluginOptions} {plugin : Option String}
    (ho : selectedOptions defaultConfig p.plugin = .ok o)
    (ho' : selectedOptions defaultConfig plugin = .ok o') (hsame : o'.Same o) (u : Option Long) :
    Agrees defaultConfig p { c.apply 0 (p.imported plugin) with udpFallback := u }.toRow where
  server := rfl
  name := rfl
  route := rfl
  remoteDns := rfl
  ipv6 := rfl
  metered := rfl
  proxyApps := rfl
  udpdns := rfl
  plugin := ⟨o, o', ho, ho', hsame⟩
  apps happs := ⟨if_pos happs, if_pos happs⟩

variable (hc : c.Distinct 2) (hfresh : ∀ k < 2, db.get (c.id k) = none)

include hc hfresh

/-- The one object that is read in a round trip, and the row `r` that was
created from it. -/
theorem RoundTrip.one (h : RoundTrip H defaultConfig p profiles c db) :
    ∃ json q f r, p.toJson H defaultConfig (some profiles) = .ok json
      ∧ accepted H none (.object json.entries) = .ok [(q, f)]
      ∧ server r = server q ∧ r.plugin = q.plugin ∧ Agrees defaultConfig p r
      ∧ (f = none → p.exportedFallback profiles = none) := by
  obtain ⟨json, s, q, db', r, hjson, hread, hmain, hrun, hrow, hagrees, hfb⟩ := h
  rw [process_eq] at hread
  obtain ⟨items, hitems, rfl⟩ := map_eq_ok.mp hread
  rw [profiles_foldl] at hmain
  obtain ⟨f, rfl⟩ : ∃ f, items = [(q, f)] := by
    cases items with
    | nil => exact absurd hmain (by simp)
    | cons item rest =>
        cases rest with
        | nil =>
            have hq : item.1 = q := by simpa using hmain
            exact ⟨item.2, by rw [← hq]⟩
        | cons _ _ => exact absurd hmain (by simp)
  obtain ⟨db'', hrun', hright⟩ := parseJson_one hc hfresh hitems
  obtain rfl := Except.ok.inj (hrun'.symm.trans hrun)
  obtain ⟨hserver, hplugin, hnone⟩ := row_of_right hright hrow
  refine ⟨json, q, f, r, hjson, hitems, hserver, hplugin, hagrees, fun hf => ?_⟩
  -- a row without a fallback, where one was exported, is no round trip
  cases hexp : p.exportedFallback profiles with
  | none => rfl
  | some g =>
      rw [hexp] at hfb
      obtain ⟨fb, -, hsome, -⟩ := hfb
      exact absurd (hsome.symm.trans (hnone hf)) (by simp)

/-- What comes back has a password. -/
theorem RoundTrip.password (h : RoundTrip H defaultConfig p profiles c db) : p.password ≠ "" := by
  obtain ⟨json, q, f, r, -, hitems, hserver, -, hagrees, -⟩ := h.one hc hfresh
  have hq := (accepted_profile hitems (q, f) List.mem_cons_self).2
  have hsame : q.password = p.password :=
    congrArg (fun t => t.2.2.1) (hserver.symm.trans hagrees.server)
  exact hsame ▸ hq.password

/-- A usable profile that can be imported is. -/
theorem roundTrip_of_importable {o : PluginOptions} (hs : HasServer p)
    (ho : selectedOptions defaultConfig p.plugin = .ok o) (hprintable : printable o = true)
    (hfallback : ∀ f, p.exportedFallback profiles = some f → HasServer f) :
    RoundTrip H defaultConfig p profiles c db := by
  obtain ⟨plugin, o', hplugin, ho', hsame⟩ := (importedPlugin_iff H defaultConfig
    (PluginConfiguration.selectedOptions_selected ho)).mpr hprintable
  have hitems := accepted_settingsJson (H := H) hs o (p.exportedFallback profiles)
  rw [hplugin] at hitems
  obtain ⟨db', hrun, hright⟩ := parseJson_one hc hfresh hitems
  have hread : process H none {}
      (.object (p.settingsJson H o (p.exportedFallback profiles)).entries) = _ := process_eq _ _
  rw [hitems] at hread
  have hjson : p.toJson H defaultConfig (some profiles) = .ok _ := map_eq_ok.mpr ⟨o, ho, rfl⟩
  cases hexp : p.exportedFallback profiles with
  | none =>
      rw [hexp] at hright
      refine ⟨_, _, _, db', _, hjson, hread, rfl, hrun, hright, agrees_imported ho ho' hsame _, ?_⟩
      rw [hexp]
      rfl
  | some f =>
      have himp : f.importedFallback = some { f.ofServer with name := none } :=
        if_pos (hfallback f hexp)
      rw [hexp, Option.bind_some, himp] at hright
      obtain ⟨fb, hfb, hserver, -, hrow⟩ := hright
      refine ⟨_, _, _, db', _, hjson, hread, rfl, hrun, hrow, agrees_imported ho ho' hsame _, ?_⟩
      rw [hexp]
      exact ⟨fb, hfb, rfl, hserver⟩

end RoundTrip

/-- **Which profiles survive being exported and imported.**  For every
profile that can be used, every map of profiles, every table and every
`create` with fresh ids: it comes back, alone and with the fallback that was
exported, if and only if it has a password, its plugin text can be read and
the options of the selected plugin are printable, and the exported fallback,
if there is one, has all the import asks for. -/
theorem json_roundTrip_iff (H : PluginOptions.HashOrder) (defaultConfig : Str → Option Str)
    (p : Profile) (profiles : Long → Option Profile) (c : Create) (db : PrivateDatabase)
    (hp : Usable p) (hc : c.Distinct 2) (hfresh : ∀ k < 2, db.get (c.id k) = none) :
    RoundTrip H defaultConfig p profiles c db
      ↔ p.password ≠ ""
        ∧ (∃ o, selectedOptions defaultConfig p.plugin = .ok o ∧ printable o = true)
        ∧ ∀ f, p.exportedFallback profiles = some f → HasServer f := by
  constructor
  · intro h
    have hpassword := h.password hc hfresh
    have hs : HasServer p := ⟨hp.host, hp.remotePort, hpassword, hp.method⟩
    obtain ⟨json, q, f, r, hjson, hitems, -, hplugin, hagrees, hfb⟩ := h.one hc hfresh
    obtain ⟨o, ho, rfl⟩ := map_eq_ok.mp hjson
    rw [accepted_settingsJson hs] at hitems
    obtain ⟨plugin, himported, hone⟩ := map_eq_ok.mp hitems
    obtain ⟨rfl, rfl⟩ : p.imported plugin = q
        ∧ (p.exportedFallback profiles).bind Profile.importedFallback = f := by
      simpa using hone
    refine ⟨hpassword, ⟨o, ho, ?_⟩, fun g hg => ?_⟩
    · obtain ⟨o₁, o', ho₁, ho', hsame⟩ := hagrees.plugin
      obtain rfl := Except.ok.inj (ho.symm.trans ho₁)
      rw [hplugin] at ho'
      have hselected := PluginConfiguration.selectedOptions_selected ho
      exact (importedPlugin_iff H defaultConfig hselected).mp ⟨plugin, o', himported, ho', hsame⟩
    · by_contra hno
      have himp : g.importedFallback = none := if_neg hno
      rw [hg] at hfb
      exact absurd (hfb himp) (by simp)
  · rintro ⟨hpassword, ⟨o, ho, hprintable⟩, hfallback⟩
    exact roundTrip_of_importable hc hfresh ⟨hp.host, hp.remotePort, hpassword, hp.method⟩ ho
      hprintable hfallback

/-- A profile with everything that is exported. -/
def fullProfile : Profile :=
  { plainProfile "example.org" with
    name := some "name"
    proxyApps := true
    bypass := true
    individual := "org.example.a\norg.example.b"
    plugin := some "v2ray;tls;host=a\nkcptun --nocomp"
    udpFallback := some 7 }

/-- The map that has one profile without a plugin. -/
def oneProfile (id : Long) : Option Profile :=
  if id = 7 then some (plainProfile "udp.example.org") else none

/-- The conditions are met by a profile with apps, a plugin and a
fallback. -/
theorem json_roundTrip_full :
    Usable fullProfile ∧ countingCreate.Distinct 2
      ∧ RoundTrip PluginConfiguration.insertionOrder (fun _ => none) fullProfile oneProfile
        countingCreate {} := by
  have husable : Usable fullProfile := ⟨by decide, by decide, by decide, Or.inl (by decide)⟩
  have hdistinct : countingCreate.Distinct 2 := by
    unfold Create.Distinct
    decide
  refine ⟨husable, hdistinct, (json_roundTrip_iff _ _ _ _ _ _ husable hdistinct
    fun _ _ => rfl).mpr ⟨by decide, ?_, ?_⟩⟩
  · exact exists_of_test printable (by decide +kernel)
  · intro f hf
    obtain rfl : plainProfile "udp.example.org" = f := Option.some.inj hf
    decide

/-- A profile of the method `none` that has no password. -/
def openProfile : Profile :=
  { plainProfile "example.org" with password := "", method := "none", udpFallback := some 7 }

/-- **The fallback in the place of its parent**: a usable profile without a
password is exported and imported, and what is created is its fallback. -/
theorem json_roundTrip_open_fails :
    Usable openProfile ∧ countingCreate.Distinct 2
      ∧ (∃ json, openProfile.toJson PluginConfiguration.insertionOrder (fun _ => none)
          (some oneProfile) = .ok json
        ∧ parseJson PluginConfiguration.insertionOrder none (.object json.entries) countingCreate {}
          = .ok { profiles := [{ plainProfile "udp.example.org" with id := 100 }] })
      ∧ ¬ RoundTrip PluginConfiguration.insertionOrder (fun _ => none) openProfile oneProfile
        countingCreate {} := by
  have hdistinct : countingCreate.Distinct 2 := by
    unfold Create.Distinct
    decide
  refine ⟨⟨by decide, by decide, by decide, Or.inr rfl⟩, hdistinct, ⟨_, rfl, by decide +kernel⟩, ?_⟩
  exact fun h => h.password hdistinct (fun _ _ => rfl) rfl

end FoxVpn.Database
