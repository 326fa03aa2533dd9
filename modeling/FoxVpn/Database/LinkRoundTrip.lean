/-
  FoxVpn.Database.LinkRoundTrip
  ─────────────────────────────
  **A LINK, BUILT AND FOUND AGAIN.**

      toUri_eq                the link of a profile, by its selected options
      parseUrl_linkText       a link is read as what it was built of
      findAllUrls_linkText    a link comes back, its last text unmarked

  Main result `link_roundTrip_iff`: a profile comes back exactly if its
  selected plugin is printable and the last text of its link, the name or
  else the plugin, does not end in `!` or `_`.

  §3 is a platform that has all the laws, and the two cases are run on it.
-/
import FoxVpn.Database.LinkText

namespace FoxVpn.Database

open FoxVpn.Lib FoxVpn.Plugin FoxVpn.Utils
open PluginConfiguration (selectedOptions Selected printable)

/-! ## §1. A link, read. -/

/-- The profiles the links are for. -/
structure Linkable (P : Platform) (p : Profile) : Prop where
  nonempty : p.method ≠ ""
  method : ∀ c ∈ p.method.toList, c ≠ ':' ∧ P.isLineTerminator c = false
  password : ∀ c ∈ p.password.toList, P.isLineTerminator c = false
  host : Host.isHost p.host.toList = true
  remotePort : 1 ≤ p.remotePort ∧ p.remotePort ≤ 65535

theorem linkable_iff {P : Platform} {p : Profile} :
    Linkable P p ↔ p.method ≠ ""
      ∧ p.method.toList.all (fun c => c != ':' && !P.isLineTerminator c) = true
      ∧ p.password.toList.all (fun c => !P.isLineTerminator c) = true
      ∧ Host.isHost p.host.toList = true ∧ 1 ≤ p.remotePort ∧ p.remotePort ≤ 65535 := by
  simp only [List.all_eq_true, Bool.and_eq_true, bne_iff_ne, Bool.not_eq_true']
  exact ⟨fun h => ⟨h.nonempty, h.method, h.password, h.host, h.remotePort⟩,
    fun ⟨hne, hm, hp, hh, hr⟩ => ⟨hne, hm, hp, hh, hr⟩⟩

instance (P : Platform) (p : Profile) : Decidable (Linkable P p) :=
  decidable_of_iff _ linkable_iff.symm

/-- The brackets are put on and taken off. -/
theorem unwrapHost_wrappedHost {host : Str} (hhost : ∀ c ∈ host, Host.isHostChar c = true) :
    unwrapHost (wrappedHost host) = host := by
  unfold wrappedHost
  split
  · rw [unwrapHost, if_pos ⟨rfl, List.getLast?_concat⟩]
    show (host ++ [']']).dropLast = host
    exact List.dropLast_concat
  · -- no host begins with a bracket
    refine if_neg ?_
    rintro ⟨hopen, -⟩
    have hc := hhost _ (List.mem_of_head? hopen)
    exact absurd hc (by decide)

section Read

variable (P : Platform) (feature : Option Profile) {p : Profile}

/-- The user info of a link. -/
def Platform.auth (p : Profile) : Str :=
  P.encodeBase64 (Percent.utf8Encode (p.method.toList ++ ':' :: p.password.toList))

theorem mem_auth (p : Profile) : ∀ c ∈ P.auth p, isBase64 c = true := P.mem_encodeBase64 _

theorem isUnreserved_of_isBase64 {c : Char} (h : isBase64 c = true) :
    Percent.isUnreserved c = true := by
  rw [isBase64, Bool.or_eq_true, Bool.or_eq_true, beq_iff_eq, beq_iff_eq] at h
  rcases h with (h | rfl) | rfl
  · rw [Percent.isUnreserved, h, Bool.true_or]
  · decide
  · decide

/-- Nothing in it is escaped. -/
theorem decode_auth (p : Profile) : P.decode false (P.auth p) = P.auth p := by
  have hsame : Percent.encode (P.auth p) = P.auth p :=
    Percent.encode_of_unreserved fun c hc => isUnreserved_of_isBase64 (mem_auth P p c hc)
  have hback := P.decode_encode false (P.auth p)
  rwa [hsame] at hback

/-- The profile that is read from a link. -/
def linkProfile (p : Profile) (plugin name : Option Str) : Profile :=
  { newProfile feature with
    method := p.method
    password := p.password
    host := p.host
    remotePort := p.remotePort
    plugin := plugin.map String.ofList
    name := some (String.ofList (name.getD [])) }

variable {P}

/-- **A profile whose link can be read**: `java.net.URI` finds its host and
port in it. -/
structure Legible (P : Platform) (p : Profile) : Prop where
  nonempty : p.method ≠ ""
  method : ∀ c ∈ p.method.toList, c ≠ ':' ∧ P.isLineTerminator c = false
  password : ∀ c ∈ p.password.toList, P.isLineTerminator c = false
  host : ∀ c ∈ p.host.toList, Host.isHostChar c = true
  remotePort : 1 ≤ p.remotePort
  javaURI : ∀ plugin name,
    P.javaURI (linkText (P.auth p) p.host.toList p.remotePort plugin name)
      = some (some (wrappedHost p.host.toList), p.remotePort)

theorem Linkable.legible (h : Linkable P p) : Legible P p where
  nonempty := h.nonempty
  method := h.method
  password := h.password
  host := mem_host h.host
  remotePort := h.remotePort.1
  javaURI plugin name :=
    P.javaURI_linkText _ _ _ plugin name (mem_auth P p) h.host h.remotePort.1 h.remotePort.2

/-- `method:password` is split at the first colon. -/
theorem matchEntire_userInfo (hne : p.method ≠ "")
    (hm : ∀ c ∈ p.method.toList, c ≠ ':' ∧ P.isLineTerminator c = false)
    (hpw : ∀ c ∈ p.password.toList, P.isLineTerminator c = false) :
    Regex.matchEntire (userInfoPattern P) (p.method.toList ++ ':' :: p.password.toList)
      = some [p.method.toList, p.password.toList] := by
  have hdot : ∀ c, P.isLineTerminator c = false → P.isDot c = true := by
    intro c hc
    rw [Platform.isDot, hc]
    rfl
  refine Regex.matchEntire_lazy_greedy ?_ ?_ ?_ (by decide) ?_
  · intro hnil
    exact hne (String.toList_eq_nil_iff.mp hnil)
  · exact fun c hc => hdot c (hm c hc).2
  · exact fun c hc => beq_eq_false_iff_ne.mpr (hm c hc).1
  · exact fun c hc => hdot c (hpw c hc)

/-- **What a link was built of is read from it.** -/
theorem parseUrl_linkText (h : Legible P p) (plugin name : Option Str) :
    parseUrl P feature (linkText (P.auth p) p.host.toList p.remotePort plugin name)
      = some (linkProfile feature p plugin name) := by
  have hauth := mem_auth P p
  have hport := h.remotePort
  have huserInfo : P.userInfo (linkText (P.auth p) p.host.toList p.remotePort plugin name)
      = some (P.auth p) := by
    rw [Platform.userInfo, encodedUserInfo_linkText hauth h.host hport, Option.map_some,
      decode_auth]
  have hbytes : P.decodeBase64 true (P.auth p)
      = some (Percent.utf8Encode (p.method.toList ++ ':' :: p.password.toList)) :=
    P.decode_encodeBase64 _
  have hfragment : P.fragment (linkText (P.auth p) p.host.toList p.remotePort plugin name)
      = name := by
    rw [Platform.fragment, encodedFragment_linkText hauth h.host hport]
    cases name with
    | none => rfl
    | some name => exact congrArg some (P.decode_encode false name)
  -- with a user info the link is not of the older kind
  rw [parseUrl, huserInfo]
  dsimp only
  rw [parseUserInfo, hbytes]
  dsimp only
  rw [P.string_utf8, matchEntire_userInfo h.nonempty h.method h.password]
  dsimp only
  rw [h.javaURI plugin name, queryParameter_linkText hauth h.host hport, hfragment]
  dsimp only [Option.getD_some]
  rw [unwrapHost_wrappedHost h.host, String.ofList_toList, String.ofList_toList,
    String.ofList_toList]
  rfl

/-- **A link comes back** with its last text unmarked. -/
theorem findAllUrls_linkText (h : Legible P p) (plugin name : Option Str) :
    findAllUrls P feature (linkText (P.auth p) p.host.toList p.remotePort plugin name)
      = [linkProfile feature p (foundPlugin plugin name) (name.map unmarked)] := by
  rw [findAllUrls, findAll_linkText (mem_auth P p) h.host h.remotePort,
    List.filterMap_cons_some (parseUrl_linkText feature h _ _), List.filterMap_nil]

end Read

section Accepted

variable {P : Platform} {feature : Option Profile} {uri userInfo : Str} {q : Profile}

/-- What the user info is split into. -/
theorem of_userInfo_match {t : Str} {gs : List Str}
    (h : Regex.matchEntire (userInfoPattern P) t = some gs) :
    ∃ method password, gs = [method, password] ∧ method ≠ [] := by
  obtain ⟨method, t₁, gs₁, rfl, -, hmethod, h₁, rfl⟩ := Regex.exists_of_matchEntire h
  obtain ⟨c, t₂, rfl, -, h₂⟩ := Regex.exists_of_matchEntire_once h₁
  obtain ⟨password, t₃, gs₃, rfl, -, -, h₃, rfl⟩ := Regex.exists_of_matchEntire h₂
  obtain ⟨rfl, rfl⟩ := Regex.of_matchEntire_nil h₃
  exact ⟨method, password, rfl, List.length_pos_iff.mp hmethod⟩

/-- What a link with a user info is read as, if it is read. -/
theorem parseUserInfo_eq_some (h : parseUserInfo P feature uri userInfo = some q) :
    ∃ bytes method password host port, P.decodeBase64 true userInfo = some bytes
      ∧ Regex.matchEntire (userInfoPattern P) (P.string bytes) = some [method, password]
      ∧ method ≠ [] ∧ P.javaURI uri = some (host, port)
      ∧ q.method = String.ofList method ∧ q.host = String.ofList (unwrapHost (host.getD []))
      ∧ q.remotePort = port := by
  unfold parseUserInfo at h
  cases hbytes : P.decodeBase64 true userInfo with
  | none => rw [hbytes] at h; exact absurd h (by simp)
  | some bytes =>
      rw [hbytes] at h
      cases hmatch : Regex.matchEntire (userInfoPattern P) (P.string bytes) with
      | none => simp only [hmatch] at h; exact absurd h (by simp)
      | some gs =>
          obtain ⟨method, password, rfl, hmethod⟩ := of_userInfo_match hmatch
          cases huri : P.javaURI uri with
          | none => simp only [hmatch, huri] at h; exact absurd h (by simp)
          | some hostPort =>
              simp only [hmatch, huri] at h
              obtain rfl := Option.some.inj h
              exact ⟨bytes, method, password, hostPort.1, hostPort.2, rfl, hmatch, hmethod, rfl,
                rfl, rfl, rfl⟩

end Accepted

/-! ## §2. The round trip. -/

section RoundTrip

variable (P : Platform) (H : PluginOptions.HashOrder) (defaultConfig : Str → Option Str)
  (feature : Option Profile) (o : PluginOptions) (p : Profile)

/-- The plugin a link carries. -/
def pluginText : Option Str := if o.id = [] then none else some (o.toString H false)

theorem pluginText_of_id {o : PluginOptions} (hid : o.id ≠ []) :
    pluginText H o = some (o.toString H false) := if_neg hid

/-- The name a link carries. -/
def nameText : Option Str :=
  match p.name with
  | none => none
  | some name => if name = "" then none else some name.toList

theorem toUri_eq :
    p.toUri P H defaultConfig = (selectedOptions defaultConfig p.plugin).map fun o =>
      linkText (P.auth p) p.host.toList p.remotePort (pluginText H o) (nameText p) := by
  unfold Profile.toUri selectedOptions
  cases hcfg : PluginConfiguration.ofString (p.plugin.getD "").toList with
  | error e => rfl
  | ok cfg =>
      dsimp only
      by_cases hsel : cfg.selected = []
      · rw [if_neg (not_not.mpr hsel), PluginConfiguration.getOptions, if_pos hsel]
        rfl
      · rw [if_pos hsel]
        cases ho : cfg.getOptions cfg.selected defaultConfig with
        | error e => rfl
        | ok o =>
            have hid := (PluginConfiguration.getOptions_selected hcfg hsel ho).1
            rw [Except.map, Except.map, Except.map, pluginText_of_id H hid]
            rfl

/-- The text at the very end of a link. -/
def lastText : Str :=
  match nameText p with
  | some name => name
  | none => (pluginText H o).getD []

/-- What a profile `q` found in a link has to share with the `p` it is
of. -/
structure LinkAgrees (q : Profile) : Prop where
  method : q.method = p.method
  password : q.password = p.password
  host : q.host = p.host
  remotePort : q.remotePort = p.remotePort
  plugin : ∃ o o', selectedOptions defaultConfig p.plugin = .ok o
    ∧ selectedOptions defaultConfig q.plugin = .ok o' ∧ o'.Same o
  name : q.name.getD "" = p.name.getD ""

/-- The link is built, and exactly one profile is found in it. -/
def LinkRoundTrip : Prop :=
  ∃ link q, p.toUri P H defaultConfig = .ok link ∧ findAllUrls P feature link = [q]
    ∧ LinkAgrees defaultConfig p q

variable {o p}

theorem unmarked_eq_self_iff {s : Str} :
    unmarked s = s ↔ s.getLast?.any isMark = false := by
  rw [unmarked, List.rdropWhile_eq_self_iff]
  rcases List.eq_nil_or_concat s with rfl | ⟨t, c, rfl⟩
  · simp
  · simp [List.concat_eq_append]

theorem name_eq_nameText (p : Profile) : p.name.getD "" = String.ofList ((nameText p).getD []) := by
  unfold nameText
  cases p.name with
  | none => rfl
  | some name =>
      dsimp only [Option.getD_some]
      split
      next hempty => exact hempty
      next => exact String.ofList_toList.symm

/-- The whole text of the plugin. -/
theorem selectedOptions_pluginText_iff (h : Selected o) :
    (∃ o', selectedOptions defaultConfig ((pluginText H o).map String.ofList) = .ok o' ∧ o'.Same o)
      ↔ printable o = true := by
  rcases h with rfl | ⟨hid, h⟩
  · exact ⟨fun _ => rfl, fun _ => ⟨{}, rfl, rfl, fun _ => rfl⟩⟩
  · rw [pluginText_of_id H hid]
    exact PluginConfiguration.selectedOptions_toString_iff defaultConfig H hid h

/-- The plugin at the end of a link. -/
theorem selectedOptions_unmarked_iff (h : Selected o) :
    (∃ o', selectedOptions defaultConfig (((pluginText H o).map unmarked).map String.ofList)
        = .ok o' ∧ o'.Same o)
      ↔ printable o = true ∧ unmarked ((pluginText H o).getD []) = (pluginText H o).getD [] := by
  by_cases hmarks : unmarked ((pluginText H o).getD []) = (pluginText H o).getD []
  · have hsame : (pluginText H o).map unmarked = pluginText H o := by
      cases htext : pluginText H o with
      | none => rfl
      | some text =>
          rw [htext] at hmarks
          exact congrArg some hmarks
    rw [hsame, selectedOptions_pluginText_iff H defaultConfig h, and_iff_left hmarks]
  · -- some marks are cut off, and they are nowhere else
    rw [iff_false_intro fun hp : _ ∧ _ => hmarks hp.2, iff_false]
    rcases h with rfl | ⟨hid, h⟩
    · exact absurd rfl hmarks
    · rw [pluginText_of_id H hid] at hmarks ⊢
      obtain ⟨w, hw, hall, -⟩ := encode_unmarked (o.toString H false)
      refine PluginConfiguration.not_same_of_cut defaultConfig H hid h (f := isMark) (by decide)
        (by decide) (by decide) hw ?_
      rw [List.countP_eq_length.mpr hall, List.length_pos_iff]
      rintro rfl
      exact hmarks (hw.trans (List.append_nil _)).symm

/-- What is left to agree on. -/
theorem linkAgrees_iff (ho : selectedOptions defaultConfig p.plugin = .ok o)
    (plugin name : Option Str) :
    LinkAgrees defaultConfig p (linkProfile feature p plugin name)
      ↔ (∃ o', selectedOptions defaultConfig (plugin.map String.ofList) = .ok o' ∧ o'.Same o)
        ∧ name.getD [] = (nameText p).getD [] := by
  constructor
  · rintro ⟨-, -, -, -, ⟨x, o', hx, ho', hsame⟩, hname⟩
    obtain rfl := Except.ok.inj (ho.symm.trans hx)
    rw [name_eq_nameText p] at hname
    exact ⟨⟨o', ho', hsame⟩, String.ofList_injective hname⟩
  · rintro ⟨⟨o', ho', hsame⟩, hname⟩
    refine ⟨rfl, rfl, rfl, rfl, ⟨o, o', ho, ho', hsame⟩, ?_⟩
    rw [name_eq_nameText p, ← hname]
    rfl

/-- **The round trip of a link**, the selected options given. -/
theorem linkRoundTrip_iff_of_selected (h : Linkable P p)
    (ho : selectedOptions defaultConfig p.plugin = .ok o) :
    LinkRoundTrip P H defaultConfig feature p
      ↔ printable o = true ∧ (lastText H o p).getLast?.any isMark = false := by
  have hselected := PluginConfiguration.selectedOptions_selected ho
  have hlink : p.toUri P H defaultConfig = .ok (linkText (P.auth p) p.host.toList p.remotePort
      (pluginText H o) (nameText p)) := by
    rw [toUri_eq, ho]
    rfl
  have hfound := findAllUrls_linkText feature h.legible (pluginText H o) (nameText p)
  have hagrees : LinkRoundTrip P H defaultConfig feature p
      ↔ LinkAgrees defaultConfig p (linkProfile feature p
          (foundPlugin (pluginText H o) (nameText p)) ((nameText p).map unmarked)) := by
    constructor
    · rintro ⟨link, q, hl, hq, hqp⟩
      obtain rfl := Except.ok.inj (hlink.symm.trans hl)
      obtain rfl := List.head_eq_of_cons_eq (hfound.symm.trans hq)
      exact hqp
    · exact fun hqp => ⟨_, _, hlink, hfound, hqp⟩
  rw [hagrees, linkAgrees_iff defaultConfig feature ho, ← unmarked_eq_self_iff, lastText]
  cases nameText p with
  | some name =>
      -- behind the plugin stands the name
      exact and_congr_left fun _ => selectedOptions_pluginText_iff H defaultConfig hselected
  | none =>
      rw [foundPlugin, selectedOptions_unmarked_iff H defaultConfig hselected]
      exact and_iff_left rfl

variable (p)

/-- **`findAllUrls` GIVES BACK A PROFILE** from its link exactly if the
options of its plugin are printable and neither the name nor, without one,
the options end in `!` or `_`. -/
theorem link_roundTrip_iff (h : Linkable P p) :
    LinkRoundTrip P H defaultConfig feature p
      ↔ ∃ o, selectedOptions defaultConfig p.plugin = .ok o ∧ printable o = true
        ∧ (lastText H o p).getLast?.any isMark = false := by
  constructor
  · intro hround
    obtain ⟨-, -, -, -, -, -, -, -, ⟨o, -, ho, -⟩, -⟩ := id hround
    exact ⟨o, ho, (linkRoundTrip_iff_of_selected P H defaultConfig feature h ho).mp hround⟩
  · rintro ⟨o, ho, hcond⟩
    exact (linkRoundTrip_iff_of_selected P H defaultConfig feature h ho).mpr hcond

end RoundTrip

/-! ## §3. A platform with these laws. -/

namespace Reference

/-- A host with its brackets and a port; an authority without a host has
neither. -/
def server (host : Str) (port : Int) : Option Str × Int :=
  if Host.isHost (unwrapHost host) = true ∧ wrappedHost (unwrapHost host) = host then
    (some host, port)
  else (none, -1)

/-- Host and port of the authority: behind the last `@`, split at the last
colon. -/
def javaURI (uri : Str) : Option (Option Str × Int) :=
  match Uri.encodedAuthority uri with
  | none => none
  | some authority =>
      let hostPort := authority.reverse.takeWhile (· ≠ '@')
      match hostPort.dropWhile Char.isDigit with
      | ':' :: host =>
          some (server host.reverse
            (Nat.ofDigitChars 10 (hostPort.takeWhile Char.isDigit).reverse 0))
      | _ => some (server hostPort.reverse (-1))

theorem ofDigitChars_port {n : Int} (h : 1 ≤ n) :
    (Nat.ofDigitChars 10 (toString n).toList 0 : Int) = n := by
  cases n with
  | ofNat m =>
      have hrepr : (toString (Int.ofNat m)).toList = Nat.toDigits 10 m := Nat.toList_repr
      rw [hrepr, Nat.ofDigitChars_toDigits (by decide) (by decide)]
      rfl
  | negSucc m => omega

theorem javaURI_linkText (auth host : Str) (remotePort : Int) (plugin name : Option Str)
    (hauth : ∀ c ∈ auth, isBase64 c = true) (hhost : Host.isHost host = true)
    (hport : 1 ≤ remotePort) (_ : remotePort ≤ 65535) :
    javaURI (linkText auth host remotePort plugin name)
      = some (some (wrappedHost host), remotePort) := by
  have hhostPort : (linkAuthority auth host remotePort).reverse.takeWhile (· ≠ '@')
      = (toString remotePort).toList.reverse ++ ':' :: (wrappedHost host).reverse := by
    rw [reverse_linkAuthority,
      takeWhile_append_stop (before_at (mem_host hhost) hport) (head_stop (by decide))]
    simp
  have hunwrap : unwrapHost (wrappedHost host) = host := unwrapHost_wrappedHost (mem_host hhost)
  have hdigits : ∀ c ∈ (toString remotePort).toList.reverse, c.isDigit = true := fun c hc =>
    isDigit_of_mem_port hport c (List.mem_reverse.mp hc)
  have hcolon : ∀ c, (':' :: (wrappedHost host).reverse).head? = some c → c.isDigit = false :=
    head_stop (by decide)
  unfold javaURI
  rw [encodedAuthority_linkText hauth (mem_host hhost) hport]
  dsimp only
  rw [hhostPort, dropWhile_append_stop hdigits hcolon, takeWhile_append_stop hdigits hcolon]
  show some (server (wrappedHost host).reverse.reverse
    (Nat.ofDigitChars 10 (toString remotePort).toList.reverse.reverse 0 : Int)) = _
  rw [List.reverse_reverse, List.reverse_reverse, ofDigitChars_port hport, server, hunwrap,
    if_pos ⟨hhost, rfl⟩]

/-- Whatever is returned is a host. -/
theorem isHost_of_server {host h : Str} {n port : Int} (hs : server host n = (some h, port)) :
    Host.isHost (unwrapHost h) = true := by
  unfold server at hs
  split at hs
  next hhost =>
    obtain ⟨rfl⟩ := Option.some.inj (Prod.mk.inj hs).1
    exact hhost.1
  next => exact absurd (Prod.mk.inj hs).1 (by simp)

theorem isHost_of_javaURI {uri h : Str} {port : Int} (huri : javaURI uri = some (some h, port)) :
    Host.isHost (unwrapHost h) = true := by
  unfold javaURI at huri
  split at huri
  next => exact absurd huri (by simp)
  next =>
    dsimp only at huri
    split at huri
    next => exact isHost_of_server (Option.some.inj huri)
    next => exact isHost_of_server (Option.some.inj huri)

/-- The digits of the basic plane. -/
def isDigit (c : Char) : Bool :=
  decide (c.toNat < 0x10000) && (Net.digit c.toNat.toUInt16).isSome

theorem isDigit_ascii (c : Char) (h : c.toNat < 128) : isDigit c = c.isDigit := by
  have hall : ∀ n < 128, isDigit (Char.ofNat n) = (Char.ofNat n).isDigit := by decide +kernel
  have hc := hall c.toNat h
  rwa [Char.ofNat_toNat] at hc

def platform : Platform where
  string := Percent.utf8Decode
  string_utf8 := Percent.utf8Decode_encode
  decode := Percent.decode
  decode_encode := Percent.decode_encode
  encodeBase64 := Base64.encode (Base64.characters true)
  mem_encodeBase64 _ c hc :=
    List.all_eq_true.mp (by decide +kernel : (Base64.characters true).all isBase64 = true) c
      (Base64.mem_encode (by decide +kernel) hc)
  decodeBase64 urlSafe := Base64.decode (Base64.characters urlSafe)
  decode_encodeBase64 := Base64.decode_encode (by decide +kernel) (by decide +kernel)
  javaURI := javaURI
  javaURI_linkText := javaURI_linkText
  isLineTerminator c := [0xA, 0xD, 0x85, 0x2028, 0x2029].contains c.toNat
  isDigit := isDigit
  lowercase s := s.map Char.toLower

end Reference

/-- A profile with an IPv6 server, a plugin and a name. -/
def linkedProfile : Profile :=
  { name := some "it's 100%! (ü)"
    host := "2001:db8::1"
    password := "a:b@c"
    plugin := some "v2ray;tls;host=a_\nkcptun --nocomp" }

/-- The conditions are met by a profile with a plugin and a name. -/
theorem link_roundTrip_named :
    Linkable Reference.platform linkedProfile
      ∧ LinkRoundTrip Reference.platform PluginConfiguration.insertionOrder (fun _ => none) none
        linkedProfile := by
  have hlinkable : Linkable Reference.platform linkedProfile := by decide +kernel
  refine ⟨hlinkable, (link_roundTrip_iff _ _ _ _ _ hlinkable).mpr ?_⟩
  obtain ⟨o, ho, hp⟩ : ∃ o, selectedOptions (fun _ => none) linkedProfile.plugin = .ok o
      ∧ printable o = true := exists_of_test printable (by decide +kernel)
  have hlast : lastText PluginConfiguration.insertionOrder o linkedProfile
      = "it's 100%! (ü)".toList := rfl
  refine ⟨o, ho, hp, ?_⟩
  rw [hlast]
  decide

/-- **A name that ends in `!`** comes back without it. -/
theorem link_roundTrip_marked_fails :
    Linkable Reference.platform { name := some "Wow!" }
      ∧ (∃ link, Profile.toUri Reference.platform PluginConfiguration.insertionOrder (fun _ => none)
          { name := some "Wow!" } = .ok link
        ∧ findAllUrls Reference.platform none link = [{ name := some "Wow" }])
      ∧ ¬ LinkRoundTrip Reference.platform PluginConfiguration.insertionOrder (fun _ => none) none
        { name := some "Wow!" } := by
  have hlinkable : Linkable Reference.platform { name := some "Wow!" } := by decide +kernel
  have hselected : selectedOptions (fun _ => none) none = .ok {} := rfl
  refine ⟨hlinkable, ⟨_, toUri_eq _ _ _ _, ?_⟩, ?_⟩
  · exact findAllUrls_linkText none hlinkable.legible none (some "Wow!".toList)
  · intro hround
    have hcond := (linkRoundTrip_iff_of_selected _ _ _ _ hlinkable hselected).mp hround
    exact absurd hcond.2 (by decide)

end FoxVpn.Database
