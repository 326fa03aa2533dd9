/-
  FoxVpn.Database.ProfileLink
  ───────────────────────────
  **PROFILES AS `ss://` LINKS: `toUri` AND `findAllUrls`.**

      ss://AUTH@host:port?plugin=VALUE#NAME

  AUTH is the Base64 of `method:password`, VALUE and NAME are
  percent-encoded.  The link is built by `Uri.Builder`; it is found again by
  a regular expression, taken apart by `Uri` and, for host and port, by
  `java.net.URI`, and AUTH is split by a second expression.  Links of the
  older kind, with everything in the Base64, have a third.

  The expressions are written piece by piece as in the source.  What the
  platform does is `Platform`: functions with the documented behaviour, each
  a law.
-/
import FoxVpn.Lib.Base64
import FoxVpn.Lib.Percent
import FoxVpn.Lib.Regex
import FoxVpn.Database.ProfileJson
import FoxVpn.Plugin.SelectedPlugin

namespace FoxVpn.Database

open FoxVpn.Lib FoxVpn.Plugin FoxVpn.Utils

/-! ## §1. Hosts. -/

namespace Host

/-- A label of a host name: letters, digits and, inside, hyphens. -/
def isLabel (l : Str) : Bool :=
  l ≠ [] && l.all (fun c => c.isAlphanum || c == '-') && l.head? ≠ some '-'
    && l.getLast? ≠ some '-'

/-- A DNS host name; the last of several labels begins with a letter. -/
def isHostName (h : Str) : Bool :=
  let labels := h.splitOn '.'
  labels.all isLabel
    && (labels.length == 1 || ((labels.getLast?.bind List.head?).any Char.isAlpha))

/-- A number from 0 to 255. -/
def isOctet (n : Str) : Bool :=
  n ≠ [] && n.length ≤ 3 && n.all Char.isDigit && Nat.ofDigitChars 10 n 0 ≤ 255

def isIPv4 (h : Str) : Bool :=
  let octets := h.splitOn '.'
  octets.length == 4 && octets.all isOctet

def isHex (c : Char) : Bool := c.isDigit || ('a' ≤ c && c ≤ 'f') || ('A' ≤ c && c ≤ 'F')

def isGroup (g : Str) : Bool := g ≠ [] && g.length ≤ 4 && g.all isHex

/-- How many groups of sixteen bits a text stands for, an IPv4 address at
the end counting as two. -/
def groups (s : Str) : Option Nat :=
  if s = [] then some 0
  else
    let parts := s.splitOn ':'
    if parts.all isGroup then some parts.length
    else if parts.dropLast.all isGroup && parts.getLast?.any isIPv4 then some (parts.length + 1)
    else none

/-- The texts before and behind the first `::`. -/
def cut : Str → Option (Str × Str)
  | ':' :: ':' :: s => some ([], s)
  | c :: s => (cut s).map fun r => (c :: r.1, r.2)
  | [] => none

/-- An IPv6 literal. -/
def isIPv6 (h : Str) : Bool :=
  h.contains ':' &&
    match cut h with
    | none => groups h == some 8
    | some (l, r) =>
        l.all (· ≠ '.') &&
          match groups l, groups r with
          | some a, some b => a + b ≤ 7
          | _, _ => false

/-- The characters of hosts, the underscore of some host names and the
percent sign before the zone of a literal included. -/
def isHostChar (c : Char) : Bool :=
  c.isAlphanum || c == '-' || c == '.' || c == ':' || c == '_' || c == '%'

/-- A host name, an IPv4 address or an IPv6 literal. -/
def isHost (h : Str) : Bool := h.all isHostChar && (isHostName h || isIPv4 h || isIPv6 h)

example : ["example.org".toList, "192.0.2.1".toList, "2001:db8::1".toList, "::".toList,
    "::ffff:192.0.2.1".toList, "localhost".toList].all isHost = true := by
  decide

example : ["".toList, "-a.org".toList, "1::2::3".toList, "a..b".toList, "a_b".toList,
    "300.1.1.1".toList].any isHost = false := by
  decide

end Host

/-! ## §2. `Uri`. -/

namespace Uri

/-- The hierarchical text `Uri.Builder` builds of a scheme, an encoded
authority, one query parameter and a fragment. -/
def build (authority : Str) (parameter : Option (Str × Str)) (fragment : Option Str) : Str :=
  "ss://".toList ++ authority
    ++ (match parameter with
      | none => []
      | some (key, value) => '?' :: Percent.encode key ++ '=' :: Percent.encode value)
    ++ (match fragment with
      | none => []
      | some fragment => '#' :: Percent.encode fragment)

/-- `getEncodedAuthority()`: up to the path, the query or the fragment. -/
def encodedAuthority (uri : Str) : Option Str :=
  match uri.dropWhile (· ≠ ':') with
  | ':' :: '/' :: '/' :: rest =>
      some (rest.takeWhile fun c => c ≠ '/' && c ≠ '\\' && c ≠ '?' && c ≠ '#')
  | _ => none

/-- `getEncodedUserInfo()`: up to the last `@` of the authority. -/
def encodedUserInfo (uri : Str) : Option Str :=
  match encodedAuthority uri with
  | none => none
  | some authority =>
      match authority.reverse.dropWhile (· ≠ '@') with
      | [] => none
      | _ :: userInfo => some userInfo.reverse

/-- The encoded host: behind the last `@`, and up to the port. -/
def encodedHost (uri : Str) : Str :=
  let host := (((encodedAuthority uri).getD []).reverse.takeWhile (· ≠ '@')).reverse
  match host.reverse.dropWhile Char.isDigit with
  | ':' :: host => host.reverse
  | _ => host

/-- `getEncodedFragment()`: behind the first `#`. -/
def encodedFragment (uri : Str) : Option Str :=
  match uri.dropWhile (· ≠ '#') with
  | [] => none
  | _ :: fragment => some fragment

/-- `getEncodedQuery()`: behind the first `?` that is not in the fragment. -/
def encodedQuery (uri : Str) : Option Str :=
  match (uri.takeWhile (· ≠ '#')).dropWhile (· ≠ '?') with
  | [] => none
  | _ :: query => some query

end Uri

/-! ## §3. The platform. -/

/-- The characters of URL-safe Base64. -/
def isBase64 (c : Char) : Bool := c.isAlphanum || c == '-' || c == '_'

/-- The host as it is written in a link. -/
def wrappedHost (host : Str) : Str := if host.contains ':' then '[' :: host ++ [']'] else host

/-- The authority of a link. -/
def linkAuthority (auth host : Str) (remotePort : Int) : Str :=
  auth ++ '@' :: wrappedHost host ++ ':' :: (toString remotePort).toList

/-- A link. -/
def linkText (auth host : Str) (remotePort : Int) (plugin name : Option Str) : Str :=
  Uri.build (linkAuthority auth host remotePort)
    (plugin.map fun value => (Key.plugin.toList, value)) name

/-- What the platform does with texts, and what is known of it. -/
structure Platform where
  /-- `String(bytes)`. -/
  string : List UInt8 → Str
  string_utf8 : ∀ s, string (Percent.utf8Encode s) = s
  /-- `Uri.decode`; `true` is the decoding of query parameters. -/
  decode : Bool → Str → Str
  decode_encode : ∀ plus s, decode plus (Percent.encode s) = s
  /-- `Base64.encodeToString(bytes, NO_PADDING or NO_WRAP or URL_SAFE)`. -/
  encodeBase64 : List UInt8 → Str
  mem_encodeBase64 : ∀ bytes, ∀ c ∈ encodeBase64 bytes, isBase64 c = true
  /-- `Base64.decode`, with the standard (`false`) or the URL-safe
  alphabet; `none` is the IllegalArgumentException. -/
  decodeBase64 : Bool → Str → Option (List UInt8)
  decode_encodeBase64 : ∀ bytes, decodeBase64 true (encodeBase64 bytes) = some bytes
  /-- `URI(text)`: its host, which may be `null`, and its port; `none` is
  the URISyntaxException. -/
  javaURI : Str → Option (Option Str × Int)
  javaURI_linkText : ∀ auth host remotePort plugin name, (∀ c ∈ auth, isBase64 c = true) →
    Host.isHost host = true → 1 ≤ remotePort → remotePort ≤ 65535 →
    javaURI (linkText auth host remotePort plugin name)
      = some (some (wrappedHost host), remotePort)
  /-- What a `.` does not match. -/
  isLineTerminator : Char → Bool
  /-- What a `\d` matches: the decimal digits, of any script. -/
  isDigit : Char → Bool
  /-- `lowercase(Locale.ENGLISH)`. -/
  lowercase : Str → Str

namespace Platform

variable (P : Platform)

/-- `getUserInfo()`. -/
def userInfo (uri : Str) : Option Str := (Uri.encodedUserInfo uri).map (P.decode false)

/-- `getHost()`. -/
def host (uri : Str) : Str := P.decode false (Uri.encodedHost uri)

/-- `getFragment()`. -/
def fragment (uri : Str) : Option Str := (Uri.encodedFragment uri).map (P.decode false)

/-- `getQueryParameter(key)`: the first parameter of this name. -/
def queryParameter (uri key : Str) : Option Str :=
  match Uri.encodedQuery uri with
  | none => none
  | some query =>
      (query.splitOn '&').findSome? fun parameter =>
        if parameter.takeWhile (· ≠ '=') = Percent.encode key then
          match parameter.dropWhile (· ≠ '=') with
          | [] => some []
          | _ :: value => some (P.decode true value)
        else none

end Platform

/-! ## §4. `toUri`. -/

/-- `toUri().toString()`. -/
def Profile.toUri (P : Platform) (H : PluginOptions.HashOrder) (defaultConfig : Str → Option Str)
    (p : Profile) : Except Fault Str :=
  let auth := P.encodeBase64 (Percent.utf8Encode (p.method.toList ++ ':' :: p.password.toList))
  match PluginConfiguration.ofString (p.plugin.getD "").toList with
  | .error e => .error e
  | .ok configuration =>
      let plugin :=
        if configuration.selected ≠ [] then
          (configuration.getOptions configuration.selected defaultConfig).map fun options =>
            some (options.toString H false)
        else .ok none
      plugin.map fun plugin =>
        linkText auth p.host.toList p.remotePort plugin
          (match p.name with
          | none => none
          | some name => if name = "" then none else some name.toList)

/-! ## §5. `findAllUrls`. -/

open Regex

/-- `[-a-zA-Z0-9+&@#/%?=.~*'()|!:,;_\[\]]`. -/
def isInner (c : Char) : Bool :=
  c.isAlphanum || ['-', '+', '&', '@', '#', '/', '%', '?', '=', '.', '~', '*', '\'', '(', ')', '|',
    '!', ':', ',', ';', '_', '[', ']'].contains c

/-- `[-a-zA-Z0-9+&@#/%=.~*'()|\[\]]`. -/
def isFinal (c : Char) : Bool :=
  c.isAlphanum || ['-', '+', '&', '@', '#', '/', '%', '=', '.', '~', '*', '\'', '(', ')', '|', '[',
    ']'].contains c

/-- `(?i)ss://[…]*[…]`. -/
def pattern : List (Piece Char) :=
  [⟨fun c => c == 's' || c == 'S', .once, false⟩, ⟨fun c => c == 's' || c == 'S', .once, false⟩,
    ⟨(· == ':'), .once, false⟩, ⟨(· == '/'), .once, false⟩, ⟨(· == '/'), .once, false⟩,
    ⟨isInner, .greedy 0, false⟩, ⟨isFinal, .once, false⟩]

section Patterns

variable (P : Platform)

def Platform.isDot (c : Char) : Bool := !P.isLineTerminator c

/-- `^(.+?):(.*)$`. -/
def userInfoPattern : List (Piece Char) :=
  [⟨P.isDot, .lazy 1, true⟩, ⟨(· == ':'), .once, false⟩, ⟨P.isDot, .greedy 0, true⟩]

/-- `^(.+?):(.*)@(.+?):(\d+?)$`. -/
def legacyPattern : List (Piece Char) :=
  [⟨P.isDot, .lazy 1, true⟩, ⟨(· == ':'), .once, false⟩, ⟨P.isDot, .greedy 0, true⟩,
    ⟨(· == '@'), .once, false⟩, ⟨P.isDot, .lazy 1, true⟩, ⟨(· == ':'), .once, false⟩,
    ⟨P.isDigit, .lazy 1, true⟩]

end Patterns

/-- A new profile with the features of another. -/
def newProfile (feature : Option Profile) : Profile :=
  match feature with
  | none => {}
  | some feature => feature.copyFeatureSettingsTo {}

/-- The brackets of an IPv6 literal are taken off. -/
def unwrapHost (host : Str) : Str :=
  if host.head? = some '[' ∧ host.getLast? = some ']' then (host.drop 1).dropLast else host

/-- A link of the older kind. -/
def parseLegacy (P : Platform) (feature : Option Profile) (uri : Str) : Option Profile :=
  match P.decodeBase64 false (P.host uri) with
  | none => none
  | some bytes =>
      match matchEntire (legacyPattern P) (P.string bytes) with
      | some [method, password, host, port] =>
          (toIntOrNull (String.ofList port)).map fun remotePort =>
            { newProfile feature with
              method := String.ofList (P.lowercase method)
              password := String.ofList password
              host := String.ofList host
              remotePort := remotePort
              plugin := (P.queryParameter uri Key.plugin.toList).map String.ofList
              name := (P.fragment uri).map String.ofList }
      | _ => none

/-- A link with a user info. -/
def parseUserInfo (P : Platform) (feature : Option Profile) (uri userInfo : Str) :
    Option Profile :=
  match P.decodeBase64 true userInfo with
  | none => none
  | some bytes =>
      match matchEntire (userInfoPattern P) (P.string bytes) with
      | some [method, password] =>
          match P.javaURI uri with
          | none => none
          | some (host, port) =>
              some { newProfile feature with
                method := String.ofList method
                password := String.ofList password
                host := String.ofList (unwrapHost (host.getD []))
                remotePort := port
                plugin := (P.queryParameter uri Key.plugin.toList).map String.ofList
                name := some (String.ofList ((P.fragment uri).getD [])) }
      | _ => none

/-- The profile of one match. -/
def parseUrl (P : Platform) (feature : Option Profile) (uri : Str) : Option Profile :=
  match P.userInfo uri with
  | none => parseLegacy P feature uri
  | some userInfo => parseUserInfo P feature uri userInfo

/-- `findAllUrls(data, feature)`. -/
def findAllUrls (P : Platform) (feature : Option Profile) (data : Str) : List Profile :=
  (findAll pattern 0 data).filterMap (parseUrl P feature)

end FoxVpn.Database
