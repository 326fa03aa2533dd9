/-
  FoxVpn.Database.LegacyLink
  ──────────────────────────
  **LINKS OF THE OLDER KIND.**

      ss://BASE64        of  method:password@host:port

  The Base64 stands where `Uri` expects a host, and it is of the STANDARD
  alphabet, whose last character is the slash.  A slash ends the authority:
  what `Uri` calls the host is the Base64 up to there, which decodes to fewer
  bytes, if it decodes at all.

      legacy_match          the text is split at the first colon, the last
                            `@` and the last colon
      of_legacy_match       whatever is matched has this form
      host_legacyLink       the host is the Base64 up to the first slash
      isURIHost_of_decoded  the link of the newer kind gives back hosts of
                            `java.net.URI` only

  Main result `legacy_link_iff`: the link gives exactly one profile, with
  the four fields, and so does the link of the newer kind, if and only if
  there is no slash in the Base64 and the host is one to `java.net.URI`.
-/
import FoxVpn.Lib.Utf8
import FoxVpn.Database.LinkRoundTrip

namespace FoxVpn.Database

open FoxVpn.Lib FoxVpn.Plugin FoxVpn.Utils
open Percent (utf8Encode)
open Regex (matchEntire)

/-! ## §1. The platform. -/

/-- The characters of standard Base64. -/
def standardAlphabet : List Char := Base64.characters false

/-- What more is known of the platform: how it reads Base64 that was not
written by it and texts that are cut short, and which hosts it knows. -/
structure LegacyPlatform extends Platform where
  /-- `Uri.decode` changes escapes only, and makes no text longer. -/
  decode_plain : ∀ s, '%' ∉ s → decode false s = s
  length_decode : ∀ s, (decode false s).length ≤ s.length
  /-- `Base64.decode` needs no padding. -/
  decodeBase64_standard : ∀ s, (∀ c ∈ s, c ∈ standardAlphabet) →
    decodeBase64 false s = Base64.decode standardAlphabet s
  length_decodeBase64 : ∀ s bytes, decodeBase64 false s = some bytes → bytes.length ≤ s.length
  /-- A character that is cut off is replaced. -/
  string_cut : ∀ s bytes, bytes <+: utf8Encode s →
    (∃ t, bytes = utf8Encode t) ∨ (string bytes).getLast? = some (Char.ofNat 0xFFFD)
  length_string : ∀ bytes, (string bytes).length ≤ bytes.length
  lowercase_ne_nil : ∀ s, s ≠ [] → lowercase s ≠ []
  /-- The ASCII digits are digits, other ASCII characters are not, and
  neither is the replacement character. -/
  isDigit_ascii : ∀ c, c.toNat < 128 → isDigit c = c.isDigit
  isDigit_replacement : isDigit (Char.ofNat 0xFFFD) = false
  /-- The hosts `URI` knows, literals without their brackets: whatever it
  returns is one, and each of them is read from a link. -/
  isURIHost : Str → Bool
  mem_isURIHost : ∀ host, isURIHost host = true → ∀ c ∈ host, Host.isHostChar c = true
  isURIHost_javaURI : ∀ uri host port, javaURI uri = some (some host, port) →
    isURIHost (unwrapHost host) = true
  javaURI_isURIHost : ∀ auth host remotePort plugin name, (∀ c ∈ auth, isBase64 c = true) →
    isURIHost host = true → 1 ≤ remotePort → remotePort ≤ 65535 →
    javaURI (linkText auth host remotePort plugin name)
      = some (some (wrappedHost host), remotePort)

theorem LegacyPlatform.isDigit_of_isDigit (P : LegacyPlatform) {c : Char}
    (h : c.isDigit = true) : P.isDigit c = true := by
  have hrange : 48 ≤ c.toNat ∧ c.toNat ≤ 57 := Char.isDigit_iff_toNat.mp h
  rw [P.isDigit_ascii c (by omega), h]

/-- **Host names, IPv4 addresses and IPv6 literals are hosts.** -/
theorem LegacyPlatform.isURIHost_of_isHost (P : LegacyPlatform) {host : Str}
    (h : Host.isHost host = true) : P.isURIHost host = true := by
  have hread := P.javaURI_linkText [] host 80 none none (fun c hc => absurd hc List.not_mem_nil) h
    (by decide) (by decide)
  have hhost := P.isURIHost_javaURI _ _ _ hread
  rwa [unwrapHost_wrappedHost (mem_host h)] at hhost

/-! ## §2. Four fields in a text. -/

/-- The text of the four fields. -/
def legacyText (method password host port : Str) : Str :=
  method ++ ':' :: (password ++ '@' :: (host ++ ':' :: port))

section Match

variable {P : LegacyPlatform}

/-- The port is matched as a whole. -/
theorem port_match {port : Str} (hne : port ≠ []) (hport : ∀ c ∈ port, P.isDigit c = true) :
    matchEntire [⟨P.isDigit, .lazy 1, true⟩] port = some [port] := by
  have hpos := List.length_pos_iff.mpr hne
  refine Regex.matchEntire_last ?_ hport
  rw [Regex.Quantifier.lengths, List.mem_range'_1]
  omega

/-- Nothing but digits is. -/
theorem port_match_none {s : Str} {c : Char} (hc : c ∈ s) (hdigit : P.isDigit c = false) :
    matchEntire [⟨P.isDigit, .lazy 1, true⟩] s = none := by
  cases hm : matchEntire [⟨P.isDigit, .lazy 1, true⟩] s with
  | none => rfl
  | some gs =>
      obtain ⟨u, v, rest, rfl, hu, -, hv, -⟩ := Regex.exists_of_matchEntire hm
      rw [(Regex.of_matchEntire_nil hv).1, List.append_nil] at hc
      exact absurd ((hu c hc).symm.trans hdigit) (by decide)

/-- The last colon is behind the host. -/
theorem hostPort_match {host port : Str} (hhost : host ≠ []) (hdots : ∀ c ∈ host, P.isDot c = true)
    (hne : port ≠ []) (hport : ∀ c ∈ port, P.isDigit c = true) :
    matchEntire [⟨P.isDot, .lazy 1, true⟩, ⟨(· == ':'), .once, false⟩,
        ⟨P.isDigit, .lazy 1, true⟩] (host ++ ':' :: port) = some [host, port] := by
  refine Regex.matchEntire_lazy (List.length_pos_iff.mpr hhost) hdots (fun k _ hk => ?_) ?_
  · -- an earlier colon leaves the last one among the digits
    rw [List.drop_append_of_le_length (by omega)]
    cases hdrop : host.drop k with
    | nil => exact absurd (List.drop_eq_nil_iff.mp hdrop) (by omega)
    | cons c cs =>
        by_cases hc : c = ':'
        · rw [hc, List.cons_append, Regex.matchEntire_once _ _ (by decide)]
          exact port_match_none (c := ':') (by simp) (P.isDigit_ascii _ (by decide))
        · refine Regex.matchEntire_once_none _ fun x hx => ?_
          rw [← Option.some.inj hx]
          exact beq_eq_false_iff_ne.mpr hc
  · rw [Regex.matchEntire_once _ _ (by decide)]
    exact port_match hne hport

/-- **The four fields are found again**: the method ends at the first colon,
the password at the last `@`. -/
theorem legacy_match {method password host port : Str} (hmethod : method ≠ [])
    (hcolon : ':' ∉ method) (hhost : host ≠ []) (hat : '@' ∉ host) (hne : port ≠ [])
    (hport : ∀ c ∈ port, P.isDigit c = true)
    (hdots : ∀ c ∈ method ++ password ++ host, P.isDot c = true) :
    matchEntire (legacyPattern P.toPlatform) (legacyText method password host port)
      = some [method, password, host, port] := by
  have hm : ∀ c ∈ method, P.isDot c = true := fun c hc => hdots c (by simp [hc])
  have hpw : ∀ c ∈ password, P.isDot c = true := fun c hc => hdots c (by simp [hc])
  have hh : ∀ c ∈ host, P.isDot c = true := fun c hc => hdots c (by simp [hc])
  refine Regex.matchEntire_lazy (List.length_pos_iff.mpr hmethod) hm (fun k _ hk => ?_) ?_
  · refine Regex.matchEntire_once_none _ fun c hc => beq_eq_false_iff_ne.mpr ?_
    rintro rfl
    exact hcolon (Regex.mem_of_head?_drop hk hc)
  rw [Regex.matchEntire_once _ _ (by decide)]
  refine Regex.matchEntire_greedy (Nat.zero_le _) hpw (fun k hk => ?_) ?_
  · -- behind the `@` there is no other
    refine Regex.matchEntire_once_none _ fun c hc => beq_eq_false_iff_ne.mpr ?_
    rintro rfl
    rcases List.mem_append.mp (Regex.mem_of_head?_drop_behind hk hc) with h | h
    · exact hat h
    · rcases List.mem_cons.mp h with h | h
      · exact absurd h (by decide)
      · exact absurd ((P.isDigit_ascii '@' (by decide)).symm.trans (hport _ h)) (by decide)
  · rw [Regex.matchEntire_once _ _ (by decide)]
    exact hostPort_match hhost hh hne hport

/-- **Whatever is matched has the form**, with a method, a host and a port
that are not empty, and digits for the port. -/
theorem of_legacy_match {t : Str} {gs : List Str}
    (h : matchEntire (legacyPattern P.toPlatform) t = some gs) :
    ∃ method password host port, gs = [method, password, host, port]
      ∧ t = legacyText method password host port ∧ method ≠ [] ∧ host ≠ [] ∧ port ≠ []
      ∧ ∀ c ∈ port, P.isDigit c = true := by
  obtain ⟨method, t₁, gs₁, rfl, -, hmethod, h₁, rfl⟩ := Regex.exists_of_matchEntire h
  obtain ⟨c₁, t₂, rfl, hc₁, h₂⟩ := Regex.exists_of_matchEntire_once h₁
  obtain ⟨password, t₃, gs₃, rfl, -, -, h₃, rfl⟩ := Regex.exists_of_matchEntire h₂
  obtain ⟨c₂, t₄, rfl, hc₂, h₄⟩ := Regex.exists_of_matchEntire_once h₃
  obtain ⟨host, t₅, gs₅, rfl, -, hhost, h₅, rfl⟩ := Regex.exists_of_matchEntire h₄
  obtain ⟨c₃, t₆, rfl, hc₃, h₆⟩ := Regex.exists_of_matchEntire_once h₅
  obtain ⟨port, t₇, gs₇, rfl, hport, hne, h₇, rfl⟩ := Regex.exists_of_matchEntire h₆
  obtain ⟨rfl, rfl⟩ := Regex.of_matchEntire_nil h₇
  refine ⟨method, password, host, port, rfl, ?_, List.length_pos_iff.mp hmethod,
    List.length_pos_iff.mp hhost, List.length_pos_iff.mp hne, hport⟩
  rw [beq_iff_eq.mp hc₁, beq_iff_eq.mp hc₂, beq_iff_eq.mp hc₃, List.append_nil]
  rfl

end Match

/-! ## §3. The Base64. -/

/-- `ss://` and the Base64 of the text. -/
def legacyBase64 (text : Str) : Str := Base64.encode standardAlphabet (utf8Encode text)

def legacyLink (text : Str) : Str := "ss://".toList ++ legacyBase64 text

theorem length_standardAlphabet : standardAlphabet.length = 64 := by decide +kernel

theorem nodup_standardAlphabet : standardAlphabet.Nodup := by decide +kernel

/-- A character of the alphabet, as the expressions and `Uri` see it. -/
theorem mem_standardAlphabet {c : Char} (h : c ∈ standardAlphabet) :
    isInner c = true ∧ isFinal c = true ∧ c ≠ '%' ∧ c ≠ '@' ∧ c ≠ ':' ∧ c ≠ '\\' ∧ c ≠ '?'
      ∧ c ≠ '#' := by
  have hall : standardAlphabet.all (fun c => isInner c && (isFinal c && (c != '%' && (c != '@'
      && (c != ':' && (c != '\\' && (c != '?' && c != '#'))))))) = true := by
    decide +kernel
  simpa only [Bool.and_eq_true, bne_iff_ne] using List.all_eq_true.mp hall c h

theorem mem_legacyBase64 {text : Str} {c : Char} (h : c ∈ legacyBase64 text) :
    c ∈ standardAlphabet := Base64.mem_encode length_standardAlphabet h

theorem legacyBase64_ne_nil {text : Str} (h : text ≠ []) : legacyBase64 text ≠ [] := by
  intro hnil
  have hback := Base64.decode_encode length_standardAlphabet nodup_standardAlphabet
    (utf8Encode text)
  have hempty : Base64.decode standardAlphabet [] = some [] := rfl
  rw [show Base64.encode standardAlphabet (utf8Encode text) = [] from hnil, hempty] at hback
  have htext : Percent.utf8Decode [] = text := by
    rw [Option.some.inj hback, Percent.utf8Decode_encode]
  exact h (htext.symm.trans (Percent.utf8Decode_encode []))

/-! ## §4. A link, taken apart. -/

section Link

variable {text : Str}

/-- The whole link is one match. -/
theorem findAll_legacyLink (h : text ≠ []) :
    Regex.findAll pattern 0 (legacyLink text) = [legacyLink text] := by
  obtain ⟨a, x, hax⟩ := (List.eq_nil_or_concat _).resolve_left (legacyBase64_ne_nil h)
  rw [List.concat_eq_append] at hax
  have hmem : ∀ c ∈ a ++ [x], isInner c = true ∧ isFinal c = true := fun c hc =>
    have hc := mem_standardAlphabet (mem_legacyBase64 (hax ▸ hc))
    ⟨hc.1, hc.2.1⟩
  have ha : ∀ c ∈ a, isInner c = true := fun c hc => (hmem c (List.mem_append_left _ hc)).1
  have hfound := findAll_pattern (s := []) ha (hmem x (by simp)).2
  show Regex.findAll pattern 0 ("ss://".toList ++ legacyBase64 text)
    = ["ss://".toList ++ legacyBase64 text]
  rw [hax]
  exact hfound

/-- The authority ends at the first slash. -/
theorem encodedAuthority_legacyLink :
    Uri.encodedAuthority (legacyLink text) = some ((legacyBase64 text).takeWhile (· ≠ '/')) := by
  have hcongr : ∀ s : Str, (∀ c ∈ s, c ∈ standardAlphabet) →
      s.takeWhile (fun c => c ≠ '/' && c ≠ '\\' && c ≠ '?' && c ≠ '#')
        = s.takeWhile (· ≠ '/') := by
    intro s
    induction s with
    | nil => exact fun _ => rfl
    | cons c s ih =>
        intro hs
        obtain ⟨hc, hs⟩ := List.forall_mem_cons.mp hs
        obtain ⟨-, -, -, -, -, hback, hquery, hhash⟩ := mem_standardAlphabet hc
        rw [List.takeWhile_cons, List.takeWhile_cons, ih hs]
        simp [hback, hquery, hhash]
  exact congrArg some (hcongr _ fun c hc => mem_legacyBase64 hc)

theorem mem_takeWhile {c : Char} (h : c ∈ (legacyBase64 text).takeWhile (· ≠ '/')) :
    c ∈ standardAlphabet := mem_legacyBase64 ((List.takeWhile_prefix _).subset h)

theorem encodedUserInfo_legacyLink : Uri.encodedUserInfo (legacyLink text) = none := by
  have hdrop : ((legacyBase64 text).takeWhile (· ≠ '/')).reverse.dropWhile (· ≠ '@') = [] := by
    rw [List.dropWhile_eq_nil_iff]
    intro c hc
    exact decide_eq_true (mem_standardAlphabet (mem_takeWhile (List.mem_reverse.mp hc))).2.2.2.1
  unfold Uri.encodedUserInfo
  rw [encodedAuthority_legacyLink]
  dsimp only
  rw [hdrop]

theorem encodedHost_legacyLink :
    Uri.encodedHost (legacyLink text) = (legacyBase64 text).takeWhile (· ≠ '/') := by
  have hat : (((legacyBase64 text).takeWhile (· ≠ '/')).reverse.takeWhile (· ≠ '@')).reverse
      = (legacyBase64 text).takeWhile (· ≠ '/') := by
    rw [List.takeWhile_eq_self_iff.mpr, List.reverse_reverse]
    intro c hc
    exact decide_eq_true (mem_standardAlphabet (mem_takeWhile (List.mem_reverse.mp hc))).2.2.2.1
  unfold Uri.encodedHost
  rw [encodedAuthority_legacyLink, Option.getD_some, hat]
  dsimp only
  -- there is no port to cut off
  split
  next host hport =>
    have hmem : ':' ∈ ((legacyBase64 text).takeWhile (· ≠ '/')).reverse :=
      (List.dropWhile_suffix _).subset (hport ▸ List.mem_cons_self)
    exact absurd rfl (mem_standardAlphabet (mem_takeWhile (List.mem_reverse.mp hmem))).2.2.2.2.1
  next => rfl

/-- **What `Uri` takes for the host**: the Base64 up to the first slash. -/
theorem host_legacyLink (P : LegacyPlatform) :
    P.host (legacyLink text) = (legacyBase64 text).takeWhile (· ≠ '/') := by
  unfold Platform.host
  rw [encodedHost_legacyLink]
  exact P.decode_plain _ fun h => (mem_standardAlphabet (mem_takeWhile h)).2.2.1 rfl

/-- The link has no user info, and is read as one of the older kind. -/
theorem parseUrl_legacyLink (P : LegacyPlatform) (feature : Option Profile) :
    parseUrl P.toPlatform feature (legacyLink text)
      = parseLegacy P.toPlatform feature (legacyLink text) := by
  unfold parseUrl Platform.userInfo
  rw [encodedUserInfo_legacyLink]
  rfl

theorem findAllUrls_legacyLink (P : LegacyPlatform) (feature : Option Profile) (h : text ≠ []) :
    findAllUrls P.toPlatform feature (legacyLink text)
      = (parseLegacy P.toPlatform feature (legacyLink text)).toList := by
  rw [findAllUrls, findAll_legacyLink h, List.filterMap_cons, parseUrl_legacyLink]
  cases parseLegacy P.toPlatform feature (legacyLink text) <;> rfl

end Link

/-- What a link of the older kind is read as, if it is read. -/
theorem parseLegacy_eq_some {P : LegacyPlatform} {feature : Option Profile} {uri : Str}
    {q : Profile} (h : parseLegacy P.toPlatform feature uri = some q) :
    ∃ bytes method password host port, P.decodeBase64 false (P.host uri) = some bytes
      ∧ matchEntire (legacyPattern P.toPlatform) (P.string bytes)
        = some [method, password, host, port]
      ∧ P.string bytes = legacyText method password host port
      ∧ (method ≠ [] ∧ host ≠ [] ∧ port ≠ [] ∧ ∀ c ∈ port, P.isDigit c = true)
      ∧ toIntOrNull (String.ofList port) = some q.remotePort
      ∧ q.method = String.ofList (P.lowercase method) ∧ q.password = String.ofList password
      ∧ q.host = String.ofList host := by
  unfold parseLegacy at h
  cases hbytes : P.decodeBase64 false (P.host uri) with
  | none => rw [hbytes] at h; exact absurd h (by simp)
  | some bytes =>
      rw [hbytes] at h
      cases hmatch : matchEntire (legacyPattern P.toPlatform) (P.string bytes) with
      | none => simp only [hmatch] at h; exact absurd h (by simp)
      | some gs =>
          obtain ⟨method, password, host, port, rfl, hform, hfields⟩ := of_legacy_match hmatch
          simp only [hmatch] at h
          obtain ⟨n, hn, rfl⟩ := Option.map_eq_some_iff.mp h
          exact ⟨bytes, method, password, host, port, rfl, hmatch, hform, hfields, hn, rfl, rfl,
            rfl⟩

/-! ## §5. A text that is cut short. -/

/-- What the digits of a port denote, however many; `none` if one of them
is outside the basic plane. -/
def portValue (port : Str) : Option Nat := Net.digits (port.flatMap codeUnits)

/-- A character in front of a number that is no sign. -/
theorem codeUnits_no_sign {P : LegacyPlatform} {c : Char} (hc : P.isDigit c = true) :
    ∃ u us, codeUnits c = u :: us ∧ u ≠ 45 ∧ u ≠ 43 := by
  have hsign : ∀ n < 128, c.toNat = n → (Char.ofNat n).isDigit = true := by
    intro n hn hcn
    rw [← hcn, Char.ofNat_toNat, ← P.isDigit_ascii c (by omega), hc]
  by_cases hsmall : c.toNat < 0x10000
  · obtain ⟨hunits, hunit⟩ := codeUnits_of_lt hsmall
    refine ⟨c.toNat.toUInt16, [], hunits, ?_, ?_⟩
    · intro h
      rw [h] at hunit
      exact absurd (hsign 45 (by decide) hunit.symm) (by decide)
    · intro h
      rw [h] at hunit
      exact absurd (hsign 43 (by decide) hunit.symm) (by decide)
  · obtain ⟨u, v, hunits, hle, -⟩ := codeUnits_of_le (Nat.le_of_not_lt hsmall)
    refine ⟨u, [v], hunits, ?_, ?_⟩
    · rintro rfl
      exact absurd hle (by decide)
    · rintro rfl
      exact absurd hle (by decide)

/-- **A port is read as the number of its digits**, if that is an `Int`. -/
theorem toIntOrNull_port {P : LegacyPlatform} {port : Str}
    (hport : ∀ c ∈ port, P.isDigit c = true) :
    toIntOrNull (String.ofList port)
      = (portValue port).bind fun n => if n ≤ 2147483647 then some (n : Int) else none := by
  unfold toIntOrNull portValue
  rw [String.toList_ofList]
  cases port with
  | nil => rfl
  | cons c port =>
      obtain ⟨u, us, hu, hminus, hplus⟩ := codeUnits_no_sign (hport c List.mem_cons_self)
      rw [List.flatMap_cons, hu, List.cons_append, Net.toInt, if_neg hminus, if_neg hplus]

/-- A code unit that is a digit stands alone. -/
theorem length_flatMap_codeUnits {cs : Str}
    (h : ∀ u ∈ cs.flatMap codeUnits, Net.digit u ≠ none) :
    (cs.flatMap codeUnits).length = cs.length := by
  induction cs with
  | nil => rfl
  | cons c cs ih =>
      rw [List.flatMap_cons, List.forall_mem_append] at h
      rw [List.flatMap_cons, List.length_append, ih h.2, List.length_cons, length_codeUnits]
      by_cases hsmall : c.toNat < 0x10000
      · rw [if_pos hsmall, Nat.add_comm]
      · -- no half of a character is a digit
        obtain ⟨u, v, hunits, hle, hlt⟩ := codeUnits_of_le (Nat.le_of_not_lt hsmall)
        exact absurd (Net.digit_surrogate hle (by omega)) (h.1 u (by simp [hunits]))

/-- A port that is printed has no digit too many. -/
theorem length_port_le {P : LegacyPlatform} {remotePort : Int} {port : Str}
    (hport : ∀ c ∈ port, P.isDigit c = true)
    (h : toIntOrNull (String.ofList port) = some remotePort) :
    (toString remotePort).toList.length ≤ port.length := by
  rw [toIntOrNull_port hport] at h
  obtain ⟨n, hn, hread⟩ := Option.bind_eq_some_iff.mp h
  obtain ⟨hne, hlt, hdigits⟩ := Net.digits_eq_some hn
  have hlength := length_flatMap_codeUnits hdigits
  split at hread
  next =>
    rw [← Option.some.inj hread]
    have hrepr : (toString (n : Int)).toList = Nat.toDigits 10 n := Nat.toList_repr
    have hpos := List.length_pos_iff.mpr hne
    rw [hrepr, Nat.length_toDigits_le_iff (by decide) (by omega), ← hlength]
    exact hlt
  next => exact absurd hread (by simp)

/-- The first colon of a text is no later in what it begins with. -/
theorem length_method_le {method rest method' rest' : Str} (hcolon : ':' ∉ method)
    (h : method' ++ ':' :: rest' <+: method ++ ':' :: rest) : method.length ≤ method'.length := by
  by_contra hlt
  obtain ⟨w, hw⟩ := h
  have hget : (method ++ ':' :: rest)[method'.length]? = some ':' := by
    rw [← hw, List.append_assoc, List.getElem?_append_right (Nat.le_refl _)]
    simp
  rw [List.getElem?_append_left (by omega)] at hget
  exact hcolon (List.mem_of_getElem? hget)

/-- **A text that is cut short does not have the fields**: the last digit of
the port is missing, whatever the method has become. -/
theorem length_legacyText_le {P : LegacyPlatform} {method password host method' port' : Str}
    {remotePort : Int} (hcolon : ':' ∉ method) (hport : ∀ c ∈ port', P.isDigit c = true)
    (hread : toIntOrNull (String.ofList port') = some remotePort)
    (h : legacyText method' password host port'
      <+: legacyText method password host (toString remotePort).toList) :
    (legacyText method password host (toString remotePort).toList).length
      ≤ (legacyText method' password host port').length := by
  have hm := length_method_le hcolon h
  have hp := length_port_le hport hread
  simp only [legacyText, List.length_append, List.length_cons]
  omega

/-- A text that is matched does not end in the replacement character. -/
theorem getLast?_legacyText {P : LegacyPlatform} {method password host port : Str}
    (hne : port ≠ []) (hport : ∀ c ∈ port, P.isDigit c = true) :
    (legacyText method password host port).getLast? ≠ some (Char.ofNat 0xFFFD) := by
  intro h
  obtain ⟨a, x, rfl⟩ := (List.eq_nil_or_concat port).resolve_left hne
  rw [List.concat_eq_append] at h hport
  have hlast : legacyText method password host (a ++ [x])
      = (method ++ ':' :: (password ++ '@' :: (host ++ ':' :: a))) ++ [x] := by
    simp [legacyText]
  -- the last character is a digit
  rw [hlast, List.getLast?_concat] at h
  have hx := hport x (by simp)
  rw [Option.some.inj h, P.isDigit_replacement] at hx
  exact absurd hx (by decide)

/-! ## §6. Both kinds of links. -/

/-- The four fields that a link is about. -/
structure Endpoint where
  method : Str
  password : Str
  host : Str
  remotePort : Int
  deriving Repr, DecidableEq

def Profile.endpoint (p : Profile) : Endpoint :=
  ⟨p.method.toList, p.password.toList, p.host.toList, p.remotePort⟩

namespace Endpoint

/-- `method:password@host:port`. -/
def text (e : Endpoint) : Str :=
  legacyText e.method e.password e.host (toString e.remotePort).toList

/-- **A link decodes to the four fields**: it gives one profile, which has
them. -/
def DecodedFrom (P : Platform) (feature : Option Profile) (link : Str) (e : Endpoint) : Prop :=
  ∃ q, findAllUrls P feature link = [q] ∧ q.endpoint = e

/-- The fields that links of the older kind are made for. -/
structure Legacy (P : Platform) (e : Endpoint) : Prop where
  nonempty : e.method ≠ [] ∧ e.host ≠ []
  lowercase : P.lowercase e.method = e.method
  separators : ':' ∉ e.method ∧ '@' ∉ e.host
  remotePort : 1 ≤ e.remotePort ∧ e.remotePort ≤ 65535
  lines : ∀ c ∈ e.method ++ e.password ++ e.host, P.isLineTerminator c = false

theorem legacy_iff {P : Platform} {e : Endpoint} :
    e.Legacy P ↔ (e.method ≠ [] ∧ e.host ≠ []) ∧ P.lowercase e.method = e.method
      ∧ (':' ∉ e.method ∧ '@' ∉ e.host) ∧ (1 ≤ e.remotePort ∧ e.remotePort ≤ 65535)
      ∧ (e.method ++ e.password ++ e.host).all (fun c => !P.isLineTerminator c) = true := by
  simp only [List.all_eq_true, Bool.not_eq_true']
  exact ⟨fun h => ⟨h.nonempty, h.lowercase, h.separators, h.remotePort, h.lines⟩,
    fun ⟨hne, hl, hs, hp, hc⟩ => ⟨hne, hl, hs, hp, hc⟩⟩

instance (P : Platform) (e : Endpoint) : Decidable (e.Legacy P) :=
  decidable_of_iff _ legacy_iff.symm

theorem text_ne_nil (e : Endpoint) : e.text ≠ [] := by
  simp [text, legacyText]

section Decode

variable {P : LegacyPlatform} {feature : Option Profile} {e : Endpoint}

theorem port_ne_nil (h : e.Legacy P.toPlatform) : (toString e.remotePort).toList ≠ [] := by
  obtain ⟨hport, -⟩ := h.remotePort
  generalize e.remotePort = remotePort at hport
  cases remotePort with
  | ofNat n =>
      have hrepr : (toString (Int.ofNat n)).toList = Nat.toDigits 10 n := Nat.toList_repr
      rw [hrepr]
      exact Nat.toDigits_ne_nil
  | negSucc n => omega

/-- Without a slash, all of the text comes back. -/
theorem decodedFrom_of_no_slash (h : e.Legacy P.toPlatform) (hslash : '/' ∉ legacyBase64 e.text) :
    e.DecodedFrom P.toPlatform feature (legacyLink e.text) := by
  have hall : (legacyBase64 e.text).takeWhile (· ≠ '/') = legacyBase64 e.text := by
    rw [List.takeWhile_eq_self_iff]
    exact fun c hc => decide_eq_true fun heq => hslash (heq ▸ hc)
  have hbytes : P.decodeBase64 false (P.host (legacyLink e.text)) = some (utf8Encode e.text) := by
    rw [host_legacyLink, hall, P.decodeBase64_standard _ fun c hc => mem_legacyBase64 hc]
    exact Base64.decode_encode length_standardAlphabet nodup_standardAlphabet _
  have hmatch : matchEntire (legacyPattern P.toPlatform) e.text
      = some [e.method, e.password, e.host, (toString e.remotePort).toList] := by
    refine legacy_match h.nonempty.1 h.separators.1 h.nonempty.2 h.separators.2 (port_ne_nil h)
      (fun c hc => P.isDigit_of_isDigit (isDigit_of_mem_port h.remotePort.1 c hc)) fun c hc => ?_
    rw [Platform.isDot, h.lines c hc]
    rfl
  have hport : toIntOrNull (String.ofList (toString e.remotePort).toList) = some e.remotePort := by
    have hrange := h.remotePort
    rw [String.ofList_toList, toIntOrNull_toString, if_pos (by omega)]
  rw [DecodedFrom, findAllUrls_legacyLink P feature e.text_ne_nil]
  simp only [parseLegacy, hbytes, P.string_utf8, hmatch, hport, Option.map_some]
  refine ⟨_, rfl, ?_⟩
  simp only [Profile.endpoint, String.toList_ofList, h.lowercase]

/-- With one, fewer bytes come back, if any do. -/
theorem decodeBase64_of_slash {text : Str} {bytes : List UInt8}
    (hslash : '/' ∈ legacyBase64 text)
    (hbytes : P.decodeBase64 false (P.host (legacyLink text)) = some bytes) :
    ∃ k < (utf8Encode text).length, bytes = (utf8Encode text).take k := by
  rw [host_legacyLink, P.decodeBase64_standard _ fun c hc => mem_takeWhile hc] at hbytes
  have hcut : (legacyBase64 text).takeWhile (· ≠ '/') ≠ legacyBase64 text := by
    intro heq
    rw [List.takeWhile_eq_self_iff] at heq
    exact absurd (heq '/' hslash) (by decide)
  have hfewer : Base64.decode standardAlphabet ((legacyBase64 text).takeWhile (· ≠ '/')) = none
      ∨ ∃ k < (utf8Encode text).length,
        Base64.decode standardAlphabet ((legacyBase64 text).takeWhile (· ≠ '/'))
          = some ((utf8Encode text).take k) :=
    Base64.decode_of_cut length_standardAlphabet nodup_standardAlphabet
      (List.takeWhile_prefix _) hcut
  rcases hfewer with hnone | ⟨k, hk, hsome⟩
  · exact absurd (hnone.symm.trans hbytes) (by simp)
  · exact ⟨k, hk, Option.some.inj (hbytes.symm.trans hsome)⟩

/-- Fewer bytes are no text with the same password, host and port. -/
theorem string_cut_ne (hcolon : ':' ∉ e.method) {k : Nat} (hk : k < (utf8Encode e.text).length)
    {method port : Str} (hne : port ≠ []) (hdigits : ∀ c ∈ port, P.isDigit c = true)
    (hn : toIntOrNull (String.ofList port) = some e.remotePort) :
    P.string ((utf8Encode e.text).take k) ≠ legacyText method e.password e.host port := by
  intro hform
  rcases P.string_cut e.text _ (List.take_prefix k _) with ⟨t, ht⟩ | hlast
  · -- whole characters: a text that is shorter
    have hinit : t <+: e.text := isPrefix_of_utf8Encode (ht ▸ List.take_prefix k _)
    rw [ht, P.string_utf8] at hform
    have hle : e.text.length ≤ t.length := by
      rw [hform] at hinit ⊢
      exact length_legacyText_le hcolon hdigits hn hinit
    rw [hinit.eq_of_length_le hle] at ht
    have hlen := congrArg List.length ht
    rw [List.length_take] at hlen
    omega
  · rw [hform] at hlast
    exact getLast?_legacyText hne hdigits hlast

/-- So something else comes back or nothing does. -/
theorem not_decodedFrom_of_slash (h : e.Legacy P.toPlatform) (hslash : '/' ∈ legacyBase64 e.text) :
    ¬ e.DecodedFrom P.toPlatform feature (legacyLink e.text) := by
  rintro ⟨q, hfound, hq⟩
  rw [findAllUrls_legacyLink P feature e.text_ne_nil, Option.toList_eq_singleton_iff] at hfound
  obtain ⟨bytes, method, password, host, port, hbytes, -, hform, ⟨-, -, hne, hdigits⟩, hn, -, hpw,
    hhost⟩ := parseLegacy_eq_some hfound
  -- the fields of the profile are those of the text
  have hpassword : password = e.password := by
    rw [← hq, Profile.endpoint, hpw, String.toList_ofList]
  have hhost' : host = e.host := by
    rw [← hq, Profile.endpoint, hhost, String.toList_ofList]
  have hport : q.remotePort = e.remotePort := by
    rw [← hq, Profile.endpoint]
  subst hpassword hhost'
  rw [hport] at hn
  obtain ⟨k, hk, rfl⟩ := decodeBase64_of_slash hslash hbytes
  exact string_cut_ne h.separators.1 hk hne hdigits hn hform

end Decode

/-- The link of the newer kind decodes to the fields it was printed for. -/
theorem decodedFrom_toUri {P : Platform} {feature : Option Profile}
    {H : PluginOptions.HashOrder} {defaultConfig : Str → Option Str} {p : Profile} {link : Str}
    (h : Legible P p) (hlink : p.toUri P H defaultConfig = .ok link) :
    p.endpoint.DecodedFrom P feature link := by
  rw [toUri_eq] at hlink
  obtain ⟨o, -, rfl⟩ := map_eq_ok.mp hlink
  exact ⟨_, findAllUrls_linkText feature h _ _, rfl⟩

/-- A host of `java.net.URI` is found in the link. -/
theorem Legacy.legible {P : LegacyPlatform} {p : Profile} (h : p.endpoint.Legacy P.toPlatform)
    (hhost : P.isURIHost p.host.toList = true) : Legible P.toPlatform p where
  nonempty := fun hm => h.nonempty.1 (String.toList_eq_nil_iff.mpr hm)
  method c hc :=
    ⟨fun hcolon => h.separators.1 (hcolon ▸ hc), h.lines c (by simp [hc, Profile.endpoint])⟩
  password c hc := h.lines c (by simp [hc, Profile.endpoint])
  host := P.mem_isURIHost _ hhost
  remotePort := h.remotePort.1
  javaURI plugin name :=
    P.javaURI_isURIHost _ _ _ plugin name (mem_auth P.toPlatform p) hhost h.remotePort.1
      h.remotePort.2

/-! ## §7. A host that is none. -/

/-- The expression takes at least the user info and its `@`, whatever
follows. -/
theorem exists_head?_run_pattern {a : Str} {c : Char} (ha : ∀ x ∈ a, isInner x = true)
    (hc : isFinal c = true) (rest : Str) :
    ∃ v w, rest = v ++ w
      ∧ (Regex.run pattern ("ss://".toList ++ (a ++ c :: rest))).head? = some ([], w) := by
  -- the run of inner characters, up to the last final one
  obtain ⟨b, x, w, hsplit, hx, hw⟩ : ∃ b x w, c :: rest.takeWhile isInner = b ++ x :: w
      ∧ isFinal x = true ∧ ∀ y ∈ w, isFinal y = false := by
    have hne : (c :: rest.takeWhile isInner).rdropWhile (fun y => !isFinal y) ≠ [] := by
      intro hnil
      have hall := List.rdropWhile_eq_nil_iff.mp hnil c List.mem_cons_self
      exact absurd hc (by simpa using hall)
    obtain ⟨b, x, hbx⟩ := (List.eq_nil_or_concat _).resolve_left hne
    rw [List.concat_eq_append] at hbx
    refine ⟨b, x, (c :: rest.takeWhile isInner).rtakeWhile fun y => !isFinal y, ?_, ?_, ?_⟩
    · have hparts : c :: rest.takeWhile isInner
          = (b ++ [x]) ++ (c :: rest.takeWhile isInner).rtakeWhile fun y => !isFinal y := by
        rw [← hbx]
        exact List.rdropWhile_append_rtakeWhile.symm
      rwa [List.append_assoc] at hparts
    · have hlast := List.rdropWhile_last_not (fun y => !isFinal y) (c :: rest.takeWhile isInner) hne
      simpa [hbx] using hlast
    · intro y hy
      simpa using List.mem_rtakeWhile_imp hy
  have htext : c :: rest = b ++ x :: (w ++ rest.dropWhile isInner) := by
    rw [← List.cons_append, ← List.append_assoc, ← hsplit, List.cons_append,
      List.takeWhile_append_dropWhile]
  have hinner : ∀ y ∈ (a ++ b) ++ x :: w, isInner y = true := by
    intro y hy
    rw [List.append_assoc, ← hsplit, List.mem_append, List.mem_cons] at hy
    rcases hy with hy | rfl | hy
    · exact ha y hy
    · exact isInner_of_isFinal hc
    · exact List.mem_takeWhile_imp hy
  have hstop : ∀ y, (rest.dropWhile isInner).head? = some y → isInner y = false := by
    intro y hy
    have hnot := List.head?_dropWhile_not isInner rest
    rw [hy] at hnot
    simpa using hnot
  have hrun := head?_run_pattern hinner hx hw hstop
  rw [List.append_assoc, ← htext] at hrun
  -- the first character of what is taken is `c`
  cases b with
  | nil =>
      obtain ⟨rfl, hrest⟩ := List.cons.inj htext
      exact ⟨[], _, hrest, hrun⟩
  | cons y b =>
      obtain ⟨rfl, hrest⟩ := List.cons.inj htext
      refine ⟨b ++ [x], _, ?_, hrun⟩
      rwa [List.append_assoc]

/-- What stands before the last `@` of the authority is the user info. -/
theorem encodedUserInfo_of_at {auth v : Str} (hauth : ∀ c ∈ auth, isBase64 c = true)
    (hat : '@' ∉ v) :
    Uri.encodedUserInfo ("ss://".toList ++ (auth ++ '@' :: v)) = some auth := by
  have hplain : ∀ c ∈ auth ++ ['@'],
      (c ≠ '/' && c ≠ '\\' && c ≠ '?' && c ≠ '#') = true := by
    intro c hc
    rcases List.mem_append.mp hc with hc | hc
    · have hb := hauth c hc
      have hne : ∀ d, isBase64 d = false → c ≠ d := fun d hd hcd =>
        absurd ((hcd ▸ hb).symm.trans hd) (by decide)
      simp [hne '/' (by decide), hne '\\' (by decide), hne '?' (by decide), hne '#' (by decide)]
    · rw [List.mem_singleton.mp hc]
      decide
  have hauthority : Uri.encodedAuthority ("ss://".toList ++ (auth ++ '@' :: v))
      = some (auth ++ '@' :: v.takeWhile fun c => c ≠ '/' && c ≠ '\\' && c ≠ '?' && c ≠ '#') := by
    show some ((auth ++ '@' :: v).takeWhile fun c => c ≠ '/' && c ≠ '\\' && c ≠ '?' && c ≠ '#') = _
    rw [← List.singleton_append, ← List.append_assoc, List.takeWhile_append_of_pos hplain,
      List.append_assoc]
    rfl
  unfold Uri.encodedUserInfo
  rw [hauthority]
  dsimp only
  have hbefore : ∀ c ∈ (v.takeWhile fun c => c ≠ '/' && c ≠ '\\' && c ≠ '?' && c ≠ '#').reverse,
      decide (c ≠ '@') = true := by
    intro c hc
    have hv := (List.takeWhile_prefix _).subset (List.mem_reverse.mp hc)
    exact decide_eq_true fun h => hat (h ▸ hv)
  rw [List.reverse_append, List.reverse_cons, List.append_assoc, List.singleton_append,
    dropWhile_append_stop hbefore (head_stop (by decide))]
  show some auth.reverse.reverse = some auth
  rw [List.reverse_reverse]

theorem length_encodedHost_le (uri : Str) : (Uri.encodedHost uri).length ≤ uri.length := by
  have hauthority : ((Uri.encodedAuthority uri).getD []).length ≤ uri.length := by
    unfold Uri.encodedAuthority
    split
    next rest hrest =>
      have hle := (List.dropWhile_suffix (· ≠ ':') (l := uri)).length_le
      have htake := (List.takeWhile_prefix (l := rest)
        fun c => c ≠ '/' && c ≠ '\\' && c ≠ '?' && c ≠ '#').length_le
      rw [hrest] at hle
      simp only [List.length_cons] at hle
      rw [Option.getD_some]
      omega
    next => exact Nat.zero_le _
  have hat := (List.takeWhile_prefix (l := ((Uri.encodedAuthority uri).getD []).reverse)
    (· ≠ '@')).length_le
  rw [List.length_reverse] at hat
  unfold Uri.encodedHost
  dsimp only
  split
  next host hhost =>
    have hdrop := (List.dropWhile_suffix Char.isDigit (l := (((Uri.encodedAuthority uri).getD
      []).reverse.takeWhile (· ≠ '@')).reverse.reverse)).length_le
    rw [hhost, List.length_cons, List.length_reverse, List.length_reverse] at hdrop
    rw [List.length_reverse]
    omega
  next =>
    rw [List.length_reverse]
    omega

section Hosts

variable {P : LegacyPlatform} {feature : Option Profile} {e : Endpoint} {q : Profile} {uri : Str}

/-- A profile with a host that was read behind a user info. -/
theorem isURIHost_of_parseUserInfo {userInfo : Str} (hhost : e.host ≠ [])
    (h : parseUserInfo P.toPlatform feature uri userInfo = some q) (hq : q.endpoint = e) :
    P.isURIHost e.host = true := by
  obtain ⟨-, -, -, host, port, -, -, -, huri, -, hh, -⟩ := parseUserInfo_eq_some h
  have hread : e.host = unwrapHost (host.getD []) := by
    rw [← hq, Profile.endpoint, hh, String.toList_ofList]
  cases host with
  -- `javaURI.host ?: ""`
  | none => exact absurd hread hhost
  | some host => exact hread ▸ P.isURIHost_javaURI _ _ _ huri

/-- A text of the older kind is longer than the host and the port in it. -/
theorem length_of_parseLegacy (h : parseLegacy P.toPlatform feature uri = some q)
    (hq : q.endpoint = e) :
    e.host.length + (toString e.remotePort).toList.length + 4 ≤ uri.length := by
  obtain ⟨bytes, method, password, host, port, hbytes, -, hform, ⟨hmethod, -, -, hdigits⟩, hn, -, -,
    hh⟩ := parseLegacy_eq_some h
  have hhost : host = e.host := by
    rw [← hq, Profile.endpoint, hh, String.toList_ofList]
  have hport : q.remotePort = e.remotePort := by
    rw [← hq, Profile.endpoint]
  rw [hport] at hn
  have hport_le := length_port_le hdigits hn
  have hmethod_pos := List.length_pos_iff.mpr hmethod
  -- each decoder makes its text shorter, if anything
  have hhost_le := P.length_decode (Uri.encodedHost uri)
  have hencoded_le := length_encodedHost_le uri
  have hbytes_le : bytes.length ≤ (P.decode false (Uri.encodedHost uri)).length :=
    P.length_decodeBase64 _ _ hbytes
  have hstring_le := P.length_string bytes
  have hlength := congrArg List.length hform
  simp only [legacyText, List.length_append, List.length_cons] at hlength
  rw [hhost] at hlength
  omega

theorem at_not_mem_wrappedHost {host : Str} (h : '@' ∉ host) : '@' ∉ wrappedHost host := by
  unfold wrappedHost
  split
  · simp [h]
  · exact h

theorem length_wrappedHost_le (host : Str) : (wrappedHost host).length ≤ host.length + 2 := by
  unfold wrappedHost
  split
  · simp
  · omega

/-- The profile with the four fields and nothing else. -/
def toProfile (e : Endpoint) : Profile :=
  { method := String.ofList e.method
    password := String.ofList e.password
    host := String.ofList e.host
    remotePort := e.remotePort
    name := none
    plugin := none }

theorem endpoint_toProfile (e : Endpoint) : e.toProfile.endpoint = e := by
  simp [toProfile, Profile.endpoint]

/-- Its link. -/
theorem toUri_toProfile (P : Platform) (H : PluginOptions.HashOrder)
    (defaultConfig : Str → Option Str) (e : Endpoint) :
    e.toProfile.toUri P H defaultConfig
      = .ok ("ss://".toList ++ (P.auth e.toProfile ++ '@' ::
          (wrappedHost e.host ++ ':' :: (toString e.remotePort).toList))) := by
  have hhost : e.toProfile.host.toList = e.host := String.toList_ofList
  have hlink : e.toProfile.toUri P H defaultConfig
      = .ok (linkText (P.auth e.toProfile) e.toProfile.host.toList e.remotePort none none) := by
    rw [toUri_eq]
    rfl
  rw [hlink, hhost, linkText_eq, linkAuthority_eq]
  show Except.ok (_ ++ (_ ++ [])) = _
  rw [List.append_nil]

/-- **What the link of the newer kind gives back has a host of
`java.net.URI`.**  A match in the rest of the link, behind what the first
one took, could be of the older kind, but is too short for it. -/
theorem isURIHost_of_decoded (h : e.Legacy P.toPlatform)
    (hdecoded : e.DecodedFrom P.toPlatform feature ("ss://".toList
      ++ (P.auth e.toProfile ++ '@' ::
        (wrappedHost e.host ++ ':' :: (toString e.remotePort).toList)))) :
    P.isURIHost e.host = true := by
  obtain ⟨q, hfound, hq⟩ := hdecoded
  have hauth := mem_auth P.toPlatform e.toProfile
  have hinner : ∀ c ∈ P.auth e.toProfile, isInner c = true := by
    intro c hc
    exact isInner_of_isUnreserved (isUnreserved_of_isBase64 (hauth c hc)) |>.1
  obtain ⟨v, w, hrest, hhead⟩ := exists_head?_run_pattern hinner (c := '@') (by decide)
    (wrappedHost e.host ++ ':' :: (toString e.remotePort).toList)
  have hat : '@' ∉ v := by
    intro hv
    have hmem := hrest ▸ List.mem_append_left w hv
    rcases List.mem_append.mp hmem with hmem | hmem
    · exact at_not_mem_wrappedHost h.separators.2 hmem
    · rcases List.mem_cons.mp hmem with hmem | hmem
      · exact absurd hmem (by decide)
      · exact absurd (isDigit_of_mem_port h.remotePort.1 _ hmem) (by decide)
  have hw : w.length ≤ e.host.length + (toString e.remotePort).toList.length + 3 := by
    have hlength := congrArg List.length hrest
    have hwrapped := length_wrappedHost_le e.host
    simp only [List.length_append, List.length_cons] at hlength
    omega
  have htext : "ss://".toList ++ (P.auth e.toProfile ++ '@' ::
      (wrappedHost e.host ++ ':' :: (toString e.remotePort).toList))
        = ("ss://".toList ++ (P.auth e.toProfile ++ '@' :: v)) ++ w := by
    rw [hrest]
    simp
  rw [htext] at hhead hfound
  have hmem : q ∈ findAllUrls P.toPlatform feature
      (("ss://".toList ++ (P.auth e.toProfile ++ '@' :: v)) ++ w) := hfound ▸ List.mem_cons_self
  rw [findAllUrls, Regex.findAll_of_head (by simp) hhead] at hmem
  obtain ⟨uri, huri, hparse⟩ := List.mem_filterMap.mp hmem
  have hlegacy : Uri.encodedUserInfo uri = none → uri.length ≤ w.length := by
    intro hnone
    rcases List.mem_cons.mp huri with rfl | huri
    · exact absurd ((encodedUserInfo_of_at hauth hat).symm.trans hnone) (by simp)
    · exact Regex.length_le_of_mem_findAll huri
  unfold parseUrl at hparse
  cases hinfo : P.userInfo uri with
  | some userInfo =>
      rw [hinfo] at hparse
      exact isURIHost_of_parseUserInfo h.nonempty.2 hparse hq
  | none =>
      rw [hinfo] at hparse
      have hlong := length_of_parseLegacy hparse hq
      have hshort := hlegacy (Option.map_eq_none_iff.mp hinfo)
      omega

end Hosts

/-- **Links of the older kind decode like new ones**: the link gives the
four fields, and so does every link that `toUri` prints for a profile with
them. -/
structure DecodesLikeNew (P : Platform) (feature : Option Profile) (e : Endpoint) : Prop where
  legacy : e.DecodedFrom P feature (legacyLink e.text)
  toUri : ∀ (H : PluginOptions.HashOrder) (defaultConfig : Str → Option Str) (p : Profile)
    (link : Str), p.endpoint = e → p.toUri P H defaultConfig = .ok link →
      e.DecodedFrom P feature link

/-- **A LINK OF THE OLDER KIND DECODES TO ITS FOUR FIELDS, AS THE ONE OF THE
NEWER KIND DOES, EXACTLY IF THERE IS NO SLASH IN IT AND THE HOST IS ONE TO
`java.net.URI`.** -/
theorem legacy_link_iff (P : LegacyPlatform) (feature : Option Profile) (e : Endpoint)
    (h : e.Legacy P.toPlatform) :
    e.DecodesLikeNew P.toPlatform feature
      ↔ '/' ∉ legacyBase64 e.text ∧ P.isURIHost e.host = true := by
  constructor
  · intro hdecodes
    refine ⟨fun hslash => not_decodedFrom_of_slash h hslash hdecodes.legacy, ?_⟩
    exact isURIHost_of_decoded h (hdecodes.toUri PluginConfiguration.insertionOrder (fun _ => none)
      e.toProfile _ (endpoint_toProfile e) (toUri_toProfile _ _ _ e))
  · rintro ⟨hslash, hhost⟩
    refine ⟨decodedFrom_of_no_slash h hslash, ?_⟩
    rintro H defaultConfig p link rfl hlink
    exact decodedFrom_toUri (h.legible hhost) hlink

end Endpoint

/-- A platform that has these laws too. -/
def Reference.legacyPlatform : LegacyPlatform where
  toPlatform := Reference.platform
  decode_plain _ h := Percent.decode_of_not_mem h
  length_decode := Percent.length_decode_le
  decodeBase64_standard _ _ := rfl
  length_decodeBase64 _ _ h := Base64.length_decode_le _ h
  string_cut _ bytes _ := by
    refine (Percent.utf8Decode_cases bytes).imp_right fun h => ?_
    show (Percent.utf8Decode bytes).getLast? = _
    rw [h]
    rfl
  length_string bytes := by
    show (Percent.utf8Decode bytes).length ≤ bytes.length
    have hleads : Percent.leads bytes ≤ bytes.length := List.countP_le_length
    rcases Percent.length_utf8Decode_le bytes with h | ⟨hne, h⟩
    · omega
    · have hpos := List.length_pos_iff.mpr hne
      omega
  lowercase_ne_nil s h := by simpa [Reference.platform] using h
  isDigit_ascii := Reference.isDigit_ascii
  isDigit_replacement := by decide
  isURIHost := Host.isHost
  mem_isURIHost _ h := mem_host h
  isURIHost_javaURI _ _ _ h := Reference.isHost_of_javaURI h
  javaURI_isURIHost := Reference.javaURI_linkText

namespace Endpoint

/-- A link with a `+` and an `@` in the password: `ss://bTo+QEBhOjgw`. -/
theorem legacy_link_plus :
    Legacy Reference.platform ⟨['m'], ['>', '@'], ['a'], 80⟩
      ∧ DecodesLikeNew Reference.platform none ⟨['m'], ['>', '@'], ['a'], 80⟩ := by
  have h : Legacy Reference.platform ⟨['m'], ['>', '@'], ['a'], 80⟩ := by decide +kernel
  exact ⟨h, (legacy_link_iff Reference.legacyPlatform none _ h).mpr (by decide +kernel)⟩

/-- **`ss://bTo/QGg6ODA`**, of `m:?@h:80`, gives no profile at all. -/
theorem legacy_link_slash :
    Legacy Reference.platform ⟨['m'], ['?'], ['h'], 80⟩
      ∧ legacyLink (text ⟨['m'], ['?'], ['h'], 80⟩) = "ss://bTo/QGg6ODA".toList
      ∧ findAllUrls Reference.platform none (legacyLink (text ⟨['m'], ['?'], ['h'], 80⟩)) = []
      ∧ ¬ DecodesLikeNew Reference.platform none ⟨['m'], ['?'], ['h'], 80⟩ := by
  have hnone : findAllUrls Reference.platform none
      (legacyLink (text ⟨['m'], ['?'], ['h'], 80⟩)) = [] := by
    decide +kernel
  refine ⟨by decide +kernel, by decide +kernel, hnone, ?_⟩
  rintro ⟨⟨q, hq, -⟩, -⟩
  rw [hnone] at hq
  exact absurd hq (by simp)

end Endpoint

end FoxVpn.Database
