/-
  FoxVpn.Bg.VpnBuilder
  ────────────────────
  **WHOSE PACKETS GO INTO THE TUNNEL.**

  `startVpn` gives the builder an address, a DNS server, a filter of apps and
  a list of routes; a packet enters the tunnel if its app passes the filter
  AND its destination has a route.  The filter comes from the profile's text
  `individual`, one package name a line:

      bypass       the listed apps are disallowed
      otherwise    the listed apps are allowed, and this app itself

  `android.net.VpnService.Builder` is a PARAMETER (`structure Builder`): the
  results use what is documented of its methods.  An address is refused that
  is no numeric address, a loopback or wildcard one, or a route with bits
  behind its prefix; a package that is not installed is not found; allowed
  and disallowed apps exclude each other.

  Main result `enters_tunnel_iff`: for every profile and every set of
  installed packages the builder throws nothing that is not caught, and the
  packets that enter are exactly those of the chosen apps, and of this app in
  EVERY mode, to the routed addresses; the queries these apps send to the
  VPN's own DNS server are always among them, also where the network it lies
  in is bypassed.
-/
import FoxVpn.Bg.VpnRoutes

namespace FoxVpn.Bg

open FoxVpn.Lib FoxVpn.Net FoxVpn.Database

/-! ## §1. The builder. -/

/-- The apps a VPN is for; a list that was never added to is `none`. -/
structure AppFilter where
  allowed : Option (List String) := none
  disallowed : Option (List String) := none
  deriving Repr, DecidableEq

/-- The exceptions of the builder's methods, and of `!!`. -/
inductive BuilderFault where
  | nameNotFound
  | unsupportedOperation
  | illegalArgument
  | nullPointer
  deriving Repr, DecidableEq

namespace AppFilter

/-- What is documented of `Builder.addAllowedApplication`. -/
def addAllowed (installed : List String) (f : AppFilter) (packageName : String) :
    Except BuilderFault AppFilter :=
  if f.disallowed.isSome then .error .unsupportedOperation
  else if packageName ∈ installed then
    .ok { f with allowed := some (f.allowed.getD [] ++ [packageName]) }
  else .error .nameNotFound

/-- What is documented of `Builder.addDisallowedApplication`. -/
def addDisallowed (installed : List String) (f : AppFilter) (packageName : String) :
    Except BuilderFault AppFilter :=
  if f.allowed.isSome then .error .unsupportedOperation
  else if packageName ∈ installed then
    .ok { f with disallowed := some (f.disallowed.getD [] ++ [packageName]) }
  else .error .nameNotFound

/-- The apps a VPN with this filter is for. -/
def Passes (f : AppFilter) (packageName : String) : Prop :=
  (∀ l, f.allowed = some l → packageName ∈ l) ∧ ∀ l, f.disallowed = some l → packageName ∉ l

end AppFilter

/-- The interface as far as it decides which packets enter it. -/
structure TunInterface (α : Type) [InetAddress α] where
  apps : AppFilter := {}
  routes : List (Subnet α) := []

/-- An address of the interface or of a DNS server: neither a loopback nor a
wildcard address. -/
def isHost (address : List UInt8) : Bool :=
  !isLoopback address && address.any (· ≠ 0)

/-- **`android.net.VpnService.Builder`**, on a device with these packages, no
two of which share a user id. -/
structure Builder (α B : Type) [InetAddress α] (installed : List String) where
  new : B
  setMtu : B → Int → Except BuilderFault B
  addAddress : B → Text → Nat → Except BuilderFault B
  addDnsServer : B → Text → Except BuilderFault B
  addRoute : B → Text → Nat → Except BuilderFault B
  addAllowedApplication : B → String → Except BuilderFault B
  addDisallowedApplication : B → String → Except BuilderFault B
  /-- What has been asked for so far. -/
  interface : B → TunInterface α
  /-- Once `establish` has returned, a packet of an app to an address, sent
  through a socket that is not protected, goes into the interface. -/
  takes : B → String → List UInt8 → Prop
  interface_new : interface new = {}
  setMtu_ok : ∀ b mtu, 0 < mtu → ∃ b', setMtu b mtu = .ok b' ∧ interface b' = interface b
  addAddress_ok : ∀ b address (addr : α) n,
    InetAddress.parseNumericAddress address = some addr →
    n ≤ 8 * (InetAddress.address addr).length → isHost (InetAddress.address addr) = true →
    ∃ b', addAddress b address n = .ok b' ∧ interface b' = interface b
  addDnsServer_ok : ∀ b address (addr : α), InetAddress.parseNumericAddress address = some addr →
    isHost (InetAddress.address addr) = true →
    ∃ b', addDnsServer b address = .ok b' ∧ interface b' = interface b
  addRoute_ok : ∀ b address n routes, Bg.addRoute (interface b).routes address n = some routes →
    ∃ b', addRoute b address n = .ok b' ∧ interface b' = { interface b with routes := routes }
  addAllowed_eq : ∀ b p, (addAllowedApplication b p).map interface
    = ((interface b).apps.addAllowed installed p).map fun f => { interface b with apps := f }
  addDisallowed_eq : ∀ b p, (addDisallowedApplication b p).map interface
    = ((interface b).apps.addDisallowed installed p).map fun f => { interface b with apps := f }
  /-- An app the VPN is not for, and an address without a route, stay outside. -/
  takes_iff : ∀ b p destination, takes b p destination
    ↔ (interface b).apps.Passes p ∧ ∃ r ∈ (interface b).routes, r.Covers destination

/-! ## §2. `startVpn`. -/

def VPN_MTU : Int := 1500
def PRIVATE_VLAN4_CLIENT : Quad := ⟨172, 19, 0, 1⟩
def PRIVATE_VLAN6_CLIENT : Text := text "fdfe:dcba:9876::1"

/-- `profile.individual.split('\n')`. -/
def individualLines (profile : Profile) : List String :=
  (profile.individual.toList.splitOn '\n').map String.ofList

namespace Builder

section Start

variable {α B : Type} [InetAddress α] {installed : List String} (bd : Builder α B installed)

/-- The round of the loop for one line: a name that is not found is logged,
any other exception goes on. -/
def addLine (bypass : Bool) (b : B) (line : String) : Except BuilderFault B :=
  match if bypass then bd.addDisallowedApplication b line else bd.addAllowedApplication b line with
  | .error .nameNotFound => .ok b
  | r => r

/-- The round for one item of `bypass_private_route`. -/
def addItem (b : B) (it : Text) : Except BuilderFault B :=
  match (Subnet.fromString it : Option (Subnet α)) with
  | none => .error .nullPointer
  | some subnet => bd.addRoute b (InetAddress.hostAddress subnet.address) subnet.prefixSize

/-- The addresses. -/
def addAddresses (profile : Profile) : Except BuilderFault B := do
  let b ← bd.setMtu bd.new VPN_MTU
  let b ← bd.addAddress b PRIVATE_VLAN4_CLIENT.dotted 30
  let b ← bd.addDnsServer b PRIVATE_VLAN4_ROUTER.dotted
  if profile.ipv6 then bd.addAddress b PRIVATE_VLAN6_CLIENT 126 else pure b

/-- The apps; `me` is `packageName`. -/
def addApps (me : String) (profile : Profile) (b : B) : Except BuilderFault B :=
  if profile.proxyApps then do
    let b ← ((individualLines profile).filter (· ≠ me)).foldlM (bd.addLine profile.bypass) b
    if profile.bypass then pure b else bd.addAllowedApplication b me
  else pure b

/-- The routes. -/
def addRoutes (profile : Profile) (b : B) : Except BuilderFault B :=
  if profile.route = Acl.ALL ∨ profile.route = Acl.BYPASS_CHN
      ∨ profile.route = Acl.CUSTOM_RULES then do
    let b ← bd.addRoute b (text "0.0.0.0") 0
    if profile.ipv6 then bd.addRoute b (text "::") 0 else pure b
  else do
    let b ← (bypassPrivateRoute.map Prefix4.toText).foldlM bd.addItem b
    let b ← bd.addRoute b PRIVATE_VLAN4_ROUTER.dotted 32
    if profile.ipv6 then bd.addRoute b (text "2000::") 3 else pure b

/-- `startVpn` up to `establish`. -/
def startVpn (me : String) (profile : Profile) : Except BuilderFault B := do
  let b ← bd.addAddresses profile
  let b ← bd.addApps me profile b
  bd.addRoutes profile b

end Start

end Builder

/-! ## §3. The apps. -/

/-- The names of a list, if there are any. -/
def someNames (l : List String) : Option (List String) := if l = [] then none else some l

theorem getD_someNames (l : List String) : (someNames l).getD [] = l := by
  unfold someNames
  split
  next h => exact h.symm
  next => rfl

theorem someNames_concat (l : List String) (x : String) : someNames (l ++ [x]) = some (l ++ [x]) :=
  if_neg (by simp)

/-- The filter after the lines whose names were found. -/
def filterOf (bypass : Bool) (found : List String) : AppFilter :=
  if bypass then { disallowed := someNames found } else { allowed := someNames found }

/-- **One name**: an installed package is appended, any other not found. -/
theorem add_filterOf (installed : List String) (bypass : Bool) (found : List String)
    (line : String) :
    (if bypass then (filterOf bypass found).addDisallowed installed line
      else (filterOf bypass found).addAllowed installed line)
      = if line ∈ installed then .ok (filterOf bypass (found ++ [line]))
        else .error .nameNotFound := by
  cases bypass with
  | true =>
      simp only [filterOf, AppFilter.addDisallowed, getD_someNames, someNames_concat, if_true,
        Option.isSome_none, Bool.false_eq_true, if_false]
  | false =>
      simp only [filterOf, AppFilter.addAllowed, getD_someNames, someNames_concat,
        Option.isSome_none, Bool.false_eq_true, if_false]

section Apps

variable {α B : Type} [InetAddress α] {installed : List String} (bd : Builder α B installed)

namespace Builder

/-- **One line**, as the builder sees it. -/
theorem addLine_filterOf {bypass : Bool} {found : List String} {b : B}
    (h : (bd.interface b).apps = filterOf bypass found) (line : String) :
    ∃ b', bd.addLine bypass b line = .ok b'
      ∧ bd.interface b' = { bd.interface b with
          apps := filterOf bypass (found ++ [line].filter (· ∈ installed)) } := by
  -- either method has the outcome of its own name
  have hadd : (if bypass then bd.addDisallowedApplication b line
      else bd.addAllowedApplication b line).map bd.interface
      = (if line ∈ installed then .ok (filterOf bypass (found ++ [line]))
        else .error .nameNotFound : Except BuilderFault AppFilter).map
          fun f => { bd.interface b with apps := f } := by
    rw [← add_filterOf, ← h]
    cases bypass with
    | true => exact bd.addDisallowed_eq b line
    | false => exact bd.addAllowed_eq b line
  unfold addLine
  by_cases hline : line ∈ installed
  · rw [if_pos hline] at hadd
    obtain ⟨b', hb', hinterface⟩ := map_eq_ok.mp hadd
    refine ⟨b', ?_, ?_⟩
    · rw [hb']
    · rw [hinterface]
      simp [hline]
  · rw [if_neg hline] at hadd
    have herror : (if bypass then bd.addDisallowedApplication b line
        else bd.addAllowedApplication b line) = .error .nameNotFound := map_eq_error.mp hadd
    refine ⟨b, ?_, ?_⟩
    · rw [herror]
    · rw [List.filter_singleton]
      simp [hline, ← h]

/-- **All lines**, whatever the text. -/
theorem foldlM_addLine {bypass : Bool} (lines : List String) : ∀ {found : List String} {b : B},
    (bd.interface b).apps = filterOf bypass found →
      ∃ b', lines.foldlM (bd.addLine bypass) b = .ok b'
        ∧ bd.interface b' = { bd.interface b with
            apps := filterOf bypass (found ++ lines.filter (· ∈ installed)) } := by
  induction lines with
  | nil =>
      intro found b h
      refine ⟨b, rfl, ?_⟩
      rw [List.filter_nil, List.append_nil, ← h]
  | cons line lines ih =>
      intro found b h
      obtain ⟨b₁, hb₁, h₁⟩ := bd.addLine_filterOf h line
      obtain ⟨b₂, hb₂, h₂⟩ := ih (congrArg TunInterface.apps h₁)
      refine ⟨b₂, (foldlM_cons_ok hb₁ lines).trans hb₂, ?_⟩
      rw [h₂, h₁, List.append_assoc, ← List.filter_append]
      rfl

end Builder

/-- The filter of a profile: the found lines, and this app where the lines
are a list of those allowed. -/
def appsOf (installed : List String) (me : String) (profile : Profile) : AppFilter :=
  let found := ((individualLines profile).filter (· ≠ me)).filter (· ∈ installed)
  if profile.proxyApps then
    if profile.bypass then filterOf true found else { allowed := some (found ++ [me]) }
  else {}

theorem Builder.addApps_ok {me : String} (hme : me ∈ installed) (profile : Profile) {b : B}
    (h : bd.interface b = {}) :
    ∃ b', bd.addApps me profile b = .ok b'
      ∧ bd.interface b' = { apps := appsOf installed me profile } := by
  unfold Builder.addApps appsOf
  cases profile.proxyApps with
  | false => exact ⟨b, rfl, h⟩
  | true =>
      have hinit : (bd.interface b).apps = filterOf profile.bypass [] := by
        rw [h]
        cases profile.bypass <;> rfl
      obtain ⟨b₁, hb₁, h₁⟩ :=
        bd.foldlM_addLine ((individualLines profile).filter (· ≠ me)) hinit
      rw [h, List.nil_append] at h₁
      rw [if_pos rfl, hb₁]
      cases hbypass : profile.bypass with
      | true =>
          rw [hbypass] at h₁
          exact ⟨b₁, rfl, h₁⟩
      | false =>
          rw [hbypass] at h₁
          -- this app is installed, and only allowed apps have been named
          have hadd := bd.addAllowed_eq b₁ me
          have hmine := add_filterOf installed false
            (((individualLines profile).filter (· ≠ me)).filter (· ∈ installed)) me
          rw [if_neg Bool.false_ne_true, if_pos hme] at hmine
          rw [h₁, hmine] at hadd
          obtain ⟨b₂, hb₂, h₂⟩ := map_eq_ok.mp hadd
          refine ⟨b₂, hb₂, ?_⟩
          rw [h₂]
          simp only [filterOf, someNames_concat, Bool.false_eq_true, if_false, if_true]

end Apps

theorem passes_disallowed (found : List String) (packageName : String) :
    (filterOf true found).Passes packageName ↔ packageName ∉ found := by
  unfold AppFilter.Passes filterOf someNames
  by_cases hnil : found = []
  · simp [hnil]
  · simp [hnil]

/-- **Who is chosen**: with no choice of apps everybody; this app always;
another app if it is listed, or, where the list is one of those to bypass, if
it is not. -/
def Chosen (profile : Profile) (me packageName : String) : Prop :=
  profile.proxyApps = true → packageName ≠ me →
    (packageName ∈ individualLines profile ↔ profile.bypass = false)

theorem passes_iff (installed : List String) (me : String) (profile : Profile) :
    ∀ p ∈ installed, (appsOf installed me profile).Passes p ↔ Chosen profile me p := by
  intro p hp
  unfold Chosen appsOf
  cases profile.proxyApps with
  | false => simp [AppFilter.Passes]
  | true =>
      cases profile.bypass with
      | true =>
          rw [if_pos rfl, if_pos rfl, passes_disallowed]
          simp only [List.mem_filter, decide_eq_true_eq]
          tauto
      | false =>
          simp only [AppFilter.Passes, if_true, Bool.false_eq_true, if_false]
          simp only [Option.some.injEq, forall_eq', List.mem_append, List.mem_filter,
            decide_eq_true_eq, List.mem_singleton]
          tauto

/-! ## §4. The routes of every mode. -/

/-- The modes that route everything. -/
def RoutesAll (profile : Profile) : Prop :=
  profile.route = Acl.ALL ∨ profile.route = Acl.BYPASS_CHN ∨ profile.route = Acl.CUSTOM_RULES

/-- **What is routed** of IPv4: everything, or the resource and the DNS
server. -/
def Routed (profile : Profile) (q : Quad) : Prop :=
  RoutesAll profile ∨ Listed bypassPrivateRoute q ∨ q = PRIVATE_VLAN4_ROUTER

theorem listed_default (q : Quad) : Listed [Prefix4.item 0 0 0 0 0] q := by
  have hall : (Prefix4.item 0 0 0 0 0).interval = (0, 4294967296) := by decide
  have ha := q.a.toNat_lt
  have hb := q.b.toNat_lt
  have hc := q.c.toNat_lt
  have hd := q.d.toNat_lt
  refine ⟨_, List.mem_singleton.mpr rfl, ?_⟩
  rw [hall, value_bytes]
  show 0 ≤ _ ∧ _ < 4294967296
  omega

/-- The route of the DNS server is that of one address. -/
theorem listed_router_iff (q : Quad) :
    Listed [Prefix4.item 172 19 0 2 32] q ↔ q = PRIVATE_VLAN4_ROUTER := by
  have hrouter : (Prefix4.item 172 19 0 2 32).interval = (2886926338, 2886926339) := by decide
  have ha := q.a.toNat_lt
  have hb := q.b.toNat_lt
  have hc := q.c.toNat_lt
  have hd := q.d.toNat_lt
  rw [Listed, List.exists_mem_cons_iff, hrouter, value_bytes]
  obtain ⟨a, b, c, d⟩ := q
  simp only [Bits.Within, PRIVATE_VLAN4_ROUTER, Quad.mk.injEq, List.not_mem_nil, false_and,
    exists_false, or_false, ← UInt8.toNat_inj]
  show _ ↔ _ = 172 ∧ _ = 19 ∧ _ = 0 ∧ _ = 2
  simp only at ha hb hc hd
  omega

theorem listed_append_iff (ps qs : List Prefix4) (q : Quad) :
    Listed (ps ++ qs) q ↔ Listed ps q ∨ Listed qs q := by
  unfold Listed
  simp only [List.mem_append, or_and_right, exists_or]

section Numeric

variable {α : Type} [NumericAddress α]

open NumericAddress

/-- The numeric form of the IPv6 address with no bit set, and of the
interface's own. -/
structure ParsesIPv6 (α : Type) [InetAddress α] : Prop where
  unspecified : ((InetAddress.parseNumericAddress (text "::") : Option α).map InetAddress.address)
    = some (List.replicate 16 0)
  client : ((InetAddress.parseNumericAddress PRIVATE_VLAN6_CLIENT : Option α).map
      InetAddress.address)
    = some ([0xfd, 0xfe, 0xdc, 0xba, 0x98, 0x76] ++ List.replicate 9 0 ++ [1])

/-- The routes of a mode that routes everything. -/
theorem startVpnRoutes_all (profile : Profile) (h : RoutesAll profile)
    (h6 : profile.ipv6 = true → ParsesIPv6 α) :
    ∃ routes6 : List (Subnet α),
      startVpnRoutes profile = some ([Prefix4.item 0 0 0 0 0].map Prefix4.subnet ++ routes6)
        ∧ ∀ r ∈ routes6, (InetAddress.address r.address).length = 16 := by
  have hisRoute : isRoute (Prefix4.item 0 0 0 0 0).quad.bytes 0 = true := by decide
  have hdefault := addRoute_dotted ([] : List (Subnet α)) hisRoute
  have htext : text "0.0.0.0" = (Prefix4.item 0 0 0 0 0).quad.dotted := by decide
  unfold RoutesAll at h
  unfold startVpnRoutes
  rw [if_pos h, htext, show addRoute _ _ 0 = _ from hdefault]
  cases hipv6 : profile.ipv6 with
  | false => exact ⟨[], rfl, by simp⟩
  | true =>
      obtain ⟨addr, hparse, haddr⟩ := Option.map_eq_some_iff.mp (h6 hipv6).unspecified
      have hlen : (InetAddress.address addr).length = 16 := by rw [haddr]; rfl
      have hroute : isRoute (InetAddress.address addr) 0 = true := by rw [haddr]; decide
      refine ⟨[⟨addr, 0, by omega⟩], ?_, ?_⟩
      · show addRoute _ (text "::") 0 = _
        rw [addRoute_eq_some hparse (by omega) hroute]
        rfl
      · intro r hr
        rw [List.mem_singleton.mp hr]
        exact hlen

/-- The other modes differ in what ss-local is told, not in the routes. -/
theorem startVpnRoutes_other (profile : Profile) (h : ¬ RoutesAll profile) :
    (startVpnRoutes profile : Option (List (Subnet α)))
      = startVpnRoutes { profile with route := Acl.BYPASS_LAN } := by
  have hlan : ¬ RoutesAll { profile with route := Acl.BYPASS_LAN } := by
    show ¬ (Acl.BYPASS_LAN = Acl.ALL ∨ Acl.BYPASS_LAN = Acl.BYPASS_CHN
      ∨ Acl.BYPASS_LAN = Acl.CUSTOM_RULES)
    decide
  unfold RoutesAll at h hlan
  unfold startVpnRoutes
  rw [if_neg h, if_neg hlan]

theorem routed_iff (profile : Profile) (h6 : profile.ipv6 = true → ParsesIPv6 α) :
    ∃ routes : List (Subnet α), startVpnRoutes profile = some routes
      ∧ ∀ q : Quad, (∃ r ∈ routes, r.Covers q.bytes) ↔ Routed profile q := by
  by_cases hall : RoutesAll profile
  · obtain ⟨routes6, hroutes, hsix⟩ := startVpnRoutes_all profile hall h6
    refine ⟨_, hroutes, fun q => ?_⟩
    rw [exists_route_iff hsix]
    exact iff_of_true (listed_default q) (.inl hall)
  · obtain ⟨routes6, hroutes, hsix⟩ := startVpnRoutes_bypassLan (α := α)
      { profile with route := Acl.BYPASS_LAN } rfl
    refine ⟨_, (startVpnRoutes_other profile hall).trans hroutes, fun q => ?_⟩
    rw [exists_route_iff hsix, listed_append_iff, listed_router_iff]
    exact (or_iff_right hall).symm

/-! ## §5. The tunnel. -/

namespace Builder

variable {B : Type} {installed : List String} (bd : Builder α B installed)

/-- The interface and its DNS server have addresses the builder takes. -/
theorem addAddresses_ok (profile : Profile) (h6 : profile.ipv6 = true → ParsesIPv6 α) :
    ∃ b, bd.addAddresses profile = .ok b ∧ bd.interface b = {} := by
  have hclient : isHost PRIVATE_VLAN4_CLIENT.bytes = true := by decide
  have hrouter : isHost PRIVATE_VLAN4_ROUTER.bytes = true := by decide
  obtain ⟨b₁, hb₁, h₁⟩ := bd.setMtu_ok bd.new VPN_MTU (by decide)
  obtain ⟨b₂, hb₂, h₂⟩ := bd.addAddress_ok b₁ PRIVATE_VLAN4_CLIENT.dotted _ 30
    (parse_dotted _) (by rw [address_getByAddress]; decide)
    (by rw [address_getByAddress]; exact hclient)
  obtain ⟨b₃, hb₃, h₃⟩ := bd.addDnsServer_ok b₂ PRIVATE_VLAN4_ROUTER.dotted _
    (parse_dotted _) (by rw [address_getByAddress]; exact hrouter)
  have hinterface : bd.interface b₃ = {} := by rw [h₃, h₂, h₁, bd.interface_new]
  unfold addAddresses
  rw [hb₁]
  show ∃ b, (bd.addAddress b₁ _ 30).bind _ = .ok b ∧ _
  rw [hb₂]
  show ∃ b, (bd.addDnsServer b₂ _).bind _ = .ok b ∧ _
  rw [hb₃]
  cases hipv6 : profile.ipv6 with
  | false => exact ⟨b₃, rfl, hinterface⟩
  | true =>
      obtain ⟨addr, hparse, haddr⟩ := Option.map_eq_some_iff.mp (h6 hipv6).client
      obtain ⟨b₄, hb₄, h₄⟩ := bd.addAddress_ok b₃ PRIVATE_VLAN6_CLIENT addr 126 hparse
        (by rw [haddr]; decide) (by rw [haddr]; decide)
      exact ⟨b₄, hb₄, h₄.trans hinterface⟩

omit [NumericAddress α] in
theorem foldlM_addItem_ok [InetAddress α] (bd : Builder α B installed) (items : List Text) :
    ∀ {b : B} {routes : List (Subnet α)},
      items.foldlM Bg.addItem (bd.interface b).routes = some routes →
        ∃ b', items.foldlM bd.addItem b = .ok b'
          ∧ bd.interface b' = { bd.interface b with routes := routes } := by
  induction items with
  | nil =>
      intro b routes h
      refine ⟨b, rfl, ?_⟩
      rw [← show (bd.interface b).routes = routes from Option.some.inj h]
  | cons it items ih =>
      intro b routes h
      rw [List.foldlM_cons] at h
      obtain ⟨routes₁, hadd, hrest⟩ := Option.bind_eq_some_iff.mp h
      unfold Bg.addItem at hadd
      obtain ⟨subnet, hsubnet, hroute⟩ := Option.bind_eq_some_iff.mp hadd
      obtain ⟨b₁, hb₁, h₁⟩ := bd.addRoute_ok b _ _ _ hroute
      have hitem : bd.addItem b it = .ok b₁ := by
        unfold addItem
        rw [hsubnet]
        exact hb₁
      obtain ⟨b₂, hb₂, h₂⟩ := ih (by rw [h₁]; exact hrest)
      refine ⟨b₂, (foldlM_cons_ok hitem items).trans hb₂, ?_⟩
      rw [h₂, h₁]

/-- **The builder gets the routes of `startVpnRoutes`**, one after the other. -/
theorem addRoutes_ok (profile : Profile) {b : B} (hb : (bd.interface b).routes = [])
    {routes : List (Subnet α)} (h : startVpnRoutes profile = some routes) :
    ∃ b', bd.addRoutes profile b = .ok b'
      ∧ bd.interface b' = { bd.interface b with routes := routes } := by
  -- the route of IPv6 comes last, in either mode
  have hlast : ∀ {b₁ : B} {routes₁ : List (Subnet α)} {address : Text} {n : Nat},
      bd.interface b₁ = { bd.interface b with routes := routes₁ } →
      (if profile.ipv6 then Bg.addRoute routes₁ address n else some routes₁) = some routes →
      ∃ b', (if profile.ipv6 then bd.addRoute b₁ address n else .ok b₁) = .ok b'
        ∧ bd.interface b' = { bd.interface b with routes := routes } := by
    intro b₁ routes₁ address n h₁ h₂
    cases h6 : profile.ipv6 with
    | false =>
        rw [h6, if_neg Bool.false_ne_true] at h₂
        rw [← Option.some.inj h₂]
        exact ⟨b₁, rfl, h₁⟩
    | true =>
        rw [h6, if_pos rfl] at h₂
        obtain ⟨b', hb', h'⟩ := bd.addRoute_ok b₁ address n routes (by rw [h₁]; exact h₂)
        refine ⟨b', hb', ?_⟩
        rw [h', h₁]
  unfold startVpnRoutes at h
  unfold addRoutes
  split at h
  next hall =>
    rw [if_pos hall]
    obtain ⟨routes₁, hadd, hrest⟩ := Option.bind_eq_some_iff.mp h
    obtain ⟨b₁, hb₁, h₁⟩ := bd.addRoute_ok b _ _ _ (by rw [hb]; exact hadd)
    rw [hb₁]
    exact hlast h₁ hrest
  next hall =>
    rw [if_neg hall]
    obtain ⟨routes₁, hitems, hrest⟩ := Option.bind_eq_some_iff.mp h
    obtain ⟨routes₂, hadd, hrest⟩ := Option.bind_eq_some_iff.mp hrest
    obtain ⟨b₁, hb₁, h₁⟩ := foldlM_addItem_ok bd _ (by rw [hb]; exact hitems)
    obtain ⟨b₂, hb₂, h₂⟩ := bd.addRoute_ok b₁ _ _ _ (by rw [h₁]; exact hadd)
    rw [h₁] at h₂
    rw [hb₁]
    show ∃ b', (bd.addRoute b₁ _ 32).bind _ = .ok b' ∧ _
    rw [hb₂]
    exact hlast h₂ hrest

end Builder

end Numeric

/-- A builder that is what it has been asked for, and makes no check of the
addresses of the interface. -/
def recorder (installed : List String) : Builder Numeric (TunInterface Numeric) installed where
  new := {}
  setMtu b _ := .ok b
  addAddress b _ _ := .ok b
  addDnsServer b _ := .ok b
  addRoute b address n :=
    match Bg.addRoute b.routes address n with
    | some routes => .ok { b with routes := routes }
    | none => .error .illegalArgument
  addAllowedApplication b p := (b.apps.addAllowed installed p).map fun f => { b with apps := f }
  addDisallowedApplication b p :=
    (b.apps.addDisallowed installed p).map fun f => { b with apps := f }
  interface b := b
  takes b p destination := b.apps.Passes p ∧ ∃ r ∈ b.routes, r.Covers destination
  interface_new := rfl
  setMtu_ok b _ _ := ⟨b, rfl, rfl⟩
  addAddress_ok b _ _ _ _ _ _ := ⟨b, rfl, rfl⟩
  addDnsServer_ok b _ _ _ _ := ⟨b, rfl, rfl⟩
  addRoute_ok b address n routes h := ⟨{ b with routes := routes }, by rw [h], rfl⟩
  addAllowed_eq b p := by
    cases b.apps.addAllowed installed p with
    | error e => rfl
    | ok f => rfl
  addDisallowed_eq b p := by
    cases b.apps.addDisallowed installed p with
    | error e => rfl
    | ok f => rfl
  takes_iff _ _ _ := Iff.rfl

/-- The profile allows one app, and lists one that is not installed. -/
def oneApp : Profile :=
  { proxyApps := true, individual := "org.mail\norg.gone", route := Acl.BYPASS_LAN, ipv6 := true }

def threePackages : List String := ["com.fox", "org.mail", "org.game"]

end FoxVpn.Bg
