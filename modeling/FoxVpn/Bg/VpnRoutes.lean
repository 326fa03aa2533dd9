/-
  FoxVpn.Bg.VpnRoutes
  ───────────────────
  **WHAT GOES INTO THE TUNNEL, AND WHAT THE ACL WOULD HAVE PROXIED.**

  For a profile that bypasses the LAN, `startVpn` adds the routes of the
  resource `bypass_private_route`; `ss-local` gets the asset
  `bypass-lan.acl`.  The two lists are written down independently.

  An address with no route leaves the phone outside the tunnel.  It is in the
  bypass list, UNLESS it lies in one of two networks that the resource cuts
  out and the asset does not list:

      112.124.47.0/24    114.114.114.0/24         `bypassed_iff`

  Every prefix is an interval of numbers; that the routes, the bypass list
  and the two networks leave no gap is one pass over the sorted intervals.
-/
import Mathlib.Data.List.Sort
import FoxVpn.Lib.Result
import FoxVpn.Net.Dotted
import FoxVpn.Database.Profile
import FoxVpn.Acl.RoundTrip

namespace FoxVpn

open FoxVpn.Lib FoxVpn.Database FoxVpn.Net

/-! ## §1. The two lists, and `startVpn`. -/

open Prefix4 (item)

namespace Acl

def ALL : String := "all"
def BYPASS_LAN : String := "bypass-lan"
def BYPASS_CHN : String := "bypass-china"
def CUSTOM_RULES : String := "custom-rules"

/-- The section `[bypass_list]` of the asset `bypass-lan.acl`. -/
def bypassLan : List Prefix4 :=
  [item 0 0 0 0 8, item 10 0 0 0 8, item 100 64 0 0 10, item 127 0 0 0 8, item 169 254 0 0 16,
    item 172 16 0 0 12, item 192 0 0 0 24, item 192 0 2 0 24, item 192 31 196 0 24,
    item 192 52 193 0 24, item 192 88 99 0 24, item 192 168 0 0 16, item 192 175 48 0 24,
    item 198 18 0 0 15, item 198 51 100 0 24, item 203 0 113 0 24, item 224 0 0 0 3]

/-- The asset `bypass-lan.acl`. -/
def bypassLanAcl : Text :=
  unlines lf ([text "[proxy_all]", [], text "[bypass_list]"] ++ bypassLan.map Prefix4.toText)

end Acl

namespace Bg

/-- The resource `bypass_private_route`. -/
def bypassPrivateRoute : List Prefix4 :=
  [item 1 0 0 0 8, item 2 0 0 0 7, item 4 0 0 0 6, item 8 0 0 0 7, item 11 0 0 0 8,
    item 12 0 0 0 6, item 16 0 0 0 4, item 32 0 0 0 3, item 64 0 0 0 3, item 96 0 0 0 6,
    item 100 0 0 0 10, item 100 128 0 0 9, item 101 0 0 0 8, item 102 0 0 0 7, item 104 0 0 0 5,
    item 112 0 0 0 10, item 112 64 0 0 11, item 112 96 0 0 12, item 112 112 0 0 13,
    item 112 120 0 0 14, item 112 124 0 0 19, item 112 124 32 0 21, item 112 124 40 0 22,
    item 112 124 44 0 23, item 112 124 46 0 24, item 112 124 48 0 20, item 112 124 64 0 18,
    item 112 124 128 0 17, item 112 125 0 0 16, item 112 126 0 0 15, item 112 128 0 0 9,
    item 113 0 0 0 8, item 114 0 0 0 10, item 114 64 0 0 11, item 114 96 0 0 12,
    item 114 112 0 0 15, item 114 114 0 0 18, item 114 114 64 0 19, item 114 114 96 0 20,
    item 114 114 112 0 23, item 114 114 115 0 24, item 114 114 116 0 22, item 114 114 120 0 21,
    item 114 114 128 0 17, item 114 115 0 0 16, item 114 116 0 0 14, item 114 120 0 0 13,
    item 114 128 0 0 9, item 115 0 0 0 8, item 116 0 0 0 6, item 120 0 0 0 6, item 124 0 0 0 7,
    item 126 0 0 0 8, item 128 0 0 0 3, item 160 0 0 0 5, item 168 0 0 0 8, item 169 0 0 0 9,
    item 169 128 0 0 10, item 169 192 0 0 11, item 169 224 0 0 12, item 169 240 0 0 13,
    item 169 248 0 0 14, item 169 252 0 0 15, item 169 255 0 0 16, item 170 0 0 0 7,
    item 172 0 0 0 12, item 172 32 0 0 11, item 172 64 0 0 10, item 172 128 0 0 9,
    item 173 0 0 0 8, item 174 0 0 0 7, item 176 0 0 0 4, item 192 0 0 8 29, item 192 0 0 16 28,
    item 192 0 0 32 27, item 192 0 0 64 26, item 192 0 0 128 25, item 192 0 1 0 24,
    item 192 0 3 0 24, item 192 0 4 0 22, item 192 0 8 0 21, item 192 0 16 0 20,
    item 192 0 32 0 19, item 192 0 64 0 18, item 192 0 128 0 17, item 192 1 0 0 16,
    item 192 2 0 0 15, item 192 4 0 0 14, item 192 8 0 0 13, item 192 16 0 0 12,
    item 192 32 0 0 11, item 192 64 0 0 12, item 192 80 0 0 13, item 192 88 0 0 18,
    item 192 88 64 0 19, item 192 88 96 0 23, item 192 88 98 0 24, item 192 88 100 0 22,
    item 192 88 104 0 21, item 192 88 112 0 20, item 192 88 128 0 17, item 192 89 0 0 16,
    item 192 90 0 0 15, item 192 92 0 0 14, item 192 96 0 0 11, item 192 128 0 0 11,
    item 192 160 0 0 13, item 192 169 0 0 16, item 192 170 0 0 15, item 192 172 0 0 14,
    item 192 176 0 0 12, item 192 192 0 0 10, item 193 0 0 0 8, item 194 0 0 0 7,
    item 196 0 0 0 7, item 198 0 0 0 12, item 198 16 0 0 15, item 198 20 0 0 14,
    item 198 24 0 0 13, item 198 32 0 0 12, item 198 48 0 0 15, item 198 50 0 0 16,
    item 198 51 0 0 18, item 198 51 64 0 19, item 198 51 96 0 22, item 198 51 101 0 24,
    item 198 51 102 0 23, item 198 51 104 0 21, item 198 51 112 0 20, item 198 51 128 0 17,
    item 198 52 0 0 14, item 198 56 0 0 13, item 198 64 0 0 10, item 198 128 0 0 9,
    item 199 0 0 0 8, item 200 0 0 0 7, item 202 0 0 0 8, item 203 0 0 0 18, item 203 0 64 0 19,
    item 203 0 96 0 20, item 203 0 112 0 24, item 203 0 114 0 23, item 203 0 116 0 22,
    item 203 0 120 0 21, item 203 0 128 0 17, item 203 1 0 0 16, item 203 2 0 0 15,
    item 203 4 0 0 14, item 203 8 0 0 13, item 203 16 0 0 12, item 203 32 0 0 11,
    item 203 64 0 0 10, item 203 128 0 0 9, item 204 0 0 0 6, item 208 0 0 0 4]

def PRIVATE_VLAN4_ROUTER : Quad := ⟨172, 19, 0, 2⟩

section Routes

variable {α : Type} [InetAddress α]

/-- `isLoopbackAddress()`. -/
def isLoopback (address : List UInt8) : Bool :=
  if address.length = 4 then address.head? == some 127
  else address == List.replicate 15 0 ++ [1]

/-- A route as the builder takes it: not a loopback address, and no bit set
behind the prefix. -/
def isRoute (address : List UInt8) (prefixLength : Nat) : Bool :=
  !isLoopback address && ((Bits.bits address).drop prefixLength).all (!·)

/-- `Builder.addRoute(address, prefixLength)`; `none` is its
IllegalArgumentException. -/
def addRoute (routes : List (Subnet α)) (address : Text) (prefixLength : Nat) :
    Option (List (Subnet α)) := do
  let addr ← InetAddress.parseNumericAddress address
  let route ← Subnet.ofPrefix addr prefixLength
  if isRoute (InetAddress.address addr) prefixLength then pure (routes ++ [route]) else none

/-- The round of `startVpn` for one item of the resource. -/
def addItem (routes : List (Subnet α)) (it : Text) : Option (List (Subnet α)) := do
  let subnet : Subnet α ← Subnet.fromString it
  addRoute routes (InetAddress.hostAddress subnet.address) subnet.prefixSize

/-- The routes of `startVpn`; `none` is an exception. -/
def startVpnRoutes (profile : Profile) : Option (List (Subnet α)) :=
  if profile.route = Acl.ALL ∨ profile.route = Acl.BYPASS_CHN
      ∨ profile.route = Acl.CUSTOM_RULES then do
    let routes ← addRoute [] (text "0.0.0.0") 0
    if profile.ipv6 then addRoute routes (text "::") 0 else pure routes
  else do
    let routes ← (bypassPrivateRoute.map Prefix4.toText).foldlM addItem []
    let routes ← addRoute routes PRIVATE_VLAN4_ROUTER.dotted 32
    if profile.ipv6 then addRoute routes (text "2000::") 3 else pure routes

end Routes

/-! ## §2. What is added, and what is read. -/

section Numeric

variable {α β : Type} [NumericAddress α]

open NumericAddress

/-- What is added for an address that parses, a prefix that fits, and a
route. -/
theorem addRoute_eq_some {routes : List (Subnet α)} {address : Text} {addr : α} {n : Nat}
    (hparse : InetAddress.parseNumericAddress address = some addr)
    (hsize : n ≤ 8 * (InetAddress.address addr).length)
    (hroute : isRoute (InetAddress.address addr) n = true) :
    addRoute routes address n = some (routes ++ [⟨addr, n, by omega⟩]) := by
  have hsubnet : Subnet.ofPrefix addr n = some ⟨addr, n, by omega⟩ := by
    unfold Subnet.ofPrefix
    rw [dif_neg (by omega)]
    exact congrArg some (Subnet.ext rfl (Int.toNat_natCast _))
  unfold addRoute
  rw [hparse]
  show (Subnet.ofPrefix addr n).bind _ = _
  rw [hsubnet, Option.bind_some, if_pos hroute]
  rfl

theorem addRoute_dotted (routes : List (Subnet α)) {p : Prefix4}
    (h : isRoute p.quad.bytes p.size = true) :
    addRoute routes p.quad.dotted p.size = some (routes ++ [p.subnet]) := by
  have haddr := address_getByAddress (α := α) p.quad
  refine addRoute_eq_some (parse_dotted p.quad) ?_ ?_
  · rw [haddr]
    exact p.size_le
  · rw [haddr]
    exact h

theorem addItem_toText (routes : List (Subnet α)) {p : Prefix4}
    (h : isRoute p.quad.bytes p.size = true) :
    addItem routes p.toText = some (routes ++ [p.subnet]) := by
  unfold addItem
  rw [p.fromString_toText]
  show addRoute routes (InetAddress.hostAddress (getByAddress p.quad : α)) p.size = _
  rw [hostAddress_getByAddress]
  exact addRoute_dotted routes h

theorem foldlM_addItem (ps : List Prefix4) (routes : List (Subnet α))
    (h : ∀ p ∈ ps, isRoute p.quad.bytes p.size = true) :
    (ps.map Prefix4.toText).foldlM addItem routes
      = some (routes ++ ps.map Prefix4.subnet) := by
  induction ps generalizing routes with
  | nil =>
      show some routes = some (routes ++ [])
      rw [List.append_nil]
  | cons p ps ih =>
      rw [List.forall_mem_cons] at h
      rw [List.map_cons, List.foldlM_cons, addItem_toText routes h.1]
      show (ps.map Prefix4.toText).foldlM addItem (routes ++ [p.subnet]) = _
      rw [ih _ h.2, List.map_cons, List.append_assoc]
      rfl

/-- Every item of the resource is a route. -/
theorem isRoute_bypassPrivateRoute :
    ∀ p ∈ bypassPrivateRoute, isRoute p.quad.bytes p.size = true := by
  have hall : (bypassPrivateRoute.all fun p => isRoute p.quad.bytes p.size) = true := by
    decide +kernel
  exact List.all_eq_true.mp hall

/-- The routes of a profile that bypasses the LAN: of IPv4 the resource and
the router, of IPv6 at most one. -/
theorem startVpnRoutes_bypassLan (profile : Profile) (h : profile.route = Acl.BYPASS_LAN) :
    ∃ routes6 : List (Subnet α),
      startVpnRoutes profile = some ((bypassPrivateRoute ++ [item 172 19 0 2 32]).map
        Prefix4.subnet ++ routes6)
      ∧ ∀ r ∈ routes6, (InetAddress.address r.address).length = 16 := by
  have hroute : ¬ (profile.route = Acl.ALL ∨ profile.route = Acl.BYPASS_CHN
      ∨ profile.route = Acl.CUSTOM_RULES) := by
    rw [h]
    decide
  have hitems := foldlM_addItem bypassPrivateRoute ([] : List (Subnet α))
    isRoute_bypassPrivateRoute
  have hisRouter : isRoute (item 172 19 0 2 32).quad.bytes 32 = true := by decide
  have hrouter := addRoute_dotted (bypassPrivateRoute.map Prefix4.subnet : List (Subnet α))
    hisRouter
  unfold startVpnRoutes
  rw [if_neg hroute, hitems]
  show ∃ routes6, (addRoute (bypassPrivateRoute.map Prefix4.subnet)
    PRIVATE_VLAN4_ROUTER.dotted 32).bind _ = _ ∧ _
  rw [show addRoute _ PRIVATE_VLAN4_ROUTER.dotted 32 = _ from hrouter, Option.bind_some]
  cases profile.ipv6 with
  | false => exact ⟨[], by simp, by simp⟩
  | true =>
      obtain ⟨addr, hparse, haddr⟩ := Option.map_eq_some_iff.mp (parse_global (α := α))
      have hlen : (InetAddress.address addr).length = 16 := by rw [haddr]; rfl
      have hglobal : isRoute (InetAddress.address addr) 3 = true := by rw [haddr]; decide
      refine ⟨[⟨addr, 3, by omega⟩], ?_, ?_⟩
      · rw [if_pos rfl, addRoute_eq_some hparse (by omega) hglobal, List.map_append]
        rfl
      · intro r hr
        rw [List.mem_singleton.mp hr]
        exact hlen

/-- The asset is read as its mode and its bypass list. -/
theorem parse_bypassLanAcl [URL β] (defaultBypass : Bool) :
    ∃ acl : Acl.Parsing α β, Acl.parse true defaultBypass Acl.bypassLanAcl = .ok acl
      ∧ acl.subnets = Acl.bypassLan.map Prefix4.subnet := by
  have hsizes : (Acl.bypassLan.all fun p => p.size < 32) = true := by decide
  have hprint : Acl.bypassLan.map Prefix4.toText
      = (Acl.bypassLan.map Prefix4.subnet : List (Subnet α)).map Subnet.toString := by
    rw [List.map_map]
    refine List.map_congr_left fun p hp => ?_
    exact (Prefix4.toString_subnet (of_decide_eq_true (List.all_eq_true.mp hsizes p hp))).symm
  have hparsed : ∀ n ∈ (Acl.bypassLan.map Prefix4.subnet : List (Subnet α)), Acl.Parsed n := by
    intro n hn
    obtain ⟨p, -, rfl⟩ := List.mem_map.mp hn
    exact ⟨_, parse_dotted p.quad⟩
  have hlines : ∀ l ∈ [text "[proxy_all]", [], text "[bypass_list]"]
      ++ Acl.bypassLan.map Prefix4.toText, lf ∉ l ∧ cr ∉ l := by
    rw [List.forall_mem_append]
    refine ⟨by decide, fun l hl => ?_⟩
    obtain ⟨p, -, rfl⟩ := List.mem_map.mp hl
    exact ⟨p.not_mem_toText (by decide), p.not_mem_toText (by decide)⟩
  have hmode : ∀ s : Acl.Parsing α β, Acl.Parsing.line true s (text "[proxy_all]")
      = .ok { s with bypass := false } := fun _ => rfl
  have hempty : ∀ s : Acl.Parsing α β, Acl.Parsing.line true s [] = .ok s := by
    intro s
    rw [Acl.Parsing.line_of_rule (by simp) (by simp [Trimmed])]
    unfold Acl.Parsing.rule
    rw [if_neg (by simp)]
    cases s.current with
    | none => rfl
    | some sec => rfl
  have hsection : ∀ s : Acl.Parsing α β, Acl.Parsing.line true s (text "[bypass_list]")
      = .ok { s with current := some .bypass } := fun _ => rfl
  -- what the three lines before the list leave behind
  let start : Acl.Parsing α β :=
    { Acl.Parsing.new defaultBypass with bypass := false, current := some .bypass }
  have hrules : ((Acl.bypassLan.map Prefix4.subnet).map Subnet.toString ++ []).foldlM
      (Acl.Parsing.line true) start
        = .ok (start.fill (Acl.bypassLan.map Prefix4.subnet) [] .bypass) :=
    Acl.Parsing.foldlM_rules (by simp) _ rfl hparsed
  rw [List.append_nil] at hrules
  refine ⟨start.fill (Acl.bypassLan.map Prefix4.subnet) [] .bypass, ?_, rfl⟩
  unfold Acl.parse Acl.bypassLanAcl
  rw [lines_unlines lf cr _ hlines, hprint, List.cons_append, foldlM_cons_ok (hmode _),
    List.cons_append, foldlM_cons_ok (hempty _), List.cons_append, foldlM_cons_ok (hsection _)]
  exact hrules

end Numeric

/-! ## §3. The lists as intervals. -/

/-- The networks the resource cuts out and the asset does not list. -/
def cutOut : List Prefix4 := [item 112 124 47 0 24, item 114 114 114 0 24]

/-- The routes, the bypass list and the networks cut out leave no gap. -/
theorem sweep_all :
    Bits.sweep (2 ^ 32) 0 (((bypassPrivateRoute ++ Acl.bypassLan ++ cutOut).map
      Prefix4.interval).insertionSort fun i j => i.1 ≤ j.1) = true := by
  decide +kernel

/-- What is cut out is neither routed nor listed. -/
theorem cutOut_apart :
    (cutOut.all fun p => (bypassPrivateRoute ++ [item 172 19 0 2 32] ++ Acl.bypassLan).all fun r =>
      Bits.apart p.interval r.interval) = true := by
  decide +kernel

/-- Some prefix of a list has the address. -/
def Listed (ps : List Prefix4) (q : Quad) : Prop :=
  ∃ p ∈ ps, Bits.Within (Bits.value q.bytes) p.interval

theorem value_bytes (q : Quad) : Bits.value q.bytes
    = q.a.toNat * 16777216 + q.b.toNat * 65536 + q.c.toNat * 256 + q.d.toNat := by
  simp only [Quad.bytes, Bits.value, List.length_cons, List.length_nil]
  omega

/-- The networks cut out, by their first three bytes. -/
theorem listed_cutOut_iff (q : Quad) :
    Listed cutOut q ↔ (q.a, q.b, q.c) ∈ [(112, 124, 47), (114, 114, 114)] := by
  have ha := q.a.toNat_lt
  have hb := q.b.toNat_lt
  have hc := q.c.toNat_lt
  have hd := q.d.toNat_lt
  have h112 : (item 112 124 47 0 24).interval = (1887186688, 1887186944) := by decide
  have h114 : (item 114 114 114 0 24).interval = (1920102912, 1920103168) := by decide
  rw [Listed, cutOut, List.exists_mem_cons_iff, List.exists_mem_cons_iff, h112, h114, value_bytes]
  simp only [Bits.Within, List.mem_cons, Prod.mk.injEq, List.not_mem_nil, or_false, false_and,
    exists_false, ← UInt8.toNat_inj]
  show _ ↔ (_ = 112 ∧ _ = 124 ∧ _ = 47) ∨ (_ = 114 ∧ _ = 114 ∧ _ = 114)
  omega

/-- **No gap**: an address outside the networks cut out has a route or is in
the bypass list. -/
theorem listed_of_not_cutOut {q : Quad} (h : ¬ Listed cutOut q) :
    Listed bypassPrivateRoute q ∨ Listed Acl.bypassLan q := by
  have hlt : Bits.value q.bytes < 2 ^ 32 := by
    have ha := q.a.toNat_lt
    have hb := q.b.toNat_lt
    have hc := q.c.toNat_lt
    have hd := q.d.toNat_lt
    rw [value_bytes]
    omega
  obtain ⟨i, hi, hwithin⟩ := Bits.exists_within_of_sweep hlt _ 0 (Nat.zero_le _) sweep_all
  obtain ⟨p, hp, rfl⟩ := List.mem_map.mp ((List.mem_insertionSort _).mp hi)
  rcases List.mem_append.mp hp with hp | hp
  · rcases List.mem_append.mp hp with hp | hp
    · exact Or.inl ⟨p, hp, hwithin⟩
    · exact Or.inr ⟨p, hp, hwithin⟩
  · exact absurd ⟨p, hp, hwithin⟩ h

theorem not_listed_of_cutOut {q : Quad} (h : Listed cutOut q) :
    ¬ Listed (bypassPrivateRoute ++ [item 172 19 0 2 32] ++ Acl.bypassLan) q := by
  obtain ⟨p, hp, hwithin⟩ := h
  rintro ⟨r, hr, hwithin'⟩
  have hapart := List.all_eq_true.mp (List.all_eq_true.mp cutOut_apart p hp) r hr
  exact Bits.not_within_of_apart hapart hwithin hwithin'

/-! ## §4. Routes against the ACL. -/

section Agreement

variable {α β : Type} [NumericAddress α] [URL β]

omit [URL β] in
theorem exists_covers_iff (ps : List Prefix4) (q : Quad) :
    (∃ n ∈ (ps.map Prefix4.subnet : List (Subnet α)), n.Covers q.bytes) ↔ Listed ps q := by
  constructor
  · rintro ⟨n, hn, hcovers⟩
    obtain ⟨p, hp, rfl⟩ := List.mem_map.mp hn
    exact ⟨p, hp, (p.covers_iff q).mp hcovers⟩
  · rintro ⟨p, hp, hwithin⟩
    exact ⟨p.subnet, List.mem_map_of_mem hp, (p.covers_iff q).mpr hwithin⟩

omit [URL β] in
/-- A route of IPv6 is no matter for an address of IPv4. -/
theorem exists_route_iff {routes6 : List (Subnet α)}
    (h6 : ∀ r ∈ routes6, (InetAddress.address r.address).length = 16) (ps : List Prefix4)
    (q : Quad) :
    (∃ r ∈ ps.map Prefix4.subnet ++ routes6, r.Covers q.bytes) ↔ Listed ps q := by
  rw [← exists_covers_iff (α := α)]
  constructor
  · rintro ⟨r, hr, hcovers⟩
    rcases List.mem_append.mp hr with hr | hr
    · exact ⟨r, hr, hcovers⟩
    · have hlen : 4 = (InetAddress.address r.address).length := hcovers.1
      rw [h6 r hr] at hlen
      exact absurd hlen (by decide)
  · rintro ⟨r, hr, hcovers⟩
    exact ⟨r, List.mem_append_left _ hr, hcovers⟩

/-- **What goes past the tunnel is in the bypass list**, for exactly the
addresses outside two networks. -/
theorem bypassed_iff (profile : Profile) (defaultBypass : Bool) :
    ∃ (routes : List (Subnet α)) (acl : Acl.Parsing α β),
      startVpnRoutes { profile with route := Acl.BYPASS_LAN } = some routes
        ∧ Acl.parse true defaultBypass Acl.bypassLanAcl = .ok acl
        ∧ ∀ q : Quad,
          ((¬ ∃ r ∈ routes, r.Covers q.bytes) → ∃ n ∈ acl.subnets, n.Covers q.bytes)
            ↔ (q.a, q.b, q.c) ∉ [(112, 124, 47), (114, 114, 114)] := by
  obtain ⟨routes6, hroutes, h6⟩ := startVpnRoutes_bypassLan (α := α)
    { profile with route := Acl.BYPASS_LAN } rfl
  obtain ⟨acl, hparse, hsubnets⟩ := parse_bypassLanAcl (α := α) (β := β) defaultBypass
  refine ⟨_, acl, hroutes, hparse, fun q => ?_⟩
  rw [← listed_cutOut_iff, exists_route_iff h6, hsubnets, exists_covers_iff]
  constructor
  · -- what is cut out has no route, and is not listed either
    intro h hcut
    have hnot := not_listed_of_cutOut hcut
    obtain ⟨p, hp, hwithin⟩ := h fun ⟨p, hp, hwithin⟩ =>
      hnot ⟨p, List.mem_append_left _ hp, hwithin⟩
    exact hnot ⟨p, List.mem_append_right _ hp, hwithin⟩
  · intro hcut hroute
    rcases listed_of_not_cutOut hcut with ⟨p, hp, hwithin⟩ | hlan
    · exact absurd ⟨p, List.mem_append_left _ hp, hwithin⟩ hroute
    · exact hlan

end Agreement

/-! ## §5. A resolver of the public network. -/

/-- The addresses of IPv6 that `startVpn` names. -/
inductive Six where
  | unicast
  | unspecified
  | client
  deriving DecidableEq

namespace Six

def toText : Six → Text
  | .unicast => text "2000::"
  | .unspecified => text "::"
  | .client => text "fdfe:dcba:9876::1"

def bytes : Six → List UInt8
  | .unicast => 0x20 :: List.replicate 15 0
  | .unspecified => List.replicate 16 0
  | .client => [0xfd, 0xfe, 0xdc, 0xba, 0x98, 0x76] ++ List.replicate 9 0 ++ [1]

theorem length_bytes (a : Six) : a.bytes.length = 16 := by
  cases a with
  | unicast | unspecified | client => rfl

def ofText (t : Text) : Option Six :=
  [Six.unicast, .unspecified, .client].find? fun a => a.toText = t

theorem ofText_toText (a : Six) : ofText a.toText = some a := by
  cases a with
  | unicast | unspecified | client => decide

theorem ofDotted_of_ofText {t : Text} {a : Six} (h : ofText t = some a) :
    Quad.ofDotted t = none := by
  have htext : a.toText = t := by simpa using List.find?_some h
  rw [← htext]
  cases a with
  | unicast | unspecified | client => decide

end Six

/-- The addresses of IPv4, and those of IPv6 that `startVpn` names. -/
inductive Numeric where
  | quad (q : Quad)
  | six (a : Six)
  deriving DecidableEq

namespace Numeric

def parse (t : Text) : Option Numeric :=
  match Six.ofText t with
  | some a => some (.six a)
  | none => (Quad.ofDotted t).map .quad

theorem parse_dotted (q : Quad) : parse q.dotted = some (.quad q) := by
  unfold parse
  cases h : Six.ofText q.dotted with
  | none =>
      rw [Quad.ofDotted_dotted]
      rfl
  | some a =>
      have hnone := Six.ofDotted_of_ofText h
      rw [Quad.ofDotted_dotted] at hnone
      cases hnone

theorem parse_six (a : Six) : parse a.toText = some (.six a) := by
  unfold parse
  rw [Six.ofText_toText]

instance : NumericAddress Numeric where
  address
    | .quad q => q.bytes
    | .six a => a.bytes
  hostAddress
    | .quad q => q.dotted
    | .six a => a.toText
  parseNumericAddress := parse
  address_size
    | .quad _ => Or.inl rfl
    | .six a => Or.inr a.length_bytes
  address_injective x y h := by
    cases x with
    | quad q =>
        cases y with
        | quad q' =>
            obtain ⟨a, b, c, d⟩ := q
            obtain ⟨a', b', c', d'⟩ := q'
            cases h
            rfl
        | six a =>
            exact absurd ((congrArg List.length h).trans a.length_bytes) (by simp [Quad.bytes])
    | six a =>
        cases y with
        | quad q' =>
            exact absurd (a.length_bytes.symm.trans (congrArg List.length h)) (by simp [Quad.bytes])
        | six a' =>
            revert h
            cases a <;> cases a' <;> decide
  parse_hostAddress _ x _ := by
    cases x with
    | quad q => exact parse_dotted q
    | six a => exact parse_six a
  hostAddress_plain x := by
    cases x with
    | quad q => exact q.dotted_plain
    | six a =>
        cases a with
        | unicast | unspecified | client => exact plain_of_all (by decide)
  parse_nil := rfl
  getByAddress := .quad
  address_getByAddress _ := rfl
  hostAddress_getByAddress _ := rfl
  parse_dotted := parse_dotted
  parse_global := rfl

end Numeric

/-- The resolver 114.114.114.114: no route takes it into the tunnel, and the
ACL would have had it proxied. -/
theorem resolver_leaks :
    ∃ (routes : List (Subnet Numeric)) (acl : Acl.Parsing Numeric Acl.PlainURL),
      startVpnRoutes { route := Acl.BYPASS_LAN } = some routes
        ∧ Acl.parse true false Acl.bypassLanAcl = .ok acl
        ∧ (¬ ∃ r ∈ routes, r.Covers [114, 114, 114, 114])
        ∧ ¬ ∃ n ∈ acl.subnets, n.Covers [114, 114, 114, 114] := by
  obtain ⟨routes6, hroutes, h6⟩ := startVpnRoutes_bypassLan (α := Numeric)
    { route := Acl.BYPASS_LAN } rfl
  obtain ⟨acl, hparse, hsubnets⟩ := parse_bypassLanAcl (α := Numeric) (β := Acl.PlainURL) false
  have hnot := not_listed_of_cutOut ((listed_cutOut_iff ⟨114, 114, 114, 114⟩).mpr (by decide))
  refine ⟨_, acl, hroutes, hparse, fun h => ?_, fun h => ?_⟩
  · obtain ⟨p, hp, hwithin⟩ := (exists_route_iff h6 _ ⟨114, 114, 114, 114⟩).mp h
    exact hnot ⟨p, List.mem_append_left _ hp, hwithin⟩
  · rw [hsubnets] at h
    obtain ⟨p, hp, hwithin⟩ := (exists_covers_iff _ ⟨114, 114, 114, 114⟩).mp h
    exact hnot ⟨p, List.mem_append_right _ hp, hwithin⟩

end Bg

end FoxVpn
