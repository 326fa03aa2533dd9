/-
  FoxVpn.Acl.Acl
  ──────────────
  **ACCESS CONTROL LISTS: READING, PRINTING, IMPORTING.**

  An ACL is a mode (`bypass`: what to do with everything else), two lists of
  host name patterns, the subnets of the section opposite to the mode, and
  the URLs of other ACLs to import.

      parse        line by line; calls back for host names and URLs as it
                   meets them, collects the subnets of both sections
      fromReader   clears the ACL, fills it from the calls of `parse`
      toString     prints it
      flatten      reads the imported ACLs and merges them, to a depth

  The calls of a `parse` that fails have been made: `Except` carries them
  along with the fault.
-/
import FoxVpn.Lib.Result
import FoxVpn.Net.Subnet

namespace FoxVpn

open FoxVpn.Lib FoxVpn.Net

/-! ## §1. URLs and the order of the lists. -/

namespace Net

/-- `java.net.URL` as the code uses it, and the classes of the pattern that
finds the specification of one: the JVM and Android do not agree on them. -/
class URL (β : Type) where
  /-- `\s`. -/
  isSpace : UInt16 → Bool
  /-- The characters `.` does not match. -/
  isLineTerminator : UInt16 → Bool
  isSpace_blank : isSpace 32 = true
  /-- The two brackets of the pattern. -/
  isSpace_angle : isSpace 60 = false ∧ isSpace 62 = false
  isLineTerminator_line : isLineTerminator lf = true ∧ isLineTerminator cr = true
  /-- `URL(spec)`; `none` is the MalformedURLException. -/
  ofSpec : Text → Option β
  toString : β → Text
  host : β → Text
  port : β → Int
  file : β → Text
  protocol : β → Text
  equals : β → β → Bool
  equals_symm : ∀ u v, equals u v = true → equals v u = true
  equals_trans : ∀ u v w, equals u v = true → equals v w = true → equals u w = true
  /-- The external form is made of the parts of the specification, and
  specifies the URL. -/
  ofSpec_toString : ∀ spec u, ofSpec spec = some u → ofSpec (toString u) = some u
  toString_ne_nil : ∀ u, toString u ≠ []
  toString_line : ∀ spec u, ofSpec spec = some u → (∀ c ∈ spec, isLineTerminator c = false) →
    ∀ c ∈ toString u, isLineTerminator c = false

end Net

namespace Acl

def StringSorter : Callback Text where
  compare := compare
  areItemsTheSame a b := a == b
  trans_compare := inferInstance
  same_symm a b h := by rw [beq_iff_eq] at h ⊢; exact h.symm
  same_trans a b c h h' := by rw [beq_iff_eq] at h h' ⊢; exact h.trans h'

section Sorters

variable (α β : Type) [InetAddress α] [DecidableEq α] [URL β]

def SubnetSorter : Callback (Subnet α) where
  compare := Subnet.compareTo
  areItemsTheSame a b := decide (a = b)
  trans_compare := inferInstance
  same_symm a b h := by rw [decide_eq_true_eq] at h ⊢; exact h.symm
  same_trans a b c h h' := by rw [decide_eq_true_eq] at h h' ⊢; exact h.trans h'

/-- `compareBy({ it.host }, { it.port }, { it.file }, { it.protocol })`. -/
def URLSorter : Callback β where
  compare :=
    compareLex (compareOn URL.host)
      (compareLex (compareOn URL.port) (compareLex (compareOn URL.file) (compareOn URL.protocol)))
  areItemsTheSame := URL.equals
  trans_compare := inferInstance
  same_symm := URL.equals_symm
  same_trans := URL.equals_trans

end Sorters

variable {α : Type} [InetAddress α] [DecidableEq α]

/-- Subnets that compare equal are the same. -/
theorem subnetSorter_of_eq (a b : Subnet α) (h : (SubnetSorter α).compare a b = .eq) :
    (SubnetSorter α).areItemsTheSame a b = true :=
  decide_eq_true (Subnet.compareTo_eq_iff.mp h)

theorem subnetSorter_eq {l l' : SortedList (SubnetSorter α)} (h : l'.items.Perm l.items) :
    l' = l :=
  SortedList.eq_of_perm h (l.pairwise_ne_eq subnetSorter_of_eq)

end Acl

/-- An ACL. -/
structure Acl (α β : Type) [InetAddress α] [DecidableEq α] [URL β] where
  bypassHostnames : SortedList Acl.StringSorter := .empty
  proxyHostnames : SortedList Acl.StringSorter := .empty
  subnets : SortedList (Acl.SubnetSorter α) := .empty
  urls : SortedList (Acl.URLSorter β) := .empty
  bypass : Bool := false

namespace Acl

variable {α β : Type} [InetAddress α] [DecidableEq α] [URL β]

/-! ## §2. `parse`. -/

variable (β) in
/-- The group of `^IMPORT_URL\s*<(.+)>\s*$`: behind the `<`, up to the last
`>`, after which there is only space. -/
def networkAclParser (s : Text) : Option Text :=
  if (text "IMPORT_URL").isPrefixOf s then
    match (s.drop 10).dropWhile (URL.isSpace β) with
    | [] => none
    | c :: r =>
        let t := r.rdropWhile (URL.isSpace β)
        if c = 60 ∧ t.getLast? = some 62 ∧ t.dropLast ≠ []
            ∧ t.dropLast.all (fun c => !URL.isLineTerminator β c) = true then
          some t.dropLast
        else none
  else none

/-- What stops a `parse`, with the text of its message. -/
inductive Fault where
  | malformedURL (spec : Text)
  | illegalState (message : Text)
  deriving Repr, DecidableEq

/-- A call of one of the three callbacks. -/
inductive Call (β : Type) where
  | bypassHostnames (input : Text)
  | proxyHostnames (input : Text)
  | urls (url : β)

/-- The list the variables `hostnames` and `subnets` stand for. -/
inductive Section where
  | bypass
  | proxy
  deriving Repr, DecidableEq

def Section.call : Section → Text → Call β
  | .bypass, input => .bypassHostnames input
  | .proxy, input => .proxyHostnames input

variable (α β) in
/-- The variables of `parse`. -/
structure Parsing where
  bypass : Bool
  bypassSubnets : List (Subnet α) := []
  proxySubnets : List (Subnet α) := []
  /-- `none` while `hostnames` and `subnets` are null. -/
  current : Option Section
  calls : List (Call β) := []

namespace Parsing

def new (defaultBypass : Bool) : Parsing α β where
  bypass := defaultBypass
  current := some (if defaultBypass then .proxy else .bypass)

def call (s : Parsing α β) (c : Call β) : Parsing α β := { s with calls := s.calls ++ [c] }

def addSubnet (s : Parsing α β) (n : Subnet α) : Section → Parsing α β
  | .bypass => { s with bypassSubnets := s.bypassSubnets ++ [n] }
  | .proxy => { s with proxySubnets := s.proxySubnets ++ [n] }

/-- A line in brackets. -/
def directive (s : Parsing α β) (input : Text) : Except Fault (Parsing α β) :=
  if input = text "[outbound_block_list]" then .ok { s with current := none }
  else if input = text "[black_list]" ∨ input = text "[bypass_list]" then
    .ok { s with current := some .bypass }
  else if input = text "[white_list]" ∨ input = text "[proxy_list]" then
    .ok { s with current := some .proxy }
  else if input = text "[reject_all]" ∨ input = text "[bypass_all]" then
    .ok { s with bypass := true }
  else if input = text "[accept_all]" ∨ input = text "[proxy_all]" then
    .ok { s with bypass := false }
  else .error (.illegalState (text "Unrecognized block: " ++ input))

/-- What a line says, its comment apart. -/
def rule (s : Parsing α β) (input : Text) : Except Fault (Parsing α β) :=
  if input.head? = some bracket then s.directive input
  else
    match s.current with
    | none => .ok s
    | some sec =>
        if input = [] then .ok s
        else
          match Subnet.fromString input with
          | none => .ok (s.call (sec.call input))
          | some n => .ok (s.addSubnet n sec)

/-- The import in the comment of a line. -/
def importUrl (line : Text) : Except Fault (Option β) :=
  match networkAclParser β ((splitFirst hash line).2.getD []) with
  | none => .ok none
  | some spec =>
      match URL.ofSpec spec with
      | none => .error (.malformedURL spec)
      | some u => .ok (some u)

/-- One round of the loop; `withUrls` if a callback for URLs is given, else
a `#` is a character like any other. -/
def line (withUrls : Bool) (s : Parsing α β) (line : Text) :
    Except (Fault × List (Call β)) (Parsing α β) :=
  if withUrls then
    match importUrl line with
    | .error e => .error (e, s.calls)
    | .ok u =>
        let s := match u with
          | none => s
          | some u => s.call (.urls u)
        (s.rule (trim isWhitespace (splitFirst hash line).1)).mapError fun e => (e, s.calls)
  else (s.rule (trim isWhitespace line)).mapError fun e => (e, s.calls)

/-- The subnets `parse` returns. -/
def subnets (s : Parsing α β) : List (Subnet α) :=
  if s.bypass then s.proxySubnets else s.bypassSubnets

end Parsing

/-- `Acl.parse`, up to the end of the text. -/
def parse (withUrls : Bool) (defaultBypass : Bool) (reader : Text) :
    Except (Fault × List (Call β)) (Parsing α β) :=
  (lines lf cr reader).foldlM (Parsing.line withUrls) (Parsing.new defaultBypass)

/-! ## §3. The functions of `Acl`. -/

def apply (a : Acl α β) : Call β → Acl α β
  | .bypassHostnames h => { a with bypassHostnames := a.bypassHostnames.add h }
  | .proxyHostnames h => { a with proxyHostnames := a.proxyHostnames.add h }
  | .urls u => { a with urls := a.urls.add u }

/-- `fromReader`; a fault comes with what the ACL has become. -/
def fromReader (a : Acl α β) (reader : Text) (defaultBypass : Bool) :
    Except (Fault × Acl α β) (Acl α β) :=
  let cleared : Acl α β := { bypass := a.bypass }
  match parse true defaultBypass reader with
  | .error (e, calls) => .error (e, calls.foldl apply cleared)
  | .ok s =>
      let filled := s.calls.foldl apply cleared
      .ok { filled with bypass := s.bypass, subnets := filled.subnets.addAll s.subnets }

def fromAcl (_a other : Acl α β) : Acl α β where
  bypassHostnames := SortedList.empty.addAll other.bypassHostnames.items
  proxyHostnames := SortedList.empty.addAll other.proxyHostnames.items
  subnets := SortedList.empty.addAll other.subnets.items
  urls := SortedList.empty.addAll other.urls.items
  bypass := other.bypass

/-- A section of the printed ACL, left out if it is empty. -/
def printSection (header : String) (list : List Text) : Text :=
  if list = [] then [] else text header ++ [lf] ++ [lf].intercalate list ++ [lf]

def bypassList (a : Acl α β) : List Text :=
  if a.bypass then a.bypassHostnames.items
  else a.subnets.items.map Subnet.toString ++ a.bypassHostnames.items

def proxyList (a : Acl α β) : List Text :=
  if a.bypass then a.subnets.items.map Subnet.toString ++ a.proxyHostnames.items
  else a.proxyHostnames.items

def toString (a : Acl α β) : Text :=
  text (if a.bypass then "[bypass_all]" else "[proxy_all]") ++ [lf]
    ++ printSection "[bypass_list]" a.bypassList
    ++ printSection "[proxy_list]" a.proxyList
    ++ a.urls.items.flatMap fun u => text "#IMPORT_URL <" ++ URL.toString u ++ text ">" ++ [lf]

/-- What `flatten` does with a child: the subnets of a conflicting mode are
discarded, the rest is merged. -/
def merge (a child : Acl α β) : Acl α β :=
  let subnets := if a.bypass ≠ child.bypass then SortedList.empty else child.subnets
  { a with
    bypassHostnames := a.bypassHostnames.addAll child.bypassHostnames.items
    proxyHostnames := a.proxyHostnames.addAll child.proxyHostnames.items
    subnets := a.subnets.addAll subnets.items }

/-- The ways in which `flatten` fails. -/
inductive ImportFault where
  | connect
  | parse (fault : Fault)
  deriving Repr, DecidableEq

/-- The import of one URL: fetch it, read it in the mode of the importer. -/
def importAcl (connect : β → Option Text) (bypass : Bool) (u : β) :
    Except ImportFault (Acl α β) :=
  match connect u with
  | none => .error .connect
  | some reader =>
      match ({} : Acl α β).fromReader reader bypass with
      | .error (e, _) => .error (.parse e)
      | .ok child => .ok child

/-- `flatten` with a depth that is not negative. -/
def flattenTo (connect : β → Option Text) : Nat → Acl α β → Except ImportFault (Acl α β)
  | 0, a => .ok { a with urls := .empty }
  | n + 1, a =>
      (a.urls.items.foldlM (fun (a' : Acl α β) u =>
          (importAcl connect a.bypass u).bind fun child =>
            (flattenTo connect n child).map a'.merge) a).map
        fun a' => { a' with urls := .empty }

/-- `flatten(depth, connect)`; `connect` is `none` where the fetch throws. -/
def flatten (a : Acl α β) (depth : Int) (connect : β → Option Text) :
    Except ImportFault (Acl α β) :=
  flattenTo connect depth.toNat a

/-! ## §4. What a `flatten` that succeeds has done. -/

theorem importAcl_eq_ok {connect : β → Option Text} {bypass : Bool} {u : β} {child : Acl α β} :
    importAcl connect bypass u = .ok child ↔
      ∃ reader, connect u = some reader ∧ ({} : Acl α β).fromReader reader bypass = .ok child := by
  unfold importAcl
  cases connect u with
  | none => simp
  | some reader =>
      cases hr : ({} : Acl α β).fromReader reader bypass with
      | error e => simp [hr]
      | ok c => simp [hr]

/-- `child` is what the URL stands for, flattened to depth `n`. -/
def Imports (connect : β → Option Text) (n : Nat) (bypass : Bool) (u : β) (child : Acl α β) :
    Prop :=
  ∃ c, importAcl connect bypass u = .ok c ∧ flattenTo connect n c = .ok child

/-- The children of a loop over URLs: one for each, and no others. -/
structure Children (connect : β → Option Text) (n : Nat) (bypass : Bool) (us : List β)
    (children : List (Acl α β)) : Prop where
  of_url : ∀ u ∈ us, ∃ child ∈ children, Imports connect n bypass u child
  of_child : ∀ child ∈ children, ∃ u ∈ us, Imports connect n bypass u child

theorem foldlM_children {connect : β → Option Text} {n : Nat} {bypass : Bool} :
    ∀ (us : List β) {a b : Acl α β}, us.foldlM (fun (a' : Acl α β) u =>
        (importAcl connect bypass u).bind fun child =>
          (flattenTo connect n child).map a'.merge) a = .ok b →
      ∃ children, Children connect n bypass us children ∧ b = children.foldl merge a
  | [], a, b, h => ⟨[], ⟨by simp, by simp⟩, (Except.ok.inj h).symm⟩
  | u :: us, a, b, h => by
      obtain ⟨a₁, hround, hrest⟩ := foldlM_cons_eq_ok h
      obtain ⟨c, himport, hchild⟩ := bind_eq_ok.mp hround
      obtain ⟨child, hflat, rfl⟩ := map_eq_ok.mp hchild
      obtain ⟨children, hall, rfl⟩ := foldlM_children us hrest
      have hu : Imports connect n bypass u child := ⟨c, himport, hflat⟩
      refine ⟨child :: children, ⟨?_, ?_⟩, rfl⟩
      · rw [List.forall_mem_cons]
        refine ⟨⟨child, List.mem_cons_self, hu⟩, fun v hv => ?_⟩
        obtain ⟨child', hmem, hv'⟩ := hall.of_url v hv
        exact ⟨child', List.mem_cons_of_mem _ hmem, hv'⟩
      · rw [List.forall_mem_cons]
        refine ⟨⟨u, List.mem_cons_self, hu⟩, fun child' hmem => ?_⟩
        obtain ⟨v, hv, hv'⟩ := hall.of_child child' hmem
        exact ⟨v, List.mem_cons_of_mem _ hv, hv'⟩

/-- One level of `flatten`: every URL has its child, and the children are
merged. -/
theorem flattenTo_succ {connect : β → Option Text} {n : Nat} {a b : Acl α β}
    (h : flattenTo connect (n + 1) a = .ok b) :
    ∃ children, Children connect n a.bypass a.urls.items children
      ∧ b = { children.foldl merge a with urls := .empty } := by
  rw [flattenTo] at h
  cases hfold : a.urls.items.foldlM (fun (a' : Acl α β) u =>
      (importAcl connect a.bypass u).bind fun child =>
        (flattenTo connect n child).map a'.merge) a with
  | error e =>
      rw [hfold] at h
      exact absurd h (by simp [Except.map])
  | ok c =>
      rw [hfold] at h
      obtain ⟨children, hall, rfl⟩ := foldlM_children a.urls.items hfold
      exact ⟨children, hall, (Except.ok.inj h).symm⟩

/-! ## §5. A network of one address. -/

/-- The loopback address. -/
inductive Loopback where
  | localhost
  deriving DecidableEq

instance : InetAddress Loopback where
  address _ := [127, 0, 0, 1]
  hostAddress _ := text "127.0.0.1"
  parseNumericAddress t := if t = text "127.0.0.1" then some .localhost else none
  address_size _ := Or.inl rfl
  address_injective a b _ := by cases a; cases b; rfl
  parse_hostAddress s a _ := by cases a; rfl
  hostAddress_plain _ := plain_of_all (by decide)
  parse_nil := rfl

/-- `\s` of the JVM. -/
def jvmSpace (c : UInt16) : Bool := [9, 10, 11, 12, 13, 32].contains c

/-- The line terminators of the JVM. -/
def jvmLineTerminator (c : UInt16) : Bool := [lf, cr, 0x85, 0x2028, 0x2029].contains c

theorem jvmSpace_blank : jvmSpace 32 = true := rfl

theorem jvmSpace_angle : jvmSpace 60 = false ∧ jvmSpace 62 = false := by decide

theorem jvmLineTerminator_line : jvmLineTerminator lf = true ∧ jvmLineTerminator cr = true := by
  decide

/-- A URL that is its specification. -/
structure PlainURL where
  spec : Text
  ne_nil : spec ≠ []

instance : URL PlainURL where
  isSpace := jvmSpace
  isLineTerminator := jvmLineTerminator
  isSpace_blank := jvmSpace_blank
  isSpace_angle := jvmSpace_angle
  isLineTerminator_line := jvmLineTerminator_line
  ofSpec t := if h : t = [] then none else some ⟨t, h⟩
  toString u := u.spec
  host u := u.spec
  port _ := -1
  file _ := []
  protocol _ := []
  equals u v := u.spec == v.spec
  equals_symm u v h := by rw [beq_iff_eq] at h ⊢; exact h.symm
  equals_trans u v w h h' := by rw [beq_iff_eq] at h h' ⊢; exact h.trans h'
  ofSpec_toString spec u _ := dif_neg u.ne_nil
  toString_ne_nil u := u.ne_nil
  toString_line spec u h hline := by
    split at h
    next => exact absurd h (by simp)
    next => rw [← Option.some.inj h]; exact hline

end Acl

end FoxVpn
