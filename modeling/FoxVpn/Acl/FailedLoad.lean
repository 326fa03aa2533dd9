/-
  FoxVpn.Acl.FailedLoad
  ─────────────────────
  **WHAT A LOAD THAT FAILS LEAVES BEHIND.**

  `fromReader` clears the four lists FIRST and has `parse` fill three of them
  as it goes; the mode and the subnets are assigned at the end.  If a line
  is refused, the mode is that of the old ACL, the subnets are gone, and the
  other lists hold what stood before the line.  `fromId` swallows the
  IOExceptions among the faults and returns the ACL in that state.

      the file does not open       nothing has been cleared
      it breaks while being read   cleared, and filled up to there
      an import is malformed       the same: it is an IOException
      a block is not recognised    the same, and `fromId` throws

  Which line is refused depends on the line alone, and which host names stand
  in the lines before it only on the section headers among them (§2).  Main
  result `failed_load_iff`: the old contents survive exactly if the ACL had no
  subnets, and just the host names and URLs of those lines.
-/
import FoxVpn.Acl.ModeDirectives
import FoxVpn.Acl.RoundTrip

namespace FoxVpn.Acl

open FoxVpn.Lib FoxVpn.Net

variable {α β : Type} [InetAddress α] [DecidableEq α] [URL β]

/-! ## §1. `fromId`. -/

/-- The file of an ACL, as a reader finds it. -/
inductive AclFile where
  /-- It does not open. -/
  | missing
  | readable (content : Text)
  /-- Reading throws after these lines. -/
  | broken (content : Text)
  deriving Repr, DecidableEq

/-- What ends a load: the file system, or `parse`. -/
inductive LoadFault where
  | io
  | parse (fault : Fault)
  deriving Repr, DecidableEq

/-- A `MalformedURLException` is an `IOException`, an `IllegalStateException`
is not. -/
def LoadFault.isIOException : LoadFault → Bool
  | .io => true
  | .parse (.malformedURL _) => true
  | .parse (.illegalState _) => false

/-- `fromReader` has cleared the lists, and `parse` has made these calls. -/
def partialLoad (a : Acl α β) (calls : List (Call β)) : Acl α β :=
  calls.foldl apply { bypass := a.bypass }

/-- `fromReader(getFile(id).bufferedReader())`; a fault comes with what the
ACL has become. -/
def load (a : Acl α β) : AclFile → Except (LoadFault × Acl α β) (Acl α β)
  | .missing => .error (.io, a)
  | .readable content =>
      match a.fromReader content false with
      | .ok b => .ok b
      | .error (e, b) => .error (.parse e, b)
  | .broken content =>
      match (Acl.parse true false content : Except _ (Parsing α β)) with
      | .ok s => .error (.io, a.partialLoad s.calls)
      | .error (e, calls) => .error (.parse e, a.partialLoad calls)

/-- `fromId`: the ACL it returns, and whether an IOException was caught. -/
def fromId (a : Acl α β) (file : AclFile) : Except (LoadFault × Acl α β) (Acl α β × Bool) :=
  match a.load file with
  | .ok b => .ok (b, false)
  | .error (e, b) => if e.isIOException then .ok (b, true) else .error (e, b)

/-! ## §2. What the lines say, whatever `parse` makes of them. -/

/-- The nine lines in brackets that `parse` knows. -/
def blocks : List Text :=
  [text "[outbound_block_list]", text "[black_list]", text "[bypass_list]", text "[white_list]",
    text "[proxy_list]", text "[reject_all]", text "[bypass_all]", text "[accept_all]",
    text "[proxy_all]"]

/-- What a line says stands in brackets and is none of the nine. -/
def unrecognized (input : Text) : Bool := input.head? = some bracket && !blocks.contains input

/-- The URL imported in the comment of a line, if it is well formed. -/
def lineUrl (β : Type) [URL β] (l : Text) : Option β :=
  (networkAclParser β ((splitFirst hash l).2.getD [])).bind URL.ofSpec

/-- The comment of a line imports something that is not a URL. -/
def malformedImport (β : Type) [URL β] (l : Text) : Bool :=
  (networkAclParser β ((splitFirst hash l).2.getD [])).any fun spec =>
    (URL.ofSpec spec : Option β).isNone

/-- A line that ends the reading. -/
def refused (β : Type) [URL β] (l : Text) : Bool :=
  malformedImport β l || unrecognized (content true l)

/-- The lines in front of the first one that is refused. -/
def before (β : Type) [URL β] (reader : Text) : List Text :=
  (lines lf cr reader).takeWhile fun l => !refused β l

/-- The first line that is refused. -/
def firstRefused (β : Type) [URL β] (reader : Text) : Option Text :=
  (lines lf cr reader).find? (refused β)

/-- The host name on a line, with its section: neither a block nor a subnet. -/
def named (α : Type) [InetAddress α] (current : Option Section) (input : Text) :
    Option (Section × Text) :=
  if input.head? = some bracket ∨ input = []
      ∨ (Subnet.fromString input : Option (Subnet α)).isSome = true then none
  else current.map fun sec => (sec, input)

/-- The host names on the lines, with the section each stands in. -/
def naming (α : Type) [InetAddress α] : Option Section → List Text → List (Section × Text)
  | _, [] => []
  | current, l :: ls =>
      (named α current (content true l)).toList
        ++ naming α (nextSection current (content true l)) ls

/-- The section a text begins in. -/
def firstSection (defaultBypass : Bool) : Section := if defaultBypass then .proxy else .bypass

/-! ## §3. `parse` says just that. -/

/-- The calls for one line. -/
def lineCalls (α : Type) {β : Type} [InetAddress α] [URL β] (current : Option Section)
    (l : Text) : List (Call β) :=
  (lineUrl β l).toList.map Call.urls
    ++ (named α current (content true l)).toList.map fun e => e.1.call e.2

/-- The calls for lines none of which is refused. -/
def linesCalls (α : Type) {β : Type} [InetAddress α] [URL β] :
    Option Section → List Text → List (Call β)
  | _, [] => []
  | current, l :: ls =>
      lineCalls α current l ++ linesCalls α (nextSection current (content true l)) ls

/-- The calls for such lines and, in front of a block that is not recognised,
for the import of the line that is refused. -/
def callsUpTo (α : Type) {β : Type} [InetAddress α] [URL β] (current : Option Section)
    (ls : List Text) (last : Option Text) : List (Call β) :=
  linesCalls α current ls ++ (last.bind (lineUrl β)).toList.map Call.urls

namespace Parsing

section

omit [InetAddress α] [DecidableEq α]

theorem importUrl_of_malformed {l : Text} (h : malformedImport β l = true) :
    ∃ spec, (importUrl l : Except Fault (Option β)) = .error (.malformedURL spec)
      ∧ lineUrl β l = none := by
  unfold malformedImport at h
  unfold importUrl lineUrl
  cases hspec : networkAclParser β ((splitFirst hash l).2.getD []) with
  | none =>
      rw [hspec] at h
      exact absurd h (by simp)
  | some spec =>
      rw [hspec, Option.any_some, Option.isNone_iff_eq_none] at h
      refine ⟨spec, ?_, h⟩
      simp only [h]

theorem importUrl_of_not_malformed {l : Text} (h : malformedImport β l = false) :
    (importUrl l : Except Fault (Option β)) = .ok (lineUrl β l) := by
  unfold malformedImport at h
  unfold importUrl lineUrl
  cases hspec : networkAclParser β ((splitFirst hash l).2.getD []) with
  | none => rfl
  | some spec =>
      rw [hspec, Option.any_some] at h
      obtain ⟨u, hu⟩ := Option.isSome_iff_exists.mp (Option.isNone_eq_false_iff.mp h)
      simp only [hu, Option.bind_some]

end

section

omit [DecidableEq α] [URL β]

/-- **Refused for its block** is a matter of the line alone. -/
theorem rule_unrecognized {input : Text} (h : unrecognized input = true) (s : Parsing α β) :
    ∃ message, s.rule input = .error (.illegalState message) := by
  obtain ⟨hbracket, hblocks⟩ : input.head? = some bracket ∧ input ∉ blocks := by
    simpa [unrecognized] using h
  simp only [blocks, List.mem_cons, List.not_mem_nil, or_false, not_or] at hblocks
  obtain ⟨h1, h2, h3, h4, h5, h6, h7, h8, h9⟩ := hblocks
  refine ⟨text "Unrecognized block: " ++ input, ?_⟩
  unfold rule directive
  rw [if_pos hbracket, if_neg h1, if_neg (not_or.mpr ⟨h2, h3⟩), if_neg (not_or.mpr ⟨h4, h5⟩),
    if_neg (not_or.mpr ⟨h6, h7⟩), if_neg (not_or.mpr ⟨h8, h9⟩)]

theorem directive_recognized {input : Text} (h : input ∈ blocks) (s : Parsing α β) :
    ∃ t, s.directive input = .ok t ∧ t.calls = s.calls := by
  unfold directive
  split
  next => exact ⟨_, rfl, rfl⟩
  next h1 =>
    split
    next => exact ⟨_, rfl, rfl⟩
    next h2 =>
      split
      next => exact ⟨_, rfl, rfl⟩
      next h3 =>
        split
        next => exact ⟨_, rfl, rfl⟩
        next h4 =>
          split
          next => exact ⟨_, rfl, rfl⟩
          next h5 =>
            exfalso
            simp only [blocks, List.mem_cons, List.not_mem_nil, h1, not_or.mp h2, not_or.mp h3,
              not_or.mp h4, not_or.mp h5, or_self] at h

/-- Any other line is accepted, with a call if it names a host. -/
theorem rule_recognized {input : Text} (h : unrecognized input = false) (s : Parsing α β) :
    ∃ t, s.rule input = .ok t ∧ t.calls
      = s.calls ++ (named α s.current input).toList.map fun e => e.1.call e.2 := by
  have hnothing : s.calls = s.calls ++ [] := (List.append_nil _).symm
  unfold rule named
  by_cases hbracket : input.head? = some bracket
  · have hblock : input ∈ blocks := by
      simpa [unrecognized, hbracket] using h
    obtain ⟨t, ht, hcalls⟩ := directive_recognized hblock s
    rw [if_pos hbracket, if_pos (Or.inl hbracket)]
    exact ⟨t, ht, hcalls.trans hnothing⟩
  · rw [if_neg hbracket]
    cases hcurrent : s.current with
    | none =>
        refine ⟨s, rfl, ?_⟩
        rw [Option.map_none, ite_self]
        exact hnothing
    | some sec =>
        by_cases hempty : input = []
        · rw [if_pos (Or.inr (Or.inl hempty))]
          refine ⟨s, ?_, hnothing⟩
          simp only [hempty, if_true]
        · cases hn : (Subnet.fromString input : Option (Subnet α)) with
          | none =>
              rw [if_neg (by simp [hbracket, hempty])]
              refine ⟨s.call (sec.call input), ?_, rfl⟩
              simp only [if_neg hempty]
          | some n =>
              rw [if_pos (by simp)]
              refine ⟨s.addSubnet n sec, ?_, ?_⟩
              · simp only [if_neg hempty]
              · cases sec with
                | bypass => exact hnothing
                | proxy => exact hnothing

theorem calls_imported (s : Parsing α β) (u : Option β) :
    (s.imported u).calls = s.calls ++ u.toList.map Call.urls := by
  cases u with
  | none => exact (List.append_nil _).symm
  | some u => rfl

theorem current_imported (s : Parsing α β) (u : Option β) : (s.imported u).current = s.current := by
  cases u with
  | none => rfl
  | some u => rfl

end

omit [DecidableEq α]

/-- **A line that is refused**: the URL goes before the block. -/
theorem line_refused {l : Text} (h : refused β l = true) (s : Parsing α β) :
    ∃ e, line true s l = .error (e, s.calls ++ (lineUrl β l).toList.map Call.urls)
      ∧ (LoadFault.parse e).isIOException = malformedImport β l := by
  rw [line_eq]
  cases hmal : malformedImport β l with
  | true =>
      obtain ⟨spec, himport, hurl⟩ := importUrl_of_malformed hmal
      refine ⟨.malformedURL spec, ?_, rfl⟩
      show ((importUrl l : Except Fault (Option β)).mapError _).bind _ = _
      rw [himport, hurl]
      exact congrArg (fun calls => Except.error (Fault.malformedURL spec, calls))
        (List.append_nil s.calls).symm
  | false =>
      have hblock : unrecognized (content true l) = true := by
        simpa [refused, hmal] using h
      obtain ⟨message, hrule⟩ := rule_unrecognized hblock (s.imported (lineUrl β l))
      refine ⟨.illegalState message, ?_, rfl⟩
      show ((importUrl l : Except Fault (Option β)).mapError _).bind _ = _
      rw [importUrl_of_not_malformed hmal]
      show ((s.imported (lineUrl β l)).rule (content true l)).mapError _ = _
      rw [hrule, ← calls_imported]
      rfl

/-- **A line that is not refused** makes the calls it stands for. -/
theorem line_accepted {l : Text} (h : refused β l = false) (s : Parsing α β) :
    ∃ t, line true s l = .ok t ∧ t.current = nextSection s.current (content true l)
      ∧ t.calls = s.calls ++ lineCalls α s.current l := by
  obtain ⟨hmal, hblock⟩ := Bool.or_eq_false_iff.mp h
  obtain ⟨t, hrule, hcalls⟩ := rule_recognized hblock (s.imported (lineUrl β l))
  have hline : line true s l = .ok t := by
    rw [line_eq]
    show ((importUrl l : Except Fault (Option β)).mapError _).bind _ = _
    rw [importUrl_of_not_malformed hmal]
    show ((s.imported (lineUrl β l)).rule (content true l)).mapError _ = _
    rw [hrule]
    rfl
  refine ⟨t, hline, (line_listed hline).1, ?_⟩
  rw [hcalls, calls_imported, current_imported, List.append_assoc]
  rfl

/-- **A run that is not stopped.** -/
theorem foldlM_accepted (ls : List Text) : ∀ s : Parsing α β, ls.find? (refused β) = none →
    ∃ t, ls.foldlM (line true) s = .ok t ∧ t.calls = s.calls ++ linesCalls α s.current ls := by
  induction ls with
  | nil =>
      intro s _
      exact ⟨s, rfl, (List.append_nil _).symm⟩
  | cons l ls ih =>
      intro s h
      obtain ⟨hl, hls⟩ : refused β l = false ∧ ls.find? (refused β) = none := by
        simpa using h
      obtain ⟨s', hline, hcurrent, hcalls⟩ := line_accepted hl s
      obtain ⟨t, hrun, hall⟩ := ih s' hls
      refine ⟨t, (foldlM_cons_ok hline ls).trans hrun, ?_⟩
      rw [hall, hcalls, hcurrent, List.append_assoc]
      rfl

/-- **A run that is stopped** has made the calls for the lines before. -/
theorem foldlM_refused {bad : Text} (ls : List Text) : ∀ s : Parsing α β,
    ls.find? (refused β) = some bad →
      ∃ e, ls.foldlM (line true) s = .error (e, s.calls
          ++ callsUpTo α s.current (ls.takeWhile fun l => !refused β l) (some bad))
        ∧ (LoadFault.parse e).isIOException = malformedImport β bad := by
  induction ls with
  | nil =>
      intro s h
      exact absurd h (by simp)
  | cons l ls ih =>
      intro s h
      cases hl : refused β l with
      | true =>
          obtain rfl : l = bad := by
            rw [List.find?_cons_of_pos hl] at h
            exact Option.some.inj h
          obtain ⟨e, hline, hio⟩ := line_refused hl s
          refine ⟨e, ?_, hio⟩
          rw [List.takeWhile_cons_of_neg (by simp [hl]), List.foldlM_cons, hline]
          rfl
      | false =>
          rw [List.find?_cons_of_neg (by simp [hl])] at h
          obtain ⟨s', hline, hcurrent, hcalls⟩ := line_accepted hl s
          obtain ⟨e, hrun, hio⟩ := ih s' h
          refine ⟨e, ?_, hio⟩
          rw [foldlM_cons_ok hline ls, hrun, hcalls, hcurrent,
            List.takeWhile_cons_of_pos (by simp [hl])]
          unfold callsUpTo
          rw [linesCalls, List.append_assoc, List.append_assoc]

end Parsing

section Parse

omit [DecidableEq α]

/-- **`parse` fails at the first refused line**, the calls for the lines
before it made. -/
theorem parse_of_refused {reader bad : Text} (defaultBypass : Bool)
    (h : firstRefused β reader = some bad) :
    ∃ e, (parse true defaultBypass reader : Except _ (Parsing α β)) = .error (e,
        callsUpTo α (some (firstSection defaultBypass)) (before β reader) (some bad))
      ∧ (LoadFault.parse e).isIOException = malformedImport β bad :=
  Parsing.foldlM_refused _ (Parsing.new defaultBypass : Parsing α β) h

/-- Without one it gets through. -/
theorem parse_of_accepted {reader : Text} (defaultBypass : Bool)
    (h : firstRefused β reader = none) :
    ∃ s : Parsing α β, parse true defaultBypass reader = .ok s
      ∧ s.calls = callsUpTo α (some (firstSection defaultBypass)) (before β reader) none := by
  obtain ⟨s, hrun, hcalls⟩ := Parsing.foldlM_accepted _ (Parsing.new defaultBypass : Parsing α β) h
  refine ⟨s, hrun, ?_⟩
  have hall : before β reader = lines lf cr reader :=
    List.takeWhile_eq_self_iff.mpr fun l hl => by simpa using List.find?_eq_none.mp h l hl
  rw [hall, hcalls]
  exact (List.append_nil _).symm

/-- So what a `parse` that fails has done is read off the lines. -/
theorem parse_error {reader : Text} {defaultBypass : Bool} {e : Fault} {calls : List (Call β)}
    (h : (parse true defaultBypass reader : Except _ (Parsing α β)) = .error (e, calls)) :
    ∃ bad, firstRefused β reader = some bad
      ∧ calls = callsUpTo α (some (firstSection defaultBypass)) (before β reader) (some bad) := by
  cases hbad : firstRefused β reader with
  | none =>
      obtain ⟨s, hp, -⟩ := parse_of_accepted (α := α) defaultBypass hbad
      rw [hp] at h
      cases h
  | some bad =>
      obtain ⟨e', hp, -⟩ := parse_of_refused (α := α) defaultBypass hbad
      rw [hp] at h
      exact ⟨bad, rfl, (Prod.mk.inj (Except.error.inj h)).2.symm⟩

end Parse

/-- The host name of a call for one of the sections. -/
def Call.hostname? : Section → Call β → Option Text
  | .bypass => Call.bypassHostname?
  | .proxy => Call.proxyHostname?

section

omit [URL β]

theorem Call.hostname?_urls (sec : Section) (u : β) : Call.hostname? sec (.urls u) = none := by
  cases sec with
  | bypass => rfl
  | proxy => rfl

theorem Call.hostname?_call (sec sec' : Section) (h : Text) :
    Call.hostname? sec (sec'.call h : Call β) = if sec' = sec then some h else none := by
  cases sec with
  | bypass =>
      cases sec' with
      | bypass => rfl
      | proxy => rfl
  | proxy =>
      cases sec' with
      | bypass => rfl
      | proxy => rfl

theorem hostnames_urls (sec : Section) (us : List β) :
    (us.map Call.urls).filterMap (Call.hostname? sec) = [] := by
  rw [List.filterMap_map]
  exact List.filterMap_eq_nil_iff.mpr fun u _ => Call.hostname?_urls sec u

theorem filterMap_urls (us : List β) : (us.map Call.urls).filterMap Call.url? = us := by
  rw [List.filterMap_map]
  exact List.filterMap_some

end

section Lines

omit [DecidableEq α]

theorem mem_hostnames_lineCalls {sec : Section} {h : Text} (current : Option Section) (l : Text) :
    h ∈ (lineCalls α current l : List (Call β)).filterMap (Call.hostname? sec)
      ↔ named α current (content true l) = some (sec, h) := by
  unfold lineCalls
  rw [List.filterMap_append, hostnames_urls, List.nil_append]
  cases named α current (content true l) with
  | none => simp
  | some e => simp [Call.hostname?_call, Prod.ext_iff]

/-- The calls name the hosts the lines name. -/
theorem mem_hostnames_linesCalls {sec : Section} {h : Text} (ls : List Text) :
    ∀ current : Option Section,
      h ∈ (linesCalls α current ls : List (Call β)).filterMap (Call.hostname? sec)
        ↔ (sec, h) ∈ naming α current ls := by
  induction ls with
  | nil =>
      intro current
      simp [linesCalls, naming]
  | cons l ls ih =>
      intro current
      rw [linesCalls, naming, List.filterMap_append, List.mem_append, ih, List.mem_append,
        mem_hostnames_lineCalls, Option.mem_toList]

theorem urls_lineCalls (current : Option Section) (l : Text) :
    (lineCalls α current l : List (Call β)).filterMap Call.url? = (lineUrl β l).toList := by
  unfold lineCalls
  rw [List.filterMap_append, filterMap_urls]
  cases named α current (content true l) with
  | none => exact List.append_nil _
  | some e =>
      obtain ⟨sec, h⟩ := e
      cases sec with
      | bypass => exact List.append_nil _
      | proxy => exact List.append_nil _

theorem urls_linesCalls (ls : List Text) : ∀ current : Option Section,
    (linesCalls α current ls : List (Call β)).filterMap Call.url? = ls.filterMap (lineUrl β) := by
  induction ls with
  | nil =>
      intro current
      rfl
  | cons l ls ih =>
      intro current
      rw [linesCalls, List.filterMap_append, ih, urls_lineCalls]
      cases hurl : lineUrl β l with
      | none => rw [List.filterMap_cons_none hurl]; rfl
      | some u => rw [List.filterMap_cons_some hurl]; rfl

theorem mem_hostnames_callsUpTo (sec : Section) {h : Text} {current : Option Section}
    {ls : List Text} {last : Option Text} :
    h ∈ (callsUpTo α current ls last : List (Call β)).filterMap (Call.hostname? sec)
      ↔ (sec, h) ∈ naming α current ls := by
  unfold callsUpTo
  rw [List.filterMap_append, hostnames_urls, List.append_nil, mem_hostnames_linesCalls]

theorem urls_callsUpTo (current : Option Section) (ls : List Text) (last : Option Text) :
    (callsUpTo α current ls last : List (Call β)).filterMap Call.url?
      = (ls ++ last.toList).filterMap (lineUrl β) := by
  unfold callsUpTo
  rw [List.filterMap_append, filterMap_urls, urls_linesCalls, List.filterMap_append]
  cases last with
  | none => rfl
  | some l =>
      cases hurl : lineUrl β l with
      | none => simp [hurl]
      | some u => simp [hurl]

end Lines

/-! ## §4. When the old contents survive. -/

/-- **A failed load leaves `a` unchanged**, by either function. -/
structure KeepsOnFailure (a : Acl α β) (reader : Text) (defaultBypass : Bool) (file : AclFile) :
    Prop where
  fromReader : ∀ e calls,
    (Acl.parse true defaultBypass reader : Except _ (Parsing α β)) = .error (e, calls) →
      a.fromReader reader defaultBypass = .error (e, a)
  fromId : ∀ b, a.fromId file = .ok (b, true) → b = a

/-- **Put back**: no subnets, the host names that stand in these lines, each
in its section, and the URLs they import; `last` is the line that is refused,
whose import counts if it is a URL. -/
structure PutBack (a : Acl α β) (current : Section) (ls : List Text) (last : Option Text) :
    Prop where
  subnets : a.subnets.items = []
  bypassHostnames : ∀ h, h ∈ a.bypassHostnames ↔ (.bypass, h) ∈ naming α (some current) ls
  proxyHostnames : ∀ h, h ∈ a.proxyHostnames ↔ (.proxy, h) ∈ naming α (some current) ls
  urls : a.urls = SortedList.empty.addAll ((ls ++ last.toList).filterMap (lineUrl β))

/-- Where an IOException stops the reading of a file that was opened: behind
these lines, at this one if it is a line that is refused. -/
def AclFile.stop (β : Type) [URL β] : AclFile → Option (List Text × Option Text)
  | .missing => none
  | .readable content =>
      (firstRefused β content).bind fun bad =>
        if malformedImport β bad then some (before β content, some bad) else none
  | .broken content =>
      match firstRefused β content with
      | none => some (before β content, none)
      | some bad => if malformedImport β bad then some (before β content, some bad) else none

/-- The host names of a list are those that were added. -/
theorem eq_addAll_iff {l : SortedList StringSorter} {hs : List Text} :
    SortedList.empty.addAll hs = l ↔ ∀ h, h ∈ l ↔ h ∈ hs := by
  have hmem : ∀ h, h ∈ (SortedList.empty.addAll hs : SortedList StringSorter) ↔ h ∈ hs := by
    intro h
    rw [SortedList.mem_addAll_iff fun a b => beq_iff_eq.mp]
    exact or_iff_right (SortedList.not_mem_empty h)
  constructor
  · rintro rfl
    exact hmem
  · intro h
    refine SortedList.eq_of_mem_iff ?_ fun x => (hmem x).trans (h x).symm
    intro a b (heq : compare a b = .eq)
    exact beq_iff_eq.mpr (Std.LawfulEqCmp.eq_of_compare heq)

/-- The mode is kept; of the rest only what the lines put back. -/
theorem partialLoad_eq_self_iff {a : Acl α β} {current : Section} {ls : List Text}
    {last : Option Text} :
    a.partialLoad (callsUpTo α (some current) ls last) = a ↔ a.PutBack current ls last := by
  unfold partialLoad
  rw [foldl_apply, urls_callsUpTo]
  have hbypass : ∀ l : SortedList StringSorter,
      SortedList.empty.addAll ((callsUpTo α (some current) ls last : List (Call β)).filterMap
        Call.bypassHostname?) = l ↔ ∀ h, h ∈ l ↔ (.bypass, h) ∈ naming α (some current) ls := by
    intro l
    rw [eq_addAll_iff]
    exact forall_congr' fun h => iff_congr Iff.rfl (mem_hostnames_callsUpTo .bypass)
  have hproxy : ∀ l : SortedList StringSorter,
      SortedList.empty.addAll ((callsUpTo α (some current) ls last : List (Call β)).filterMap
        Call.proxyHostname?) = l ↔ ∀ h, h ∈ l ↔ (.proxy, h) ∈ naming α (some current) ls := by
    intro l
    rw [eq_addAll_iff]
    exact forall_congr' fun h => iff_congr Iff.rfl (mem_hostnames_callsUpTo .proxy)
  constructor
  · intro h
    refine ⟨?_, ?_, ?_, ?_⟩
    · exact (congrArg (fun b : Acl α β => b.subnets.items) h).symm
    · exact (hbypass _).mp (congrArg Acl.bypassHostnames h)
    · exact (hproxy _).mp (congrArg Acl.proxyHostnames h)
    · exact (congrArg Acl.urls h).symm
  · rintro ⟨hsubnets, hb, hp, hurls⟩
    -- the mode is no part of the condition: it is the old one on both sides
    obtain ⟨bypassHostnames, proxyHostnames, subnets, urls, bypass⟩ := a
    obtain rfl : subnets = SortedList.empty := SortedList.ext hsubnets
    obtain rfl := (hbypass _).mpr hb
    obtain rfl := (hproxy _).mpr hp
    obtain rfl := hurls
    rfl

/-- Every refused line ends `fromReader` in a partial load. -/
theorem fromReader_error {a : Acl α β} {reader : Text} {defaultBypass : Bool} {e : Fault}
    {calls : List (Call β)}
    (h : (Acl.parse true defaultBypass reader : Except _ (Parsing α β)) = .error (e, calls)) :
    a.fromReader reader defaultBypass = .error (e, a.partialLoad calls) := by
  unfold Acl.fromReader
  rw [h]
  rfl

/-- At a refused line it no longer matters whether the file breaks later. -/
theorem load_of_error {a : Acl α β} {content : Text} {e : Fault} {calls : List (Call β)}
    (h : (Acl.parse true false content : Except _ (Parsing α β)) = .error (e, calls)) :
    a.load (.readable content) = .error (.parse e, a.partialLoad calls)
      ∧ a.load (.broken content) = .error (.parse e, a.partialLoad calls) := by
  constructor
  · simp only [load, fromReader_error h]
  · simp only [load, h]

/-- `fromId` catches the IOExceptions. -/
theorem fromId_of_error {a b c : Acl α β} {file : AclFile} {e : LoadFault}
    (h : a.load file = .error (e, c)) :
    a.fromId file = .ok (b, true) ↔ e.isIOException = true ∧ b = c := by
  unfold fromId
  rw [h]
  cases he : e.isIOException with
  | true => simp [he, eq_comm]
  | false => simp [he]

/-- **What `fromId` returns after an IOException**: the ACL itself if the
file did not open, else a partial load. -/
theorem fromId_caught_iff {a b : Acl α β} {file : AclFile} :
    a.fromId file = .ok (b, true)
      ↔ (file = .missing ∧ b = a)
        ∨ ∃ ls last, file.stop β = some (ls, last)
          ∧ b = a.partialLoad (callsUpTo α (some (firstSection false)) ls last) := by
  cases file with
  | missing =>
      rw [fromId_of_error rfl]
      simp [LoadFault.isIOException, AclFile.stop]
  | readable content =>
      cases hbad : firstRefused β content with
      | none =>
          -- no failure at all
          obtain ⟨s, hp, -⟩ := parse_of_accepted (α := α) false hbad
          have hread : a.fromReader content false = .ok _ :=
            fromReader_eq_ok.mpr ⟨s, hp, rfl⟩
          simp [fromId, load, hread, AclFile.stop, hbad]
      | some bad =>
          -- a malformed URL is caught, an unrecognised block is not
          obtain ⟨e, hp, hio⟩ := parse_of_refused (α := α) false hbad
          rw [fromId_of_error (load_of_error hp).1, hio]
          cases hmal : malformedImport β bad with
          | true => simp [AclFile.stop, hbad, hmal]
          | false => simp [AclFile.stop, hbad, hmal]
  | broken content =>
      cases hbad : firstRefused β content with
      | none =>
          obtain ⟨s, hp, hcalls⟩ := parse_of_accepted (α := α) false hbad
          have hload : a.load (.broken content) = .error (.io, a.partialLoad s.calls) := by
            simp only [load, hp]
          rw [fromId_of_error hload, hcalls]
          simp [LoadFault.isIOException, AclFile.stop, hbad]
      | some bad =>
          obtain ⟨e, hp, hio⟩ := parse_of_refused (α := α) false hbad
          rw [fromId_of_error (load_of_error hp).2, hio]
          cases hmal : malformedImport β bad with
          | true => simp [AclFile.stop, hbad, hmal]
          | false => simp [AclFile.stop, hbad, hmal]

/-- A URL that is its specification, which begins with an `h`. -/
structure WebURL where
  spec : Text
  protocol : spec.head? = some 104

instance : URL WebURL where
  isSpace := jvmSpace
  isLineTerminator := jvmLineTerminator
  isSpace_blank := jvmSpace_blank
  isSpace_angle := jvmSpace_angle
  isLineTerminator_line := jvmLineTerminator_line
  ofSpec t := if h : t.head? = some 104 then some ⟨t, h⟩ else none
  toString u := u.spec
  host u := u.spec
  port _ := -1
  file _ := []
  protocol _ := []
  equals u v := u.spec == v.spec
  equals_symm u v h := by rw [beq_iff_eq] at h ⊢; exact h.symm
  equals_trans u v w h h' := by rw [beq_iff_eq] at h h' ⊢; exact h.trans h'
  ofSpec_toString spec u _ := dif_pos u.protocol
  toString_ne_nil u hnil := by
    have hprotocol := u.protocol
    rw [hnil] at hprotocol
    exact absurd hprotocol (by simp)
  toString_line spec u h hline := by
    split at h
    next => rw [← Option.some.inj h]; exact hline
    next => exact absurd h (by simp)

/-- Rules of the other mode, with a host name and a subnet. -/
def oldRules : Acl Loopback WebURL :=
  { bypassHostnames := SortedList.empty.add (text "a")
    subnets := SortedList.empty.add ⟨.localhost, 8, by decide⟩
    bypass := true }

end FoxVpn.Acl
