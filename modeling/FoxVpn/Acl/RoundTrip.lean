/-
  FoxVpn.Acl.RoundTrip
  ────────────────────
  **WHAT IS PRINTED IS READ BACK.**

  `toString` prints subnets and host names into one list, and every line is
  classified again when it is read: as a directive, a subnet, a host name,
  an import.  Nothing that the parser has ever accepted is ambiguous, and
  this is what `WellFormed` says of an ACL:

      host name    not empty, trimmed, no `#`, no end of line, does not
                   begin with `[`, does not parse as a subnet
      subnet       of an address that has been parsed
      url          of a specification on one line

  `fromReader`, `fromAcl` and `flatten` give well-formed ACLs
  (`Obtained.wellFormed`), and a well-formed ACL survives the round trip
  (`fromReader_toString`).
-/
import FoxVpn.Acl.Acl

namespace FoxVpn.Acl

open FoxVpn.Lib FoxVpn.Net

variable {α β : Type} [InetAddress α]

/-! ## §1. Well-formed rules. -/

variable (α) in
/-- A host name as `parse` passes it on. -/
structure Hostname (h : Text) : Prop where
  ne_nil : h ≠ []
  hash : hash ∉ h
  line : lf ∉ h ∧ cr ∉ h
  trimmed : Trimmed isWhitespace h
  bracket : h.head? ≠ some bracket
  subnet : (Subnet.fromString h : Option (Subnet α)) = none

/-- The subnet has been read from a text. -/
def Parsed (n : Subnet α) : Prop := ∃ t, InetAddress.parseNumericAddress t = some n.address

/-- The URL has been read from a line. -/
def Importable [URL β] (u : β) : Prop :=
  ∃ spec, URL.ofSpec spec = some u ∧ ∀ c ∈ spec, URL.isLineTerminator β c = false

/-! ## §2. What the parser accepts. -/

namespace Parsing

/-- A directive changes the mode or the section, nothing else. -/
theorem directive_frame {s s' : Parsing α β} {input : Text} (h : s.directive input = .ok s') :
    s'.calls = s.calls ∧ s'.bypassSubnets = s.bypassSubnets
      ∧ s'.proxySubnets = s.proxySubnets := by
  unfold directive at h
  repeat' split at h
  all_goals cases h
  all_goals exact ⟨rfl, rfl, rfl⟩

end Parsing

variable [URL β]

/-- A call with something well-formed. -/
def Call.Ok (α : Type) [InetAddress α] : Call β → Prop
  | .bypassHostnames h => Hostname α h
  | .proxyHostnames h => Hostname α h
  | .urls u => Importable u

structure Parsing.Ok (s : Parsing α β) : Prop where
  calls : ∀ c ∈ s.calls, c.Ok α
  bypassSubnets : ∀ n ∈ s.bypassSubnets, Parsed n
  proxySubnets : ∀ n ∈ s.proxySubnets, Parsed n

namespace Parsing

theorem Ok.call {s : Parsing α β} (h : s.Ok) {c : Call β} (hc : c.Ok α) : (s.call c).Ok where
  calls c' hc' := by
    rcases List.mem_append.mp hc' with hc' | hc'
    · exact h.calls c' hc'
    · rw [List.mem_singleton.mp hc']
      exact hc
  bypassSubnets := h.bypassSubnets
  proxySubnets := h.proxySubnets

theorem Ok.addSubnet {s : Parsing α β} (h : s.Ok) {n : Subnet α} (hn : Parsed n) (sec : Section) :
    (s.addSubnet n sec).Ok := by
  have hmem : ∀ {l : List (Subnet α)}, (∀ m ∈ l, Parsed m) → ∀ m ∈ l ++ [n], Parsed m := by
    intro l hl m hm
    rcases List.mem_append.mp hm with hm | hm
    · exact hl m hm
    · rw [List.mem_singleton.mp hm]
      exact hn
  cases sec with
  | bypass => exact ⟨h.calls, hmem h.bypassSubnets, h.proxySubnets⟩
  | proxy => exact ⟨h.calls, h.bypassSubnets, hmem h.proxySubnets⟩

theorem rule_ok {s s' : Parsing α β} {input : Text} (h : s.Ok) (hhash : hash ∉ input)
    (hline : lf ∉ input ∧ cr ∉ input) (htrim : Trimmed isWhitespace input)
    (hs : s.rule input = .ok s') : s'.Ok := by
  unfold rule at hs
  split at hs
  next =>
    obtain ⟨hc, hb, hp⟩ := directive_frame hs
    exact ⟨hc ▸ h.calls, hb ▸ h.bypassSubnets, hp ▸ h.proxySubnets⟩
  next hbracket =>
    split at hs
    next => exact Except.ok.inj hs ▸ h
    next sec _ =>
      split at hs
      next => exact Except.ok.inj hs ▸ h
      next hne =>
        split at hs
        next hnone =>
          rw [← Except.ok.inj hs]
          refine h.call ?_
          have hok : Hostname α input := ⟨hne, hhash, hline, htrim, hbracket, hnone⟩
          cases sec <;> exact hok
        next n hn =>
          rw [← Except.ok.inj hs]
          exact h.addSubnet (Subnet.address_of_fromString hn) sec

/-- The group of the import pattern is on one line. -/
theorem networkAclParser_line {t spec : Text} (h : networkAclParser β t = some spec) :
    ∀ c ∈ spec, URL.isLineTerminator β c = false := by
  unfold networkAclParser at h
  split at h
  next =>
    split at h
    next => exact absurd h (by simp)
    next =>
      dsimp only at h
      split at h
      next hcond =>
        rw [← Option.some.inj h]
        intro c hc
        have := List.all_eq_true.mp hcond.2.2.2 c hc
        simpa using this
      next => exact absurd h (by simp)
  next => exact absurd h (by simp)

theorem importUrl_importable {l : Text} {u : β} (h : importUrl l = .ok (some u)) :
    Importable u := by
  unfold importUrl at h
  split at h
  next => exact absurd h (by simp)
  next spec hspec =>
    split at h
    next => exact absurd h (by simp)
    next v hv =>
      have huv : v = u := Option.some.inj (Except.ok.inj h)
      rw [← huv]
      exact ⟨spec, hv, networkAclParser_line hspec⟩

/-- **One line**: what it adds is well-formed. -/
theorem line_ok {s s' : Parsing α β} {l : Text} (h : s.Ok) (hline : lf ∉ l ∧ cr ∉ l)
    (hs : Parsing.line true s l = .ok s') : s'.Ok := by
  -- the rule of the line, for either state before it
  have hrule : ∀ t : Parsing α β, t.Ok →
      t.rule (trim isWhitespace (splitFirst hash l).1) = .ok s' → s'.Ok := by
    intro t ht hr
    have hmem : ∀ c, c ∈ trim isWhitespace (splitFirst hash l).1 → c ∈ (splitFirst hash l).1 :=
      fun c hc => mem_of_mem_trim hc
    refine rule_ok ht (fun hc => not_mem_splitFirst hash l (hmem _ hc)) ⟨?_, ?_⟩
      (trimmed_trim _ _) hr
    · exact fun hc => hline.1 (mem_of_mem_splitFirst hash l (hmem _ hc))
    · exact fun hc => hline.2 (mem_of_mem_splitFirst hash l (hmem _ hc))
  unfold Parsing.line at hs
  rw [if_pos rfl] at hs
  split at hs
  next => exact absurd hs (by simp)
  next u hu =>
    cases u with
    | none => exact hrule s h (mapError_eq_ok hs)
    | some u =>
        have hu' : (Call.urls u).Ok α := importUrl_importable hu
        exact hrule _ (h.call hu') (mapError_eq_ok hs)

theorem foldlM_ok : ∀ (ls : List Text) (s s' : Parsing α β), (∀ l ∈ ls, lf ∉ l ∧ cr ∉ l) →
    s.Ok → ls.foldlM (Parsing.line true) s = .ok s' → s'.Ok
  | [], s, s', _, h, hs => Except.ok.inj hs ▸ h
  | l :: ls, s, s', hls, h, hs => by
      obtain ⟨s₁, hl, hrest⟩ := foldlM_cons_eq_ok hs
      exact foldlM_ok ls s₁ s' (fun l' hl' => hls l' (List.mem_cons_of_mem _ hl'))
        (line_ok h (hls l List.mem_cons_self) hl) hrest

end Parsing

theorem parse_ok {defaultBypass : Bool} {reader : Text} {s : Parsing α β}
    (h : parse true defaultBypass reader = .ok s) : s.Ok :=
  Parsing.foldlM_ok _ (Parsing.new defaultBypass) s (fun _ hl => not_mem_of_mem_lines hl)
    ⟨by simp [Parsing.new], by simp [Parsing.new], by simp [Parsing.new]⟩ h

def Call.bypassHostname? : Call β → Option Text
  | .bypassHostnames h => some h
  | _ => none

def Call.proxyHostname? : Call β → Option Text
  | .proxyHostnames h => some h
  | _ => none

def Call.url? : Call β → Option β
  | .urls u => some u
  | _ => none

theorem filterMap_ok {s : Parsing α β} (h : s.Ok) {γ : Type} {f : Call β → Option γ} {p : γ → Prop}
    (hf : ∀ c x, c.Ok α → f c = some x → p x) : ∀ x ∈ s.calls.filterMap f, p x := by
  intro x hx
  obtain ⟨c, hc, hfc⟩ := List.mem_filterMap.mp hx
  exact hf c x (h.calls c hc) hfc

/-! ## §3. Well-formed ACLs. -/

variable [DecidableEq α]

structure WellFormed (a : Acl α β) : Prop where
  bypassHostnames : ∀ h ∈ a.bypassHostnames, Hostname α h
  proxyHostnames : ∀ h ∈ a.proxyHostnames, Hostname α h
  subnets : ∀ n ∈ a.subnets, Parsed n
  urls : ∀ u ∈ a.urls, Importable u

/-- Each list takes the calls of its own, in their order. -/
theorem foldl_apply : ∀ (calls : List (Call β)) (a : Acl α β), calls.foldl apply a =
    { a with
      bypassHostnames := a.bypassHostnames.addAll (calls.filterMap Call.bypassHostname?)
      proxyHostnames := a.proxyHostnames.addAll (calls.filterMap Call.proxyHostname?)
      urls := a.urls.addAll (calls.filterMap Call.url?) }
  | [], _ => rfl
  | c :: calls, a => by
      rw [List.foldl_cons, foldl_apply calls]
      cases c <;> rfl

/-- `fromReader` in terms of what `parse` has found. -/
theorem fromReader_eq_ok {a b : Acl α β} {reader : Text} {defaultBypass : Bool} :
    a.fromReader reader defaultBypass = .ok b ↔ ∃ s : Parsing α β,
      parse true defaultBypass reader = .ok s
        ∧ b = { bypassHostnames := SortedList.empty.addAll (s.calls.filterMap Call.bypassHostname?)
                proxyHostnames := SortedList.empty.addAll (s.calls.filterMap Call.proxyHostname?)
                urls := SortedList.empty.addAll (s.calls.filterMap Call.url?)
                subnets := SortedList.empty.addAll s.subnets
                bypass := s.bypass } := by
  unfold fromReader
  cases hp : (parse true defaultBypass reader : Except _ (Parsing α β)) with
  | error e =>
      constructor
      · intro h
        exact absurd h (by simp)
      · rintro ⟨s, hs, _⟩
        exact absurd hs (by simp)
  | ok s =>
      simp only [Except.ok.injEq, exists_eq_left', foldl_apply]
      exact eq_comm

theorem fromReader_wellFormed {a b : Acl α β} {reader : Text} {defaultBypass : Bool}
    (h : a.fromReader reader defaultBypass = .ok b) : b.WellFormed := by
  obtain ⟨s, hs, rfl⟩ := fromReader_eq_ok.mp h
  have hok := parse_ok hs
  refine ⟨SortedList.forall_mem_addAll_empty (filterMap_ok hok ?_),
    SortedList.forall_mem_addAll_empty (filterMap_ok hok ?_),
    SortedList.forall_mem_addAll_empty ?_,
    SortedList.forall_mem_addAll_empty (filterMap_ok hok ?_)⟩
  · intro c x hc hx
    cases c with
    | bypassHostnames h => exact Option.some.inj hx ▸ hc
    | proxyHostnames h => exact absurd hx (by simp [Call.bypassHostname?])
    | urls u => exact absurd hx (by simp [Call.bypassHostname?])
  · intro c x hc hx
    cases c with
    | bypassHostnames h => exact absurd hx (by simp [Call.proxyHostname?])
    | proxyHostnames h => exact Option.some.inj hx ▸ hc
    | urls u => exact absurd hx (by simp [Call.proxyHostname?])
  · unfold Parsing.subnets
    split
    next => exact hok.proxySubnets
    next => exact hok.bypassSubnets
  · intro c x hc hx
    cases c with
    | bypassHostnames h => exact absurd hx (by simp [Call.url?])
    | proxyHostnames h => exact absurd hx (by simp [Call.url?])
    | urls u => exact Option.some.inj hx ▸ hc

theorem fromAcl_wellFormed (a : Acl α β) {other : Acl α β} (h : other.WellFormed) :
    (a.fromAcl other).WellFormed :=
  ⟨SortedList.forall_mem_addAll_empty h.bypassHostnames,
    SortedList.forall_mem_addAll_empty h.proxyHostnames,
    SortedList.forall_mem_addAll_empty h.subnets, SortedList.forall_mem_addAll_empty h.urls⟩

theorem merge_wellFormed {a child : Acl α β} (h : a.WellFormed) (hc : child.WellFormed) :
    (a.merge child).WellFormed := by
  refine ⟨SortedList.forall_mem_addAll h.bypassHostnames hc.bypassHostnames,
    SortedList.forall_mem_addAll h.proxyHostnames hc.proxyHostnames,
    SortedList.forall_mem_addAll h.subnets ?_, h.urls⟩
  split
  next => exact SortedList.forall_mem_empty
  next => exact hc.subnets

theorem foldl_merge_wellFormed : ∀ (children : List (Acl α β)) {a : Acl α β}, a.WellFormed →
    (∀ c ∈ children, c.WellFormed) → (children.foldl merge a).WellFormed
  | [], _, h, _ => h
  | c :: children, _, h, hc =>
      foldl_merge_wellFormed children (merge_wellFormed h (hc c List.mem_cons_self))
        fun c' hc' => hc c' (List.mem_cons_of_mem _ hc')

/-- The imports are read, so they are well-formed. -/
theorem flattenTo_wellFormed (connect : β → Option Text) : ∀ (n : Nat) {a b : Acl α β},
    a.WellFormed → flattenTo connect n a = .ok b → b.WellFormed
  | 0, a, b, h, hb => by
      rw [← Except.ok.inj hb]
      exact { h with urls := SortedList.forall_mem_empty }
  | n + 1, a, b, h, hb => by
      obtain ⟨children, hchildren, rfl⟩ := flattenTo_succ hb
      refine { foldl_merge_wellFormed children h fun c hc => ?_ with
        urls := SortedList.forall_mem_empty }
      obtain ⟨_, _, c₀, himport, hflat⟩ := hchildren.of_child c hc
      obtain ⟨_, _, hread⟩ := importAcl_eq_ok.mp himport
      exact flattenTo_wellFormed connect n (fromReader_wellFormed hread) hflat

/-- An ACL that has been read, copied or flattened. -/
inductive Obtained : Acl α β → Prop
  | fromReader {a b : Acl α β} {reader : Text} {defaultBypass : Bool}
      (h : a.fromReader reader defaultBypass = .ok b) : Obtained b
  | fromAcl (a : Acl α β) {other : Acl α β} (h : Obtained other) : Obtained (a.fromAcl other)
  | flatten {a b : Acl α β} {depth : Int} {connect : β → Option Text} (h : Obtained a)
      (hb : a.flatten depth connect = .ok b) : Obtained b

theorem Obtained.wellFormed {a : Acl α β} (h : Obtained a) : a.WellFormed := by
  induction h with
  | fromReader h => exact fromReader_wellFormed h
  | fromAcl a _ ih => exact fromAcl_wellFormed a ih
  | flatten _ hb ih => exact flattenTo_wellFormed _ _ ih hb

/-! ## §4. One printed line. -/

namespace Parsing

omit [DecidableEq α]

/-- A line without a comment is its rule. -/
theorem line_of_rule {s : Parsing α β} {l : Text} (hhash : hash ∉ l)
    (htrim : Trimmed isWhitespace l) :
    Parsing.line true s l = (s.rule l).mapError fun e => (e, s.calls) := by
  unfold Parsing.line importUrl
  rw [splitFirst_of_not_mem hash l hhash, trim_eq_self htrim]
  rfl

theorem line_hostname {s : Parsing α β} {sec : Section} (hs : s.current = some sec) {h : Text}
    (hh : Hostname α h) : Parsing.line true s h = .ok (s.call (sec.call h)) := by
  rw [line_of_rule hh.hash hh.trimmed]
  unfold rule
  rw [if_neg hh.bracket, hs]
  simp only [if_neg hh.ne_nil, hh.subnet]
  rfl

theorem line_subnet {s : Parsing α β} {sec : Section} (hs : s.current = some sec) {n : Subnet α}
    (hn : Parsed n) : Parsing.line true s n.toString = .ok (s.addSubnet n sec) := by
  -- slashes and plain characters: no comment, no space, no bracket
  have hplain : ∀ c ∈ n.toString, c ≠ hash ∧ c ≠ bracket ∧ isWhitespace c = false := by
    intro c hc
    rcases Subnet.mem_toString hc with rfl | ⟨h1, _, h3, h4⟩
    · decide
    · exact ⟨h1, h3, h4⟩
  have htrim : Trimmed isWhitespace n.toString :=
    ⟨fun c hc => (hplain c (List.mem_of_mem_head? hc)).2.2,
      fun c hc => (hplain c (List.mem_of_mem_getLast? hc)).2.2⟩
  have hne : n.toString ≠ [] := by
    intro hnil
    have hread := Subnet.fromString_toString hn
    rw [hnil] at hread
    simp [Subnet.fromString, splitFirst, InetAddress.parse_nil] at hread
  have hbracket : n.toString.head? ≠ some bracket := fun hc =>
    (hplain _ (List.mem_of_mem_head? hc)).2.1 rfl
  rw [line_of_rule (fun hc => (hplain _ hc).1 rfl) htrim]
  unfold rule
  rw [if_neg hbracket, hs]
  simp only [if_neg hne, Subnet.fromString_toString hn]
  rfl

end Parsing

omit [DecidableEq α] [InetAddress α] in
/-- The import pattern gives the printed URL back: the last `>` is the one
of the printer. -/
theorem networkAclParser_print {t : Text} (hne : t ≠ [])
    (hline : ∀ c ∈ t, URL.isLineTerminator β c = false) :
    networkAclParser β (text "IMPORT_URL <" ++ t ++ text ">") = some t := by
  obtain ⟨hopen, hclose⟩ := URL.isSpace_angle (β := β)
  have hblank : ((text "IMPORT_URL <" ++ t ++ text ">").drop 10).dropWhile (URL.isSpace β)
      = 60 :: (t ++ [62]) := by
    show (32 :: 60 :: (t ++ [62])).dropWhile _ = _
    rw [List.dropWhile_cons_of_pos URL.isSpace_blank, List.dropWhile_cons_of_neg (by simp [hopen])]
  have hdrop : (t ++ [62]).rdropWhile (URL.isSpace β) = t ++ [62] :=
    List.rdropWhile_concat_neg _ t 62 (by simp [hclose])
  have hhead : (text "IMPORT_URL").isPrefixOf (text "IMPORT_URL <" ++ t ++ text ">") = true :=
    List.isPrefixOf_iff_prefix.mpr ⟨_, rfl⟩
  unfold networkAclParser
  rw [if_pos hhead, hblank]
  dsimp only
  rw [hdrop, List.dropLast_concat, List.getLast?_concat, if_pos]
  refine ⟨rfl, rfl, hne, List.all_eq_true.mpr fun c hc => ?_⟩
  rw [hline c hc]
  rfl

/-- The line of an import. -/
def urlLine (u : β) : Text := text "#IMPORT_URL <" ++ URL.toString u ++ text ">"

omit [DecidableEq α] in
theorem Parsing.line_url {s : Parsing α β} {u : β} (hu : Importable u) :
    Parsing.line true s (urlLine u) = .ok (s.call (.urls u)) := by
  obtain ⟨spec, hspec, hline⟩ := hu
  have himport : importUrl (urlLine u) = .ok (some u) := by
    unfold importUrl
    have hsplit : splitFirst hash (urlLine u)
        = ([], some (text "IMPORT_URL <" ++ URL.toString u ++ text ">")) :=
      splitFirst_append hash [] _ (by simp)
    rw [hsplit]
    simp only [Option.getD_some, networkAclParser_print (URL.toString_ne_nil u)
      (URL.toString_line spec u hspec hline), URL.ofSpec_toString spec u hspec]
  have hrule : (s.call (.urls u)).rule [] = .ok (s.call (.urls u)) := by
    unfold rule
    rw [if_neg (by simp)]
    split
    next => rfl
    next => rw [if_pos rfl]
  unfold Parsing.line
  rw [if_pos rfl, himport]
  show ((s.call (.urls u)).rule []).mapError _ = _
  rw [hrule]
  rfl

/-! ## §5. The printed lists. -/

namespace Parsing

omit [DecidableEq α]

/-- A section with its subnets and host names has been read. -/
def fill (s : Parsing α β) (ns : List (Subnet α)) (hs : List Text) : Section → Parsing α β
  | .bypass =>
      { s with bypassSubnets := s.bypassSubnets ++ ns, calls := s.calls ++ hs.map .bypassHostnames }
  | .proxy =>
      { s with proxySubnets := s.proxySubnets ++ ns, calls := s.calls ++ hs.map .proxyHostnames }

theorem foldlM_hostnames {sec : Section} : ∀ (hs : List Text) {s : Parsing α β},
    s.current = some sec → (∀ h ∈ hs, Hostname α h) →
    hs.foldlM (Parsing.line true) s = .ok (s.fill [] hs sec)
  | [], s, _, _ => by cases sec <;> simp [fill, pure, Except.pure]
  | h :: hs, s, hcur, hok => by
      rw [foldlM_cons_ok (line_hostname hcur (hok h List.mem_cons_self)),
        foldlM_hostnames (s := s.call (sec.call h)) hs hcur fun h' hh' =>
          hok h' (List.mem_cons_of_mem _ hh')]
      cases sec <;> simp [fill, call, Section.call]

theorem foldlM_rules {sec : Section} {hs : List Text} (hhs : ∀ h ∈ hs, Hostname α h) :
    ∀ (ns : List (Subnet α)) {s : Parsing α β}, s.current = some sec → (∀ n ∈ ns, Parsed n) →
    (ns.map Subnet.toString ++ hs).foldlM (Parsing.line true) s = .ok (s.fill ns hs sec)
  | [], s, hcur, _ => foldlM_hostnames hs hcur hhs
  | n :: ns, s, hcur, hok => by
      have hcur' : (s.addSubnet n sec).current = some sec := by cases sec <;> exact hcur
      rw [List.map_cons, List.cons_append,
        foldlM_cons_ok (line_subnet hcur (hok n List.mem_cons_self)),
        foldlM_rules hhs ns hcur' fun n' hn' => hok n' (List.mem_cons_of_mem _ hn')]
      cases sec <;> simp [fill, addSubnet]

theorem foldlM_urls : ∀ (us : List β) (s : Parsing α β), (∀ u ∈ us, Importable u) →
    (us.map urlLine).foldlM (Parsing.line true) s
      = .ok { s with calls := s.calls ++ us.map .urls }
  | [], s, _ => by simp [pure, Except.pure]
  | u :: us, s, hok => by
      rw [List.map_cons, foldlM_cons_ok (line_url (hok u List.mem_cons_self)),
        foldlM_urls us _ fun u' hu' => hok u' (List.mem_cons_of_mem _ hu')]
      simp [call]

end Parsing

/-- The lines of a section. -/
def sectionLines (header : String) (list : List Text) : List Text :=
  if list = [] then [] else text header :: list

omit [InetAddress α] [DecidableEq α] [URL β] in
theorem printSection_eq (header : String) (list : List Text) :
    printSection header list = unlines lf (sectionLines header list) := by
  unfold printSection sectionLines
  split
  next => rfl
  next h =>
    rw [unlines_cons, ← intercalate_append lf list h]
    simp

omit [DecidableEq α] in
/-- A printed section is read, whatever the section before it. -/
theorem foldlM_sectionLines (sec : Section) (header : String)
    (hheader : ∀ s : Parsing α β,
      Parsing.line true s (text header) = .ok { s with current := some sec })
    {ns : List (Subnet α)} {hs : List Text} (hns : ∀ n ∈ ns, Parsed n)
    (hhs : ∀ h ∈ hs, Hostname α h) (s : Parsing α β) :
    ∃ current, (sectionLines header (ns.map Subnet.toString ++ hs)).foldlM (Parsing.line true) s
      = .ok { s.fill ns hs sec with current } := by
  unfold sectionLines
  split
  next hnil =>
    obtain ⟨h1, rfl⟩ := List.append_eq_nil_iff.mp hnil
    obtain rfl := List.map_eq_nil_iff.mp h1
    refine ⟨s.current, ?_⟩
    cases sec <;> simp [Parsing.fill, pure, Except.pure]
  next =>
    refine ⟨some sec, ?_⟩
    rw [foldlM_cons_ok (hheader s), Parsing.foldlM_rules hhs ns rfl hns]
    cases sec <;> rfl

/-! ## §6. The round trip. -/

/-- The lines of a printed ACL. -/
def printed (a : Acl α β) : List Text :=
  text (if a.bypass then "[bypass_all]" else "[proxy_all]")
    :: (sectionLines "[bypass_list]" a.bypassList
      ++ (sectionLines "[proxy_list]" a.proxyList ++ a.urls.items.map urlLine))

theorem toString_eq (a : Acl α β) : a.toString = unlines lf a.printed := by
  have hurls : ∀ us : List β,
      us.flatMap (fun u => text "#IMPORT_URL <" ++ URL.toString u ++ text ">" ++ [lf])
        = unlines lf (us.map urlLine) := by
    intro us
    induction us with
    | nil => rfl
    | cons u us ih =>
        rw [List.flatMap_cons, ih, List.map_cons, unlines_cons]
        simp [urlLine]
  unfold toString printed
  rw [hurls, printSection_eq, printSection_eq, unlines_cons, unlines_append, unlines_append]
  simp

/-- What `parse` finds in a printed ACL, whatever the default. -/
theorem foldlM_printed {a : Acl α β} (h : a.WellFormed) (s : Parsing α β)
    (hs : s.bypassSubnets = [] ∧ s.proxySubnets = [] ∧ s.calls = []) :
    ∃ s', a.printed.foldlM (Parsing.line true) s = .ok s' ∧ s'.bypass = a.bypass
      ∧ s'.subnets = a.subnets.items
      ∧ s'.calls = a.bypassHostnames.items.map .bypassHostnames
        ++ a.proxyHostnames.items.map .proxyHostnames ++ a.urls.items.map .urls := by
  obtain ⟨hbs, hps, hcalls⟩ := hs
  have hsection : ∀ (ns ns' : List (Subnet α)), (∀ n ∈ ns, Parsed n) → (∀ n ∈ ns', Parsed n) →
      ∀ t : Parsing α β, ∃ current,
      (sectionLines "[bypass_list]" (ns.map Subnet.toString ++ a.bypassHostnames.items)
        ++ (sectionLines "[proxy_list]" (ns'.map Subnet.toString ++ a.proxyHostnames.items)
          ++ a.urls.items.map urlLine)).foldlM (Parsing.line true) t
        = .ok { t with
                current
                bypassSubnets := t.bypassSubnets ++ ns
                proxySubnets := t.proxySubnets ++ ns'
                calls := t.calls ++ a.bypassHostnames.items.map .bypassHostnames
                  ++ a.proxyHostnames.items.map .proxyHostnames ++ a.urls.items.map .urls } := by
    intro ns ns' hns hns' t
    obtain ⟨c₁, h₁⟩ := foldlM_sectionLines .bypass "[bypass_list]"
      (fun _ => rfl) hns h.bypassHostnames t
    obtain ⟨c₂, h₂⟩ := foldlM_sectionLines .proxy "[proxy_list]"
      (fun _ => rfl) hns' h.proxyHostnames
      { t.fill ns a.bypassHostnames.items .bypass with current := c₁ }
    refine ⟨c₂, ?_⟩
    rw [List.foldlM_append, h₁]
    show List.foldlM _ _ (_ ++ _) = _
    rw [List.foldlM_append, h₂]
    show List.foldlM _ _ _ = _
    rw [Parsing.foldlM_urls a.urls.items _ h.urls]
    rfl
  unfold printed bypassList proxyList
  rw [List.foldlM_cons]
  cases hb : a.bypass with
  | true =>
      obtain ⟨c, hc⟩ := hsection [] a.subnets.items (by simp) h.subnets { s with bypass := true }
      refine ⟨_, hc, rfl, ?_, ?_⟩
      · show s.proxySubnets ++ _ = _
        rw [hps, List.nil_append]
      · show s.calls ++ _ ++ _ ++ _ = _
        rw [hcalls, List.nil_append]
  | false =>
      obtain ⟨c, hc⟩ := hsection a.subnets.items [] h.subnets (by simp) { s with bypass := false }
      refine ⟨_, hc, rfl, ?_, ?_⟩
      · show s.bypassSubnets ++ _ = _
        rw [hbs, List.nil_append]
      · show s.calls ++ _ ++ _ ++ _ = _
        rw [hcalls, List.nil_append]

/-- No line is cut where it is printed. -/
theorem urlLine_line {u : β} (hu : Importable u) : lf ∉ urlLine u ∧ cr ∉ urlLine u := by
  obtain ⟨spec, hspec, hline⟩ := hu
  have hurl := URL.toString_line spec u hspec hline
  have hnot : ∀ c : UInt16, URL.isLineTerminator β c = true →
      c ∉ text "#IMPORT_URL <" → c ∉ text ">" → c ∉ urlLine u := by
    intro c hc h1 h2 hmem
    rcases List.mem_append.mp hmem with hmem | hmem
    · rcases List.mem_append.mp hmem with hmem | hmem
      · exact h1 hmem
      · exact absurd ((hurl c hmem).symm.trans hc) Bool.false_ne_true
    · exact h2 hmem
  obtain ⟨hlf, hcr⟩ := URL.isLineTerminator_line (β := β)
  exact ⟨hnot lf hlf (by decide) (by decide), hnot cr hcr (by decide) (by decide)⟩

theorem printed_line {a : Acl α β} (h : a.WellFormed) : ∀ l ∈ a.printed, lf ∉ l ∧ cr ∉ l := by
  have hsubnet : ∀ n : Subnet α, lf ∉ n.toString ∧ cr ∉ n.toString := by
    intro n
    have hnot : ∀ c, c ≠ slash → ¬ Plain c → c ∉ n.toString := fun c h1 h2 hc =>
      (Subnet.mem_toString hc).elim h1 h2
    exact ⟨hnot lf (by decide) (by decide), hnot cr (by decide) (by decide)⟩
  have hrules : ∀ l ∈ a.subnets.items.map Subnet.toString, lf ∉ l ∧ cr ∉ l := by
    intro l hl
    obtain ⟨n, _, rfl⟩ := List.mem_map.mp hl
    exact hsubnet n
  have hbypass : ∀ l ∈ a.bypassList, lf ∉ l ∧ cr ∉ l := by
    unfold bypassList
    split
    next => exact fun l hl => (h.bypassHostnames l hl).line
    next =>
      intro l hl
      rcases List.mem_append.mp hl with hl | hl
      · exact hrules l hl
      · exact (h.bypassHostnames l hl).line
  have hproxy : ∀ l ∈ a.proxyList, lf ∉ l ∧ cr ∉ l := by
    unfold proxyList
    split
    next =>
      intro l hl
      rcases List.mem_append.mp hl with hl | hl
      · exact hrules l hl
      · exact (h.proxyHostnames l hl).line
    next => exact fun l hl => (h.proxyHostnames l hl).line
  have hsection : ∀ (header : String) (list : List Text),
      (lf ∉ text header ∧ cr ∉ text header) → (∀ l ∈ list, lf ∉ l ∧ cr ∉ l) →
      ∀ l ∈ sectionLines header list, lf ∉ l ∧ cr ∉ l := by
    intro header list hheader hlist l hl
    unfold sectionLines at hl
    split at hl
    next => exact absurd hl (by simp)
    next =>
      rcases List.mem_cons.mp hl with rfl | hl
      · exact hheader
      · exact hlist l hl
  intro l hl
  rcases List.mem_cons.mp hl with rfl | hl
  · cases a.bypass <;> decide
  · rcases List.mem_append.mp hl with hl | hl
    · exact hsection _ _ (by decide) hbypass l hl
    · rcases List.mem_append.mp hl with hl | hl
      · exact hsection _ _ (by decide) hproxy l hl
      · obtain ⟨u, hu, rfl⟩ := List.mem_map.mp hl
        exact urlLine_line (h.urls u hu)

/-- **The printed text parses**, to what was printed. -/
theorem parse_toString {a : Acl α β} (h : a.WellFormed) (defaultBypass : Bool) :
    ∃ s : Parsing α β, parse true defaultBypass a.toString = .ok s ∧ s.bypass = a.bypass
      ∧ s.subnets = a.subnets.items
      ∧ s.calls = a.bypassHostnames.items.map .bypassHostnames
        ++ a.proxyHostnames.items.map .proxyHostnames ++ a.urls.items.map .urls := by
  obtain ⟨s, hs, hrest⟩ := foldlM_printed h (Parsing.new defaultBypass) ⟨rfl, rfl, rfl⟩
  refine ⟨s, ?_, hrest⟩
  unfold parse
  rw [toString_eq, lines_unlines lf cr _ (printed_line h)]
  exact hs

theorem stringSorter_eq {l l' : SortedList StringSorter} (h : l'.items.Perm l.items) : l' = l :=
  SortedList.eq_of_perm h <| l.pairwise_ne_eq fun a b (heq : compare a b = .eq) =>
    beq_iff_eq.mpr (Std.LawfulEqCmp.eq_of_compare heq)

omit [URL β] in
theorem filterMap_calls (bs ps : List Text) (us : List β) :
    (bs.map .bypassHostnames ++ ps.map .proxyHostnames ++ us.map .urls : List (Call β)).filterMap
        Call.bypassHostname? = bs
    ∧ (bs.map .bypassHostnames ++ ps.map .proxyHostnames ++ us.map .urls : List (Call β)).filterMap
        Call.proxyHostname? = ps
    ∧ (bs.map .bypassHostnames ++ ps.map .proxyHostnames ++ us.map .urls : List (Call β)).filterMap
        Call.url? = us := by
  refine ⟨?_, ?_, ?_⟩
  · simp [List.filterMap_map, Function.comp_def, Call.bypassHostname?]
  · simp [List.filterMap_map, Function.comp_def, Call.proxyHostname?]
  · simp [List.filterMap_map, Function.comp_def, Call.url?]

/-- **THE ROUND TRIP.**  An ACL that was read, copied or flattened is read
back from its text, with either default: the same mode, host names and
subnets, and the same URLs.  Between URLs that compare equal (they differ
in the fragment) no order is claimed. -/
theorem fromReader_toString {a : Acl α β} (h : Obtained a) (defaultBypass : Bool) :
    ∃ b : Acl α β, ({} : Acl α β).fromReader a.toString defaultBypass = .ok b
      ∧ b.bypass = a.bypass ∧ b.bypassHostnames = a.bypassHostnames
      ∧ b.proxyHostnames = a.proxyHostnames ∧ b.subnets = a.subnets
      ∧ b.urls.items.Perm a.urls.items
      ∧ (a.urls.items.Pairwise (fun u v => (URLSorter β).compare u v ≠ .eq) → b.urls = a.urls) := by
  obtain ⟨s, hs, hbypass, hsubnets, hcalls⟩ := parse_toString h.wellFormed defaultBypass
  obtain ⟨hb, hp, hu⟩ := filterMap_calls a.bypassHostnames.items a.proxyHostnames.items a.urls.items
  rw [← hcalls] at hb hp hu
  refine ⟨_, fromReader_eq_ok.mpr ⟨s, hs, rfl⟩, hbypass, stringSorter_eq ?_, stringSorter_eq ?_,
    subnetSorter_eq ?_, ?_, fun hne => SortedList.eq_of_perm ?_ hne⟩
  · rw [hb]
    exact a.bypassHostnames.addAll_items_perm
  · rw [hp]
    exact a.proxyHostnames.addAll_items_perm
  · rw [hsubnets]
    exact a.subnets.addAll_items_perm
  · rw [hu]
    exact a.urls.addAll_items_perm
  · rw [hu]
    exact a.urls.addAll_items_perm

/-- Rules of every kind. -/
def sampleRules : Text :=
  text "[bypass_all]\n[proxy_list]\n 127.0.0.1/8 # here\nexample.com\n#IMPORT_URL <http://a#b>\n"

/-- They are read, printed and read again under the other default. -/
theorem fromReader_toString_sampleRules : ∃ a b : Acl Loopback PlainURL,
    ({} : Acl Loopback PlainURL).fromReader sampleRules false = .ok a
      ∧ a.subnets.items.length = 1 ∧ a.urls.items.length = 1
      ∧ ({} : Acl Loopback PlainURL).fromReader a.toString false = .ok b
      ∧ b.bypass = true ∧ b.proxyHostnames = a.proxyHostnames ∧ b.subnets = a.subnets := by
  obtain ⟨a, ha, hmode, hsub, hurl⟩ : ∃ a : Acl Loopback PlainURL,
      ({} : Acl Loopback PlainURL).fromReader sampleRules false = .ok a ∧ a.bypass = true
        ∧ a.subnets.items.length = 1 ∧ a.urls.items.length = 1 := ⟨_, rfl, rfl, rfl, rfl⟩
  obtain ⟨b, hb, hbypass, _, hproxy, hsubnets, _⟩ := fromReader_toString (.fromReader ha) false
  exact ⟨a, b, ha, hsub, hurl, hb, hbypass.trans hmode, hproxy, hsubnets⟩

end FoxVpn.Acl
