/-
  FoxVpn.Acl.ModeDirectives
  ─────────────────────────
  **WHERE THE MODE OF AN ACL STANDS DOES NOT MATTER.**

  `[reject_all]`, `[bypass_all]`, `[accept_all]` and `[proxy_all]` set the
  mode.  `parse` looks at the mode once, after the last line, to choose which
  of the two lists of subnets it returns.  So all of these directives can be
  deleted and the last one put in front (`hoisted`; the comment of a deleted
  line stays, it may carry an import), and `parse` does THE SAME: the same
  calls in the same order, the same fault or the same mode and subnets.

      parse_of_hoisted    the two runs, and what the result consists of:
                          the subnets of the sections opposite to the mode
-/
import FoxVpn.Lib.Result
import FoxVpn.Acl.Acl

namespace FoxVpn.Acl

open FoxVpn.Lib FoxVpn.Net

variable {α β : Type} [InetAddress α] [URL β]

/-! ## §1. Mode directives, and the text without them. -/

/-- The mode a directive sets. -/
def mode? (input : Text) : Option Bool :=
  if input = text "[reject_all]" ∨ input = text "[bypass_all]" then some true
  else if input = text "[accept_all]" ∨ input = text "[proxy_all]" then some false
  else none

/-- What `parse` sees of a line. -/
def content (withUrls : Bool) (line : Text) : Text :=
  trim isWhitespace (if withUrls then (splitFirst hash line).1 else line)

/-- The comment of a line, as a line of its own. -/
def comment (withUrls : Bool) (line : Text) : List Text :=
  if withUrls then ((splitFirst hash line).2.map (hash :: ·)).toList else []

/-- A line without its mode directive. -/
def stripped (withUrls : Bool) (line : Text) : List Text :=
  if (mode? (content withUrls line)).isSome then comment withUrls line else [line]

/-- The last mode directive. -/
def lastDirective (withUrls : Bool) : List Text → Option Text
  | [] => none
  | l :: ls =>
      match lastDirective withUrls ls with
      | some d => some d
      | none => if (mode? (content withUrls l)).isSome then some (content withUrls l) else none

/-- The lines without mode directives, the last of which goes in front. -/
def hoisted (withUrls : Bool) (ls : List Text) : List Text :=
  (lastDirective withUrls ls).toList ++ ls.flatMap (stripped withUrls)

/-- The mode at the end. -/
def finalMode (withUrls defaultBypass : Bool) (ls : List Text) : Bool :=
  ((lastDirective withUrls ls).bind mode?).getD defaultBypass

/-! ## §2. One line, seen without the mode. -/

/-- The mode directives. -/
theorem mode?_cases {input : Text} {v : Bool} (h : mode? input = some v) :
    (v = true ∧ (input = text "[reject_all]" ∨ input = text "[bypass_all]"))
      ∨ (v = false ∧ (input = text "[accept_all]" ∨ input = text "[proxy_all]")) := by
  unfold mode? at h
  split at h
  next hin => exact Or.inl ⟨(Option.some.inj h).symm, hin⟩
  next =>
    split at h
    next hin => exact Or.inr ⟨(Option.some.inj h).symm, hin⟩
    next => cases h

namespace Parsing

/-- The variables with another mode. -/
def withMode (m : Bool) (s : Parsing α β) : Parsing α β := { s with bypass := m }

omit [URL β]

/-- A mode directive sets the mode and nothing else. -/
theorem rule_mode {input : Text} {v : Bool} (h : mode? input = some v) (s : Parsing α β) :
    s.rule input = .ok (s.withMode v) := by
  rcases mode?_cases h with ⟨rfl, rfl | rfl⟩ | ⟨rfl, rfl | rfl⟩
  · rfl
  · rfl
  · rfl
  · rfl

theorem directive_withMode {input : Text} (h : mode? input = none) (m : Bool)
    (s : Parsing α β) : (s.withMode m).directive input = (s.directive input).map (withMode m) := by
  unfold mode? at h
  unfold directive
  split at h
  next => cases h
  next htrue =>
    split at h
    next => cases h
    next hfalse =>
      rw [if_neg htrue, if_neg hfalse, if_neg htrue, if_neg hfalse]
      split
      next => rfl
      next =>
        split
        next => rfl
        next =>
          split
          next => rfl
          next => rfl

/-- Any other line does the same in every mode, and leaves it alone. -/
theorem rule_withMode {input : Text} (h : mode? input = none) (m : Bool) (s : Parsing α β) :
    (s.withMode m).rule input = (s.rule input).map (withMode m) := by
  have hcurrent : (s.withMode m).current = s.current := rfl
  unfold rule
  split
  next => exact directive_withMode h m s
  next =>
    rw [hcurrent]
    cases s.current with
    | none => rfl
    | some sec =>
        dsimp only
        split
        next => rfl
        next =>
          cases (Subnet.fromString input : Option (Subnet α)) with
          | none => rfl
          | some n =>
              cases sec with
              | bypass => rfl
              | proxy => rfl

/-- An empty line. -/
theorem rule_nil (s : Parsing α β) : s.rule [] = .ok s := by
  unfold rule
  rw [if_neg (by simp)]
  cases s.current with
  | none => rfl
  | some sec => rfl

/-- The call for the import of a line, if it has one. -/
def imported (u : Option β) (s : Parsing α β) : Parsing α β :=
  match u with
  | none => s
  | some u => s.call (.urls u)

theorem imported_withMode (u : Option β) (m : Bool) (s : Parsing α β) :
    (s.withMode m).imported u = (s.imported u).withMode m := by
  cases u with
  | none => rfl
  | some u => rfl

end Parsing

/-- The import of a line, if they are looked for. -/
def importOf (withUrls : Bool) (line : Text) : Except Fault (Option β) :=
  if withUrls then Parsing.importUrl line else .ok none

namespace Parsing

/-- A line is its import and then its content. -/
theorem line_eq (withUrls : Bool) (s : Parsing α β) (l : Text) :
    line withUrls s l = ((importOf withUrls l).mapError fun e => (e, s.calls)).bind fun u =>
      ((s.imported u).rule (content withUrls l)).mapError fun e => (e, (s.imported u).calls) := by
  unfold line importOf
  cases withUrls with
  | false => rfl
  | true =>
      cases himport : (importUrl l : Except Fault (Option β)) with
      | error e => rfl
      | ok u =>
          cases u with
          | none => rfl
          | some u => rfl

/-- A line that is accepted: its import and its content are. -/
theorem line_eq_ok {withUrls : Bool} {s t : Parsing α β} {l : Text}
    (h : line withUrls s l = .ok t) :
    ∃ u, importOf withUrls l = .ok u ∧ (s.imported u).rule (content withUrls l) = .ok t := by
  rw [line_eq] at h
  obtain ⟨u, himport, hrule⟩ := bind_eq_ok.mp h
  exact ⟨u, mapError_eq_ok himport, mapError_eq_ok hrule⟩

theorem line_withMode {withUrls : Bool} {l : Text} (h : mode? (content withUrls l) = none)
    (m : Bool) (s : Parsing α β) :
    line withUrls (s.withMode m) l = (line withUrls s l).map (withMode m) := by
  rw [line_eq, line_eq]
  cases (importOf withUrls l : Except Fault (Option β)) with
  | error e => rfl
  | ok u =>
      show (((s.withMode m).imported u).rule _).mapError _
        = (((s.imported u).rule _).mapError _).map _
      rw [imported_withMode, rule_withMode h]
      cases (s.imported u).rule (content withUrls l) with
      | error e => rfl
      | ok t => rfl

omit [InetAddress α] in
/-- What is kept of a line with a directive: at most its comment, which has
no content, and the same import. -/
theorem comment_cases (withUrls : Bool) (l : Text) :
    (comment withUrls l = [] ∧ importOf withUrls l = .ok (none : Option β))
      ∨ ∃ c, comment withUrls l = [c] ∧ content withUrls c = []
        ∧ (importOf withUrls c : Except Fault (Option β)) = importOf withUrls l := by
  unfold comment importOf
  cases withUrls with
  | false => exact Or.inl ⟨rfl, rfl⟩
  | true =>
      rw [if_pos rfl, if_pos rfl]
      cases hcomment : (splitFirst hash l).2 with
      | none =>
          refine Or.inl ⟨rfl, ?_⟩
          unfold importUrl
          rw [hcomment]
          rfl
      | some rest =>
          have hsplit : splitFirst hash (hash :: rest) = ([], some rest) := if_pos rfl
          refine Or.inr ⟨hash :: rest, rfl, ?_, ?_⟩
          · rw [content, if_pos rfl, hsplit]
            rfl
          · rw [if_pos rfl]
            unfold importUrl
            rw [hcomment, hsplit]

/-- **One line and what is kept of it**, in any mode. -/
theorem foldlM_stripped (withUrls m : Bool) (s : Parsing α β) (l : Text) :
    (stripped withUrls l).foldlM (line withUrls) (s.withMode m)
      = (line withUrls s l).map (withMode m) := by
  have hone : ∀ (c : Text) (t : Parsing α β), [c].foldlM (line withUrls) t = line withUrls t c := by
    intro c t
    rw [List.foldlM_cons]
    exact bind_pure _
  unfold stripped
  cases hmode : mode? (content withUrls l) with
  | none =>
      rw [if_neg (by simp), hone]
      exact line_withMode hmode m s
  | some v =>
      rw [Option.isSome_some, if_pos rfl, line_eq]
      have hrule : ∀ t : Parsing α β, t.rule (content withUrls l) = .ok (t.withMode v) :=
        rule_mode hmode
      rcases comment_cases (β := β) withUrls l with ⟨hc, himport⟩ | ⟨c, hc, hcontent, himport⟩
      · rw [hc, himport]
        show .ok (s.withMode m) = (((s.rule _).mapError _).map _ : Except _ _)
        rw [hrule]
        rfl
      · rw [hc, hone, line_eq, hcontent, himport]
        cases (importOf withUrls l : Except Fault (Option β)) with
        | error e => rfl
        | ok u =>
            show (((s.withMode m).imported u).rule []).mapError _
              = (((s.imported u).rule _).mapError _).map _
            rw [rule_nil, hrule, imported_withMode]
            rfl

/-! ## §3. The mode at the end. -/

theorem line_bypass {withUrls : Bool} {s t : Parsing α β} {l : Text}
    (h : line withUrls s l = .ok t) :
    t.bypass = (mode? (content withUrls l)).getD s.bypass := by
  cases hmode : mode? (content withUrls l) with
  | none =>
      -- a line that sets no mode does the same in the mode it began with
      have hsame := line_withMode hmode s.bypass s
      have hs : s.withMode s.bypass = s := rfl
      rw [hs, h] at hsame
      have ht : t = t.withMode s.bypass := Except.ok.inj hsame
      rw [ht]
      rfl
  | some v =>
      obtain ⟨u, _, hrule⟩ := line_eq_ok h
      rw [rule_mode hmode] at hrule
      exact (congrArg Parsing.bypass (Except.ok.inj hrule)).symm

end Parsing

theorem mode?_lastDirective {withUrls : Bool} {d : Text} (ls : List Text)
    (h : lastDirective withUrls ls = some d) : ∃ v, mode? d = some v := by
  induction ls with
  | nil => cases h
  | cons l ls ih =>
      rw [lastDirective] at h
      cases hlast : lastDirective withUrls ls with
      | some d' =>
          rw [hlast] at h ih
          exact ih h
      | none =>
          rw [hlast] at h
          dsimp only at h
          split at h
          next hsome =>
            rw [← Option.some.inj h]
            exact Option.isSome_iff_exists.mp hsome
          next => cases h

/-- The last directive decides, whatever came before. -/
theorem finalMode_cons (withUrls b : Bool) (l : Text) (ls : List Text) :
    finalMode withUrls b (l :: ls)
      = finalMode withUrls ((mode? (content withUrls l)).getD b) ls := by
  unfold finalMode
  rw [lastDirective]
  cases hlast : lastDirective withUrls ls with
  | some d =>
      obtain ⟨v, hv⟩ := mode?_lastDirective ls hlast
      show (mode? d).getD b = (mode? d).getD _
      rw [hv]
      rfl
  | none =>
      cases hmode : mode? (content withUrls l) with
      | none => rfl
      | some v =>
          show ((some (content withUrls l)).bind mode?).getD b = v
          rw [Option.bind_some, hmode]
          rfl

theorem Parsing.foldlM_bypass {withUrls : Bool} (ls : List Text) : ∀ {s t : Parsing α β},
    ls.foldlM (Parsing.line withUrls) s = .ok t → t.bypass = finalMode withUrls s.bypass ls := by
  induction ls with
  | nil =>
      intro s t h
      rw [← Except.ok.inj h]
      rfl
  | cons l ls ih =>
      intro s t h
      obtain ⟨s', hline, hrest⟩ := foldlM_cons_eq_ok h
      rw [ih hrest, Parsing.line_bypass hline, finalMode_cons]

/-! ## §4. The two runs. -/

/-- A mode directive on a line of its own. -/
theorem Parsing.line_directive (withUrls : Bool) {d : Text} {v : Bool} (h : mode? d = some v)
    (s : Parsing α β) : Parsing.line withUrls s d = .ok (s.withMode v) := by
  have hliteral : content withUrls d = d ∧ importOf withUrls d = .ok (none : Option β) := by
    rcases mode?_cases h with ⟨-, rfl | rfl⟩ | ⟨-, rfl | rfl⟩ <;> cases withUrls <;>
      exact ⟨by decide, rfl⟩
  rw [line_eq, hliteral.1, hliteral.2]
  show (s.rule d).mapError _ = _
  rw [rule_mode h]
  rfl

/-- **The run over the hoisted lines is the run over the lines.** -/
theorem foldlM_hoisted (withUrls : Bool) (ls : List Text) (s : Parsing α β) :
    (hoisted withUrls ls).foldlM (Parsing.line withUrls) s
      = ls.foldlM (Parsing.line withUrls) s := by
  have hfront : (hoisted withUrls ls).foldlM (Parsing.line withUrls) s
      = (ls.flatMap (stripped withUrls)).foldlM (Parsing.line withUrls)
        (s.withMode (finalMode withUrls s.bypass ls)) := by
    unfold hoisted finalMode
    cases hlast : lastDirective withUrls ls with
    | none => rfl
    | some d =>
        obtain ⟨v, hv⟩ := mode?_lastDirective ls hlast
        rw [Option.toList_some, List.singleton_append,
          foldlM_cons_ok (Parsing.line_directive withUrls hv s), Option.bind_some, hv]
        rfl
  rw [hfront, foldlM_flatMap_map (Parsing.foldlM_stripped withUrls _)]
  -- the original run ends in the final mode by itself
  cases hrun : ls.foldlM (Parsing.line withUrls) s with
  | error e => rfl
  | ok t =>
      rw [← Parsing.foldlM_bypass ls hrun]
      rfl

/-! ## §5. What is listed where. -/

/-- The section whose subnets a mode returns. -/
def Section.opposite (bypass : Bool) : Section := if bypass then .proxy else .bypass

/-- The section after a line. -/
def nextSection (current : Option Section) (input : Text) : Option Section :=
  if input = text "[outbound_block_list]" then none
  else if input = text "[black_list]" ∨ input = text "[bypass_list]" then some .bypass
  else if input = text "[white_list]" ∨ input = text "[proxy_list]" then some .proxy
  else current

/-- The subnet a line lists, with its section. -/
def listed (current : Option Section) (input : Text) : Option (Section × Subnet α) :=
  if input.head? = some bracket ∨ input = [] then none
  else current.bind fun sec => (Subnet.fromString input).map fun n => (sec, n)

/-- The subnets the lines list, whatever the mode. -/
def listing (withUrls : Bool) : Option Section → List Text → List (Section × Subnet α)
  | _, [] => []
  | current, l :: ls =>
      (listed current (content withUrls l)).toList
        ++ listing withUrls (nextSection current (content withUrls l)) ls

/-- The subnets of one section. -/
def ofSection (sec : Section) (l : List (Section × Subnet α)) : List (Subnet α) :=
  (l.filter fun e => e.1 = sec).map Prod.snd

namespace Parsing

def subnetsOf (s : Parsing α β) : Section → List (Subnet α)
  | .bypass => s.bypassSubnets
  | .proxy => s.proxySubnets

section

omit [URL β]

theorem subnets_eq (s : Parsing α β) : s.subnets = s.subnetsOf (Section.opposite s.bypass) := by
  unfold subnets Section.opposite
  cases s.bypass with
  | true => rfl
  | false => rfl

theorem directive_current {s t : Parsing α β} {input : Text} (h : s.directive input = .ok t) :
    t.current = nextSection s.current input ∧ t.subnetsOf = s.subnetsOf := by
  unfold directive at h
  unfold nextSection
  split at h
  next hin => rw [if_pos hin, ← Except.ok.inj h]; exact ⟨rfl, rfl⟩
  next hin =>
    rw [if_neg hin]
    split at h
    next hin => rw [if_pos hin, ← Except.ok.inj h]; exact ⟨rfl, rfl⟩
    next hin =>
      rw [if_neg hin]
      split at h
      next hin => rw [if_pos hin, ← Except.ok.inj h]; exact ⟨rfl, rfl⟩
      next hin =>
        rw [if_neg hin]
        split at h
        next => rw [← Except.ok.inj h]; exact ⟨rfl, rfl⟩
        next =>
          split at h
          next => rw [← Except.ok.inj h]; exact ⟨rfl, rfl⟩
          next => cases h

theorem nextSection_of_head {current : Option Section} {input : Text}
    (h : input.head? ≠ some bracket) : nextSection current input = current := by
  have hne : ∀ d : String, (text d).head? = some bracket → input ≠ text d := by
    rintro d hd rfl
    exact h hd
  unfold nextSection
  rw [if_neg (hne _ (by decide)), if_neg, if_neg]
  · exact not_or.mpr ⟨hne _ (by decide), hne _ (by decide)⟩
  · exact not_or.mpr ⟨hne _ (by decide), hne _ (by decide)⟩

theorem subnetsOf_addSubnet (s : Parsing α β) (n : Subnet α) (sec sec' : Section) :
    (s.addSubnet n sec).subnetsOf sec' = s.subnetsOf sec' ++ ofSection sec' [(sec, n)] := by
  cases sec with
  | bypass =>
      cases sec' with
      | bypass => rfl
      | proxy => exact (List.append_nil _).symm
  | proxy =>
      cases sec' with
      | bypass => exact (List.append_nil _).symm
      | proxy => rfl

/-- What a line adds to the lists. -/
theorem rule_listed {s t : Parsing α β} {input : Text} (h : s.rule input = .ok t) :
    t.current = nextSection s.current input
      ∧ ∀ sec, t.subnetsOf sec
        = s.subnetsOf sec ++ ofSection sec (listed s.current input).toList := by
  have hnothing : ∀ sec, s.subnetsOf sec = s.subnetsOf sec ++ ofSection sec [] :=
    fun sec => (List.append_nil _).symm
  unfold rule at h
  split at h
  next hbracket =>
    obtain ⟨hcurrent, hsubnets⟩ := directive_current h
    refine ⟨hcurrent, fun sec => ?_⟩
    rw [hsubnets, listed, if_pos (Or.inl hbracket)]
    exact hnothing sec
  next hbracket =>
    rw [nextSection_of_head hbracket, listed]
    split at h
    next hcurrent =>
      rw [← Except.ok.inj h, hcurrent, Option.bind_none, ite_self]
      exact ⟨rfl, hnothing⟩
    next sec hcurrent =>
      split at h
      next hempty =>
        rw [← Except.ok.inj h, if_pos (Or.inr hempty)]
        exact ⟨rfl, hnothing⟩
      next hempty =>
        rw [if_neg (not_or.mpr ⟨hbracket, hempty⟩), hcurrent, Option.bind_some]
        split at h
        next hnone =>
          rw [← Except.ok.inj h, hnone]
          exact ⟨hcurrent, hnothing⟩
        next n hn =>
          rw [← Except.ok.inj h, hn]
          refine ⟨?_, s.subnetsOf_addSubnet n sec⟩
          cases sec with
          | bypass => exact hcurrent
          | proxy => exact hcurrent

end

theorem line_listed {withUrls : Bool} {s t : Parsing α β} {l : Text}
    (h : line withUrls s l = .ok t) :
    t.current = nextSection s.current (content withUrls l)
      ∧ ∀ sec, t.subnetsOf sec = s.subnetsOf sec
        ++ ofSection sec (listed s.current (content withUrls l)).toList := by
  obtain ⟨u, _, hrule⟩ := line_eq_ok h
  have hadded := rule_listed hrule
  cases u with
  | none => exact hadded
  | some u => exact hadded

/-- **The lists of a run** are what its lines list, section by section. -/
theorem foldlM_listing {withUrls : Bool} (ls : List Text) : ∀ {s t : Parsing α β},
    ls.foldlM (line withUrls) s = .ok t →
      ∀ sec, t.subnetsOf sec
        = s.subnetsOf sec ++ ofSection sec (listing withUrls s.current ls) := by
  induction ls with
  | nil =>
      intro s t h sec
      rw [← Except.ok.inj h]
      exact (List.append_nil _).symm
  | cons l ls ih =>
      intro s t h sec
      obtain ⟨s', hline, hrest⟩ := foldlM_cons_eq_ok h
      obtain ⟨hcurrent, hsubnets⟩ := line_listed hline
      rw [ih hrest sec, hsubnets sec, hcurrent, List.append_assoc, listing]
      unfold ofSection
      rw [List.filter_append, List.map_append]

end Parsing

/-! ## §6. The position of the mode. -/

/-- The hoisted lines are lines. -/
theorem hoisted_line {withUrls : Bool} {ls : List Text} (h : ∀ l ∈ ls, lf ∉ l ∧ cr ∉ l) :
    ∀ l ∈ hoisted withUrls ls, lf ∉ l ∧ cr ∉ l := by
  intro l hl
  rcases List.mem_append.mp hl with hl | hl
  · rw [Option.mem_toList] at hl
    obtain ⟨v, hv⟩ := mode?_lastDirective ls hl
    rcases mode?_cases hv with ⟨-, rfl | rfl⟩ | ⟨-, rfl | rfl⟩ <;> decide
  · obtain ⟨l', hl', hmem⟩ := List.mem_flatMap.mp hl
    have hline := h l' hl'
    unfold stripped comment at hmem
    split at hmem
    next =>
      split at hmem
      next =>
        rw [Option.mem_toList, Option.map_eq_some_iff] at hmem
        obtain ⟨rest, hrest, rfl⟩ := hmem
        have hsub : ∀ c ∈ rest, c ∈ l' := fun c => mem_of_splitFirst_eq_some hash hrest
        rw [List.mem_cons, not_or, List.mem_cons, not_or]
        exact ⟨⟨by decide, fun hc => hline.1 (hsub _ hc)⟩, by decide, fun hc => hline.2 (hsub _ hc)⟩
      next => cases hmem
    next =>
      rw [List.mem_singleton.mp hmem]
      exact hline

/-- **The position of mode directives does not matter**: a text with the
hoisted lines exists, and any such text is parsed as the original one, calls,
faults and result.  The mode is the last one, and the subnets are those
listed in the sections opposite to it. -/
theorem parse_of_hoisted (withUrls defaultBypass : Bool) (reader : Text) :
    lines lf cr (unlines lf (hoisted withUrls (lines lf cr reader)))
        = hoisted withUrls (lines lf cr reader)
      ∧ (∀ reader' : Text, lines lf cr reader' = hoisted withUrls (lines lf cr reader) →
        (parse withUrls defaultBypass reader' : Except (Fault × List (Call β)) (Parsing α β))
          = parse withUrls defaultBypass reader)
      ∧ ∀ s : Parsing α β, parse withUrls defaultBypass reader = .ok s →
        s.bypass = finalMode withUrls defaultBypass (lines lf cr reader)
          ∧ s.subnets = ofSection (Section.opposite s.bypass)
            (listing withUrls (some (Section.opposite defaultBypass)) (lines lf cr reader)) := by
  refine ⟨?_, fun reader' h => ?_, fun s h => ⟨?_, ?_⟩⟩
  · exact lines_unlines lf cr _ (hoisted_line fun l hl => not_mem_of_mem_lines hl)
  · unfold parse
    rw [h]
    exact foldlM_hoisted withUrls _ _
  · exact Parsing.foldlM_bypass _ h
  · rw [s.subnets_eq, Parsing.foldlM_listing _ h]
    -- nothing is listed before the first line
    cases Section.opposite s.bypass with
    | bypass => rfl
    | proxy => rfl

/-- Subnets before the mode, a mode that is revoked, and an import in the
comment of the last directive. -/
def lateMode : Text :=
  unlines lf [text "[bypass_list]", text "127.0.0.1/8", text "[bypass_all]", text "[proxy_list]",
    text "127.0.0.1", text "[proxy_all] #IMPORT_URL <a>"]

/-- The same with the mode in front. -/
def earlyMode : Text :=
  unlines lf [text "[proxy_all]", text "[bypass_list]", text "127.0.0.1/8", text "[proxy_list]",
    text "127.0.0.1", text "#IMPORT_URL <a>"]

theorem parse_earlyMode :
    (parse true true earlyMode : Except (Fault × List (Call PlainURL)) (Parsing Loopback PlainURL))
        = parse true true lateMode
      ∧ ∃ s : Parsing Loopback PlainURL, parse true true lateMode = .ok s
        ∧ s.bypass = false ∧ s.subnets.map (fun n => n.prefixSize) = [8] := by
  obtain ⟨-, hsame, hresult⟩ := parse_of_hoisted (α := Loopback) (β := PlainURL) true true lateMode
  have hmode : finalMode true true (lines lf cr lateMode) = false := by decide +kernel
  have hlisted : (ofSection .bypass (listing true (some .proxy) (lines lf cr lateMode))).map
      (fun n : Subnet Loopback => n.prefixSize) = [8] := by decide +kernel
  obtain ⟨s, hs, -⟩ : ∃ s : Parsing Loopback PlainURL, parse true true lateMode = .ok s
      ∧ true = true := exists_of_test (fun _ => true) (by decide +kernel)
  obtain ⟨hbypass, hsubnets⟩ := hresult s hs
  rw [hmode] at hbypass
  rw [hbypass] at hsubnets
  refine ⟨hsame earlyMode (by decide +kernel), s, hs, hbypass, ?_⟩
  rw [hsubnets]
  exact hlisted

end FoxVpn.Acl
