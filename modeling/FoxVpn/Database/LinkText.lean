/-
  FoxVpn.Database.LinkText
  ────────────────────────
  **WHAT IS FOUND OF A LINK, AND HOW IT IS TAKEN APART.**

  Every character of a link is one the expression of `findAllUrls` goes
  through, but not every character is one it ENDS at: the encoder leaves
  `!` and `_` as they are, and the expression drops them from the end.

      unmarked s            the text without the `!` and `_` at its end
      findAll_linkText      what is found is the link whose last text, the
                            name or else the plugin, is unmarked
      encoded…_linkText     authority, user info, query and fragment of a
                            link are what it was built of

  The characters decide everything: an authority has none of the delimiters
  `/ \ ? #`, an encoded text none but `%` and the unreserved ones.
-/
import FoxVpn.Database.ProfileLink

namespace FoxVpn.Database

open FoxVpn.Lib FoxVpn.Plugin FoxVpn.Utils

/-! ## §1. The characters of a link. -/

/-- What the encoder leaves and the expression does not end at. -/
def isMark (c : Char) : Bool := c == '!' || c == '_'

def unmarked (s : Str) : Str := s.rdropWhile isMark

theorem isMark_iff {c : Char} : isMark c = true ↔ c = '!' ∨ c = '_' := by
  rw [isMark, Bool.or_eq_true, beq_iff_eq, beq_iff_eq]

/-- Marks are left by the encoder, and the expression goes through them
without ending or beginning there. -/
theorem isUnreserved_of_isMark {c : Char} (h : isMark c = true) :
    Percent.isUnreserved c = true ∧ isInner c = true ∧ isFinal c = false
      ∧ (c == 's' || c == 'S') = false := by
  rcases isMark_iff.mp h with rfl | rfl
  · decide
  · decide

theorem isInner_of_isAlphanum {c : Char} (h : c.isAlphanum = true) : isInner c = true := by
  rw [isInner, h, Bool.true_or]

theorem isFinal_of_isAlphanum {c : Char} (h : c.isAlphanum = true) : isFinal c = true := by
  rw [isFinal, h, Bool.true_or]

theorem isInner_of_isFinal {c : Char} (h : isFinal c = true) : isInner c = true := by
  rw [isFinal, Bool.or_eq_true, List.contains_iff_mem] at h
  rcases h with h | h
  · exact isInner_of_isAlphanum h
  · have hall : ['-', '+', '&', '@', '#', '/', '%', '=', '.', '~', '*', '\'', '(', ')', '|', '[',
        ']'].all isInner = true := by decide
    exact List.all_eq_true.mp hall c h

/-- An unreserved character is an inner one, and final unless it is a
mark. -/
theorem isInner_of_isUnreserved {c : Char} (h : Percent.isUnreserved c = true) :
    isInner c = true ∧ (isMark c = false → isFinal c = true) := by
  rw [Percent.isUnreserved, Bool.or_eq_true, List.contains_iff_mem] at h
  rcases h with h | h
  · exact ⟨isInner_of_isAlphanum h, fun _ => isFinal_of_isAlphanum h⟩
  · have hall : ['_', '-', '!', '.', '~', '\'', '(', ')', '*'].all
        (fun c => isInner c && (isMark c || isFinal c)) = true := by decide
    have hc := List.all_eq_true.mp hall c h
    rw [Bool.and_eq_true, Bool.or_eq_true] at hc
    exact ⟨hc.1, fun hm => hc.2.resolve_left (by simp [hm])⟩

theorem isInner_of_mem_encode {s : Str} {c : Char} (h : c ∈ Percent.encode s) :
    isInner c = true := by
  rcases Percent.mem_encode h with rfl | h
  · decide
  · exact (isInner_of_isUnreserved h).1

/-- The marks at the end are written as they are. -/
theorem encode_unmarked (s : Str) :
    ∃ w, s = unmarked s ++ w ∧ (∀ c ∈ w, isMark c = true)
      ∧ Percent.encode s = Percent.encode (unmarked s) ++ w := by
  have hs : s = unmarked s ++ s.rtakeWhile isMark := List.rdropWhile_append_rtakeWhile.symm
  have hw : ∀ c ∈ s.rtakeWhile isMark, isMark c = true := fun c hc => List.mem_rtakeWhile_imp hc
  have hsame : Percent.encode (s.rtakeWhile isMark) = s.rtakeWhile isMark := by
    exact Percent.encode_of_unreserved fun c hc => (isUnreserved_of_isMark (hw c hc)).1
  refine ⟨s.rtakeWhile isMark, hs, hw, ?_⟩
  conv_lhs => rw [hs, Percent.encode_append, hsame]

/-- What is left ends in a final character, if it is not empty. -/
theorem encode_unmarked_final (s : Str) :
    unmarked s = [] ∨ ∃ a x, Percent.encode (unmarked s) = a ++ [x] ∧ isFinal x = true := by
  rcases List.eq_nil_or_concat (unmarked s) with hnil | ⟨t, c, ht⟩
  · exact Or.inl hnil
  · rw [List.concat_eq_append] at ht
    have hlast : ∀ hl : t ++ [c] ≠ [], ¬ isMark ((t ++ [c]).getLast hl) = true := by
      rw [← ht]
      exact List.rdropWhile_eq_self_iff.mp (List.rdropWhile_idempotent isMark s)
    have hmark : isMark c = false := by simpa using hlast (by simp)
    -- the last character stands for itself, or ends in a hexadecimal digit
    obtain ⟨a, x, hax, hx⟩ := Percent.encode_concat t c
    refine Or.inr ⟨a, x, ht ▸ hax, ?_⟩
    rcases hx with ⟨hu, rfl⟩ | ⟨-, hx⟩
    · exact (isInner_of_isUnreserved hu).2 hmark
    · exact isFinal_of_isAlphanum hx

/-- The characters of an authority. -/
def isAuthorityChar (c : Char) : Bool :=
  c.isAlphanum || ['-', '_', '.', ':', '%', '@', '[', ']'].contains c

theorem isInner_of_isAuthorityChar {c : Char} (h : isAuthorityChar c = true) :
    isInner c = true := by
  rw [isAuthorityChar, Bool.or_eq_true, List.contains_iff_mem] at h
  rcases h with h | h
  · exact isInner_of_isAlphanum h
  · have hall : ['-', '_', '.', ':', '%', '@', '[', ']'].all isInner = true := by decide
    exact List.all_eq_true.mp hall c h

/-- The digits of a port. -/
theorem isDigit_of_mem_port {n : Int} (h : 1 ≤ n) :
    ∀ c ∈ (toString n).toList, c.isDigit = true := by
  cases n with
  | ofNat m =>
      intro c hc
      have hrepr : (toString (Int.ofNat m)).toList = Nat.toDigits 10 m := Nat.toList_repr
      rw [hrepr] at hc
      exact Nat.isDigit_of_mem_toDigits (by decide) (by decide) hc
  | negSucc m => omega

section Authority

variable {auth host : Str} {remotePort : Int} (hauth : ∀ c ∈ auth, isBase64 c = true)
  (hhost : ∀ c ∈ host, Host.isHostChar c = true) (hport : 1 ≤ remotePort)

/-- A host name or an address has no other characters. -/
theorem mem_host (h : Host.isHost host = true) : ∀ c ∈ host, Host.isHostChar c = true := by
  rw [Host.isHost, Bool.and_eq_true] at h
  exact List.all_eq_true.mp h.1

include hhost in
theorem mem_wrappedHost {c : Char} (hc : c ∈ wrappedHost host) :
    isAuthorityChar c = true ∧ c ≠ '@' := by
  have hall : ∀ x, Host.isHostChar x = true → isAuthorityChar x = true ∧ x ≠ '@' := by
    intro x hx
    refine ⟨?_, ?_⟩
    · simp only [Host.isHostChar, Bool.or_eq_true, beq_iff_eq] at hx
      rcases hx with ((((hx | rfl) | rfl) | rfl) | rfl) | rfl
      · rw [isAuthorityChar, hx, Bool.true_or]
      all_goals decide
    · rintro rfl
      exact absurd hx (by decide)
  rw [wrappedHost] at hc
  split at hc
  · rw [List.mem_append, List.mem_cons, List.mem_singleton] at hc
    rcases hc with (rfl | hc) | rfl
    · decide
    · exact hall c (hhost c hc)
    · decide
  · exact hall c (hhost c hc)

include hhost hport in
/-- Behind the user info. -/
theorem mem_hostPort {c : Char} (hc : c ∈ wrappedHost host ++ ':' :: (toString remotePort).toList) :
    isAuthorityChar c = true ∧ c ≠ '@' := by
  rcases List.mem_append.mp hc with hc | hc
  · exact mem_wrappedHost hhost hc
  · rcases List.mem_cons.mp hc with rfl | hc
    · decide
    · have hd := isDigit_of_mem_port hport c hc
      refine ⟨?_, ?_⟩
      · rw [isAuthorityChar, Char.isAlphanum, hd, Bool.or_true, Bool.true_or]
      · rintro rfl
        exact absurd hd (by decide)

theorem linkAuthority_eq :
    linkAuthority auth host remotePort
      = auth ++ '@' :: (wrappedHost host ++ ':' :: (toString remotePort).toList) :=
  List.append_assoc _ _ _

/-- From the right, the first `@` is the one before the host. -/
theorem reverse_linkAuthority :
    (linkAuthority auth host remotePort).reverse
      = (wrappedHost host ++ ':' :: (toString remotePort).toList).reverse
        ++ '@' :: auth.reverse := by
  rw [linkAuthority_eq]
  simp

include hhost hport in
theorem before_at : ∀ c ∈ (wrappedHost host ++ ':' :: (toString remotePort).toList).reverse,
    decide (c ≠ '@') = true := fun _ hc =>
  decide_eq_true (mem_hostPort hhost hport (List.mem_reverse.mp hc)).2

include hauth hhost hport in
theorem mem_linkAuthority {c : Char} (hc : c ∈ linkAuthority auth host remotePort) :
    isAuthorityChar c = true := by
  rw [linkAuthority_eq, List.mem_append, List.mem_cons] at hc
  rcases hc with hc | rfl | hc
  · have hb := hauth c hc
    simp only [isBase64, Bool.or_eq_true, beq_iff_eq] at hb
    rcases hb with (hb | rfl) | rfl
    · rw [isAuthorityChar, hb, Bool.true_or]
    · decide
    · decide
  · decide
  · exact (mem_hostPort hhost hport hc).1

include hport in
/-- It ends in a digit. -/
theorem linkAuthority_concat :
    ∃ a x, linkAuthority auth host remotePort = a ++ [x] ∧ isFinal x = true := by
  have hne : (toString remotePort).toList ≠ [] := by
    cases remotePort with
    | ofNat m =>
        have hrepr : (toString (Int.ofNat m)).toList = Nat.toDigits 10 m := Nat.toList_repr
        rw [hrepr]
        exact Nat.toDigits_ne_nil
    | negSucc m => omega
  obtain ⟨ds, x, hds⟩ := (List.eq_nil_or_concat _).resolve_left hne
  rw [List.concat_eq_append] at hds
  refine ⟨auth ++ '@' :: (wrappedHost host ++ ':' :: ds), x, ?_, ?_⟩
  · rw [linkAuthority_eq, hds]
    simp
  · refine isFinal_of_isAlphanum ?_
    rw [Char.isAlphanum, isDigit_of_mem_port hport x (hds ▸ by simp), Bool.or_true]

end Authority

/-- The query of a link. -/
def queryText (plugin : Option Str) : Str :=
  plugin.elim [] fun value => "?plugin".toList ++ '=' :: Percent.encode value

/-- The fragment of a link. -/
def fragmentText (name : Option Str) : Str :=
  name.elim [] fun name => '#' :: Percent.encode name

theorem linkText_eq (auth host : Str) (remotePort : Int) (plugin name : Option Str) :
    linkText auth host remotePort plugin name
      = "ss://".toList
        ++ (linkAuthority auth host remotePort ++ (queryText plugin ++ fragmentText name)) := by
  have hkey : Percent.encode Key.plugin.toList = "plugin".toList := by decide
  have hbuild : linkText auth host remotePort plugin name
      = "ss://".toList ++ linkAuthority auth host remotePort ++ queryText plugin
        ++ fragmentText name := by
    unfold linkText Uri.build
    cases plugin with
    | none => cases name <;> rfl
    | some value =>
        dsimp only [Option.map_some]
        rw [hkey]
        cases name <;> rfl
  rw [hbuild, List.append_assoc, List.append_assoc]

theorem ne_of_mem_encode {s : Str} {c d : Char} (h : c ∈ Percent.encode s) (hd : d ≠ '%')
    (hu : Percent.isUnreserved d = false) : c ≠ d := by
  rintro rfl
  rcases Percent.mem_encode h with rfl | h
  · exact hd rfl
  · rw [hu] at h
    exact absurd h (by decide)

theorem mem_queryText {plugin : Option Str} {c : Char} (h : c ∈ queryText plugin) :
    isInner c = true ∧ c ≠ '#' := by
  cases plugin with
  | none => exact absurd h List.not_mem_nil
  | some value =>
      rw [queryText, Option.elim_some, List.mem_append, List.mem_cons] at h
      rcases h with h | rfl | h
      · have hall : "?plugin".toList.all (fun c => isInner c && c != '#') = true := by decide
        have hc := List.all_eq_true.mp hall c h
        rw [Bool.and_eq_true, bne_iff_ne] at hc
        exact hc
      · decide
      · exact ⟨isInner_of_mem_encode h, ne_of_mem_encode h (by decide) (by decide)⟩

/-! ## §2. What is found. -/

/-- The expression at the beginning of a link: it goes through everything
up to `t` and backs off to the last final character. -/
theorem head?_run_pattern {a w t : Str} {c : Char} (ha : ∀ x ∈ a ++ c :: w, isInner x = true)
    (hc : isFinal c = true) (hw : ∀ x ∈ w, isFinal x = false)
    (ht : ∀ x, t.head? = some x → isInner x = false) :
    (Regex.run pattern ("ss://".toList ++ (a ++ c :: (w ++ t)))).head? = some ([], w ++ t) := by
  show (Regex.run pattern ('s' :: 's' :: ':' :: '/' :: '/' :: (a ++ c :: (w ++ t)))).head? = _
  rw [pattern, Regex.run_once _ _ _ rfl rfl (by decide), Regex.run_once _ _ _ rfl rfl (by decide),
    Regex.run_once _ _ _ rfl rfl (by decide), Regex.run_once _ _ _ rfl rfl (by decide),
    Regex.run_once _ _ _ rfl rfl (by decide)]
  refine Regex.head?_run_greedy_once ha hc hw fun x hx => ⟨ht x hx, ?_⟩
  cases hfinal : isFinal x with
  | false => rfl
  | true => exact absurd ((isInner_of_isFinal hfinal).symm.trans (ht x hx)) (by decide)

/-- Inner characters, a final one, and marks. -/
theorem head?_run_marks {a w : Str} {c : Char} (ha : ∀ x ∈ a, isInner x = true)
    (hc : isFinal c = true) (hw : ∀ x ∈ w, isMark x = true) :
    (Regex.run pattern ("ss://".toList ++ (a ++ c :: w))).head? = some ([], w) := by
  have hall : ∀ x ∈ a ++ c :: w, isInner x = true := by
    intro x hx
    rcases List.mem_append.mp hx with hx | hx
    · exact ha x hx
    · rcases List.mem_cons.mp hx with rfl | hx
      · exact isInner_of_isFinal hc
      · exact (isUnreserved_of_isMark (hw x hx)).2.1
  have hrun := head?_run_pattern (t := []) hall hc
    (fun x hx => (isUnreserved_of_isMark (hw x hx)).2.2.1) fun x hx => absurd hx (by simp)
  rwa [List.append_nil] at hrun

/-- **A link is found up to its marks.** -/
theorem findAll_pattern {pre s : Str} {x : Char} (hpre : ∀ c ∈ pre, isInner c = true)
    (hx : isFinal x = true) :
    Regex.findAll pattern 0 ("ss://".toList ++ (pre ++ x :: Percent.encode s))
      = ["ss://".toList ++ (pre ++ x :: Percent.encode (unmarked s))] := by
  obtain ⟨w, -, hw, henc⟩ := encode_unmarked s
  have htext : "ss://".toList ++ (pre ++ x :: Percent.encode s)
      = ("ss://".toList ++ (pre ++ x :: Percent.encode (unmarked s))) ++ w := by
    rw [henc]
    simp
  -- the match ends at the last character that is left, or at `x`
  have hhead : (Regex.run pattern
      (("ss://".toList ++ (pre ++ x :: Percent.encode (unmarked s))) ++ w)).head?
        = some ([], w) := by
    rcases encode_unmarked_final s with hnil | ⟨a, c, hac, hc⟩
    · have hempty : Percent.encode [] = [] := rfl
      rw [hnil, hempty]
      have hrun := head?_run_marks hpre hx hw
      simpa using hrun
    · have hmem : ∀ y ∈ a ++ [c], isInner y = true := fun y hy =>
        isInner_of_mem_encode (hac ▸ hy)
      have hbody : ∀ y ∈ pre ++ x :: a, isInner y = true := by
        intro y hy
        rcases List.mem_append.mp hy with hy | hy
        · exact hpre y hy
        · rcases List.mem_cons.mp hy with rfl | hy
          · exact isInner_of_isFinal hx
          · exact hmem y (List.mem_append_left _ hy)
      have hrun := head?_run_marks hbody hc hw
      rw [hac]
      simpa using hrun
  -- and no other begins in the marks behind it
  have hnone : Regex.findAll pattern 0 w = [] := by
    exact Regex.findAll_eq_nil rfl fun c hc => (isUnreserved_of_isMark (hw c hc)).2.2.2
  rw [htext, Regex.findAll_of_head (by simp) hhead, hnone]

/-- What is found of the plugin: all of it, if the name follows. -/
def foundPlugin (plugin : Option Str) : Option Str → Option Str
  | some _ => plugin
  | none => plugin.map unmarked

section Found

variable {auth host : Str} {remotePort : Int} (hauth : ∀ c ∈ auth, isBase64 c = true)
  (hhost : ∀ c ∈ host, Host.isHostChar c = true) (hport : 1 ≤ remotePort)
include hauth hhost hport

/-- **What `findAllUrls` finds of a link** is one link, its last text
unmarked. -/
theorem findAll_linkText (plugin name : Option Str) :
    Regex.findAll pattern 0 (linkText auth host remotePort plugin name)
      = [linkText auth host remotePort (foundPlugin plugin name) (name.map unmarked)] := by
  have hinner : ∀ c ∈ linkAuthority auth host remotePort, isInner c = true := fun c hc =>
    isInner_of_isAuthorityChar (mem_linkAuthority hauth hhost hport hc)
  rw [linkText_eq, linkText_eq]
  -- the last text is the name, the plugin, or none
  cases name with
  | some name =>
      have hpre : ∀ c ∈ linkAuthority auth host remotePort ++ queryText plugin,
          isInner c = true := by
        intro c hc
        rcases List.mem_append.mp hc with hc | hc
        · exact hinner c hc
        · exact (mem_queryText hc).1
      have hfound := findAll_pattern (s := name) hpre (x := '#') (by decide)
      rw [List.append_assoc, List.append_assoc] at hfound
      exact hfound
  | none =>
      cases plugin with
      | some value =>
          have hpre : ∀ c ∈ linkAuthority auth host remotePort ++ "?plugin".toList,
              isInner c = true := by
            intro c hc
            rcases List.mem_append.mp hc with hc | hc
            · exact hinner c hc
            · exact List.all_eq_true.mp (by decide : "?plugin".toList.all isInner = true) c hc
          have hfound := findAll_pattern (s := value) hpre (x := '=') (by decide)
          rw [List.append_assoc, List.append_assoc] at hfound
          simpa [queryText, fragmentText, foundPlugin] using hfound
      | none =>
          obtain ⟨a, x, hax, hx⟩ : ∃ a x, linkAuthority auth host remotePort = a ++ [x]
              ∧ isFinal x = true := linkAuthority_concat hport
          rw [hax] at hinner ⊢
          have hfound : Regex.findAll pattern 0 ("ss://".toList ++ (a ++ [x]))
              = ["ss://".toList ++ (a ++ [x])] :=
            findAll_pattern (s := []) (fun c hc => hinner c (List.mem_append_left _ hc)) hx
          simpa [queryText, fragmentText, foundPlugin] using hfound

end Found

/-! ## §3. A link, taken apart. -/

section Parts

variable {auth host : Str} {remotePort : Int} (hauth : ∀ c ∈ auth, isBase64 c = true)
  (hhost : ∀ c ∈ host, Host.isHostChar c = true) (hport : 1 ≤ remotePort) (plugin name : Option Str)

/-- What stands before the fragment. -/
def beforeFragment (auth host : Str) (remotePort : Int) (plugin : Option Str) : Str :=
  "ss://".toList ++ (linkAuthority auth host remotePort ++ queryText plugin)

theorem linkText_fragment :
    linkText auth host remotePort plugin name
      = beforeFragment auth host remotePort plugin ++ fragmentText name := by
  unfold beforeFragment
  rw [linkText_eq, List.append_assoc, List.append_assoc]

theorem head?_fragmentText {name : Option Str} {c : Char} (h : (fragmentText name).head? = some c) :
    c = '#' := by
  cases name with
  | none => exact absurd h (by simp [fragmentText])
  | some name => exact (Option.some.inj h).symm

theorem head?_queryText {plugin : Option Str} {c : Char} (h : (queryText plugin).head? = some c) :
    c = '?' := by
  cases plugin with
  | none => exact absurd h (by simp [queryText])
  | some value => exact (Option.some.inj h).symm

include hauth hhost hport

/-- The delimiters are not in the authority. -/
theorem not_delimiter {c : Char} (hc : c ∈ linkAuthority auth host remotePort) :
    c ≠ '/' ∧ c ≠ '\\' ∧ c ≠ '?' ∧ c ≠ '#' := by
  have hm := mem_linkAuthority hauth hhost hport hc
  refine ⟨?_, ?_, ?_, ?_⟩ <;>
    · rintro rfl
      exact absurd hm (by decide)

theorem encodedAuthority_linkText :
    Uri.encodedAuthority (linkText auth host remotePort plugin name)
      = some (linkAuthority auth host remotePort) := by
  rw [linkText_eq]
  -- the first colon is that of `ss://`
  show some ((linkAuthority auth host remotePort
    ++ (queryText plugin ++ fragmentText name)).takeWhile
      fun c => c ≠ '/' && c ≠ '\\' && c ≠ '?' && c ≠ '#') = _
  rw [takeWhile_append_stop]
  · intro c hc
    obtain ⟨h1, h2, h3, h4⟩ := not_delimiter hauth hhost hport hc
    simp [h1, h2, h3, h4]
  · intro c hc
    cases plugin with
    | none =>
        obtain rfl := head?_fragmentText hc
        decide
    | some value =>
        obtain rfl := Option.some.inj hc
        decide

theorem encodedUserInfo_linkText :
    Uri.encodedUserInfo (linkText auth host remotePort plugin name) = some auth := by
  rw [Uri.encodedUserInfo, encodedAuthority_linkText hauth hhost hport]
  have hdrop : (linkAuthority auth host remotePort).reverse.dropWhile (· ≠ '@')
      = '@' :: auth.reverse := by
    rw [reverse_linkAuthority]
    exact dropWhile_append_stop (before_at hhost hport) (head_stop (by decide))
  dsimp only
  rw [hdrop]
  show some auth.reverse.reverse = some auth
  rw [List.reverse_reverse]

theorem mem_beforeFragment {c : Char} (hc : c ∈ beforeFragment auth host remotePort plugin) :
    c ≠ '#' := by
  rcases List.mem_append.mp hc with hc | hc
  · rintro rfl
    exact absurd hc (by decide)
  · rcases List.mem_append.mp hc with hc | hc
    · exact (not_delimiter hauth hhost hport hc).2.2.2
    · exact (mem_queryText hc).2

theorem encodedFragment_linkText :
    Uri.encodedFragment (linkText auth host remotePort plugin name)
      = name.map Percent.encode := by
  have hdrop : (linkText auth host remotePort plugin name).dropWhile (· ≠ '#')
      = fragmentText name := by
    rw [linkText_fragment]
    refine dropWhile_append_stop ?_ ?_
    · intro c hc
      simpa using mem_beforeFragment hauth hhost hport plugin hc
    · intro c hc
      obtain rfl := head?_fragmentText hc
      decide
  rw [Uri.encodedFragment, hdrop]
  cases name <;> rfl

theorem encodedQuery_linkText :
    Uri.encodedQuery (linkText auth host remotePort plugin name)
      = plugin.map fun value => "plugin".toList ++ '=' :: Percent.encode value := by
  have htake : (linkText auth host remotePort plugin name).takeWhile (· ≠ '#')
      = beforeFragment auth host remotePort plugin := by
    rw [linkText_fragment]
    refine takeWhile_append_stop ?_ ?_
    · intro c hc
      simpa using mem_beforeFragment hauth hhost hport plugin hc
    · intro c hc
      obtain rfl := head?_fragmentText hc
      decide
  have hdrop : (beforeFragment auth host remotePort plugin).dropWhile (· ≠ '?')
      = queryText plugin := by
    unfold beforeFragment
    rw [← List.append_assoc]
    refine dropWhile_append_stop ?_ ?_
    · intro c hc
      rcases List.mem_append.mp hc with hc | hc
      · exact List.all_eq_true.mp (by decide : "ss://".toList.all (· ≠ '?') = true) c hc
      · simpa using (not_delimiter hauth hhost hport hc).2.2.1
    · intro c hc
      obtain rfl := head?_queryText hc
      decide
  rw [Uri.encodedQuery, htake, hdrop]
  cases plugin <;> rfl

theorem queryParameter_linkText (P : Platform) :
    P.queryParameter (linkText auth host remotePort plugin name) Key.plugin.toList = plugin := by
  rw [Platform.queryParameter, encodedQuery_linkText hauth hhost hport]
  cases plugin with
  | none => rfl
  | some value =>
      -- there is one parameter, and its name ends at the first `=`
      have hamp : '&' ∉ "plugin".toList ++ '=' :: Percent.encode value := by
        rw [List.mem_append, List.mem_cons]
        rintro (h | h | h)
        · exact absurd h (by decide)
        · exact absurd h (by decide)
        · exact ne_of_mem_encode h (by decide) (by decide) rfl
      have hstop : ∀ c, ('=' :: Percent.encode value).head? = some c → decide (c ≠ '=') = false :=
        head_stop (by decide)
      have hname : ∀ c ∈ "plugin".toList, decide (c ≠ '=') = true :=
        List.all_eq_true.mp (by decide : "plugin".toList.all (· ≠ '=') = true)
      have hkey : Percent.encode Key.plugin.toList = "plugin".toList := by decide
      dsimp only [Option.map_some]
      rw [splitOn_of_not_mem hamp, List.findSome?_cons, takeWhile_append_stop hname hstop,
        dropWhile_append_stop hname hstop, if_pos hkey.symm]
      dsimp only
      rw [P.decode_encode]

end Parts

end FoxVpn.Database
