/-
  FoxVpn.Acl.CustomRules
  ──────────────────────
  **THE CUSTOM RULES, FROM THE USER'S FILE TO THE FILE OF A SESSION.**

  The user's rules are kept as the text of an ACL, `custom-rules-user.acl`.
  At the start of a session with the route `custom-rules` they are read,
  forced into bypass mode, flattened and printed again, to `custom-rules.acl`,
  which ss-local is started with:

      customRules.flatten(10, openConnection).also { save(CUSTOM_RULES, it) }

  Files of an older version lie in another directory, and `Core.init` moves
  them.  The two files pass through the printer and the reader over and over,
  as a whole and with every import.

  Main result `session_rules_read_back`: over any sequence of edits that write
  well-formed rules (a host name `[x]` is none: it reads as a block), process
  starts and session starts (with any network, failing ones included) the
  rules can always be read, and the file of a session is the print of the
  rules the user had when it was written, flattened: read in either mode it
  gives exactly these rules, in bypass mode and with nothing left to import.
-/
import FoxVpn.Acl.RoundTrip
import FoxVpn.Acl.Flatten

namespace FoxVpn.Acl

open FoxVpn.Lib FoxVpn.Net

variable {α β : Type} [InetAddress α] [DecidableEq α] [URL β]

/-! ## §1. The files. -/

/-- The ACL files of the custom rules; `none` is a file that cannot be read. -/
structure CustomFiles where
  /-- `custom-rules-user.acl` in the storage of older versions. -/
  old : Option Text := none
  /-- `custom-rules-user.acl`. -/
  user : Option Text := none
  /-- `custom-rules.acl`. -/
  session : Option Text := none
  deriving Repr, DecidableEq

/-- The end of the getter: in the other mode the subnets mean the opposite,
and go. -/
def forceBypass (a : Acl α β) : Acl α β :=
  if a.bypass then a else { a with bypass := true, subnets := .empty }

namespace CustomFiles

/-- The getter of `customRules`. -/
def customRules (files : CustomFiles) : Except Fault (Acl α β) :=
  match files.user with
  | none => .ok (forceBypass {})
  | some content =>
      match ({} : Acl α β).fromReader content true with
      | .ok a => .ok a.forceBypass
      | .error (e, _) => .error e

/-- The setter of `customRules`. -/
def setCustomRules (files : CustomFiles) (value : Acl α β) : CustomFiles :=
  { files with user := some value.toString }

/-- `Core.init`: the old file replaces the new one. -/
def migrate (files : CustomFiles) : CustomFiles :=
  match files.old with
  | none => files
  | some content => { files with user := some content, old := none }

/-- The start of a session, up to `Acl.save`; `connect` is the network as
the session finds it. -/
def startSession (files : CustomFiles) (α : Type) [InetAddress α] [DecidableEq α]
    (connect : β → Option Text) : Except ImportFault CustomFiles :=
  match (files.customRules : Except Fault (Acl α β)) with
  | .error e => .error (.parse e)
  | .ok root =>
      match root.flatten 10 connect with
      | .error e => .error e
      | .ok acl => .ok { files with session := some acl.toString }

end CustomFiles

variable (α β) in
/-- What happens to the files. -/
inductive Use where
  | set (value : Acl α β)
  | init
  | start (connect : β → Option Text)

/-- A session that fails leaves the files as they are. -/
def CustomFiles.use (files : CustomFiles) : Use α β → CustomFiles
  | .set value => files.setCustomRules value
  | .init => files.migrate
  | .start connect => (files.startSession α connect).toOption.getD files

def CustomFiles.useAll (files : CustomFiles) (uses : List (Use α β)) : CustomFiles :=
  uses.foldl use files

/-! ## §2. Printing and reading. -/

theorem forceBypass_bypass (a : Acl α β) : a.forceBypass.bypass = true := by
  unfold forceBypass
  split
  next h => exact h
  next => rfl

theorem forceBypass_wellFormed {a : Acl α β} (h : a.WellFormed) : a.forceBypass.WellFormed := by
  unfold forceBypass
  split
  next => exact h
  next => exact { h with subnets := SortedList.forall_mem_empty }

/-- Reading what was printed, as an equation: only the URLs are sorted
afresh. -/
theorem fromReader_print {a : Acl α β} (h : a.WellFormed) (defaultBypass : Bool) :
    ({} : Acl α β).fromReader a.toString defaultBypass
      = .ok { a with urls := SortedList.empty.addAll a.urls.items } := by
  obtain ⟨s, hs, hbypass, hsubnets, hcalls⟩ := parse_toString h defaultBypass
  obtain ⟨hb, hp, hu⟩ := filterMap_calls a.bypassHostnames.items a.proxyHostnames.items a.urls.items
  rw [← hcalls] at hb hp hu
  refine fromReader_eq_ok.mpr ⟨s, hs, ?_⟩
  rw [hb, hp, hu, hbypass, hsubnets, stringSorter_eq a.bypassHostnames.addAll_items_perm,
    stringSorter_eq a.proxyHostnames.addAll_items_perm,
    subnetSorter_eq a.subnets.addAll_items_perm]

/-- A flattened ACL is read back as it was. -/
theorem fromReader_print_of_noUrls {a : Acl α β} (h : a.WellFormed) (hurls : a.urls = .empty)
    (defaultBypass : Bool) :
    ({} : Acl α β).fromReader a.toString defaultBypass = .ok a := by
  rw [fromReader_print h, hurls]
  obtain ⟨bypassHostnames, proxyHostnames, subnets, urls, bypass⟩ := a
  obtain rfl : urls = .empty := hurls
  rfl

/-! ## §3. What every use keeps. -/

variable (α β) in
/-- The text of a file is an ACL. -/
def Reads (content : Text) : Prop :=
  ∃ a : Acl α β, ({} : Acl α β).fromReader content true = .ok a

variable (α β) in
/-- Both files of the user can be read, if they are there. -/
structure Readable (files : CustomFiles) : Prop where
  old : ∀ content, files.old = some content → Reads α β content
  user : ∀ content, files.user = some content → Reads α β content

/-- The rules of readable files. -/
theorem Readable.customRules {files : CustomFiles} (h : Readable α β files) :
    ∃ root : Acl α β, files.customRules = .ok root ∧ root.bypass = true ∧ root.WellFormed := by
  unfold CustomFiles.customRules
  cases huser : files.user with
  | none =>
      refine ⟨_, rfl, forceBypass_bypass _, forceBypass_wellFormed ?_⟩
      exact ⟨SortedList.forall_mem_empty, SortedList.forall_mem_empty,
        SortedList.forall_mem_empty, SortedList.forall_mem_empty⟩
  | some content =>
      obtain ⟨a, ha⟩ := h.user content huser
      simp only [ha]
      exact ⟨_, rfl, forceBypass_bypass a, forceBypass_wellFormed (fromReader_wellFormed ha)⟩

/-- A successful start: the rules, what they flatten to, and the one file
that is written. -/
theorem startSession_eq_ok {files files' : CustomFiles} {connect : β → Option Text}
    (h : files.startSession α connect = .ok files') :
    ∃ root r : Acl α β, files.customRules = .ok root ∧ root.flatten 10 connect = .ok r
      ∧ files' = { files with session := some r.toString } := by
  unfold CustomFiles.startSession at h
  split at h
  next => exact absurd h (by simp)
  next root hroot =>
    split at h
    next => exact absurd h (by simp)
    next r hr => exact ⟨root, r, hroot, hr, (Except.ok.inj h).symm⟩

theorem use_start_error {files : CustomFiles} {connect : β → Option Text} {e : ImportFault}
    (h : files.startSession α connect = .error e) :
    files.use (.start connect : Use α β) = files := by
  show (files.startSession α connect).toOption.getD files = files
  rw [h]
  rfl

theorem use_start_ok {files files' : CustomFiles} {connect : β → Option Text}
    (h : files.startSession α connect = .ok files') :
    files.use (.start connect : Use α β) = files' := by
  show (files.startSession α connect).toOption.getD files = files'
  rw [h]
  rfl

/-- The values an edit may write. -/
def Use.Ok : Use α β → Prop
  | .set value => value.WellFormed
  | _ => True

theorem readable_use {files : CustomFiles} {u : Use α β} (hu : u.Ok) (h : Readable α β files) :
    Readable α β (files.use u) := by
  cases u with
  | set value =>
      refine ⟨h.old, fun content hcontent => ?_⟩
      obtain rfl : value.toString = content := Option.some.inj hcontent
      exact ⟨_, fromReader_print hu true⟩
  | init =>
      unfold CustomFiles.use CustomFiles.migrate
      cases hold : files.old with
      | none => exact h
      | some content =>
          refine ⟨fun _ hnone => absurd hnone (by simp), fun content' hcontent => ?_⟩
          obtain rfl : content = content' := Option.some.inj hcontent
          exact h.old content hold
  | start connect =>
      cases hs : files.startSession α connect with
      | error e =>
          rw [use_start_error hs]
          exact h
      | ok files' =>
          rw [use_start_ok hs]
          obtain ⟨root, r, -, -, rfl⟩ := startSession_eq_ok hs
          exact ⟨h.old, h.user⟩

theorem readable_useAll {files : CustomFiles} (h : Readable α β files) :
    ∀ uses : List (Use α β), (∀ u ∈ uses, u.Ok) → Readable α β (files.useAll uses) := by
  intro uses
  induction uses generalizing files with
  | nil => intro _; exact h
  | cons u uses ih =>
      intro huses
      exact ih (readable_use (huses u List.mem_cons_self) h)
        fun v hv => huses v (List.mem_cons_of_mem u hv)

/-- A session has written its file, from the rules of its time, and the file
is as it left it. -/
def Wrote (files : CustomFiles) (uses : List (Use α β)) : Prop :=
  ∃ (earlier later : List (Use α β)) (connect : β → Option Text) (root r : Acl α β),
    uses = earlier ++ .start connect :: later
      ∧ (files.useAll earlier).customRules = .ok root
      ∧ root.flatten 10 connect = .ok r
      ∧ (files.useAll uses).session = some r.toString

theorem useAll_concat (files : CustomFiles) (uses : List (Use α β)) (u : Use α β) :
    files.useAll (uses ++ [u]) = (files.useAll uses).use u := by
  unfold CustomFiles.useAll
  rw [List.foldl_append]
  rfl

/-- A use that leaves the session's file alone. -/
theorem Wrote.concat {files : CustomFiles} {uses : List (Use α β)} {u : Use α β}
    (hsame : ((files.useAll uses).use u).session = (files.useAll uses).session)
    (h : (files.useAll uses).session = files.session ∨ Wrote files uses) :
    (files.useAll (uses ++ [u])).session = files.session ∨ Wrote files (uses ++ [u]) := by
  unfold Wrote
  rw [useAll_concat, hsame]
  refine h.imp_right ?_
  rintro ⟨earlier, later, connect, root, r, rfl, hroot, hr, hsession⟩
  exact ⟨earlier, later ++ [u], connect, root, r, by simp, hroot, hr, hsession⟩

/-- **Whose print the session's file is**: nobody's, or that of the last
session that started. -/
theorem session_useAll (files : CustomFiles) (uses : List (Use α β)) :
    (files.useAll uses).session = files.session ∨ Wrote files uses := by
  -- from the end of the run: the last use wrote the file, or left it alone
  induction uses using List.reverseRecOn with
  | nil => exact .inl rfl
  | append_singleton uses u ih =>
      cases u with
      | set value => exact Wrote.concat rfl ih
      | init =>
          refine Wrote.concat ?_ ih
          show (files.useAll uses).migrate.session = _
          unfold CustomFiles.migrate
          cases (files.useAll uses).old <;> rfl
      | start connect =>
          cases hs : (files.useAll uses).startSession α connect with
          | error e =>
              refine Wrote.concat ?_ ih
              rw [use_start_error hs]
          | ok files' =>
              obtain ⟨root, r, hroot, hr, rfl⟩ := startSession_eq_ok hs
              refine .inr ⟨uses, [], connect, root, r, rfl, hroot, hr, ?_⟩
              rw [useAll_concat, use_start_ok hs]

/-! ## §4. The file of the session. -/

/-- **THE RULES OF A SESSION**: after any uses of readable files in which
every ACL that is set is well formed, the rules can be read, in bypass mode;
and the session's file, unless it has not been written, is read back in either
mode as the rules that some session found, flattened.  It imports nothing, and
its subnets all come from lists in bypass mode. -/
theorem session_rules_read_back {files : CustomFiles} (h : Readable α β files)
    (uses : List (Use α β)) (huses : ∀ u ∈ uses, u.Ok) :
    (∃ root : Acl α β, (files.useAll uses).customRules = .ok root ∧ root.bypass = true)
      ∧ ((files.useAll uses).session = files.session
        ∨ ∃ (earlier later : List (Use α β)) (connect : β → Option Text) (root r : Acl α β)
            (content : Text),
          uses = earlier ++ .start connect :: later
            ∧ (files.useAll earlier).customRules = .ok root
            ∧ (files.useAll uses).session = some content
            ∧ (∀ defaultBypass, ({} : Acl α β).fromReader content defaultBypass = .ok r)
            ∧ r.bypass = true ∧ r.urls = .empty
            ∧ (∀ x, x ∈ r.proxyHostnames
              ↔ ∃ c, Path connect (fun _ => True) 10 root c ∧ x ∈ c.proxyHostnames)
            ∧ (∀ x, x ∈ r.bypassHostnames
              ↔ ∃ c, Path connect (fun _ => True) 10 root c ∧ x ∈ c.bypassHostnames)
            ∧ ∀ n, n ∈ r.subnets
              ↔ ∃ c, Path connect (fun c => c.bypass = true) 10 root c ∧ n ∈ c.subnets) := by
  constructor
  · obtain ⟨root, hroot, hbypass, -⟩ := (readable_useAll h uses huses).customRules
    exact ⟨root, hroot, hbypass⟩
  refine (session_useAll files uses).imp_right ?_
  rintro ⟨earlier, later, connect, root, r, rfl, hroot, hr, hsession⟩
  have hearlier : Readable α β (files.useAll earlier) :=
    readable_useAll h earlier fun u hu => huses u (List.mem_append_left _ hu)
  obtain ⟨root', hroot', hbypass, hwell⟩ := hearlier.customRules
  obtain rfl : root' = root := Except.ok.inj (hroot'.symm.trans hroot)
  obtain ⟨hmode, hurls⟩ := flattenTo_bypass hr
  have hrwell : r.WellFormed := flattenTo_wellFormed connect 10 hwell hr
  refine ⟨earlier, later, connect, root', r, r.toString, rfl, hroot, hsession,
    fromReader_print_of_noUrls hrwell hurls, hmode.trans hbypass, hurls, ?_, ?_, ?_⟩
  · exact fun x => mem_flattenTo (f := Acl.proxyHostnames) (p := fun _ _ => True)
      mem_merge_proxyHostnames (fun _ => rfl) (fun _ _ _ => rfl) (fun _ => trivial) hr
  · exact fun x => mem_flattenTo (f := Acl.bypassHostnames) (p := fun _ _ => True)
      mem_merge_bypassHostnames (fun _ => rfl) (fun _ _ _ => rfl) (fun _ => trivial) hr
  · intro n
    have hmem := mem_flattenTo (f := Acl.subnets) (p := fun m m' => m' = m) (x := n)
      mem_merge_subnets (fun _ => rfl) (fun _ _ hm => by rw [hm]) (fun _ => rfl) hr
    rw [hbypass] at hmem
    exact hmem

/-- The rules import one list, in the other mode. -/
def oneImport (u : PlainURL) : Option Text :=
  if u.spec = text "a" then some (text "[proxy_all]\n[proxy_list]\nb.com\n127.0.0.1/8\n") else none

/-- An older version has left rules in proxy mode. -/
def leftRules : CustomFiles :=
  { old := some (text "[proxy_all]\n127.0.0.1/8\n#IMPORT_URL <a>\n") }

/-- They are moved, and a session starts with them. -/
def migrated : List (Use Loopback PlainURL) := [.init, .start oneImport]

/-- The subnet is gone with the mode; the imported host name has come. -/
theorem session_rules_read_back_migrated :
    ∃ (content : Text) (r : Acl Loopback PlainURL),
      (leftRules.useAll migrated).session = some content
        ∧ ({} : Acl Loopback PlainURL).fromReader content false = .ok r
        ∧ r.bypass = true ∧ r.subnets.items = [] ∧ r.proxyHostnames.items = [text "b.com"] := by
  have hread : Readable Loopback PlainURL leftRules := by
    refine ⟨fun content hold => ?_, fun content huser => absurd huser (by simp [leftRules])⟩
    obtain rfl := Option.some.inj hold
    exact ⟨_, rfl⟩
  obtain ⟨content, r, hsession, hr, hsubnets, hproxy⟩ :
      ∃ (content : Text) (r : Acl Loopback PlainURL),
        (leftRules.useAll migrated).session = some content
          ∧ ({} : Acl Loopback PlainURL).fromReader content false = .ok r
          ∧ r.subnets.items = [] ∧ r.proxyHostnames.items = [text "b.com"] :=
    ⟨_, _, rfl, rfl, rfl, rfl⟩
  obtain hnone | hwrote := (session_rules_read_back hread migrated (by simp [migrated, Use.Ok])).2
  · exact absurd (hsession.symm.trans hnone) (by simp [leftRules])
  · obtain ⟨-, -, -, -, r', content', -, -, hcontent, hback, hbypass, -⟩ := hwrote
    obtain rfl := Option.some.inj (hcontent.symm.trans hsession)
    obtain rfl := Except.ok.inj ((hback false).symm.trans hr)
    exact ⟨content', r', hsession, hr, hbypass, hsubnets, hproxy⟩

end FoxVpn.Acl
