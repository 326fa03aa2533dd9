/-
  FoxVpn.Acl.Flatten
  ──────────────────
  **WHAT A FLATTENED ACL CONTAINS.**

  `flatten` reads the imported ACLs, flattens each of them to one level
  less, throws the subnets of a child away if its mode conflicts and merges
  the rest.  A child is read in the mode of its importer, so its own mode
  may be inherited, and the import graph may be cyclic.

  A `Path` is a chain of at most `n` imports.  `flatten_contents`: the host
  names are those of every ACL on a path from the root, the subnets those
  of the ACLs on a path along which EVERY mode is the one of the root.
-/
import FoxVpn.Acl.Acl

namespace FoxVpn.Acl

open FoxVpn.Lib FoxVpn.Net

variable {α β : Type} [InetAddress α] [DecidableEq α] [URL β]

/-! ## §1. Paths of imports. -/

/-- At most `n` imports lead from one ACL to the other, through ACLs with
`p` only; each is read with the mode of its importer as default. -/
inductive Path (connect : β → Option Text) (p : Acl α β → Prop) : Nat → Acl α β → Acl α β → Prop
  | here {n : Nat} {a : Acl α β} (ha : p a) : Path connect p n a a
  | step {n : Nat} {a b c : Acl α β} {u : β} (ha : p a) (hu : u ∈ a.urls)
      (hb : importAcl connect a.bypass u = .ok b) (h : Path connect p n b c) :
      Path connect p (n + 1) a c

theorem Path.head {connect : β → Option Text} {p : Acl α β → Prop} {n : Nat} {a c : Acl α β}
    (h : Path connect p n a c) : p a := by
  cases h with
  | here ha => exact ha
  | step ha => exact ha

theorem Path.last {connect : β → Option Text} {p : Acl α β → Prop} {n : Nat} {a c : Acl α β}
    (h : Path connect p n a c) : p c := by
  induction h with
  | here ha => exact ha
  | step _ _ _ _ ih => exact ih

theorem Path.mono {connect : β → Option Text} {p q : Acl α β → Prop} {n : Nat} {a c : Acl α β}
    (h : Path connect p n a c) (hpq : ∀ b, p b → q b) : Path connect q n a c := by
  induction h with
  | here ha => exact .here (hpq _ ha)
  | step ha hu hb _ ih => exact .step (hpq _ ha) hu hb ih

/-! ## §2. Merging. -/

theorem merge_bypass (a child : Acl α β) : (a.merge child).bypass = a.bypass := rfl

theorem foldl_merge_bypass : ∀ (children : List (Acl α β)) (a : Acl α β),
    (children.foldl merge a).bypass = a.bypass
  | [], _ => rfl
  | c :: children, a => (foldl_merge_bypass children (a.merge c)).trans (merge_bypass a c)

theorem flattenTo_bypass {connect : β → Option Text} : ∀ {n : Nat} {a r : Acl α β},
    flattenTo connect n a = .ok r → r.bypass = a.bypass ∧ r.urls = .empty
  | 0, a, r, h => by
      rw [← Except.ok.inj h]
      exact ⟨rfl, rfl⟩
  | n + 1, a, r, h => by
      obtain ⟨children, _, rfl⟩ := flattenTo_succ h
      exact ⟨foldl_merge_bypass children a, rfl⟩

section Contents

/- One of the lists of an ACL, and between which modes it is merged: all, or
equal ones. -/
variable {γ : Type} {cb : Callback γ} {f : Acl α β → SortedList cb} {p : Bool → Bool → Prop}
  (hmerge : ∀ (a child : Acl α β) (x : γ),
    x ∈ f (a.merge child) ↔ x ∈ f a ∨ (p a.bypass child.bypass ∧ x ∈ f child))
  (hurls : ∀ a : Acl α β, f { a with urls := .empty } = f a)
  (hp : ∀ m m', p m m' → p m = p m') (hrefl : ∀ m, p m m)

include hmerge

theorem mem_foldl_merge {x : γ} : ∀ (children : List (Acl α β)) (a : Acl α β),
    x ∈ f (children.foldl merge a)
      ↔ x ∈ f a ∨ ∃ c ∈ children, p a.bypass c.bypass ∧ x ∈ f c
  | [], a => by simp
  | c :: children, a => by
      rw [List.foldl_cons, mem_foldl_merge children (a.merge c), hmerge, merge_bypass, or_assoc,
        List.exists_mem_cons_iff]

include hurls hp hrefl

/-- **One list of a flattened ACL**, by induction on the depth: the items of
the ACLs on the paths along which it is merged. -/
theorem mem_flattenTo {connect : β → Option Text} {x : γ} : ∀ {n : Nat} {a r : Acl α β},
    flattenTo connect n a = .ok r →
      (x ∈ f r ↔ ∃ c, Path connect (fun c => p a.bypass c.bypass) n a c ∧ x ∈ f c)
  | 0, a, r, h => by
      rw [← Except.ok.inj h, hurls]
      constructor
      · intro hx
        exact ⟨a, .here (hrefl a.bypass), hx⟩
      · rintro ⟨c, hpath, hx⟩
        cases hpath with
        | here => exact hx
  | n + 1, a, r, h => by
      obtain ⟨children, hchildren, rfl⟩ := flattenTo_succ h
      rw [hurls, mem_foldl_merge hmerge]
      constructor
      · rintro (hx | ⟨child, hmem, hmode, hx⟩)
        · exact ⟨a, .here (hrefl a.bypass), hx⟩
        · -- the path continues in the import the child comes from
          obtain ⟨u, hu, b, hb, hflat⟩ := hchildren.of_child child hmem
          obtain ⟨c, hpath, hxc⟩ := (mem_flattenTo hflat).mp hx
          rw [(flattenTo_bypass hflat).1] at hmode
          rw [← hp _ _ hmode] at hpath
          exact ⟨c, .step (hrefl a.bypass) hu hb hpath, hxc⟩
      · rintro ⟨c, hpath, hx⟩
        cases hpath with
        | here => exact Or.inl hx
        | step _ hu hb hpath =>
            obtain ⟨child, hmem, b', hb', hflat⟩ := hchildren.of_url _ hu
            obtain rfl := Except.ok.inj (hb.symm.trans hb')
            have hmode := hpath.head
            rw [hp _ _ hmode] at hpath
            refine Or.inr ⟨child, hmem, ?_, (mem_flattenTo hflat).mpr ⟨c, hpath, hx⟩⟩
            rw [(flattenTo_bypass hflat).1]
            exact hmode

end Contents

/-! ## §3. The three lists. -/

theorem stringSorter_same (a b : Text) (h : StringSorter.areItemsTheSame a b = true) : a = b :=
  beq_iff_eq.mp h

theorem subnetSorter_same (a b : Subnet α) (h : (SubnetSorter α).areItemsTheSame a b = true) :
    a = b := of_decide_eq_true h

theorem mem_merge_bypassHostnames (a child : Acl α β) (x : Text) :
    x ∈ (a.merge child).bypassHostnames
      ↔ x ∈ a.bypassHostnames ∨ (True ∧ x ∈ child.bypassHostnames) := by
  rw [true_and]
  exact SortedList.mem_addAll_iff stringSorter_same _ _

theorem mem_merge_proxyHostnames (a child : Acl α β) (x : Text) :
    x ∈ (a.merge child).proxyHostnames
      ↔ x ∈ a.proxyHostnames ∨ (True ∧ x ∈ child.proxyHostnames) := by
  rw [true_and]
  exact SortedList.mem_addAll_iff stringSorter_same _ _

/-- Subnets are merged between equal modes only. -/
theorem mem_merge_subnets (a child : Acl α β) (x : Subnet α) :
    x ∈ (a.merge child).subnets
      ↔ x ∈ a.subnets ∨ (child.bypass = a.bypass ∧ x ∈ child.subnets) := by
  unfold merge
  dsimp only
  rw [SortedList.mem_addAll_iff subnetSorter_same]
  by_cases hmode : a.bypass = child.bypass
  · rw [if_neg (not_not.mpr hmode), and_iff_right hmode.symm]
    rfl
  · -- the child has been cleared: nothing comes from it
    rw [if_pos hmode]
    refine or_congr_right ⟨fun hx => ?_, fun hx => absurd hx.1.symm hmode⟩
    exact absurd hx (SortedList.not_mem_empty x)

/-- **WHAT `flatten` MEANS.**  If no fetch and no parse fails, for every
graph of imports and every depth: the mode stays, no URL is left, the host
names come along every path, the subnets along the paths in the mode of the
root.  So no subnet is taken over from an ACL of the other mode. -/
theorem flatten_contents {root r : Acl α β} {depth : Int} {connect : β → Option Text}
    (h : root.flatten depth connect = .ok r) :
    r.bypass = root.bypass ∧ r.urls = .empty
      ∧ (∀ x, x ∈ r.bypassHostnames
        ↔ ∃ c, Path connect (fun _ => True) depth.toNat root c ∧ x ∈ c.bypassHostnames)
      ∧ (∀ x, x ∈ r.proxyHostnames
        ↔ ∃ c, Path connect (fun _ => True) depth.toNat root c ∧ x ∈ c.proxyHostnames)
      ∧ (∀ n, n ∈ r.subnets
        ↔ ∃ c, Path connect (fun c => c.bypass = root.bypass) depth.toNat root c
          ∧ n ∈ c.subnets)
      ∧ ∀ n ∈ r.subnets, ∃ c, Path connect (fun _ => True) depth.toNat root c
          ∧ n ∈ c.subnets ∧ c.bypass = r.bypass := by
  obtain ⟨hbypass, hurls⟩ := flattenTo_bypass h
  have hsubnets : ∀ n, n ∈ r.subnets
      ↔ ∃ c, Path connect (fun c => c.bypass = root.bypass) depth.toNat root c ∧ n ∈ c.subnets :=
    fun n => mem_flattenTo (f := Acl.subnets) (p := fun m m' => m' = m) mem_merge_subnets
      (fun _ => rfl) (fun _ _ hm => by rw [hm]) (fun _ => rfl) h
  refine ⟨hbypass, hurls, fun x => ?_, fun x => ?_, hsubnets, fun n hn => ?_⟩
  · exact mem_flattenTo (f := Acl.bypassHostnames) (p := fun _ _ => True)
      mem_merge_bypassHostnames (fun _ => rfl) (fun _ _ _ => rfl) (fun _ => trivial) h
  · exact mem_flattenTo (f := Acl.proxyHostnames) (p := fun _ _ => True)
      mem_merge_proxyHostnames (fun _ => rfl) (fun _ _ _ => rfl) (fun _ => trivial) h
  · obtain ⟨c, hpath, hx⟩ := (hsubnets n).mp hn
    exact ⟨c, hpath.mono fun _ _ => trivial, hx, hpath.last.trans hbypass.symm⟩

/-- Two ACLs of different modes that import each other. -/
def ringConnect (u : PlainURL) : Option Text :=
  if u.spec = text "a" then some (text "[proxy_all]\n[bypass_list]\na.com\n#IMPORT_URL <b>\n")
  else some (text "[bypass_all]\n[proxy_list]\n127.0.0.1/8\nb.com\n#IMPORT_URL <a>\n")

/-- Around the ring and once more: the host names of the other ACL arrive,
its subnet does not. -/
theorem flatten_contents_ring : ∃ root r : Acl Loopback PlainURL,
    importAcl ringConnect false ⟨text "a", by decide⟩ = .ok root
      ∧ root.flatten 3 ringConnect = .ok r ∧ r.bypass = false ∧ r.urls = .empty
      ∧ r.subnets.items = []
      ∧ (∃ c, Path ringConnect (fun _ => True) 3 root c ∧ text "b.com" ∈ c.proxyHostnames)
      ∧ ∀ n, ¬ ∃ c, Path ringConnect (fun c => c.bypass = root.bypass) 3 root c
          ∧ n ∈ c.subnets := by
  obtain ⟨root, r, hroot, hmode, hr, hnone, hb⟩ : ∃ root r : Acl Loopback PlainURL,
      importAcl ringConnect false ⟨text "a", by decide⟩ = .ok root ∧ root.bypass = false
        ∧ root.flatten 3 ringConnect = .ok r ∧ r.subnets.items = []
        ∧ r.proxyHostnames.items = [text "b.com"] := ⟨_, _, rfl, rfl, rfl, rfl, rfl⟩
  obtain ⟨hbypass, hurls, _, hproxy, hsubnets, _⟩ := flatten_contents hr
  refine ⟨root, r, hroot, hr, hbypass.trans hmode, hurls, hnone, ?_, fun n hn => ?_⟩
  · refine (hproxy (text "b.com")).mp ?_
    rw [SortedList.mem_iff, hb]
    exact List.mem_singleton.mpr rfl
  · have hmem := (hsubnets n).mpr hn
    rw [SortedList.mem_iff, hnone] at hmem
    exact absurd hmem List.not_mem_nil

end FoxVpn.Acl
