/-
  FoxVpn.Database.FallbackAssociation
  ───────────────────────────────────
  **WHOSE FALLBACK IS IT?  `Profile.parseJson`.**

  The fallback of each accepted object is kept in `fallbackMap`, a hash map
  whose keys are the PROFILES THEMSELVES, compared by contents.  `create`
  changes the contents, so the loop of `parseJson` takes each entry out,
  creates the profile and puts the entry back under the new contents; then
  `finalize` looks for, or creates, the fallback and updates the row.

  No key changes while it is in the map: the object that `create` changes
  has just been taken out, along with whatever had its contents, and the
  fallbacks created later are values.  So the hashes kept in the map are
  those of the contents, and a map over contents says what the hash map
  does, whatever the hash function.

  Two objects with the same contents share ONE entry.  Main result
  `fallbacks_right_iff`: every created profile has the fallback of its own
  object if and only if, of two accepted objects with the same profile
  fields, the later one has no acceptable fallback (the earlier one, if
  `create` has left it with the contents it had).
-/
import Mathlib.Data.List.Basic
import FoxVpn.Database.ProfileJson
import FoxVpn.Plugin.PluginConfiguration

namespace FoxVpn.Database

open FoxVpn.Lib FoxVpn.Plugin

/-! ## §1. `parseJson`. -/

/-- The `create` function of the caller: call number `k` stores the profile
under an id of its own and somewhere in the user's order, and returns it. -/
structure Create where
  id : Nat → Long
  userOrder : Nat → Long

/-- The first `n` calls assign distinct ids. -/
def Create.Distinct (c : Create) (n : Nat) : Prop := ∀ k < n, ∀ l < n, c.id k = c.id l → k = l

def Create.apply (c : Create) (k : Nat) (p : Profile) : Profile :=
  { p with id := c.id k, userOrder := c.userOrder k }

def PrivateDatabase.insert (db : PrivateDatabase) (p : Profile) : PrivateDatabase :=
  { profiles := db.profiles ++ [p.toRow] }

namespace JsonParser

/-- The loop of `parseJson`, from call number `k` on. -/
def createAll (c : Create) :
    Nat → List Profile → LinkedMap Profile Profile → PrivateDatabase →
      LinkedMap Profile Profile × PrivateDatabase
  | _, [], fallbackMap, db => (fallbackMap, db)
  | k, p :: ps, fallbackMap, db =>
      let fallback := fallbackMap.get p
      let fallbackMap := fallbackMap.remove p
      let profile := c.apply k p
      let fallbackMap := match fallback with
        | none => fallbackMap
        | some fallback => fallbackMap.put profile fallback
      createAll c (k + 1) ps fallbackMap (db.insert profile)

/-- The predicate of `profiles.firstOrNull`. -/
def isFallback (fallback it : Profile) : Bool :=
  fallback.host == it.host && fallback.remotePort == it.remotePort
    && fallback.password == it.password && fallback.method == it.method
    && it.plugin.getD "" == ""

/-- `profile.udpFallback = id; ProfileManager.updateProfile(profile)`. -/
def associate (db : PrivateDatabase) (profile : Profile) (id : Long) :
    Except Fault PrivateDatabase :=
  if (db.get profile.id).isSome then .ok (db.update { profile with udpFallback := some id })
  else .error (.illegalState "Check failed.")

/-- The loop of `finalize(create)`, over the entries of the map. -/
def finalize (c : Create) (profiles : List Profile) :
    Nat → List (Profile × Profile) → PrivateDatabase → Except Fault PrivateDatabase
  | _, [], db => .ok db
  | k, (profile, fallback) :: entries, db =>
      match profiles.find? (isFallback fallback) with
      | some found =>
          match associate db profile found.id with
          | .error e => .error e
          | .ok db => finalize c profiles k entries db
      | none =>
          let created := c.apply k fallback
          match associate (db.insert created) profile created.id with
          | .error e => .error e
          | .ok db => finalize c profiles (k + 1) entries db

end JsonParser

open JsonParser

/-- `Profile.parseJson(json, feature, create)`: the table afterwards. -/
def parseJson (H : PluginOptions.HashOrder) (feature : Option Profile) (json : JsonElement)
    (c : Create) (db : PrivateDatabase) : Except Fault PrivateDatabase :=
  match process H feature {} json with
  | .error e => .error e
  | .ok s =>
      match createAll c 0 s.profiles s.fallbackMap db with
      | (fallbackMap, db) =>
          finalize c db.profiles s.profiles.length fallbackMap.entries db

/-! ## §2. The map, step by step. -/

namespace JsonParser

variable {c : Create} {N : Nat}

/-- An accepted object: its profile and that of its fallback. -/
abbrev Item := Profile × Option Profile

/-- What one round does to the map. -/
def moveEntry (c : Create) (k : Nat) (m : LinkedMap Profile Profile) (p : Profile) :
    LinkedMap Profile Profile :=
  match m.get p with
  | none => m.remove p
  | some fallback => (m.remove p).put (c.apply k p) fallback

/-- What all rounds do to it. -/
def moveEntries (c : Create) :
    Nat → LinkedMap Profile Profile → List Profile → LinkedMap Profile Profile
  | _, m, [] => m
  | k, m, p :: ps => moveEntries c (k + 1) (moveEntry c k m p) ps

/-- The profiles as created, from call number `k` on. -/
def created (c : Create) (k : Nat) (ps : List Profile) : List Profile :=
  (ps.zipIdx k).map fun e => c.apply e.2 e.1

theorem createAll_eq : ∀ (ps : List Profile) (k : Nat) (m : LinkedMap Profile Profile)
    (db : PrivateDatabase),
    createAll c k ps m db
      = (moveEntries c k m ps, { profiles := db.profiles ++ (created c k ps).map Profile.toRow })
  | [], k, m, db => by
      show (m, db) = (m, { profiles := db.profiles ++ [] })
      rw [List.append_nil]
  | p :: ps, k, m, db => by
      have hmove : createAll c k (p :: ps) m db
          = createAll c (k + 1) ps (moveEntry c k m p) (db.insert (c.apply k p)) := by
        rw [createAll, moveEntry]
      rw [hmove, createAll_eq ps]
      simp [moveEntries, created, List.zipIdx_cons, PrivateDatabase.insert]

theorem get_moveEntry (k : Nat) (m : LinkedMap Profile Profile) (p x : Profile) :
    (moveEntry c k m p).get x
      = if x = c.apply k p ∧ (m.get p).isSome then m.get p
        else if x = p then none else m.get x := by
  unfold moveEntry
  cases hp : m.get p with
  | none =>
      rw [if_neg (by simp)]
      exact m.get_remove p x
  | some fallback =>
      rw [LinkedMap.get_put, LinkedMap.get_remove]
      by_cases hx : x = c.apply k p
      · rw [if_pos hx, if_pos ⟨hx, rfl⟩]
      · rw [if_neg hx]
        exact (if_neg fun h => hx h.1).symm

/-- A profile with the managed fields of a new one that was created without
a change. -/
theorem apply_eq_self {k : Nat} {p q : Profile} (hp : Unmanaged p) (hq : Unmanaged q)
    (h : c.apply k p = q) : p = q := by
  have hid : c.id k = 22 := (congrArg Profile.id h).trans hq.id
  have horder : c.userOrder k = 0 := (congrArg Profile.userOrder h).trans hq.userOrder
  rw [← h, Create.apply, hid, horder, ← hp.id, ← hp.userOrder]

theorem apply_ne (hc : c.Distinct N) {k l : Nat} (hk : k < N) (hl : l < N) (hkl : k ≠ l)
    (p q : Profile) : c.apply k p ≠ c.apply l q :=
  fun h => hkl (hc k hk l hl (congrArg Profile.id h))

/-- A key that is not there does not come back, unless a profile is created
with just these contents from other ones. -/
theorem get_moveEntries_none {x : Profile} : ∀ (ps : List Profile) (k : Nat)
    (m : LinkedMap Profile Profile), m.get x = none →
    (∀ e ∈ ps.zipIdx k, c.apply e.2 e.1 = x → e.1 = x) →
    (moveEntries c k m ps).get x = none
  | [], _, _, h, _ => h
  | p :: ps, k, m, h, hne => by
      rw [List.zipIdx_cons, List.forall_mem_cons] at hne
      refine get_moveEntries_none ps (k + 1) _ ?_ hne.2
      rw [get_moveEntry]
      by_cases hx : x = c.apply k p
      · -- then it was taken out under its own contents, and there was nothing
        have hp : p = x := hne.1 hx.symm
        rw [hp, h, if_neg (by simp), if_pos rfl]
      · rw [if_neg fun hc => hx hc.1]
        split
        · rfl
        · exact h

/-- An entry stays if no later profile has or gets its contents. -/
theorem get_moveEntries_some {x f : Profile} : ∀ (ps : List Profile) (k : Nat)
    (m : LinkedMap Profile Profile), m.get x = some f → x ∉ ps →
    (∀ e ∈ ps.zipIdx k, c.apply e.2 e.1 ≠ x) → (moveEntries c k m ps).get x = some f
  | [], _, _, h, _, _ => h
  | p :: ps, k, m, h, hmem, hne => by
      rw [List.zipIdx_cons, List.forall_mem_cons] at hne
      rw [List.mem_cons, not_or] at hmem
      refine get_moveEntries_some ps (k + 1) _ ?_ hmem.2 hne.2
      rw [get_moveEntry, if_neg fun hc => hne.1 hc.1.symm, if_neg hmem.1]
      exact h

/-- What was taken out and is not created again is gone. -/
theorem get_moveEntries_taken {x : Profile} : ∀ (ps : List Profile) (k : Nat)
    (m : LinkedMap Profile Profile), x ∈ ps → (∀ e ∈ ps.zipIdx k, c.apply e.2 e.1 ≠ x) →
    (moveEntries c k m ps).get x = none
  | p :: ps, k, m, hmem, hne => by
      rw [List.zipIdx_cons, List.forall_mem_cons] at hne
      by_cases hx : x = p
      · refine get_moveEntries_none ps (k + 1) _ ?_ fun e he h => absurd h (hne.2 e he)
        rw [get_moveEntry, if_neg fun hc => hne.1 hc.1.symm, if_pos hx]
      · exact get_moveEntries_taken ps (k + 1) _
          ((List.mem_cons.mp hmem).resolve_left hx) hne.2

/-- Later calls give other contents than call number `k` has given. -/
theorem apply_later (hc : c.Distinct N) {k : Nat} {p : Profile} {ps : List Profile}
    (hk : k + 1 + ps.length ≤ N) :
    ∀ e ∈ ps.zipIdx (k + 1), c.apply e.2 e.1 ≠ c.apply k p := by
  intro e he
  have hle := List.le_snd_of_mem_zipIdx he
  have hlt := List.snd_lt_add_of_mem_zipIdx he
  exact apply_ne hc (by omega) (by omega) (by omega) _ _

/-- The keys of the map are contents of profiles still to be created, or of
created ones. -/
def Keys (done ps : List Profile) (m : LinkedMap Profile Profile) : Prop :=
  ∀ x, m.get x ≠ none → x ∈ ps ∨ x ∈ done

theorem Keys.moveEntry {k : Nat} {p : Profile} {done ps : List Profile}
    {m : LinkedMap Profile Profile} (h : Keys done (p :: ps) m) :
    Keys (done ++ [c.apply k p]) ps (moveEntry c k m p) := by
  intro x hx
  rw [get_moveEntry] at hx
  rw [List.mem_append, List.mem_singleton]
  by_cases hk : x = c.apply k p
  · exact Or.inr (Or.inr hk)
  · rw [if_neg fun hc => hk hc.1] at hx
    split at hx
    next => exact absurd rfl hx
    next hp =>
      rcases h x hx with hmem | hdone
      · exact Or.inl ((List.mem_cons.mp hmem).resolve_left hp)
      · exact Or.inr (Or.inl hdone)

theorem Keys.moveEntries : ∀ (ps : List Profile) (k : Nat) (done : List Profile)
    (m : LinkedMap Profile Profile), Keys done ps m →
    Keys (done ++ created c k ps) [] (moveEntries c k m ps)
  | [], k, done, m, h => by
      show Keys (done ++ []) [] m
      rw [List.append_nil]
      exact h
  | p :: ps, k, done, m, h => by
      have hrest := Keys.moveEntries ps (k + 1) _ _ (h.moveEntry (c := c) (k := k))
      rw [List.append_assoc] at hrest
      exact hrest

/-! ## §3. Who gets the entry. -/

/-- The fallback the map holds for the contents `x`: that of the LAST object
with these contents that has one. -/
def lastFallback : List Item → Profile → Option Profile
  | [], _ => none
  | item :: items, x => (lastFallback items x).or (if item.1 = x then item.2 else none)

theorem fallbackMap_foldl (x : Profile) : ∀ (items : List Item) (s : JsonParser),
    (items.foldl add s).fallbackMap.get x = (lastFallback items x).or (s.fallbackMap.get x)
  | [], s => rfl
  | item :: items, s => by
      rw [List.foldl_cons, fallbackMap_foldl x items, lastFallback, Option.or_assoc]
      congr 1
      unfold add
      cases item.2 with
      | none =>
          show s.fallbackMap.get x = _
          rw [ite_self]
          rfl
      | some f =>
          show (s.fallbackMap.put item.1 f).get x = _
          rw [LinkedMap.get_put]
          by_cases hx : x = item.1
          · rw [if_pos hx, if_pos hx.symm]
            rfl
          · rw [if_neg hx, if_neg (Ne.symm hx)]
            rfl

theorem profiles_foldl : ∀ (items : List Item) (s : JsonParser),
    (items.foldl add s).profiles = s.profiles ++ items.map Prod.fst
  | [], s => (List.append_nil _).symm
  | item :: items, s => by
      rw [List.foldl_cons, profiles_foldl items]
      show (s.profiles ++ [item.1]) ++ _ = _
      rw [List.append_assoc, List.map_cons, List.singleton_append]

theorem lastFallback_eq_none {items : List Item} {x : Profile}
    (h : ∀ item ∈ items, item.1 = x → item.2 = none) : lastFallback items x = none := by
  induction items with
  | nil => rfl
  | cons item items ih =>
      obtain ⟨hitem, hitems⟩ := List.forall_mem_cons.mp h
      rw [lastFallback, ih hitems]
      show (if item.1 = x then item.2 else none) = none
      split
      next hx => exact hitem hx
      next => rfl

/-- Of two objects with the same contents the later one has no fallback; or,
if the earlier one was created with the contents it had, the earlier one. -/
def Separate (c : Create) : Nat → List Item → Prop
  | _, [] => True
  | k, item :: items =>
      (∀ later ∈ items, later.1 = item.1 →
        if c.apply k item.1 = item.1 then item.2 = none else later.2 = none)
      ∧ Separate c (k + 1) items

/-- No entry is under the contents a profile is about to get, unless it has
them. -/
theorem get_apply_none (hc : c.Distinct N) {k : Nat} (hk : k < N) {p : Profile}
    {done ps : List Profile} {m : LinkedMap Profile Profile} (hkeys : Keys done (p :: ps) m)
    (hnew : ∀ q ∈ p :: ps, Unmanaged q) (hdone : ∀ q ∈ done, ∃ l < k, q.id = c.id l)
    (hne : c.apply k p ≠ p) : m.get (c.apply k p) = none := by
  by_contra hsome
  rcases hkeys _ hsome with hmem | hmem
  · have hp : Unmanaged p := hnew p List.mem_cons_self
    exact hne (apply_eq_self hp (hnew _ hmem) rfl).symm
  · obtain ⟨l, hl, hid⟩ := hdone _ hmem
    have hkl : k = l := hc k hk l (by omega) hid
    omega

theorem done_append {k : Nat} {p : Profile} {done : List Profile}
    (hdone : ∀ q ∈ done, ∃ l < k, q.id = c.id l) :
    ∀ q ∈ done ++ [c.apply k p], ∃ l < k + 1, q.id = c.id l := by
  intro q hq
  rcases List.mem_append.mp hq with hq | hq
  · obtain ⟨l, hl, hid⟩ := hdone q hq
    exact ⟨l, by omega, hid⟩
  · rw [List.mem_singleton.mp hq]
    exact ⟨k, by omega, rfl⟩

section Head

variable {k : Nat} {p : Profile} {f : Option Profile} {items : List Item} {done : List Profile}
  {m : LinkedMap Profile Profile}
  (hnew : ∀ q ∈ p :: items.map Prod.fst, Unmanaged q)
  (hmine : m.get p = (lastFallback items p).or f)
  (hsep : ∀ later ∈ items, later.1 = p → if c.apply k p = p then f = none else later.2 = none)

include hnew hmine hsep

/-- The profile created now ends up with its own fallback. -/
theorem held_head (hc : c.Distinct N) (hk : k + 1 + items.length ≤ N)
    (hkeys : Keys done (p :: items.map Prod.fst) m)
    (hdone : ∀ q ∈ done, ∃ l < k, q.id = c.id l) :
    (moveEntries c (k + 1) (moveEntry c k m p) (items.map Prod.fst)).get (c.apply k p) = f := by
  have hothers : ∀ e ∈ (items.map Prod.fst).zipIdx (k + 1), c.apply e.2 e.1 ≠ c.apply k p :=
    apply_later hc (by rw [List.length_map]; exact hk)
  by_cases hsame : c.apply k p = p
  · have hcreated : ∀ e ∈ (items.map Prod.fst).zipIdx (k + 1), c.apply e.2 e.1 ≠ p :=
      fun e he h => hothers e he (h.trans hsame.symm)
    rw [hsame]
    by_cases hlater : p ∈ items.map Prod.fst
    · -- a later object with these contents takes the entry away
      obtain ⟨later, hmem, hlp⟩ := List.mem_map.mp hlater
      have hf := hsep later hmem hlp
      rw [if_pos hsame] at hf
      rw [hf]
      exact get_moveEntries_taken _ _ _ hlater hcreated
    · have hnone : lastFallback items p = none := lastFallback_eq_none fun item hitem h =>
        absurd (List.mem_map.mpr ⟨item, hitem, h⟩) hlater
      rw [hnone, Option.none_or] at hmine
      cases f with
      | none =>
          refine get_moveEntries_none _ _ _ ?_ fun e he h => absurd h (hcreated e he)
          rw [get_moveEntry, hmine, if_neg (by simp), if_pos rfl]
      | some f =>
          refine get_moveEntries_some _ _ _ ?_ hlater hcreated
          rw [get_moveEntry, hmine, if_pos ⟨hsame.symm, rfl⟩]
  · -- the entry is its own, and nobody else has or gets these contents
    have hnone : lastFallback items p = none := lastFallback_eq_none fun item hitem h => by
      have hf := hsep item hitem h
      rw [if_neg hsame] at hf
      exact hf
    rw [hnone, Option.none_or] at hmine
    cases f with
    | none =>
        refine get_moveEntries_none _ _ _ ?_ fun e he h => absurd h (hothers e he)
        rw [get_moveEntry, hmine, if_neg (by simp), if_neg hsame]
        exact get_apply_none hc (by omega) hkeys hnew hdone hsame
    | some f =>
        refine get_moveEntries_some _ _ _ ?_ (fun hmem => hsame ?_) hothers
        · rw [get_moveEntry, hmine, if_pos ⟨rfl, rfl⟩]
        · exact (apply_eq_self (hnew p List.mem_cons_self)
            (hnew _ (List.mem_cons_of_mem _ hmem)) rfl).symm

/-- The map still holds, for the contents of the others, the last fallback
among them. -/
theorem lastFallback_moveEntry {item : Item} (hitem : item ∈ items)
    (hold : m.get item.1 = (lastFallback items item.1).or (if p = item.1 then f else none)) :
    (moveEntry c k m p).get item.1 = lastFallback items item.1 := by
  have hmem : item.1 ∈ p :: items.map Prod.fst := List.mem_cons_of_mem _ (List.mem_map_of_mem hitem)
  by_cases hip : item.1 = p
  · rw [hip]
    by_cases hsame : c.apply k p = p
    · have hf := hsep item hitem hip
      rw [if_pos hsame] at hf
      rw [hf, Option.or_none] at hmine
      rw [get_moveEntry, hmine]
      cases lastFallback items p with
      | none => rw [if_neg (by simp), if_pos rfl]
      | some g => rw [if_pos ⟨hsame.symm, rfl⟩]
    · have hnone : lastFallback items p = none := lastFallback_eq_none fun d hd h => by
        have hf := hsep d hd h
        rw [if_neg hsame] at hf
        exact hf
      rw [hnone, get_moveEntry, if_neg fun hc => hsame hc.1.symm, if_pos rfl]
  · rw [if_neg (Ne.symm hip), Option.or_none] at hold
    have hne : item.1 ≠ c.apply k p := fun h =>
      hip (apply_eq_self (hnew p List.mem_cons_self) (hnew _ hmem) h.symm).symm
    rw [get_moveEntry, if_neg fun hc => hne hc.1, if_neg hip]
    exact hold

end Head

theorem unmanaged_cons {item : Item} {items : List Item}
    (h : ∀ d ∈ item :: items, Unmanaged d.1) :
    ∀ q ∈ item.1 :: items.map Prod.fst, Unmanaged q := by
  intro q hq
  rw [← List.map_cons (f := Prod.fst)] at hq
  obtain ⟨d, hd, rfl⟩ := List.mem_map.mp hq
  exact h d hd

/-- **Separate objects keep their fallbacks**, by induction on the objects
still to be created: the map holds for each of their contents the last
fallback among THEM. -/
theorem held_of_separate (hc : c.Distinct N) : ∀ (items : List Item) (k : Nat)
    (m : LinkedMap Profile Profile) (done : List Profile), k + items.length ≤ N →
    (∀ item ∈ items, Unmanaged item.1) → Keys done (items.map Prod.fst) m →
    (∀ q ∈ done, ∃ l < k, q.id = c.id l) →
    (∀ item ∈ items, m.get item.1 = lastFallback items item.1) → Separate c k items →
    ∀ e ∈ items.zipIdx k,
      (moveEntries c k m (items.map Prod.fst)).get (c.apply e.2 e.1.1) = e.1.2
  | [], _, _, _, _, _, _, _, _, _ => fun _ he => absurd he List.not_mem_nil
  | (p, f) :: items, k, m, done, hk, hnew, hkeys, hdone, hlast, hsep => by
      rw [List.length_cons] at hk
      obtain ⟨hget, hlast'⟩ := List.forall_mem_cons.mp hlast
      have hmine : m.get p = (lastFallback items p).or f := by
        rw [hget, lastFallback, if_pos rfl]
      rw [List.zipIdx_cons, List.forall_mem_cons]
      refine ⟨held_head (unmanaged_cons hnew) hmine hsep.1 hc (by omega) hkeys hdone, ?_⟩
      refine held_of_separate hc items (k + 1) _ (done ++ [c.apply k p]) (by omega)
        (List.forall_mem_cons.mp hnew).2 hkeys.moveEntry (done_append hdone) ?_ hsep.2
      intro item hitem
      exact lastFallback_moveEntry (unmanaged_cons hnew) hmine hsep.1 hitem (hlast' item hitem)

/-- An object whose contents have no entry when its turn comes gets none. -/
theorem not_held_of_absent (hc : c.Distinct N) {x : Profile} (hx : Unmanaged x) :
    ∀ (ps : List Profile) (k : Nat) (m : LinkedMap Profile Profile) (done : List Profile),
    k + ps.length ≤ N → (∀ q ∈ ps, Unmanaged q) → Keys done ps m →
    (∀ q ∈ done, ∃ l < k, q.id = c.id l) → m.get x = none →
    ∀ e ∈ ps.zipIdx k, e.1 = x → (moveEntries c k m ps).get (c.apply e.2 x) = none
  | [], _, _, _, _, _, _, _, _ => fun _ he => absurd he List.not_mem_nil
  | p :: ps, k, m, done, hk, hnew, hkeys, hdone, hnone => by
      rw [List.length_cons] at hk
      obtain ⟨hp, hps⟩ := List.forall_mem_cons.mp hnew
      rw [List.zipIdx_cons, List.forall_mem_cons]
      constructor
      · intro hpx
        have hpx : p = x := hpx
        subst hpx
        show (moveEntries c (k + 1) (moveEntry c k m p) ps).get (c.apply k p) = none
        refine get_moveEntries_none _ _ _ ?_ fun e he h => absurd h (apply_later hc (by omega) e he)
        rw [get_moveEntry, hnone, if_neg (by simp)]
        split
        next => rfl
        next hne => exact get_apply_none hc (by omega) hkeys hnew hdone hne
      · refine not_held_of_absent hc hx ps (k + 1) _ _ (by omega) hps hkeys.moveEntry
          (done_append hdone) ?_
        rw [get_moveEntry]
        by_cases hxk : x = c.apply k p
        · have hpx : p = x := apply_eq_self hp hx hxk.symm
          rw [hpx, hnone, if_neg (by simp), if_pos rfl]
        · rw [if_neg fun hc => hxk hc.1]
          split
          next => rfl
          next => exact hnone

/-- **Objects that keep their fallbacks are separate.** -/
theorem separate_of_held (hc : c.Distinct N) : ∀ (items : List Item) (k : Nat)
    (m : LinkedMap Profile Profile) (done : List Profile), k + items.length ≤ N →
    (∀ item ∈ items, Unmanaged item.1) → Keys done (items.map Prod.fst) m →
    (∀ q ∈ done, ∃ l < k, q.id = c.id l) →
    (∀ e ∈ items.zipIdx k,
      ((moveEntries c k m (items.map Prod.fst)).get (c.apply e.2 e.1.1)).isSome = e.1.2.isSome) →
    Separate c k items
  | [], _, _, _, _, _, _, _, _ => trivial
  | (p, f) :: items, k, m, done, hk, hnew, hkeys, hdone, hheld => by
      rw [List.length_cons] at hk
      have hlen : (items.map Prod.fst).length = items.length := List.length_map _
      obtain ⟨hp, hitems⟩ := List.forall_mem_cons.mp hnew
      have hps : ∀ q ∈ items.map Prod.fst, Unmanaged q := fun q hq =>
        unmanaged_cons hnew q (List.mem_cons_of_mem _ hq)
      rw [List.zipIdx_cons, List.forall_mem_cons] at hheld
      refine ⟨fun later hlater hlp => ?_, ?_⟩
      · have hmem : p ∈ items.map Prod.fst := List.mem_map.mpr ⟨later, hlater, hlp⟩
        split
        next hsame =>
          -- the later one has taken the entry of this one
          have hgone : (moveEntries c (k + 1) (moveEntry c k m p) (items.map Prod.fst)).get
              (c.apply k p) = none := by
            rw [hsame]
            refine get_moveEntries_taken _ _ _ hmem fun e he h => ?_
            exact apply_later hc (by omega) e he (h.trans hsame.symm)
          have hf : (none : Option Profile).isSome = f.isSome := hgone ▸ hheld.1
          exact Option.isNone_iff_eq_none.mp (by simpa using hf.symm)
        next hsame =>
          -- this one has taken the entry, and the later one finds nothing
          have hnone : (moveEntry c k m p).get p = none := by
            rw [get_moveEntry, if_neg fun hc => hsame hc.1.symm, if_pos rfl]
          obtain ⟨e, he, rfl⟩ : ∃ e ∈ items.zipIdx (k + 1), e.1 = later := by
            rw [← List.zipIdx_map_fst (k + 1) items] at hlater
            exact List.mem_map.mp hlater
          have he' : (e.1.1, e.2) ∈ (items.map Prod.fst).zipIdx (k + 1) := by
            rw [List.zipIdx_map]
            exact List.mem_map_of_mem he
          have hgone := not_held_of_absent hc hp _ _ _ _ (by omega) hps hkeys.moveEntry
            (done_append hdone) hnone _ he' hlp
          have hf := hheld.2 e he
          rw [hlp] at hf
          have hf' : (none : Option Profile).isSome = e.1.2.isSome := hgone ▸ hf
          exact Option.isNone_iff_eq_none.mp (by simpa using hf'.symm)
      · exact separate_of_held hc items (k + 1) _ _ (by omega) hitems hkeys.moveEntry
          (done_append hdone) hheld.2

/-! ## §4. The table. -/

/-- What a fallback is recognised by. -/
def server (p : Profile) : String × Int × String × String :=
  (p.host, p.remotePort, p.password, p.method)

theorem isFallback_iff {f it : Profile} :
    isFallback f it = true ↔ server f = server it ∧ it.plugin.getD "" = "" := by
  simp [isFallback, server, and_assoc]

/-- No row is lost on the way from `db` to `db'`, and none gets another
server or plugin. -/
def Grows (db db' : PrivateDatabase) : Prop :=
  ∀ r ∈ db.profiles, ∃ r' ∈ db'.profiles,
    r'.id = r.id ∧ server r' = server r ∧ r'.plugin = r.plugin

theorem Grows.refl (db : PrivateDatabase) : Grows db db := fun r hr => ⟨r, hr, rfl, rfl, rfl⟩

theorem Grows.trans {db₁ db₂ db₃ : PrivateDatabase} (h : Grows db₁ db₂) (h' : Grows db₂ db₃) :
    Grows db₁ db₃ := by
  intro r hr
  obtain ⟨r', hr', hid, hserver, hplugin⟩ := h r hr
  obtain ⟨r'', hr'', hid', hserver', hplugin'⟩ := h' r' hr'
  exact ⟨r'', hr'', hid'.trans hid, hserver'.trans hserver, hplugin'.trans hplugin⟩

theorem Grows.insert (db : PrivateDatabase) (p : Profile) : Grows db (db.insert p) :=
  fun r hr => ⟨r, List.mem_append_left _ hr, rfl, rfl, rfl⟩

/-- A new row hides no other. -/
theorem get_insert {db : PrivateDatabase} {id : Long} {r : Profile} (p : Profile)
    (h : db.get id = some r) : (db.insert p).get id = some r := by
  show (db.profiles ++ [p.toRow]).find? _ = some r
  rw [List.find?_append]
  show ((db.get id).or _) = some r
  rw [h]
  rfl

/-- The table with the created profiles in it; `stored` is the table the
loop of `finalize` has read before. -/
structure Table (mains : List Profile) (stored db : PrivateDatabase) : Prop where
  row : ∀ q ∈ mains, ∃ u, db.get q.id = some { q with udpFallback := u }.toRow
  same : ∀ q ∈ mains, ∀ r ∈ db.profiles, r.id = q.id →
    server r = server q ∧ r.plugin = q.plugin
  kept : Grows stored db

section Finalize

variable {mains : List Profile} {stored db : PrivateDatabase}

theorem Table.insert (h : Table mains stored db) {p : Profile} (hp : ∀ q ∈ mains, p.id ≠ q.id) :
    Table mains stored (db.insert p) where
  row q hq := by
    obtain ⟨u, hu⟩ := h.row q hq
    exact ⟨u, get_insert p hu⟩
  same q hq r hr hid := by
    rcases List.mem_append.mp hr with hr | hr
    · exact h.same q hq r hr hid
    · rw [List.mem_singleton.mp hr] at hid
      exact absurd hid (hp q hq)
  kept := h.kept.trans (Grows.insert db p)

/-- Updating a created profile changes its row only, and only the
fallback. -/
theorem Table.associate (h : Table mains stored db)
    (hids : ∀ q ∈ mains, ∀ q' ∈ mains, q'.id = q.id → q' = q) {q : Profile} (hq : q ∈ mains)
    (id : Long) :
    ∃ db', associate db q id = .ok db' ∧ Table mains stored db' ∧ Grows db db'
      ∧ db'.get q.id = some { q with udpFallback := some id }.toRow
      ∧ ∀ q' ∈ mains, q'.id ≠ q.id → db'.get q'.id = db.get q'.id := by
  have hsome : (db.get q.id).isSome = true := by
    obtain ⟨u, hu⟩ := h.row q hq
    rw [hu]
    rfl
  let p : Profile := { q with udpFallback := some id }
  have hget : (db.update p).get q.id = some p.toRow := db.get_update_same p hsome
  have hother : ∀ q' ∈ mains, q'.id ≠ q.id → (db.update p).get q'.id = db.get q'.id :=
    fun q' _ hne => db.get_update_ne p hne
  have hgrows : Grows db (db.update p) := by
    intro r hr
    by_cases hid : r.id = q.id
    · refine ⟨p.toRow, ?_, hid.symm, ?_⟩
      · exact List.mem_map.mpr ⟨r, hr, if_pos hid⟩
      · exact ⟨(h.same q hq r hr hid).1.symm, (h.same q hq r hr hid).2.symm⟩
    · exact ⟨r, List.mem_map.mpr ⟨r, hr, if_neg hid⟩, rfl, rfl, rfl⟩
  refine ⟨db.update p, if_pos hsome, ⟨fun q' hq' => ?_, fun q' hq' r hr hid => ?_,
    h.kept.trans hgrows⟩, hgrows, hget, hother⟩
  · by_cases hid : q'.id = q.id
    · obtain rfl := hids q hq q' hq' hid
      exact ⟨some id, hget⟩
    · rw [hother q' hq' hid]
      exact h.row q' hq'
  · obtain ⟨d, hd, hdr⟩ := List.mem_map.mp hr
    split at hdr
    next =>
      subst hdr
      obtain rfl := hids q hq q' hq' hid.symm
      exact ⟨rfl, rfl⟩
    next =>
      subst hdr
      exact h.same q' hq' d hd hid

/-- The row of `q` names a profile with the server of `f`: one without a
plugin, or one created for it. -/
def HasFallback (c : Create) (n : Nat) (db : PrivateDatabase) (q f : Profile) : Prop :=
  ∃ fb ∈ db.profiles, server fb = server f
    ∧ (fb.plugin.getD "" = "" ∨ ∃ l, n ≤ l ∧ fb.id = c.id l)
    ∧ db.get q.id = some { q with udpFallback := some fb.id }.toRow

theorem HasFallback.mono {n : Nat} {db db' : PrivateDatabase} {q f : Profile}
    (h : HasFallback c n db q f) (hgrows : Grows db db') (hget : db'.get q.id = db.get q.id) :
    HasFallback c n db' q f := by
  obtain ⟨fb, hfb, hserver, hkind, hrow⟩ := h
  obtain ⟨fb', hfb', hid', hserver', hplugin'⟩ := hgrows fb hfb
  refine ⟨fb', hfb', hserver'.trans hserver, ?_, ?_⟩
  · rw [hplugin', hid']
    exact hkind
  · rw [hget, hrow, hid']

/-- What `finalize` leaves for one entry. -/
theorem finalize_cons (hc : c.Distinct N) {n k : Nat} {q : Profile} (f : Profile)
    (es : List (Profile × Profile)) (hids : ∀ q ∈ mains, ∀ q' ∈ mains, q'.id = q.id → q' = q)
    (hcalls : ∀ q ∈ mains, ∃ i < n, q.id = c.id i) (hk : n ≤ k) (hkN : k < N)
    (h : Table mains stored db) (hq : q ∈ mains) :
    ∃ k' db', n ≤ k' ∧ k' ≤ k + 1 ∧ finalize c stored.profiles k ((q, f) :: es) db
        = finalize c stored.profiles k' es db'
      ∧ Table mains stored db' ∧ Grows db db' ∧ HasFallback c n db' q f
      ∧ ∀ q' ∈ mains, q'.id ≠ q.id → db'.get q'.id = db.get q'.id := by
  cases hfind : stored.profiles.find? (isFallback f) with
  | some found =>
      obtain ⟨hserver, hplugin⟩ := isFallback_iff.mp (List.find?_some hfind)
      obtain ⟨db', hdb', htable, hgrows, hget, hother⟩ := h.associate hids hq found.id
      refine ⟨k, db', hk, by omega, ?_, htable, hgrows, ?_, hother⟩
      · rw [finalize, hfind]
        dsimp only
        rw [hdb']
      · obtain ⟨r, hr, hrid, hrserver, hrplugin⟩ :=
          htable.kept found (List.mem_of_find?_eq_some hfind)
        refine ⟨r, hr, hrserver.trans hserver.symm, Or.inl (hrplugin ▸ hplugin), ?_⟩
        rw [hget, hrid]
  | none =>
      have hnew : ∀ q ∈ mains, (c.apply k f).id ≠ q.id := by
        intro q hq hid
        obtain ⟨i, hi, hqi⟩ := hcalls q hq
        have hki : k = i := hc k hkN i (by omega) (hid.trans hqi)
        omega
      obtain ⟨db', hdb', htable, hgrows, hget, hother⟩ :=
        (h.insert hnew).associate hids hq (c.apply k f).id
      refine ⟨k + 1, db', by omega, by omega, ?_, htable, (Grows.insert db _).trans hgrows, ?_, ?_⟩
      · rw [finalize, hfind]
        dsimp only
        rw [hdb']
      · obtain ⟨r, hr, hrid, hrserver, -⟩ :=
          hgrows (c.apply k f).toRow (List.mem_append_right _ (List.mem_singleton_self _))
        refine ⟨r, hr, hrserver, Or.inr ⟨k, hk, hrid⟩, ?_⟩
        rw [hget, hrid]
        rfl
      · intro q' hq' hne
        obtain ⟨u, hu⟩ := h.row q' hq'
        rw [hother q' hq' hne, hu]
        exact get_insert _ hu

/-- **The loop of `finalize`**, by induction on the entries: every key gets
its fallback, and the rows of the others stay. -/
theorem finalize_spec (hc : c.Distinct N) {n : Nat}
    (hids : ∀ q ∈ mains, ∀ q' ∈ mains, q'.id = q.id → q' = q)
    (hcalls : ∀ q ∈ mains, ∃ i < n, q.id = c.id i) :
    ∀ (es : List (Profile × Profile)) (k : Nat) (db : PrivateDatabase), n ≤ k →
      k + es.length ≤ N → Table mains stored db → (∀ e ∈ es, e.1 ∈ mains) →
      (es.map fun e => e.1.id).Nodup →
      ∃ db', finalize c stored.profiles k es db = .ok db' ∧ Grows db db'
        ∧ (∀ e ∈ es, HasFallback c n db' e.1 e.2)
        ∧ ∀ q ∈ mains, (∀ e ∈ es, e.1.id ≠ q.id) → db'.get q.id = db.get q.id
  | [], k, db, _, _, _, _, _ =>
      ⟨db, rfl, Grows.refl db, fun _ he => absurd he List.not_mem_nil, fun _ _ _ => rfl⟩
  | (q, f) :: es, k, db, hk, hkN, h, hmem, hnd => by
      rw [List.length_cons] at hkN
      obtain ⟨hq, hes⟩ := List.forall_mem_cons.mp hmem
      rw [List.map_cons, List.nodup_cons] at hnd
      obtain ⟨k', db₁, hk', hk'', hrun, htable, hgrows, hhas, hother⟩ :=
        finalize_cons hc f es hids hcalls hk (by omega) h hq
      obtain ⟨db', hdb', hgrows', hhas', hother'⟩ :=
        finalize_spec hc hids hcalls es k' db₁ hk' (by omega) htable hes hnd.2
      refine ⟨db', hrun.trans hdb', hgrows.trans hgrows', ?_, ?_⟩
      · refine List.forall_mem_cons.mpr ⟨hhas.mono hgrows' ?_, hhas'⟩
        refine hother' q hq fun e he hid => hnd.1 ?_
        exact List.mem_map.mpr ⟨e, he, hid⟩
      · intro q' hq' hne
        obtain ⟨hne₁, hne₂⟩ := List.forall_mem_cons.mp hne
        rw [hother' q' hq' hne₂, hother q' hq' (Ne.symm hne₁)]

end Finalize

/-! ## §5. The whole import. -/

theorem mem_created {k : Nat} {ps : List Profile} {q : Profile} :
    q ∈ created c k ps ↔ ∃ e ∈ ps.zipIdx k, c.apply e.2 e.1 = q := List.mem_map

section Created

variable (ps : List Profile)

theorem created_calls : ∀ q ∈ created c 0 ps, ∃ i < ps.length, q.id = c.id i := by
  intro q hq
  obtain ⟨e, he, rfl⟩ := mem_created.mp hq
  have hlt := List.snd_lt_add_of_mem_zipIdx he
  exact ⟨e.2, by omega, rfl⟩

/-- The id tells which call has created a profile. -/
theorem created_ids (hc : c.Distinct N) (hN : ps.length ≤ N) :
    ∀ q ∈ created c 0 ps, ∀ q' ∈ created c 0 ps, q'.id = q.id → q' = q := by
  intro q hq q' hq' hid
  obtain ⟨⟨p, i⟩, he, rfl⟩ := mem_created.mp hq
  obtain ⟨⟨p', i'⟩, he', rfl⟩ := mem_created.mp hq'
  have hi := List.snd_lt_add_of_mem_zipIdx he
  have hi' := List.snd_lt_add_of_mem_zipIdx he'
  obtain rfl : i' = i := hc i' (by omega) i (by omega) hid
  rw [List.mem_zipIdx_iff_le_and_getElem?_sub] at he he'
  obtain rfl : p' = p := Option.some.inj (he'.2.symm.trans he.2)
  rfl

/-- The table after the loop of `parseJson`. -/
theorem table_created (hc : c.Distinct N) (hN : ps.length ≤ N) {db : PrivateDatabase}
    (hfresh : ∀ l < N, db.get (c.id l) = none) :
    Table (created c 0 ps) { profiles := db.profiles ++ (created c 0 ps).map Profile.toRow }
      { profiles := db.profiles ++ (created c 0 ps).map Profile.toRow }
    ∧ ∀ q ∈ created c 0 ps, PrivateDatabase.get
        { profiles := db.profiles ++ (created c 0 ps).map Profile.toRow } q.id
          = some q.toRow := by
  have hrow : ∀ q ∈ created c 0 ps, PrivateDatabase.get
      { profiles := db.profiles ++ (created c 0 ps).map Profile.toRow } q.id
        = some q.toRow := by
    intro q hq
    obtain ⟨i, hin, hi⟩ := created_calls ps q hq
    show (db.profiles ++ (created c 0 ps).map Profile.toRow).find? (fun p => p.id == q.id) = _
    have hold : db.profiles.find? (fun p => p.id == q.id) = none := hi ▸ hfresh i (by omega)
    rw [List.find?_append, hold, Option.none_or, List.find?_map]
    cases hfind : (created c 0 ps).find? ((fun p : Profile => p.id == q.id) ∘ Profile.toRow) with
    | none =>
        have hno := List.find?_eq_none.mp hfind q hq
        exact absurd (beq_self_eq_true q.id) hno
    | some q' =>
        have hkey := List.find?_some hfind
        have hid : q'.id = q.id := eq_of_beq hkey
        rw [created_ids ps hc hN q hq q' (List.mem_of_find?_eq_some hfind) hid]
        rfl
  refine ⟨⟨fun q hq => ⟨q.udpFallback, hrow q hq⟩, fun q hq r hr hid => ?_, Grows.refl _⟩, hrow⟩
  rcases List.mem_append.mp hr with hr | hr
  · -- an old row has no id of a call
    obtain ⟨i, hin, hi⟩ := created_calls ps q hq
    have hno := List.find?_eq_none.mp (hfresh i (by omega)) r hr
    exact absurd (beq_iff_eq.mpr (hid.trans hi)) hno
  · obtain ⟨q', hq', rfl⟩ := List.mem_map.mp hr
    obtain rfl := created_ids ps hc hN q hq q' hq' hid
    exact ⟨rfl, rfl⟩

end Created

/-- The keys of the map after the document was read. -/
theorem keys_foldl (items : List Item) :
    Keys [] (items.map Prod.fst) (items.foldl add {}).fallbackMap := by
  intro x hx
  rw [fallbackMap_foldl] at hx
  refine Or.inl ?_
  by_contra hno
  refine hx ?_
  rw [lastFallback_eq_none fun item hitem heq =>
    absurd (List.mem_map.mpr ⟨item, hitem, heq⟩) hno]
  rfl

/-- The row of a created profile is right: no fallback if its object has no
acceptable one, and otherwise one with the server of ITS OWN. -/
def Right (c : Create) (n : Nat) (db : PrivateDatabase) (q : Profile) : Option Profile → Prop
  | none => db.get q.id = some { q with udpFallback := none }.toRow
  | some f => HasFallback c n db q f

/-- A row is not right both with a fallback and without. -/
theorem Right.isSome_eq {n : Nat} {db : PrivateDatabase} {q : Profile} {f g : Option Profile}
    (hf : Right c n db q f) (hg : Right c n db q g) : f.isSome = g.isSome := by
  have hclash : ∀ f, db.get q.id = some { q with udpFallback := none }.toRow →
      ¬ HasFallback c n db q f := by
    rintro f hnone ⟨fb, -, -, -, hsome⟩
    have hrow := Option.some.inj (hnone.symm.trans hsome)
    exact absurd (congrArg Profile.udpFallback hrow) (by simp [Profile.toRow])
  cases f with
  | none =>
      cases g with
      | none => rfl
      | some g => exact absurd hg (hclash g hf)
  | some f =>
      cases g with
      | none => exact absurd hf (hclash f hg)
      | some g => rfl

/-- The rows after the import, from the map after the loop. -/
theorem parseJson_rows {H : PluginOptions.HashOrder} {feature : Option Profile}
    {json : JsonElement} {db : PrivateDatabase} {items : List Item}
    (hc : c.Distinct (2 * items.length)) (hfresh : ∀ l < 2 * items.length, db.get (c.id l) = none)
    (h : accepted H feature json = .ok items) :
    ∃ db', parseJson H feature json c db = .ok db'
      ∧ ∀ e ∈ items.zipIdx,
          Right c items.length db' (c.apply e.2 e.1.1)
            ((moveEntries c 0 (items.foldl add {}).fallbackMap (items.map Prod.fst)).get
              (c.apply e.2 e.1.1)) := by
  have hprofiles : (items.foldl add {}).profiles = items.map Prod.fst := profiles_foldl items {}
  generalize hm : moveEntries c 0 (items.foldl add {}).fallbackMap (items.map Prod.fst) = m
  have hlen : (items.map Prod.fst).length = items.length := List.length_map _
  have hids := created_ids (items.map Prod.fst) hc (by omega)
  obtain ⟨htable, hrow⟩ := table_created (items.map Prod.fst) hc (by omega) hfresh
  have hmains : ∀ e ∈ m.entries, e.1 ∈ created c 0 (items.map Prod.fst) := by
    have hkeys := Keys.moveEntries (c := c) _ 0 _ _ (keys_foldl items)
    rw [hm] at hkeys
    intro e he
    have hsome := (m.mem_entries_iff_get e.1 e.2).mp he
    exact (hkeys e.1 (by rw [hsome]; simp)).resolve_left List.not_mem_nil
  have hnd : (m.entries.map fun e => e.1.id).Nodup := by
    have hmap : (m.entries.map fun e => e.1.id) = (m.entries.map Prod.fst).map Profile.id := by
      rw [List.map_map]
      rfl
    rw [hmap]
    refine m.nodup.map_on fun x hx y hy hid => ?_
    obtain ⟨e, he, rfl⟩ := List.mem_map.mp hx
    obtain ⟨d, hd, rfl⟩ := List.mem_map.mp hy
    exact hids _ (hmains d hd) _ (hmains e he) hid
  have hcount : m.entries.length ≤ items.length := by
    have hsub : m.entries.map Prod.fst ⊆ created c 0 (items.map Prod.fst) := by
      intro q hq
      obtain ⟨e, he, rfl⟩ := List.mem_map.mp hq
      exact hmains e he
    have hle := (m.nodup.subperm hsub).length_le
    simpa [created] using hle
  have hcalls := created_calls (c := c) (items.map Prod.fst)
  rw [hlen] at hcalls
  obtain ⟨db', hrun, -, hhas, hother⟩ := finalize_spec hc hids hcalls m.entries items.length _
    (Nat.le_refl _) (by omega) htable hmains hnd
  refine ⟨db', ?_, fun e he => ?_⟩
  · rw [parseJson, process_eq, h]
    show (match createAll c 0 (items.foldl add {}).profiles (items.foldl add {}).fallbackMap db with
      | (fallbackMap, db) =>
          finalize c db.profiles (items.foldl add {}).profiles.length fallbackMap.entries db) = _
    rw [hprofiles, createAll_eq, hm, List.length_map]
    exact hrun
  · have hq : c.apply e.2 e.1.1 ∈ created c 0 (items.map Prod.fst) := by
      refine mem_created.mpr ⟨(e.1.1, e.2), ?_, rfl⟩
      rw [List.zipIdx_map]
      exact List.mem_map_of_mem he
    cases hget : m.get (c.apply e.2 e.1.1) with
    | some f => exact hhas _ ((m.mem_entries_iff_get _ _).mpr hget)
    | none =>
        show db'.get (c.apply e.2 e.1.1).id = _
        rw [hother _ hq fun d hd hid => ?_, hrow _ hq]
        · have hitem := (accepted_profile h e.1 (List.fst_mem_of_mem_zipIdx he)).1.udpFallback
          show some (c.apply e.2 e.1.1).toRow = _
          rw [← hitem]
          rfl
        · have hsame := hids _ hq _ (hmains d hd) hid
          have hsome := (m.mem_entries_iff_get d.1 d.2).mp hd
          rw [hsame, hget] at hsome
          exact absurd hsome (by simp)

end JsonParser

/-- Separate objects are imported with their own fallbacks. -/
theorem right_of_separate {H : PluginOptions.HashOrder} {feature : Option Profile}
    {json : JsonElement} {c : Create} {db : PrivateDatabase} {items : List Item}
    (hc : c.Distinct (2 * items.length)) (hfresh : ∀ k < 2 * items.length, db.get (c.id k) = none)
    (h : accepted H feature json = .ok items) (hsep : Separate c 0 items) :
    ∃ db', parseJson H feature json c db = .ok db'
      ∧ ∀ e ∈ items.zipIdx, Right c items.length db' (c.apply e.2 e.1.1) e.1.2 := by
  obtain ⟨db', hrun, hrows⟩ := parseJson_rows hc hfresh h
  have hnew := fun item hitem => (accepted_profile h item hitem).1
  have hlast : ∀ item ∈ items,
      (items.foldl add {}).fallbackMap.get item.1 = lastFallback items item.1 := by
    intro item _
    rw [fallbackMap_foldl]
    exact Option.or_none
  refine ⟨db', hrun, fun e he => ?_⟩
  have hheld := held_of_separate hc items 0 _ [] (by omega) hnew (keys_foldl items) (by simp)
    hlast hsep e he
  have hrow := hrows e he
  rw [hheld] at hrow
  exact hrow

/-- **Which documents are imported with the right fallbacks.**  Whatever the
features and the table: a document that is not read (a plugin option with a
control character) creates nothing.  If it is read, then for every `create`
whose ids are distinct and not in use, over as many calls as there can be
(one for each object, one for its fallback), the import succeeds; and every
profile created from an accepted object has the fallback of THAT object, or
none if it has no acceptable one, if and only if the objects are separate. -/
theorem fallbacks_right_iff (H : PluginOptions.HashOrder) (feature : Option Profile)
    (json : JsonElement) (c : Create) (db : PrivateDatabase) :
    (∀ e, accepted H feature json = .error e → parseJson H feature json c db = .error e)
    ∧ ∀ items, accepted H feature json = .ok items → c.Distinct (2 * items.length) →
      (∀ k < 2 * items.length, db.get (c.id k) = none) →
      ∃ db', parseJson H feature json c db = .ok db'
        ∧ ((∀ e ∈ items.zipIdx, Right c items.length db' (c.apply e.2 e.1.1) e.1.2)
          ↔ Separate c 0 items) := by
  refine ⟨fun e he => ?_, fun items h hc hfresh => ?_⟩
  · rw [parseJson, process_eq, he]
    rfl
  obtain ⟨db', hrun, hrows⟩ := parseJson_rows hc hfresh h
  refine ⟨db', hrun, fun hright => ?_, fun hsep => ?_⟩
  · have hnew := fun item hitem => (accepted_profile h item hitem).1
    refine separate_of_held hc items 0 _ [] (by omega) hnew (keys_foldl items) (by simp) ?_
    intro e he
    exact (hrows e he).isSome_eq (hright e he)
  · obtain ⟨db'', hrun', hright⟩ := right_of_separate hc hfresh h hsep
    obtain rfl := Except.ok.inj (hrun'.symm.trans hrun)
    exact hright

/-! ## §6. Two objects, different and equal. -/

/-- A profile with this server and nothing else set. -/
def plainProfile (host : String) : Profile :=
  { name := none, host := host, remotePort := 8388, password := "secret", method := "aes-256-gcm" }

/-- The object of `plainProfile host`, with a `udp_fallback`. -/
def plainObject (host : String) (fallback : JsonElement) : JsonElement :=
  .object [("server", .primitive (.string host)),
    ("server_port", .primitive (.number "8388" 8388)),
    ("password", .primitive (.string "secret")),
    ("method", .primitive (.string "aes-256-gcm")),
    ("udp_fallback", fallback)]

/-- Two objects, the fallbacks of which are different servers. -/
def twoObjects (host host' : String) : JsonElement :=
  .array [plainObject host (plainObject "udp-1.example.org" .null),
    plainObject host' (plainObject "udp-2.example.org" .null)]

def twoItems (host host' : String) : List Item :=
  [(plainProfile host, some (plainProfile "udp-1.example.org")),
    (plainProfile host', some (plainProfile "udp-2.example.org"))]

/-- A `create` that counts from 100. -/
def countingCreate : Create where
  id k := BitVec.ofNat 64 (100 + k)
  userOrder k := BitVec.ofNat 64 k

/-- Two different servers get a fallback each. -/
theorem fallbacks_right_of_two_servers :
    ∃ db', parseJson PluginConfiguration.insertionOrder none
        (twoObjects "a.example.org" "b.example.org") countingCreate {} = .ok db'
      ∧ ∀ e ∈ (twoItems "a.example.org" "b.example.org").zipIdx,
          Right countingCreate 2 db' (countingCreate.apply e.2 e.1.1) e.1.2 := by
  have hread : accepted PluginConfiguration.insertionOrder none
      (twoObjects "a.example.org" "b.example.org")
        = .ok (twoItems "a.example.org" "b.example.org") := by
    decide +kernel
  have hdistinct : countingCreate.Distinct 4 := by
    unfold Create.Distinct
    decide
  have hseparate : Separate countingCreate 0 (twoItems "a.example.org" "b.example.org") := by
    simp [Separate, twoItems, plainProfile]
  obtain ⟨db', hrun, hiff⟩ := (fallbacks_right_iff PluginConfiguration.insertionOrder none
    (twoObjects "a.example.org" "b.example.org") countingCreate {}).2 _ hread hdistinct
      (fun _ _ => rfl)
  exact ⟨db', hrun, hiff.mpr hseparate⟩

/-- One server twice: the FIRST profile gets the fallback of the second
object, and the second one none. -/
theorem equal_objects_share_fallback :
    ∃ db', accepted PluginConfiguration.insertionOrder none
        (twoObjects "a.example.org" "a.example.org")
          = .ok (twoItems "a.example.org" "a.example.org")
      ∧ countingCreate.Distinct 4
      ∧ parseJson PluginConfiguration.insertionOrder none
        (twoObjects "a.example.org" "a.example.org") countingCreate {} = .ok db'
      ∧ (db'.profiles.map fun r => (r.id, r.host, r.udpFallback))
        = [(100, "a.example.org", some 102), (101, "a.example.org", none),
          (102, "udp-2.example.org", none)]
      ∧ ¬ ∀ e ∈ (twoItems "a.example.org" "a.example.org").zipIdx,
          Right countingCreate 2 db' (countingCreate.apply e.2 e.1.1) e.1.2 := by
  let first : Profile :=
    { plainProfile "a.example.org" with id := 100, userOrder := 0, udpFallback := some 102 }
  let second : Profile := { plainProfile "a.example.org" with id := 101, userOrder := 1 }
  let fallback : Profile := { plainProfile "udp-2.example.org" with id := 102, userOrder := 2 }
  refine ⟨{ profiles := [first, second, fallback] }, by decide +kernel, ?_, by decide +kernel,
    rfl, fun h => ?_⟩
  · unfold Create.Distinct
    decide
  · -- the row of the second profile names no fallback
    have hright := h ((plainProfile "a.example.org", some (plainProfile "udp-2.example.org")), 1)
      (List.mem_cons_of_mem _ List.mem_cons_self)
    obtain ⟨fb, -, -, -, hrow⟩ := hright
    have hsecond : PrivateDatabase.get { profiles := [first, second, fallback] } 101
        = some second := by
      decide +kernel
    have hnone := congrArg Profile.udpFallback (Option.some.inj (hsecond.symm.trans hrow))
    exact absurd hnone (by simp [second, plainProfile, Profile.toRow])

end FoxVpn.Database
