/-
  FoxVpn.Lib.LinkedMap
  ────────────────────
  **MAPS THAT REMEMBER THEIR INSERTION ORDER.**

  A map is the list of its entries, first inserted first, with no key twice:

      get    — the value of a key
      put    — replaces the value of a key where it stands, or adds the key
               at the end
      remove — deletes a key
      putAll — one `put` after the other
      putNew — `put`, which fails where the key has another value

  Two maps with the same `get` are the same map in another order; filling a
  map from any arrangement of another map's entries gives it back
  (`get_ofList_of_perm`).  A map filled by `putNew` has exactly the entries
  it was filled with, and is filled unless two of them have one key
  (`foldlM_putNew`).
-/
import Mathlib.Data.List.Nodup
import Mathlib.Logic.Relator
import FoxVpn.Lib.Result

namespace FoxVpn.Lib

universe u v

/-- A map with distinct keys, in insertion order. -/
structure LinkedMap (κ : Type u) (ν : Type v) where
  entries : List (κ × ν) := []
  nodup : (entries.map Prod.fst).Nodup := by exact List.nodup_nil

namespace LinkedMap

variable {κ : Type u} {ν : Type v} [DecidableEq κ]

instance [DecidableEq ν] : DecidableEq (LinkedMap κ ν) := fun m m' =>
  decidable_of_iff (m.entries = m'.entries) (by cases m; cases m'; simp)

def get (m : LinkedMap κ ν) (k : κ) : Option ν := m.entries.lookup k

/-! ## §1. `put`. -/

def putEntry (k : κ) (v : ν) : List (κ × ν) → List (κ × ν)
  | [] => [(k, v)]
  | e :: es => if e.1 = k then (k, v) :: es else e :: putEntry k v es

theorem keys_putEntry (k : κ) (v : ν) : ∀ es : List (κ × ν),
    (putEntry k v es).map Prod.fst
      = if k ∈ es.map Prod.fst then es.map Prod.fst else es.map Prod.fst ++ [k]
  | [] => rfl
  | e :: es => by
      rw [putEntry]
      by_cases he : e.1 = k
      · subst he
        simp
      · rw [if_neg he, List.map_cons, keys_putEntry k v es]
        have hmem : k ∈ (e :: es).map Prod.fst ↔ k ∈ es.map Prod.fst := by
          rw [List.map_cons, List.mem_cons]
          exact or_iff_right (Ne.symm he)
        by_cases hk : k ∈ es.map Prod.fst
        · rw [if_pos hk, if_pos (hmem.mpr hk), List.map_cons]
        · rw [if_neg hk, if_neg (mt hmem.mp hk), List.map_cons, List.cons_append]

def put (m : LinkedMap κ ν) (k : κ) (v : ν) : LinkedMap κ ν where
  entries := putEntry k v m.entries
  nodup := by
    rw [keys_putEntry]
    split
    next => exact m.nodup
    next hk =>
      rw [List.nodup_append]
      refine ⟨m.nodup, List.nodup_singleton k, ?_⟩
      intro a ha b hb hab
      rw [List.mem_singleton] at hb
      exact hk (hb ▸ hab ▸ ha)

theorem lookup_cons_ite (k k' : κ) (v : ν) (es : List (κ × ν)) :
    ((k, v) :: es).lookup k' = if k' = k then some v else es.lookup k' := by
  rw [List.lookup_cons]
  by_cases h : k' = k
  · rw [if_pos h, beq_iff_eq.mpr h]
  · rw [if_neg h, beq_eq_false_iff_ne.mpr h]

theorem lookup_putEntry (k k' : κ) (v : ν) : ∀ es : List (κ × ν),
    (putEntry k v es).lookup k' = if k' = k then some v else es.lookup k'
  | [] => lookup_cons_ite k k' v []
  | (l, w) :: es => by
      rw [putEntry]
      by_cases hl : l = k
      · subst hl
        rw [if_pos rfl, lookup_cons_ite, lookup_cons_ite]
        split <;> rfl
      · rw [if_neg hl, lookup_cons_ite, lookup_cons_ite, lookup_putEntry k k' v es]
        by_cases h : k' = l
        · rw [if_pos h, if_neg (h ▸ hl), if_pos h]
        · rw [if_neg h, if_neg h]

/-- **`get` after `put`.** -/
theorem get_put (m : LinkedMap κ ν) (k k' : κ) (v : ν) :
    (m.put k v).get k' = if k' = k then some v else m.get k' :=
  lookup_putEntry k k' v m.entries

/-- What a `put` leaves in the map: the new entry, or an old one. -/
theorem mem_put {m : LinkedMap κ ν} {k : κ} {v : ν} {e : κ × ν}
    (he : e ∈ (m.put k v).entries) : e = (k, v) ∨ e ∈ m.entries := by
  suffices h : ∀ es : List (κ × ν), e ∈ putEntry k v es → e = (k, v) ∨ e ∈ es from h _ he
  intro es
  induction es with
  | nil => exact fun h => Or.inl (List.mem_singleton.mp h)
  | cons d es ih =>
      intro h
      rw [putEntry] at h
      split at h
      · rcases List.mem_cons.mp h with h | h
        · exact Or.inl h
        · exact Or.inr (List.mem_cons_of_mem _ h)
      · rcases List.mem_cons.mp h with h | h
        · exact Or.inr (List.mem_cons.mpr (Or.inl h))
        · exact (ih h).imp_right (List.mem_cons_of_mem _)

/-! ## §2. `remove`. -/

def remove (m : LinkedMap κ ν) (k : κ) : LinkedMap κ ν where
  entries := m.entries.filter fun e => e.1 ≠ k
  nodup := m.nodup.sublist (List.filter_sublist.map Prod.fst)

/-- **`get` after `remove`.** -/
theorem get_remove (m : LinkedMap κ ν) (k k' : κ) :
    (m.remove k).get k' = if k' = k then none else m.get k' := by
  suffices h : ∀ es : List (κ × ν),
      (es.filter fun e => e.1 ≠ k).lookup k' = if k' = k then none else es.lookup k' from
    h m.entries
  intro es
  induction es with
  | nil => simp
  | cons e es ih =>
      rw [List.filter_cons]
      by_cases he : e.1 = k
      · rw [if_neg (by simpa using he), ih, ← Prod.eta e, lookup_cons_ite, he]
        split <;> rfl
      · rw [if_pos (decide_eq_true he), ← Prod.eta e, lookup_cons_ite, lookup_cons_ite, ih]
        by_cases hk : k' = e.1
        · rw [if_pos hk, if_pos hk, if_neg (hk ▸ he)]
        · rw [if_neg hk, if_neg hk]

/-! ## §3. Entries and `get`. -/

theorem mem_entries_iff_get (m : LinkedMap κ ν) (k : κ) (v : ν) :
    (k, v) ∈ m.entries ↔ m.get k = some v := by
  suffices h : ∀ es : List (κ × ν), (es.map Prod.fst).Nodup →
      ((k, v) ∈ es ↔ es.lookup k = some v) from h m.entries m.nodup
  intro es
  induction es with
  | nil => simp
  | cons e es ih =>
      intro hnd
      rw [List.map_cons, List.nodup_cons] at hnd
      rw [List.mem_cons, List.lookup_cons, ih hnd.2]
      by_cases hk : k = e.1
      · -- no other entry has this key
        subst hk
        have hnone : es.lookup e.1 = none := by
          rw [List.lookup_eq_none_iff]
          intro p hp
          rw [bne_iff_ne]
          intro heq
          exact hnd.1 (heq ▸ List.mem_map_of_mem hp)
        rw [hnone, beq_self_eq_true]
        simp [Prod.ext_iff, eq_comm]
      · rw [beq_eq_false_iff_ne.mpr hk]
        refine or_iff_right fun h => hk ?_
        rw [← h]

/-- Two maps with the same entries, in any order, have the same values. -/
theorem get_eq_of_perm {m m' : LinkedMap κ ν} (h : m.entries.Perm m'.entries) (k : κ) :
    m.get k = m'.get k := by
  refine Option.ext fun v => ?_
  rw [← mem_entries_iff_get, ← mem_entries_iff_get]
  exact h.mem_iff

/-- The values changed in place. -/
def mapValues {ξ : Type*} (f : ν → ξ) (m : LinkedMap κ ν) : LinkedMap κ ξ where
  entries := m.entries.map fun e => (e.1, f e.2)
  nodup := by
    rw [List.map_map]
    exact m.nodup

theorem get_mapValues {ξ : Type*} (f : ν → ξ) (m : LinkedMap κ ν) (k : κ) :
    (m.mapValues f).get k = (m.get k).map f := by
  suffices h : ∀ es : List (κ × ν),
      (es.map fun e => (e.1, f e.2)).lookup k = (es.lookup k).map f from h m.entries
  intro es
  induction es with
  | nil => rfl
  | cons e es ih =>
      rw [List.map_cons, lookup_cons_ite, ← Prod.eta e, lookup_cons_ite, ih]
      split <;> rfl

/-! ## §4. Filling a map. -/

def putAll (m : LinkedMap κ ν) (es : List (κ × ν)) : LinkedMap κ ν :=
  es.foldl (fun m e => m.put e.1 e.2) m

def ofList (es : List (κ × ν)) : LinkedMap κ ν := putAll {} es

/-- A property of entries that all added ones have. -/
theorem forall_putAll {P : κ × ν → Prop} : ∀ (es : List (κ × ν)) (m : LinkedMap κ ν),
    (∀ e ∈ m.entries, P e) → (∀ e ∈ es, P e) → ∀ e ∈ (m.putAll es).entries, P e
  | [], _, hm, _ => hm
  | d :: es, m, hm, hes => by
      refine forall_putAll es (m.put d.1 d.2) ?_ fun e he => hes e (List.mem_cons_of_mem _ he)
      intro e he
      rcases mem_put he with rfl | he
      · exact hes d List.mem_cons_self
      · exact hm e he

/-- A key that was added is there. -/
theorem isSome_get_putAll {k : κ} : ∀ (es : List (κ × ν)) (m : LinkedMap κ ν),
    (m.get k).isSome = true ∨ k ∈ es.map Prod.fst → ((m.putAll es).get k).isSome = true
  | [], _, h => h.resolve_right List.not_mem_nil
  | e :: es, m, h => by
      refine isSome_get_putAll es (m.put e.1 e.2) ?_
      rw [get_put]
      by_cases hk : k = e.1
      · rw [if_pos hk]
        exact Or.inl rfl
      · rw [if_neg hk]
        exact h.imp_right fun hmem => (List.mem_cons.mp hmem).resolve_left hk

/-- New keys go to the end, in their order. -/
theorem entries_putAll : ∀ (es : List (κ × ν)) (m : LinkedMap κ ν),
    ((m.entries ++ es).map Prod.fst).Nodup → (m.putAll es).entries = m.entries ++ es
  | [], m, _ => (List.append_nil _).symm
  | e :: es, m, h => by
      have hnew : e.1 ∉ m.entries.map Prod.fst := by
        intro hmem
        rw [List.map_append, List.nodup_append] at h
        exact h.2.2 _ hmem _ List.mem_cons_self rfl
      have hput : (m.put e.1 e.2).entries = m.entries ++ [e] := by
        show putEntry e.1 e.2 m.entries = m.entries ++ [e]
        revert hnew
        induction m.entries with
        | nil => exact fun _ => rfl
        | cons d ds ih =>
            intro hnew
            rw [List.map_cons, List.mem_cons, not_or] at hnew
            rw [putEntry, if_neg (Ne.symm hnew.1), ih hnew.2, List.cons_append]
      show ((m.put e.1 e.2).putAll es).entries = _
      rw [entries_putAll es, hput, List.append_assoc, List.singleton_append]
      rw [hput, List.append_assoc, List.singleton_append]
      exact h

theorem entries_ofList {es : List (κ × ν)} (h : (es.map Prod.fst).Nodup) :
    (ofList es).entries = es :=
  entries_putAll es {} h

/-- **A map is its entries in any order.** -/
theorem get_ofList_of_perm {m : LinkedMap κ ν} {es : List (κ × ν)} (h : es.Perm m.entries)
    (k : κ) : (ofList es).get k = m.get k := by
  have hnd : (es.map Prod.fst).Nodup := (h.map Prod.fst).nodup_iff.mpr m.nodup
  refine get_eq_of_perm ?_ k
  rw [entries_ofList hnd]
  exact h

end LinkedMap

/-! ## §5. Filling a map without conflicts. -/

namespace LinkedMap

variable {κ ν ε : Type} [DecidableEq κ] [DecidableEq ν]

/-- `put`, unless the key has another value. -/
def putNew (fail : κ × ν → ε) (m : LinkedMap κ ν) (e : κ × ν) : Except ε (LinkedMap κ ν) :=
  match m.get e.1 with
  | none => .ok (m.put e.1 e.2)
  | some old => if old = e.2 then .ok (m.put e.1 e.2) else .error (fail e)

theorem putNew_ok {fail : κ × ν → ε} {m : LinkedMap κ ν} {e : κ × ν}
    (h : ∀ old, m.get e.1 = some old → old = e.2) : putNew fail m e = .ok (m.put e.1 e.2) := by
  unfold putNew
  cases hget : m.get e.1 with
  | none => rfl
  | some old => exact if_pos (h old hget)

theorem putNew_error {fail : κ × ν → ε} {m : LinkedMap κ ν} {e : κ × ν} {old : ν}
    (hget : m.get e.1 = some old) (hne : old ≠ e.2) : putNew fail m e = .error (fail e) := by
  unfold putNew
  rw [hget]
  exact if_neg hne

/-- The values of a key, in the map and in what is to come. -/
def Declared (m : LinkedMap κ ν) (es : List (κ × ν)) (k : κ) (v : ν) : Prop :=
  m.get k = some v ∨ (k, v) ∈ es

omit [DecidableEq ν] in
/-- An entry moves into the map. -/
theorem declared_put {m : LinkedMap κ ν} {e : κ × ν}
    (h : ∀ old, m.get e.1 = some old → old = e.2) (es : List (κ × ν)) :
    Declared (m.put e.1 e.2) es = Declared m (e :: es) := by
  funext k v
  unfold Declared
  rw [get_put, List.mem_cons, Prod.ext_iff, ← or_assoc]
  refine propext (or_congr_left ?_)
  by_cases hk : k = e.1
  · subst hk
    rw [if_pos rfl, Option.some.injEq]
    constructor
    · exact fun hv => Or.inr ⟨rfl, hv.symm⟩
    · rintro (hget | ⟨_, hv⟩)
      · exact (h v hget).symm
      · exact hv.symm
  · rw [if_neg hk]
    exact (or_iff_left fun hv => hk hv.1).symm

/-- **Filling a map without conflicts**, by induction on the entries: it
succeeds if every key has one value, and then these are the values of the
map; it fails otherwise. -/
theorem foldlM_putNew (fail : κ × ν → ε) (es : List (κ × ν)) (m : LinkedMap κ ν) :
    (Relator.RightUnique (Declared m es) ∧ ∃ m', es.foldlM (putNew fail) m = .ok m'
        ∧ ∀ k v, m'.get k = some v ↔ Declared m es k v)
      ∨ (¬ Relator.RightUnique (Declared m es) ∧ ∃ e, es.foldlM (putNew fail) m = .error e) := by
  induction es generalizing m with
  | nil =>
      have hdeclared : ∀ k v, Declared m [] k v ↔ m.get k = some v := fun k v =>
        or_iff_left List.not_mem_nil
      refine Or.inl ⟨fun k v w hv hw => ?_, m, rfl, fun k v => (hdeclared k v).symm⟩
      rw [hdeclared] at hv hw
      exact Option.some.inj (hv.symm.trans hw)
  | cons e es ih =>
      by_cases hnew : ∀ old, m.get e.1 = some old → old = e.2
      · rw [foldlM_cons_ok (putNew_ok hnew), ← declared_put hnew]
        exact ih (m.put e.1 e.2)
      · -- the key has another value, now and to the end
        obtain ⟨old, h⟩ := not_forall.mp hnew
        obtain ⟨hget, hne⟩ := Classical.not_imp.mp h
        refine Or.inr ⟨fun hunique => hne ?_, fail e, ?_⟩
        · exact hunique (Or.inl hget) (Or.inr List.mem_cons_self)
        · rw [List.foldlM_cons, putNew_error hget hne]
          rfl

end LinkedMap

end FoxVpn.Lib
