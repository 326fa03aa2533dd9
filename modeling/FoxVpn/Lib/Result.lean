/-
  FoxVpn.Lib.Result
  ─────────────────
  **COMPUTATIONS THAT MAY FAIL.**

  How a computation that succeeded in `Except` is taken apart: `map`, `bind`
  and `mapError` into the result they were applied to, `mapM` into one
  result per element, a loop into its first round and the rest.
-/
import Mathlib.Data.List.Forall2

namespace FoxVpn.Lib

universe u v w

theorem map_eq_ok {ε : Type u} {α : Type v} {β : Type w} {r : Except ε α} {f : α → β} {y : β} :
    r.map f = .ok y ↔ ∃ x, r = .ok x ∧ f x = y := by
  cases r with
  | error e => simp [Except.map]
  | ok x => simp [Except.map]

theorem map_eq_error {ε : Type u} {α : Type v} {β : Type w} {r : Except ε α} {f : α → β} {e : ε} :
    r.map f = .error e ↔ r = .error e := by
  cases r with
  | error e' => simp [Except.map]
  | ok x => simp [Except.map]

theorem bind_eq_ok {ε : Type u} {α : Type v} {β : Type w} {r : Except ε α} {f : α → Except ε β}
    {y : β} : r.bind f = .ok y ↔ ∃ x, r = .ok x ∧ f x = .ok y := by
  cases r with
  | error e => simp [Except.bind]
  | ok x => simp [Except.bind]

theorem mapError_eq_ok {ε : Type u} {ε' : Type v} {α : Type w} {r : Except ε α} {f : ε → ε'}
    {x : α} (h : r.mapError f = .ok x) : r = .ok x := by
  cases r with
  | error e => exact absurd h (by simp [Except.mapError])
  | ok y => exact congrArg Except.ok (Except.ok.inj h)

/-- A computation that succeeds, and a test of what it gives. -/
theorem exists_of_test {ε : Type u} {α : Type v} {r : Except ε α} (test : α → Bool)
    (h : (match r with
      | .ok x => test x
      | .error _ => false) = true) :
    ∃ x, r = .ok x ∧ test x = true := by
  cases r with
  | error e => exact absurd h (by simp)
  | ok x => exact ⟨x, rfl, h⟩

/-- A round of a loop that succeeds. -/
theorem foldlM_cons_ok {ε α σ : Type} {f : σ → α → Except ε σ} {s s' : σ} {x : α}
    (h : f s x = .ok s') (xs : List α) : (x :: xs).foldlM f s = xs.foldlM f s' := by
  rw [List.foldlM_cons, h]
  rfl

/-- A loop that succeeds: its first round did, and so did the rest. -/
theorem foldlM_cons_eq_ok {ε α σ : Type} {f : σ → α → Except ε σ} {s t : σ} {x : α}
    {xs : List α} (h : (x :: xs).foldlM f s = .ok t) :
    ∃ s', f s x = .ok s' ∧ xs.foldlM f s' = .ok t := by
  rw [List.foldlM_cons] at h
  cases hx : f s x with
  | error e =>
      rw [hx] at h
      cases h
  | ok s' =>
      rw [hx] at h
      exact ⟨s', rfl, h⟩

/-- **A loop over a rewritten list**: if the elements written for `x` do what
`x` did, seen through `f`, then so does the whole loop. -/
theorem foldlM_flatMap_map {ε α β σ : Type} {g : σ → β → Except ε σ} {h : σ → α → Except ε σ}
    {rewrite : α → List β} {f : σ → σ}
    (H : ∀ s x, (rewrite x).foldlM g (f s) = (h s x).map f) (xs : List α) (s : σ) :
    (xs.flatMap rewrite).foldlM g (f s) = (xs.foldlM h s).map f := by
  induction xs generalizing s with
  | nil => rfl
  | cons x xs ih =>
      rw [List.flatMap_cons, List.foldlM_append, H, List.foldlM_cons]
      cases h s x with
      | error e => rfl
      | ok t => exact ih t

/-- `mapM` succeeds element by element. -/
theorem mapM_ok_iff {ε α β : Type} (f : α → Except ε β) : ∀ (xs : List α) (ys : List β),
    xs.mapM f = .ok ys ↔ List.Forall₂ (fun x y => f x = .ok y) xs ys
  | [], ys => by
      rw [List.mapM_nil, List.forall₂_nil_left_iff]
      exact ⟨fun h => (Except.ok.inj h).symm, fun h => h ▸ rfl⟩
  | x :: xs, ys => by
      rw [List.mapM_cons]
      cases hx : f x with
      | error e =>
          refine ⟨fun h => absurd h (by simp [Bind.bind, Except.bind]), fun h => ?_⟩
          cases h with
          | cons hy _ => exact absurd (hx.symm.trans hy) (by simp)
      | ok y =>
          cases hxs : xs.mapM f with
          | error e =>
              refine ⟨fun h => absurd h (by simp [Bind.bind, Except.bind]), fun h => ?_⟩
              cases h with
              | cons _ hys =>
                  exact absurd (hxs.symm.trans ((mapM_ok_iff f xs _).mpr hys)) (by simp)
          | ok zs =>
              constructor
              · intro h
                obtain rfl : y :: zs = ys := Except.ok.inj h
                exact List.Forall₂.cons hx ((mapM_ok_iff f xs zs).mp hxs)
              · intro h
                cases h with
                | cons hy hys =>
                    obtain rfl := Except.ok.inj (hx.symm.trans hy)
                    obtain rfl := Except.ok.inj (hxs.symm.trans ((mapM_ok_iff f xs _).mpr hys))
                    rfl

/-- Where a result of `mapM` comes from, and that every input has one. -/
theorem mem_of_mapM_ok {ε α β : Type} {f : α → Except ε β} {xs : List α} {ys : List β}
    (h : xs.mapM f = .ok ys) :
    (∀ y ∈ ys, ∃ x ∈ xs, f x = .ok y) ∧ ∀ x ∈ xs, ∃ y, f x = .ok y := by
  induction (mapM_ok_iff f xs ys).mp h with
  | nil => exact ⟨by simp, by simp⟩
  | @cons x y xs ys hxy hrest ih =>
      obtain ⟨hright, hleft⟩ := ih ((mapM_ok_iff f xs ys).mpr hrest)
      constructor
      · intro z hz
        rcases List.mem_cons.mp hz with rfl | hz
        · exact ⟨x, List.mem_cons_self, hxy⟩
        · obtain ⟨w, hw, hwz⟩ := hright z hz
          exact ⟨w, List.mem_cons_of_mem _ hw, hwz⟩
      · intro z hz
        rcases List.mem_cons.mp hz with rfl | hz
        · exact ⟨y, hxy⟩
        · exact hleft z hz

end FoxVpn.Lib
