/-
  FoxVpn.Lib.Run
  ──────────────
  **RUNS OF A PARTIAL STEP FUNCTION.**

  A system is a step function `step : σ → ι → Option σ`: a label `ι` names
  who moves and what the environment chose, `none` means the label is not
  enabled.  A run is a list of labels.  Three notions on runs:

      exec    — the state a run ends in
      Meets   — every step meets a condition in the state it is taken from
      Along   — every state the run passes satisfies a predicate

  The rules: an invariant kept by every step that meets `C` holds at the
  end of every run that meets `C` (`exec_invariant`), and if a step breaks
  `P` EXACTLY when it fails `C` then the runs along which `P` holds are
  exactly the runs that meet `C` (`along_iff_meets`).
-/
import Mathlib.Data.Option.Basic
import Mathlib.Data.List.Basic

namespace FoxVpn.Lib

variable {σ ι : Type*}

/-! ## §1. Runs. -/

/-- The state a run ends in; `none` as soon as a label is not enabled. -/
def exec (step : σ → ι → Option σ) : σ → List ι → Option σ
  | s, [] => some s
  | s, a :: as => (step s a).bind fun s' => exec step s' as

/-- Every step of the run meets `C` in the state it is taken from. -/
def Meets (step : σ → ι → Option σ) (C : σ → ι → Prop) : σ → List ι → Prop
  | _, [] => True
  | s, a :: as => C s a ∧ ∀ s', step s a = some s' → Meets step C s' as

/-- Every state the run passes, both ends included, satisfies `P`. -/
def Along (step : σ → ι → Option σ) (P : σ → Prop) : σ → List ι → Prop
  | s, [] => P s
  | s, a :: as => P s ∧ ∀ s', step s a = some s' → Along step P s' as

variable {step : σ → ι → Option σ} {C : σ → ι → Prop} {P I : σ → Prop}

/-- Meeting a decidable condition is decided by running the labels. -/
instance Meets.decidable [∀ s a, Decidable (C s a)] :
    ∀ (as : List ι) (s : σ), Decidable (Meets step C s as)
  | [], _ => isTrue trivial
  | a :: as, s =>
      match h : step s a with
      | none => decidable_of_iff (C s a) (by simp [Meets, h])
      | some s' =>
          have := Meets.decidable as s'
          decidable_of_iff (C s a ∧ Meets step C s' as) (by simp [Meets, h])

theorem exec_cons {s s'' : σ} {a : ι} {as : List ι} :
    exec step s (a :: as) = some s''
      ↔ ∃ s', step s a = some s' ∧ exec step s' as = some s'' := by
  simp only [exec, Option.bind_eq_some_iff]

/-- A run in two parts. -/
theorem exec_append {bs : List ι} : ∀ {as : List ι} {s s'' : σ},
    exec step s (as ++ bs) = some s''
      ↔ ∃ s', exec step s as = some s' ∧ exec step s' bs = some s''
  | [], s, s'' => by
      constructor
      · intro h
        exact ⟨s, rfl, h⟩
      · rintro ⟨s', h, hs''⟩
        obtain rfl := Option.some.inj h
        exact hs''
  | b :: as, s, s'' => by
      rw [List.cons_append, exec_cons]
      constructor
      · rintro ⟨s₁, hs₁, h⟩
        obtain ⟨s', hs', ha⟩ := exec_append.mp h
        exact ⟨s', exec_cons.mpr ⟨s₁, hs₁, hs'⟩, ha⟩
      · rintro ⟨s', hs', ha⟩
        obtain ⟨s₁, hs₁, hrest⟩ := exec_cons.mp hs'
        exact ⟨s₁, hs₁, exec_append.mpr ⟨s', hrest, ha⟩⟩

/-- The last step of a run, seen from its end. -/
theorem exec_concat {a : ι} {as : List ι} {s s'' : σ} :
    exec step s (as ++ [a]) = some s''
      ↔ ∃ s', exec step s as = some s' ∧ step s' a = some s'' := by
  rw [exec_append]
  refine exists_congr fun s' => and_congr_right fun _ => ?_
  rw [exec_cons]
  constructor
  · rintro ⟨s₁, hs₁, h⟩
    exact hs₁.trans h
  · intro h
    exact ⟨s'', h, rfl⟩

/-- The first part of a run that meets `C` meets it. -/
theorem Meets.of_append {bs : List ι} : ∀ {as : List ι} {s : σ},
    Meets step C s (as ++ bs) → Meets step C s as
  | [], _, _ => trivial
  | _ :: _, _, h => ⟨h.1, fun s' hs' => (h.2 s' hs').of_append⟩

/-- Two conditions met are their conjunction met. -/
theorem Meets.and {D : σ → ι → Prop} : ∀ {as : List ι} {s : σ},
    Meets step C s as → Meets step D s as → Meets step (fun s a => C s a ∧ D s a) s as
  | [], _, _, _ => trivial
  | _ :: _, _, hC, hD => ⟨⟨hC.1, hD.1⟩, fun s' hs' => (hC.2 s' hs').and (hD.2 s' hs')⟩

/-- A weaker condition is met too. -/
theorem Meets.mono {D : σ → ι → Prop} (h : ∀ s a, C s a → D s a) : ∀ {as : List ι} {s : σ},
    Meets step C s as → Meets step D s as
  | [], _, _ => trivial
  | a :: _, s, hC => ⟨h s a hC.1, fun s' hs' => (hC.2 s' hs').mono h⟩

/-- A condition on the labels alone. -/
theorem Meets.of_forall {Q : ι → Prop} : ∀ {as : List ι} {s : σ},
    (∀ a ∈ as, Q a) → Meets step (fun _ a => Q a) s as
  | [], _, _ => trivial
  | a :: _, _, h =>
      ⟨h a List.mem_cons_self, fun _ _ => of_forall fun b hb => h b (List.mem_cons_of_mem a hb)⟩

/-- A concrete run and a test of its last state, checked by evaluation. -/
theorem exists_of_exec_test (step : σ → ι → Option σ) (s : σ) (as : List ι)
    (test : σ → Bool) (h : (exec step s as).any test = true) :
    ∃ s', exec step s as = some s' ∧ test s' = true := by
  cases hrun : exec step s as with
  | none => rw [hrun] at h; exact absurd h (by simp)
  | some s' => rw [hrun] at h; exact ⟨s', rfl, h⟩

/-- A guarded label that was taken: its guard held, and the state is the
one it gives. -/
theorem of_enabled {p : Prop} [Decidable p] {s s' : σ}
    (h : (if p then some s else none) = some s') : p ∧ s = s' := by
  split at h
  next hp => exact ⟨hp, Option.some.inj h⟩
  next => exact absurd h (by simp)

/-! ## §2. The invariant rules. -/

/-- **The guarded invariant rule**: what every step meeting `C` keeps holds
at the end of every run meeting `C`. -/
theorem exec_invariant
    (hI : ∀ s a s', C s a → step s a = some s' → I s → I s') :
    ∀ (as : List ι) (s s' : σ),
      I s → Meets step C s as → exec step s as = some s' → I s'
  | [], s, s', hs, _, h => by
      injection h with h
      subst h
      exact hs
  | a :: as, s, s', hs, hm, h => by
      obtain ⟨s₁, ha, hrest⟩ := exec_cons.mp h
      exact exec_invariant hI as s₁ s' (hI s a s₁ hm.1 ha hs) (hm.2 s₁ ha) hrest

/-- The unguarded rule: what every step keeps holds at the end of every
run. -/
theorem exec_invariant_all
    (hI : ∀ s a s', step s a = some s' → I s → I s') :
    ∀ (as : List ι) (s s' : σ), I s → exec step s as = some s' → I s'
  | [], s, s', hs, h => by
      injection h with h
      subst h
      exact hs
  | a :: as, s, s', hs, h => by
      obtain ⟨s₁, ha, hrest⟩ := exec_cons.mp h
      exact exec_invariant_all hI as s₁ s' (hI s a s₁ ha hs) hrest

/-- A condition that an invariant derives from another one: enabled runs
that meet the one meet the other. -/
theorem Meets.of_invariant {D : σ → ι → Prop}
    (hI : ∀ s a s', D s a → step s a = some s' → I s → I s')
    (hC : ∀ s a s', D s a → step s a = some s' → I s → C s a) :
    ∀ {as : List ι} {s s' : σ}, exec step s as = some s' → I s → Meets step D s as →
      Meets step C s as
  | [], _, _, _, _, _ => trivial
  | a :: as, s, s', h, hs, hm => by
      obtain ⟨s₁, ha, hrest⟩ := exec_cons.mp h
      refine ⟨hC s a s₁ hm.1 ha hs, fun s₂ h₂ => ?_⟩
      rw [ha] at h₂
      injection h₂ with h₂
      subst h₂
      exact of_invariant hI hC hrest (hI s a s₁ hm.1 ha hs) (hm.2 s₁ ha)

/-- **The exactness rule.**  `I` is kept by the steps that meet `C` and
implies `P`; a step from an `I`-state that fails `C` lands outside `P`.
Then the enabled runs along which `P` holds are exactly those that meet
`C`. -/
theorem along_iff_meets
    (hP : ∀ s, I s → P s)
    (hI : ∀ s a s', C s a → step s a = some s' → I s → I s')
    (hbad : ∀ s a s', ¬ C s a → step s a = some s' → I s → ¬ P s') :
    ∀ (as : List ι) (s s' : σ), I s → exec step s as = some s' →
      (Along step P s as ↔ Meets step C s as)
  | [], s, _, hs, _ => ⟨fun _ => trivial, fun _ => hP s hs⟩
  | a :: as, s, s', hs, h => by
      obtain ⟨s₁, ha, hrest⟩ := exec_cons.mp h
      constructor
      · rintro ⟨_, hal⟩
        -- the state after the step satisfies `P`, so the step met `C`
        have hP₁ : P s₁ := by
          cases as with
          | nil => exact hal s₁ ha
          | cons b bs => exact (hal s₁ ha).1
        have hC : C s a := by
          by_contra hC
          exact hbad s a s₁ hC ha hs hP₁
        refine ⟨hC, fun s₂ h₂ => ?_⟩
        rw [ha] at h₂
        injection h₂ with h₂
        subst h₂
        exact (along_iff_meets hP hI hbad as s₁ s' (hI s a s₁ hC ha hs) hrest).mp
          (hal s₁ ha)
      · rintro ⟨hC, hm⟩
        refine ⟨hP s hs, fun s₂ h₂ => ?_⟩
        rw [ha] at h₂
        injection h₂ with h₂
        subst h₂
        exact (along_iff_meets hP hI hbad as s₁ s' (hI s a s₁ hC ha hs) hrest).mpr
          (hm s₁ ha)

/-- **The verdict rule.**  Under an invariant `I`, and as long as `N` still
holds afterwards, each step keeps `P` exactly if it meets `C`, and nothing
brings `P` back.  Then the end of a run has `P` exactly if its beginning
had it and every step met `C`. -/
theorem exec_iff_meets {N : σ → Prop}
    (hI : ∀ s a s', I s → step s a = some s' → I s')
    (hN : ∀ s a s', I s → step s a = some s' → N s' → N s)
    (hP : ∀ s a s', I s → step s a = some s' → N s' → (P s' ↔ P s ∧ C s a)) :
    ∀ (as : List ι) (s s' : σ), I s → exec step s as = some s' → N s' →
      N s ∧ (P s' ↔ P s ∧ Meets step C s as)
  | [], s, s', _, h, hn => by
      injection h with h
      subst h
      exact ⟨hn, (and_iff_left trivial).symm⟩
  | a :: as, s, s', hs, h, hn => by
      obtain ⟨s₁, ha, hrest⟩ := exec_cons.mp h
      obtain ⟨hn₁, hiff⟩ := exec_iff_meets hI hN hP as s₁ s' (hI s a s₁ hs ha) hrest hn
      refine ⟨hN s a s₁ hs ha hn₁, ?_⟩
      rw [hiff, hP s a s₁ hs ha hn₁, and_assoc]
      refine and_congr_right fun _ => and_congr_right fun _ => ?_
      constructor
      · intro hm s₂ h₂
        rw [ha] at h₂
        injection h₂ with h₂
        subst h₂
        exact hm
      · intro hm
        exact hm s₁ ha

end FoxVpn.Lib
