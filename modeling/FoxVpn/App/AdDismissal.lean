/-
  FoxVpn.App.AdDismissal
  ──────────────────────
  **ONE `dismiss` PER `foxShow` — where the app goes on after an ad.**

  Whoever calls `foxShow` leaves the rest of its work in `dismiss`: opening
  the next screen, and for the disconnect button stopping the VPN itself.  If
  no ad can be shown `dismiss` is invoked at once; otherwise the callback
  goes into the AD OBJECT, and the library reports each display to whichever
  callback the object holds by then.

  Main result `dismissed_once_iff`: once nothing is left to be reported, every
  `foxShow` has had exactly one `dismiss` EXACTLY if none of them took an ad
  whose display was still reported on.  A presenter gives its ad up only at
  `onAdShowedFullScreenContent`, so two calls in a row do take the same ad.
-/
import FoxVpn.App.FoxAdPresenter

namespace FoxVpn.App.FoxAd

open FoxVpn.Lib

/-! ## §1. The accounts. -/

/-- The displays that will be reported to call `k` as things stand. -/
def World.reported (w : World) (k : Nat) : Nat :=
  w.displays.countP fun d => (w.callback d.ad).any fun c => c.2 == k

/-- Every call is answered, or one display is still to be reported to it. -/
def Answered (w : World) : Prop := ∀ k, k < w.shows → w.dismissed k + w.reported k = 1

/-- A `foxShow` does not take an ad whose display is still reported on. -/
def Fresh (w : World) : Label → Prop
  | .foxShow place visible =>
      w.foxShowEnable ⟨place, w.canStop⟩ visible = true →
      ∀ d ∈ w.displays, (w.presenters ⟨place, w.canStop⟩).ad ≠ some d.ad
  | _ => True

instance (w : World) (a : Label) : Decidable (Fresh w a) := by
  cases a <;> unfold Fresh <;> infer_instance

/-- Calls not made yet have left no trace, and every display reports to
somebody. -/
structure Numbered (w : World) : Prop where
  known : ∀ a slot k, w.callback a = some (slot, k) → k < w.shows
  dismissed : ∀ k, w.shows ≤ k → w.dismissed k = 0
  reports : ∀ d ∈ w.displays, (w.callback d.ad).isSome = true

/-- What the accounts of `dismiss` look at. -/
def World.view (w : World) : Nat × (Nat → Nat) × (Nat → Option (Slot × Nat)) × List Display :=
  (w.shows, w.dismissed, w.callback, w.displays)

theorem answered_congr {w w' : World} (h : w'.view = w.view) : Answered w' ↔ Answered w := by
  simp only [World.view, Prod.mk.injEq] at h
  obtain ⟨hshows, hdismissed, hcallback, hdisplays⟩ := h
  unfold Answered World.reported
  rw [hshows, hdismissed, hcallback, hdisplays]

theorem Numbered.congr {w w' : World} (hn : Numbered w) (h : w'.view = w.view) :
    Numbered w' := by
  simp only [World.view, Prod.mk.injEq] at h
  obtain ⟨hshows, hdismissed, hcallback, hdisplays⟩ := h
  refine ⟨?_, ?_, ?_⟩
  · rw [hcallback, hshows]; exact hn.known
  · rw [hdismissed, hshows]; exact hn.dismissed
  · rw [hcallback, hdisplays]; exact hn.reports

theorem view_request (w : World) (slot : Slot) (again : Bool) :
    (w.request slot again).view = w.view := by
  unfold World.request
  split
  · rfl
  · rfl

theorem view_onAdFailedToLoad (w : World) (r : LoadRequest) :
    (w.onAdFailedToLoad r).view = w.view := by
  show World.view (if r.again then _ else _) = _
  split
  · exact view_request _ r.slot false
  · rfl

theorem view_foxLoad (w : World) (place : Place) : (w.foxLoad place).view = w.view := by
  cases place with
  | onp => exact view_request w _ true
  | ivcnt | ivbacksv | ivbackrst => exact view_request w _ false

theorem view_forget (w : World) (a : Nat) : (w.forget a).view = w.view := by
  unfold World.forget
  split
  · rfl
  · rfl

/-- A reported display: `dismiss` is invoked in whatever state the presenter
is left. -/
theorem view_invokeDismiss {w v : World} (hv : v.view = w.view) {a : Nat} {slot : Slot} {k : Nat}
    (ha : w.callback a = some (slot, k)) :
    (v.invokeDismiss a).view = (w.dismiss k).view := by
  simp only [World.view, Prod.mk.injEq] at hv
  obtain ⟨hshows, hdismissed, hcallback, hdisplays⟩ := hv
  unfold World.invokeDismiss
  rw [hcallback, ha]
  show (v.shows, Function.update v.dismissed k (v.dismissed k + 1), v.callback, v.displays) = _
  rw [hshows, hdismissed, hcallback, hdisplays]
  rfl

/-! ## §2. The three kinds of steps that are seen. -/

/-- A display moves from "not showed" to "showed". -/
theorem reported_showed {w : World} {a : Nat} (ha : ⟨a, false⟩ ∈ w.displays) (k : Nat) :
    World.reported { w with displays := ⟨a, true⟩ :: w.displays.erase ⟨a, false⟩ } k
      = w.reported k := by
  have hcount := countP_erase_add ha fun d => (w.callback d.ad).any fun c => c.2 == k
  unfold World.reported
  rw [List.countP_cons, hcount]

/-- A display ends, and the call it reports to is answered. -/
theorem answered_dismissed {w : World} {d : Display} (hd : d ∈ w.displays) {slot : Slot} {k₀ : Nat}
    (hk₀ : w.callback d.ad = some (slot, k₀)) (k : Nat) :
    (w.dismiss k₀).dismissed k
        + World.reported { w.dismiss k₀ with displays := w.displays.erase d } k
      = w.dismissed k + w.reported k := by
  have hcount := countP_erase_add hd fun d => (w.callback d.ad).any fun c => c.2 == k
  have hreported : World.reported { w.dismiss k₀ with displays := w.displays.erase d } k
      = (w.displays.erase d).countP fun d => (w.callback d.ad).any fun c => c.2 == k := rfl
  have hdismissed : (w.dismiss k₀).dismissed k
      = if k = k₀ then w.dismissed k₀ + 1 else w.dismissed k := by
    show Function.update w.dismissed k₀ _ k = _
    rw [Function.update_apply]
  rw [hreported, hdismissed]
  unfold World.reported
  rw [hcount, hk₀]
  by_cases hk : k = k₀
  · subst hk
    simp only [Option.any_some, beq_self_eq_true, if_true]
    omega
  · rw [if_neg hk, if_neg (by simpa using Ne.symm hk)]
    omega

/-- An ad goes up: the call in progress gets all the displays of that ad. -/
theorem reported_display_new {w : World} (hn : Numbered w) (slot : Slot) (a : Nat) :
    (w.display slot a).reported w.shows = w.displays.countP (fun d => d.ad == a) + 1 := by
  show (Display.mk a false :: w.displays).countP
    (fun d => (Function.update w.callback a (some (slot, w.shows)) d.ad).any
      fun c => c.2 == w.shows) = _
  rw [List.countP_cons]
  have hhead : (Function.update w.callback a (some (slot, w.shows)) a).any
      (fun c => c.2 == w.shows) = true := by
    rw [Function.update_self]
    simp
  rw [if_pos hhead]
  congr 1
  apply List.countP_congr
  intro d _
  by_cases hda : d.ad = a
  · rw [hda, hhead]
    simp
  · rw [Function.update_of_ne hda]
    -- an older callback reports to an older call
    have hold : (w.callback d.ad).any (fun c => c.2 == w.shows) = false := by
      cases hc : w.callback d.ad with
      | none => rfl
      | some c =>
          have hlt := hn.known d.ad c.1 c.2 hc
          simpa using Nat.ne_of_lt hlt
    rw [hold]
    simpa using hda

/-- The calls before it keep the displays of the other ads. -/
theorem reported_display_old {w : World} (slot : Slot) {a k : Nat} (hk : k < w.shows)
    (hfresh : ∀ d ∈ w.displays, d.ad ≠ a) :
    (w.display slot a).reported k = w.reported k := by
  show (Display.mk a false :: w.displays).countP
    (fun d => (Function.update w.callback a (some (slot, w.shows)) d.ad).any
      fun c => c.2 == k) = _
  rw [List.countP_cons]
  have hhead : (Function.update w.callback a (some (slot, w.shows)) a).any
      (fun c => c.2 == k) = false := by
    rw [Function.update_self]
    simpa using (Nat.ne_of_gt hk)
  rw [if_neg (by rw [hhead]; decide), Nat.add_zero]
  apply List.countP_congr
  intro d hd
  rw [Function.update_of_ne (hfresh d hd)]

/-- **An ad going up keeps the accounts exactly if it is fresh.** -/
theorem answered_display {w : World} (hn : Numbered w) (slot : Slot) (a : Nat) :
    Answered (w.display slot a) ↔ Answered w ∧ ∀ d ∈ w.displays, d.ad ≠ a := by
  have hnew : (w.display slot a).dismissed w.shows + (w.display slot a).reported w.shows
      = w.displays.countP (fun d => d.ad == a) + 1 := by
    rw [reported_display_new hn]
    show w.dismissed w.shows + _ = _
    rw [hn.dismissed w.shows (Nat.le_refl _), Nat.zero_add]
  have hfresh_iff : w.displays.countP (fun d => d.ad == a) = 0 ↔ ∀ d ∈ w.displays, d.ad ≠ a := by
    rw [List.countP_eq_zero]
    simp
  constructor
  · intro hans
    have hlast := hans w.shows (Nat.lt_succ_self _)
    have hfresh := hfresh_iff.mp (by omega)
    refine ⟨?_, hfresh⟩
    intro k hk
    have hold := hans k (Nat.lt_succ_of_lt hk)
    rw [reported_display_old slot hk hfresh] at hold
    exact hold
  · rintro ⟨hans, hfresh⟩ k hk
    rcases Nat.lt_succ_iff_lt_or_eq.mp hk with hlt | heq
    · rw [reported_display_old slot hlt hfresh]
      exact hans k hlt
    · rw [heq, hnew, hfresh_iff.mpr hfresh]

/-- A call answered at once. -/
theorem answered_dismiss {w : World} (hn : Numbered w) :
    Answered (World.dismiss { w with shows := w.shows + 1 } w.shows) ↔ Answered w := by
  have hother : ∀ k, k < w.shows →
      (World.dismiss { w with shows := w.shows + 1 } w.shows).dismissed k = w.dismissed k := by
    intro k hk
    show Function.update w.dismissed w.shows _ k = _
    rw [Function.update_of_ne (Nat.ne_of_lt hk)]
  constructor
  · intro hans k hk
    have hold := hans k (Nat.lt_succ_of_lt hk)
    rw [hother k hk] at hold
    exact hold
  · intro hans k hk
    rcases Nat.lt_succ_iff_lt_or_eq.mp hk with hlt | heq
    · rw [hother k hlt]
      exact hans k hlt
    · subst heq
      show Function.update w.dismissed w.shows (w.dismissed w.shows + 1) w.shows
        + w.reported w.shows = 1
      -- nothing reports to a call before it is made
      have hnone : w.reported w.shows = 0 := by
        unfold World.reported
        rw [List.countP_eq_zero]
        intro d _
        cases hc : w.callback d.ad with
        | none => simp
        | some c =>
            have hlt := hn.known d.ad c.1 c.2 hc
            simpa using Nat.ne_of_lt hlt
      rw [Function.update_self, hn.dismissed w.shows (Nat.le_refl _), hnone]

/-! ## §3. Every step. -/

theorem numbered_init : Numbered {} where
  known _ _ _ h := by cases h
  dismissed _ _ := rfl
  reports _ h := by cases h

/-- The callback a display reports to. -/
theorem Numbered.callback_of_mem {w : World} (hn : Numbered w) {d : Display}
    (hd : d ∈ w.displays) : ∃ slot k, w.callback d.ad = some (slot, k) ∧ k < w.shows := by
  obtain ⟨⟨slot, k⟩, hc⟩ := Option.isSome_iff_exists.mp (hn.reports d hd)
  exact ⟨slot, k, hc, hn.known d.ad slot k hc⟩

theorem Numbered.display {w : World} (hn : Numbered w) (slot : Slot) (a : Nat) :
    Numbered (w.display slot a) where
  known b slot' k h := by
    change Function.update w.callback a (some (slot, w.shows)) b = _ at h
    rw [Function.update_apply] at h
    split at h
    next => cases h; exact Nat.lt_succ_self _
    next => exact Nat.lt_succ_of_lt (hn.known b slot' k h)
  dismissed k hk := hn.dismissed k (Nat.le_of_succ_le hk)
  reports d hd := by
    show (Function.update w.callback a (some (slot, w.shows)) d.ad).isSome = true
    rw [Function.update_apply]
    split
    next => rfl
    next hne =>
      rcases List.mem_cons.mp hd with h | h
      · exact absurd (by rw [h]) hne
      · exact hn.reports d h

theorem Numbered.dismiss {w : World} (hn : Numbered w) {k : Nat} (hk : k < w.shows) :
    Numbered (w.dismiss k) where
  known := hn.known
  dismissed j hj := by
    have hj' : w.shows ≤ j := hj
    show Function.update w.dismissed k _ j = 0
    rw [Function.update_of_ne (by omega)]
    exact hn.dismissed j hj'
  reports := hn.reports

/-- Displays change among themselves. -/
theorem Numbered.setDisplays {w : World} (hn : Numbered w) {ds : List Display}
    (h : ∀ d ∈ ds, ∃ d' ∈ w.displays, d'.ad = d.ad) : Numbered { w with displays := ds } where
  known := hn.known
  dismissed := hn.dismissed
  reports d hd := by
    obtain ⟨d', hd', heq⟩ := h d hd
    rw [← heq]
    exact hn.reports d' hd'

/-- **Step preservation and verdict**: the numbering is kept, and the accounts
are kept exactly by the steps that take a fresh ad. -/
theorem numbered_answered_step {w w' : World} {a : Label} (h : step w a = some w')
    (hn : Numbered w) : Numbered w' ∧ (Answered w' ↔ Answered w ∧ Fresh w a) := by
  -- the steps the accounts do not see
  have hunseen : w'.view = w.view → Fresh w a →
      Numbered w' ∧ (Answered w' ↔ Answered w ∧ Fresh w a) := by
    intro hview hfresh
    exact ⟨hn.congr hview, by rw [answered_congr hview, and_iff_left hfresh]⟩
  -- the steps that end a display
  have hended : ∀ d : Display, d ∈ w.displays → ∀ v : World, v.view = w.view →
      w' = { v.invokeDismiss d.ad with displays := w.displays.erase d } → Fresh w a →
      Numbered w' ∧ (Answered w' ↔ Answered w ∧ Fresh w a) := by
    intro d hd v hv hw' hfresh
    obtain ⟨slot, k, hc, hk⟩ := hn.callback_of_mem hd
    have hview : w'.view = World.view { w.dismiss k with displays := w.displays.erase d } := by
      have hinvoke := view_invokeDismiss hv hc
      simp only [World.view, Prod.mk.injEq] at hinvoke ⊢
      rw [hw']
      exact ⟨hinvoke.1, hinvoke.2.1, hinvoke.2.2.1, rfl⟩
    refine ⟨?_, ?_⟩
    · refine ((hn.dismiss hk).setDisplays ?_).congr hview
      intro d' hd'
      exact ⟨d', List.mem_of_mem_erase hd', rfl⟩
    · rw [answered_congr hview, and_iff_left hfresh]
      refine forall_congr' fun j => forall_congr' fun _ => ?_
      exact Iff.of_eq (congrArg (· = 1) (answered_dismissed hd hc j))
  cases a with
  | environment | updateFoxId =>
      injection h with h
      subst h
      exact hunseen rfl trivial
  | foxLoad place =>
      injection h with h
      subst h
      exact hunseen (view_foxLoad w place) trivial
  | onAdLoaded r =>
      obtain ⟨_, rfl⟩ := of_enabled h
      exact hunseen rfl trivial
  | onAdFailedToLoad r =>
      obtain ⟨_, rfl⟩ := of_enabled h
      exact hunseen (view_onAdFailedToLoad w r) trivial
  | foxShow place visible =>
      injection h with h
      subst h
      rcases foxShow_cases w place visible with ⟨a, henable, ha, heq⟩ | ⟨henable, heq⟩
      · rw [heq]
        refine ⟨hn.display _ a, ?_⟩
        rw [answered_display hn]
        refine and_congr_right fun _ => ?_
        show _ ↔ (w.foxShowEnable _ visible = true → ∀ d ∈ w.displays, _ ≠ some d.ad)
        rw [ha]
        simp only [henable, forall_const, ne_eq, Option.some.injEq]
        exact forall_congr' fun d => forall_congr' fun _ => not_congr eq_comm
      · rw [heq]
        refine ⟨?_, ?_⟩
        · refine Numbered.dismiss (w := { w with shows := w.shows + 1 }) ⟨?_, ?_, hn.reports⟩
            (Nat.lt_succ_self _)
          · intro b slot k hc
            exact Nat.lt_succ_of_lt (hn.known b slot k hc)
          · intro k hk
            exact hn.dismissed k (Nat.le_of_succ_le hk)
        · rw [answered_dismiss hn]
          exact (and_iff_left (fun hc => absurd (henable.symm.trans hc) (by decide))).symm
  | onAdShowedFullScreenContent b =>
      obtain ⟨hb, rfl⟩ := of_enabled h
      have hview : World.view { w.forget b with
          displays := ⟨b, true⟩ :: w.displays.erase ⟨b, false⟩ }
          = World.view { w with displays := ⟨b, true⟩ :: w.displays.erase ⟨b, false⟩ } := by
        have hforget := view_forget w b
        simp only [World.view, Prod.mk.injEq] at hforget ⊢
        exact ⟨hforget.1, hforget.2.1, hforget.2.2.1, trivial⟩
      refine ⟨?_, ?_⟩
      · refine (hn.setDisplays ?_).congr hview
        intro d hd
        rcases List.mem_cons.mp hd with h | h
        · exact ⟨_, hb, by rw [h]⟩
        · exact ⟨d, List.mem_of_mem_erase h, rfl⟩
      · rw [answered_congr hview,
          and_iff_left (show Fresh w (.onAdShowedFullScreenContent b) from trivial)]
        refine forall_congr' fun k => forall_congr' fun _ => ?_
        rw [reported_showed hb k]
  | onAdDismissedFullScreenContent b =>
      obtain ⟨hb, rfl⟩ := of_enabled h
      exact hended ⟨b, true⟩ hb w rfl rfl trivial
  | onAdFailedToShowFullScreenContent b =>
      obtain ⟨hb, rfl⟩ := of_enabled h
      exact hended ⟨b, false⟩ hb (w.forget b) (view_forget w b) rfl trivial

/-! ## §4. Whole runs. -/

/-- **THE DISMISS THEOREM**: once no display is left to be reported, every
`foxShow` has been answered by exactly one `dismiss` if and only if none of
them took an ad whose display was still reported on. -/
theorem dismissed_once_iff (as : List Label) (w : World) (hrun : exec step {} as = some w)
    (hover : w.displays = []) :
    (∀ k, k < w.shows → w.dismissed k = 1) ↔ Meets step Fresh {} as := by
  have hanswered : Answered w ↔ ∀ k, k < w.shows → w.dismissed k = 1 := by
    unfold Answered World.reported
    rw [hover]
    exact Iff.rfl
  have hinit : Answered {} := fun k hk => absurd hk (Nat.not_lt_zero k)
  have hiff : Answered w ↔ Answered {} ∧ Meets step Fresh {} as :=
    (exec_iff_meets (I := Numbered) (N := fun _ => True)
      (fun _ _ _ hn h => (numbered_answered_step h hn).1) (fun _ _ _ _ _ _ => trivial)
      (fun _ _ _ hn h _ => (numbered_answered_step h hn).2) as {} w numbered_init hrun trivial).2
  rw [← hanswered, hiff, and_iff_right hinit]

/-- Two jobs show the same interstitial before the library reports it: the
second callback replaces the first. -/
def shownTwice : List Label :=
  shownRun ++ [.foxShow .ivcnt true, .foxShow .ivcnt true, .onAdShowedFullScreenContent 0,
    .onAdFailedToShowFullScreenContent 0, .onAdDismissedFullScreenContent 0]

theorem dismissed_once_iff_shownTwice :
    ∃ w, exec step {} shownTwice = some w ∧ w.displays = []
      ∧ ¬ ∀ k, k < w.shows → w.dismissed k = 1 := by
  obtain ⟨w, hrun, htest⟩ := exists_of_exec_test step {} shownTwice
    (fun w => w.displays == []) (by decide)
  have hover : w.displays = [] := by simpa using htest
  refine ⟨w, hrun, hover, ?_⟩
  rw [dismissed_once_iff shownTwice w hrun hover]
  decide

end FoxVpn.App.FoxAd
