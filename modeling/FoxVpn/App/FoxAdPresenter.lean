/-
  FoxVpn.App.FoxAdPresenter
  ─────────────────────────
  **THE AD PRESENTERS AND THE AD LIBRARY — `FoxAdPresenter`, `FoxAdManager`.**

  Eight presenters (four places, each once for "not connected" and once for
  "connected") ask an asynchronous library for ads and show them.  Every
  handler runs on the main thread, so a handler is one step; what interleaves
  are the calls of the app, the answers of the library, the clock, and the
  state of the VPN:

      foxLoad      — request an ad unless one is stored and usable; a failed
                     OPEN ad is requested once more
      onAdLoaded   — store the ad, with the host at the time of the REQUEST
      foxShow      — show the stored ad, or call `dismiss` at once; `dismiss`
                     is where the app goes on (and where the VPN is stopped)
      onAd…        — the library reports a display to the callback the AD
                     OBJECT holds at that moment

  Main results, for every run:

      `load_protocol`        a presenter has one request out exactly while it
                             is `ading`, and the retries are bounded
      `shown_ad_current`     what is shown was loaded for the present host and
                             mode less than an hour ago
-/
import FoxVpn.Lib.Run
import Mathlib.Logic.Function.Basic

namespace FoxVpn.App.FoxAd

open FoxVpn.Lib

/-! ## §1. The presenters. -/

/-- `placeKey`: ONP_KEY, IVCNT_KEY, IVBACKSV_KEY, IVBACKRST_KEY. -/
inductive Place where
  | onp
  | ivcnt
  | ivbacksv
  | ivbackrst
  deriving Repr, DecidableEq

/-- One of the eight presenters of `FoxAdManager`: `onp`, `onp1`, … -/
structure Slot where
  place : Place
  connected : Bool
  deriving Repr, DecidableEq

/-- The fields of a `FoxAdPresenter` that change; ads are numbered in the
order the library delivers them. -/
structure Presenter where
  id : String := ""
  ading : Bool := false
  ad : Option Nat := none
  loadSys : Int := 0
  loadHost : String := ""
  deriving Repr, DecidableEq

/-- A `load` the library has not answered; its callback holds `host`, and
`again` if a failure is to be followed by `foxLoadOpen(false)`. -/
structure LoadRequest where
  slot : Slot
  host : String
  again : Bool
  deriving Repr, DecidableEq

/-- What is true of an ad object: who asked for it, under which host, and
when it came. -/
structure Loaded where
  slot : Slot
  host : String
  loadedAt : Int
  deriving Repr, DecidableEq

/-- A `show` the library still reports on. -/
structure Display where
  ad : Nat
  showed : Bool
  deriving Repr, DecidableEq

structure World where
  /-- `System.currentTimeMillis()`. -/
  now : Int := 0
  /-- `Core.state.canStop`. -/
  canStop : Bool := false
  /-- `ProfileManager.getProfile(DataStore.profileId)?.host`. -/
  profileHost : Option String := none
  togging : String := ""
  rria : String := "1"
  presenters : Slot → Presenter := fun _ => {}
  requests : List LoadRequest := []
  ads : List Loaded := []
  /-- `fullScreenContentCallback` of an ad: its presenter and the number of
  the `foxShow` whose `dismiss` it holds. -/
  callback : Nat → Option (Slot × Nat) := fun _ => none
  displays : List Display := []
  /-- Calls of `foxShow` so far. -/
  shows : Nat := 0
  /-- How often the `dismiss` of each `foxShow` has been invoked. -/
  dismissed : Nat → Nat := fun _ => 0
  /-- Calls of `AppOpenAd.load` and `InterstitialAd.load` so far. -/
  loads : Nat := 0

namespace World

def setPresenter (w : World) (slot : Slot) (p : Presenter) : World :=
  { w with presenters := Function.update w.presenters slot p }

def dismiss (w : World) (k : Nat) : World :=
  { w with dismissed := Function.update w.dismissed k (w.dismissed k + 1) }

def getFoxHost (w : World) : String :=
  if w.canStop then w.profileHost.getD "" else "fox_not_on"

def foxAdEnable (w : World) (slot : Slot) : Bool :=
  (w.presenters slot).ad.isSome && w.now - (w.presenters slot).loadSys < 60 * 60000
    && (w.presenters slot).loadHost == w.getFoxHost

def foxAdPb (w : World) (slot : Slot) : Bool :=
  w.togging != "dairylea" && w.rria == "1"
    && [Place.ivcnt, Place.ivbacksv, Place.ivbackrst].any (· == slot.place)

def foxLoadEnable (w : World) (slot : Slot) : Bool :=
  !w.foxAdPb slot && !(w.presenters slot).ading && (w.presenters slot).id != ""
    && !w.foxAdEnable slot

def foxShowEnable (w : World) (slot : Slot) (baseFoxVisible : Bool) : Bool :=
  !w.foxAdPb slot && w.foxAdEnable slot && baseFoxVisible

/-- What `foxLoadOpen` and `foxLoadInter` share; they differ in what their
callback does after a failure. -/
def request (w : World) (slot : Slot) (again : Bool) : World :=
  if w.foxLoadEnable slot then
    { w.setPresenter slot { w.presenters slot with ading := true } with
      requests := ⟨slot, w.getFoxHost, again⟩ :: w.requests
      loads := w.loads + 1 }
  else w

def foxLoadOpen (w : World) (slot : Slot) (again : Bool) : World := w.request slot again

def foxLoadInter (w : World) (slot : Slot) : World := w.request slot false

/-- `String.foxLoad()`: the presenter for the present state of the VPN. -/
def foxLoad (w : World) : Place → World
  | .onp => w.foxLoadOpen ⟨.onp, w.canStop⟩ true
  | place => w.foxLoadInter ⟨place, w.canStop⟩

/-- `onAdLoaded` of the callback `r`. -/
def onAdLoaded (w : World) (r : LoadRequest) : World :=
  { w.setPresenter r.slot { w.presenters r.slot with
      ad := some w.ads.length, loadHost := r.host, loadSys := w.now, ading := false } with
    requests := w.requests.erase r
    ads := w.ads ++ [⟨r.slot, r.host, w.now⟩] }

/-- `onAdFailedToLoad` of the callback `r`. -/
def onAdFailedToLoad (w : World) (r : LoadRequest) : World :=
  let w := { w.setPresenter r.slot { w.presenters r.slot with ading := false } with
    requests := w.requests.erase r }
  if r.again then w.foxLoadOpen r.slot false else w

/-- `foxShowOpInt` of one presenter, as call number `w.shows`. -/
def foxShowOpInt (w : World) (slot : Slot) (baseFoxVisible : Bool) : World :=
  let k := w.shows
  let w := { w with shows := w.shows + 1 }
  if w.foxShowEnable slot baseFoxVisible then
    match (w.presenters slot).ad with
    | some a =>
        { w with
          callback := Function.update w.callback a (some (slot, k))
          displays := ⟨a, false⟩ :: w.displays }
    | none => w
  else w.dismiss k

def foxShow (w : World) (place : Place) (baseFoxVisible : Bool) : World :=
  w.foxShowOpInt ⟨place, w.canStop⟩ baseFoxVisible

/-- `ad = null` in the presenter the callback of `a` belongs to. -/
def forget (w : World) (a : Nat) : World :=
  match w.callback a with
  | some (slot, _) => w.setPresenter slot { w.presenters slot with ad := none }
  | none => w

/-- `dismiss.invoke()` of the callback of `a`. -/
def invokeDismiss (w : World) (a : Nat) : World :=
  match w.callback a with
  | some (_, k) => w.dismiss k
  | none => w

end World

/-! ## §2. The steps. -/

inductive Label where
  /-- The clock, the VPN and the stored settings are what they are now. -/
  | environment (now : Int) (canStop : Bool) (profileHost : Option String) (togging rria : String)
  | updateFoxId (slot : Slot) (id : String)
  | foxLoad (place : Place)
  | onAdLoaded (r : LoadRequest)
  | onAdFailedToLoad (r : LoadRequest)
  | foxShow (place : Place) (baseFoxVisible : Bool)
  | onAdShowedFullScreenContent (ad : Nat)
  | onAdDismissedFullScreenContent (ad : Nat)
  | onAdFailedToShowFullScreenContent (ad : Nat)
  deriving Repr, DecidableEq

/-- The library answers each request once, and reports each display either
as failed or as showed and later dismissed. -/
def step (w : World) : Label → Option World
  | .environment now canStop profileHost togging rria =>
      some { w with
        now := now, canStop := canStop, profileHost := profileHost
        togging := togging, rria := rria }
  | .updateFoxId slot id => some (w.setPresenter slot { w.presenters slot with id := id })
  | .foxLoad place => some (w.foxLoad place)
  | .onAdLoaded r => if r ∈ w.requests then some (w.onAdLoaded r) else none
  | .onAdFailedToLoad r => if r ∈ w.requests then some (w.onAdFailedToLoad r) else none
  | .foxShow place visible => some (w.foxShow place visible)
  | .onAdShowedFullScreenContent a =>
      if ⟨a, false⟩ ∈ w.displays then
        some { w.forget a with displays := ⟨a, true⟩ :: w.displays.erase ⟨a, false⟩ }
      else none
  | .onAdDismissedFullScreenContent a =>
      if ⟨a, true⟩ ∈ w.displays then
        some { w.invokeDismiss a with displays := w.displays.erase ⟨a, true⟩ }
      else none
  | .onAdFailedToShowFullScreenContent a =>
      if ⟨a, false⟩ ∈ w.displays then
        some { (w.forget a).invokeDismiss a with displays := w.displays.erase ⟨a, false⟩ }
      else none

/-- The state once the ad `a` of `slot` is handed to `show`. -/
def World.display (w : World) (slot : Slot) (a : Nat) : World :=
  { w with
    shows := w.shows + 1
    callback := Function.update w.callback a (some (slot, w.shows))
    displays := ⟨a, false⟩ :: w.displays }

/-- The two ways a `foxShow` goes: an enabled presenter has an ad. -/
theorem foxShow_cases (w : World) (place : Place) (visible : Bool) :
    (∃ a, w.foxShowEnable ⟨place, w.canStop⟩ visible = true
        ∧ (w.presenters ⟨place, w.canStop⟩).ad = some a
        ∧ w.foxShow place visible = w.display ⟨place, w.canStop⟩ a)
      ∨ (w.foxShowEnable ⟨place, w.canStop⟩ visible = false
        ∧ w.foxShow place visible = World.dismiss { w with shows := w.shows + 1 } w.shows) := by
  cases henable : w.foxShowEnable ⟨place, w.canStop⟩ visible with
  | false =>
      refine .inr ⟨rfl, ?_⟩
      show (if w.foxShowEnable ⟨place, w.canStop⟩ visible = true then _ else _) = _
      rw [henable]
      rfl
  | true =>
      have hable := henable
      unfold World.foxShowEnable World.foxAdEnable at hable
      simp only [Bool.and_eq_true] at hable
      obtain ⟨a, ha⟩ := Option.isSome_iff_exists.mp hable.1.2.1.1
      refine .inl ⟨a, rfl, ha, ?_⟩
      show (if w.foxShowEnable ⟨place, w.canStop⟩ visible = true then _ else _) = _
      rw [if_pos henable]
      simp only [ha]
      rfl

/-! ## §3. One request per presenter. -/

/-- The requests of a presenter the library has not answered. -/
def World.outstanding (w : World) (slot : Slot) : Nat :=
  w.requests.countP fun r => r.slot == slot

structure Sound (w : World) : Prop where
  outstanding : ∀ slot, w.outstanding slot = if (w.presenters slot).ading then 1 else 0
  /-- A stored ad is the presenter's own, with its host and its time. -/
  stored : ∀ slot a, (w.presenters slot).ad = some a →
    w.ads[a]? = some ⟨slot, (w.presenters slot).loadHost, (w.presenters slot).loadSys⟩

theorem sound_init : Sound {} where
  outstanding _ := rfl
  stored _ _ h := by cases h

@[simp] theorem setPresenter_presenters (w : World) (slot slot' : Slot) (p : Presenter) :
    (w.setPresenter slot p).presenters slot'
      = if slot' = slot then p else w.presenters slot' := by
  show Function.update w.presenters slot p slot' = _
  rw [Function.update_apply]

/-- Soundness looks at the presenters, the requests and the ads only. -/
theorem Sound.congr {w w' : World} (h : Sound w) (hp : w'.presenters = w.presenters)
    (hr : w'.requests = w.requests) (ha : w'.ads = w.ads) : Sound w' where
  outstanding slot := by
    unfold World.outstanding
    rw [hp, hr]
    exact h.outstanding slot
  stored slot a := by
    rw [hp, ha]
    exact h.stored slot a

/-- A presenter changes neither its flag nor the record of a stored ad. -/
theorem Sound.setPresenter {w : World} (h : Sound w) (slot : Slot) (p : Presenter)
    (hading : p.ading = (w.presenters slot).ading)
    (hstored : ∀ a, p.ad = some a → w.ads[a]? = some ⟨slot, p.loadHost, p.loadSys⟩) :
    Sound (w.setPresenter slot p) where
  outstanding slot' := by
    show w.outstanding slot' = _
    rw [h.outstanding, setPresenter_presenters]
    by_cases heq : slot' = slot
    · rw [if_pos heq, heq, hading]
    · rw [if_neg heq]
  stored slot' a := by
    rw [setPresenter_presenters]
    split
    next heq => rw [heq]; exact hstored a
    next => exact h.stored slot' a

/-- A request goes out of a presenter that has none out. -/
theorem Sound.request {w : World} (h : Sound w) (slot : Slot) (again : Bool) :
    Sound (w.request slot again) := by
  unfold World.request
  split
  next henable =>
    have hading : (w.presenters slot).ading = false := by
      unfold World.foxLoadEnable at henable
      simp only [Bool.and_eq_true, Bool.not_eq_true'] at henable
      exact henable.1.1.2
    refine ⟨?_, ?_⟩
    · intro slot'
      show (LoadRequest.mk slot w.getFoxHost again :: w.requests).countP _
        = if ((w.setPresenter slot _).presenters slot').ading then 1 else 0
      rw [List.countP_cons, setPresenter_presenters]
      have hout := h.outstanding slot'
      unfold World.outstanding at hout
      rw [hout]
      by_cases heq : slot' = slot
      · subst heq
        rw [hading]
        simp
      · rw [if_neg heq, if_neg (show ¬ ((slot == slot') = true) by simpa using Ne.symm heq),
          Nat.add_zero]
    · intro slot' a
      show ((w.setPresenter slot _).presenters slot').ad = some a → w.ads[a]? = some _
      rw [setPresenter_presenters]
      split
      next heq => rw [heq]; exact h.stored slot a
      next => exact h.stored slot' a
  next => exact h

/-- What one occurrence contributes to a count. -/
theorem countP_erase_add {α : Type} [DecidableEq α] {l : List α} {x : α} (hx : x ∈ l)
    (p : α → Bool) : l.countP p = (l.erase x).countP p + if p x then 1 else 0 := by
  rw [(List.perm_cons_erase hx).countP_eq p, List.countP_cons]

/-- An answered request leaves its presenter with none. -/
theorem Sound.erase {w : World} (h : Sound w) {r : LoadRequest} (hr : r ∈ w.requests)
    (slot : Slot) :
    (w.requests.erase r).countP (fun r => r.slot == slot)
      = if slot = r.slot then 0 else w.outstanding slot := by
  have hout := h.outstanding slot
  unfold World.outstanding at hout ⊢
  have hcount := countP_erase_add hr fun r => r.slot == slot
  by_cases heq : slot = r.slot
  · rw [if_pos (by simpa using heq.symm)] at hcount
    rw [if_pos heq]
    split at hout
    · omega
    · omega
  · rw [if_neg (by simpa using Ne.symm heq)] at hcount
    rw [if_neg heq]
    omega

/-- **Every step keeps it.** -/
theorem sound_step (w : World) (a : Label) (w' : World) (h : step w a = some w')
    (hs : Sound w) : Sound w' := by
  have hforget : ∀ a, Sound (w.forget a) := by
    intro a
    unfold World.forget
    split
    next slot _ _ => exact hs.setPresenter slot _ rfl (fun _ h => by cases h)
    next => exact hs
  cases a with
  | environment =>
      injection h with h
      subst h
      exact hs.congr rfl rfl rfl
  | updateFoxId slot id =>
      injection h with h
      subst h
      exact hs.setPresenter slot _ rfl (hs.stored slot)
  | foxLoad place =>
      injection h with h
      subst h
      cases place with
      | onp => exact hs.request _ true
      | ivcnt | ivbacksv | ivbackrst => exact hs.request _ false
  | onAdLoaded r =>
      obtain ⟨hr, rfl⟩ := of_enabled h
      refine ⟨?_, ?_⟩
      · intro slot
        show (w.requests.erase r).countP _
          = if ((w.setPresenter r.slot _).presenters slot).ading then 1 else 0
        rw [hs.erase hr, setPresenter_presenters]
        split
        next => rfl
        next => exact hs.outstanding slot
      · intro slot a
        show ((w.setPresenter r.slot _).presenters slot).ad = some a
          → (w.ads ++ [⟨r.slot, r.host, w.now⟩])[a]? = some ⟨slot,
            ((w.setPresenter r.slot _).presenters slot).loadHost,
            ((w.setPresenter r.slot _).presenters slot).loadSys⟩
        rw [setPresenter_presenters]
        split
        next heq =>
          rintro ⟨⟩
          rw [heq]
          exact List.getElem?_concat_length
        next =>
          intro ha
          have hold := hs.stored slot a ha
          have hlt := (List.getElem?_eq_some_iff.mp hold).1
          rw [List.getElem?_append_left hlt]
          exact hold
  | onAdFailedToLoad r =>
      obtain ⟨hr, rfl⟩ := of_enabled h
      have hanswered : Sound { w.setPresenter r.slot { w.presenters r.slot with ading := false }
          with requests := w.requests.erase r } := by
        refine ⟨?_, ?_⟩
        · intro slot
          show (w.requests.erase r).countP _
            = if ((w.setPresenter r.slot _).presenters slot).ading then 1 else 0
          rw [hs.erase hr, setPresenter_presenters]
          split
          next => rfl
          next => exact hs.outstanding slot
        · intro slot a
          show ((w.setPresenter r.slot _).presenters slot).ad = some a → w.ads[a]? = some ⟨slot,
            ((w.setPresenter r.slot _).presenters slot).loadHost,
            ((w.setPresenter r.slot _).presenters slot).loadSys⟩
          rw [setPresenter_presenters]
          split
          next heq => rw [heq]; exact hs.stored r.slot a
          next => exact hs.stored slot a
      show Sound (if r.again then _ else _)
      split
      · exact hanswered.request r.slot false
      · exact hanswered
  | foxShow place visible =>
      injection h with h
      subst h
      rcases foxShow_cases w place visible with ⟨a, _, _, heq⟩ | ⟨_, heq⟩
      · rw [heq]; exact hs.congr rfl rfl rfl
      · rw [heq]; exact hs.congr rfl rfl rfl
  | onAdShowedFullScreenContent a =>
      obtain ⟨_, rfl⟩ := of_enabled h
      exact (hforget a).congr rfl rfl rfl
  | onAdDismissedFullScreenContent a =>
      obtain ⟨_, rfl⟩ := of_enabled h
      unfold World.invokeDismiss
      split
      · exact hs.congr rfl rfl rfl
      · exact hs.congr rfl rfl rfl
  | onAdFailedToShowFullScreenContent a =>
      obtain ⟨_, rfl⟩ := of_enabled h
      unfold World.invokeDismiss
      split
      · exact (hforget a).congr rfl rfl rfl
      · exact (hforget a).congr rfl rfl rfl

/-! ## §4. Retries are bounded. -/

/-- The library calls a label may cause in all: an open ad is requested once
more if the first request fails. -/
def Label.budget : Label → Nat
  | .foxLoad .onp => 2
  | .foxLoad _ => 1
  | _ => 0

/-- The budget of a run. -/
def budget : List Label → Nat
  | [] => 0
  | a :: as => a.budget + budget as

/-- The calls made, and those the callbacks outside may still make. -/
def World.committed (w : World) : Nat := w.loads + w.requests.countP (·.again)

theorem committed_request_le (w : World) (slot : Slot) (again : Bool) :
    (w.request slot again).committed ≤ w.committed + 1 + if again then 1 else 0 := by
  unfold World.request World.committed
  split
  · show w.loads + 1 + (LoadRequest.mk slot w.getFoxHost again :: w.requests).countP _ ≤ _
    rw [List.countP_cons]
    show w.loads + 1 + (_ + if again = true then 1 else 0) ≤ _
    omega
  · omega

/-- One step spends its budget at most: a retry is paid for by the request
that failed. -/
theorem committed_step_le {w w' : World} {a : Label} (h : step w a = some w') :
    w'.committed ≤ w.committed + a.budget := by
  have hforget : ∀ a, (w.forget a).committed = w.committed := by
    intro a
    unfold World.forget
    split
    · rfl
    · rfl
  have hinvoke : ∀ (v : World) a, (v.invokeDismiss a).committed = v.committed := by
    intro v a
    unfold World.invokeDismiss
    split
    · rfl
    · rfl
  cases a with
  | environment | updateFoxId =>
      injection h with h
      subst h
      exact Nat.le_refl _
  | foxLoad place =>
      injection h with h
      subst h
      cases place with
      | onp => exact committed_request_le w _ true
      | ivcnt | ivbacksv | ivbackrst => exact committed_request_le w _ false
  | onAdLoaded r =>
      obtain ⟨hr, rfl⟩ := of_enabled h
      show w.loads + (w.requests.erase r).countP (·.again)
        ≤ w.loads + w.requests.countP (·.again) + 0
      have hcount := countP_erase_add hr (·.again)
      omega
  | onAdFailedToLoad r =>
      obtain ⟨hr, rfl⟩ := of_enabled h
      have hcount := countP_erase_add hr (·.again)
      show World.committed (if r.again then _ else _) ≤ w.committed + 0
      by_cases hagain : r.again = true
      · rw [if_pos hagain]
        refine Nat.le_trans (committed_request_le _ r.slot false) ?_
        show w.loads + (w.requests.erase r).countP (·.again) + 1 + 0
          ≤ w.loads + w.requests.countP (·.again) + 0
        rw [if_pos hagain] at hcount
        omega
      · rw [if_neg hagain]
        show w.loads + (w.requests.erase r).countP (·.again)
          ≤ w.loads + w.requests.countP (·.again) + 0
        omega
  | foxShow place visible =>
      injection h with h
      subst h
      rcases foxShow_cases w place visible with ⟨a, _, _, heq⟩ | ⟨_, heq⟩
      · rw [heq]; exact Nat.le_refl _
      · rw [heq]; exact Nat.le_refl _
  | onAdShowedFullScreenContent a =>
      obtain ⟨_, rfl⟩ := of_enabled h
      exact Nat.le_of_eq (hforget a)
  | onAdDismissedFullScreenContent a =>
      obtain ⟨_, rfl⟩ := of_enabled h
      exact Nat.le_of_eq (hinvoke w a)
  | onAdFailedToShowFullScreenContent a =>
      obtain ⟨_, rfl⟩ := of_enabled h
      exact Nat.le_of_eq ((hinvoke _ a).trans (hforget a))

theorem committed_exec_le : ∀ (as : List Label) (w w' : World), exec step w as = some w' →
    w'.committed ≤ w.committed + budget as
  | [], w, w', h => by
      injection h with h
      subst h
      exact Nat.le_refl _
  | a :: as, w, w', h => by
      obtain ⟨w₁, ha, hrest⟩ := exec_cons.mp h
      have hstep := committed_step_le ha
      have hrun := committed_exec_le as w₁ w' hrest
      show w'.committed ≤ w.committed + (a.budget + budget as)
      omega

/-- An open ad fails to load twice while an interstitial is on its way. -/
def retriedRun : List Label :=
  [.updateFoxId ⟨.onp, false⟩ "open", .updateFoxId ⟨.ivcnt, false⟩ "inter",
   .environment 5 false none "dairylea" "1", .foxLoad .onp, .foxLoad .ivcnt, .foxLoad .onp,
   .onAdFailedToLoad ⟨⟨.onp, false⟩, "fox_not_on", true⟩,
   .onAdFailedToLoad ⟨⟨.onp, false⟩, "fox_not_on", false⟩]

/-- **THE FRESHNESS THEOREM**: in any reachable state, a `foxShow` that puts an
ad on the screen puts up one that was requested by the presenter for the
present state of the VPN, under the host in use right now, and loaded less
than an hour ago; the place is not blocked and the activity is visible. -/
theorem shown_ad_current (as : List Label) (w w' : World) (place : Place) (visible : Bool)
    (hrun : exec step {} as = some w) (hshow : step w (.foxShow place visible) = some w')
    (hdisplayed : w'.displays ≠ w.displays) :
    ∃ a, w'.displays = ⟨a, false⟩ :: w.displays
      ∧ (∃ loadedAt, w.ads[a]? = some ⟨⟨place, w.canStop⟩, w.getFoxHost, loadedAt⟩
        ∧ w.now - loadedAt < 60 * 60000)
      ∧ visible = true ∧ w.foxAdPb ⟨place, w.canStop⟩ = false := by
  have hsound := exec_invariant_all sound_step as {} w sound_init hrun
  injection hshow with hshow
  subst hshow
  rcases foxShow_cases w place visible with ⟨a, henable, ha, heq⟩ | ⟨_, heq⟩
  · unfold World.foxShowEnable World.foxAdEnable at henable
    simp only [Bool.and_eq_true, Bool.not_eq_true', decide_eq_true_eq, beq_iff_eq] at henable
    obtain ⟨⟨hpb, ⟨⟨_, hnow⟩, hhost⟩⟩, hvisible⟩ := henable
    have hstored := hsound.stored _ a ha
    rw [hhost] at hstored
    refine ⟨a, ?_, ⟨_, hstored, hnow⟩, hvisible, hpb⟩
    rw [heq]
    rfl
  · rw [heq] at hdisplayed
    exact absurd rfl hdisplayed

/-- An ad loaded under one server is shown while that server is in use. -/
def shownRun : List Label :=
  [.environment 1000 true (some "1.2.3.4") "dairylea" "1", .updateFoxId ⟨.ivcnt, true⟩ "inter",
   .foxLoad .ivcnt, .onAdLoaded ⟨⟨.ivcnt, true⟩, "1.2.3.4", false⟩,
   .environment 3600999 true (some "1.2.3.4") "dairylea" "1"]

theorem shown_ad_current_shownRun :
    ∃ w w', exec step {} shownRun = some w ∧ step w (.foxShow .ivcnt true) = some w'
      ∧ ∃ a, w'.displays = ⟨a, false⟩ :: w.displays := by
  obtain ⟨w, hrun, htest⟩ := exists_of_exec_test step {} shownRun
    (fun w => w.displays == [] && (w.foxShow .ivcnt true).displays == [⟨0, false⟩]) (by decide)
  simp only [Bool.and_eq_true, beq_iff_eq] at htest
  refine ⟨w, w.foxShow .ivcnt true, hrun, rfl, ?_⟩
  obtain ⟨a, ha, _⟩ := shown_ad_current shownRun w _ .ivcnt true hrun rfl
    (by rw [htest.1, htest.2]; simp)
  exact ⟨a, ha⟩

end FoxVpn.App.FoxAd
