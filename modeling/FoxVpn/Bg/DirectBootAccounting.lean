/-
  FoxVpn.Bg.DirectBootAccounting
  ──────────────────────────────
  **ACCOUNTING BEFORE THE FIRST UNLOCK.**

  While the database cannot be opened the profiles are read from the device
  file, a PAIR of the main profile and its fallback, and `persistStats`
  writes its totals there.  It hands ONE profile to `DirectBoot.update`,
  which rebuilds the pair by looking the fallback up in the database:

      no fallback           the pair is the profile alone, and is kept
      the main profile      the look-up throws, the file is already truncated
      the fallback          it becomes the main profile of the file

  Main result `accounted_iff`: the device file keeps its profiles over every
  call, and the rows have grown by what every session has counted after the
  flush, exactly if the main profile names no fallback (or there was no
  session).
-/
import FoxVpn.Bg.TrafficMonitor

namespace FoxVpn.Bg

open FoxVpn.Database

/-! ## §1. Sessions before the unlock. -/

/-- What a session leaves: the monitors of the two profiles, and which of
them is persisted first. -/
structure LockedSession where
  main : TrafficMonitor
  fallback : TrafficMonitor
  main_wf : main.WF
  fallback_wf : fallback.WF
  fallbackFirst : Bool

/-- A `persistStats` call: the profile and the monitor. -/
abbrev PersistCall := Long × TrafficMonitor

namespace LockedSession

/-- The calls at the end of the session. -/
def calls (s : LockedSession) (e : ExpandedProfile) : List PersistCall :=
  match e.udpFallback with
  | none => [(e.main.id, s.main)]
  | some f =>
      if s.fallbackFirst then [(f.id, s.fallback), (e.main.id, s.main)]
      else [(e.main.id, s.main), (f.id, s.fallback)]

/-- The storage a call leaves, whether it throws or not. -/
def persist (st : Storage) (c : PersistCall) : Storage := (c.2.persistStats c.1 st).2.1

def persistAll (st : Storage) (cs : List PersistCall) : Storage := cs.foldl persist st

/-- The profile of the call, grown by the totals and marked dirty. -/
def grown (c : PersistCall) (p : Profile) : Profile :=
  if p.id = c.1 then
    { p with tx := p.tx + c.2.totals.1, rx := p.rx + c.2.totals.2, dirty := true }
  else p

def grownPair (c : PersistCall) (e : ExpandedProfile) : ExpandedProfile :=
  ⟨grown c e.main, e.udpFallback.map (grown c)⟩

/-- After each call the device file holds the pair it held before, with the
profile of the call grown. -/
def KeepsPair : Storage → ExpandedProfile → List PersistCall → Prop
  | _, _, [] => True
  | st, e, c :: cs =>
      (persist st c).device = some (grownPair c e)
        ∧ KeepsPair (persist st c) (grownPair c e) cs

/-- What the calls have counted for the profile `id`. -/
def counted (id : Long) (cs : List PersistCall) : Long × Long :=
  ((cs.filter fun c => c.1 = id).map fun c => c.2.totals).sum

/-- The device is unlocked and the totals are flushed. -/
def flushed (st : Storage) (cs : List PersistCall) : Storage × Option Fault :=
  DirectBoot.flushTrafficStats { persistAll st cs with available := true }

/-- **The accounting of the sessions**: the pair is kept, the flush succeeds
and brings the rows up to date, and a second one changes nothing. -/
structure Accounted (st : Storage) (e : ExpandedProfile) (cs : List PersistCall) : Prop where
  pair : KeepsPair st e cs
  succeeds : (flushed st cs).2 = none
  rows : ∀ p ∈ e.toList, ∃ q, (flushed st cs).1.db.get p.id = some q
    ∧ (q.tx, q.rx) = (p.tx, p.rx) + counted p.id cs
  again : DirectBoot.flushTrafficStats (flushed st cs).1 = ((flushed st cs).1, none)

/-- Direct boot: the database is closed, the device file holds the main
profile and its fallback as the rows are.  `dirty` is not a column. -/
structure Locked (st : Storage) (main : Profile) : Prop where
  closed : st.available = false
  aware : st.directBootAware = true
  row : st.db.get main.id = some main
  device : st.device = some ⟨main, main.udpFallback.bind st.db.get⟩
  clean : ∀ p ∈ st.db.profiles, p.dirty = false

/-! ## §2. One call on the closed database. -/

theorem expand_closed {st : Storage} (hc : st.available = false) (p : Profile) :
    expand st p = if p.udpFallback = none then .ok ⟨p, none⟩ else .error .io := by
  unfold expand
  cases hf : p.udpFallback with
  | none => rfl
  | some id =>
      rw [if_neg (by simp)]
      show (getProfile st id).map _ = _
      rw [getProfile_closed hc]
      rfl

theorem update_closed {st : Storage} (hc : st.available = false) (p : Profile) :
    (DirectBoot.update st (some p)).1
      = { st with device := if p.udpFallback = none then some ⟨p, none⟩ else none } := by
  simp only [DirectBoot.update, expand_closed hc]
  by_cases hf : p.udpFallback = none
  · rw [if_pos hf, if_pos hf]
  · rw [if_neg hf, if_neg hf]

/-- A call goes to the device file. -/
theorem persist_closed {st : Storage} (hc : st.available = false)
    (ha : st.directBootAware = true) {e : ExpandedProfile} (hd : st.device = some e)
    {c : PersistCall} (hm : c.2.WF) :
    persist st c = (match e.toList.filter (fun p : Profile => p.id = c.1) with
      | [p] => DirectBoot.update st (some { p with
          tx := p.tx + c.2.totals.1, rx := p.rx + c.2.totals.2, dirty := true })
      | _ => (st, some .noSuchElement)).1 := by
  have hget := getProfile_closed hc c.1
  unfold persist TrafficMonitor.persistStats
  rw [if_pos (TrafficMonitor.persistStats_never_rejects hm)]
  simp only [hget]
  unfold TrafficMonitor.persistDirectBoot
  rw [if_pos ha, hd]
  rfl

/-- The call finds its profile in the device file, and no other one. -/
theorem persist_single {st : Storage} (hc : st.available = false)
    (ha : st.directBootAware = true) {e : ExpandedProfile} (hd : st.device = some e)
    {c : PersistCall} (hm : c.2.WF) {p : Profile}
    (hp : e.toList.filter (fun p => p.id = c.1) = [p]) :
    persist st c
      = { st with device := if p.udpFallback = none then some ⟨grown c p, none⟩ else none } := by
  have hid : p.id = c.1 := by
    have hmem : p ∈ e.toList.filter fun p => p.id = c.1 := by
      rw [hp]
      exact List.mem_singleton.mpr rfl
    exact of_decide_eq_true (List.mem_filter.mp hmem).2
  rw [persist_closed hc ha hd hm, hp]
  show (DirectBoot.update st (some _)).1 = _
  rw [update_closed hc, grown, if_pos hid]

/-- `single` throws if both profiles have the key, and the file stays. -/
theorem persist_ambiguous {st : Storage} (hc : st.available = false)
    (ha : st.directBootAware = true) {e : ExpandedProfile} (hd : st.device = some e)
    {c : PersistCall} (hm : c.2.WF) {p q : Profile}
    (hp : e.toList.filter (fun p => p.id = c.1) = [p, q]) : persist st c = st := by
  rw [persist_closed hc ha hd hm, hp]

/-! ## §3. The flush. -/

/-- `DirectBoot.update()` with the database open: the pair of the rows. -/
def refreshed (st : Storage) : Storage :=
  { st with device := (st.db.get profileId).map fun p => ⟨p, p.udpFallback.bind st.db.get⟩ }

/-- A flush of profiles that are not dirty only refreshes the file. -/
theorem flushProfiles_clean (st : Storage) :
    ∀ ps : List Profile, (∀ p ∈ ps, p.dirty = false) → DirectBoot.flushProfiles st ps = (st, none)
  | [], _ => rfl
  | p :: ps, h => by
      have hp : p.dirty = false := h p List.mem_cons_self
      rw [DirectBoot.flushProfiles, if_neg (by rw [hp]; decide)]
      exact flushProfiles_clean st ps fun q hq => h q (List.mem_cons_of_mem _ hq)

theorem expand_open {st : Storage} (ho : st.available = true) (p : Profile) :
    expand st p = .ok ⟨p, p.udpFallback.bind st.db.get⟩ := by
  unfold expand
  cases hf : p.udpFallback with
  | none => rfl
  | some id =>
      show (getProfile st id).map _ = _
      rw [getProfile_open ho]
      rfl

theorem update_open {st : Storage} (ho : st.available = true) :
    DirectBoot.update st (st.db.get profileId) = (refreshed st, none) := by
  unfold refreshed
  cases hrow : st.db.get profileId with
  | none => rfl
  | some p =>
      simp only [DirectBoot.update, expand_open ho]
      rfl

theorem flush_spec {st st' : Storage} {ps : List Profile}
    (hf : DirectBoot.flushProfiles st ps = (st', none)) (ho : st'.available = true)
    (hps : (st.device.map ExpandedProfile.toList).getD [] = ps) :
    DirectBoot.flushTrafficStats st = (refreshed st', none) := by
  unfold DirectBoot.flushTrafficStats
  rw [hps, hf]
  dsimp only
  rw [getProfile_open ho]
  exact update_open ho

theorem get_mem {db : PrivateDatabase} {id : Long} {p : Profile} (h : db.get id = some p) :
    p ∈ db.profiles := List.mem_of_find?_eq_some h

/-- The refreshed file holds rows, so it is not dirty. -/
theorem refreshed_clean {st : Storage} (hclean : ∀ p ∈ st.db.profiles, p.dirty = false) :
    ∀ p ∈ ((refreshed st).device.map ExpandedProfile.toList).getD [], p.dirty = false := by
  intro p hp
  unfold refreshed at hp
  cases hrow : st.db.get profileId with
  | none =>
      rw [hrow] at hp
      exact absurd hp List.not_mem_nil
  | some r =>
      rw [hrow] at hp
      rcases List.mem_cons.mp hp with rfl | hp
      · exact hclean p (get_mem hrow)
      · have hfall : r.udpFallback.bind st.db.get = some p := Option.mem_toList.mp hp
        obtain ⟨id, _, hget⟩ := Option.bind_eq_some_iff.mp hfall
        exact hclean p (get_mem hget)

/-- **A second flush changes nothing.** -/
theorem flush_again {st : Storage} (ho : st.available = true)
    (hclean : ∀ p ∈ st.db.profiles, p.dirty = false) :
    DirectBoot.flushTrafficStats (refreshed st) = (refreshed st, none) := by
  have hflush := flushProfiles_clean (refreshed st) _ (refreshed_clean hclean)
  have hagain := flush_spec hflush ho rfl
  exact hagain

/-! ## §4. Without a fallback. -/

/-- The profile after a list of calls. -/
def grownAll (cs : List PersistCall) (p : Profile) : Profile := cs.foldl (fun p c => grown c p) p

theorem grown_frame (c : PersistCall) (p : Profile) :
    (grown c p).id = p.id ∧ (grown c p).udpFallback = p.udpFallback := by
  unfold grown
  split <;> exact ⟨rfl, rfl⟩

/-- Calls for the only profile of the file keep it, by induction on the
calls. -/
theorem keepsPair_alone :
    ∀ (cs : List PersistCall) (st : Storage) (p : Profile), (∀ c ∈ cs, c.1 = p.id ∧ c.2.WF) →
      st.available = false → st.directBootAware = true → st.device = some ⟨p, none⟩ →
      p.udpFallback = none →
      KeepsPair st ⟨p, none⟩ cs
        ∧ persistAll st cs = { st with device := some ⟨grownAll cs p, none⟩ }
  | [], st, p, _, _, _, hd, _ => ⟨trivial, by rw [show grownAll [] p = p from rfl, ← hd]; rfl⟩
  | c :: cs, st, p, hcs, hc, ha, hd, hf => by
      obtain ⟨hid, hwf⟩ := hcs c List.mem_cons_self
      have hone : (⟨p, none⟩ : ExpandedProfile).toList.filter (fun p => p.id = c.1) = [p] :=
        List.filter_cons_of_pos (decide_eq_true hid.symm)
      have hstep := persist_single hc ha hd hwf hone
      rw [if_pos hf] at hstep
      obtain ⟨hgid, hgf⟩ := grown_frame c p
      obtain ⟨hkeeps, hall⟩ := keepsPair_alone cs (persist st c) (grown c p)
        (fun c' hc' => by rw [hgid]; exact hcs c' (List.mem_cons_of_mem _ hc'))
        (by rw [hstep]; exact hc) (by rw [hstep]; exact ha) (by rw [hstep]) (by rw [hgf]; exact hf)
      refine ⟨⟨by rw [hstep]; rfl, hkeeps⟩, ?_⟩
      show persistAll (persist st c) cs = _
      rw [hall, hstep]
      rfl

theorem counted_cons (id : Long) (c : PersistCall) (cs : List PersistCall) :
    counted id (c :: cs) = (if c.1 = id then c.2.totals else 0) + counted id cs := by
  unfold counted
  by_cases hid : c.1 = id
  · rw [List.filter_cons, if_pos (decide_eq_true hid), if_pos hid]
    rfl
  · rw [List.filter_cons, if_neg (by simp [hid]), if_neg hid, zero_add]

/-- The profile has grown by what the calls have counted for it, and is
dirty as soon as there was one. -/
theorem grownAll_spec : ∀ (cs : List PersistCall) (p : Profile), (∀ c ∈ cs, c.1 = p.id) →
    (grownAll cs p).id = p.id
      ∧ ((grownAll cs p).tx, (grownAll cs p).rx) = (p.tx, p.rx) + counted p.id cs
      ∧ (cs ≠ [] → (grownAll cs p).dirty = true)
  | [], p, _ => ⟨rfl, (add_zero _).symm, fun h => absurd rfl h⟩
  | c :: cs, p, hcs => by
      have hid : p.id = c.1 := (hcs c List.mem_cons_self).symm
      have hgid := (grown_frame c p).1
      obtain ⟨h1, h2, h3⟩ := grownAll_spec cs (grown c p) fun c' hc' => by
        rw [hgid]
        exact hcs c' (List.mem_cons_of_mem _ hc')
      have hg : ((grown c p).tx, (grown c p).rx) = (p.tx, p.rx) + c.2.totals := by
        unfold grown
        rw [if_pos hid]
        rfl
      refine ⟨h1.trans hgid, ?_, fun _ => ?_⟩
      · show ((grownAll cs (grown c p)).tx, (grownAll cs (grown c p)).rx) = _
        rw [h2, hg, hgid, counted_cons, if_pos hid.symm, add_assoc]
      · show (grownAll cs (grown c p)).dirty = true
        cases cs with
        | nil =>
            show (grown c p).dirty = true
            unfold grown
            rw [if_pos hid]
        | cons c' cs => exact h3 (by simp)

/-- An update leaves rows that are not dirty. -/
theorem update_rows_clean {db : PrivateDatabase} (h : ∀ p ∈ db.profiles, p.dirty = false)
    (q : Profile) : ∀ p ∈ (db.update q).profiles, p.dirty = false := by
  intro p hp
  obtain ⟨r, hr, rfl⟩ := List.mem_map.mp hp
  split
  next => rfl
  next => exact h r hr

/-- No session: the flush only refreshes the file. -/
theorem accounted_nil {st : Storage} {main : Profile} (h : Locked st main) :
    Accounted st ⟨main, main.udpFallback.bind st.db.get⟩ [] := by
  have hclean : ∀ p ∈ (⟨main, main.udpFallback.bind st.db.get⟩ : ExpandedProfile).toList,
      p.dirty = false ∧ st.db.get p.id = some p := by
    intro p hp
    rcases List.mem_cons.mp hp with rfl | hp
    · exact ⟨h.clean _ (get_mem h.row), h.row⟩
    · obtain ⟨id, _, hget⟩ := Option.bind_eq_some_iff.mp (Option.mem_toList.mp hp)
      refine ⟨h.clean p (get_mem hget), ?_⟩
      rw [PrivateDatabase.get_id hget]
      exact hget
  have hflushed : flushed st [] = (refreshed { st with available := true }, none) := by
    refine flush_spec
      (flushProfiles_clean { st with available := true } _ fun p hp => (hclean p hp).1) rfl ?_
    show (st.device.map ExpandedProfile.toList).getD [] = _
    rw [h.device]
    rfl
  exact {
    pair := trivial
    succeeds := by rw [hflushed]
    rows := fun p hp => ⟨p, by rw [hflushed]; exact (hclean p hp).2, (add_zero _).symm⟩
    again := by
      rw [hflushed]
      exact flush_again rfl h.clean }

/-- Without a fallback every call and the flush keep the books. -/
theorem accounted_alone {st : Storage} {main : Profile} (h : Locked st main)
    (hf : main.udpFallback = none) {cs : List PersistCall} (hne : cs ≠ [])
    (hcs : ∀ c ∈ cs, c.1 = main.id ∧ c.2.WF) : Accounted st ⟨main, none⟩ cs := by
  have hd : st.device = some ⟨main, none⟩ := by
    rw [h.device, hf]
    rfl
  obtain ⟨hkeeps, hall⟩ := keepsPair_alone cs st main hcs h.closed h.aware hd hf
  obtain ⟨hid, hgrown, hdirty⟩ := grownAll_spec cs main fun c hc => (hcs c hc).1
  -- the dirty profile of the file is written over its row
  let q := grownAll cs main
  let st₁ : Storage := { persistAll st cs with available := true }
  have hst₁ : st₁ = { st with available := true, device := some ⟨q, none⟩ } := by
    show ({ persistAll st cs with available := true } : Storage) = _
    rw [hall]
  have hrow : (st.db.get q.id).isSome = true := by
    rw [hid, h.row]
    rfl
  have hflushed : flushed st cs
      = (refreshed { st₁ with db := st.db.update q }, none) := by
    have hwritten : DirectBoot.flushProfiles st₁ [q]
        = ({ st₁ with db := st.db.update q }, none) := by
      have hpresent : (st₁.db.get q.id).isSome = true := by
        rw [hst₁]
        exact hrow
      rw [DirectBoot.flushProfiles, if_pos (hdirty hne), updateProfile_present rfl hpresent, hst₁]
      rfl
    refine flush_spec hwritten rfl ?_
    show (st₁.device.map ExpandedProfile.toList).getD [] = [q]
    rw [hst₁]
    rfl
  exact {
    pair := hkeeps
    succeeds := by rw [hflushed]
    rows := fun p hp => by
      obtain rfl : p = main := List.mem_singleton.mp hp
      refine ⟨q.toRow, ?_, hgrown⟩
      rw [hflushed]
      show (st.db.update q).get p.id = some q.toRow
      rw [← hid]
      exact PrivateDatabase.get_update_same st.db q hrow
    again := by
      rw [hflushed]
      exact flush_again rfl (update_rows_clean h.clean q) }

/-! ## §5. With a fallback. -/

/-- A profile that is its own fallback: `single` finds it twice, and nothing
is written. -/
theorem not_kept_of_own_fallback {st : Storage} {main : Profile} (h : Locked st main)
    (hd : st.device = some ⟨main, some main⟩) {c : PersistCall} (hid : c.1 = main.id)
    (hwf : c.2.WF) : (persist st c).device ≠ some (grownPair c ⟨main, some main⟩) := by
  have htwo : (⟨main, some main⟩ : ExpandedProfile).toList.filter (fun p => p.id = c.1)
      = [main, main] := by
    simp [ExpandedProfile.toList, hid]
  rw [persist_ambiguous h.closed h.aware hd hwf htwo, hd]
  intro he
  have hmain : main = grown c main := congrArg ExpandedProfile.main (Option.some.inj he)
  have hdirty : main.dirty = true := by
    rw [hmain, grown, if_pos hid.symm]
  rw [h.clean main (get_mem h.row)] at hdirty
  exact absurd hdirty Bool.false_ne_true

/-- The first call loses a profile, whichever it is for. -/
theorem not_kept_of_fallback {st : Storage} {main : Profile} (h : Locked st main) {id : Long}
    (hf : main.udpFallback = some id) {s : LockedSession} {c : PersistCall}
    {cs : List PersistCall}
    (hcs : s.calls ⟨main, main.udpFallback.bind st.db.get⟩ = c :: cs) :
    (persist st c).device ≠ some (grownPair c ⟨main, main.udpFallback.bind st.db.get⟩) := by
  have hne : main.udpFallback ≠ none := by rw [hf]; simp
  have hd := h.device
  rw [show main.udpFallback.bind st.db.get = st.db.get id by rw [hf]; rfl] at hcs hd ⊢
  -- a call for the main profile alone truncates the file
  have hmain : ∀ {m : TrafficMonitor} {e : ExpandedProfile}, m.WF → st.device = some e →
      e.toList.filter (fun p => p.id = main.id) = [main] →
      (persist st (main.id, m)).device = none := by
    intro m e hm he hone
    rw [persist_single h.closed h.aware he (c := (main.id, m)) hm hone, if_neg hne]
  cases hrow : st.db.get id with
  | none =>
      rw [hrow] at hcs hd
      obtain rfl : (main.id, s.main) = c := (List.cons_eq_cons.mp hcs).1
      rw [hmain s.main_wf hd (List.filter_cons_of_pos (decide_eq_true rfl))]
      simp
  | some f =>
      rw [hrow] at hcs hd
      have hfid := PrivateDatabase.get_id hrow
      by_cases hid : f.id = main.id
      · obtain rfl : f = main := by
          rw [← hfid, hid, h.row] at hrow
          exact (Option.some.inj hrow).symm
        have hc : c.1 = f.id ∧ c.2.WF := by
          unfold calls at hcs
          dsimp only at hcs
          split at hcs
          · obtain rfl := (List.cons_eq_cons.mp hcs).1
            exact ⟨rfl, s.fallback_wf⟩
          · obtain rfl := (List.cons_eq_cons.mp hcs).1
            exact ⟨rfl, s.main_wf⟩
        exact not_kept_of_own_fallback h hd hc.1 hc.2
      · unfold calls at hcs
        dsimp only at hcs
        split at hcs
        · -- the fallback first: it becomes the main profile, or the file is truncated
          obtain rfl := (List.cons_eq_cons.mp hcs).1
          have hone : (⟨main, some f⟩ : ExpandedProfile).toList.filter (fun p => p.id = f.id)
              = [f] := by
            simp [ExpandedProfile.toList, Ne.symm hid]
          rw [persist_single h.closed h.aware hd (c := (f.id, s.fallback)) s.fallback_wf hone]
          intro he
          dsimp only at he
          split at he
          · have hnone := congrArg ExpandedProfile.udpFallback (Option.some.inj he)
            exact absurd hnone (by simp [grownPair])
          · exact absurd he (by simp)
        · obtain rfl := (List.cons_eq_cons.mp hcs).1
          rw [hmain s.main_wf hd (by simp [ExpandedProfile.toList, hid])]
          simp

/-! ## §6. When both profiles are kept. -/

/-- **WHEN DIRECT BOOT KEEPS THE BOOKS.**  For every list of sessions before
the unlock: the device file keeps both profiles over every call, and the
flush brings both rows up to date once and for all, exactly if the main
profile names no fallback or there was no session. -/
theorem accounted_iff {st : Storage} {main : Profile} (h : Locked st main)
    (sessions : List LockedSession) :
    Accounted st ⟨main, main.udpFallback.bind st.db.get⟩
        (sessions.flatMap fun s => s.calls ⟨main, main.udpFallback.bind st.db.get⟩)
      ↔ main.udpFallback = none ∨ sessions = [] := by
  cases sessions with
  | nil => exact ⟨fun _ => Or.inr rfl, fun _ => accounted_nil h⟩
  | cons s ss =>
      constructor
      · intro hacc
        left
        cases hf : main.udpFallback with
        | none => rfl
        | some id =>
            have hpair := hacc.pair
            cases hcs : s.calls ⟨main, main.udpFallback.bind st.db.get⟩ with
            | nil =>
                unfold calls at hcs
                dsimp only at hcs
                split at hcs
                · exact absurd hcs (by simp)
                · split at hcs <;> exact absurd hcs (by simp)
            | cons c cs =>
                rw [List.flatMap_cons, hcs] at hpair
                exact absurd hpair.1 (not_kept_of_fallback h hf hcs)
      · rintro (hf | hnil)
        · have hfb : main.udpFallback.bind st.db.get = none := by rw [hf]; rfl
          rw [hfb]
          refine accounted_alone h hf (by simp [calls]) fun c hc => ?_
          obtain ⟨s', _, hc⟩ := List.mem_flatMap.mp hc
          obtain rfl := List.mem_singleton.mp hc
          exact ⟨rfl, s'.main_wf⟩
        · exact absurd hnil (by simp)

/-- A monitor that has been reported these totals. -/
def monitorOf (tx rx : Long) : TrafficMonitor :=
  { heap := fun a => if a = 0 then { txTotal := tx, rxTotal := rx } else {} }

theorem monitorOf_wf (tx rx : Long) : (monitorOf tx rx).WF :=
  ⟨Nat.one_ne_zero, Nat.zero_lt_two, Nat.one_lt_two, Or.inl rfl⟩

/-- A session of `tx` bytes on the main profile and one on the fallback. -/
def sessionOf (tx : Long) : LockedSession where
  main := monitorOf tx 0
  fallback := monitorOf 1 0
  main_wf := monitorOf_wf tx 0
  fallback_wf := monitorOf_wf 1 0
  fallbackFirst := false

/-- The rows of a locked device, and its file. -/
def lockedStorage (main : Profile) (others : List Profile) : Storage where
  db := ⟨main :: others⟩
  available := false
  directBootAware := true
  device := some ⟨main, main.udpFallback.bind (PrivateDatabase.get ⟨main :: others⟩)⟩

/-- Two sessions without a fallback are both in the row after the flush. -/
theorem accounted_alone_twice :
    Locked (lockedStorage {} []) {}
      ∧ Accounted (lockedStorage {} []) ⟨{}, none⟩ [(22, monitorOf 3 0), (22, monitorOf 4 0)]
      ∧ counted 22 [(22, monitorOf 3 0), (22, monitorOf 4 0)] = (7, 0) := by
  have h : Locked (lockedStorage {} []) {} :=
    ⟨rfl, rfl, rfl, rfl, fun p hp => by rw [List.mem_singleton.mp hp]⟩
  exact ⟨h, (accounted_iff h [sessionOf 3, sessionOf 4]).mpr (Or.inl rfl), rfl⟩

/-- A profile with a fallback. -/
def withFallback : Profile := { udpFallback := some 5 }

/-- The first call of the first session leaves a file that cannot be
read. -/
theorem direct_boot_loses_pair :
    Locked (lockedStorage withFallback [{ id := 5 }]) withFallback
      ∧ (persist (lockedStorage withFallback [{ id := 5 }]) (22, monitorOf 3 0)).device = none
      ∧ ¬ Accounted (lockedStorage withFallback [{ id := 5 }]) ⟨withFallback, some { id := 5 }⟩
        [(22, monitorOf 3 0), (5, monitorOf 1 0)] := by
  have h : Locked (lockedStorage withFallback [{ id := 5 }]) withFallback := by
    refine ⟨rfl, rfl, rfl, rfl, fun p hp => ?_⟩
    rcases List.mem_cons.mp hp with rfl | hp
    · rfl
    · rw [List.mem_singleton.mp hp]
  have hlost : (persist (lockedStorage withFallback [{ id := 5 }])
      (22, monitorOf 3 0)).device = none := rfl
  refine ⟨h, hlost, fun hacc => ?_⟩
  have hkept := hacc.pair.1
  rw [hlost] at hkept
  exact absurd hkept (by simp)

end LockedSession

end FoxVpn.Bg
