/-
  FoxVpn.Bg.DeviceProfile
  ───────────────────────
  **THE DEVICE FILE AND THE ROW.**

  The profile exists twice: as row 22 of the private database, and in the
  device file that is read before the first unlock.  When direct boot is
  on, `Core.currentProfile` prefers the FILE, also when the database is
  open.  The writers and what they leave behind:

      Core.updateProfile          the row; the file keeps its server
      DirectBoot.update           the file, from the row
      persistStats, open          the row's counters
      persistStats, locked        the file, made of ONE of its profiles
      flushTrafficStats           the row, from a dirty file; then the file

  Main result `agrees_iff`: `Core.currentProfile` has the server of the most
  recent `Core.updateProfile` all along a run exactly if no step of the run
  uses a file that holds another server.
-/
import FoxVpn.Lib.Run
import FoxVpn.Bg.DirectBootAccounting

namespace FoxVpn.Bg

open FoxVpn.Database
open FoxVpn.Lib
open LockedSession (refreshed persist)

/-- `DirectBoot.update()`, with its default argument. -/
def DirectBoot.updateCurrent (st : Storage) : Storage × Option Fault :=
  match getProfile st profileId with
  | .ok p => DirectBoot.update st p
  | .error e => (st, some e)

/-! ## §1. The two copies. -/

structure DeviceProfile where
  storage : Storage := {}
  /-- What the most recent `Core.updateProfile` that returned was given. -/
  given : Option Server := none
  deriving Repr, DecidableEq

namespace DeviceProfile

inductive Op where
  | setDirectBootAware (aware : Bool)
  | update
  | updateProfile (server : Server)
  | persistStats (id : Long) (monitor : { m : TrafficMonitor // m.WF })
  | flushTrafficStats
  /-- The device is rebooted, or unlocked. -/
  | setAvailable (available : Bool)

/-- The state an operation leaves, whether it throws or not. -/
def apply (s : DeviceProfile) : Op → DeviceProfile
  | .setDirectBootAware aware =>
      { s with storage := { s.storage with directBootAware := aware } }
  | .update => { s with storage := (DirectBoot.updateCurrent s.storage).1 }
  | .updateProfile server =>
      match Core.updateProfile s.storage server with
      | .ok st => ⟨st, some server⟩
      | .error _ => s
  | .persistStats id monitor =>
      { s with storage := (monitor.1.persistStats id s.storage).2.1 }
  | .flushTrafficStats => { s with storage := (DirectBoot.flushTrafficStats s.storage).1 }
  | .setAvailable available => { s with storage := { s.storage with available := available } }

def step (s : DeviceProfile) (op : Op) : Option DeviceProfile := some (s.apply op)

/-- **What the code relies on**: the current profile has the server given
last.  Only a closed database may keep it from being read. -/
def Agrees (s : DeviceProfile) : Prop :=
  ∀ v ∈ s.given, match Core.currentProfile s.storage with
    | .ok (some e) => e.main.server = v.fields
    | .ok none => False
    | .error _ => s.storage.available = false

/-- The operation does not use a file that holds another server. -/
def InStep (s : DeviceProfile) : Op → Prop
  | .setDirectBootAware aware =>
      aware = true → ∀ v ∈ s.given, ∀ e ∈ s.storage.device, e.main.server = v.fields
  | .updateProfile server =>
      s.storage.available = true → s.storage.directBootAware = true →
        ∀ e ∈ s.storage.device, e.main.server = server.fields
  | .persistStats id _ =>
      -- the fallback of the file becomes its main profile
      s.storage.available = false → s.storage.directBootAware = true →
        ∀ v ∈ s.given, ∀ e ∈ s.storage.device, ∀ f ∈ e.udpFallback,
          f.id = id → e.main.id ≠ id → f.udpFallback = none → f.server = v.fields
  | .flushTrafficStats =>
      s.storage.available = true → ∀ v ∈ s.given, ∀ e ∈ s.storage.device,
        e.main.id = profileId → e.main.dirty = true → e.main.server = v.fields
  | .update | .setAvailable _ => True

instance (s : DeviceProfile) (op : Op) : Decidable (s.InStep op) := by
  cases op <;> unfold InStep <;> infer_instance

/-- Where a run begins: the file is absent, or holds what the rows hold. -/
structure Start (s : DeviceProfile) : Prop where
  device : ∀ e ∈ s.storage.device, s.storage.db.get profileId = some e.main
    ∧ ∀ f ∈ e.udpFallback, s.storage.db.get f.id = some f
  given : ∀ v ∈ s.given, ∃ row, s.storage.db.get profileId = some row ∧ row.server = v.fields
  /-- `dirty` is not a column. -/
  clean : ∀ p ∈ s.storage.db.profiles, p.dirty = false

/-! ## §2. Reading the current profile. -/

theorem currentProfile_device {st : Storage} {e : ExpandedProfile}
    (ha : st.directBootAware = true) (hd : st.device = some e) :
    Core.currentProfile st = .ok (some e) := by
  unfold Core.currentProfile
  rw [if_pos ha, hd]

theorem currentProfile_row {st : Storage} {row : Profile}
    (hn : (if st.directBootAware then st.device else none) = none)
    (ho : st.available = true) (hrow : st.db.get profileId = some row) :
    Core.currentProfile st = .ok (some ⟨row, row.udpFallback.bind st.db.get⟩) := by
  unfold Core.currentProfile
  rw [hn]
  simp only [getProfile_open ho, hrow, LockedSession.expand_open ho]
  rfl

theorem currentProfile_closed {st : Storage}
    (hn : (if st.directBootAware then st.device else none) = none)
    (hc : st.available = false) : Core.currentProfile st = .error .io := by
  unfold Core.currentProfile
  rw [hn]
  rw [getProfile_closed hc]

/-- After a refresh both copies are the row. -/
theorem currentProfile_refreshed {st : Storage} {row : Profile} (ho : st.available = true)
    (hrow : st.db.get profileId = some row) :
    Core.currentProfile (refreshed st) = .ok (some ⟨row, row.udpFallback.bind st.db.get⟩) := by
  have hdevice : (refreshed st).device = some ⟨row, row.udpFallback.bind st.db.get⟩ := by
    unfold LockedSession.refreshed
    rw [hrow]
    rfl
  by_cases ha : st.directBootAware = true
  · exact currentProfile_device ha hdevice
  · refine currentProfile_row ?_ ho hrow
    exact if_neg ha

/-! ## §3. The invariant. -/

/-- The row always has the server given last; the file has it while direct
boot is on. -/
structure Inv (s : DeviceProfile) : Prop where
  row : ∀ v ∈ s.given, ∃ row, s.storage.db.get profileId = some row ∧ row.server = v.fields
  device : s.storage.directBootAware = true →
    ∀ v ∈ s.given, ∀ e ∈ s.storage.device, e.main.server = v.fields
  fallback : ∀ e ∈ s.storage.device, ∀ f ∈ e.udpFallback, f.dirty = false
  clean : ∀ p ∈ s.storage.db.profiles, p.dirty = false

theorem Start.inv {s : DeviceProfile} (h : s.Start) : s.Inv where
  row := h.given
  device _ v hv e he := by
    obtain ⟨row, hrow, hserver⟩ := h.given v hv
    rw [(h.device e he).1] at hrow
    rw [Option.some.inj hrow]
    exact hserver
  fallback e he f hf := h.clean f (LockedSession.get_mem ((h.device e he).2 f hf))
  clean := h.clean

theorem Inv.agrees {s : DeviceProfile} (h : s.Inv) : s.Agrees := by
  intro v hv
  obtain ⟨row, hrow, hserver⟩ := h.row v hv
  -- the file is read first, and the row only without it
  cases hn : (if s.storage.directBootAware then s.storage.device else none) with
  | some e =>
      have ha : s.storage.directBootAware = true := by
        by_contra hoff
        rw [if_neg hoff] at hn
        cases hn
      rw [if_pos ha] at hn
      rw [currentProfile_device ha hn]
      exact h.device ha v hv e hn
  | none =>
      cases ho : s.storage.available with
      | false =>
          rw [currentProfile_closed hn ho]
      | true =>
          rw [currentProfile_row hn ho hrow]
          exact hserver

/-- A refreshed file holds the row. -/
theorem Inv.refreshed {s : DeviceProfile} (h : s.Inv) :
    Inv { s with storage := refreshed s.storage } where
  row := h.row
  device _ v hv e he := by
    obtain ⟨row, hrow, hserver⟩ := h.row v hv
    have he' : (s.storage.db.get profileId).map
        (fun p => (⟨p, p.udpFallback.bind s.storage.db.get⟩ : ExpandedProfile)) = some e := he
    rw [hrow] at he'
    rw [← Option.some.inj he']
    exact hserver
  fallback e he f hf := by
    refine LockedSession.refreshed_clean h.clean f ?_
    show f ∈ ((LockedSession.refreshed s.storage).device.map ExpandedProfile.toList).getD []
    rw [show (LockedSession.refreshed s.storage).device = some e from he]
    exact List.mem_cons_of_mem _ (Option.mem_toList.mpr hf)
  clean := h.clean

/-- The table changes, the server of row 22 does not. -/
theorem Inv.db {s : DeviceProfile} (h : s.Inv) {db : PrivateDatabase}
    (hrow : ∀ row, s.storage.db.get profileId = some row →
      ∃ row', db.get profileId = some row' ∧ row'.server = row.server)
    (hclean : ∀ p ∈ db.profiles, p.dirty = false) :
    Inv { s with storage := { s.storage with db := db } } :=
  { h with
    row := fun v hv => by
      obtain ⟨row, hget, hserver⟩ := h.row v hv
      obtain ⟨row', hget', hserver'⟩ := hrow row hget
      exact ⟨row', hget', hserver'.trans hserver⟩
    clean := hclean }

/-! ## §4. What each operation does. -/

theorem updateCurrent_open {st : Storage} (ho : st.available = true) :
    (DirectBoot.updateCurrent st).1 = refreshed st := by
  unfold DirectBoot.updateCurrent
  rw [getProfile_open ho]
  exact congrArg Prod.fst (LockedSession.update_open ho)

theorem updateCurrent_closed {st : Storage} (hc : st.available = false) :
    (DirectBoot.updateCurrent st).1 = st := by
  unfold DirectBoot.updateCurrent
  rw [getProfile_closed hc]

/-- A row that is there is overwritten by `q`. -/
theorem get_update_server {db : PrivateDatabase} {q : Profile}
    (hq : (db.get q.id).isSome = true) (hserver : ∀ row, q.id = profileId →
      db.get profileId = some row → q.server = row.server) :
    ∀ row, db.get profileId = some row →
      ∃ row', (db.update q).get profileId = some row' ∧ row'.server = row.server := by
  intro row hrow
  by_cases hid : q.id = profileId
  · refine ⟨q.toRow, ?_, hserver row hid hrow⟩
    rw [← hid]
    exact PrivateDatabase.get_update_same db q hq
  · refine ⟨row, ?_, rfl⟩
    rw [PrivateDatabase.get_update_ne db q (Ne.symm hid)]
    exact hrow

/-- With the database open the row is fetched, or created. -/
theorem fetchRow_open {st : Storage} (ho : st.available = true)
    (hclean : ∀ p ∈ st.db.profiles, p.dirty = false) :
    ∃ p db, Core.fetchRow st = .ok (p, { st with db := db }) ∧ p.id = profileId
      ∧ (db.get profileId).isSome = true ∧ ∀ q ∈ db.profiles, q.dirty = false := by
  have hget := getProfile_open ho profileId
  cases hrow : st.db.get profileId with
  | some p =>
      refine ⟨p, st.db, ?_, PrivateDatabase.get_id hrow, by rw [hrow]; rfl, hclean⟩
      simp only [Core.fetchRow, hget, hrow]
  | none =>
      let p : Profile := { id := 22, userOrder := st.db.nextOrder.getD 0 }
      have hcreate : createProfile st
          = .ok (p, { st with db := ⟨st.db.profiles ++ [p.toRow]⟩ }) := by
        unfold createProfile
        rw [if_pos ho]
        simp only [PrivateDatabase.create, show st.db.get 22 = none from hrow]
        rfl
      refine ⟨p, ⟨st.db.profiles ++ [p.toRow]⟩, ?_, rfl, ?_, ?_⟩
      · simp only [Core.fetchRow, hget, hrow, hcreate]
      · show ((st.db.profiles ++ [p.toRow]).find? fun q => q.id == profileId).isSome = true
        rw [List.find?_append]
        simp [p, profileId]
      · intro q hq
        rcases List.mem_append.mp hq with hq | hq
        · exact hclean q hq
        · rw [List.mem_singleton.mp hq]
          rfl

/-- With the database open, `Core.updateProfile` returns; the row has the
server and the file is as it was. -/
theorem updateProfile_open {st : Storage} (ho : st.available = true) (v : Server)
    (hclean : ∀ p ∈ st.db.profiles, p.dirty = false) :
    ∃ db row, Core.updateProfile st v = .ok { st with db := db }
      ∧ db.get profileId = some row ∧ row.server = v.fields
      ∧ ∀ p ∈ db.profiles, p.dirty = false := by
  obtain ⟨p, db, hfetch, hid, hsome, hclean'⟩ := fetchRow_open ho hclean
  have hwritten : (v.writeTo p).id = profileId := hid
  rw [← hwritten] at hsome
  refine ⟨db.update (v.writeTo p), (v.writeTo p).toRow, ?_, ?_, rfl,
    LockedSession.update_rows_clean hclean' _⟩
  · unfold Core.updateProfile
    rw [hfetch]
    exact updateProfile_present ho hsome
  · rw [← hwritten]
    exact PrivateDatabase.get_update_same db _ hsome

theorem updateProfile_closed {st : Storage} (hc : st.available = false) (v : Server) :
    Core.updateProfile st v = .error .io := by
  unfold Core.updateProfile Core.fetchRow
  rw [getProfile_closed hc]
  rfl

/-- With the database open, `persistStats` rewrites a row and keeps its
server. -/
theorem persist_open {st : Storage} (ho : st.available = true) (id : Long) {m : TrafficMonitor}
    (hm : m.WF) : persist st (id, m) = st
      ∨ ∃ p q, st.db.get id = some p ∧ q.id = id ∧ q.server = p.server
        ∧ persist st (id, m) = { st with db := st.db.update q } := by
  cases hrow : st.db.get id with
  | none =>
      left
      unfold LockedSession.persist TrafficMonitor.persistStats
      rw [if_pos (TrafficMonitor.persistStats_never_rejects hm)]
      simp only [getProfile_open ho, hrow]
  | some p =>
      right
      have hid := PrivateDatabase.get_id hrow
      refine ⟨p, { p with tx := p.tx + m.totals.1, rx := p.rx + m.totals.2 }, rfl, hid, rfl, ?_⟩
      unfold LockedSession.persist TrafficMonitor.persistStats
      rw [if_pos (TrafficMonitor.persistStats_never_rejects hm)]
      simp only [getProfile_open ho, hrow]
      rw [updateProfile_present ho (by rw [show p.id = id from hid, hrow]; rfl)]
      rfl

/-- With the database closed nothing can be flushed. -/
theorem flushProfiles_closed {st : Storage} (hc : st.available = false) :
    ∀ ps : List Profile, (DirectBoot.flushProfiles st ps).1 = st
  | [] => rfl
  | p :: ps => by
      rw [DirectBoot.flushProfiles]
      split
      next =>
        rw [FoxVpn.Database.updateProfile, if_neg (by rw [hc]; decide)]
      next => exact flushProfiles_closed hc ps

theorem flush_closed {st : Storage} (hc : st.available = false) :
    (DirectBoot.flushTrafficStats st).1 = st := by
  have hflush := flushProfiles_closed hc ((st.device.map ExpandedProfile.toList).getD [])
  unfold DirectBoot.flushTrafficStats
  split
  next st' e heq =>
    rw [heq] at hflush
    exact hflush
  next st' heq =>
    rw [heq] at hflush
    rw [show st' = st from hflush, getProfile_closed hc]

/-- A file whose main profile is not dirty is not written back. -/
theorem flush_open_clean {st : Storage} (ho : st.available = true)
    (hclean : ∀ e ∈ st.device, ∀ p ∈ e.toList, p.dirty = false) :
    (DirectBoot.flushTrafficStats st).1 = refreshed st := by
  have hflush : DirectBoot.flushProfiles st ((st.device.map ExpandedProfile.toList).getD [])
      = (st, none) := by
    refine LockedSession.flushProfiles_clean st _ fun p hp => ?_
    cases hd : st.device with
    | none =>
        rw [hd] at hp
        exact absurd hp List.not_mem_nil
    | some e =>
        rw [hd] at hp
        exact hclean e hd p hp
  rw [LockedSession.flush_spec hflush ho rfl]

/-- A dirty main profile is written over its row, if there is one. -/
theorem flush_open_dirty {st : Storage} (ho : st.available = true) {e : ExpandedProfile}
    (hd : st.device = some e) (hdirty : e.main.dirty = true)
    (hfallback : ∀ f ∈ e.udpFallback, f.dirty = false) :
    (DirectBoot.flushTrafficStats st).1
      = if (st.db.get e.main.id).isSome then refreshed { st with db := st.db.update e.main }
        else st := by
  have hlist : (st.device.map ExpandedProfile.toList).getD [] = e.main :: e.udpFallback.toList := by
    rw [hd]
    rfl
  split
  next hsome =>
    have hflush : DirectBoot.flushProfiles st (e.main :: e.udpFallback.toList)
        = ({ st with db := st.db.update e.main }, none) := by
      rw [DirectBoot.flushProfiles, if_pos hdirty, updateProfile_present ho hsome]
      exact LockedSession.flushProfiles_clean _ _ fun f hf => hfallback f (Option.mem_toList.mp hf)
    rw [LockedSession.flush_spec hflush ho hlist]
  next hnone =>
    have hflush : DirectBoot.flushProfiles st (e.main :: e.udpFallback.toList)
        = (st, some (.illegalState "Check failed.")) := by
      rw [DirectBoot.flushProfiles, if_pos hdirty, FoxVpn.Database.updateProfile, if_pos ho,
        if_neg hnone]
    unfold DirectBoot.flushTrafficStats
    rw [hlist, hflush]

/-- With the database closed, `persistStats` leaves everything alone or
makes the file of the one profile it is for. -/
theorem persist_locked {st : Storage} (hc : st.available = false) (id : Long) {m : TrafficMonitor}
    (hm : m.WF) : persist st (id, m) = st
      ∨ ∃ e p, st.directBootAware = true ∧ st.device = some e
        ∧ e.toList.filter (fun p => p.id = id) = [p]
        ∧ persist st (id, m) = { st with
            device := if p.udpFallback = none then some ⟨LockedSession.grown (id, m) p, none⟩
              else none } := by
  have hget := getProfile_closed hc id
  have hcatch : persist st (id, m)
      = (({ m with persisted := some m.current } : TrafficMonitor).persistDirectBoot id st).1 := by
    unfold LockedSession.persist TrafficMonitor.persistStats
    rw [if_pos (TrafficMonitor.persistStats_never_rejects hm)]
    simp only [hget]
  by_cases ha : st.directBootAware = true
  · cases hd : st.device with
    | none =>
        left
        rw [hcatch, TrafficMonitor.persistDirectBoot, if_pos ha, hd]
    | some e =>
        -- `single` finds one profile, or throws
        have hclosed := LockedSession.persist_closed hc ha hd (c := (id, m)) hm
        cases hf : e.toList.filter (fun p => p.id = id) with
        | nil =>
            left
            rw [hclosed, hf]
        | cons p ps =>
            cases ps with
            | nil =>
                exact Or.inr ⟨e, p, ha, rfl, hf,
                  LockedSession.persist_single hc ha hd (c := (id, m)) hm hf⟩
            | cons q qs =>
                left
                rw [hclosed, hf]
  · left
    rw [hcatch, TrafficMonitor.persistDirectBoot, if_neg ha]

theorem grown_server (c : PersistCall) (p : Profile) :
    (LockedSession.grown c p).server = p.server := by
  unfold LockedSession.grown
  split <;> rfl

/-- The one profile of the file with this key: the main one, or else the
fallback. -/
theorem eq_main_or_fallback {e : ExpandedProfile} {id : Long} {p : Profile}
    (hp : e.toList.filter (fun p => p.id = id) = [p]) :
    p = e.main ∨ (p ∈ e.udpFallback ∧ p.id = id ∧ e.main.id ≠ id) := by
  by_cases hid : e.main.id = id
  · left
    rw [ExpandedProfile.toList, List.filter_cons, if_pos (decide_eq_true hid)] at hp
    exact (List.cons_eq_cons.mp hp).1.symm
  · right
    rw [ExpandedProfile.toList, List.filter_cons, if_neg (by simp [hid])] at hp
    have hmem : p ∈ e.udpFallback.toList.filter fun p => p.id = id := by
      rw [hp]
      exact List.mem_singleton.mpr rfl
    obtain ⟨hmem, hpid⟩ := List.mem_filter.mp hmem
    exact ⟨Option.mem_toList.mp hmem, of_decide_eq_true hpid, hid⟩

/-! ## §5. One operation. -/

theorem Inv.updateProfile {s : DeviceProfile} (h : s.Inv) {v : Server}
    (hin : s.InStep (.updateProfile v)) : (s.apply (.updateProfile v)).Inv := by
  cases ho : s.storage.available with
  | false =>
      simp only [apply, updateProfile_closed ho]
      exact h
  | true =>
      obtain ⟨db, row, hupdate, hrow, hserver, hclean⟩ := updateProfile_open ho v h.clean
      simp only [apply, hupdate]
      exact {
        row := fun w hw => by
          obtain rfl : v = w := Option.some.inj hw
          exact ⟨row, hrow, hserver⟩
        device := fun ha w hw e he => by
          obtain rfl : v = w := Option.some.inj hw
          exact hin ho ha e he
        fallback := h.fallback
        clean := hclean }

theorem Inv.persistStats {s : DeviceProfile} (h : s.Inv) {id : Long}
    {m : { m : TrafficMonitor // m.WF }} (hin : s.InStep (.persistStats id m)) :
    (s.apply (.persistStats id m)).Inv := by
  show Inv { s with storage := persist s.storage (id, m.1) }
  cases ho : s.storage.available with
  | true =>
      rcases persist_open ho id m.2 with hkeep | ⟨p, q, hp, hid, hserver, hwrite⟩
      · rw [hkeep]
        exact h
      · rw [hwrite]
        refine h.db (get_update_server ?_ fun row hq hrow => ?_)
          (LockedSession.update_rows_clean h.clean q)
        · rw [hid, hp]
          rfl
        · rw [← hq, hid, hp] at hrow
          rw [hserver, Option.some.inj hrow]
  | false =>
      rcases persist_locked ho id m.2 with hkeep | ⟨e, p, ha, hd, hp, hwrite⟩
      · rw [hkeep]
        exact h
      · rw [hwrite]
        have hnew : ∀ e' ∈ (if p.udpFallback = none then
            some (⟨LockedSession.grown (id, m.1) p, none⟩ : ExpandedProfile) else none),
            p.udpFallback = none ∧ e' = ⟨LockedSession.grown (id, m.1) p, none⟩ := by
          intro e' he'
          split at he'
          next hnone => exact ⟨hnone, (Option.some.inj he').symm⟩
          next => cases he'
        refine { h with device := fun _ v hv e' he' => ?_, fallback := fun e' he' f hf => ?_ }
        · obtain ⟨hnone, rfl⟩ := hnew e' he'
          show (LockedSession.grown (id, m.1) p).server = v.fields
          rw [grown_server]
          -- the new main profile was the main one before, or the fallback
          rcases eq_main_or_fallback hp with rfl | ⟨hf, hpid, hne⟩
          · exact h.device ha v hv e hd
          · exact hin ho ha v hv e hd p hf hpid hne hnone
        · obtain ⟨_, rfl⟩ := hnew e' he'
          cases hf

theorem Inv.flushTrafficStats {s : DeviceProfile} (h : s.Inv) (hin : s.InStep .flushTrafficStats) :
    (s.apply .flushTrafficStats).Inv := by
  show Inv { s with storage := (DirectBoot.flushTrafficStats s.storage).1 }
  cases ho : s.storage.available with
  | false =>
      rw [flush_closed ho]
      exact h
  | true =>
      by_cases hdirty : ∃ e ∈ s.storage.device, e.main.dirty = true
      · obtain ⟨e, hd, hdirty⟩ := hdirty
        -- the file is written over its row, and then made from row 22
        rw [flush_open_dirty ho hd hdirty (h.fallback e hd)]
        split
        next hsome =>
          have hwritten : Inv { s with storage :=
              { s.storage with db := s.storage.db.update e.main } } := by
            refine { h with row := fun v hv => ?_,
                            clean := LockedSession.update_rows_clean h.clean e.main }
            obtain ⟨row, hrow, hserver⟩ := h.row v hv
            obtain ⟨row', hrow', hserver'⟩ := get_update_server hsome (fun r hid hr => by
              rw [hrow] at hr
              rw [hin ho v hv e hd hid hdirty, ← Option.some.inj hr, hserver]) row hrow
            exact ⟨row', hrow', hserver'.trans hserver⟩
          exact hwritten.refreshed
        next => exact h
      · rw [flush_open_clean ho]
        · exact h.refreshed
        · intro e he p hp
          rcases List.mem_cons.mp hp with rfl | hp
          · exact Bool.eq_false_iff.mpr fun hd => hdirty ⟨e, he, hd⟩
          · exact h.fallback e he p (Option.mem_toList.mp hp)

/-- **An operation in step keeps the invariant.** -/
theorem inv_apply {s : DeviceProfile} {op : Op} (hin : s.InStep op) (h : s.Inv) :
    (s.apply op).Inv := by
  cases op with
  | setDirectBootAware aware => exact { h with device := fun ha => hin ha }
  | update =>
      show Inv { s with storage := (DirectBoot.updateCurrent s.storage).1 }
      cases ho : s.storage.available with
      | true =>
          rw [updateCurrent_open ho]
          exact h.refreshed
      | false =>
          rw [updateCurrent_closed ho]
          exact h
  | updateProfile v => exact h.updateProfile hin
  | persistStats id m => exact h.persistStats hin
  | flushTrafficStats => exact h.flushTrafficStats hin
  | setAvailable available => exact { h with }

/-- Another server is read from the file. -/
theorem not_agrees_of_device {s : DeviceProfile} {v : Server} {e : ExpandedProfile}
    (hv : s.given = some v) (ha : s.storage.directBootAware = true)
    (hd : s.storage.device = some e) (hne : e.main.server ≠ v.fields) : ¬ s.Agrees := by
  intro hagrees
  have hread := hagrees v hv
  rw [currentProfile_device ha hd] at hread
  exact hne hread

/-- **An operation out of step is seen at once.** -/
theorem not_agrees_apply {s : DeviceProfile} {op : Op} (hout : ¬ s.InStep op) (h : s.Inv) :
    ¬ (s.apply op).Agrees := by
  cases op with
  | setDirectBootAware aware =>
      simp only [InStep, not_forall] at hout
      obtain ⟨rfl, v, hv, e, he, hne⟩ := hout
      exact not_agrees_of_device hv rfl he hne
  | update => exact absurd trivial hout
  | updateProfile v =>
      simp only [InStep, not_forall] at hout
      obtain ⟨ho, ha, e, he, hne⟩ := hout
      obtain ⟨db, row, hupdate, _⟩ := updateProfile_open ho v h.clean
      simp only [apply, hupdate]
      exact not_agrees_of_device rfl ha he hne
  | persistStats id m =>
      simp only [InStep, not_forall] at hout
      obtain ⟨hc, ha, v, hv, e, he, f, hf, hid, hmain, hnone, hne⟩ := hout
      have hone : e.toList.filter (fun p => p.id = id) = [f] := by
        rw [ExpandedProfile.toList, List.filter_cons, if_neg (by simp [hmain]),
          Option.mem_def.mp hf]
        exact List.filter_cons_of_pos (decide_eq_true hid)
      have hpersist := LockedSession.persist_single hc ha he (c := (id, m.1)) m.2 hone
      rw [if_pos hnone] at hpersist
      show ¬ Agrees { s with storage := persist s.storage (id, m.1) }
      rw [hpersist]
      refine not_agrees_of_device hv ha rfl ?_
      show (LockedSession.grown (id, m.1) f).server ≠ v.fields
      rw [grown_server]
      exact hne
  | flushTrafficStats =>
      simp only [InStep, not_forall] at hout
      obtain ⟨ho, v, hv, e, he, hid, hdirty, hne⟩ := hout
      -- the row exists, and the flush writes the server of the file over it
      obtain ⟨row, hrow, _⟩ := h.row v hv
      have hsome : (s.storage.db.get e.main.id).isSome = true := by
        rw [hid, hrow]
        rfl
      have hread : (s.storage.db.update e.main).get profileId = some e.main.toRow := by
        rw [← hid]
        exact PrivateDatabase.get_update_same s.storage.db e.main hsome
      show ¬ Agrees { s with storage := (DirectBoot.flushTrafficStats s.storage).1 }
      rw [flush_open_dirty ho he hdirty (h.fallback e he), if_pos hsome]
      intro hagrees
      have hcurrent := hagrees v hv
      have ho' : ({ s.storage with db := s.storage.db.update e.main } : Storage).available = true :=
        ho
      rw [currentProfile_refreshed ho' hread] at hcurrent
      exact hne hcurrent
  | setAvailable available => exact absurd trivial hout

/-! ## §6. Whole runs. -/

/-- Every run is enabled. -/
theorem exec_step (ops : List Op) :
    ∀ s : DeviceProfile, exec step s ops = some (ops.foldl apply s) := by
  induction ops with
  | nil => intro s; rfl
  | cons op ops ih =>
      intro s
      show (some (s.apply op)).bind (fun s' => exec step s' ops) = _
      rw [Option.bind_some, ih]
      rfl

/-- **WHEN THE TWO COPIES AGREE.**  From a file that is absent or equal to
the rows: the current profile has the server given last all along a run
exactly if every operation of the run is in step. -/
theorem agrees_iff {s : DeviceProfile} (h : s.Start) (ops : List Op) :
    Along step Agrees s ops ↔ Meets step InStep s ops := by
  refine along_iff_meets (fun _ hi => hi.agrees) (fun t op t' hin hs hi => ?_)
    (fun t op t' hout hs hi => ?_) ops s _ h.inv (exec_step ops s)
  · obtain rfl : t.apply op = t' := Option.some.inj hs
    exact inv_apply hin hi
  · obtain rfl : t.apply op = t' := Option.some.inj hs
    exact not_agrees_apply hout hi

def oldServer : Server := { ip := "192.0.2.1", name := "a", method := "m", pwd := "p", port := 1 }

def newServer : Server := { ip := "192.0.2.1", name := "a", method := "m", pwd := "p", port := 2 }

/-- A monitor that has counted nothing. -/
def idleMonitor : { m : TrafficMonitor // m.WF } := ⟨{}, TrafficMonitor.wf_new⟩

theorem start_new : Start {} where
  device e he := by cases he
  given v hv := by cases hv
  clean p hp := by cases hp

/-- Every change of the server is followed by an update of the file. -/
def refreshedRun : List Op :=
  [.updateProfile oldServer, .update, .setDirectBootAware true, .setAvailable false,
    .persistStats 22 idleMonitor, .setAvailable true, .flushTrafficStats,
    .setDirectBootAware false, .updateProfile newServer, .update, .setDirectBootAware true]

theorem agrees_refreshedRun : Start {} ∧ Along step Agrees {} refreshedRun :=
  ⟨start_new, (agrees_iff start_new refreshedRun).mpr (by decide)⟩

/-- The file is written, and then the server changes. -/
def staleRun : List Op :=
  [.setDirectBootAware true, .updateProfile oldServer, .update, .updateProfile newServer]

/-- The file is dirty when the server changes, and is flushed. -/
def flushRun : List Op :=
  [.setDirectBootAware true, .updateProfile oldServer, .update, .setAvailable false,
    .persistStats 22 idleMonitor, .setAvailable true, .setDirectBootAware false,
    .updateProfile newServer, .flushTrafficStats]

/-- **The older server comes back**: it is read from the file, and a flush
writes it over the row. -/
theorem older_server_back :
    oldServer.fields ≠ newServer.fields
    ∧ (∃ s e, exec step {} staleRun = some s ∧ s.given = some newServer
      ∧ Core.currentProfile s.storage = .ok (some e) ∧ e.main.server = oldServer.fields)
    ∧ ∃ s e, exec step {} flushRun = some s ∧ s.given = some newServer
      ∧ s.storage.db.get profileId = some e.main
      ∧ Core.currentProfile s.storage = .ok (some e) ∧ e.main.server = oldServer.fields :=
  ⟨by decide, ⟨_, _, rfl, rfl, rfl, rfl⟩, ⟨_, _, rfl, rfl, rfl, rfl, rfl⟩⟩

end DeviceProfile

end FoxVpn.Bg
