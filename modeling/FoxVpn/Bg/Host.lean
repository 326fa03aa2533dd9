/-
  FoxVpn.Bg.Host
  ──────────────
  **THE SERVICE ON ITS STORAGE.**

  The service of `FoxVpn.Bg.Service` gets what it reads with the label; here
  it runs on the profile store: a start command brings the value of
  `Core.currentProfile`, `persistStats` fetches the row of its profile and
  later writes back what it has made of it.  Between the two the store can
  change: the UI is another process.
-/
import FoxVpn.Bg.SessionOutcome

namespace FoxVpn.Bg

open FoxVpn.Lib FoxVpn.Database

/-! ## §1. The two together. -/

structure Host where
  service : Service := {}
  storage : Storage := {}

namespace Host

/-- What `getProfile` returns inside the next `shutdown` of stop `k`. -/
def fetched (h : Host) (k : Nat) : Except Fault (Option Profile) :=
  match (h.service.stops k).pc with
  | .shutdown (w :: _) =>
      match h.service.slot w with
      | some p => getProfile h.storage p.profile.id
      | none => .ok none
  | _ => .ok none

/-- The label brings what the store holds. -/
def Reads (h : Host) : Service.Label → Prop
  | .startCommand expanded => Core.currentProfile h.storage = .ok expanded
  | .persistRead k row => h.fetched k = .ok row
  | _ => True

instance (h : Host) : ∀ l, Decidable (h.Reads l)
  | .startCommand _ => inferInstanceAs (Decidable (_ = _))
  | .persistRead _ _ => inferInstanceAs (Decidable (_ = _))
  | .close | .reload | .revoke | .fatal _ | .report _ _ | .dispatch _ | .drop _ | .startTaken _
  | .preInitDone _ | .flattened _ | .startUp _ _ _ | .sendFd _ _ | .throw _ _ | .joined _
  | .persistWrite _ | .shutdownDone _ | .childDone _ _ | .stopped _ => isTrue trivial

/-- The row a step writes back. -/
def writes (h : Host) : Service.Label → Option Profile
  | .persistWrite k =>
      match (h.service.stops k).pc with
      | .persist _ row => some row
      | _ => none
  | _ => none

/-- The store after the row has been written, if there is one. -/
def store (st : Storage) : Option Profile → Option Storage
  | none => some st
  | some row =>
      match updateProfile st row with
      | .ok st' => some st'
      | .error _ => none

def step (decode : String → Option Nat) (h : Host) (l : Service.Label) : Option Host :=
  if h.Reads l then
    match h.service.step decode l, store h.storage (h.writes l) with
    | some service, some storage => some { service, storage }
    | _, _ => none
  else none

theorem step_spec {decode : String → Option Nat} {h h' : Host} {l : Service.Label}
    (hs : h.step decode l = some h') :
    h.Reads l ∧ h.service.step decode l = some h'.service
      ∧ store h.storage (h.writes l) = some h'.storage := by
  unfold step at hs
  split at hs
  next hr =>
    split at hs
    next service storage hservice hstore =>
      injection hs with hs
      subst hs
      exact ⟨hr, hservice, hstore⟩
    next => exact absurd hs (by simp)
  next => exact absurd hs (by simp)

theorem store_some {st st' : Storage} {row : Profile} (h : store st (some row) = some st') :
    updateProfile st row = .ok st' := by
  cases hu : updateProfile st row with
  | ok x =>
      simp only [store, hu] at h
      rw [Option.some.inj h]
  | error e => exact absurd h (by simp [store, hu])

/-- The parts of the store no step touches. -/
theorem store_frame {st st' : Storage} {row : Option Profile} (h : store st row = some st') :
    st'.available = st.available ∧ st'.directBootAware = st.directBootAware := by
  cases row with
  | none =>
      injection h with h
      rw [h]
      exact ⟨rfl, rfl⟩
  | some r =>
      obtain ⟨rfl, _⟩ := updateProfile_ok (store_some h)
      exact ⟨rfl, rfl⟩

/-- Only the write of `persistStats` changes the store. -/
theorem storage_of_not_write {decode : String → Option Nat} {h h' : Host} {l : Service.Label}
    (hs : h.step decode l = some h') (hw : h.writes l = none) : h'.storage = h.storage := by
  have hstore := (step_spec hs).2.2
  rw [hw] at hstore
  exact (Option.some.inj hstore).symm

/-- Outside direct boot a session is started with the row of the
profile. -/
theorem currentProfile_main {st : Storage} {e : ExpandedProfile}
    (hboot : st.directBootAware = false) (h : Core.currentProfile st = .ok (some e)) :
    st.db.get profileId = some e.main := by
  unfold Core.currentProfile at h
  simp only [hboot, Bool.false_eq_true, if_false] at h
  unfold getProfile at h
  split at h
  next => exact absurd h (by simp)
  next => exact absurd h (by simp)
  next p hget =>
    split at hget
    next hopen =>
      injection hget with hget
      rw [hget]
      -- `expand` keeps the profile it is given
      unfold expand at h
      cases hf : p.udpFallback with
      | none =>
          simp only [hf, Except.map] at h
          rw [← Option.some.inj (Except.ok.inj h)]
      | some id =>
          simp only [hf] at h
          cases hg : getProfile st id with
          | error x =>
              rw [hg] at h
              exact absurd h (by simp [Except.map])
          | ok fallback =>
              rw [hg] at h
              simp only [Except.map] at h
              rw [← Option.some.inj (Except.ok.inj h)]
    next => exact absurd hget (by simp)

end Host

/-! ## §2. Rows on their way back. -/

namespace Service

/-- Assigning a stop that is not inside `persistStats` puts none there. -/
theorem persist_update {stops : Nat → Stop} {i k : Nat} {c : Stop} {rest : List Slot}
    {row : Profile} (hc : ∀ rest row, c.pc ≠ .persist rest row)
    (h : (Function.update stops i c k).pc = .persist rest row) :
    (stops k).pc = .persist rest row := by
  by_cases hk : k = i
  · rw [hk, Function.update_self] at h
    exact absurd h (hc rest row)
  · rwa [Function.update_of_ne hk] at h

theorem launchStop_persist {s : Service} {c : Stop} {k : Nat} {rest : List Slot} {row : Profile}
    (h : ((s.launchStop c).stops k).pc = .persist rest row) :
    (s.stops k).pc = .persist rest row := by
  unfold launchStop at h
  split at h
  next => exact persist_update (by simp) h
  next => exact persist_update (by simp) h

theorem stopRunner_persist {s : Service} {restart : Bool} {msg : Option Message} {k : Nat}
    {rest : List Slot} {row : Profile}
    (h : ((s.stopRunner restart msg).stops k).pc = .persist rest row) :
    (s.stops k).pc = .persist rest row := by
  unfold stopRunner at h
  split at h
  next => exact h
  next =>
    have h' := launchStop_persist h
    rwa [(changeState_frame s .stopping none).2] at h'

theorem catchThrown_persist {s : Service} {j : Nat} {e : Thrown} {k : Nat} {rest : List Slot}
    {row : Profile} (h : ((s.catchThrown j e).stops k).pc = .persist rest row) :
    (s.stops k).pc = .persist rest row := by
  cases e with
  | cancellation => exact h
  | other message => exact stopRunner_persist h

theorem onStartCommand_persist {decode : String → Option Nat} {s : Service}
    {expanded : Option ExpandedProfile} {k : Nat} {rest : List Slot} {row : Profile}
    (h : ((s.onStartCommand decode expanded).stops k).pc = .persist rest row) :
    (s.stops k).pc = .persist rest row := by
  have hrefuse : ∀ {t : Service} {msg : Message}, t.stops = s.stops →
      ((t.refuse msg).stops k).pc = .persist rest row → (s.stops k).pc = .persist rest row := by
    intro t msg ht hr
    have hr' := stopRunner_persist hr
    exact (congrArg (fun f : Nat → Stop => (f k).pc) ht).symm.trans hr'
  have hconnect : ∀ {t : Service} {p : Profile}, t.stops = s.stops →
      ((t.connect p).stops k).pc = .persist rest row → (s.stops k).pc = .persist rest row := by
    intro t p ht hr
    rwa [(connect_spec t p).2.2.1, ht] at hr
  unfold onStartCommand at h
  split at h
  next => exact h
  next =>
    split at h
    next => exact hrefuse rfl h
    next =>
      split at h
      next => exact hrefuse rfl h
      next =>
        split at h
        next => exact hconnect (by rfl) h
        next =>
          split at h
          next => exact hrefuse (by rfl) h
          next => exact hconnect (by rfl) h

theorem forceLoad_persist {s : Service} {k : Nat} {rest : List Slot} {row : Profile}
    (h : (s.forceLoad.stops k).pc = .persist rest row) : (s.stops k).pc = .persist rest row := by
  unfold forceLoad at h
  split at h
  next => exact h
  next =>
    split at h
    next => exact stopRunner_persist h
    next => exact h

theorem attempt_persist {s : Service} {j tries : Nat} {failure : Option String} {k : Nat}
    {rest : List Slot} {row : Profile}
    (h : ((s.attempt j tries failure).stops k).pc = .persist rest row) :
    (s.stops k).pc = .persist rest row := by
  cases failure with
  | none =>
      have hstops : (s.attempt j tries none).stops = s.stops :=
        (changeState_frame s .connected none).2
      rwa [hstops] at h
  | some message =>
      simp only [attempt] at h
      split at h
      next => exact catchThrown_persist h
      next => exact h

theorem endStop_persist {s : Service} {i k : Nat} {rest : List Slot} {row : Profile}
    (h : ((s.endStop i).stops k).pc = .persist rest row) : (s.stops k).pc = .persist rest row := by
  have hstops : (s.endStop i).stops = Function.update s.stops i { s.stops i with pc := .done } := by
    unfold endStop
    dsimp only
    split <;> exact congrArg (Function.update · i _) (changeState_frame s _ _).2
  rw [hstops] at h
  exact persist_update (by simp) h

/-- A stop gets inside `persistStats` by its own fetch, which keeps the key
and the server fields of the row. -/
theorem shutdownProxy_persist {s : Service} {i k : Nat} {w : Slot} {rest rest' : List Slot}
    {fetched : Option Profile} {row : Profile}
    (h : ((s.shutdownProxy i w rest' fetched).stops k).pc = .persist rest row) :
    (s.stops k).pc = .persist rest row
      ∨ (k = i ∧ ∃ r, fetched = some r ∧ row.id = r.id ∧ row.server = r.server) := by
  have hstops : (s.mapSlot (fun p => { p with trafficMonitor := none }) w).stops = s.stops :=
    (mapSlot_frame s w _).2.2
  unfold shutdownProxy at h
  dsimp only at h
  split at h
  next => exact Or.inl (persist_update (by simp) h)
  next =>
    by_cases hk : k = i
    · subst hk
      rw [setStop_self] at h
      cases fetched with
      | none => exact absurd h (by simp)
      | some r =>
          injection h with _ hrow
          exact Or.inr ⟨rfl, r, rfl, by rw [← hrow], by rw [← hrow]; rfl⟩
    · rw [setStop_ne _ _ hk, hstops] at h
      exact Or.inl h

/-- **A row on its way back** was there before the step, or is what the step
has fetched; the step itself writes none. -/
theorem persist_origin {decode : String → Option Nat} {s s' : Service} {l : Label} {ph : Phase}
    (hph : s.InPhase ph) (hs : step decode s l = some s') {k : Nat} {rest : List Slot}
    {row : Profile} (hk : (s'.stops k).pc = .persist rest row) :
    (∀ i, l ≠ .persistWrite i)
      ∧ ((s.stops k).pc = .persist rest row
        ∨ ∃ r, l = .persistRead k (some r) ∧ row.id = r.id ∧ row.server = r.server) := by
  cases l with
  | startCommand expanded =>
      obtain ⟨_, rfl⟩ := of_enabled hs
      exact ⟨by simp, Or.inl (onStartCommand_persist hk)⟩
  | close =>
      obtain ⟨_, rfl⟩ := of_enabled hs
      refine ⟨by simp, Or.inl ?_⟩
      split at hk
      next => exact stopRunner_persist hk
      next => exact hk
  | reload =>
      obtain ⟨_, rfl⟩ := of_enabled hs
      refine ⟨by simp, Or.inl ?_⟩
      split at hk
      next => exact forceLoad_persist hk
      next => exact hk
  | revoke =>
      obtain ⟨_, rfl⟩ := of_enabled hs
      exact ⟨by simp, Or.inl (stopRunner_persist hk)⟩
  | fatal message =>
      obtain ⟨_, rfl⟩ := of_enabled hs
      exact ⟨by simp, Or.inl (stopRunner_persist hk)⟩
  | report w stats =>
      obtain ⟨_, rfl⟩ := of_enabled hs
      rw [(mapSlot_frame s w _).2.2] at hk
      exact ⟨by simp, Or.inl hk⟩
  | dispatch j => obtain ⟨_, rfl⟩ := of_enabled hs; exact ⟨by simp, Or.inl hk⟩
  | drop j => obtain ⟨_, rfl⟩ := of_enabled hs; exact ⟨by simp, Or.inl hk⟩
  | startTaken j => obtain ⟨_, rfl⟩ := of_enabled hs; exact ⟨by simp, Or.inl hk⟩
  | preInitDone j => obtain ⟨_, rfl⟩ := of_enabled hs; exact ⟨by simp, Or.inl hk⟩
  | flattened j => obtain ⟨_, rfl⟩ := of_enabled hs; exact ⟨by simp, Or.inl hk⟩
  | startUp j n message =>
      obtain ⟨_, rfl⟩ := of_enabled hs
      refine ⟨by simp, Or.inl ?_⟩
      rw [← (startUp_frame s n).stops]
      split at hk
      next => exact hk
      next => exact catchThrown_persist hk
  | sendFd j failure =>
      obtain ⟨tries, _, rfl⟩ := of_sendFd hs
      exact ⟨by simp, Or.inl (attempt_persist hk)⟩
  | throw j e =>
      obtain ⟨_, rfl⟩ := of_enabled hs
      exact ⟨by simp, Or.inl (catchThrown_persist hk)⟩
  | joined i =>
      obtain ⟨_, _, _, rfl⟩ := of_joined hs
      exact ⟨by simp, Or.inl (persist_update (by simp) hk)⟩
  | persistRead i fetched =>
      obtain ⟨w, rest', _, rfl⟩ := of_persistRead hs
      refine ⟨by simp, ?_⟩
      rcases shutdownProxy_persist hk with h | ⟨rfl, r, rfl, hid, hserver⟩
      · exact Or.inl h
      · exact Or.inr ⟨r, rfl, hid, hserver⟩
  | persistWrite i =>
      obtain ⟨rest', row', hi, rfl⟩ := of_persistWrite hs
      -- the stop that writes is the only one with the main thread
      have hold := persist_update (by simp) hk
      have hpi := hph.of_holdsMain (k := i) (by rw [hi]; rfl)
      have hpk := hph.of_holdsMain (k := k) (by rw [hold]; rfl)
      rw [hpi] at hpk
      injection hpk with hik
      subst hik
      rw [setStop_self] at hk
      exact absurd hk (by simp)
  | shutdownDone i =>
      obtain ⟨_, rfl⟩ := of_shutdownDone hs
      exact ⟨by simp, Or.inl (persist_update (by simp) hk)⟩
  | childDone i c =>
      obtain ⟨_, rfl⟩ := of_enabled hs
      refine ⟨by simp, Or.inl ?_⟩
      by_cases hki : k = i
      · subst hki
        rwa [setStop_self] at hk
      · rwa [setStop_ne s _ hki] at hk
  | stopped i =>
      obtain ⟨_, rfl⟩ := of_enabled hs
      exact ⟨by simp, Or.inl (endStop_persist hk)⟩

end Service

namespace Host

/-- The same on the store: where a row is on its way back after a step, the
step has left the store alone, and a row fetched by it is in the table. -/
theorem held_origin {decode : String → Option Nat} {h h' : Host} {l : Service.Label} {ph : Phase}
    (hph : h.service.InPhase ph) (hs : h.step decode l = some h') {k : Nat} {rest : List Slot}
    {row : Profile} (hk : (h'.service.stops k).pc = .persist rest row) :
    h'.storage = h.storage
      ∧ ((h.service.stops k).pc = .persist rest row
        ∨ ∃ p, h.storage.db.get row.id = some p ∧ row.server = p.server) := by
  obtain ⟨hread, hservice, _⟩ := step_spec hs
  obtain ⟨hnw, horigin⟩ := Service.persist_origin hph hservice hk
  have hw : h.writes l = none := by
    cases l with
    | persistWrite i => exact absurd rfl (hnw i)
    | _ => rfl
  refine ⟨storage_of_not_write hs hw, ?_⟩
  rcases horigin with hold | ⟨r, rfl, hid, hserver⟩
  · exact Or.inl hold
  · right
    refine ⟨r, ?_, hserver⟩
    have hget : ∃ id, getProfile h.storage id = .ok (some r) := by
      have hread' : h.fetched k = .ok (some r) := hread
      unfold fetched at hread'
      split at hread'
      next =>
        split at hread'
        next p _ => exact ⟨p.profile.id, hread'⟩
        next => exact absurd hread' (by simp)
      next => exact absurd hread' (by simp)
    obtain ⟨id, hget⟩ := hget
    rw [hid, getProfile_id hget]
    exact getProfile_get hget

/-- Only `persistWrite` of the stop that cleans up writes. -/
theorem cleaning_of_writes {h : Host} {l : Service.Label} {ph : Phase}
    (hph : h.service.InPhase ph) {row : Profile} (hw : h.writes l = some row) :
    ∃ k rest, ph = .cleaning k ∧ (h.service.stops k).pc = .persist rest row := by
  cases l with
  | persistWrite k =>
      simp only [writes] at hw
      split at hw
      next rest row' hk =>
        injection hw with hw
        subst hw
        exact ⟨k, rest, hph.of_holdsMain (by rw [hk]; rfl), hk⟩
      next => exact absurd hw (by simp)
  | _ => exact absurd hw (by simp [writes])

end Host

end FoxVpn.Bg
