/-
  FoxVpn.Bg.TrafficMonitor
  ────────────────────────
  **TRAFFIC ACCOUNTING OF ONE SESSION.**

  A `TrafficMonitor` keeps the cumulative totals of its session in ONE
  mutable `TrafficStats` object, `current`, and remembers in `persisted`
  what it has already written to the profile row.  `persisted` is a
  REFERENCE, so objects live in an explicit heap here: the guard of
  `persistStats` compares the object with itself and never fires
  (`persistStats_never_rejects`), and every call adds the whole total again.

  Main result `persistStats_exactly_once_iff`: a session is accounted
  exactly once if and only if every `persistStats` call but the last one is
  made while nothing has been reported yet.
-/
import Mathlib.Algebra.BigOperators.Group.List.Basic
import Mathlib.Algebra.Group.Prod
import Mathlib.Data.BitVec
import FoxVpn.Database.ProfileManager

namespace FoxVpn.Bg

open FoxVpn.Database

/-! ## §1. The monitor and its heap. -/

/-- The data class `TrafficStats`; equality is structural. -/
structure TrafficStats where
  txRate : Long := 0
  rxRate : Long := 0
  txTotal : Long := 0
  rxTotal : Long := 0
  deriving Repr, DecidableEq

/-- The fields of `TrafficMonitor`; `current`, `out` and `persisted` are
addresses in `heap`. -/
structure TrafficMonitor where
  heap : Nat → TrafficStats := fun _ => {}
  /-- The next free address. -/
  next : Nat := 2
  current : Nat := 0
  out : Nat := 1
  timestampLast : Long := 0
  dirty : Bool := false
  persisted : Option Nat := none

namespace TrafficMonitor

/-- Assign through a reference. -/
def modify (m : TrafficMonitor) (a : Nat) (f : TrafficStats → TrafficStats) : TrafficMonitor :=
  { m with heap := Function.update m.heap a (f (m.heap a)) }

/-- `txTotal` and `rxTotal` of `current`. -/
def totals (m : TrafficMonitor) : Long × Long :=
  ((m.heap m.current).txTotal, (m.heap m.current).rxTotal)

/-- `stat.getLong(index)` on the little-endian buffer. -/
def getLong (buffer : List Byte) (index : Nat) : Long :=
  ((buffer.drop index).take 8).foldr (fun b acc => acc <<< 8 ||| b.zeroExtend 64) 0

/-- `acceptInternal`: `read` are the bytes one `read(buffer)` has returned,
none at the end of the stream. -/
def acceptInternal (m : TrafficMonitor) (read : List Byte) : Except Fault TrafficMonitor :=
  if read.length = 0 then .ok m
  else if read.length = 16 then
    let tx := getLong read 0
    let rx := getLong read 8
    let m₁ :=
      if (m.heap m.current).txTotal ≠ tx then
        { m.modify m.current (fun s => { s with txTotal := tx }) with dirty := true }
      else m
    let m₂ :=
      if (m₁.heap m₁.current).rxTotal ≠ rx then
        { m₁.modify m₁.current (fun s => { s with rxTotal := rx }) with dirty := true }
      else m₁
    .ok m₂
  else .error .io

/-- `requestUpdate()` at the clock value `now`: the monitor afterwards, whose
`out` is the first component of the returned pair, and `updated`. -/
def requestUpdate (m : TrafficMonitor) (now : Long) : TrafficMonitor × Bool :=
  let delta := now - m.timestampLast
  let cur := m.heap m.current
  let old := m.heap m.out
  if delta ≠ 0 then
    if m.dirty then
      -- `out = current.copy().apply { … }`: a fresh object
      ({ m with
         timestampLast := now
         heap := Function.update m.heap m.next
           { cur with
             txRate := ((cur.txTotal - old.txTotal) * 1000).sdiv delta
             rxRate := ((cur.rxTotal - old.rxTotal) * 1000).sdiv delta }
         out := m.next
         next := m.next + 1
         dirty := false }, true)
    else
      ({ m.modify m.out (fun s => { s with txRate := 0, rxRate := 0 }) with
         timestampLast := now }, old.txRate ≠ 0 || old.rxRate ≠ 0)
  else ({ m with timestampLast := now }, false)

/-- The catch block of `persistStats`, for direct boot: the storage
afterwards, and the exception if one was thrown. -/
def persistDirectBoot (m : TrafficMonitor) (id : Long) (st : Storage) : Storage × Option Fault :=
  if st.directBootAware then
    match st.device with
    | none => (st, some .nullPointer)
    | some e =>
        match e.toList.filter fun p => p.id = id with
        | [p] =>
            DirectBoot.update st (some { p with
              tx := p.tx + m.totals.1, rx := p.rx + m.totals.2, dirty := true })
        | _ => (st, some .noSuchElement)
  else (st, some .io)

/-- `persistStats(id)`: the monitor and the storage afterwards, and the
exception if one was thrown. -/
def persistStats (m : TrafficMonitor) (id : Long) (st : Storage) :
    TrafficMonitor × Storage × Option Fault :=
  if m.persisted = none ∨ m.persisted.map m.heap = some (m.heap m.current) then
    let m := { m with persisted := some m.current }
    match getProfile st id with
    | .ok none => (m, st, none)
    | .ok (some p) =>
        match updateProfile st { p with tx := p.tx + m.totals.1, rx := p.rx + m.totals.2 } with
        | .ok st' => (m, st', none)
        | .error e => (m, st, some e)
    | .error .io => (m, m.persistDirectBoot id st)
    | .error e => (m, st, some e)
  else (m, st, some (.illegalState "Data loss occurred"))

/-- What stays true of a monitor: the objects are apart, and the only
reference ever stored in `persisted` is `current` itself. -/
structure WF (m : TrafficMonitor) : Prop where
  apart : m.out ≠ m.current
  current_lt : m.current < m.next
  out_lt : m.out < m.next
  persisted : m.persisted = none ∨ m.persisted = some m.current

theorem wf_new : WF {} where
  apart := by decide
  current_lt := by decide
  out_lt := by decide
  persisted := Or.inl rfl

/-- **The guard compares the object with itself**: it never fires. -/
theorem persistStats_never_rejects {m : TrafficMonitor} (hm : m.WF) :
    m.persisted = none ∨ m.persisted.map m.heap = some (m.heap m.current) := by
  rcases hm.persisted with h | h
  · exact Or.inl h
  · right
    rw [h]
    rfl

/-! ## §2. What each operation does to the totals. -/

/-- The totals a read leaves, from the totals before it. -/
def reported (t : Long × Long) (read : List Byte) : Long × Long :=
  if read.length = 16 then (getLong read 0, getLong read 8) else t

theorem modify_totals_tx (m : TrafficMonitor) (tx : Long) :
    (m.modify m.current fun s => { s with txTotal := tx }).totals = (tx, m.totals.2) := by
  simp [totals, modify]

theorem modify_totals_rx (m : TrafficMonitor) (rx : Long) :
    (m.modify m.current fun s => { s with rxTotal := rx }).totals = (m.totals.1, rx) := by
  simp [totals, modify]

/-- Setting one total, only when it differs, sets it. -/
theorem assign_tx (m : TrafficMonitor) (tx : Long) :
    ∃ m', (if (m.heap m.current).txTotal ≠ tx then
        { m.modify m.current (fun s => { s with txTotal := tx }) with dirty := true }
      else m) = m' ∧ m'.totals = (tx, m.totals.2) ∧ (m.WF → m'.WF) := by
  refine ⟨_, rfl, ?_⟩
  split
  next => exact ⟨modify_totals_tx m tx, fun h => ⟨h.apart, h.current_lt, h.out_lt, h.persisted⟩⟩
  next h =>
    have htx : (m.heap m.current).txTotal = tx := by
      by_contra hne
      exact h hne
    exact ⟨by rw [← htx]; rfl, fun h => h⟩

theorem assign_rx (m : TrafficMonitor) (rx : Long) :
    ∃ m', (if (m.heap m.current).rxTotal ≠ rx then
        { m.modify m.current (fun s => { s with rxTotal := rx }) with dirty := true }
      else m) = m' ∧ m'.totals = (m.totals.1, rx) ∧ (m.WF → m'.WF) := by
  refine ⟨_, rfl, ?_⟩
  split
  next => exact ⟨modify_totals_rx m rx, fun h => ⟨h.apart, h.current_lt, h.out_lt, h.persisted⟩⟩
  next h =>
    have hrx : (m.heap m.current).rxTotal = rx := by
      by_contra hne
      exact h hne
    exact ⟨by rw [← hrx]; rfl, fun h => h⟩

/-- An accepted read sets both totals to what it reports. -/
theorem acceptInternal_spec {m m' : TrafficMonitor} {read : List Byte}
    (h : m.acceptInternal read = .ok m') :
    m'.totals = reported m.totals read ∧ (m.WF → m'.WF) := by
  unfold acceptInternal at h
  unfold reported
  split at h
  next h0 =>
    injection h with h
    subst h
    rw [if_neg (by omega)]
    exact ⟨rfl, fun h => h⟩
  next =>
    split at h
    next h16 =>
      obtain ⟨m₁, hm₁, ht₁, hw₁⟩ := assign_tx m (getLong read 0)
      obtain ⟨m₂, hm₂, ht₂, hw₂⟩ := assign_rx m₁ (getLong read 8)
      simp only [hm₁, hm₂] at h
      injection h with h
      subst h
      rw [if_pos h16, ht₂, ht₁]
      exact ⟨rfl, fun h => hw₂ (hw₁ h)⟩
    next => exact absurd h (by simp)

/-- Only a read of another length than 0 and 16 is refused. -/
theorem acceptInternal_error {m : TrafficMonitor} {read : List Byte} {e : Fault}
    (h : m.acceptInternal read = .error e) : read.length ≠ 16 := by
  unfold acceptInternal at h
  intro h16
  rw [if_neg (by omega), if_pos h16] at h
  exact absurd h (by simp)

/-- Reporting rates changes no total: the copy is a fresh object. -/
theorem requestUpdate_spec {m : TrafficMonitor} (hm : m.WF) (now : Long) :
    (m.requestUpdate now).1.totals = m.totals ∧ (m.requestUpdate now).1.WF := by
  simp only [requestUpdate]
  by_cases hd : now - m.timestampLast ≠ 0
  · rw [if_pos hd]
    by_cases hdirty : m.dirty = true
    · rw [if_pos hdirty]
      have hne : m.current ≠ m.next := Nat.ne_of_lt hm.current_lt
      refine ⟨?_, Nat.ne_of_gt hm.current_lt, ?_, ?_, hm.persisted⟩
      · simp [totals, Function.update_of_ne hne]
      · exact Nat.lt_succ_of_lt hm.current_lt
      · exact Nat.lt_succ_self m.next
    · rw [if_neg hdirty]
      refine ⟨?_, hm.apart, hm.current_lt, hm.out_lt, hm.persisted⟩
      simp [totals, modify, Function.update_of_ne (Ne.symm hm.apart)]
  · rw [if_neg hd]
    exact ⟨rfl, hm.apart, hm.current_lt, hm.out_lt, hm.persisted⟩

/-- With the database open and the row present, a call adds the WHOLE
totals to the row. -/
theorem persistStats_spec {m : TrafficMonitor} (hm : m.WF) {id : Long} {st : Storage}
    {p : Profile} (hopen : st.available = true) (hrow : st.db.get id = some p) :
    ∃ m' st' p', m.persistStats id st = (m', st', none) ∧ m'.WF ∧ m'.totals = m.totals
      ∧ st'.available = true ∧ st'.db.get id = some p'
      ∧ p'.tx = p.tx + m.totals.1 ∧ p'.rx = p.rx + m.totals.2 := by
  obtain rfl : p.id = id := PrivateDatabase.get_id hrow
  let q : Profile := { p with tx := p.tx + m.totals.1, rx := p.rx + m.totals.2 }
  have hq : (st.db.get q.id).isSome = true := by
    show (st.db.get p.id).isSome = true
    rw [hrow]
    rfl
  refine ⟨{ m with persisted := some m.current }, { st with db := st.db.update q }, q.toRow,
    ?_, ?_, rfl, hopen, PrivateDatabase.get_update_same st.db q hq, rfl, rfl⟩
  · unfold persistStats
    rw [if_pos (persistStats_never_rejects hm)]
    have hget : getProfile st p.id = .ok (some p) := by
      rw [getProfile_open hopen, hrow]
    have hupdate := updateProfile_present hopen hq
    simp only [hget]
    show (match updateProfile st q with
      | .ok st' => (_, st', none)
      | .error e => (_, st, some e)) = _
    rw [hupdate]
  · exact ⟨hm.apart, hm.current_lt, hm.out_lt, Or.inr rfl⟩

/-! ## §3. A session: reports, rate requests and `persistStats` calls. -/

/-- What can happen to the monitor of a session. -/
inductive Event where
  | report (read : List Byte)
  | requestUpdate (now : Long)
  | persistStats
  deriving Repr, DecidableEq

/-- One event on the profile `id`: the state afterwards, and the exception
if one was thrown. -/
def handle (id : Long) (s : TrafficMonitor × Storage) :
    Event → (TrafficMonitor × Storage) × Option Fault
  | .report read =>
      match s.1.acceptInternal read with
      | .ok m => ((m, s.2), none)
      | .error e => (s, some e)
  | .requestUpdate now => (((s.1.requestUpdate now).1, s.2), none)
  | .persistStats =>
      match s.1.persistStats id s.2 with
      | (m, st, e) => ((m, st), e)

/-- A whole session; an exception ends its event, not the session. -/
def session (id : Long) : TrafficMonitor × Storage → List Event → TrafficMonitor × Storage
  | s, [] => s
  | s, e :: es => session id (handle id s e).1 es

/-- The last reported totals, from the totals before. -/
def lastReported : Long × Long → List Event → Long × Long
  | t, [] => t
  | t, .report read :: es => lastReported (reported t read) es
  | t, .requestUpdate _ :: es => lastReported t es
  | t, .persistStats :: es => lastReported t es

/-- The last reported totals at each `persistStats` call. -/
def callTotals : Long × Long → List Event → List (Long × Long)
  | _, [] => []
  | t, .report read :: es => callTotals (reported t read) es
  | t, .requestUpdate _ :: es => callTotals t es
  | t, .persistStats :: es => t :: callTotals t es

/-- The row `id` has grown by `t` from `st` to `st'`. -/
def GrownBy (id : Long) (st st' : Storage) (t : Long × Long) : Prop :=
  ∃ p p', st.db.get id = some p ∧ st'.db.get id = some p'
    ∧ p'.tx = p.tx + t.1 ∧ p'.rx = p.rx + t.2

/-- **Exactly-once accounting** of a session that ends in a `persistStats`
call: the row has grown by the last report, and every call on the way that
would leave another growth is rejected. -/
structure ExactlyOnce (id : Long) (st : Storage) (es : List Event) : Prop where
  grown : GrownBy id st (session id ({}, st) (es ++ [.persistStats])).2 (lastReported 0 es)
  rejects : ∀ pre post, es ++ [.persistStats] = pre ++ .persistStats :: post →
    (handle id (session id ({}, st) pre) .persistStats).2
        = some (.illegalState "Data loss occurred")
      ∨ GrownBy id st (session id ({}, st) (pre ++ [.persistStats])).2 (lastReported 0 pre)

/-- The books of a running session: `t` was reported last, the row holds
`b`. -/
structure Books (id : Long) (t b : Long × Long) (s : TrafficMonitor × Storage) : Prop where
  wf : s.1.WF
  totals : s.1.totals = t
  opened : s.2.available = true
  row : ∃ p, s.2.db.get id = some p ∧ (p.tx, p.rx) = b

theorem books_report {id : Long} {t b : Long × Long} {s : TrafficMonitor × Storage}
    (h : Books id t b s) (read : List Byte) :
    Books id (reported t read) b (handle id s (.report read)).1 := by
  cases hacc : s.1.acceptInternal read with
  | ok m =>
      obtain ⟨htot, hwf⟩ := acceptInternal_spec hacc
      simp only [handle, hacc]
      exact ⟨hwf h.wf, by rw [htot, h.totals], h.opened, h.row⟩
  | error e =>
      have hr : reported t read = t := if_neg (acceptInternal_error hacc)
      simp only [handle, hacc, hr]
      exact h

theorem books_requestUpdate {id : Long} {t b : Long × Long} {s : TrafficMonitor × Storage}
    (h : Books id t b s) (now : Long) :
    Books id t b (handle id s (.requestUpdate now)).1 := by
  obtain ⟨htot, hwf⟩ := requestUpdate_spec h.wf now
  exact ⟨hwf, by rw [← h.totals]; exact htot, h.opened, h.row⟩

/-- A call is accepted and adds the whole of `t`. -/
theorem books_persistStats {id : Long} {t b : Long × Long} {s : TrafficMonitor × Storage}
    (h : Books id t b s) :
    (handle id s .persistStats).2 = none
      ∧ Books id t (b + t) (handle id s .persistStats).1 := by
  obtain ⟨p, hp, hb⟩ := h.row
  obtain ⟨m', st', p', hcall, hwf, htot, hopen, hp', htx, hrx⟩ :=
    persistStats_spec h.wf h.opened hp
  simp only [handle, hcall]
  refine ⟨trivial, hwf, htot.trans h.totals, hopen, p', hp', ?_⟩
  rw [htx, hrx, ← hb, ← h.totals]
  rfl

/-- **The books of a whole session**: every call has added the totals
reported last before it. -/
theorem books_session (id : Long) :
    ∀ (es : List Event) (t b : Long × Long) (s : TrafficMonitor × Storage),
      Books id t b s →
      Books id (lastReported t es) (b + (callTotals t es).sum) (session id s es)
  | [], t, b, s, h => by
      simpa [lastReported, callTotals, session] using h
  | .report read :: es, t, b, s, h =>
      books_session id es (reported t read) b _ (books_report h read)
  | .requestUpdate now :: es, t, b, s, h =>
      books_session id es t b _ (books_requestUpdate h now)
  | .persistStats :: es, t, b, s, h => by
      have ih := books_session id es t (b + t) _ (books_persistStats h).2
      rw [add_assoc, ← List.sum_cons] at ih
      exact ih

theorem books_new {id : Long} {st : Storage} {p : Profile}
    (hopen : st.available = true) (hrow : st.db.get id = some p) :
    Books id 0 (p.tx, p.rx) ({}, st) :=
  ⟨wf_new, rfl, hopen, p, hrow, rfl⟩

theorem callTotals_concat_persist (t : Long × Long) :
    ∀ es, callTotals t (es ++ [.persistStats]) = callTotals t es ++ [lastReported t es] := by
  intro es
  induction es generalizing t with
  | nil => rfl
  | cons e es ih =>
      cases e with
      | report read => exact ih _
      | requestUpdate now => exact ih _
      | persistStats => exact congrArg (t :: ·) (ih t)

/-! ## §4. When the accounting is exact. -/

/-- After a call the growth is the last report exactly if the EARLIER calls
have added nothing. -/
theorem grownBy_call_iff {id : Long} {st : Storage} {p : Profile}
    (hopen : st.available = true) (hrow : st.db.get id = some p) (pre : List Event) :
    GrownBy id st (session id ({}, st) (pre ++ [.persistStats])).2 (lastReported 0 pre)
      ↔ (callTotals 0 pre).sum = 0 := by
  obtain ⟨p', hp', hb⟩ :=
    (books_session id (pre ++ [.persistStats]) 0 _ _ (books_new hopen hrow)).row
  rw [callTotals_concat_persist, List.sum_append, List.sum_singleton] at hb
  have hb1 : p'.tx = p.tx + ((callTotals 0 pre).sum.1 + (lastReported 0 pre).1) :=
    congrArg Prod.fst hb
  have hb2 : p'.rx = p.rx + ((callTotals 0 pre).sum.2 + (lastReported 0 pre).2) :=
    congrArg Prod.snd hb
  constructor
  · intro h
    obtain ⟨q, q', hq, hq', htx, hrx⟩ := h
    obtain rfl : p = q := Option.some.inj (hrow.symm.trans hq)
    obtain rfl : p' = q' := Option.some.inj (hp'.symm.trans hq')
    rw [hb1, add_right_inj, add_eq_right] at htx
    rw [hb2, add_right_inj, add_eq_right] at hrx
    exact Prod.ext htx hrx
  · intro h
    rw [h] at hb1 hb2
    refine ⟨p, p', hrow, hp', ?_, ?_⟩
    · rw [hb1]
      exact congrArg (p.tx + ·) (zero_add _)
    · rw [hb2]
      exact congrArg (p.rx + ·) (zero_add _)

/-- The first call of a session that ends in one. -/
theorem exists_first_call (t : Long × Long) :
    ∀ es : List Event, ∃ pre post,
      es ++ [.persistStats] = pre ++ .persistStats :: post ∧ callTotals t pre = [] := by
  intro es
  induction es generalizing t with
  | nil => exact ⟨[], [], rfl, rfl⟩
  | cons e es ih =>
      cases e with
      | report read =>
          obtain ⟨pre, post, hsplit, hnone⟩ := ih (reported t read)
          exact ⟨.report read :: pre, post, by rw [List.cons_append, hsplit]; rfl, hnone⟩
      | requestUpdate now =>
          obtain ⟨pre, post, hsplit, hnone⟩ := ih t
          exact ⟨.requestUpdate now :: pre, post, by rw [List.cons_append, hsplit]; rfl, hnone⟩
      | persistStats => exact ⟨[], es ++ [.persistStats], rfl, rfl⟩

/-- The splits of a session at a call, by its first event. -/
theorem forall_split_cons {e : Event} {es : List Event} {P : List Event → Prop} :
    (∀ pre post, e :: es = pre ++ .persistStats :: post → P pre)
      ↔ (e = .persistStats → P [])
        ∧ ∀ pre post, es = pre ++ .persistStats :: post → P (e :: pre) := by
  constructor
  · intro h
    refine ⟨fun he => h [] es (by rw [he]; rfl), fun pre post hs => ?_⟩
    exact h (e :: pre) post (by rw [hs]; rfl)
  · intro h pre post hs
    cases pre with
    | nil => exact h.1 (List.cons_eq_cons.mp hs).1
    | cons e' pre =>
        obtain ⟨rfl, hes⟩ := List.cons_eq_cons.mp hs
        exact h.2 pre post hes

/-- Before EVERY call the earlier calls have added nothing, exactly if every
call but the last was made at zero. -/
theorem sums_zero_iff :
    ∀ (es : List Event) (t : Long × Long),
      (∀ pre post, es ++ [.persistStats] = pre ++ .persistStats :: post →
        (callTotals t pre).sum = 0) ↔ ∀ x ∈ callTotals t es, x = 0
  | [], t => by
      refine ⟨fun _ x hx => absurd hx (by simp [callTotals]), fun _ => ?_⟩
      rw [List.nil_append, forall_split_cons]
      exact ⟨fun _ => rfl, fun pre post hs => absurd hs (by simp)⟩
  | .report read :: es, t => by
      rw [List.cons_append, forall_split_cons]
      exact (and_iff_right (fun h => absurd h (by simp))).trans
        (sums_zero_iff es (reported t read))
  | .requestUpdate now :: es, t => by
      rw [List.cons_append, forall_split_cons]
      exact (and_iff_right (fun h => absurd h (by simp))).trans (sums_zero_iff es t)
  | .persistStats :: es, t => by
      have hmem : (∀ x ∈ callTotals t (.persistStats :: es), x = 0)
          ↔ t = 0 ∧ ∀ x ∈ callTotals t es, x = 0 := List.forall_mem_cons
      rw [hmem, ← sums_zero_iff es t, List.cons_append, forall_split_cons]
      constructor
      · intro h
        -- up to the NEXT call only `t` has been added
        obtain ⟨pre, post, hsplit, hnone⟩ := exists_first_call t es
        have ht : t = 0 := by
          have hsum := h.2 pre post hsplit
          simpa [callTotals, hnone] using hsum
        refine ⟨ht, fun pre post hs => ?_⟩
        have hsum : t + (callTotals t pre).sum = 0 := h.2 pre post hs
        subst ht
        rwa [zero_add] at hsum
      · intro h
        refine ⟨fun _ => rfl, fun pre post hs => ?_⟩
        rw [callTotals, List.sum_cons, h.2 pre post hs, h.1, zero_add]

/-- **When accounting is exact.**  With the database open and the row
present, a session is accounted exactly once if and only if every
`persistStats` call before the last is made while the totals reported so
far are zero: a call made later is neither rejected nor exact. -/
theorem persistStats_exactly_once_iff (id : Long) (st : Storage) (es : List Event)
    (hopen : st.available = true) (hrow : (st.db.get id).isSome = true) :
    ExactlyOnce id st es ↔ ∀ t ∈ callTotals 0 es, t = 0 := by
  obtain ⟨p, hp⟩ := Option.isSome_iff_exists.mp hrow
  rw [← sums_zero_iff es 0]
  constructor
  · intro h pre post hsplit
    rcases h.rejects pre post hsplit with hrej | hgrown
    · -- the guard lets every call through
      have hbooks := books_session id pre 0 _ _ (books_new hopen hp)
      rw [(books_persistStats hbooks).1] at hrej
      exact absurd hrej (by simp)
    · exact (grownBy_call_iff hopen hp pre).mp hgrown
  · intro h
    refine ⟨(grownBy_call_iff hopen hp es).mpr (h es [] rfl), fun pre post hsplit => Or.inr ?_⟩
    exact (grownBy_call_iff hopen hp pre).mpr (h pre post hsplit)

/-- One byte sent, none received. -/
def oneByte : List Byte := 1 :: List.replicate 15 0

/-- A session whose only call is the one at its end is accounted exactly. -/
theorem persistStats_exactly_once_single :
    ExactlyOnce 22 { db := ⟨[{}]⟩ } [.report oneByte, .requestUpdate 1000] :=
  (persistStats_exactly_once_iff 22 { db := ⟨[{}]⟩ } [.report oneByte, .requestUpdate 1000]
    rfl rfl).mpr fun _ ht => absurd ht List.not_mem_nil

/-- A shutdown broadcast between the report and the stop: the byte is added
twice, and neither call is rejected. -/
theorem persistStats_adds_twice :
    ¬ ExactlyOnce 22 { db := ⟨[{}]⟩ } [.report oneByte, .persistStats] := by
  intro h
  have hsum := (grownBy_call_iff rfl rfl [.report oneByte, .persistStats]).mp h.grown
  exact absurd hsum (by decide)

end TrafficMonitor

end FoxVpn.Bg
