/-
  FoxVpn.Bg.TrafficRates
  ──────────────────────
  **WHICH INTERVAL DOES A BYTE BELONG TO?  `requestUpdate`.**

  A call of `requestUpdate` reports the traffic since the previous one as a
  rate.  What it subtracts is the total of the `out` object, what it divides
  by is the time since `timestampLast`, and both are written on different
  branches: a call at the SAME clock value moves the timestamp and keeps
  `dirty`, an idle call keeps the `out` object and resets its rates.

  The `Ledger` says what the calls should attribute, from the events alone:
  the totals at the last call with a non-zero interval, and its time.  The
  monitor `Tracks` it through every event.

  Main result `requestUpdate_attributes`: each call with a non-zero interval
  reports the latest totals and the rates of the ledger, a call with a zero
  interval leaves the monitor as it was, and a call that says nothing was
  updated leaves `out` as it was.
-/
import Mathlib.Data.BitVec
import FoxVpn.Bg.TrafficMonitor
import FoxVpn.Lib.Bits

namespace FoxVpn.Bg.TrafficMonitor

open FoxVpn.Database FoxVpn.Lib

/-! ## §1. What the calls should attribute. -/

/-- The totals reported last, the clock of the previous call, and the clock
and the totals of the previous call with a NON-ZERO interval. -/
structure Ledger where
  latest : Long × Long := 0
  clock : Long := 0
  since : Long := 0
  base : Long × Long := 0
  deriving Repr, DecidableEq

namespace Ledger

def next (l : Ledger) : Event → Ledger
  | .report read => { l with latest := reported l.latest read }
  | .requestUpdate now =>
      if now = l.clock then { l with clock := now }
      else { l with clock := now, since := now, base := l.latest }
  | .persistStats => l

/-- The ledger after a session. -/
def after (l : Ledger) (es : List Event) : Ledger := es.foldl next l

/-- A difference of totals whose thousandfold is a `Long`. -/
def InRange (latest base : Long) : Prop := (latest.toInt - base.toInt).natAbs * 1000 < 2 ^ 63

/-- Calls come at clock values that do not decrease, with differences in
range. -/
def Admits (l : Ledger) : Event → Prop
  | .requestUpdate now =>
      l.clock.toInt ≤ now.toInt ∧ InRange l.latest.1 l.base.1 ∧ InRange l.latest.2 l.base.2
  | _ => True

/-- Every event of a session is admitted by the ledger before it. -/
def AdmitsAll : Ledger → List Event → Prop
  | _, [] => True
  | l, e :: es => l.Admits e ∧ (l.next e).AdmitsAll es

instance (latest base : Long) : Decidable (InRange latest base) :=
  inferInstanceAs (Decidable (_ < _))

instance (l : Ledger) (e : Event) : Decidable (l.Admits e) :=
  match e with
  | .report _ => isTrue trivial
  | .requestUpdate _ => inferInstanceAs (Decidable (_ ∧ _ ∧ _))
  | .persistStats => isTrue trivial

instance decidableAdmitsAll : ∀ (es : List Event) (l : Ledger), Decidable (l.AdmitsAll es)
  | [], _ => isTrue trivial
  | e :: es, l =>
      have := decidableAdmitsAll es (l.next e)
      inferInstanceAs (Decidable (_ ∧ _))

end Ledger

/-- The `out` object. -/
def outStats (m : TrafficMonitor) : TrafficStats := m.heap m.out

/-- `out` reports the totals `t`, and the traffic since `base` over the time
from `since` to `now`. -/
structure Reports (out : TrafficStats) (t base : Long × Long) (since now : Long) : Prop where
  totals : (out.txTotal, out.rxTotal) = t
  txRate : out.txRate.toInt = ((t.1.toInt - base.1.toInt) * 1000).tdiv (now.toInt - since.toInt)
  rxRate : out.rxRate.toInt = ((t.2.toInt - base.2.toInt) * 1000).tdiv (now.toInt - since.toInt)

/-- What a call at `now` does to a monitor whose ledger is `l`. -/
structure Attributes (m : TrafficMonitor) (l : Ledger) (now : Long) : Prop where
  reports : now ≠ l.clock → Reports (m.requestUpdate now).1.outStats l.latest l.base l.since now
  zeroInterval : now = l.clock → (m.requestUpdate now).1 = m
  notUpdated : (m.requestUpdate now).2 = false → (m.requestUpdate now).1.outStats = m.outStats

/-! ## §2. The monitor tracks the ledger. -/

/-- The totals of `out` are those of the last call that reported any, and
without `dirty` nothing has been reported since. -/
structure Tracks (m : TrafficMonitor) (l : Ledger) : Prop where
  wf : m.WF
  totals : m.totals = l.latest
  base : (m.outStats.txTotal, m.outStats.rxTotal) = l.base
  clean : m.dirty = false → l.latest = l.base
  clock : m.timestampLast = l.clock
  since : l.since = l.clock
  started : 0 ≤ l.clock.toInt

theorem tracks_new : Tracks {} {} where
  wf := wf_new
  totals := rfl
  base := rfl
  clean _ := rfl
  clock := rfl
  since := rfl
  started := by decide

/-- What assigning a total does to everything else. -/
structure Assigned (m m' : TrafficMonitor) : Prop where
  out : m'.outStats = m.outStats
  timestampLast : m'.timestampLast = m.timestampLast
  clean : m'.dirty = false → m.dirty = false ∧ m'.totals = m.totals

theorem Assigned.refl (m : TrafficMonitor) : Assigned m m := ⟨rfl, rfl, fun h => ⟨h, rfl⟩⟩

theorem Assigned.trans {m m₁ m₂ : TrafficMonitor} (h₁ : Assigned m m₁) (h₂ : Assigned m₁ m₂) :
    Assigned m m₂ where
  out := h₂.out.trans h₁.out
  timestampLast := h₂.timestampLast.trans h₁.timestampLast
  clean hclean := by
    obtain ⟨hd₁, ht₂⟩ := h₂.clean hclean
    obtain ⟨hd, ht₁⟩ := h₁.clean hd₁
    exact ⟨hd, ht₂.trans ht₁⟩

/-- `current` is another object than `out`. -/
theorem assigned_modify {m : TrafficMonitor} (hm : m.WF) (f : TrafficStats → TrafficStats) :
    Assigned m { m.modify m.current f with dirty := true } where
  out := Function.update_of_ne hm.apart _ _
  timestampLast := rfl
  clean h := absurd h (by simp)

theorem assigned_if {m : TrafficMonitor} (hm : m.WF) (p : Prop) [Decidable p]
    (f : TrafficStats → TrafficStats) :
    Assigned m (if p then { m.modify m.current f with dirty := true } else m) := by
  split
  · exact assigned_modify hm f
  · exact Assigned.refl m

theorem acceptInternal_assigned {m m' : TrafficMonitor} (hm : m.WF) {read : List Byte}
    (h : m.acceptInternal read = .ok m') : Assigned m m' := by
  unfold acceptInternal at h
  split at h
  · obtain rfl := Except.ok.inj h
    exact Assigned.refl m
  · split at h
    · -- the two assignments one after the other
      obtain rfl := Except.ok.inj h
      obtain ⟨m₁, hm₁, -, hwf⟩ := assign_tx m (getLong read 0)
      have htx := assigned_if hm ((m.heap m.current).txTotal ≠ getLong read 0)
        (fun s => { s with txTotal := getLong read 0 })
      simp only [hm₁] at htx ⊢
      exact htx.trans (assigned_if (hwf hm) _ _)
    · exact absurd h (by simp)

theorem Tracks.report {m m' : TrafficMonitor} {l : Ledger} (h : Tracks m l) {read : List Byte}
    (hacc : m.acceptInternal read = .ok m') : Tracks m' (l.next (.report read)) := by
  obtain ⟨htotals, hwf⟩ := acceptInternal_spec hacc
  have hassigned := acceptInternal_assigned h.wf hacc
  have hlatest : m'.totals = reported l.latest read := by rw [htotals, h.totals]
  refine ⟨hwf h.wf, hlatest, ?_, ?_, hassigned.timestampLast.trans h.clock, h.since, h.started⟩
  · rw [hassigned.out]
    exact h.base
  · intro hclean
    obtain ⟨hd, ht⟩ := hassigned.clean hclean
    show reported l.latest read = l.base
    rw [← hlatest, ht, h.totals]
    exact h.clean hd

/-- A refused read reports nothing. -/
theorem Tracks.refused {m : TrafficMonitor} {l : Ledger} (h : Tracks m l) {read : List Byte}
    (hlen : read.length ≠ 16) : Tracks m (l.next (.report read)) := by
  have hnext : l.next (.report read) = l := by
    show { l with latest := reported l.latest read } = l
    rw [reported, if_neg hlen]
  rw [hnext]
  exact h

/-- `persistStats` writes `persisted` at most. -/
theorem persistStats_monitor (m : TrafficMonitor) (id : Long) (st : Storage) :
    (m.persistStats id st).1 = { m with persisted := some m.current }
      ∨ (m.persistStats id st).1 = m := by
  unfold persistStats
  split
  · left
    dsimp only
    split
    · rfl
    · split
      · rfl
      · rfl
    · rfl
    · rfl
  · exact Or.inr rfl

theorem Tracks.persistStats {m : TrafficMonitor} {l : Ledger} (h : Tracks m l) (id : Long)
    (st : Storage) : Tracks (m.persistStats id st).1 l := by
  rcases persistStats_monitor m id st with hm | hm
  · rw [hm]
    exact { h with
      wf := ⟨h.wf.apart, h.wf.current_lt, h.wf.out_lt, Or.inr rfl⟩ }
  · rw [hm]
    exact h

/-! ## §3. One call. -/

section Call

variable {m : TrafficMonitor} {l : Ledger} {now : Long}

/-- No time has passed: nothing changes. -/
theorem requestUpdate_zero (h : m.timestampLast = now) : m.requestUpdate now = (m, false) := by
  subst h
  simp [requestUpdate]

/-- Time has passed and there is something to report: a fresh object. -/
theorem requestUpdate_dirty (hdelta : now - m.timestampLast ≠ 0) (hd : m.dirty = true) :
    (m.requestUpdate now).1.outStats
        = { m.heap m.current with
            txRate := (((m.heap m.current).txTotal - m.outStats.txTotal) * 1000).sdiv
              (now - m.timestampLast)
            rxRate := (((m.heap m.current).rxTotal - m.outStats.rxTotal) * 1000).sdiv
              (now - m.timestampLast) }
      ∧ (m.requestUpdate now).1.timestampLast = now ∧ (m.requestUpdate now).2 = true := by
  simp only [requestUpdate]
  rw [if_pos hdelta, if_pos hd]
  exact ⟨Function.update_self _ _ _, rfl, rfl⟩

/-- Time has passed with nothing to report: the rates are reset, and the
call says so unless both were zero. -/
theorem requestUpdate_idle (hdelta : now - m.timestampLast ≠ 0) (hd : m.dirty = false) :
    (m.requestUpdate now).1.outStats = { m.outStats with txRate := 0, rxRate := 0 }
      ∧ (m.requestUpdate now).1.timestampLast = now
      ∧ (m.requestUpdate now).2 = (m.outStats.txRate ≠ 0 || m.outStats.rxRate ≠ 0 : Bool) := by
  simp only [requestUpdate]
  rw [if_pos hdelta, if_neg (by rw [hd]; simp)]
  exact ⟨Function.update_self _ _ _, rfl, rfl⟩

/-- The interval of a call, as a number. -/
theorem Tracks.interval (h : Tracks m l) (hmono : l.clock.toInt ≤ now.toInt) :
    (now - m.timestampLast).toInt = now.toInt - l.since.toInt := by
  have hstarted := h.started
  have hlt : now.toInt < 2 ^ 63 := BitVec.toInt_lt
  rw [h.clock, h.since]
  exact Bits.toInt_sub_of_lt (by omega)

theorem thousand_toInt : (1000 : Long).toInt = 1000 := by decide

/-- One of the two rates. -/
theorem rate_toInt {latest base delta : Long} {d : Int} (hrange : Ledger.InRange latest base)
    (hdelta : delta.toInt = d) :
    (((latest - base) * 1000).sdiv delta).toInt
      = ((latest.toInt - base.toInt) * 1000).tdiv d := by
  have hnat : ((latest.toInt - base.toInt) * 1000).natAbs
      = (latest.toInt - base.toInt).natAbs * 1000 := Int.natAbs_mul _ _
  unfold Ledger.InRange at hrange
  rw [← hdelta, ← thousand_toInt]
  exact Bits.toInt_mul_sdiv (by rw [thousand_toInt]; omega)

theorem Tracks.reports (h : Tracks m l) (hadm : l.Admits (.requestUpdate now))
    (hne : now ≠ l.clock) :
    Reports (m.requestUpdate now).1.outStats l.latest l.base l.since now := by
  obtain ⟨hmono, htx, hrx⟩ := hadm
  have hinterval := h.interval hmono
  have hdelta : now - m.timestampLast ≠ 0 := by
    rw [h.clock, sub_ne_zero]
    exact hne
  cases hd : m.dirty with
  | true =>
      obtain ⟨hout, -, -⟩ := requestUpdate_dirty hdelta hd
      have hbase := h.base
      have htotals := h.totals
      rw [← hbase, ← htotals] at htx hrx ⊢
      rw [hout]
      exact ⟨rfl, rate_toInt htx hinterval, rate_toInt hrx hinterval⟩
  | false =>
      -- nothing was reported since: the difference is zero, and so are the rates
      obtain ⟨hout, -, -⟩ := requestUpdate_idle hdelta hd
      have hbase := h.base
      rw [h.clean hd, hout]
      refine ⟨hbase, ?_, ?_⟩
      · rw [sub_self, zero_mul, Int.zero_tdiv]
        rfl
      · rw [sub_self, zero_mul, Int.zero_tdiv]
        rfl

theorem Tracks.notUpdated (h : (m.requestUpdate now).2 = false) :
    (m.requestUpdate now).1.outStats = m.outStats := by
  by_cases hdelta : now - m.timestampLast = 0
  · rw [requestUpdate_zero (sub_eq_zero.mp hdelta).symm]
  · cases hd : m.dirty with
    | true =>
        rw [(requestUpdate_dirty hdelta hd).2.2] at h
        exact absurd h (by simp)
    | false =>
        obtain ⟨hout, -, hupdated⟩ := requestUpdate_idle hdelta hd
        rw [hupdated, Bool.or_eq_false_iff, decide_eq_false_iff_not, decide_eq_false_iff_not,
          not_not, not_not] at h
        -- the rates that are set to 0 were 0
        have hsame : ({ m.outStats with txRate := m.outStats.txRate
                                        rxRate := m.outStats.rxRate } : TrafficStats)
            = m.outStats := rfl
        rw [h.1, h.2] at hsame
        rw [hout, hsame]

theorem Tracks.attributes (h : Tracks m l) (hadm : l.Admits (.requestUpdate now)) :
    Attributes m l now where
  reports := h.reports hadm
  zeroInterval hnow := by rw [requestUpdate_zero (h.clock.trans hnow.symm)]
  notUpdated := Tracks.notUpdated

/-- **A call keeps the ledger.** -/
theorem Tracks.requestUpdate (h : Tracks m l) (hadm : l.Admits (.requestUpdate now)) :
    Tracks (m.requestUpdate now).1 (l.next (.requestUpdate now)) := by
  have hstarted : 0 ≤ now.toInt := le_trans h.started hadm.1
  obtain ⟨htotals, hwf⟩ := requestUpdate_spec h.wf now
  by_cases hne : now = l.clock
  · have hnext : l.next (.requestUpdate now) = l := by
      show (if now = l.clock then _ else _) = l
      rw [if_pos hne, hne]
    rw [hnext, requestUpdate_zero (h.clock.trans hne.symm)]
    exact h
  · have hnext : l.next (.requestUpdate now)
        = { l with clock := now, since := now, base := l.latest } := if_neg hne
    have hdelta : now - m.timestampLast ≠ 0 := by
      rw [h.clock, sub_ne_zero]
      exact hne
    have hstamp : (m.requestUpdate now).1.timestampLast = now := by
      cases hd : m.dirty with
      | true => exact (requestUpdate_dirty hdelta hd).2.1
      | false => exact (requestUpdate_idle hdelta hd).2.1
    rw [hnext]
    exact ⟨hwf, htotals.trans h.totals, (h.reports hadm hne).totals, fun _ => rfl, hstamp, rfl,
      hstarted⟩

end Call

/-! ## §4. A whole session. -/

theorem Tracks.handle {m : TrafficMonitor} {l : Ledger} (h : Tracks m l) (id : Long)
    (st : Storage) (e : Event) (hadm : l.Admits e) :
    Tracks (handle id (m, st) e).1.1 (l.next e) := by
  cases e with
  | report read =>
      cases hacc : m.acceptInternal read with
      | ok m' =>
          simp only [TrafficMonitor.handle, hacc]
          exact h.report hacc
      | error e =>
          simp only [TrafficMonitor.handle, hacc]
          exact h.refused (acceptInternal_error hacc)
  | requestUpdate now => exact h.requestUpdate hadm
  | persistStats => exact h.persistStats id st

/-- Whatever the events, as long as the ledger admits them. -/
theorem Tracks.session (id : Long) : ∀ (es : List Event) (s : TrafficMonitor × Storage)
    (l : Ledger), Tracks s.1 l → l.AdmitsAll es → Tracks (session id s es).1 (l.after es)
  | [], _, _, h, _ => h
  | e :: es, s, l, h, hadm =>
      Tracks.session id es _ (l.next e) (h.handle id s.2 e hadm.1) hadm.2

theorem Ledger.admitsAll_concat (e : Event) : ∀ (es : List Event) (l : Ledger),
    l.AdmitsAll (es ++ [e]) ↔ l.AdmitsAll es ∧ (l.after es).Admits e
  | [], _ => by
      show _ ∧ True ↔ True ∧ _
      rw [and_true, true_and]
      rfl
  | x :: es, l => by
      show l.Admits x ∧ (l.next x).AdmitsAll (es ++ [e]) ↔ _
      rw [Ledger.admitsAll_concat e es (l.next x), ← and_assoc]
      rfl

/-- **EVERY BYTE BELONGS TO ONE INTERVAL.**  After any session whose clock
does not run backwards and whose differences are in range, a call of
`requestUpdate` reports the latest totals and the rates of its interval; in
a zero interval the monitor is left as it was. -/
theorem requestUpdate_attributes (id : Long) (st : Storage) (es : List Event) (now : Long)
    (hadm : ({} : Ledger).AdmitsAll (es ++ [.requestUpdate now])) :
    Attributes (session id ({}, st) es).1 (({} : Ledger).after es) now := by
  obtain ⟨hes, hnow⟩ := (Ledger.admitsAll_concat _ es {}).mp hadm
  exact (Tracks.session id es ({}, st) {} tracks_new hes).attributes hnow

/-- The byte is reported after a second, at one byte per second; a second
call in the same millisecond and an idle one before it change nothing of
that. -/
theorem requestUpdate_attributes_one_byte :
    Attributes (session 22 ({}, { db := ⟨[{}]⟩ })
        [.requestUpdate 1000, .report oneByte, .requestUpdate 1000]).1
      { latest := (1, 0), clock := 1000, since := 1000, base := (0, 0) } 2000 :=
  requestUpdate_attributes 22 { db := ⟨[{}]⟩ }
    [.requestUpdate 1000, .report oneByte, .requestUpdate 1000] 2000 (by decide)

end FoxVpn.Bg.TrafficMonitor
