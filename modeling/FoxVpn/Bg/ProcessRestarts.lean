/-
  FoxVpn.Bg.ProcessRestarts
  ─────────────────────────
  **THE TOTALS OF A SESSION WHOSE `ss-local` IS RESTARTED.**

  `TrafficMonitor` outlives the process it measures.  The process guard
  starts a new `ss-local` whenever the old one exits, and each incarnation
  counts from zero; nobody tells the monitor, and `acceptInternal` OVERWRITES
  the totals with whatever it reads.  So the totals are those of the LATEST
  incarnation to report, not of the session.

  Main result `totals_survive_iff`: the totals stay the sum over all
  incarnations exactly in the runs in which every report finds the earlier
  incarnations with nothing counted.  In those runs the totals never
  decrease, the rates are not negative as long as `bytes * 1000` fits into a
  `Long`, and the row grows by the traffic of every incarnation.
-/
import FoxVpn.Lib.Run
import FoxVpn.Bg.TrafficRates

namespace FoxVpn.Bg.ProcessRestarts

open FoxVpn.Database FoxVpn.Lib TrafficMonitor

/-! ## §1. A session with restarts. -/

/-- The monitor, and what each incarnation of `ss-local` has last reported. -/
structure Measured where
  monitor : TrafficMonitor := {}
  /-- The latest counts of the incarnations that have exited. -/
  earlier : List (Int × Int) := []
  /-- The latest counts of the running incarnation. -/
  latest : Int × Int := 0

inductive Event where
  /-- The running incarnation reports its counts, as the bytes of one read. -/
  | report (read : List Byte)
  /-- `Guard.looper` starts the next incarnation. -/
  | restart
  /-- The service asks for the rates at the clock value `now`. -/
  | requestUpdate (now : Long)
  deriving Repr, DecidableEq

/-- The counts a report of 16 bytes carries. -/
def counts (read : List Byte) : Int × Int :=
  ((getLong read 0).toInt, (getLong read 8).toInt)

/-- One event.  An incarnation reports CUMULATIVE counts: none is below its
last one, and the first is not below zero.  The clock does not run
backwards. -/
def step (s : Measured) : Event → Option Measured
  | .report read =>
      if read.length = 16 ∧ s.latest ≤ counts read then
        match s.monitor.acceptInternal read with
        | .ok m => some { s with monitor := m, latest := counts read }
        | .error _ => none
      else none
  | .restart => some { s with earlier := s.latest :: s.earlier, latest := 0 }
  | .requestUpdate now =>
      if s.monitor.timestampLast.toInt ≤ now.toInt then
        some { s with monitor := (s.monitor.requestUpdate now).1 }
      else none

/-- The traffic of the session: the latest counts of ALL incarnations. -/
def Measured.traffic (s : Measured) : Int × Int := s.latest + s.earlier.sum

/-- The totals of `current`, as numbers. -/
def Measured.totals (s : Measured) : Int × Int :=
  (s.monitor.totals.1.toInt, s.monitor.totals.2.toInt)

/-- The totals are the sum over the incarnations. -/
def Exact (s : Measured) : Prop := s.totals = s.traffic

/-- A report comes only while the earlier incarnations have counted
nothing. -/
def Uninterrupted (s : Measured) : Event → Prop
  | .report _ => s.earlier.sum = 0
  | _ => True

/-- What went through since the last update, times 1000, is a `Long`. -/
def Bounded (s : Measured) : Event → Prop
  | .requestUpdate _ =>
      (s.totals.1 - (s.monitor.heap s.monitor.out).txTotal.toInt) * 1000 < 2 ^ 63
        ∧ (s.totals.2 - (s.monitor.heap s.monitor.out).rxTotal.toInt) * 1000 < 2 ^ 63
  | _ => True

instance (s : Measured) : (e : Event) → Decidable (Uninterrupted s e)
  | .report _ => inferInstanceAs (Decidable (s.earlier.sum = 0))
  | .restart => isTrue trivial
  | .requestUpdate _ => isTrue trivial

instance (s : Measured) : (e : Event) → Decidable (Bounded s e)
  | .report _ => isTrue trivial
  | .restart => isTrue trivial
  | .requestUpdate _ => inferInstanceAs (Decidable (_ ∧ _))

/-- The rates last computed are not negative. -/
def RatesNonneg (s : Measured) : Prop :=
  0 ≤ (s.monitor.heap s.monitor.out).txRate.toInt
    ∧ 0 ≤ (s.monitor.heap s.monitor.out).rxRate.toInt

/-! ## §2. What each operation of the monitor leaves alone. -/

/-- **A rate over growing totals is not negative** as long as the product
fits. -/
theorem rate_nonneg {new old delta : Long} (hgrown : old.toInt ≤ new.toInt)
    (hfits : (new.toInt - old.toInt) * 1000 < 2 ^ 63) (hd : 0 ≤ delta.toInt) :
    0 ≤ (((new - old) * 1000).sdiv delta).toInt := by
  have hrange : Ledger.InRange new old := by
    unfold Ledger.InRange
    omega
  rw [rate_toInt hrange rfl]
  exact Int.tdiv_nonneg (by omega) hd

/-- The published object lags behind `current`, and the clock has started. -/
structure Published (m : TrafficMonitor) : Prop where
  clock : 0 ≤ m.timestampLast.toInt
  tx_nonneg : 0 ≤ (m.heap m.out).txTotal.toInt
  rx_nonneg : 0 ≤ (m.heap m.out).rxTotal.toInt
  tx_le : (m.heap m.out).txTotal.toInt ≤ m.totals.1.toInt
  rx_le : (m.heap m.out).rxTotal.toInt ≤ m.totals.2.toInt

/-- What an update leaves as the published object: a copy of `current` with
the new rates, the old one with its rates cleared, or the old one. -/
theorem requestUpdate_cases (m : TrafficMonitor) (now : Long) :
    ∃ m', (m.requestUpdate now).1 = m' ∧ m'.timestampLast = now
      ∧ (m'.heap m'.out =
            { m.heap m.current with
              txRate := ((m.totals.1 - (m.heap m.out).txTotal) * 1000).sdiv (now - m.timestampLast)
              rxRate := ((m.totals.2 - (m.heap m.out).rxTotal) * 1000).sdiv
                (now - m.timestampLast) }
          ∨ m'.heap m'.out = { m.heap m.out with txRate := 0, rxRate := 0 }
          ∨ m'.heap m'.out = m.heap m.out) := by
  refine ⟨_, rfl, ?_⟩
  simp only [requestUpdate]
  split
  next =>
    split
    next => exact ⟨rfl, Or.inl (Function.update_self _ _ _)⟩
    next => exact ⟨rfl, Or.inr (Or.inl (Function.update_self _ _ _))⟩
  next => exact ⟨rfl, Or.inr (Or.inr rfl)⟩

/-- Publishing keeps the published object behind. -/
theorem requestUpdate_published {m : TrafficMonitor} (hm : m.WF) (hp : Published m) {now : Long}
    (hnow : m.timestampLast.toInt ≤ now.toInt) : Published (m.requestUpdate now).1 := by
  have htotals := (requestUpdate_spec hm now).1
  have htx : 0 ≤ m.totals.1.toInt := Int.le_trans hp.tx_nonneg hp.tx_le
  have hrx : 0 ≤ m.totals.2.toInt := Int.le_trans hp.rx_nonneg hp.rx_le
  obtain ⟨m', hm', hts, hout⟩ := requestUpdate_cases m now
  rw [hm'] at htotals ⊢
  have hclock : 0 ≤ m'.timestampLast.toInt := by
    rw [hts]
    exact Int.le_trans hp.clock hnow
  rcases hout with hout | hout | hout
  · -- the copy carries the totals of `current` themselves
    constructor
    · exact hclock
    all_goals rw [hout]
    · exact htx
    · exact hrx
    · rw [htotals]
      exact Int.le_refl _
    · rw [htotals]
      exact Int.le_refl _
  all_goals
    constructor
    · exact hclock
    all_goals rw [hout]
    · exact hp.tx_nonneg
    · exact hp.rx_nonneg
    · rw [htotals]
      exact hp.tx_le
    · rw [htotals]
      exact hp.rx_le

/-- **An update computes no negative rate** when the clock has not run
backwards and the products fit. -/
theorem requestUpdate_ratesNonneg {s : Measured} (hp : Published s.monitor) {now : Long}
    (hnow : s.monitor.timestampLast.toInt ≤ now.toInt)
    (hfits : Bounded s (.requestUpdate now)) (hr : RatesNonneg s) :
    RatesNonneg { s with monitor := (s.monitor.requestUpdate now).1 } := by
  have hdelta : 0 ≤ (now - s.monitor.timestampLast).toInt := by
    have hclock := hp.clock
    have hlt := BitVec.toInt_lt (x := now)
    rw [Bits.toInt_sub_of_lt (by omega)]
    omega
  obtain ⟨m', hm', -, hout⟩ := requestUpdate_cases s.monitor now
  show 0 ≤ ((s.monitor.requestUpdate now).1.heap (s.monitor.requestUpdate now).1.out).txRate.toInt
    ∧ 0 ≤ ((s.monitor.requestUpdate now).1.heap (s.monitor.requestUpdate now).1.out).rxRate.toInt
  rw [hm']
  rcases hout with hout | hout | hout
  all_goals rw [hout]
  · exact ⟨rate_nonneg hp.tx_le hfits.1 hdelta, rate_nonneg hp.rx_le hfits.2 hdelta⟩
  · have hzero : (0 : Int) ≤ (0 : Long).toInt := by decide
    exact ⟨hzero, hzero⟩
  · exact hr

/-! ## §3. What a run keeps. -/

/-- Everything a report changes. -/
theorem step_report {s s' : Measured} {read : List Byte} (h : step s (.report read) = some s') :
    read.length = 16 ∧ s.latest ≤ counts read
      ∧ ∃ m, s.monitor.acceptInternal read = .ok m
        ∧ s' = { s with monitor := m, latest := counts read } := by
  simp only [step] at h
  split at h
  next hok =>
    split at h
    next m hm => exact ⟨hok.1, hok.2, m, hm, (Option.some.inj h).symm⟩
    next => exact absurd h (by simp)
  next => exact absurd h (by simp)

/-- **The totals are those of the incarnation that reported last**, whatever
the others have counted. -/
theorem totals_report {s s' : Measured} {read : List Byte}
    (h : step s (.report read) = some s') : s'.totals = counts read := by
  obtain ⟨h16, -, m, hm, rfl⟩ := step_report h
  have ht := (acceptInternal_spec hm).1
  rw [reported, if_pos h16] at ht
  show (m.totals.1.toInt, m.totals.2.toInt) = counts read
  rw [ht]
  rfl

/-- The traffic of the session only grows. -/
theorem traffic_le {s s' : Measured} {e : Event} (h : step s e = some s') :
    s.traffic ≤ s'.traffic := by
  cases e with
  | report read =>
      obtain ⟨-, hle, m, -, rfl⟩ := step_report h
      exact ⟨Int.add_le_add_right hle.1 _, Int.add_le_add_right hle.2 _⟩
  | restart =>
      obtain rfl := Option.some.inj h
      -- the counts of the exited incarnation move to the sum of the others
      show s.latest + s.earlier.sum ≤ 0 + (s.latest :: s.earlier).sum
      rw [List.sum_cons, zero_add]
  | requestUpdate now =>
      obtain ⟨-, rfl⟩ := of_enabled h
      exact le_refl s.traffic

theorem traffic_le_exec (es : List Event) (s s' : Measured) (h : exec step s es = some s') :
    s.traffic ≤ s'.traffic :=
  exec_invariant_all (I := fun t => s.traffic ≤ t.traffic)
    (fun _ _ _ hstep hle => le_trans hle (traffic_le hstep)) es s s' (le_refl _) h

/-- What an uninterrupted run keeps. -/
structure Inv (s : Measured) : Prop where
  wf : s.monitor.WF
  exact : Exact s
  published : Published s.monitor

theorem inv_new : Inv {} where
  wf := wf_new
  exact := rfl
  published := ⟨by decide, by decide, by decide, by decide, by decide⟩

theorem inv_step {s s' : Measured} {e : Event} (hc : Uninterrupted s e)
    (h : step s e = some s') (hs : Inv s) : Inv s' := by
  cases e with
  | report read =>
      have htotals := totals_report h
      obtain ⟨h16, hle, m, hm, rfl⟩ := step_report h
      -- a read touches neither the published object nor the clock
      have hassigned := acceptInternal_assigned hs.wf hm
      have hout : m.heap m.out = s.monitor.heap s.monitor.out := hassigned.out
      have hsum : s.earlier.sum = 0 := hc
      -- nothing was counted before this incarnation: the totals were its own
      have hgrown : s.totals ≤ counts read := by
        rw [hs.exact, Measured.traffic, hsum, add_zero]
        exact hle
      refine ⟨(acceptInternal_spec hm).2 hs.wf, ?_, ?_⟩
      · show Measured.totals _ = counts read + s.earlier.sum
        rw [htotals, hsum, add_zero]
      · have htx : m.totals.1.toInt = (counts read).1 := congrArg Prod.fst htotals
        have hrx : m.totals.2.toInt = (counts read).2 := congrArg Prod.snd htotals
        constructor
        · show 0 ≤ m.timestampLast.toInt
          rw [hassigned.timestampLast]
          exact hs.published.clock
        all_goals rw [hout]
        · exact hs.published.tx_nonneg
        · exact hs.published.rx_nonneg
        · rw [htx]
          exact le_trans hs.published.tx_le hgrown.1
        · rw [hrx]
          exact le_trans hs.published.rx_le hgrown.2
  | restart =>
      obtain rfl := Option.some.inj h
      refine ⟨hs.wf, ?_, hs.published⟩
      show s.totals = 0 + (s.latest :: s.earlier).sum
      rw [List.sum_cons, zero_add]
      exact hs.exact
  | requestUpdate now =>
      obtain ⟨hnow, rfl⟩ := of_enabled h
      obtain ⟨htotals, hwf⟩ := requestUpdate_spec hs.wf now
      refine ⟨hwf, ?_, requestUpdate_published hs.wf hs.published hnow⟩
      show ((s.monitor.requestUpdate now).1.totals.1.toInt,
        (s.monitor.requestUpdate now).1.totals.2.toInt) = s.traffic
      rw [htotals]
      exact hs.exact

/-- A report after an incarnation that has counted something loses it. -/
theorem exact_lost {s s' : Measured} {e : Event} (hc : ¬ Uninterrupted s e)
    (h : step s e = some s') : ¬ Exact s' := by
  cases e with
  | report read =>
      intro hexact
      have htotals := totals_report h
      obtain ⟨-, -, m, -, rfl⟩ := step_report h
      have hsum : counts read = counts read + s.earlier.sum := htotals.symm.trans hexact
      exact hc (left_eq_add.mp hsum)
  | restart => exact absurd trivial hc
  | requestUpdate now => exact absurd trivial hc

/-! ## §4. The totals of a whole session. -/

theorem ratesNonneg_step {s s' : Measured} {e : Event} (hb : Bounded s e)
    (h : step s e = some s') (hs : Inv s) (hr : RatesNonneg s) : RatesNonneg s' := by
  cases e with
  | report read =>
      obtain ⟨-, -, m, hm, rfl⟩ := step_report h
      have hout : m.heap m.out = s.monitor.heap s.monitor.out :=
        (acceptInternal_assigned hs.wf hm).out
      show 0 ≤ (m.heap m.out).txRate.toInt ∧ 0 ≤ (m.heap m.out).rxRate.toInt
      rw [hout]
      exact hr
  | restart =>
      obtain rfl := Option.some.inj h
      exact hr
  | requestUpdate now =>
      obtain ⟨hnow, rfl⟩ := of_enabled h
      exact requestUpdate_ratesNonneg hs.published hnow hb hr

/-- The amount persisted counts every incarnation. -/
theorem persisted_traffic {s : Measured} (hs : Inv s) {id : Long} {st : Storage} {p : Profile}
    (hopen : st.available = true) (hrow : st.db.get id = some p) :
    ∃ m' st', s.monitor.persistStats id st = (m', st', none)
      ∧ GrownBy id st st' (BitVec.ofInt 64 s.traffic.1, BitVec.ofInt 64 s.traffic.2) := by
  obtain ⟨m', st', p', hcall, -, -, -, hrow', htx, hrx⟩ := persistStats_spec hs.wf hopen hrow
  refine ⟨m', st', hcall, p, p', hrow, hrow', ?_, ?_⟩
  · rw [htx, ← hs.exact]
    show _ = p.tx + BitVec.ofInt 64 s.monitor.totals.1.toInt
    rw [BitVec.ofInt_toInt]
  · rw [hrx, ← hs.exact]
    show _ = p.rx + BitVec.ofInt 64 s.monitor.totals.2.toInt
    rw [BitVec.ofInt_toInt]

/-- **Which sessions keep their totals across restarts.**  The totals are
the sum over all incarnations in every state of a run exactly if each report
finds nothing counted by the earlier incarnations.  In such a run the totals
never decrease, no rate is negative as long as what is published fits, and
`persistStats` adds the traffic of every incarnation to the row. -/
theorem totals_survive_iff (es : List Event) (s : Measured) (hrun : exec step {} es = some s) :
    (Along step Exact {} es ↔ Meets step Uninterrupted {} es)
      ∧ (Meets step Uninterrupted {} es →
        (∀ pre post s₁, es = pre ++ post → exec step {} pre = some s₁ → s₁.totals ≤ s.totals)
          ∧ (Meets step Bounded {} es → RatesNonneg s)
          ∧ ∀ (id : Long) (st : Storage) (p : Profile), st.available = true →
              st.db.get id = some p →
              ∃ m' st', s.monitor.persistStats id st = (m', st', none)
                ∧ GrownBy id st st'
                    (BitVec.ofInt 64 s.traffic.1, BitVec.ofInt 64 s.traffic.2)) := by
  refine ⟨?_, fun hmeets => ?_⟩
  · exact along_iff_meets (I := Inv) (fun _ h => h.exact) (fun _ _ _ hc h hs => inv_step hc h hs)
      (fun _ _ _ hc h _ => exact_lost hc h) es {} s inv_new hrun
  have hinv : ∀ as t, Meets step Uninterrupted {} as → exec step {} as = some t → Inv t :=
    fun as t hm h =>
      exec_invariant (fun _ _ _ hc h hs => inv_step hc h hs) as {} t inv_new hm h
  have hs : Inv s := hinv es s hmeets hrun
  refine ⟨?_, fun hbounded => ?_, fun id st p hopen hrow => persisted_traffic hs hopen hrow⟩
  · rintro pre post s₁ rfl hpre
    obtain ⟨t, ht, hpost⟩ := exec_append.mp hrun
    obtain rfl := Option.some.inj (hpre.symm.trans ht)
    -- both ends are exact, and the traffic in between only grows
    rw [(hinv pre s₁ hmeets.of_append hpre).exact, hs.exact]
    exact traffic_le_exec post s₁ s hpost
  · -- the rates ride on the invariant: both conditions are met together
    have hboth : Inv s ∧ RatesNonneg s :=
      exec_invariant (I := fun t => Inv t ∧ RatesNonneg t)
        (fun _ _ _ hc h hs => ⟨inv_step hc.1 h hs.1, ratesNonneg_step hc.2 h hs.1 hs.2⟩)
        es {} s ⟨inv_new, by decide, by decide⟩ (hmeets.and hbounded) hrun
    exact hboth.2

/-- The report of an incarnation that has sent `tx` bytes, at most 255. -/
def sent (tx : Byte) : List Byte := tx :: List.replicate 15 0

/-- The hypotheses are met: an incarnation exits before it has counted
anything, the next one counts 200 bytes in two reports, and the rate is read
in between. -/
theorem totals_survive_idle_restart :
    ∃ s, exec step {} [.report (sent 0), .restart, .report (sent 100), .requestUpdate 1000,
        .report (sent 200)] = some s
      ∧ s.totals = (200, 0)
      ∧ Along step Exact {} [.report (sent 0), .restart, .report (sent 100), .requestUpdate 1000,
        .report (sent 200)]
      ∧ RatesNonneg s := by
  obtain ⟨s, hrun, htest⟩ := exists_of_exec_test step {}
    [.report (sent 0), .restart, .report (sent 100), .requestUpdate 1000, .report (sent 200)]
    (fun s => decide (s.totals = (200, 0))) (by decide +kernel)
  have h := totals_survive_iff _ s hrun
  have hmeets : Meets step Uninterrupted {} [.report (sent 0), .restart, .report (sent 100),
      .requestUpdate 1000, .report (sent 200)] := by decide +kernel
  exact ⟨s, hrun, of_decide_eq_true htest, h.1.mpr hmeets, (h.2 hmeets).2.1 (by decide +kernel)⟩

/-- **The traffic of the first incarnation is lost**: 100 bytes are
reported, `ss-local` is restarted, and its first report of 5 bytes takes the
totals from 100 down to 5, makes the next rate negative and leaves 5 bytes
to be persisted for a session that has sent 105. -/
theorem restart_loses_totals :
    ∃ s, exec step {} [.report (sent 100), .requestUpdate 1000, .restart, .report (sent 5),
        .requestUpdate 2000] = some s
      ∧ s.traffic = (105, 0) ∧ s.totals = (5, 0)
      ∧ (s.monitor.heap s.monitor.out).txRate.toInt = -95 := by
  obtain ⟨s, hrun, htest⟩ := exists_of_exec_test step {}
    [.report (sent 100), .requestUpdate 1000, .restart, .report (sent 5), .requestUpdate 2000]
    (fun s => decide (s.traffic = (105, 0) ∧ s.totals = (5, 0)
      ∧ (s.monitor.heap s.monitor.out).txRate.toInt = -95)) (by decide +kernel)
  exact ⟨s, hrun, of_decide_eq_true htest⟩

end FoxVpn.Bg.ProcessRestarts
