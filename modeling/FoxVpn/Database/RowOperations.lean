/-
  FoxVpn.Database.RowOperations
  ─────────────────────────────
  **TWO KINDS OF READ-MODIFY-WRITE ON ONE ROW.**

  The service process runs `persistStats` (fetch the row, add the totals,
  write the row back), the UI process runs `Core.updateProfile` (fetch the
  row, set the server fields, write the row back).  Both write the WHOLE
  row, and nothing keeps the other from writing in between.

  Any number of such operations run here, each DAO call one step, in any
  order.  `row_right_iff_fresh`: the row is right all along a run exactly if
  every write is FRESH, i.e. finds the columns it only carries along as it
  has read them.
-/
import Mathlib.Algebra.BigOperators.Group.List.Basic
import Mathlib.Algebra.Group.Prod
import Mathlib.Logic.Function.Basic
import FoxVpn.Lib.Run
import FoxVpn.Database.ProfileManager

namespace FoxVpn.Database

open FoxVpn.Lib

/-! ## §1. The operations. -/

inductive RowOp where
  /-- `TrafficMonitor.persistStats` with these totals. -/
  | persistStats (txTotal rxTotal : Long)
  /-- `Core.updateProfile` with this server. -/
  | updateProfile (v : Server)
  deriving Repr, DecidableEq

/-- What an operation does to the row it has fetched. -/
def RowOp.apply : RowOp → Profile → Profile
  | .persistStats txTotal rxTotal, p => { p with tx := p.tx + txTotal, rx := p.rx + rxTotal }
  | .updateProfile v, p => v.writeTo p

/-- The amount an operation adds to the counters. -/
def RowOp.amount : RowOp → Long × Long
  | .persistStats txTotal rxTotal => (txTotal, rxTotal)
  | .updateProfile _ => 0

/-- What an operation carries along unchanged is still what it has read. -/
def RowOp.Carries : RowOp → Profile → Profile → Prop
  | .persistStats _ _, held, row =>
      held.server = row.server ∧ (held.tx, held.rx) = (row.tx, row.rx)
  | .updateProfile _, held, row => (held.tx, held.rx) = (row.tx, row.rx)

/-- Where an operation stands. -/
inductive OpPc where
  | idle
  /-- The row has been fetched, not yet written back. -/
  | holding (row : Profile)
  | finished
  deriving Repr, DecidableEq

/-- The table, the operations, and the list of those that have written. -/
structure RowState where
  storage : Storage
  pcs : Nat → OpPc := fun _ => .idle
  log : List RowOp := []

namespace RowState

inductive Label where
  | read (i : Nat)
  | write (i : Nat)
  deriving Repr, DecidableEq

def setPc (s : RowState) (i : Nat) (pc : OpPc) : RowState :=
  { s with pcs := Function.update s.pcs i pc }

/-- The fetch of operation `op`.  Without a row `persistStats` returns, and
`Core.updateProfile` creates one. -/
def read (s : RowState) (i : Nat) : RowOp → Option RowState
  | .persistStats _ _ =>
      match getProfile s.storage profileId with
      | .ok (some p) => some (s.setPc i (.holding p))
      | .ok none => some (s.setPc i .finished)
      | .error _ => none
  | .updateProfile _ =>
      match Core.fetchRow s.storage with
      | .ok (p, st) => some { s.setPc i (.holding p) with storage := st }
      | .error _ => none

/-- `updateProfile` of operation `op` with the row it holds. -/
def write (s : RowState) (i : Nat) (op : RowOp) (p : Profile) : Option RowState :=
  match updateProfile s.storage (op.apply p) with
  | .ok st => some { storage := st, pcs := Function.update s.pcs i .finished, log := s.log ++ [op] }
  | .error _ => none

/-- One DAO call; `ops i` is what operation `i` does. -/
def step (ops : Nat → RowOp) (s : RowState) : Label → Option RowState
  | .read i => if s.pcs i = .idle then s.read i (ops i) else none
  | .write i =>
      match s.pcs i with
      | .holding p => s.write i (ops i) p
      | _ => none

/-! ## §2. The right row. -/

/-- The server fields after the writes of `log`: those of the last
`Core.updateProfile`. -/
def serverAfter (p₀ : Profile) (log : List RowOp) :
    Option String × String × String × String × Int :=
  log.foldl (fun fields op =>
    match op with
    | .updateProfile v => v.fields
    | .persistStats _ _ => fields) p₀.server

def countersAfter (p₀ : Profile) (log : List RowOp) : Long × Long :=
  (p₀.tx, p₀.rx) + (log.map RowOp.amount).sum

/-- **No lost update**: the row has the server fields of the last
`Core.updateProfile` to write, and counts every amount persisted. -/
def Right (p₀ : Profile) (s : RowState) : Prop :=
  ∃ p, s.storage.db.get profileId = some p ∧ p.server = serverAfter p₀ s.log
    ∧ (p.tx, p.rx) = countersAfter p₀ s.log

/-- A write is fresh. -/
def Fresh (ops : Nat → RowOp) (s : RowState) : Label → Prop
  | .read _ => True
  | .write i =>
      ∀ held row, s.pcs i = .holding held → s.storage.db.get profileId = some row →
        (ops i).Carries held row

/-! ## §3. One write. -/

theorem apply_id (op : RowOp) (p : Profile) : (op.apply p).id = p.id := by
  cases op <;> rfl

theorem serverAfter_concat (p₀ : Profile) (log : List RowOp) (op : RowOp) :
    serverAfter p₀ (log ++ [op])
      = match op with
        | .updateProfile v => v.fields
        | .persistStats _ _ => serverAfter p₀ log := by
  unfold serverAfter
  rw [List.foldl_append]
  cases op <;> rfl

theorem countersAfter_concat (p₀ : Profile) (log : List RowOp) (op : RowOp) :
    countersAfter p₀ (log ++ [op]) = countersAfter p₀ log + op.amount := by
  unfold countersAfter
  rw [List.map_append, List.sum_append, List.map_singleton, List.sum_singleton, add_assoc]

/-- What the applied operation leaves in a held row. -/
theorem apply_columns (op : RowOp) (held : Profile) :
    (op.apply held).server
        = (match op with
          | .updateProfile v => v.fields
          | .persistStats _ _ => held.server)
      ∧ ((op.apply held).tx, (op.apply held).rx) = (held.tx, held.rx) + op.amount := by
  cases op with
  | persistStats txTotal rxTotal => exact ⟨rfl, rfl⟩
  | updateProfile v => exact ⟨rfl, (add_zero _).symm⟩

/-- Writing a held row back onto a right row leaves it right exactly if the
operation carries nothing stale. -/
theorem right_apply_iff {p₀ held row : Profile} {log : List RowOp} (op : RowOp)
    (hserver : row.server = serverAfter p₀ log)
    (hcount : (row.tx, row.rx) = countersAfter p₀ log) :
    ((op.apply held).server = serverAfter p₀ (log ++ [op])
        ∧ ((op.apply held).tx, (op.apply held).rx) = countersAfter p₀ (log ++ [op]))
      ↔ op.Carries held row := by
  obtain ⟨hs, hc⟩ := apply_columns op held
  rw [hs, hc, serverAfter_concat, countersAfter_concat, ← hcount]
  cases op with
  | persistStats txTotal rxTotal =>
      rw [add_left_inj]
      show held.server = serverAfter p₀ log ∧ _ ↔ held.server = row.server ∧ _
      rw [hserver]
  | updateProfile v =>
      rw [add_left_inj]
      exact ⟨fun h => h.2, fun h => ⟨rfl, h⟩⟩

/-! ## §4. Whole runs. -/

/-- The table can be opened, has the row, and every row held is a copy of
some state of it. -/
structure WF (s : RowState) : Prop where
  opened : s.storage.available = true
  row : (s.storage.db.get profileId).isSome = true
  held : ∀ i p, s.pcs i = .holding p → p.id = profileId

/-- A read fetches the row and changes nothing else. -/
theorem read_spec {s s' : RowState} {i : Nat} {op : RowOp} (hw : s.WF)
    (h : s.read i op = some s') :
    s'.WF ∧ s'.storage = s.storage ∧ s'.log = s.log := by
  obtain ⟨p, hp⟩ := Option.isSome_iff_exists.mp hw.row
  have hget : getProfile s.storage profileId = .ok (some p) := by
    rw [getProfile_open hw.opened, hp]
  -- the row is there, so both operations find it
  have hs : s.setPc i (.holding p) = s' := by
    cases op with
    | persistStats tx rx =>
        simp only [read, hget] at h
        exact Option.some.inj h
    | updateProfile v =>
        simp only [read, Core.fetchRow, hget] at h
        exact Option.some.inj h
  subst hs
  refine ⟨⟨hw.opened, hw.row, fun k q hq => ?_⟩, rfl, rfl⟩
  have hq' : Function.update s.pcs i (.holding p) k = .holding q := hq
  by_cases hk : k = i
  · rw [hk, Function.update_self] at hq'
    injection hq' with hq'
    rw [← hq']
    exact PrivateDatabase.get_id hp
  · rw [Function.update_of_ne hk] at hq'
    exact hw.held k q hq'

/-- A write stores the row it holds, whatever the table has become. -/
theorem write_spec {s s' : RowState} {i : Nat} {op : RowOp} {held : Profile} (hw : s.WF)
    (hpc : s.pcs i = .holding held) (h : s.write i op held = some s') :
    s'.WF ∧ s'.storage.db.get profileId = some (op.apply held).toRow
      ∧ s'.log = s.log ++ [op] := by
  have hid : (op.apply held).id = profileId := (apply_id op held).trans (hw.held i held hpc)
  have hsome : (s.storage.db.get (op.apply held).id).isSome = true := by
    rw [hid]
    exact hw.row
  have hupd := updateProfile_present hw.opened hsome
  have hget := PrivateDatabase.get_update_same s.storage.db (op.apply held) hsome
  rw [hid] at hget
  simp only [write, hupd] at h
  injection h with h
  subst h
  refine ⟨⟨hw.opened, by rw [hget]; rfl, fun k q hq => ?_⟩, hget, rfl⟩
  have hq' : Function.update s.pcs i .finished k = .holding q := hq
  by_cases hk : k = i
  · rw [hk, Function.update_self] at hq'
    exact absurd hq' (by simp)
  · rw [Function.update_of_ne hk] at hq'
    exact hw.held k q hq'

/-- **One step**: from a right row a step leads to a right row exactly if it
is fresh. -/
theorem right_step_iff {ops : Nat → RowOp} {p₀ : Profile} {s s' : RowState} {l : Label}
    (hw : s.WF) (hr : s.Right p₀) (hs : step ops s l = some s') :
    s'.WF ∧ (s'.Right p₀ ↔ Fresh ops s l) := by
  obtain ⟨row, hrow, hserver, hcount⟩ := hr
  cases l with
  | read i =>
      simp only [step] at hs
      split at hs
      next =>
        obtain ⟨hw', hst, hlog⟩ := read_spec hw hs
        refine ⟨hw', fun _ => trivial, fun _ => ⟨row, ?_, ?_, ?_⟩⟩
        · rw [hst]
          exact hrow
        · rw [hlog]
          exact hserver
        · rw [hlog]
          exact hcount
      next => exact absurd hs (by simp)
  | write i =>
      simp only [step] at hs
      split at hs
      next held hpc =>
        obtain ⟨hw', hget, hlog⟩ := write_spec hw hpc hs
        refine ⟨hw', ?_⟩
        have hfresh : Fresh ops s (.write i) ↔ (ops i).Carries held row := by
          constructor
          · intro h
            exact h held row hpc hrow
          · intro h held' row' hpc' hrow'
            rw [hpc] at hpc'
            injection hpc' with hpc'
            obtain rfl : row = row' := Option.some.inj (hrow.symm.trans hrow')
            rw [← hpc']
            exact h
        rw [hfresh, ← right_apply_iff (ops i) hserver hcount]
        constructor
        · intro h
          obtain ⟨p, hp, hs₁, hc₁⟩ := h
          obtain rfl : ((ops i).apply held).toRow = p := Option.some.inj (hget.symm.trans hp)
          rw [hlog] at hs₁ hc₁
          exact ⟨hs₁, hc₁⟩
        · intro h
          refine ⟨_, hget, ?_, ?_⟩
          · rw [hlog]
            exact h.1
          · rw [hlog]
            exact h.2
      next => exact absurd hs (by simp)

/-- **No lost update, exactly.**  From a table with the row, the row is
right in every state of a run if and only if every write of the run is
fresh; in particular a run of fresh writes ends with a right row. -/
theorem row_right_iff_fresh (ops : Nat → RowOp) (st : Storage) (p₀ : Profile) (ls : List Label)
    (hopen : st.available = true) (hrow : st.db.get profileId = some p₀)
    (hrun : (exec (step ops) { storage := st } ls).isSome = true) :
    Along (step ops) (Right p₀) { storage := st } ls
      ↔ Meets (step ops) (Fresh ops) { storage := st } ls := by
  obtain ⟨s', hs'⟩ := Option.isSome_iff_exists.mp hrun
  refine along_iff_meets (I := fun s => s.WF ∧ s.Right p₀) (fun _ h => h.2) ?_ ?_ ls _ s' ?_ hs'
  · intro s l s' hC hs h
    have hstep := right_step_iff h.1 h.2 hs
    exact ⟨hstep.1, hstep.2.mpr hC⟩
  · intro s l s' hC hs h hr
    exact hC ((right_step_iff h.1 h.2 hs).2.mp hr)
  · refine ⟨⟨hopen, by rw [hrow]; rfl, fun i p hp => absurd hp (by simp)⟩, p₀, hrow, rfl, ?_⟩
    exact (add_zero _).symm

/-- The counters of a closing session, and the server chosen meanwhile. -/
def switchOps : Nat → RowOp
  | 0 => .persistStats 1 2
  | _ => .updateProfile ⟨"10.0.0.1", "city", "aes-256-gcm", "secret", 443⟩

/-- One after the other, both survive. -/
theorem row_right_sequential :
    Along (step switchOps) (Right {}) { storage := { db := ⟨[{}]⟩ } }
      [.read 0, .write 0, .read 1, .write 1] := by
  refine (row_right_iff_fresh switchOps { db := ⟨[{}]⟩ } {} [.read 0, .write 0, .read 1, .write 1]
    rfl rfl (by decide)).mpr ?_
  refine ⟨trivial, fun s₁ h₁ => ⟨?_, fun s₂ h₂ => ⟨trivial, fun s₃ h₃ => ⟨?_, fun _ _ => trivial⟩⟩⟩⟩
  · obtain rfl := Option.some.inj h₁
    intro held row hheld hrow
    obtain rfl := OpPc.holding.inj hheld
    obtain rfl := Option.some.inj hrow
    exact ⟨rfl, rfl⟩
  · obtain rfl := Option.some.inj h₁
    obtain rfl := Option.some.inj h₂
    obtain rfl := Option.some.inj h₃
    intro held row hheld hrow
    obtain rfl := OpPc.holding.inj hheld
    obtain rfl := Option.some.inj hrow
    rfl

/-- Interleaved, the counters of the old session bring the old server
back. -/
theorem row_server_lost :
    ∃ s, exec (step switchOps) { storage := { db := ⟨[{}]⟩ } }
        [.read 0, .read 1, .write 1, .write 0] = some s
      ∧ s.pcs 0 = .finished ∧ s.pcs 1 = .finished ∧ ¬ s.Right {} := by
  obtain ⟨s, hrun, htest⟩ := exists_of_exec_test (step switchOps) { storage := { db := ⟨[{}]⟩ } }
    [.read 0, .read 1, .write 1, .write 0]
    (fun s => (s.pcs 0 = .finished ∧ s.pcs 1 = .finished)
      ∧ (s.storage.db.get profileId).map Profile.server ≠ some (serverAfter {} s.log)) (by decide)
  obtain ⟨⟨h₀, h₁⟩, hlost⟩ := of_decide_eq_true htest
  refine ⟨s, hrun, h₀, h₁, fun hright => ?_⟩
  obtain ⟨p, hp, hserver, _⟩ := hright
  rw [hp] at hlost
  exact hlost (congrArg some hserver)

end RowState

end FoxVpn.Database
