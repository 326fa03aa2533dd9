/-
  FoxVpn.Utils.Fault
  ──────────────────
  **THE EXCEPTIONS OF THE PROFILE AND THE PLUGIN CODE.**

  The two packages call each other, and an exception of one passes through
  the other: a profile that is parsed reads its plugin options, and a plugin
  list that is built checks its entries.  Calls that throw return in `Except`
  with one of these.
-/
import Mathlib.Init

namespace FoxVpn

/-- The exceptions the modelled calls throw. -/
inductive Fault where
  /-- IOException: the database cannot be opened. -/
  | io
  /-- A failed `check` or `error`, with its message. -/
  | illegalState (message : String)
  /-- SQLException on an insert or an update. -/
  | sql
  | nullPointer
  | noSuchElement
  deriving Repr, DecidableEq

end FoxVpn
