/-
  FoxVpn.Database.Profile
  ───────────────────────
  **THE PROFILE ROW AND ITS DAO.**

  `Profile` is the Room entity with every column; `PrivateDatabase` is the
  table and the DAO calls the modelled code makes on it (`profileDao[id]`,
  `update`, `create`, `nextOrder`).  Each DAO call is atomic and every write
  is a WHOLE-ROW write: the column it was meant to change and the columns it
  only carried along are stored alike.

  `dirty` is `@Ignore`d by Room: a row never holds it.
-/
import Mathlib.Data.BitVec
import Mathlib.Data.List.Basic

namespace FoxVpn.Database

/-- Kotlin's `Long`: 64 bits, wrapping. -/
abbrev Long := BitVec 64
abbrev Byte := BitVec 8

/-- `Profile.SubscriptionStatus`. -/
inductive SubscriptionStatus where
  | userConfigured
  | active
  | obsolete
  deriving Repr, DecidableEq

/-- `Profile`, with the defaults of its constructor. -/
structure Profile where
  id : Long := 22
  name : Option String := some ""
  host : String := "example.shadowsocks.org"
  remotePort : Int := 8388
  password : String := "u1rRWTssNv0p"
  method : String := "aes-256-cfb"
  route : String := "all"
  remoteDns : String := "dns.google"
  proxyApps : Bool := false
  bypass : Bool := false
  udpdns : Bool := false
  ipv6 : Bool := false
  metered : Bool := false
  individual : String := ""
  plugin : Option String := none
  udpFallback : Option Long := none
  subscription : SubscriptionStatus := .userConfigured
  tx : Long := 0
  rx : Long := 0
  userOrder : Long := 0
  dirty : Bool := false
  deriving Repr, DecidableEq

/-- The row Room stores for a profile. -/
def Profile.toRow (p : Profile) : Profile := { p with dirty := false }

@[simp] theorem toRow_id (p : Profile) : p.toRow.id = p.id := rfl

def Profile.formattedAddress (p : Profile) : String :=
  (if p.host.toList.contains ':' then "[" ++ p.host ++ "]" else p.host)
    ++ ":" ++ toString p.remotePort

def Profile.formattedName (p : Profile) : String :=
  match p.name with
  | none => p.formattedAddress
  | some name => if name = "" then p.formattedAddress else name

/-! ## §1. The DAO. -/

/-- The `Profile` table of `PrivateDatabase`. -/
structure PrivateDatabase where
  profiles : List Profile := []
  deriving Repr, DecidableEq

namespace PrivateDatabase

/-- `SELECT * FROM Profile WHERE id = :id`. -/
def get (db : PrivateDatabase) (id : Long) : Option Profile :=
  db.profiles.find? fun p => p.id == id

/-- `SELECT MAX(userOrder) + 1 FROM Profile`; `none` on an empty table. -/
def nextOrder (db : PrivateDatabase) : Option Long :=
  match db.profiles with
  | [] => none
  | p :: ps =>
      some (ps.foldl (fun m q => if m.slt q.userOrder then q.userOrder else m) p.userOrder + 1)

/-- `@Update`: replace the row with the same primary key. -/
def update (db : PrivateDatabase) (p : Profile) : PrivateDatabase :=
  { profiles := db.profiles.map fun q => if q.id = p.id then p.toRow else q }

/-- `@Insert`: `none` is the constraint failure on a primary key in use. -/
def create (db : PrivateDatabase) (p : Profile) : Option PrivateDatabase :=
  if (db.get p.id).isSome then none else some { profiles := db.profiles ++ [p.toRow] }

/-- A row is found under its own key. -/
theorem get_id {db : PrivateDatabase} {id : Long} {p : Profile} (h : db.get id = some p) :
    p.id = id := by
  have hkey := List.find?_some h
  exact eq_of_beq hkey

/-- A whole-row update is read back as written, if the row exists. -/
theorem get_update_same (db : PrivateDatabase) (p : Profile)
    (h : (db.get p.id).isSome = true) : (db.update p).get p.id = some p.toRow := by
  unfold get update at *
  revert h
  induction db.profiles with
  | nil => intro h; exact absurd h (by simp)
  | cons q qs ih =>
      intro h
      rw [List.map_cons, List.find?_cons]
      by_cases hq : q.id = p.id
      · rw [if_pos hq]
        simp
      · rw [if_neg hq, beq_eq_false_iff_ne.mpr hq]
        rw [List.find?_cons, beq_eq_false_iff_ne.mpr hq] at h
        exact ih h

/-- An update touches no other row. -/
theorem get_update_ne (db : PrivateDatabase) (p : Profile) {id : Long}
    (h : id ≠ p.id) : (db.update p).get id = db.get id := by
  unfold get update
  induction db.profiles with
  | nil => rfl
  | cons q qs ih =>
      rw [List.map_cons, List.find?_cons, List.find?_cons]
      by_cases hq : q.id = p.id
      · rw [if_pos hq, hq, toRow_id, beq_eq_false_iff_ne.mpr (Ne.symm h)]
        exact ih
      · rw [if_neg hq, ih]

end PrivateDatabase

end FoxVpn.Database
