/-
  FoxVpn.Database.ProfileManager
  ──────────────────────────────
  **THE PROFILE STORE AS THE CODE SEES IT.**

  `Storage` is what survives a process: the private database, which cannot
  be opened before the first unlock of the device, and the device file of
  `DirectBoot`.  On it stand `ProfileManager`, `DirectBoot` and the two
  entry points of `Core` that read and write a profile:

      getProfile / updateProfile / createProfile / expand
      DirectBoot.getDeviceProfile / update
      Core.currentProfile / Core.updateProfile

  `Core.updateProfile` is a READ-MODIFY-WRITE of a whole row: the read is
  `getProfile(22)`, the write is `updateProfile`, nothing holds the row in
  between.  Its parts have names of their own (`Core.fetchRow`,
  `Server.writeTo`).
-/
import FoxVpn.Utils.Fault
import FoxVpn.Database.Profile

namespace FoxVpn.Database

/-- `ProfileManager.ExpandedProfile`. -/
structure ExpandedProfile where
  main : Profile
  udpFallback : Option Profile
  deriving Repr, DecidableEq

def ExpandedProfile.toList (e : ExpandedProfile) : List Profile :=
  e.main :: e.udpFallback.toList

/-- The persistent state the profile code works on. -/
structure Storage where
  db : PrivateDatabase := {}
  /-- The private database can be opened. -/
  available : Bool := true
  /-- `DataStore.directBootAware`. -/
  directBootAware : Bool := false
  /-- The file `directBootProfile`, if it can be read. -/
  device : Option ExpandedProfile := none
  deriving Repr, DecidableEq

/-- `DataStore.profileId`. -/
def profileId : Long := 22

/-! ## §1. `ProfileManager`. -/

/-- `ProfileManager.getProfile(id)`. -/
def getProfile (st : Storage) (id : Long) : Except Fault (Option Profile) :=
  if st.available then .ok (st.db.get id) else .error .io

theorem getProfile_open {st : Storage} (h : st.available = true) (id : Long) :
    getProfile st id = .ok (st.db.get id) := if_pos h

theorem getProfile_closed {st : Storage} (h : st.available = false) (id : Long) :
    getProfile st id = .error .io := if_neg (by simp [h])

theorem getProfile_get {st : Storage} {id : Long} {p : Profile}
    (h : getProfile st id = .ok (some p)) : st.db.get id = some p := by
  unfold getProfile at h
  split at h
  next => exact Except.ok.inj h
  next => exact absurd h (by simp)

theorem getProfile_id {st : Storage} {id : Long} {p : Profile}
    (h : getProfile st id = .ok (some p)) : p.id = id :=
  PrivateDatabase.get_id (getProfile_get h)

/-- `ProfileManager.updateProfile(profile)`: one row must have changed. -/
def updateProfile (st : Storage) (p : Profile) : Except Fault Storage :=
  if st.available then
    if (st.db.get p.id).isSome then .ok { st with db := st.db.update p }
    else .error (.illegalState "Check failed.")
  else .error .sql

/-- A row that exists is updated. -/
theorem updateProfile_present {st : Storage} {p : Profile} (h : st.available = true)
    (hp : (st.db.get p.id).isSome = true) :
    updateProfile st p = .ok { st with db := st.db.update p } := by
  unfold updateProfile
  rw [if_pos h, if_pos hp]

/-- A row that was updated existed, and only the table has changed. -/
theorem updateProfile_ok {st st' : Storage} {p : Profile} (h : updateProfile st p = .ok st') :
    st' = { st with db := st.db.update p } ∧ (st.db.get p.id).isSome = true := by
  unfold updateProfile at h
  split at h
  next =>
    split at h
    next hsome => exact ⟨(Except.ok.inj h).symm, hsome⟩
    next => exact absurd h (by simp)
  next => exact absurd h (by simp)

/-- The row under a key after an update. -/
theorem get_updateProfile {st st' : Storage} {p : Profile} (h : updateProfile st p = .ok st')
    (id : Long) : st'.db.get id = if id = p.id then some p.toRow else st.db.get id := by
  obtain ⟨rfl, hsome⟩ := updateProfile_ok h
  split
  next he =>
    rw [he]
    exact PrivateDatabase.get_update_same st.db p hsome
  next hne => exact PrivateDatabase.get_update_ne st.db p hne

/-- `ProfileManager.createProfile()` on a fresh `Profile()`. -/
def createProfile (st : Storage) : Except Fault (Profile × Storage) :=
  if st.available then
    let profile : Profile := { id := 22, userOrder := st.db.nextOrder.getD 0 }
    match st.db.create profile with
    | some db => .ok (profile, { st with db := db })
    | none => .error .sql
  else .error .sql

/-- A created row is row 22, and nothing but the table changes. -/
theorem createProfile_spec {st st' : Storage} {p : Profile}
    (h : createProfile st = .ok (p, st')) :
    p.id = profileId ∧ st'.directBootAware = st.directBootAware := by
  unfold createProfile at h
  split at h
  next =>
    dsimp only at h
    split at h
    next db _ =>
      injection h with h
      injection h with hp hst
      rw [← hp, ← hst]
      exact ⟨rfl, rfl⟩
    next => exact absurd h (by simp)
  next => exact absurd h (by simp)

/-- `ProfileManager.expand(profile)`. -/
def expand (st : Storage) (p : Profile) : Except Fault ExpandedProfile :=
  match p.udpFallback with
  | none => .ok ⟨p, none⟩
  | some id => (getProfile st id).map fun fallback => ⟨p, fallback⟩

/-! ## §2. `DirectBoot`. -/

/-- `DirectBoot.update(profile)`: the storage afterwards, and the exception
if one was thrown.  The file is opened, and so TRUNCATED, before `expand` is
called: if that throws, the file can no longer be read. -/
def DirectBoot.update (st : Storage) : Option Profile → Storage × Option Fault
  | none => ({ st with device := none }, none)
  | some p =>
      match expand st p with
      | .ok e => ({ st with device := some e }, none)
      | .error e => ({ st with device := none }, some e)

/-- `if (profile.dirty) ProfileManager.updateProfile(profile)`, on the main
profile and then on the fallback; an exception ends it. -/
def DirectBoot.flushProfiles (st : Storage) : List Profile → Storage × Option Fault
  | [] => (st, none)
  | p :: ps =>
      if p.dirty then
        match updateProfile st p with
        | .ok st' => flushProfiles st' ps
        | .error e => (st, some e)
      else flushProfiles st ps

/-- `DirectBoot.flushTrafficStats()`. -/
def DirectBoot.flushTrafficStats (st : Storage) : Storage × Option Fault :=
  match flushProfiles st ((st.device.map ExpandedProfile.toList).getD []) with
  | (st', some e) => (st', some e)
  | (st', none) =>
      match getProfile st' profileId with
      | .ok p => DirectBoot.update st' p
      | .error e => (st', some e)

/-! ## §3. `Core`. -/

/-- `Core.currentProfile`. -/
def Core.currentProfile (st : Storage) : Except Fault (Option ExpandedProfile) :=
  match (if st.directBootAware then st.device else none) with
  | some e => .ok (some e)
  | none =>
      match getProfile st profileId with
      | .error e => .error e
      | .ok none => .ok none
      | .ok (some p) => (expand st p).map some

/-- The arguments of `Core.updateProfile`: the server fields of a row. -/
structure Server where
  ip : String
  name : String
  method : String
  pwd : String
  port : Int
  deriving Repr, DecidableEq

/-- The assignments of `Core.updateProfile` on the profile it has read. -/
def Server.writeTo (v : Server) (p : Profile) : Profile :=
  { p with host := v.ip, method := v.method, password := v.pwd, remotePort := v.port,
           name := some v.name }

/-- The server fields of a row, as `Core.updateProfile` sets them. -/
def Profile.server (p : Profile) : Option String × String × String × String × Int :=
  (p.name, p.host, p.method, p.password, p.remotePort)

def Server.fields (v : Server) : Option String × String × String × String × Int :=
  (some v.name, v.ip, v.method, v.pwd, v.port)

/-- `getProfile(22) ?: createProfile()`: the row `Core.updateProfile` is to
write. -/
def Core.fetchRow (st : Storage) : Except Fault (Profile × Storage) :=
  match getProfile st profileId with
  | .error e => .error e
  | .ok (some p) => .ok (p, st)
  | .ok none => createProfile st

/-- What a fetch guarantees, whatever it finds. -/
theorem Core.fetchRow_spec {st st' : Storage} {p : Profile}
    (h : Core.fetchRow st = .ok (p, st')) :
    p.id = profileId ∧ st'.directBootAware = st.directBootAware := by
  unfold Core.fetchRow at h
  split at h
  next => cases h
  next q hget =>
    obtain ⟨rfl, rfl⟩ := Prod.mk.inj (Except.ok.inj h)
    exact ⟨getProfile_id hget, rfl⟩
  next => exact createProfile_spec h

/-- `Core.updateProfile(ip, name, method, pwd, port)`, run without anything
in between. -/
def Core.updateProfile (st : Storage) (v : Server) : Except Fault Storage := do
  let (p, st') ← Core.fetchRow st
  FoxVpn.Database.updateProfile st' (v.writeTo p)

end FoxVpn.Database
