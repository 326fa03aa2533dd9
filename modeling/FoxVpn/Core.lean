/-
  FoxVpn.Core
  ───────────
  **THE ACL ASSETS ARE INSTALLED BY `Core.init`.**

  A start of the app that finds another time in `assetUpdateTime` than the
  `lastUpdateTime` of its package copies the ACL assets into
  `noBackupFilesDir` and records the time.  The loop may stop anywhere: in
  the listing, before a file is opened, in the middle of one.

      an IOException   is caught and logged, and the time is recorded ALL
                       THE SAME: the record stands outside the `try`
      anything else    ends the process before the record

  `Installed` is what the record should mean, and `Retries` what a start
  that fails should leave behind.  `installed_along_iff`: the record means
  it along exactly those sequences of starts and updates in which every
  swallowed exception has left no asset missing.  Main result
  `assets_recorded_iff`: both hold along those in which no start that copies
  swallows an exception at all.
-/
import Mathlib.Data.List.TakeDrop
import Mathlib.Logic.Function.Basic
import FoxVpn.Lib.LinkedMap
import FoxVpn.Lib.Run

namespace FoxVpn.Core

open FoxVpn.Lib

/-! ## §1. Packages, files and the copying loop. -/

abbrev Bytes := List UInt8

/-- An installed version of the app. -/
structure Package where
  lastUpdateTime : Int
  /-- The files of `assets/acl`, in the order they are listed. -/
  assets : LinkedMap String Bytes
  installed : 0 ≤ lastUpdateTime

/-- A file in `noBackupFilesDir`: the version it was copied from, by its
time, and what has arrived of it. -/
structure AssetFile where
  version : Int
  bytes : Bytes
  deriving Repr, DecidableEq

abbrev Files := String → Option AssetFile

/-- `File(noBackupFilesDir, file).outputStream()`, with what is written to
it. -/
def write (files : Files) (name : String) (version : Int) (bytes : Bytes) : Files :=
  Function.update files name (some ⟨version, bytes⟩)

/-- Where the loop stops. -/
inductive Stop where
  /-- `assetManager.list` throws. -/
  | list
  /-- At an asset: without its file having been opened, or with so many
  bytes written. -/
  | asset (index : Nat) (written : Option Nat)
  deriving Repr, DecidableEq

/-- The loop, up to an asset at which it stops. -/
def copyTo (version : Int) : List (String × Bytes) → Nat → Option Nat → Files → Files
  | [], _, _, files => files
  | (name, content) :: rest, index + 1, written, files =>
      copyTo version rest index written (write files name version content)
  | _ :: _, 0, none, files => files
  | (name, content) :: _, 0, some n, files => write files name version (content.take n)

/-- The whole loop. -/
def copyAll (version : Int) (assets : List (String × Bytes)) (files : Files) : Files :=
  assets.foldl (fun files asset => write files asset.1 version asset.2) files

def copyUpTo (p : Package) (files : Files) : Stop → Files
  | .list => files
  | .asset index written => copyTo p.lastUpdateTime p.assets.entries index written files

/-- The package, its files and the record, `assetUpdateTime` in the public
store. -/
structure Installation where
  package : Package
  files : Files := fun _ => none
  assetUpdateTime : Option Int := none

/-- How a start ends. -/
inductive Outcome where
  | finished
  /-- An IOException at this place. -/
  | thrown (stop : Stop)
  /-- The process ends at this place, by another exception or from
  outside. -/
  | killed (stop : Stop)
  deriving Repr, DecidableEq

/-- The part of `Core.init` that installs the assets. -/
def init (s : Installation) (outcome : Outcome) : Installation :=
  if s.assetUpdateTime.getD (-1) ≠ s.package.lastUpdateTime then
    match outcome with
    | .finished =>
        { s with
          files := copyAll s.package.lastUpdateTime s.package.assets.entries s.files
          assetUpdateTime := some s.package.lastUpdateTime }
    | .thrown stop =>
        -- caught, and the record is written behind the `catch`
        { s with
          files := copyUpTo s.package s.files stop
          assetUpdateTime := some s.package.lastUpdateTime }
    | .killed stop => { s with files := copyUpTo s.package s.files stop }
  else s

/-! ## §2. Starts and updates. -/

/-- The stop is at an asset of the package. -/
def Stop.Within (p : Package) : Stop → Prop
  | .list => True
  | .asset index _ => index < p.assets.entries.length

def Outcome.Within (p : Package) : Outcome → Prop
  | .finished => True
  | .thrown stop => stop.Within p
  | .killed stop => stop.Within p

instance (p : Package) (stop : Stop) : Decidable (stop.Within p) :=
  match stop with
  | .list => isTrue trivial
  | .asset _ _ => inferInstanceAs (Decidable (_ < _))

instance (p : Package) (outcome : Outcome) : Decidable (outcome.Within p) :=
  match outcome with
  | .finished => isTrue trivial
  | .thrown stop => inferInstanceAs (Decidable (stop.Within p))
  | .killed stop => inferInstanceAs (Decidable (stop.Within p))

inductive Label where
  | start (outcome : Outcome)
  /-- Another version is installed over this one. -/
  | update (p : Package)

def step (s : Installation) : Label → Option Installation
  | .start outcome => if outcome.Within s.package then some (init s outcome) else none
  | .update p =>
      if s.package.lastUpdateTime < p.lastUpdateTime then some { s with package := p } else none

/-- An asset is there in full, from this version. -/
def Copied (version : Int) (files : Files) (asset : String × Bytes) : Prop :=
  files asset.1 = some ⟨version, asset.2⟩

/-- **What the record should mean**: if it has the time of the package,
every asset of the package has been copied in full since its
installation. -/
def Installed (s : Installation) : Prop :=
  s.assetUpdateTime = some s.package.lastUpdateTime →
    ∀ asset ∈ s.package.assets.entries, Copied s.package.lastUpdateTime s.files asset

/-- The test of `init`: a start copies. -/
def Copies (s : Installation) : Prop := s.assetUpdateTime.getD (-1) ≠ s.package.lastUpdateTime

/-- **A start that fails part-way is made up for**: the next one copies
again. -/
def Retries (s : Installation) : Label → Prop
  | .start outcome => outcome ≠ .finished → Copies s → Copies (init s outcome)
  | .update _ => True

/-- No start that copies swallows an IOException. -/
def Unswallowed (s : Installation) : Label → Prop
  | .start (.thrown _) => ¬ Copies s
  | _ => True

/-- Stopping here leaves no asset missing: the file that was being written
has all its bytes, and all that was not reached is there from a start
before. -/
def NoneMissing (p : Package) (files : Files) : Stop → Prop
  | .list => ∀ asset ∈ p.assets.entries, Copied p.lastUpdateTime files asset
  | .asset index none =>
      ∀ asset ∈ p.assets.entries.drop index, Copied p.lastUpdateTime files asset
  | .asset index (some n) =>
      (∀ asset ∈ (p.assets.entries.drop index).head?, asset.2.length ≤ n)
        ∧ ∀ asset ∈ p.assets.entries.drop (index + 1), Copied p.lastUpdateTime files asset

/-- An exception that is swallowed has done no harm. -/
def Harmless (s : Installation) : Label → Prop
  | .start (.thrown stop) =>
      s.assetUpdateTime ≠ some s.package.lastUpdateTime → NoneMissing s.package s.files stop
  | _ => True

/-! ## §3. What the loop leaves. -/

section Loop

variable {version : Int}

theorem write_self (files : Files) (name : String) (bytes : Bytes) :
    write files name version bytes name = some ⟨version, bytes⟩ := Function.update_self _ _ _

theorem write_of_ne (files : Files) {name name' : String} (h : name' ≠ name) (bytes : Bytes) :
    write files name version bytes name' = files name' := Function.update_of_ne h _ _

theorem copyAll_frame {name : String} : ∀ (assets : List (String × Bytes)) (files : Files),
    name ∉ assets.map Prod.fst → copyAll version assets files name = files name
  | [], _, _ => rfl
  | asset :: rest, files, h => by
      obtain ⟨hne, hrest⟩ := not_or.mp (mt List.mem_cons.mpr h)
      exact (copyAll_frame rest _ hrest).trans (write_of_ne files hne _)

theorem copyTo_frame {name : String} : ∀ (assets : List (String × Bytes)) (index : Nat)
    (written : Option Nat) (files : Files), name ∉ assets.map Prod.fst →
    copyTo version assets index written files name = files name
  | [], _, _, _, _ => rfl
  | asset :: rest, index + 1, written, files, h => by
      obtain ⟨hne, hrest⟩ := not_or.mp (mt List.mem_cons.mpr h)
      exact (copyTo_frame rest index written _ hrest).trans (write_of_ne files hne _)
  | _ :: _, 0, none, _, _ => rfl
  | asset :: rest, 0, some n, files, h => by
      obtain ⟨hne, -⟩ := not_or.mp (mt List.mem_cons.mpr h)
      exact write_of_ne files hne _

/-- **The whole loop** copies every asset. -/
theorem copyAll_copied : ∀ (assets : List (String × Bytes)) (files : Files),
    (assets.map Prod.fst).Nodup →
      ∀ asset ∈ assets, Copied version (copyAll version assets files) asset
  | asset :: rest, files, hnd, a, ha => by
      obtain ⟨hfresh, hnd⟩ := List.nodup_cons.mp hnd
      rcases List.mem_cons.mp ha with rfl | ha
      · -- no later asset has its name
        exact (copyAll_frame rest _ hfresh).trans (write_self files _ _)
      · exact copyAll_copied rest _ hnd a ha

/-- A write does not concern the assets of other names. -/
theorem copied_write_iff {files : Files} {name : String} {bytes : Bytes}
    {rest : List (String × Bytes)} (hfresh : ∀ asset ∈ rest, asset.1 ≠ name) :
    (∀ asset ∈ rest, Copied version (write files name version bytes) asset)
      ↔ ∀ asset ∈ rest, Copied version files asset := by
  refine forall₂_congr fun asset ha => ?_
  unfold Copied
  rw [write_of_ne files (hfresh asset ha)]

theorem ne_of_fresh {name : String} {rest : List (String × Bytes)}
    (hfresh : name ∉ rest.map Prod.fst) : ∀ asset ∈ rest, asset.1 ≠ name := by
  rintro asset ha rfl
  exact hfresh (List.mem_map_of_mem ha)

/-- A loop that has gone past an asset has copied it. -/
theorem copyTo_head {asset : String × Bytes} {rest : List (String × Bytes)}
    (hfresh : asset.1 ∉ rest.map Prod.fst) (index : Nat) (written : Option Nat) (files : Files) :
    Copied version (copyTo version (asset :: rest) (index + 1) written files) asset :=
  (copyTo_frame rest index written _ hfresh).trans (write_self files _ _)

/-- **A loop that stops before it opens a file** leaves no asset missing
exactly if none is missing from there on. -/
theorem copyTo_none_iff : ∀ (assets : List (String × Bytes)) (index : Nat) (files : Files),
    (assets.map Prod.fst).Nodup →
    ((∀ asset ∈ assets, Copied version (copyTo version assets index none files) asset)
      ↔ ∀ asset ∈ assets.drop index, Copied version files asset)
  | [], _, _, _ => by simp
  | _ :: _, 0, _, _ => Iff.rfl
  | asset :: rest, index + 1, files, hnd => by
      obtain ⟨hfresh, hnd⟩ := List.nodup_cons.mp hnd
      have hothers : ∀ a ∈ rest.drop index, a.1 ≠ asset.1 := fun a ha =>
        ne_of_fresh hfresh a (List.mem_of_mem_drop ha)
      rw [List.forall_mem_cons, and_iff_right (copyTo_head hfresh index none files),
        List.drop_succ_cons, ← copied_write_iff hothers]
      exact copyTo_none_iff rest index _ hnd

/-- **A loop that stops in a file** leaves no asset missing exactly if that
file is complete and none is missing behind it. -/
theorem copyTo_some_iff (n : Nat) : ∀ (assets : List (String × Bytes)) (index : Nat)
    (files : Files), (assets.map Prod.fst).Nodup →
    ((∀ asset ∈ assets, Copied version (copyTo version assets index (some n) files) asset)
      ↔ (∀ asset ∈ (assets.drop index).head?, asset.2.length ≤ n)
        ∧ ∀ asset ∈ assets.drop (index + 1), Copied version files asset)
  | [], _, _, _ => by simp
  | asset :: rest, 0, files, hnd => by
      obtain ⟨hfresh, -⟩ := List.nodup_cons.mp hnd
      have hhead : Copied version (write files asset.1 version (asset.2.take n)) asset
          ↔ asset.2.length ≤ n := by
        unfold Copied
        rw [write_self, Option.some.injEq, AssetFile.mk.injEq, and_iff_right rfl,
          List.take_eq_self_iff]
      show (∀ a ∈ asset :: rest, Copied version (write files asset.1 version (asset.2.take n)) a)
        ↔ (∀ a ∈ some asset, a.2.length ≤ n) ∧ ∀ a ∈ rest, Copied version files a
      rw [List.forall_mem_cons, hhead, copied_write_iff (ne_of_fresh hfresh)]
      simp
  | asset :: rest, index + 1, files, hnd => by
      obtain ⟨hfresh, hnd⟩ := List.nodup_cons.mp hnd
      have hothers : ∀ a ∈ rest.drop (index + 1), a.1 ≠ asset.1 := fun a ha =>
        ne_of_fresh hfresh a (List.mem_of_mem_drop ha)
      rw [List.forall_mem_cons, and_iff_right (copyTo_head hfresh index (some n) files),
        List.drop_succ_cons, List.drop_succ_cons, ← copied_write_iff hothers]
      exact copyTo_some_iff n rest index _ hnd

theorem copyUpTo_copied_iff (p : Package) (files : Files) (stop : Stop) :
    (∀ asset ∈ p.assets.entries, Copied p.lastUpdateTime (copyUpTo p files stop) asset)
      ↔ NoneMissing p files stop := by
  cases stop with
  | list => exact Iff.rfl
  | asset index written =>
      cases written with
      | none => exact copyTo_none_iff p.assets.entries index files p.assets.nodup
      | some n => exact copyTo_some_iff n p.assets.entries index files p.assets.nodup

end Loop

/-! ## §4. When the record means what it should. -/

/-- The record never runs ahead of the package. -/
structure Inv (s : Installation) : Prop where
  recorded : s.assetUpdateTime.getD (-1) ≤ s.package.lastUpdateTime
  installed : Installed s

/-- The test finds another time. -/
theorem copies_iff (s : Installation) :
    Copies s ↔ s.assetUpdateTime ≠ some s.package.lastUpdateTime := by
  unfold Copies
  have hinstalled := s.package.installed
  cases hrecord : s.assetUpdateTime with
  | none =>
      refine iff_of_true ?_ (by simp)
      show (-1 : Int) ≠ s.package.lastUpdateTime
      omega
  | some time => simp

theorem init_recorded {s : Installation} (h : s.assetUpdateTime = some s.package.lastUpdateTime)
    (outcome : Outcome) : init s outcome = s :=
  if_neg fun htest => (copies_iff s).mp htest h

theorem init_other {s : Installation} (h : s.assetUpdateTime ≠ some s.package.lastUpdateTime)
    (stop : Stop) :
    init s (.thrown stop)
        = { s with
            files := copyUpTo s.package s.files stop
            assetUpdateTime := some s.package.lastUpdateTime }
      ∧ init s (.killed stop) = { s with files := copyUpTo s.package s.files stop }
      ∧ init s .finished
        = { s with
            files := copyAll s.package.lastUpdateTime s.package.assets.entries s.files
            assetUpdateTime := some s.package.lastUpdateTime } := by
  have htest : s.assetUpdateTime.getD (-1) ≠ s.package.lastUpdateTime := (copies_iff s).mpr h
  exact ⟨if_pos htest, if_pos htest, if_pos htest⟩

theorem recorded_init {s : Installation}
    (h : s.assetUpdateTime.getD (-1) ≤ s.package.lastUpdateTime) (outcome : Outcome) :
    (init s outcome).assetUpdateTime.getD (-1) ≤ (init s outcome).package.lastUpdateTime := by
  by_cases hrecord : s.assetUpdateTime = some s.package.lastUpdateTime
  · rw [init_recorded hrecord]
    exact h
  · cases outcome with
    | finished =>
        rw [(init_other hrecord .list).2.2]
        exact Int.le_refl _
    | thrown stop =>
        rw [(init_other hrecord stop).1]
        exact Int.le_refl _
    | killed stop =>
        rw [(init_other hrecord stop).2.1]
        exact h

/-- **One start**: the record means what it should afterwards exactly if a
swallowed exception has done no harm. -/
theorem installed_init_iff {s : Installation} (h : Installed s) (outcome : Outcome) :
    Installed (init s outcome) ↔ Harmless s (.start outcome) := by
  by_cases hrecord : s.assetUpdateTime = some s.package.lastUpdateTime
  · rw [init_recorded hrecord]
    refine iff_of_true h ?_
    cases outcome with
    | thrown stop => exact fun hne => absurd hrecord hne
    | finished => trivial
    | killed stop => trivial
  · cases outcome with
    | finished =>
        rw [(init_other hrecord .list).2.2]
        refine iff_of_true (fun _ => ?_) trivial
        exact copyAll_copied _ _ s.package.assets.nodup
    | killed stop =>
        -- the record still has another time
        rw [(init_other hrecord stop).2.1]
        exact iff_of_true (fun hsame => absurd hsame hrecord) trivial
    | thrown stop =>
        rw [(init_other hrecord stop).1]
        constructor
        · intro hinstalled _
          exact (copyUpTo_copied_iff s.package s.files stop).mp (hinstalled rfl)
        · intro hharmless _
          exact (copyUpTo_copied_iff s.package s.files stop).mpr (hharmless hrecord)

/-- **One step**, from a record that means what it should. -/
theorem step_installed_iff {s s' : Installation} {l : Label} (h : Inv s)
    (hstep : step s l = some s') :
    s'.assetUpdateTime.getD (-1) ≤ s'.package.lastUpdateTime
      ∧ (Installed s' ↔ Harmless s l) := by
  cases l with
  | start outcome =>
      obtain ⟨-, rfl⟩ := of_enabled hstep
      exact ⟨recorded_init h.recorded outcome, installed_init_iff h.installed outcome⟩
  | update p =>
      obtain ⟨hlater, rfl⟩ := of_enabled hstep
      have hrecorded := h.recorded
      refine ⟨by show s.assetUpdateTime.getD (-1) ≤ p.lastUpdateTime; omega, ?_⟩
      -- no record has the time of a later package
      refine iff_of_true (fun hsame => ?_) trivial
      have hsame : s.assetUpdateTime = some p.lastUpdateTime := hsame
      rw [hsame] at hrecorded
      have : p.lastUpdateTime ≤ s.package.lastUpdateTime := hrecorded
      omega

/-- **The record means that the assets are installed**, from the
installation of a package on and over every sequence of starts and updates,
exactly if every IOException that `init` swallows has left no asset
missing. -/
theorem installed_along_iff (p : Package) (ls : List Label) (s' : Installation)
    (hrun : exec step { package := p } ls = some s') :
    Along step Installed { package := p } ls ↔ Meets step Harmless { package := p } ls := by
  refine along_iff_meets (I := Inv) (fun _ h => h.installed) ?_ ?_ ls _ s' ?_ hrun
  · intro s l s₁ hC hstep h
    obtain ⟨hrecorded, hiff⟩ := step_installed_iff h hstep
    exact ⟨hrecorded, hiff.mpr hC⟩
  · intro s l s₁ hC hstep h hP
    exact hC ((step_installed_iff h hstep).2.mp hP)
  · have hinstalled := p.installed
    refine ⟨by show (-1 : Int) ≤ p.lastUpdateTime; omega, ?_⟩
    intro hsame
    exact absurd hsame (by simp)

/-- **A failure is made up for exactly if it is not swallowed**: the record
is written behind the `catch`, and not when the process ends. -/
theorem retries_iff (s : Installation) (l : Label) : Retries s l ↔ Unswallowed s l := by
  cases l with
  | update p => exact Iff.rfl
  | start outcome =>
      cases outcome with
      | finished => exact iff_of_true (fun h => absurd rfl h) trivial
      | thrown stop =>
          have hwritten : Copies s → ¬ Copies (init s (.thrown stop)) := by
            intro hcopies
            rw [(init_other ((copies_iff s).mp hcopies) stop).1, copies_iff]
            exact fun h => h rfl
          exact ⟨fun h hcopies => hwritten hcopies (h (by simp) hcopies),
            fun h _ hcopies => absurd hcopies h⟩
      | killed stop =>
          refine iff_of_true (fun _ hcopies => ?_) trivial
          rw [(init_other ((copies_iff s).mp hcopies) stop).2.1]
          exact hcopies

/-- What is not swallowed does no harm. -/
theorem harmless_of_unswallowed (s : Installation) (l : Label) (h : Unswallowed s l) :
    Harmless s l := by
  cases l with
  | update p => trivial
  | start outcome =>
      cases outcome with
      | finished => trivial
      | killed stop => trivial
      | thrown stop => exact fun hother => absurd ((copies_iff s).mpr hother) h

/-- **THE RECORD MEANS THAT THE ASSETS ARE INSTALLED, AND WHAT FAILS IS
RETRIED**, from the installation of a package on and over every sequence of
starts and updates, exactly if no start that copies swallows an
IOException. -/
theorem assets_recorded_iff (p : Package) (ls : List Label) (s' : Installation)
    (hrun : exec step { package := p } ls = some s') :
    (Along step Installed { package := p } ls ∧ Meets step Retries { package := p } ls)
      ↔ Meets step Unswallowed { package := p } ls := by
  constructor
  · rintro ⟨-, hretries⟩
    exact hretries.mono fun s l => (retries_iff s l).mp
  · intro h
    refine ⟨(installed_along_iff p ls s' hrun).mpr (h.mono harmless_of_unswallowed), ?_⟩
    exact h.mono fun s l => (retries_iff s l).mpr

/-- A package with one list of three bytes. -/
def package (lastUpdateTime : Nat) : Package where
  lastUpdateTime := lastUpdateTime
  assets := { entries := [("bypass-lan.acl", [1, 2, 3])], nodup := List.nodup_singleton _ }
  installed := Int.natCast_nonneg _

/-- The first start is killed in the middle of the file, the second one
copies it, and so does the first one after an update. -/
theorem assets_recorded_retried :
    Along step Installed { package := package 1 }
        [.start (.killed (.asset 0 (some 1))), .start .finished, .update (package 2),
          .start .finished]
      ∧ Meets step Retries { package := package 1 }
        [.start (.killed (.asset 0 (some 1))), .start .finished, .update (package 2),
          .start .finished] :=
  (assets_recorded_iff (package 1) _ _ rfl).mpr
    ⟨trivial, fun _ _ => ⟨trivial, fun _ _ => ⟨trivial, fun _ _ => ⟨trivial, fun _ _ => trivial⟩⟩⟩⟩

/-- **A full disk**: after an update the copy stops behind one byte of three.
The time is recorded, no later start tries again, and the file stays
truncated. -/
theorem assets_truncated :
    ∃ s, exec step { package := package 1 }
        [.start .finished, .update (package 2), .start (.thrown (.asset 0 (some 1))),
          .start .finished] = some s
      ∧ s.assetUpdateTime = some s.package.lastUpdateTime
      ∧ s.files "bypass-lan.acl" = some ⟨2, [1]⟩ ∧ ¬ Installed s := by
  obtain ⟨s, hrun, hpackage, htime, hfile⟩ : ∃ s, exec step { package := package 1 }
        [.start .finished, .update (package 2), .start (.thrown (.asset 0 (some 1))),
          .start .finished] = some s
      ∧ s.package = package 2 ∧ s.assetUpdateTime = some 2
      ∧ s.files "bypass-lan.acl" = some ⟨2, [1]⟩ := ⟨_, rfl, rfl, rfl, by decide⟩
  have hrecord : s.assetUpdateTime = some s.package.lastUpdateTime := by
    rw [htime, hpackage]
    rfl
  refine ⟨s, hrun, hrecord, hfile, ?_⟩
  intro h
  have hasset : ("bypass-lan.acl", [1, 2, 3]) ∈ s.package.assets.entries := by
    rw [hpackage]
    exact List.mem_singleton.mpr rfl
  have hcopied : s.files "bypass-lan.acl" = some ⟨_, [1, 2, 3]⟩ := h hrecord _ hasset
  rw [hfile] at hcopied
  have hbytes : [1] = ([1, 2, 3] : Bytes) := congrArg AssetFile.bytes (Option.some.inj hcopied)
  exact absurd hbytes (by decide)

end FoxVpn.Core
