/-
  FoxVpn.App.FoxFbManager
  ───────────────────────
  **THE SERVER LISTS AND WHERE THEY COME FROM.**

  `foxLoadFb` fills `foxSmartServers` and `foxServers` from two strings in
  the data store, `peihr` and `aiec`, or from built-in ones where the store
  holds the empty string.  When remote config answers, a non-empty string is
  stored FIRST and parsed afterwards.

  A parse replaces its list by a non-empty one or leaves it alone, so
  within one process a list that is non-empty stays so.  The lists do not
  survive the process, the strings do: `servers_nonempty_iff` says that the
  lists are never empty exactly if every process finds strings that are
  empty or usable.

  The ad configuration `fm_ads` and the parameters `daon` touch neither
  list.
-/
import FoxVpn.Lib.Run

namespace FoxVpn.App

open FoxVpn.Lib

/-! ## §1. Parsing. -/

/-- A server, as `VpnServer.kt` has it. -/
structure ServerItem where
  ip : String
  method : String
  pwd : String
  port : Int
  city : String
  country : String
  deriving Repr, DecidableEq

/-- `org.json.JSONObject`, by the two lookups that never throw. -/
structure JSONObject where
  optString : String → String
  optInt : String → Int

/-- An element of a `JSONArray`. -/
inductive JSONValue where
  | object (o : JSONObject)
  /-- A number, a string, an array, NULL. -/
  | other

/-- `array[it] as JSONObject`. -/
def JSONValue.asObject : JSONValue → Option JSONObject
  | .object o => some o
  | .other => none

def JSONObject.serverItem (o : JSONObject) : ServerItem where
  ip := o.optString "hide"
  method := o.optString "gho"
  pwd := o.optString "otaa"
  port := o.optInt "wdte"
  city := o.optString "yeg"
  country := o.optString "ilrr"

/-- The parse of a list; `decode` is `JSONArray(String(Base64.decode(..)))`,
`none` if it throws. -/
def parseServers (decode : String → Option (List JSONValue)) (servers : List ServerItem)
    (result : String) : List ServerItem :=
  if result = "" then servers
  else
    match decode result with
    | none => servers
    | some array =>
        if array.length = 0 then servers
        else
          -- all elements are cast before the list is cleared
          match array.mapM JSONValue.asObject with
          | none => servers
          | some items => items.map JSONObject.serverItem

/-- The string decodes to a non-empty array of objects. -/
def Usable (decode : String → Option (List JSONValue)) (result : String) : Prop :=
  result ≠ "" ∧ ∃ array items, decode result = some array ∧ array ≠ []
    ∧ array.mapM JSONValue.asObject = some items

theorem parseServers_usable {decode : String → Option (List JSONValue)} {result : String}
    (h : Usable decode result) (servers : List ServerItem) :
    parseServers decode servers result ≠ [] := by
  obtain ⟨hne, array, items, hdec, harr, hitems⟩ := h
  unfold parseServers
  rw [if_neg hne, hdec]
  show (if array.length = 0 then servers else _) ≠ []
  rw [if_neg (mt List.length_eq_zero_iff.mp harr), hitems]
  show items.map JSONObject.serverItem ≠ []
  cases array with
  | nil => exact absurd rfl harr
  | cons v vs =>
      rw [List.mapM_cons] at hitems
      simp only [Option.bind_eq_bind, Option.bind_eq_some_iff, Option.pure_def,
        Option.some.injEq] at hitems
      obtain ⟨o, _, os, _, rfl⟩ := hitems
      simp

theorem parseServers_unusable {decode : String → Option (List JSONValue)} {result : String}
    (h : ¬ Usable decode result) (servers : List ServerItem) :
    parseServers decode servers result = servers := by
  unfold parseServers
  split
  next => rfl
  next hne =>
    split
    next => rfl
    next array hdec =>
      split
      next => rfl
      next hlen =>
        split
        next => rfl
        next items hitems =>
          refine absurd ⟨hne, array, items, hdec, ?_, hitems⟩ h
          exact mt (fun he => List.length_eq_zero_iff.mpr he) hlen

/-- A list that is not empty is not emptied by a parse. -/
theorem parseServers_ne_nil {decode : String → Option (List JSONValue)} {servers : List ServerItem}
    (h : servers ≠ []) (result : String) : parseServers decode servers result ≠ [] := by
  by_cases hu : Usable decode result
  · exact parseServers_usable hu servers
  · rwa [parseServers_unusable hu]

/-! ## §2. Processes. -/

/-- The built-in strings, which are usable. -/
structure Constant (decode : String → Option (List JSONValue)) where
  LOCAL_PEIHR : String
  LOCAL_AIEC : String
  peihr_usable : Usable decode LOCAL_PEIHR
  aiec_usable : Usable decode LOCAL_AIEC

structure FoxFbManager where
  /-- `DataManager.peihr` and `DataManager.aiec`, in the data store. -/
  peihr : String := ""
  aiec : String := ""
  foxSmartServers : List ServerItem := []
  foxServers : List ServerItem := []

namespace FoxFbManager

variable {decode : String → Option (List JSONValue)}

def parsePeiHr (decode : String → Option (List JSONValue)) (s : FoxFbManager) (result : String) :
    FoxFbManager :=
  { s with foxSmartServers := parseServers decode s.foxSmartServers result }

def parseAiec (decode : String → Option (List JSONValue)) (s : FoxFbManager) (result : String) :
    FoxFbManager :=
  { s with foxServers := parseServers decode s.foxServers result }

def ifEmpty (s default : String) : String := if s = "" then default else s

/-- The local parse at the head of `foxLoadFb`. -/
def loadLocal (c : Constant decode) (s : FoxFbManager) : FoxFbManager :=
  let s := s.parsePeiHr decode (ifEmpty s.peihr c.LOCAL_PEIHR)
  s.parseAiec decode (ifEmpty s.aiec c.LOCAL_AIEC)

/-- The completion listener, with what `getString` returns for the keys. -/
def onComplete (c : Constant decode) (s : FoxFbManager) (peihr aiec : String) : FoxFbManager :=
  let s := if peihr ≠ "" then { s with peihr } else s
  let s := s.parsePeiHr decode (ifEmpty s.peihr c.LOCAL_PEIHR)
  let s := if aiec ≠ "" then { s with aiec } else s
  s.parseAiec decode (ifEmpty s.aiec c.LOCAL_AIEC)

/-- A new process: the lists are gone, the store is as it was. -/
def newProcess (s : FoxFbManager) : FoxFbManager :=
  { s with foxSmartServers := [], foxServers := [] }

inductive Label where
  /-- A process starts, up to the end of its first local parse. -/
  | process
  /-- `foxLoadFb` runs again: a hot launch, or the retry after a failure. -/
  | foxLoadFb
  | onComplete (peihr aiec : String)
  deriving Repr, DecidableEq

def step (c : Constant decode) (s : FoxFbManager) : Label → Option FoxFbManager
  | .process => some (s.newProcess.loadLocal c)
  | .foxLoadFb => some (s.loadLocal c)
  | .onComplete peihr aiec => some (s.onComplete c peihr aiec)

/-! ## §3. When the lists are never empty. -/

def NonEmpty (s : FoxFbManager) : Prop := s.foxSmartServers ≠ [] ∧ s.foxServers ≠ []

/-- A process starts with strings that are empty or usable. -/
def StartsUsable (decode : String → Option (List JSONValue)) (s : FoxFbManager) : Label → Prop
  | .process => (s.peihr = "" ∨ Usable decode s.peihr) ∧ (s.aiec = "" ∨ Usable decode s.aiec)
  | _ => True

theorem usable_ifEmpty {s default : String} (hd : Usable decode default) :
    Usable decode (ifEmpty s default) ↔ s = "" ∨ Usable decode s := by
  unfold ifEmpty
  by_cases hs : s = ""
  · rw [if_pos hs]
    exact ⟨fun _ => Or.inl hs, fun _ => hd⟩
  · rw [if_neg hs]
    exact ⟨Or.inr, fun h => h.resolve_left hs⟩

/-- A list that starts empty is filled exactly by a usable string. -/
theorem parseServers_nil_iff {result : String} :
    parseServers decode [] result ≠ [] ↔ Usable decode result := by
  constructor
  · intro h
    by_contra hu
    exact h (parseServers_unusable hu [])
  · intro hu
    exact parseServers_usable hu []

theorem newProcess_nonEmpty_iff (c : Constant decode) (s : FoxFbManager) :
    (s.newProcess.loadLocal c).NonEmpty ↔ StartsUsable decode s .process := by
  show parseServers decode [] (ifEmpty s.peihr c.LOCAL_PEIHR) ≠ []
      ∧ parseServers decode [] (ifEmpty s.aiec c.LOCAL_AIEC) ≠ [] ↔ _
  rw [parseServers_nil_iff, parseServers_nil_iff, usable_ifEmpty c.peihr_usable,
    usable_ifEmpty c.aiec_usable]
  rfl

/-- Within a process nothing empties a list. -/
theorem loadLocal_nonEmpty (c : Constant decode) {s : FoxFbManager} (h : s.NonEmpty) :
    (s.loadLocal c).NonEmpty :=
  ⟨parseServers_ne_nil h.1 _, parseServers_ne_nil h.2 _⟩

theorem onComplete_nonEmpty (c : Constant decode) {s : FoxFbManager} (h : s.NonEmpty)
    (peihr aiec : String) : (s.onComplete c peihr aiec).NonEmpty := by
  unfold onComplete
  by_cases hp : peihr = "" <;> by_cases ha : aiec = "" <;>
    simp only [hp, ha, ne_eq, not_true_eq_false, not_false_eq_true, if_true, if_false] <;>
    exact ⟨parseServers_ne_nil h.1 _, parseServers_ne_nil h.2 _⟩

theorem step_nonEmpty_iff (c : Constant decode) {s s' : FoxFbManager} {l : Label}
    (h : s.NonEmpty) (hs : step c s l = some s') : s'.NonEmpty ↔ StartsUsable decode s l := by
  cases l with
  | process =>
      injection hs with hs
      rw [← hs]
      exact newProcess_nonEmpty_iff c s
  | foxLoadFb =>
      injection hs with hs
      rw [← hs]
      exact iff_of_true (loadLocal_nonEmpty c h) trivial
  | onComplete peihr aiec =>
      injection hs with hs
      rw [← hs]
      exact iff_of_true (onComplete_nonEmpty c h peihr aiec) trivial

theorem exec_total (c : Constant decode) : ∀ (ls : List Label) (s : FoxFbManager),
    ∃ s', exec (step c) s ls = some s'
  | [], s => ⟨s, rfl⟩
  | l :: ls, s => by
      obtain ⟨s₁, hs⟩ : ∃ s₁, step c s l = some s₁ := by cases l <;> exact ⟨_, rfl⟩
      obtain ⟨s', hrest⟩ := exec_total c ls s₁
      exact ⟨s', exec_cons.mpr ⟨s₁, hs, hrest⟩⟩

/-- **When the server lists are never empty**: from the first process after
the installation on, over every sequence of processes and of remote-config
answers, exactly if each process finds strings in the store that are empty
or usable. -/
theorem servers_nonempty_iff (c : Constant decode) (ls : List Label) :
    Along (step c) NonEmpty (newProcess {} |>.loadLocal c) ls
      ↔ Meets (step c) (StartsUsable decode) (newProcess {} |>.loadLocal c) ls := by
  obtain ⟨s', hrun⟩ := exec_total c ls (newProcess {} |>.loadLocal c)
  refine along_iff_meets (I := NonEmpty) (fun _ h => h) ?_ ?_ ls _ s' ?_ hrun
  · intro s l s₁ hC hs h
    exact (step_nonEmpty_iff c h hs).mpr hC
  · intro s l s₁ hC hs h hP
    exact hC ((step_nonEmpty_iff c h hs).mp hP)
  · exact (newProcess_nonEmpty_iff c {}).mpr ⟨Or.inl rfl, Or.inl rfl⟩

/-- A decoder that knows one string. -/
def decodeOne (result : String) : Option (List JSONValue) :=
  if result = "W3t9XQ==" then some [.object ⟨fun _ => "", fun _ => 0⟩] else none

def constantOne : Constant decodeOne where
  LOCAL_PEIHR := "W3t9XQ=="
  LOCAL_AIEC := "W3t9XQ=="
  peihr_usable := ⟨by decide, _, _, rfl, by simp, rfl⟩
  aiec_usable := ⟨by decide, _, _, rfl, by simp, rfl⟩

/-- Remote config answers with a string that is not Base64; it is stored,
and the next process has no servers. -/
theorem servers_lost :
    ∃ s, exec (step constantOne) (newProcess {} |>.loadLocal constantOne)
        [.onComplete "" "?", .process] = some s
      ∧ s.foxServers = [] := ⟨_, rfl, by decide⟩

end FoxFbManager

end FoxVpn.App
