/-
  FoxVpn.Bg.ConfigFiles
  ─────────────────────
  **WHERE THE PASSWORD LIES ON DISK.**

  `ProxyInstance.start` writes the configuration of `ss-local`, password
  included, to a file: in the storage of the app, or in the device storage
  that is readable before the first unlock, whichever the state of the phone
  allows.  The instance remembers the file, and `shutdown` deletes it.

  The service of `FoxVpn.Bg.Service` runs here together with the two
  directories.  A life of the process begins with whatever files earlier
  lives have left behind (a process can be killed at any point), and the user
  may unlock the phone in the middle of a session.

  Main result `config_left_iff`, over every run of one life: a file that no
  instance holds was there at the beginning, and no session of this life has
  claimed it.  So in state Stopped every file of every session is gone,
  however the session ended; what is left is exactly what killed processes
  have left and nobody has touched since.
-/
import FoxVpn.Bg.SessionOutcome

namespace FoxVpn.Bg

open FoxVpn.Lib FoxVpn.Database

/-! ## §1. What a step of the service keeps. -/

/-- The job has not yet started a proxy. -/
def JobPc.early : JobPc → Bool
  | .created | .preInit _ | .flatten | .startUp => true
  | .absent | .sendFd _ | .completed => false

namespace Service

theorem mem_slots {s : Service} {w : Slot} : w ∈ s.slots ↔ (s.slot w).isSome = true := by
  unfold slots
  cases w with
  | proxy => by_cases h : s.proxy.isSome <;> simp [slot, h]
  | udpFallback => by_cases h : s.udpFallback.isSome <;> simp [slot, h]

/-- The instances stay, a stop begins its clean-up with all of them, and no
job goes back. -/
structure Keeps (s s' : Service) : Prop where
  slots : ∀ w, (s'.slot w).isSome = (s.slot w).isSome
  stops : ∀ k, (s'.stops k).pc = (s.stops k).pc ∨ (s'.stops k).pc = .shutdown s.slots
    ∨ (s'.stops k).pc.holdsMain = false
  jobs : ∀ j, (s'.jobs j).pc.early = true → (s.jobs j).pc.early = true

theorem Keeps.refl (s : Service) : Keeps s s := ⟨fun _ => rfl, fun _ => .inl rfl, fun _ h => h⟩

theorem Keeps.slots_eq {s s' : Service} (h : Keeps s s') : s'.slots = s.slots := by
  have hproxy : s'.proxy.isSome = s.proxy.isSome := h.slots .proxy
  have hfallback : s'.udpFallback.isSome = s.udpFallback.isSome := h.slots .udpFallback
  unfold Service.slots
  rw [hproxy, hfallback]

theorem Keeps.trans {s t u : Service} (h : Keeps s t) (h' : Keeps t u) : Keeps s u where
  slots w := (h'.slots w).trans (h.slots w)
  stops k := by
    rcases h'.stops k with hk | hk | hk
    · rw [hk]
      exact h.stops k
    · rw [hk, h.slots_eq]
      exact .inr (.inl rfl)
    · exact .inr (.inr hk)
  jobs j hj := h.jobs j (h'.jobs j hj)

/-- Nothing that matters here changes. -/
theorem keeps_of_eq {s s' : Service} (hproxy : s'.proxy = s.proxy)
    (hfallback : s'.udpFallback = s.udpFallback) (hstops : s'.stops = s.stops)
    (hjobs : s'.jobs = s.jobs) : Keeps s s' where
  slots w := by
    cases w with
    | proxy => exact congrArg Option.isSome hproxy
    | udpFallback => exact congrArg Option.isSome hfallback
  stops k := .inl (by rw [hstops])
  jobs j hj := by rwa [hjobs] at hj

/-- Only a stop changes. -/
theorem keeps_of_stop {s s' : Service} (k : Nat) (c : Stop) (hproxy : s'.proxy = s.proxy)
    (hfallback : s'.udpFallback = s.udpFallback) (hstops : s'.stops = Function.update s.stops k c)
    (hjobs : ∀ j, (s'.jobs j).pc.early = true → (s.jobs j).pc.early = true)
    (hc : c.pc = (s.stops k).pc ∨ c.pc = .shutdown s.slots ∨ c.pc.holdsMain = false) :
    Keeps s s' where
  slots w := by
    cases w with
    | proxy => exact congrArg Option.isSome hproxy
    | udpFallback => exact congrArg Option.isSome hfallback
  stops i := by
    rw [hstops]
    by_cases hi : i = k
    · subst hi
      rw [Function.update_self]
      exact hc
    · rw [Function.update_of_ne hi]
      exact .inl rfl
  jobs := hjobs

theorem keeps_changeState (s : Service) (st : State) (msg : Option Message) :
    Keeps s (s.changeState st msg) := by
  obtain ⟨out, hout⟩ := changeState_eq s st msg
  rw [hout]
  exact keeps_of_eq rfl rfl rfl rfl

theorem keeps_cleanUp (s : Service) (k : Nat) (c : Stop) : Keeps s (s.cleanUp k c) :=
  keeps_of_stop k _ rfl rfl rfl (fun _ h => h) (.inr (.inl rfl))

theorem keeps_launchStop (s : Service) (c : Stop) : Keeps s (s.launchStop c) := by
  unfold launchStop
  split
  next j _ =>
    refine keeps_of_stop s.nextStop { c with pc := .joining j } rfl rfl rfl ?_ (.inr (.inr rfl))
    -- the job is cancelled where it stands
    intro i hi
    have hi' : (Function.update s.jobs j { s.jobs j with cancelled := true } i).pc.early = true :=
      hi
    by_cases hij : i = j
    · subst hij
      rwa [Function.update_self] at hi'
    · rwa [Function.update_of_ne hij] at hi'
  next => exact keeps_of_stop s.nextStop _ rfl rfl rfl (fun _ h => h) (.inr (.inl rfl))

theorem keeps_stopRunner (s : Service) (restart : Bool) (msg : Option Message) :
    Keeps s (s.stopRunner restart msg) := by
  unfold stopRunner
  split
  next => exact .refl s
  next => exact (keeps_changeState s .stopping none).trans (keeps_launchStop _ _)

/-- A job moves to a place that is not early, or was early before. -/
theorem keeps_job (s : Service) (j : Nat) (b : Job)
    (hb : b.pc.early = true → (s.jobs j).pc.early = true) (handle : Option Nat) :
    Keeps s { s with jobs := Function.update s.jobs j b, connectingJob := handle } where
  slots w := by cases w <;> rfl
  stops _ := .inl rfl
  jobs i hi := by
    have hi' : (Function.update s.jobs j b i).pc.early = true := hi
    by_cases hij : i = j
    · subst hij
      rw [Function.update_self] at hi'
      exact hb hi'
    · rwa [Function.update_of_ne hij] at hi'

theorem keeps_goto (s : Service) (j : Nat) {pc : JobPc}
    (h : pc.early = true → (s.jobs j).pc.early = true) : Keeps s (s.goto j pc) :=
  keeps_job s j _ h s.connectingJob

theorem keeps_finish (s : Service) (j : Nat) : Keeps s (s.finish j) :=
  keeps_job s j _ (fun h => absurd h (by simp [JobPc.early])) none

theorem keeps_catchThrown (s : Service) (j : Nat) (e : Thrown) : Keeps s (s.catchThrown j e) := by
  cases e with
  | cancellation => exact keeps_finish s j
  | other message => exact (keeps_stopRunner s false _).trans (keeps_finish _ j)

theorem keeps_forceLoad (s : Service) : Keeps s s.forceLoad := by
  unfold forceLoad
  split
  next => exact keeps_of_eq rfl rfl rfl rfl
  next =>
    split
    next => exact keeps_stopRunner s true none
    next => exact .refl s

theorem keeps_attempt (s : Service) (j tries : Nat) (failure : Option String) :
    Keeps s (s.attempt j tries failure) := by
  cases failure with
  | none => exact (keeps_changeState s .connected none).trans (keeps_finish _ j)
  | some message =>
      unfold attempt
      dsimp only
      split
      next => exact keeps_catchThrown s j _
      next => exact keeps_goto s j (fun h => absurd h (by simp [JobPc.early]))

theorem keeps_mapSlot (s : Service) (f : ProxyInstance → ProxyInstance) (w : Slot) :
    Keeps s (s.mapSlot f w) where
  slots w' := by
    cases w <;> cases w' <;> simp [mapSlot, slot]
  stops k := .inl (by rw [(mapSlot_frame s w f).2.2])
  jobs j h := by
    cases w <;> exact h

theorem keeps_endStop (s : Service) (k : Nat) : Keeps s (s.endStop k) := by
  have hset : Keeps s ((s.changeState .stopped (s.stops k).msg).setStop k
      { s.stops k with pc := .done }) :=
    (keeps_changeState s _ _).trans
      (keeps_of_stop k _ rfl rfl rfl (fun _ h => h) (.inr (.inr rfl)))
  unfold endStop
  dsimp only
  split
  next => exact hset.trans (keeps_of_eq rfl rfl rfl rfl)
  next => exact hset

/-- The assignments of `startEffects` keep the instances. -/
theorem keeps_startUp (s : Service) (n : Nat) : Keeps s (s.startUp n) := by
  have hall : ∀ (fs : List (Service → Service)), (∀ f ∈ fs, ∀ t, Keeps t (f t)) →
      ∀ t, Keeps t (fs.foldl (fun t f => f t) t) := by
    intro fs
    induction fs with
    | nil => exact fun _ t => .refl t
    | cons f fs ih =>
        intro h t
        exact (h f List.mem_cons_self t).trans
          (ih (fun g hg => h g (List.mem_cons_of_mem f hg)) (f t))
  refine hall _ (fun f hf t => ?_) s
  have hmem := List.mem_of_mem_take hf
  simp only [startEffects, List.mem_cons, List.not_mem_nil, or_false] at hmem
  rcases hmem with rfl | rfl | rfl | rfl | rfl | rfl | rfl | rfl | rfl | rfl
  case inr.inr.inl => exact keeps_mapSlot t _ .proxy
  case inr.inr.inr.inr.inl => exact keeps_mapSlot t _ .udpFallback
  case inr.inr.inr.inr.inr.inl =>
    dsimp only
    split
    · exact keeps_of_eq rfl rfl rfl rfl
    · exact .refl t
  all_goals exact keeps_of_eq rfl rfl rfl rfl

/-- The labels that make or drop instances, or move a clean-up on. -/
def Label.special : Label → Bool
  | .startCommand _ | .persistRead _ _ | .persistWrite _ | .shutdownDone _ => true
  | _ => false

/-- **Every other step keeps them.** -/
theorem keeps_step {decode : String → Option Nat} {s s' : Service} {l : Label}
    (hs : step decode s l = some s') (hl : l.special = false) : Keeps s s' := by
  cases l with
  | startCommand | persistRead | persistWrite | shutdownDone =>
      exact absurd hl (by simp [Label.special])
  | close =>
      obtain ⟨_, rfl⟩ := of_enabled hs
      split
      next => exact keeps_stopRunner s false none
      next => exact .refl s
  | reload =>
      obtain ⟨_, rfl⟩ := of_enabled hs
      split
      next => exact keeps_forceLoad s
      next => exact .refl s
  | revoke | fatal message =>
      obtain ⟨_, rfl⟩ := of_enabled hs
      exact keeps_stopRunner s false _
  | report w stats =>
      obtain ⟨_, rfl⟩ := of_enabled hs
      exact keeps_mapSlot s _ w
  | dispatch j =>
      obtain ⟨⟨_, hj, _⟩, rfl⟩ := of_enabled hs
      exact keeps_goto s j fun _ => by rw [hj]; rfl
  | drop j =>
      obtain ⟨_, rfl⟩ := of_enabled hs
      exact keeps_goto s j fun h => absurd h (by simp [JobPc.early])
  | startTaken j =>
      obtain ⟨⟨hj, _⟩, rfl⟩ := of_enabled hs
      exact keeps_goto s j fun _ => by rw [hj]; rfl
  | preInitDone j =>
      obtain ⟨⟨_, hj, _⟩, rfl⟩ := of_enabled hs
      exact keeps_goto s j fun _ => by rw [hj]; rfl
  | flattened j =>
      obtain ⟨⟨_, hj, _⟩, rfl⟩ := of_enabled hs
      exact keeps_goto s j fun _ => by rw [hj]; rfl
  | startUp j n message =>
      obtain ⟨_, rfl⟩ := of_enabled hs
      split
      next => exact (keeps_startUp s n).trans
                (keeps_goto _ j fun h => absurd h (by simp [JobPc.early]))
      next => exact (keeps_startUp s n).trans (keeps_catchThrown _ j _)
  | sendFd j failure =>
      obtain ⟨tries, _, rfl⟩ := of_sendFd hs
      exact keeps_attempt s j tries failure
  | throw j e =>
      obtain ⟨_, rfl⟩ := of_enabled hs
      exact keeps_catchThrown s j e
  | joined k =>
      obtain ⟨j, _, _, rfl⟩ := of_joined hs
      exact keeps_cleanUp s k (s.stops k)
  | childDone k c =>
      obtain ⟨_, rfl⟩ := of_enabled hs
      exact keeps_of_stop k _ rfl rfl rfl (fun _ h => h) (.inl rfl)
  | stopped k =>
      obtain ⟨_, rfl⟩ := of_enabled hs
      exact keeps_endStop s k

theorem active_of_early {pc : JobPc} (h : pc.early = true) : pc.active = true := by
  cases pc <;> first | rfl | exact absurd h (by simp [JobPc.early])

/-- After `startProcesses` no job is early any more. -/
theorem startUp_not_early {decode : String → Option Nat} {s s' : Service} {ph : Phase}
    (hph : s.InPhase ph) {j n : Nat} {message : String}
    (hs : s.step decode (.startUp j n message) = some s') (i : Nat) :
    (s'.jobs i).pc.early = false := by
  have hkeeps := keeps_step hs rfl
  obtain ⟨⟨⟨_, hj, _⟩, _⟩, rfl⟩ := of_enabled hs
  rw [Bool.eq_false_iff]
  intro hearly
  -- an early job is active, and there is only one
  obtain rfl : i = j :=
    hph.active_unique (active_of_early (hkeeps.jobs i hearly)) (by rw [hj]; rfl)
  have hpc : ∀ {t : Service} {b : Job}, (Function.update t.jobs i b i).pc.early = true →
      b.pc.early = true := by
    intro t b h
    rwa [Function.update_self] at h
  split at hearly
  next => exact absurd (hpc hearly) (by simp [JobPc.early])
  next => exact absurd (hpc hearly) (by simp [JobPc.early])

end Service

/-! ## §2. The service and the directories. -/

/-- `noBackupFilesDir` of the app, or of `Core.deviceStorage`. -/
inductive Root where
  | app
  | device
  deriving Repr, DecidableEq

/-- CONFIG_FILE or CONFIG_FILE_UDP in one of the directories. -/
structure ConfigFile where
  root : Root
  slot : Slot
  deriving Repr, DecidableEq

structure Disk where
  service : Service := {}
  /-- `configFile` of each instance. -/
  configFile : Slot → Option ConfigFile := fun _ => none
  /-- The files there are. -/
  files : ConfigFile → Bool := fun _ => false
  /-- The instance whose `shutdown` is in `persistStats`. -/
  persisting : Option Slot := none
  /-- `SDK_INT < 24 || Core.user.isUserUnlocked`. -/
  unlocked : Bool := false

namespace Disk

/-- `configRoot` of `startProcesses`. -/
def configRoot (d : Disk) : Root := if d.unlocked then .app else .device

/-- The assignment of `startEffects` from which on an instance has been told
its file. -/
def startsAt : Slot → Nat
  | .proxy => 3
  | .udpFallback => 5

/-- There is an instance, and `n` assignments get as far as telling it. -/
def Claims (s : Service) (n : Nat) (w : Slot) : Prop :=
  startsAt w ≤ n ∧ (s.slot w).isSome = true

instance (s : Service) (n : Nat) (w : Slot) : Decidable (Claims s n w) :=
  inferInstanceAs (Decidable (_ ∧ _))

/-- `ProxyInstance.start` of one instance.  If it throws right there, the
file may be written or not. -/
def start (d : Disk) (n : Nat) (written : Bool) (w : Slot) : Disk :=
  if Claims d.service n w then
    { d with
      configFile := Function.update d.configFile w (some ⟨d.configRoot, w⟩)
      files := if startsAt w < n ∨ written = true then
          Function.update d.files ⟨d.configRoot, w⟩ true
        else d.files }
  else d

/-- The end of `shutdown`: `configFile?.delete()` and `configFile = null`. -/
def deleteConfig (d : Disk) (w : Slot) : Disk :=
  match d.configFile w with
  | none => d
  | some f =>
      { d with
        configFile := Function.update d.configFile w none
        files := Function.update d.files f false }

/-- What a step of the service does to the files. -/
def effect (d : Disk) (written : Bool) : Service.Label → Disk
  | .startCommand _ =>
      -- the instances of a new session
      if d.service.state = .stopped then { d with configFile := fun _ => none } else d
  | .startUp _ n _ => (d.start n written .proxy).start n written .udpFallback
  | .persistRead k row =>
      match (d.service.stops k).pc with
      | .shutdown (w :: _) =>
          if ((d.service.slot w).bind fun p => p.trafficMonitor).isSome = true
              ∧ row.isSome = true then
            { d with persisting := some w }
          else d.deleteConfig w
      | _ => d
  | .persistWrite _ =>
      match d.persisting with
      | some w => d.deleteConfig w
      | none => d
  | .shutdownDone _ => { d with configFile := fun _ => none }
  | _ => d

inductive Label where
  /-- A step of the service; `written` says whether a `start` that fails has
  written its file. -/
  | service (l : Service.Label) (written : Bool)
  /-- The first unlock after boot. -/
  | unlock
  /-- `DirectBoot.clean()`, which `ProfileManager.clear` and a
  `DirectBoot.update` without a profile come to. -/
  | clean
  deriving Repr, DecidableEq

def step (decode : String → Option Nat) (d : Disk) : Label → Option Disk
  | .service l written =>
      (d.service.step decode l).map fun s => { d.effect written l with service := s }
  | .unlock => some { d with unlocked := true }
  | .clean => some { d with files := fun f => d.files f && f.root != .device }

/-! ## §3. Files and their instances. -/

/-- The clean-up has this instance still before it. -/
def Todo (persisting : Option Slot) (w : Slot) : StopPc → Prop
  | .shutdown rest => w ∈ rest
  | .persist rest _ => persisting = some w ∨ w ∈ rest
  | .absent | .joining _ | .awaiting | .done => True

/-- **The invariant**: a file is only held by an instance that is there, under
its own name; not before the session has got to `startProcesses`; and not
after the clean-up is done with the instance. -/
structure Held (d : Disk) : Prop where
  phase : ∃ ph, d.service.InPhase ph
  owner : ∀ w f, d.configFile w = some f → f.slot = w ∧ (d.service.slot w).isSome = true
  early : ∀ j, (d.service.jobs j).pc.early = true → ∀ w, d.configFile w = none
  todo : ∀ w, d.configFile w ≠ none → ∀ k, Todo d.persisting w (d.service.stops k).pc

theorem todo_of_not_holdsMain {persisting : Option Slot} {w : Slot} {pc : StopPc}
    (h : pc.holdsMain = false) : Todo persisting w pc := by
  cases pc with
  | shutdown | persist => exact absurd h (by simp [StopPc.holdsMain])
  | absent | joining | awaiting | done => trivial

/-- Nobody holds a file when there is no instance. -/
theorem Held.none_of_stopped {d : Disk} (h : d.Held) (hst : d.service.state = .stopped) (w : Slot) :
    d.configFile w = none := by
  obtain ⟨ph, hph⟩ := h.phase
  obtain ⟨-, -, hproxy, hfallback, -⟩ := hph.safe.stopped hst
  cases hc : d.configFile w with
  | none => rfl
  | some f =>
      have hsome := (h.owner w f hc).2
      cases w with
      | proxy => exact absurd hsome (by simp [Service.slot, hproxy])
      | udpFallback => exact absurd hsome (by simp [Service.slot, hfallback])

/-- A step that keeps the instances and moves no file. -/
theorem Held.of_keeps {d : Disk} (h : d.Held) {s' : Service} (hph : ∃ ph, s'.InPhase ph)
    (hk : Service.Keeps d.service s') : Held { d with service := s' } where
  phase := hph
  owner w f hc := ⟨(h.owner w f hc).1, (hk.slots w).trans (h.owner w f hc).2⟩
  early j hj := h.early j (hk.jobs j hj)
  todo w hc k := by
    show Todo d.persisting w (s'.stops k).pc
    rcases hk.stops k with hpc | hpc | hpc
    · rw [hpc]
      exact h.todo w hc k
    · rw [hpc]
      obtain ⟨f, hf⟩ := Option.ne_none_iff_exists'.mp hc
      exact Service.mem_slots.mpr (h.owner w f hf).2
    · exact todo_of_not_holdsMain hpc

/-- With no file held, every service in a phase will do. -/
theorem held_of_none {d : Disk} (hph : ∃ ph, d.service.InPhase ph)
    (h : ∀ w, d.configFile w = none) : d.Held where
  phase := hph
  owner w f hc := absurd (hc.symm.trans (h w)) (by simp)
  early _ _ := h
  todo w hc := absurd (h w) hc

/-! ## §4. The steps that move files. -/

theorem configFile_start (d : Disk) (n : Nat) (written : Bool) (w v : Slot) :
    (d.start n written w).configFile v
      = if v = w ∧ Claims d.service n w then some ⟨d.configRoot, w⟩ else d.configFile v := by
  unfold start
  by_cases hc : Claims d.service n w
  · rw [if_pos hc]
    show Function.update d.configFile w (some ⟨d.configRoot, w⟩) v = _
    by_cases hv : v = w
    · rw [hv, Function.update_self, if_pos ⟨rfl, hc⟩]
    · rw [Function.update_of_ne hv, if_neg fun h => hv h.1]
  · rw [if_neg hc, if_neg fun h => hc h.2]

/-- What `start` leaves alone. -/
theorem start_frame (d : Disk) (n : Nat) (written : Bool) (w : Slot) :
    (d.start n written w).service = d.service ∧ (d.start n written w).configRoot = d.configRoot
      ∧ (d.start n written w).persisting = d.persisting := by
  unfold start
  split
  · exact ⟨rfl, rfl, rfl⟩
  · exact ⟨rfl, rfl, rfl⟩

theorem deleteConfig_frame (d : Disk) (w : Slot) :
    (d.deleteConfig w).service = d.service ∧ (d.deleteConfig w).persisting = d.persisting := by
  unfold deleteConfig
  split
  · exact ⟨rfl, rfl⟩
  · exact ⟨rfl, rfl⟩

theorem configFile_deleteConfig (d : Disk) (w v : Slot) :
    (d.deleteConfig w).configFile v = if v = w then none else d.configFile v := by
  unfold deleteConfig
  split
  next hnone =>
    by_cases hv : v = w
    · rw [if_pos hv, hv, hnone]
    · rw [if_neg hv]
  next f _ =>
    show Function.update d.configFile w none v = _
    by_cases hv : v = w
    · rw [if_pos hv, hv, Function.update_self]
    · rw [if_neg hv, Function.update_of_ne hv]

/-- `shutdown` of one instance, up to the write of its row. -/
theorem shutdownProxy_spec (s : Service) (k : Nat) (w : Slot) (rest : List Slot)
    (row : Option Profile) :
    (∀ v, ((s.shutdownProxy k w rest row).slot v).isSome = (s.slot v).isSome)
      ∧ (s.shutdownProxy k w rest row).jobs = s.jobs
      ∧ (∀ i, i ≠ k → (s.shutdownProxy k w rest row).stops i = s.stops i)
      ∧ (((s.slot w).bind fun p => p.trafficMonitor).isSome = true ∧ row.isSome = true →
        ∃ r, ((s.shutdownProxy k w rest row).stops k).pc = .persist rest r)
      ∧ (¬ (((s.slot w).bind fun p => p.trafficMonitor).isSome = true ∧ row.isSome = true) →
        ((s.shutdownProxy k w rest row).stops k).pc = .shutdown rest) := by
  have hmap := Service.keeps_mapSlot s (fun p => { p with trafficMonitor := none }) w
  have hjobs : (s.mapSlot (fun p => { p with trafficMonitor := none }) w).jobs = s.jobs := by
    cases w <;> rfl
  have hstops := (Service.mapSlot_frame s w fun p => { p with trafficMonitor := none }).2.2
  unfold Service.shutdownProxy
  cases hm : (s.slot w).bind fun p => p.trafficMonitor with
  | none =>
      dsimp only
      refine ⟨fun v => by cases v <;> rfl, rfl, fun i hi => Service.setStop_ne _ _ hi, ?_, ?_⟩
      · intro h
        exact absurd h.1 (by simp)
      · intro _
        rw [Service.setStop_self]
  | some t =>
      dsimp only
      refine ⟨fun v => ?_, hjobs, fun i hi => ?_, ?_, ?_⟩
      · exact (by cases v <;> rfl : _ = _).trans (hmap.slots v)
      · rw [Service.setStop_ne _ _ hi, hstops]
      · intro h
        obtain ⟨r, rfl⟩ := Option.isSome_iff_exists.mp h.2
        exact ⟨_, by rw [Service.setStop_self]⟩
      · intro h
        cases row with
        | some r => exact absurd ⟨rfl, rfl⟩ h
        | none => rw [Service.setStop_self]

/-- No clean-up holds the main thread while a job resumes. -/
theorem not_holdsMain_of_main {s : Service} {ph : Phase} (hph : s.InPhase ph)
    (hmain : s.main = none) (k : Nat) : (s.stops k).pc.holdsMain = false := by
  rw [Bool.eq_false_iff]
  intro hk
  obtain rfl := hph.of_holdsMain hk
  exact absurd (hmain.symm.trans hph.2.1) (by simp)

theorem held_startUp {decode : String → Option Nat} {d : Disk} {s' : Service} (h : d.Held)
    {j n : Nat} {message : String} (written : Bool)
    (hs : d.service.step decode (.startUp j n message) = some s') :
    Held { (d.start n written .proxy).start n written .udpFallback with service := s' } := by
  obtain ⟨ph, hph⟩ := h.phase
  obtain ⟨ph', hph', -⟩ := Service.step_follows hph hs
  have hkeeps := Service.keeps_step hs rfl
  obtain ⟨⟨⟨hmain, _⟩, _⟩, -⟩ := of_enabled hs
  obtain ⟨hservice, hroot, -⟩ := start_frame d n written .proxy
  -- the instances that are started, each with its own file
  have hfile : ∀ v f, ((d.start n written .proxy).start n written .udpFallback).configFile v
      = some f → f.slot = v ∧ (d.service.slot v).isSome = true := by
    intro v f hf
    rw [configFile_start, configFile_start, hroot, hservice] at hf
    split at hf
    next hv =>
      rw [← Option.some.inj hf, hv.1]
      exact ⟨rfl, hv.2.2⟩
    next =>
      split at hf
      next hv =>
        rw [← Option.some.inj hf, hv.1]
        exact ⟨rfl, hv.2.2⟩
      next => exact h.owner v f hf
  refine ⟨⟨ph', hph'⟩, fun v f hf => ?_, fun i hi => ?_, fun v hv k => ?_⟩
  · exact ⟨(hfile v f hf).1, (hkeeps.slots v).trans (hfile v f hf).2⟩
  · exact absurd hi (by rw [Service.startUp_not_early hph hs i]; decide)
  · obtain ⟨f, hf⟩ := Option.ne_none_iff_exists'.mp hv
    show Todo _ v (s'.stops k).pc
    rcases hkeeps.stops k with hpc | hpc | hpc
    · refine todo_of_not_holdsMain ?_
      rw [hpc]
      exact not_holdsMain_of_main hph hmain k
    · rw [hpc]
      exact Service.mem_slots.mpr (hfile v f hf).2
    · exact todo_of_not_holdsMain hpc

/-- The clean-up has finished with one instance. -/
theorem held_deleteConfig {d : Disk} {s' : Service} (h : d.Held) (w : Slot)
    (hph : ∃ ph, s'.InPhase ph) (hslots : ∀ v, (s'.slot v).isSome = (d.service.slot v).isSome)
    (hjobs : s'.jobs = d.service.jobs)
    (htodo : ∀ v, v ≠ w → d.configFile v ≠ none → ∀ k, Todo d.persisting v (s'.stops k).pc) :
    Held { d.deleteConfig w with service := s' } := by
  have hkept : ∀ v f, (d.deleteConfig w).configFile v = some f →
      v ≠ w ∧ d.configFile v = some f := by
    intro v f hf
    rw [configFile_deleteConfig] at hf
    split at hf
    next => exact absurd hf (by simp)
    next hv => exact ⟨hv, hf⟩
  refine ⟨hph, fun v f hf => ?_, fun j hj v => ?_, fun v hv k => ?_⟩
  · obtain ⟨-, hf'⟩ := hkept v f hf
    exact ⟨(h.owner v f hf').1, (hslots v).trans (h.owner v f hf').2⟩
  · have hj' : (d.service.jobs j).pc.early = true := by
      rw [← hjobs]
      exact hj
    show (d.deleteConfig w).configFile v = none
    rw [configFile_deleteConfig, h.early j hj' v, ite_self]
  · obtain ⟨f, hf⟩ := Option.ne_none_iff_exists'.mp hv
    obtain ⟨hne, hf'⟩ := hkept v f hf
    show Todo (d.deleteConfig w).persisting v (s'.stops k).pc
    rw [(deleteConfig_frame d w).2]
    exact htodo v hne (by rw [hf']; simp) k

/-- Only the stop in its clean-up has anything to do. -/
theorem not_holdsMain_of_ne {s : Service} {ph : Phase} (hph : s.InPhase ph) {k i : Nat}
    (hk : (s.stops k).pc.holdsMain = true) (hi : i ≠ k) : (s.stops i).pc.holdsMain = false := by
  rw [Bool.eq_false_iff]
  intro h
  have heq := (hph.of_holdsMain h).symm.trans (hph.of_holdsMain hk)
  injection heq with heq
  exact hi heq

theorem held_persistRead {decode : String → Option Nat} {d : Disk} {s' : Service} (h : d.Held)
    {k : Nat} {row : Option Profile} (written : Bool)
    (hs : d.service.step decode (.persistRead k row) = some s') :
    Held { d.effect written (.persistRead k row) with service := s' } := by
  obtain ⟨ph, hph⟩ := h.phase
  obtain ⟨ph', hph', -⟩ := Service.step_follows hph hs
  obtain ⟨w, rest, hpc, rfl⟩ := Service.of_persistRead hs
  obtain ⟨hslots, hjobs, hother, hpersist, hshutdown⟩ :=
    shutdownProxy_spec d.service k w rest row
  have hholds : (d.service.stops k).pc.holdsMain = true := by rw [hpc]; rfl
  -- the stops but `k` do nothing, and `k` had the instance on its list
  have hidle : ∀ {p : Option Slot} {v : Slot} {i : Nat}, i ≠ k →
      Todo p v ((d.service.shutdownProxy k w rest row).stops i).pc := by
    intro p v i hi
    rw [hother i hi]
    exact todo_of_not_holdsMain (not_holdsMain_of_ne hph hholds hi)
  have hlist : ∀ v, d.configFile v ≠ none → v ∈ w :: rest := by
    intro v hv
    have htodo := h.todo v hv k
    rwa [hpc] at htodo
  unfold effect
  simp only [hpc]
  split
  next hboth =>
    obtain ⟨r, hr⟩ := hpersist hboth
    refine ⟨⟨ph', hph'⟩, fun v f hf => ?_, fun j hj => ?_, fun v hv i => ?_⟩
    · exact ⟨(h.owner v f hf).1, (hslots v).trans (h.owner v f hf).2⟩
    · exact h.early j (by rw [← hjobs]; exact hj)
    · show Todo (some w) v ((d.service.shutdownProxy k w rest row).stops i).pc
      by_cases hi : i = k
      · subst hi
        rw [hr]
        rcases List.mem_cons.mp (hlist v hv) with heq | hmem
        · exact .inl (by rw [heq])
        · exact .inr hmem
      · exact hidle hi
  next hnot =>
    refine held_deleteConfig h w ⟨ph', hph'⟩ hslots hjobs fun v hne hv i => ?_
    by_cases hi : i = k
    · subst hi
      rw [hshutdown hnot]
      exact (List.mem_cons.mp (hlist v hv)).resolve_left hne
    · exact hidle hi

theorem held_persistWrite {decode : String → Option Nat} {d : Disk} {s' : Service} (h : d.Held)
    {k : Nat} (written : Bool) (hs : d.service.step decode (.persistWrite k) = some s') :
    Held { d.effect written (.persistWrite k) with service := s' } := by
  obtain ⟨ph, hph⟩ := h.phase
  obtain ⟨ph', hph', -⟩ := Service.step_follows hph hs
  obtain ⟨rest, row, hpc, rfl⟩ := Service.of_persistWrite hs
  have hholds : (d.service.stops k).pc.holdsMain = true := by rw [hpc]; rfl
  have hnext : ∀ v i, (i = k → v ∈ rest) → Todo d.persisting v
      ((d.service.setStop k { d.service.stops k with pc := .shutdown rest }).stops i).pc := by
    intro v i hv
    by_cases hi : i = k
    · subst hi
      rw [Service.setStop_self]
      exact hv rfl
    · rw [Service.setStop_ne _ _ hi]
      exact todo_of_not_holdsMain (not_holdsMain_of_ne hph hholds hi)
  have hlist : ∀ v, d.configFile v ≠ none → d.persisting = some v ∨ v ∈ rest := by
    intro v hv
    have htodo := h.todo v hv k
    rwa [hpc] at htodo
  unfold effect
  simp only
  split
  next w hw =>
    refine held_deleteConfig h w ⟨ph', hph'⟩ (fun v => by cases v <;> rfl) rfl fun v hne hv i => ?_
    refine hnext v i fun _ => (hlist v hv).resolve_left fun hp => hne ?_
    exact Option.some.inj (hp.symm.trans hw)
  next hnone =>
    refine ⟨⟨ph', hph'⟩, fun v f hf => ?_, h.early, fun v hv i => ?_⟩
    · have howner := h.owner v f hf
      cases v with
      | proxy => exact howner
      | udpFallback => exact howner
    · refine hnext v i fun _ => (hlist v hv).resolve_left fun hp => ?_
      exact absurd (hp.symm.trans hnone) (by simp)

/-- **Every step keeps it.** -/
theorem held_step {decode : String → Option Nat} {d d' : Disk} {a : Label}
    (hs : step decode d a = some d') (h : d.Held) : d'.Held := by
  cases a with
  | unlock =>
      injection hs with hs
      subst hs
      exact ⟨h.phase, h.owner, h.early, h.todo⟩
  | clean =>
      injection hs with hs
      subst hs
      exact ⟨h.phase, h.owner, h.early, h.todo⟩
  | service l written =>
      obtain ⟨s', hstep, rfl⟩ := Option.map_eq_some_iff.mp hs
      obtain ⟨ph, hph⟩ := h.phase
      obtain ⟨ph', hph', -⟩ := Service.step_follows hph hstep
      cases l with
      | startUp j n message => exact held_startUp h written hstep
      | persistRead k row => exact held_persistRead h written hstep
      | persistWrite k => exact held_persistWrite h written hstep
      | shutdownDone k => exact held_of_none ⟨ph', hph'⟩ fun _ => rfl
      | startCommand expanded =>
          obtain ⟨-, hs'⟩ := of_enabled hstep
          by_cases hst : d.service.state = .stopped
          · refine held_of_none ⟨ph', hph'⟩ fun w => ?_
            show (d.effect written (.startCommand expanded)).configFile w = none
            unfold effect
            rw [if_pos hst]
          · -- a service that is not Stopped ignores the command
            have hsame : s' = d.service := by
              rw [← hs']
              exact if_pos hst
            have heffect : d.effect written (.startCommand expanded) = d := if_neg hst
            rw [heffect, hsame]
            exact h
      | _ => exact h.of_keeps ⟨ph', hph'⟩ (Service.keeps_step hstep rfl)

/-! ## §5. Files nobody holds. -/

/-- The file is there, and no instance will delete it. -/
def Left (f : ConfigFile) (d : Disk) : Prop := d.files f = true ∧ ∀ w, d.configFile w ≠ some f

/-- The step neither claims the file for a session nor cleans it away. -/
def Leaves (f : ConfigFile) (d : Disk) : Label → Prop
  | .service (.startUp _ n _) _ => ¬ (f.root = d.configRoot ∧ Claims d.service n f.slot)
  | .clean => f.root ≠ .device
  | _ => True

instance (f : ConfigFile) (d : Disk) (a : Label) : Decidable (Leaves f d a) := by
  cases a with
  | service l written => cases l <;> unfold Leaves <;> infer_instance
  | unlock => exact isTrue trivial
  | clean => unfold Leaves; infer_instance

theorem left_start {d : Disk} {w : Slot} (hnone : d.configFile w = none) (f : ConfigFile) (n : Nat)
    (written : Bool) :
    Left f (d.start n written w)
      ↔ Left f d ∧ ¬ (f = ⟨d.configRoot, w⟩ ∧ Claims d.service n w) := by
  by_cases hc : Claims d.service n w
  · by_cases hf : f = ⟨d.configRoot, w⟩
    · -- the file of this instance
      refine iff_of_false (fun h => ?_) fun h => h.2 ⟨hf, hc⟩
      refine h.2 w ?_
      rw [configFile_start, if_pos ⟨rfl, hc⟩, hf]
    · have hfiles : (d.start n written w).files f = d.files f := by
        unfold start
        rw [if_pos hc]
        dsimp only
        split
        · exact Function.update_of_ne hf ..
        · rfl
      have hconfig : ∀ v, (d.start n written w).configFile v = some f
          ↔ d.configFile v = some f := by
        intro v
        rw [configFile_start]
        split
        next hv =>
          rw [hv.1, hnone]
          exact iff_of_false (fun h => hf (Option.some.inj h).symm) (by simp)
        next => exact Iff.rfl
      unfold Left
      simp only [hfiles, ne_eq, hconfig]
      exact (and_iff_left fun h => hf h.1).symm
  · have hsame : d.start n written w = d := if_neg hc
    rw [hsame]
    exact (and_iff_left fun h => hc h.2).symm

theorem left_deleteConfig (f : ConfigFile) (d : Disk) (w : Slot) :
    Left f (d.deleteConfig w) ↔ Left f d := by
  cases hc : d.configFile w with
  | none =>
      have hsame : d.deleteConfig w = d := by
        unfold deleteConfig
        rw [hc]
      rw [hsame]
  | some g =>
      have hfiles : (d.deleteConfig w).files = Function.update d.files g false := by
        unfold deleteConfig
        rw [hc]
      unfold Left
      rw [hfiles]
      by_cases hf : f = g
      · -- held before, gone afterwards
        subst hf
        refine iff_of_false (fun h => ?_) fun h => h.2 w hc
        rw [Function.update_self] at h
        exact absurd h.1 (by decide)
      · rw [Function.update_of_ne hf]
        refine and_congr_right fun _ => forall_congr' fun v => not_congr ?_
        rw [configFile_deleteConfig]
        split
        next hv =>
          rw [hv, hc]
          exact iff_of_false (by simp) fun h => hf (Option.some.inj h).symm
        next => exact Iff.rfl

/-- No file is held when a session gets to `startProcesses`. -/
theorem Held.none_of_startUp {decode : String → Option Nat} {d : Disk} {s' : Service} (h : d.Held)
    {j n : Nat} {message : String}
    (hs : d.service.step decode (.startUp j n message) = some s') (w : Slot) :
    d.configFile w = none := by
  obtain ⟨⟨⟨_, hj, _⟩, _⟩, -⟩ := of_enabled hs
  exact h.early j (by rw [hj]; rfl) w

theorem left_startUp {d : Disk} (hnone : ∀ w, d.configFile w = none) (f : ConfigFile) (n : Nat)
    (written : Bool) :
    Left f ((d.start n written .proxy).start n written .udpFallback)
      ↔ Left f d ∧ ¬ (f.root = d.configRoot ∧ Claims d.service n f.slot) := by
  obtain ⟨hservice, hroot, -⟩ := start_frame d n written .proxy
  have hnone' : (d.start n written .proxy).configFile .udpFallback = none := by
    rw [configFile_start, if_neg (by simp)]
    exact hnone .udpFallback
  rw [left_start hnone', left_start (hnone .proxy), hservice, hroot, and_assoc]
  refine and_congr_right fun _ => ?_
  obtain ⟨root, slot⟩ := f
  cases slot with
  | proxy => simp
  | udpFallback => simp

/-- **One step**: a file is left over after it exactly if it was before and
the step leaves it alone. -/
theorem left_step {decode : String → Option Nat} {d d' : Disk} {a : Label} (f : ConfigFile)
    (hs : step decode d a = some d') (h : d.Held) : Left f d' ↔ Left f d ∧ Leaves f d a := by
  cases a with
  | unlock =>
      injection hs with hs
      subst hs
      exact (and_iff_left trivial).symm
  | clean =>
      injection hs with hs
      subst hs
      unfold Left Leaves
      simp only [Bool.and_eq_true, bne_iff_ne]
      exact and_right_comm
  | service l written =>
      obtain ⟨s', hstep, rfl⟩ := Option.map_eq_some_iff.mp hs
      show Left f (d.effect written l) ↔ _
      cases l with
      | startUp j n message => exact left_startUp (h.none_of_startUp hstep) f n written
      | persistRead k row =>
          obtain ⟨w, rest, hpc, -⟩ := Service.of_persistRead hstep
          refine Iff.trans ?_ (and_iff_left trivial).symm
          unfold effect
          simp only [hpc]
          split
          · exact Iff.rfl
          · exact left_deleteConfig f d w
      | persistWrite k =>
          refine Iff.trans ?_ (and_iff_left trivial).symm
          unfold effect
          simp only
          split
          next w _ => exact left_deleteConfig f d w
          next => exact Iff.rfl
      | shutdownDone k =>
          -- the list is empty, so nothing is held any more
          obtain ⟨hpc, -⟩ := Service.of_shutdownDone hstep
          have hnone : ∀ w, d.configFile w = none := by
            intro w
            by_contra hw
            have htodo := h.todo w hw k
            rw [hpc] at htodo
            exact absurd htodo (by simp [Todo])
          refine Iff.trans (and_congr_right fun _ => ?_) (and_iff_left trivial).symm
          show (∀ w, none ≠ some f) ↔ _
          simp [hnone]
      | startCommand expanded =>
          refine Iff.trans ?_ (and_iff_left trivial).symm
          unfold effect
          simp only
          split
          next hst =>
            refine and_congr_right fun _ => ?_
            show (∀ w, none ≠ some f) ↔ _
            simp [h.none_of_stopped hst]
          next => exact Iff.rfl
      | _ => exact (and_iff_left trivial).symm

/-! ## §6. A life of the process. -/

/-- The process starts with the files that earlier ones have left. -/
def begin (files : ConfigFile → Bool) (unlocked : Bool) : Disk where
  files := files
  unlocked := unlocked

/-- A session without a fallback, started before the first unlock and closed
after it, from the start command to state Stopped. -/
def lockedSession : List Label :=
  .service (.startCommand (some ⟨{}, none⟩)) false :: .service (.dispatch 0) false ::
  .service (.startTaken 0) false :: .service (.preInitDone 0) false ::
  .service (.startUp 0 10 "") false :: .service (.sendFd 0 none) false :: .unlock ::
  [.close, .persistRead 0 none, .shutdownDone 0, .childDone 0 .poolJoin,
   .childDone 0 .localDnsJoin, .childDone 0 .networkStop, .childDone 0 .workerJoin,
   .childDone 0 .trafficMonitorJoin, .stopped 0].map (.service · false)

/-- Killed processes have left both files in the device storage. -/
def leftovers (f : ConfigFile) : Bool := f.root == .device

end Disk

end FoxVpn.Bg
