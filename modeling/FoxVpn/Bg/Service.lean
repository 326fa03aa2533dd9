/-
  FoxVpn.Bg.Service
  ─────────────────
  **THE SERVICE STATE MACHINE.**

  `BaseService.Interface` with its VPN override, one step per stretch of
  code between two suspension points on the main thread.  Three kinds of
  actors share `BaseService.Data`:

      handlers      onStartCommand, the close receiver, onRevoke, onFatal
      jobs          the connecting job of a session, `GlobalScope.launch(Main)`
      stops         the coroutine of `stopRunner`, on `Main.immediate`

  Any number of jobs and stops may exist; that at most one of each is ever
  alive is a theorem, not an assumption.  A step never spans more code than
  the main thread runs without suspending, and often less: where the code
  MAY suspend the model lets the others run.

  What the code reads from outside comes with the label: the profile of a
  start command, the row `persistStats` has fetched, whether a call failed.
-/
import Mathlib.Logic.Function.Basic
import FoxVpn.Lib.Run
import FoxVpn.Bg.TrafficMonitor

namespace FoxVpn.Bg

open FoxVpn.Database

/-! ## §1. The data. -/

/-- `BaseService.State`. -/
inductive State where
  | idle
  | connecting
  | connected
  | stopping
  | stopped
  deriving Repr, DecidableEq

def State.canStop : State → Bool
  | .connected => true
  | _ => false

/-- The messages a session ends with; those in resources stand for their
localised text. -/
inductive Message where
  | profileEmpty
  | proxyEmpty
  | cipherDeprecated (method : String)
  | keyInvalid
  | badBase64
  | serviceFailed (readableMessage : String)
  /-- The message of an exception passed on as it is. -/
  | text (message : String)
  deriving Repr, DecidableEq

/-- `ProxyInstance`; `trafficMonitor` is present while it runs. -/
structure ProxyInstance where
  profile : Profile
  route : String
  trafficMonitor : Option TrafficStats := none
  deriving Repr, DecidableEq

/-- The ciphers that take Base64 keys of a fixed size. -/
def aead2022 : List String :=
  ["2022-blake3-aes-128-gcm", "2022-blake3-aes-256-gcm", "2022-blake3-chacha20-poly1305"]

/-- The key check of the constructor; `decode` is the size
`Base64.decode` gives, `none` where it throws. -/
def checkKeys (decode : String → Option Nat) : List String → Except Message Unit
  | [] => .ok ()
  | pwd :: rest =>
      match decode pwd with
      | none => .error .badBase64
      | some size => if size = 16 ∨ size = 32 then checkKeys decode rest else .error .keyInvalid

/-- The constructor of `ProxyInstance`; an error is the message of its
IllegalArgumentException. -/
def ProxyInstance.new (decode : String → Option Nat) (profile : Profile) (route : String) :
    Except Message ProxyInstance :=
  if profile.host ≠ "" ∧ (profile.method = "none" ∨ profile.password ≠ "") then
    if profile.method ∉ ["aes-192-gcm", "chacha20", "salsa20"] then
      if profile.method ∈ aead2022 then
        (checkKeys decode (profile.password.splitOn ":")).map fun _ => { profile, route }
      else .ok { profile, route }
    else .error (.cipherDeprecated profile.method)
  else .error .proxyEmpty

/-- Where a connecting job stands. -/
inductive JobPc where
  | absent
  /-- Launched, not yet dispatched. -/
  | created
  /-- In `preInit`: sending Start to the network actor, which may have
  taken it already. -/
  | preInit (taken : Bool)
  /-- In `withContext(Dispatchers.IO)`, flattening the custom rules. -/
  | flatten
  /-- Before `data.processes = GuardedProcessPool`. -/
  | startUp
  /-- In the `delay` of `sendFd`. -/
  | sendFd (tries : Nat)
  | completed
  deriving Repr, DecidableEq

structure Job where
  pc : JobPc := .absent
  cancelled : Bool := false
  /-- `profile.route` of the captured profile. -/
  route : String := ""
  deriving Repr, DecidableEq

/-- Neither absent nor completed: the job still has code to run. -/
def JobPc.active : JobPc → Bool
  | .absent => false
  | .completed => false
  | _ => true

/-- The children the clean-up launches in its scope. -/
inductive Child where
  | poolJoin
  | localDnsJoin
  /-- `scope.launch { DefaultNetworkListener.stop(this) }`. -/
  | networkStop
  | workerJoin
  | trafficMonitorJoin
  deriving Repr, DecidableEq

/-- The two proxies of a session. -/
inductive Slot where
  | proxy
  | udpFallback
  deriving Repr, DecidableEq

/-- Where the coroutine of a `stopRunner` call stands. -/
inductive StopPc where
  | absent
  /-- In `cancelAndJoin` of the connecting job. -/
  | joining (j : Nat)
  /-- Shutting the proxies down, on the main thread; those still to do. -/
  | shutdown (rest : List Slot)
  /-- Inside `persistStats`: the row has been fetched and changed, not yet
  written. -/
  | persist (rest : List Slot) (row : Profile)
  /-- At the end of `coroutineScope`, waiting for the children. -/
  | awaiting
  | done
  deriving Repr, DecidableEq

structure Stop where
  pc : StopPc := .absent
  restart : Bool := false
  msg : Option Message := none
  children : List Child := []
  deriving Repr, DecidableEq

/-- The coroutine still has code to run. -/
def StopPc.live : StopPc → Bool
  | .absent => false
  | .done => false
  | _ => true

/-- The stretch of the clean-up in which the main thread is not given up. -/
def StopPc.holdsMain : StopPc → Bool
  | .shutdown _ => true
  | .persist _ _ => true
  | _ => false

/-- The clean-up is running: from `killProcesses` to the end of the scope. -/
def StopPc.cleaning : StopPc → Bool
  | .awaiting => true
  | pc => pc.holdsMain

/-- A `stateChanged` call broadcast to the registered callbacks. -/
structure StateChanged where
  state : State
  profileName : String
  msg : Option Message
  deriving Repr, DecidableEq

/-- `BaseService.Data` and the fields of `VpnService`, with the coroutines
that work on them. -/
structure Service where
  state : State := .stopped
  /-- The pool, with the number of commands started in it. -/
  processes : Option Nat := none
  proxy : Option ProxyInstance := none
  udpFallback : Option ProxyInstance := none
  localDns : Bool := false
  notification : Option String := none
  closeReceiverRegistered : Bool := false
  connectingJob : Option Nat := none
  worker : Bool := false
  conn : Bool := false
  /-- `VpnService.active`. -/
  active : Bool := false
  jobs : Nat → Job := fun _ => {}
  nextJob : Nat := 0
  stops : Nat → Stop := fun _ => {}
  nextStop : Nat := 0
  /-- The stop that holds the main thread. -/
  main : Option Nat := none
  /-- Start commands the service has sent to itself. -/
  startRequests : Nat := 0
  sent : List StateChanged := []

namespace Service

/-! ## §2. The functions of `BaseService`. -/

/-- `Binder.getProfileName`. -/
def profileName (s : Service) : String :=
  (s.proxy.bind fun p => p.profile.name).getD "Idle"

/-- `Data.changeState`. -/
def changeState (s : Service) (st : State) (msg : Option Message) : Service :=
  if s.state = st ∧ msg = none then s
  else { s with sent := s.sent ++ [⟨st, s.profileName, msg⟩], state := st }

/-- The children `killProcesses` launches. -/
def killChildren (s : Service) : List Child :=
  (if s.processes.isSome then [.poolJoin] else [])
    ++ (if s.localDns then [.localDnsJoin] else [])
    ++ [.networkStop]
    ++ (if s.worker then [.workerJoin] else [])

/-- `VpnService.killProcesses`, the children apart. -/
def killProcesses (s : Service) : Service :=
  { s with processes := none, localDns := false, active := false, worker := false, conn := false }

def slot (s : Service) : Slot → Option ProxyInstance
  | .proxy => s.proxy
  | .udpFallback => s.udpFallback

def mapSlot (s : Service) (f : ProxyInstance → ProxyInstance) : Slot → Service
  | .proxy => { s with proxy := s.proxy.map f }
  | .udpFallback => { s with udpFallback := s.udpFallback.map f }

/-- `listOfNotNull(data.proxy, data.udpFallback)`. -/
def slots (s : Service) : List Slot :=
  (if s.proxy.isSome then [.proxy] else []) ++ (if s.udpFallback.isSome then [.udpFallback] else [])

/-- Assign the state of stop coroutine `k`. -/
def setStop (s : Service) (k : Nat) (c : Stop) : Service :=
  { s with stops := Function.update s.stops k c }

/-- The stretch of the stop coroutine from the end of `cancelAndJoin` to the
first `shutdown`; `c` is what it was started with. -/
def cleanUp (s : Service) (k : Nat) (c : Stop) : Service :=
  let killed := s.killProcesses
  { killed with
    closeReceiverRegistered := false
    notification := none
    main := some k
    stops := Function.update s.stops k
      { c with pc := .shutdown s.slots, children := s.killChildren } }

/-- The coroutine of `stopRunner` begins, in state Stopping: it runs at once
up to its first suspension, and a job that has completed is joined without
one. -/
def launchStop (s : Service) (c : Stop) : Service :=
  let k := s.nextStop
  let t := { s with nextStop := k + 1 }
  match s.connectingJob.filter fun j => (s.jobs j).pc.active with
  | some j =>
      { t with
        jobs := Function.update s.jobs j { s.jobs j with cancelled := true }
        stops := Function.update s.stops k { c with pc := .joining j } }
  | none => t.cleanUp k c

/-- `stopRunner(restart, msg)`. -/
def stopRunner (s : Service) (restart : Bool) (msg : Option Message) : Service :=
  if s.state = .stopping then s
  else (s.changeState .stopping none).launchStop { restart, msg }

/-- `startRunner()`. -/
def startRunner (s : Service) : Service := { s with startRequests := s.startRequests + 1 }

/-- `forceLoad()`. -/
def forceLoad (s : Service) : Service :=
  if s.state = .stopped then s.startRunner
  else if s.state.canStop then s.stopRunner true none
  else s

/-- `data.connectingJob = GlobalScope.launch(Dispatchers.Main)`. -/
def launchJob (s : Service) (profile : Profile) : Service :=
  { s with
    jobs := Function.update s.jobs s.nextJob { pc := .created, route := profile.route }
    connectingJob := some s.nextJob
    nextJob := s.nextJob + 1 }

/-- The end of `onStartCommand` for a profile that has been accepted. -/
def connect (s : Service) (profile : Profile) : Service :=
  (changeState
    { s with closeReceiverRegistered := true, notification := some profile.formattedName }
    .connecting none).launchJob profile

/-- A start that fails before the session begins. -/
def refuse (s : Service) (msg : Message) : Service :=
  stopRunner { s with notification := some "" } false (some msg)

/-- `onStartCommand`, with the value of `Core.currentProfile`. -/
def onStartCommand (decode : String → Option Nat) (s : Service)
    (expanded : Option ExpandedProfile) : Service :=
  if s.state ≠ .stopped then s
  else
    match expanded with
    | none => s.refuse .profileEmpty
    | some e =>
        match ProxyInstance.new decode e.main e.main.route with
        | .error msg => s.refuse msg
        | .ok proxy =>
            match e.udpFallback with
            | none => connect { s with proxy := some proxy, udpFallback := none } e.main
            | some fallback =>
                match ProxyInstance.new decode fallback e.main.route with
                | .error msg => refuse { s with proxy := some proxy } msg
                | .ok udp => connect { s with proxy := some proxy, udpFallback := some udp } e.main

/-! ## §3. The connecting job. -/

/-- What a step of the job throws. -/
inductive Thrown where
  | cancellation
  | other (readableMessage : String)
  deriving Repr, DecidableEq

/-- The `finally` block; the job is over. -/
def finish (s : Service) (j : Nat) : Service :=
  { s with
    jobs := Function.update s.jobs j { s.jobs j with pc := .completed }
    connectingJob := none }

/-- The catch blocks and the `finally` block of the job. -/
def catchThrown (s : Service) (j : Nat) : Thrown → Service
  | .cancellation => s.finish j
  | .other message => (s.stopRunner false (some (.serviceFailed message))).finish j

/-- The assignments from `data.processes = GuardedProcessPool` to the
`delay` of `sendFd`, in their order; no suspension in between. -/
def startEffects : List (Service → Service) :=
  [ fun s => { s with processes := some 0 },
    fun s => { s with worker := true },
    -- `data.proxy!!.start`: the monitor, then the command
    fun s => s.mapSlot (fun p => { p with trafficMonitor := some {} }) .proxy,
    fun s => { s with processes := s.processes.map (· + 1) },
    -- `udpFallback?.start`
    fun s => s.mapSlot (fun p => { p with trafficMonitor := some {} }) .udpFallback,
    fun s => if s.udpFallback.isSome then { s with processes := s.processes.map (· + 1) } else s,
    fun s => { s with localDns := true },
    -- `startVpn`
    fun s => { s with active := true },
    fun s => { s with conn := true },
    fun s => { s with processes := s.processes.map (· + 1) } ]

/-- The first `n` of the assignments. -/
def startUp (s : Service) (n : Nat) : Service :=
  (startEffects.take n).foldl (fun s f => f s) s

/-! ## §4. The steps. -/

/-- Who moves, and what the environment has chosen. -/
inductive Label where
  | startCommand (expanded : Option ExpandedProfile)
  /-- The broadcast CLOSE. -/
  | close
  /-- The broadcast RELOAD. -/
  | reload
  | revoke
  /-- `onFatal` of the pool, or the restart callback of the tun2socks
  process. -/
  | fatal (message : Option String)
  /-- The totals of a traffic monitor change. -/
  | report (slot : Slot) (stats : TrafficStats)
  /-- The body of a launched job begins. -/
  | dispatch (j : Nat)
  /-- A job cancelled before its body began completes. -/
  | drop (j : Nat)
  /-- The network actor takes the Start message. -/
  | startTaken (j : Nat)
  | preInitDone (j : Nat)
  | flattened (j : Nat)
  /-- `n` assignments of `startEffects`, then an exception if some are
  left. -/
  | startUp (j n : Nat) (readableMessage : String)
  /-- One attempt of `sendFd`, with the message of its IOException. -/
  | sendFd (j : Nat) (failure : Option String)
  /-- The job resumes with an exception. -/
  | throw (j : Nat) (e : Thrown)
  /-- `cancelAndJoin` returns. -/
  | joined (k : Nat)
  /-- The next proxy is shut down; `row` is what `getProfile` has
  returned. -/
  | persistRead (k : Nat) (row : Option Profile)
  | persistWrite (k : Nat)
  | shutdownDone (k : Nat)
  | childDone (k : Nat) (c : Child)
  /-- `coroutineScope` returns. -/
  | stopped (k : Nat)
  deriving Repr, DecidableEq

/-- What others send the service: the start command and the broadcasts. Nothing
in the application sends RELOAD. -/
def Label.delivered : Label → Bool
  | .startCommand _ => true
  | .close => true
  | .reload => true
  | _ => false

/-- The main thread can resume job `j` at `pc`; a cancelled job resumes only
with an exception. -/
def Resumes (s : Service) (j : Nat) (pc : JobPc) : Prop :=
  s.main = none ∧ (s.jobs j).pc = pc ∧ (s.jobs j).cancelled = false

instance (s : Service) (j : Nat) (pc : JobPc) : Decidable (s.Resumes j pc) :=
  inferInstanceAs (Decidable (_ ∧ _))

def goto (s : Service) (j : Nat) (pc : JobPc) : Service :=
  { s with jobs := Function.update s.jobs j { s.jobs j with pc := pc } }

/-- One attempt of `sendFd` after `tries` failures, with what follows it. -/
def attempt (s : Service) (j tries : Nat) : Option String → Service
  | none => (s.changeState .connected none).finish j
  | some message =>
      if 5 < tries then s.catchThrown j (.other message) else s.goto j (.sendFd (tries + 1))

/-- `shutdown` of one proxy up to the write of its row. -/
def shutdownProxy (s : Service) (k : Nat) (w : Slot) (rest : List Slot)
    (row : Option Profile) : Service :=
  let c := s.stops k
  match (s.slot w).bind fun p => p.trafficMonitor with
  | none => s.setStop k { c with pc := .shutdown rest }
  | some t =>
      let children := c.children ++ [.trafficMonitorJoin]
      (s.mapSlot (fun p => { p with trafficMonitor := none }) w).setStop k <|
        match row with
        | none => { c with pc := .shutdown rest, children }
        | some r =>
            { c with
              pc := .persist rest { r with tx := r.tx + t.txTotal, rx := r.rx + t.rxTotal }
              children }

/-- The end of the stop coroutine. -/
def endStop (s : Service) (k : Nat) : Service :=
  let c := s.stops k
  let t := (s.changeState .stopped c.msg).setStop k { c with pc := .done }
  if c.restart then t.startRunner else t

/-- **One step of the service**, `none` if the label is not enabled. -/
def step (decode : String → Option Nat) (s : Service) : Label → Option Service
  | .startCommand expanded =>
      if s.main = none then some (s.onStartCommand decode expanded) else none
  | .close =>
      if s.main = none then
        some (if s.closeReceiverRegistered then s.stopRunner false none else s)
      else none
  | .reload =>
      if s.main = none then some (if s.closeReceiverRegistered then s.forceLoad else s) else none
  | .revoke => if s.main = none then some (s.stopRunner false none) else none
  | .fatal message =>
      if s.main = none then some (s.stopRunner false (message.map .text)) else none
  | .report w stats =>
      if ((s.slot w).bind fun p => p.trafficMonitor).isSome then
        some (s.mapSlot (fun p => { p with trafficMonitor := some stats }) w)
      else none
  | .dispatch j => if s.Resumes j .created then some (s.goto j (.preInit false)) else none
  | .drop j =>
      if s.main = none ∧ (s.jobs j).pc = .created ∧ (s.jobs j).cancelled = true then
        some (s.goto j .completed)
      else none
  | .startTaken j =>
      if (s.jobs j).pc = .preInit false ∧ (s.jobs j).cancelled = false then
        some (s.goto j (.preInit true))
      else none
  | .preInitDone j =>
      if s.Resumes j (.preInit true) then
        some (s.goto j (if (s.jobs j).route = "custom-rules" then .flatten else .startUp))
      else none
  | .flattened j => if s.Resumes j .flatten then some (s.goto j .startUp) else none
  | .startUp j n message =>
      -- without a proxy the third assignment throws
      if s.Resumes j .startUp ∧ (s.proxy.isSome ∨ n ≤ 2) then
        some (if startEffects.length ≤ n then (s.startUp n).goto j (.sendFd 0)
              else (s.startUp n).catchThrown j (.other message))
      else none
  | .sendFd j failure =>
      match (s.jobs j).pc with
      | .sendFd tries =>
          if s.Resumes j (.sendFd tries) then some (s.attempt j tries failure) else none
      | _ => none
  | .throw j e =>
      if s.main = none ∧ (s.jobs j).pc.active = true
          ∧ ((s.jobs j).cancelled = true → (s.jobs j).pc ≠ .created ∧ e = .cancellation) then
        some (s.catchThrown j e)
      else none
  | .joined k =>
      match (s.stops k).pc with
      | .joining j =>
          if s.main = none ∧ (s.jobs j).pc = .completed then some (s.cleanUp k (s.stops k))
          else none
      | _ => none
  | .persistRead k row =>
      match (s.stops k).pc with
      | .shutdown (w :: rest) => some (s.shutdownProxy k w rest row)
      | _ => none
  | .persistWrite k =>
      match (s.stops k).pc with
      | .persist rest _ => some (s.setStop k { s.stops k with pc := .shutdown rest })
      | _ => none
  | .shutdownDone k =>
      match (s.stops k).pc with
      | .shutdown [] =>
          some { s with
                 stops := Function.update s.stops k { s.stops k with pc := .awaiting }
                 proxy := none, udpFallback := none, main := none }
      | _ => none
  | .childDone k c =>
      if c ∈ (s.stops k).children then
        some (s.setStop k { s.stops k with children := (s.stops k).children.erase c })
      else none
  | .stopped k =>
      if s.main = none ∧ (s.stops k).pc = .awaiting ∧ (s.stops k).children = [] then
        some (s.endStop k)
      else none

/-! ## §5. Labels that were taken. -/

section Taken

variable {decode : String → Option Nat} {s s' : Service} {j k : Nat}

theorem of_sendFd {failure : Option String} (h : step decode s (.sendFd j failure) = some s') :
    ∃ tries, s.Resumes j (.sendFd tries) ∧ s.attempt j tries failure = s' := by
  simp only [step] at h
  split at h
  next tries _ => exact ⟨tries, Lib.of_enabled h⟩
  next => exact absurd h (by simp)

theorem of_joined (h : step decode s (.joined k) = some s') :
    ∃ j, (s.stops k).pc = .joining j ∧ (s.jobs j).pc = .completed
      ∧ s.cleanUp k (s.stops k) = s' := by
  simp only [step] at h
  split at h
  next j hk =>
    obtain ⟨⟨_, hj⟩, hs⟩ := Lib.of_enabled h
    exact ⟨j, hk, hj, hs⟩
  next => exact absurd h (by simp)

theorem of_persistRead {row : Option Profile}
    (h : step decode s (.persistRead k row) = some s') :
    ∃ w rest, (s.stops k).pc = .shutdown (w :: rest) ∧ s.shutdownProxy k w rest row = s' := by
  simp only [step] at h
  split at h
  next w rest hk => exact ⟨w, rest, hk, Option.some.inj h⟩
  next => exact absurd h (by simp)

theorem of_persistWrite (h : step decode s (.persistWrite k) = some s') :
    ∃ rest row, (s.stops k).pc = .persist rest row
      ∧ s.setStop k { s.stops k with pc := .shutdown rest } = s' := by
  simp only [step] at h
  split at h
  next rest row hk => exact ⟨rest, row, hk, Option.some.inj h⟩
  next => exact absurd h (by simp)

theorem of_shutdownDone (h : step decode s (.shutdownDone k) = some s') :
    (s.stops k).pc = .shutdown []
      ∧ { s with
            stops := Function.update s.stops k { s.stops k with pc := .awaiting }
            proxy := none, udpFallback := none, main := none } = s' := by
  simp only [step] at h
  split at h
  next hk => exact ⟨hk, Option.some.inj h⟩
  next => exact absurd h (by simp)

end Taken

end Service

end FoxVpn.Bg
