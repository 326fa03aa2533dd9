/-
  FoxVpn.App.VpnManager
  ─────────────────────
  **THE VIEW MODEL OF THE MAIN SCREEN AND THE SERVICE IT TALKS TO.**

  `VpnManager` lives in the UI process.  It keeps the state it displays in a
  `LiveData`, the server it has connected to in a lateinit property, and
  reaches the service by broadcasts and start commands; the service answers
  with callbacks.  Neither waits for the other.

  A `Device` is both processes with what is in flight between them:

      process · init                       a new process, a new activity
      select · startVpn · start · stopVpn · onStop            the screen
      connecting · determine · disconnecting · ..          coroutines
      registerCallback · onServiceConnected · stateChanged    callbacks
      flush                                          `LiveData.postValue`
      deliverClose · deliverStart · service l             the service

  The display of the screens (`currentServer`, the dialogs, the ads) has no
  influence on the two servers and is left out; what an ad decides is part
  of the label.
-/
import FoxVpn.App.FoxFbManager
import FoxVpn.Bg.Host

namespace FoxVpn.App

open FoxVpn.Lib FoxVpn.Database FoxVpn.Bg

/-! ## §1. The servers of the screen. -/

/-- A country with its servers. -/
structure VpnServer where
  name : String
  servers : List ServerItem
  deriving Repr, DecidableEq

/-- The arguments `determineServer` passes to `Core.updateProfile`. -/
def ServerItem.server (i : ServerItem) : Server where
  ip := i.ip
  name := i.city
  method := i.method
  pwd := i.pwd
  port := i.port

/-- One round of the loop of `buildAllServer`, on its map. -/
def addServer : List VpnServer → ServerItem → List VpnServer
  | [], i => [⟨i.country, [i]⟩]
  | v :: rest, i =>
      if v.name = i.country then { v with servers := v.servers ++ [i] } :: rest
      else v :: addServer rest i

def buildAllServer (foxServers : List ServerItem) : List VpnServer :=
  if foxServers = [] then [] else ⟨"Auto", []⟩ :: foxServers.foldl addServer []

/-- The nested loops over the servers that assign every item with the given
ip; `old` is the value before. -/
def matching (ip : String) (old : Option ServerItem) (servers : List VpnServer) :
    Option ServerItem :=
  (servers.flatMap (·.servers)).foldl (fun acc i => if ip = i.ip then some i else acc) old

theorem mem_addServer {servers : List VpnServer} {i x : ServerItem} :
    x ∈ (addServer servers i).flatMap (·.servers) ↔ x ∈ servers.flatMap (·.servers) ∨ x = i := by
  induction servers with
  | nil => simp [addServer]
  | cons v rest ih =>
      unfold addServer
      split
      next =>
        simp only [List.flatMap_cons, List.mem_append, List.mem_singleton]
        exact or_right_comm
      next =>
        simp only [List.flatMap_cons, List.mem_append, ih]
        exact (or_assoc).symm

theorem mem_foldl_addServer : ∀ (items : List ServerItem) (servers : List VpnServer)
    {x : ServerItem}, x ∈ (items.foldl addServer servers).flatMap (·.servers)
      ↔ x ∈ servers.flatMap (·.servers) ∨ x ∈ items
  | [], servers, x => by simp
  | i :: items, servers, x => by
      rw [List.foldl_cons, mem_foldl_addServer items, mem_addServer, List.mem_cons, or_assoc]

/-- The grouping by country loses no server and invents none. -/
theorem mem_buildAllServer {foxServers : List ServerItem} {x : ServerItem} :
    x ∈ (buildAllServer foxServers).flatMap (·.servers) ↔ x ∈ foxServers := by
  unfold buildAllServer
  by_cases h : foxServers = []
  · rw [if_pos h, h]
    simp
  · rw [if_neg h, List.flatMap_cons, List.nil_append, mem_foldl_addServer]
    simp

theorem foldl_matching (ip : String) : ∀ (items : List ServerItem) (old : Option ServerItem),
    ((∀ i ∈ items, i.ip ≠ ip)
        ∧ items.foldl (fun acc i => if ip = i.ip then some i else acc) old = old)
      ∨ ((∃ i ∈ items, i.ip = ip)
        ∧ ∃ i, items.foldl (fun acc i => if ip = i.ip then some i else acc) old = some i
          ∧ i.ip = ip)
  | [], old => Or.inl ⟨by simp, rfl⟩
  | i :: items, old => by
      rw [List.foldl_cons]
      by_cases hi : ip = i.ip
      · rw [if_pos hi]
        refine Or.inr ⟨⟨i, List.mem_cons_self, hi.symm⟩, ?_⟩
        rcases foldl_matching ip items (some i) with ⟨_, h⟩ | ⟨_, h⟩
        · exact ⟨i, h, hi.symm⟩
        · exact h
      · rw [if_neg hi]
        rcases foldl_matching ip items old with ⟨hno, h⟩ | ⟨⟨x, hx, hip⟩, h⟩
        · refine Or.inl ⟨fun x hx => ?_, h⟩
          rcases List.mem_cons.mp hx with rfl | hx
          · exact Ne.symm hi
          · exact hno x hx
        · exact Or.inr ⟨⟨x, List.mem_cons_of_mem _ hx, hip⟩, h⟩

/-- The loops assign exactly if one of the servers has the ip. -/
theorem matching_buildAllServer (ip : String) (old : Option ServerItem)
    (foxServers : List ServerItem) :
    ((∀ i ∈ foxServers, i.ip ≠ ip) ∧ matching ip old (buildAllServer foxServers) = old)
      ∨ ((∃ i ∈ foxServers, i.ip = ip)
        ∧ ∃ i, matching ip old (buildAllServer foxServers) = some i ∧ i.ip = ip) := by
  rcases foldl_matching ip ((buildAllServer foxServers).flatMap (·.servers)) old with
    ⟨hno, h⟩ | ⟨⟨x, hx, hip⟩, h⟩
  · exact Or.inl ⟨fun i hi => hno i (mem_buildAllServer.mpr hi), h⟩
  · exact Or.inr ⟨⟨x, mem_buildAllServer.mp hx, hip⟩, h⟩

/-! ## §2. The states of the UI process. -/

/-- Where a coroutine of `start()` stands. -/
inductive ConnectingPc where
  | launched
  /-- The state was Connected: Stopping is to be posted. -/
  | checked
  /-- In `delay(500L)`. -/
  | closing
  /-- In `delay(200L)`. -/
  | closed
  /-- Past the branch: Connecting is to be posted. -/
  | passed
  /-- In `determineServer`, Connecting has been posted. -/
  | determining
  /-- `connectServer` has been assigned. -/
  | assigned
  /-- In `Core.updateProfile`, with the row to write. -/
  | updating (row : Profile)
  /-- In `withTimeoutOrNull`, the row has been written. -/
  | written
  | over
  deriving Repr, DecidableEq

structure ConnectingJob where
  pc : ConnectingPc := .over
  cancelled : Bool := false
  deriving Repr, DecidableEq

/-- The job has chosen a server and may still start the service with it; a
cancelled one ends in `withTimeoutOrNull`. -/
def ConnectingJob.choosing (j : ConnectingJob) : Bool :=
  match j.pc with
  | .assigned => true
  | .updating _ => true
  | .written => !j.cancelled
  | _ => false

/-- Where a coroutine of `stopVpn()` stands. -/
inductive DisconnectingPc where
  | launched
  /-- Stopping has been posted; it waits for an ad. -/
  | waiting
  | over
  deriving Repr, DecidableEq

structure DisconnectingJob where
  pc : DisconnectingPc := .over
  cancelled : Bool := false
  deriving Repr, DecidableEq

structure VpnManager where
  /-- `state.value`, and the value that waits to be set by `postValue`. -/
  state : Option State := none
  posted : Option State := none
  stop : Bool := false
  servers : List VpnServer := []
  selectServer : Option ServerItem := none
  /-- `lateinit var connectServer`. -/
  connectServer : Option ServerItem := none
  /-- Permission dialogs that will call `start()`. -/
  launching : Nat := 0
  connectingJob : Option Nat := none
  connectingJobs : Nat → ConnectingJob := fun _ => {}
  nextConnecting : Nat := 0
  disconnectingJob : Option Nat := none
  disconnectingJobs : Nat → DisconnectingJob := fun _ => {}
  nextDisconnecting : Nat := 0
  /-- Ads shown before a disconnect. -/
  stopAds : Nat := 0
  /-- Coroutines of `changeState(Connected)` that wait for an ad. -/
  resultJobs : Nat := 0
  /-- How many broadcasts of the service have been taken, if the callback is
  registered. -/
  seen : Option Nat := none

structure Device where
  ui : VpnManager := {}
  host : Host := {}
  /-- `DataManager.connectIp`. -/
  connectIp : String := ""
  foxServers : List ServerItem := []
  foxSmartServers : List ServerItem := []
  /-- CLOSE broadcasts and start commands in flight. -/
  closes : Nat := 0
  starts : Nat := 0

/-! ## §3. The functions of `VpnManager`. -/

namespace VpnManager

def postValue (m : VpnManager) (st : State) : VpnManager := { m with posted := some st }

/-- `initServers`; `first()` throws on an empty list. -/
def initServers (m : VpnManager) (connectIp : String) (foxServers : List ServerItem) :
    Option VpnManager :=
  if connectIp = "" then
    if buildAllServer foxServers = [] then none
    else some { m with servers := buildAllServer foxServers }
  else
    some { m with
           connectServer := matching connectIp m.connectServer (buildAllServer foxServers)
           selectServer := matching connectIp m.selectServer (buildAllServer foxServers)
           servers := buildAllServer foxServers }

/-- Assign the state of a coroutine. -/
def setConnecting (m : VpnManager) (j : Nat) (job : ConnectingJob) : VpnManager :=
  { m with connectingJobs := Function.update m.connectingJobs j job }

def setDisconnecting (m : VpnManager) (j : Nat) (job : DisconnectingJob) : VpnManager :=
  { m with disconnectingJobs := Function.update m.disconnectingJobs j job }

/-- `connectingJob?.cancel()`. -/
def cancelConnecting (m : VpnManager) : VpnManager :=
  match m.connectingJob with
  | none => m
  | some j => m.setConnecting j { m.connectingJobs j with cancelled := true }

/-- `disconnectingJob?.cancel()`. -/
def cancelDisconnecting (m : VpnManager) : VpnManager :=
  match m.disconnectingJob with
  | none => m
  | some j => m.setDisconnecting j { m.disconnectingJobs j with cancelled := true }

/-- `start()`, up to the launch of its coroutine. -/
def start (m : VpnManager) : VpnManager :=
  let m := m.cancelConnecting
  { m.setConnecting m.nextConnecting { pc := .launched } with
    connectingJob := some m.nextConnecting
    nextConnecting := m.nextConnecting + 1 }

/-- `stopVpn()`, up to the launch of its coroutine. -/
def stopVpn (m : VpnManager) : VpnManager :=
  if m.state = some .stopping ∨ m.state = some .connecting then m
  else
    let m := { m with stop := true }.cancelDisconnecting
    { m.setDisconnecting m.nextDisconnecting { pc := .launched } with
      disconnectingJob := some m.nextDisconnecting
      nextDisconnecting := m.nextDisconnecting + 1 }

def onStop (m : VpnManager) (connectIp : String) : VpnManager :=
  let m := { m with stop := false }
  if m.state = some .stopping then
    let m := m.cancelDisconnecting.postValue .connected
    { m with selectServer :=
        if connectIp = "" then none else matching connectIp m.selectServer m.servers }
  else if m.state = some .connecting then m.cancelConnecting.postValue .stopped
  else m

end VpnManager

/-! ## §4. The coroutines and the callbacks. -/

namespace Device

/-- Coroutine `j` goes on to `pc`. -/
def setConnecting (d : Device) (j : Nat) (pc : ConnectingPc) : Device :=
  { d with ui := d.ui.setConnecting j { d.ui.connectingJobs j with pc := pc } }

def setDisconnecting (d : Device) (j : Nat) (pc : DisconnectingPc) : Device :=
  { d with ui := d.ui.setDisconnecting j { d.ui.disconnectingJobs j with pc := pc } }

def postValue (d : Device) (st : State) : Device := { d with ui := d.ui.postValue st }

/-- The next step of coroutine `j` of `start()`, the choice of the server
apart.  A coroutine that is cancelled stays in its suspension. -/
def connectingStep (d : Device) (j : Nat) : Option Device :=
  let job := d.ui.connectingJobs j
  match job.pc with
  | .launched =>
      if job.cancelled then none
      else some (d.setConnecting j (if d.ui.state = some .connected then .checked else .passed))
  | .checked => some ((d.setConnecting j .closing).postValue .stopping)
  | .closing =>
      if job.cancelled then none
      else some { d.setConnecting j .closed with closes := d.closes + 1 }
  | .closed => if job.cancelled then none else some (d.setConnecting j .passed)
  | .passed => some ((d.setConnecting j .determining).postValue .connecting)
  | .determining => none
  | .assigned =>
      match d.ui.connectServer with
      | none => none
      | some c =>
          match Core.fetchRow d.host.storage with
          | .error _ => none
          | .ok (p, st) =>
              some { d.setConnecting j (.updating (c.server.writeTo p)) with
                host := { d.host with storage := st } }
  | .updating row =>
      match updateProfile d.host.storage row with
      | .error _ => none
      | .ok st => some { d.setConnecting j .written with host := { d.host with storage := st } }
  | .written =>
      if job.cancelled then none
      else some { d.setConnecting j .over with starts := d.starts + 1 }
  | .over => none

/-- The assignment in `determineServer`, with what `random()` has drawn. -/
def determineServer (d : Device) (j : Nat) (i : ServerItem) : Device :=
  let d := d.setConnecting j .assigned
  { d with ui := { d.ui with connectServer := some i } }

/-- The end of `changeState(Connected)`: the state is posted first, then the
lateinit property is read. -/
def connected (d : Device) : Device :=
  match d.ui.connectServer with
  | none => d.postValue .connected
  | some c => { d.postValue .connected with connectIp := c.ip }

/-- `changeState`; `pb` is `IVCNT_KEY.foxPb()`. -/
def changeState (d : Device) (st : State) (pb : Bool) : Device :=
  if st = .connected then
    if pb then d.connected
    else { d with ui := { d.ui with resultJobs := d.ui.resultJobs + 1 } }
  else if st = .stopped ∧ d.ui.stop = true then
    postValue { d with ui := { d.ui with stop := false } } st
  else d.postValue st

/-- `stateChanged`. -/
def stateChanged (d : Device) (st : State) (pb : Bool) : Device :=
  match st with
  | .connected => d.changeState st pb
  | .stopped => d.changeState st pb
  | _ => d

/-- `onServiceConnected`, once the callback is registered. -/
def onServiceConnected (d : Device) : Device :=
  match d.host.service.state with
  | .connected => d.postValue .connected
  | .stopped => d.postValue .stopped
  | _ => d

/-! ## §5. The steps. -/

inductive Label where
  /-- A new UI process with its server lists, up to `init`. -/
  | process (foxServers foxSmartServers : List ServerItem)
  /-- A new activity with the same view model. -/
  | init
  /-- Remote config has replaced the lists. -/
  | remoteConfig (foxServers foxSmartServers : List ServerItem)
  /-- The server screen assigns `selectServer`. -/
  | select (item : Option ServerItem)
  | startVpn
  | start
  | connecting (j : Nat)
  | determine (j : Nat) (item : ServerItem)
  | stopVpn
  | disconnecting (j : Nat)
  | stopService (j : Nat)
  | showAd (j : Nat)
  | dismiss
  | onStop
  | registerCallback
  | onServiceConnected
  | onServiceDisconnected
  | stateChanged (pb : Bool)
  /-- A coroutine of `changeState(Connected)` is done with its ad. -/
  | resultShown
  | flush
  | deliverClose
  | deliverStart
  | service (l : Service.Label)
  deriving Repr, DecidableEq

/-- The steps of the service on its own: what a session may still report ends
before the service is Stopped. -/
def own (s : Service) : Service.Label → Bool
  | .revoke => s.state ≠ .stopped
  | .fatal _ => s.state ≠ .stopped
  | l => !l.delivered

/-- A step of the service process. -/
def hostStep (decode : String → Option Nat) (d : Device) (l : Service.Label) : Option Device :=
  (d.host.step decode l).map fun host => { d with host }

/-- **One step of the device.** -/
def step (decode : String → Option Nat) (d : Device) : Label → Option Device
  | .process foxServers foxSmartServers =>
      match ({} : VpnManager).initServers d.connectIp foxServers with
      | some ui => some { d with ui, foxServers, foxSmartServers }
      | none => none
  | .init =>
      match { d.ui with seen := none }.initServers d.connectIp d.foxServers with
      | some ui => some { d with ui }
      | none => none
  | .remoteConfig foxServers foxSmartServers => some { d with foxServers, foxSmartServers }
  | .select item => some { d with ui := { d.ui with selectServer := item } }
  | .startVpn =>
      if d.ui.state = some .stopping ∨ d.ui.state = some .connecting ∨ d.foxServers = [] then none
      else some { d with ui := { d.ui with launching := d.ui.launching + 1 } }
  | .start =>
      if 0 < d.ui.launching then
        some { d with ui := { d.ui with launching := d.ui.launching - 1 }.start }
      else none
  | .connecting j => d.connectingStep j
  | .determine j item =>
      if (d.ui.connectingJobs j).pc = .determining
          ∧ (d.ui.selectServer = some item
            ∨ (d.ui.selectServer = none ∧ item ∈ d.foxSmartServers)) then
        some (d.determineServer j item)
      else none
  | .stopVpn => some { d with ui := d.ui.stopVpn }
  | .disconnecting j =>
      if d.ui.disconnectingJobs j = ⟨.launched, false⟩ then
        some ((d.setDisconnecting j .waiting).postValue .stopping)
      else none
  | .stopService j =>
      if d.ui.disconnectingJobs j = ⟨.waiting, false⟩ then
        some { d.setDisconnecting j .over with closes := d.closes + 1 }
      else none
  | .showAd j =>
      if d.ui.disconnectingJobs j = ⟨.waiting, false⟩ then
        let d := d.setDisconnecting j .over
        some { d with ui := { d.ui with stopAds := d.ui.stopAds + 1 } }
      else none
  | .dismiss =>
      if 0 < d.ui.stopAds then
        some { d with ui := { d.ui with stopAds := d.ui.stopAds - 1 }, closes := d.closes + 1 }
      else none
  | .onStop => some { d with ui := d.ui.onStop d.connectIp }
  | .registerCallback =>
      if d.ui.seen = none then
        some { d with ui := { d.ui with seen := some d.host.service.sent.length } }
      else none
  | .onServiceConnected => if d.ui.seen.isSome then some d.onServiceConnected else none
  | .onServiceDisconnected =>
      some (postValue { d with ui := { d.ui with seen := none } } .stopped)
  | .stateChanged pb =>
      match d.ui.seen with
      | none => none
      | some n =>
          match d.host.service.sent[n]? with
          | none => none
          | some e =>
              some (stateChanged { d with ui := { d.ui with seen := some (n + 1) } } e.state pb)
  | .resultShown =>
      -- an uninitialised `connectServer` is fatal outside `runCatching`
      if 0 < d.ui.resultJobs ∧ d.ui.connectServer.isSome then
        some (connected { d with ui := { d.ui with resultJobs := d.ui.resultJobs - 1 } })
      else none
  | .flush =>
      match d.ui.posted with
      | none => none
      | some st => some { d with ui := { d.ui with state := some st, posted := none } }
  | .deliverClose =>
      if 0 < d.closes then { d with closes := d.closes - 1 }.hostStep decode .close else none
  | .deliverStart =>
      if 0 < d.starts then
        match Core.currentProfile d.host.storage with
        | .ok e => { d with starts := d.starts - 1 }.hostStep decode (.startCommand e)
        | .error _ => none
      else none
  | .service l => if own d.host.service l = true then d.hostStep decode l else none

end Device

end FoxVpn.App
