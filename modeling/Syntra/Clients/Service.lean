import Syntra.Capture.Requests
import Syntra.Clients.Config
import Syntra.StateMachine.Handler

/-!
# The service and its clients

How the service adds, moves and deletes clients, which captures it asks for, how it keeps the peers
that enter this screen, and what it writes to the configuration (`service/clients.rs`,
`service/frontend.rs`, `service/input.rs`). What is sent to frontends and peers is left out.
-/

namespace Syntra.Clients

open StateMachine
open Capture (CaptureRequest)
open Emulation (SocketAddr)
open Files (PathBuf)
open Proto (Position)
open Service (ClientHandle)
open Tables

/-- A peer that has entered this screen, and the edge of its barrier. -/
structure Incoming (Ip : Type) where
  fingerprint : String
  addr : SocketAddr Ip
  pos : Position

/-- The part of the service that is about clients, keys and settings. -/
structure Service (Ip : Type) where
  config : Config Ip
  clientManager : ClientManager Ip
  authorizedKeys : Table String String
  port : UInt16
  clipboardSettings : ClipboardSettings
  fileReceiveSettings : FileReceiveSettings
  inputSharing : Bool
  nextTriggerHandle : ClientHandle
  incomingConns : Finset (SocketAddr Ip)
  incomingConnInfo : Table ClientHandle (Incoming Ip)
  /-- What the capture task was asked so far. -/
  requests : List CaptureRequest

/-- Where the service panics. -/
inductive Panic where
  | handleSpaceExhausted
  /-- An addition that overflows. -/
  | overflow
  /-- A peer that is known to have entered has no entry. -/
  | noSuchClient
  deriving DecidableEq, Repr

abbrev Handler (Ip α : Type) := StateMachine.Handler (Service Ip) Panic α

/-- The orders in which hash tables happen to yield what they hold. -/
structure HashOrders (Ip : Type) where
  ips : IterOrder Ip
  incoming : IterOrder ClientHandle

/-- What does not change while the service runs. -/
structure Host (Ip : Type) where
  orders : HashOrders Ip
  /-- The names of the backends of this platform. -/
  captureBackends : List String
  emulationBackends : List String
  /-- Where files are received if nothing else is configured. -/
  downloads : PathBuf

namespace Handler

variable {Ip : Type}

def service : Handler Ip (Service Ip) := StateMachine.Handler.read

def update (change : Service Ip → Service Ip) : Handler Ip Unit :=
  StateMachine.Handler.change change

def manage (change : ClientManager Ip → ClientManager Ip) : Handler Ip Unit :=
  update fun service => { service with clientManager := change service.clientManager }

def configure (change : Config Ip → Config Ip) : Handler Ip Unit :=
  update fun service => { service with config := change service.config }

def request (request : CaptureRequest) : Handler Ip Unit :=
  update fun service => { service with requests := service.requests ++ [request] }

def panic (panic : Panic) : Handler Ip Unit := StateMachine.Handler.stop panic

variable (handle : ClientHandle)

def deactivateClient : Handler Ip Unit := do
  let service ← service
  let deactivated := service.clientManager.deactivateClient handle
  manage fun _ => deactivated.1
  if deactivated.2 then
    request (.destroy handle)

def clearEdge (pos : Position) : Handler Ip Unit := do
  let service ← service
  match service.clientManager.clientAt pos with
  | some other => if other ≠ handle then deactivateClient other else pure ()
  | none => pure ()

def placeClient (pos : Position) : Handler Ip Unit := do
  let service ← service
  let activated := service.clientManager.activateClient handle
  manage fun _ => activated.1
  if activated.2 then
    request (.create handle pos .default)

def activateClient : Handler Ip Unit := do
  let service ← service
  match service.clientManager.getPos handle with
  | none => pure ()
  | some pos => do
    clearEdge handle pos
    placeClient handle pos

def setClientActive (active : Bool) : Handler Ip Unit :=
  if active then activateClient handle else deactivateClient handle

def removeClient : Handler Ip Unit := do
  let service ← service
  manage (·.removeClient handle)
  if service.clientManager.isActive handle true then
    request (.destroy handle)

/-- `set_pos` changes the client before its capture is moved. -/
def updatePos (pos : Position) : Handler Ip Unit := do
  let service ← service
  let moved := service.clientManager.setPos handle pos
  manage fun _ => moved.1
  if moved.2 then
    deactivateClient handle
    activateClient handle

def addClient : Handler Ip Unit := do
  let service ← service
  if room : service.clientManager.nextHandle < enterHandleBegin then
    manage fun _ => service.clientManager.addClient room
  else
    panic .handleSpaceExhausted

section Addresses

variable [LinearOrder Ip] (host : Host Ip)

def addDiscoveredClient (addresses : List Ip) (port : UInt16) : Handler Ip Unit := do
  let service ← service
  let known := service.clientManager.clientStates.any fun client =>
    addresses.any fun address =>
      address ∈ client.2.config.fixIps || address ∈ client.2.state.ips
  if addresses.isEmpty || port = 0 || known then
    pure ()
  else
    addClient
    let handle := service.clientManager.nextHandle
    manage fun manager => (manager.setFixIps handle addresses).setPort handle port

def addWithConfig (configured : ConfigClient Ip) : Handler Ip Unit := do
  let service ← service
  if room : service.clientManager.nextHandle < enterHandleBegin then
    manage fun _ => service.clientManager.addWithConfig host.orders.ips room configured
  else
    panic .handleSpaceExhausted

variable (addr : SocketAddr Ip)

def addIncoming (pos : Position) (fingerprint : String) : Handler Ip Unit := do
  let service ← service
  let handle := enterHandleBegin + service.nextTriggerHandle
  if handle < enterHandleBegin then
    panic .overflow
  else
    request (.create handle pos .enterOnly)
    update fun service => { service with
      nextTriggerHandle := service.nextTriggerHandle + 1
      incomingConns := insert addr service.incomingConns
      incomingConnInfo := service.incomingConnInfo.insert handle ⟨fingerprint, addr, pos⟩ }

def incomingAt (service : Service Ip) (addr : SocketAddr Ip) : Option ClientHandle :=
  (host.orders.incoming.arrange service.incomingConnInfo.keys).find? fun handle =>
    (service.incomingConnInfo.lookup handle).any (·.addr = addr)

def removeIncoming : Handler Ip Unit := do
  let service ← service
  match incomingAt host service addr with
  | none => pure ()
  | some handle =>
    request (.destroy handle)
    update fun service => { service with
      incomingConns := service.incomingConns.erase addr
      incomingConnInfo := service.incomingConnInfo.erase handle }

/-- The entry is changed before its capture is moved. -/
def updateIncoming (pos : Position) (fingerprint : String) : Handler Ip Unit := do
  let service ← service
  match incomingAt host service addr with
  | none => panic .noSuchClient
  | some handle =>
    let changed := (service.incomingConnInfo.lookup handle).any fun incoming =>
      incoming.fingerprint ≠ fingerprint || incoming.pos ≠ pos
    update fun service => { service with
      incomingConnInfo := service.incomingConnInfo.adjust handle fun incoming =>
        { incoming with fingerprint, pos } }
    if changed then
      removeIncoming host addr
      addIncoming addr pos fingerprint

def enter (pos : Position) (fingerprint : String) : Handler Ip Unit := do
  let service ← service
  if !service.inputSharing then
    pure ()
  else if addr ∉ service.incomingConns then
    addIncoming addr pos fingerprint
  else
    updateIncoming host addr pos fingerprint

end Addresses

end Handler

namespace Service

variable {Ip : Type}

variable (service : Service Ip)

def configClient [DecidableEq Ip] (handle : ClientHandle) (client : Client Ip) :
    ConfigClient Ip where
  ips := client.config.fixIps.toFinset
  hostname := client.config.hostname
  port := client.config.port
  pos := client.config.pos
  active := client.state.active
  enterHook := client.config.cmd
  peerFingerprint := service.clientManager.peerFingerprint handle

def configClients [DecidableEq Ip] : List (ConfigClient Ip) :=
  service.clientManager.clientStates.map fun client => service.configClient client.1 client.2

/-- The configuration that `save_config` writes. -/
def savedConfig [LinearOrder Ip] : Config Ip :=
  (service.config.setClients service.configClients).setAuthorizedKeys service.authorizedKeys

def settings : Settings where
  port := service.port
  clipboard := service.clipboardSettings
  fileReceive := service.fileReceiveSettings
  captureBackend := service.config.captureBackend
  emulationBackend := service.config.emulationBackend
  independentPointers := service.config.independentPointers
  hopBypass := service.config.hopBypass
  multiHop := service.config.multiHop
  edgePressure := service.config.edgePressure
  releaseBind := service.config.releaseBind

def new (host : Host Ip) (config : Config Ip) : Service Ip where
  config := config
  clientManager := .empty
  authorizedKeys := config.authorizedFingerprints
  port := config.port
  clipboardSettings := config.clipboardSettings
  fileReceiveSettings := config.fileReceiveSettings host.downloads
  inputSharing := true
  nextTriggerHandle := 0
  incomingConns := ∅
  incomingConnInfo := ∅
  requests := []

end Service

/-- The requests of frontends about clients, keys and settings. -/
inductive FrontendRequest (Ip : Type) where
  | activate (handle : ClientHandle) (active : Bool)
  | authorizeKey (desc fp : String)
  | changePort (port : UInt16)
  | create
  | createDiscovered (addresses : List Ip) (port : UInt16)
  | delete (handle : ClientHandle)
  | setInputSharing (enabled : Bool)
  | setIndependentPointers (enabled : Bool)
  | setMultiHop (enabled : Bool)
  | setCaptureBackend (name : Option String)
  | setEmulationBackend (name : Option String)
  | setHopBypass (enabled : Bool)
  | updateFixIps (handle : ClientHandle) (fixIps : List Ip)
  | updateHostname (handle : ClientHandle) (host : Option String)
  | updatePort (handle : ClientHandle) (port : UInt16)
  | updatePosition (handle : ClientHandle) (pos : Position)
  | removeAuthorizedKey (key : String)
  | updateEnterHook (handle : ClientHandle) (enterHook : Option String)
  | setClipboardText (value : Bool)
  | setClipboardImage (value : Bool)
  | setClipboardFiles (value : Bool)
  /-- `writes` tells whether the file can be written. -/
  | setFileReceiveSettings (settings : FileReceiveSettings) (writes : Bool)
  | saveConfiguration

/-- What happens to the service. -/
inductive ServiceInput (Ip : Type) where
  | request (request : FrontendRequest Ip)
  /-- The port that is listened on now, if the change was possible. -/
  | portChanged (port : Option UInt16)
  | entered (addr : SocketAddr Ip) (pos : Position) (fingerprint : String)
  | disconnected (addr : SocketAddr Ip)
  /-- `changed` tells whether the peer had another certificate when it was last heard of. -/
  | peerAuthenticated (handle : ClientHandle) (fingerprint : String) (changed : Bool)
  | resolving (handle : ClientHandle)
  | resolved (handle : ClientHandle) (ips : List Ip)
  /-- The file was changed, and what it holds now. -/
  | configChanged (file : ConfigToml Ip)

namespace Handler

variable {Ip : Type} [LinearOrder Ip] (host : Host Ip)

/-- The document changes even if it cannot be written. -/
def saveConfig : Handler Ip Unit :=
  update fun service => { service with config := service.savedConfig }

def addActive (configured : ConfigClient Ip) : Handler Ip Unit := do
  let before ← service
  let handle := before.clientManager.nextHandle
  addWithConfig host configured
  let after ← service
  if after.clientManager.isActive handle true then
    manage fun manager => (manager.deactivateClient handle).1
    activateClient handle

def handleConfigChange : Handler Ip Unit := do
  let before ← service
  .each before.clientManager.registeredClients removeClient
  .each before.config.clients (addActive host)
  update fun service =>
    { service with authorizedKeys := service.config.authorizedFingerprints }

def setBackend (choices : List String) (name : Option String)
    (set : Config Ip → Option String → Config Ip) : Handler Ip Unit :=
  if name.all (· ∈ choices) then do
    configure fun config => set config name
    saveConfig
  else
    pure ()

def setClipboard (change : ClipboardSettings → ClipboardSettings) : Handler Ip Unit := do
  update fun service =>
    let clipboardSettings := change service.clipboardSettings
    { service with
      clipboardSettings
      config := service.config.setClipboardSettings clipboardSettings }
  saveConfig

def setFileReceive (settings : FileReceiveSettings) (writes : Bool) : Handler Ip Unit :=
  if settings.downloadDirectory.isAbsolute then
    update fun service =>
      let persisted := service.config.persistFileReceiveSettings settings writes
      { service with
        config := persisted.1
        fileReceiveSettings := if persisted.2 then settings else service.fileReceiveSettings }
  else
    pure ()

def handleRequest : FrontendRequest Ip → Handler Ip Unit
  | .activate handle active => do
    setClientActive handle active
    saveConfig
  | .authorizeKey desc fp => do
    update fun service => { service with authorizedKeys := service.authorizedKeys.insert fp desc }
    saveConfig
  -- The listener is asked and answers later.
  | .changePort _ => pure ()
  | .create => do
    addClient
    saveConfig
  | .createDiscovered addresses port => do
    addDiscoveredClient addresses port
    saveConfig
  | .delete handle => do
    removeClient handle
    saveConfig
  | .setInputSharing enabled => update fun service => { service with inputSharing := enabled }
  -- A refused request is kept for the next start.
  | .setIndependentPointers enabled => do
    configure (·.setIndependentPointers enabled)
    saveConfig
  | .setMultiHop enabled => do
    configure (·.setMultiHop enabled)
    saveConfig
  | .setCaptureBackend name => setBackend host.captureBackends name .setCaptureBackend
  | .setEmulationBackend name => setBackend host.emulationBackends name .setEmulationBackend
  | .setHopBypass enabled => do
    configure (·.setHopBypass enabled)
    saveConfig
  | .updateFixIps handle fixIps => do
    manage (·.setFixIps handle fixIps)
    saveConfig
  | .updateHostname handle name => do
    manage (·.setHostname handle name)
    saveConfig
  | .updatePort handle port => do
    manage (·.setPort handle port)
    saveConfig
  | .updatePosition handle pos => do
    updatePos handle pos
    saveConfig
  | .removeAuthorizedKey key => do
    update fun service => { service with authorizedKeys := service.authorizedKeys.erase key }
    saveConfig
  | .updateEnterHook handle enterHook => manage (·.setEnterHook handle enterHook)
  | .setClipboardText value => setClipboard fun settings => { settings with text := value }
  | .setClipboardImage value => setClipboard fun settings => { settings with image := value }
  | .setClipboardFiles value => setClipboard fun settings => { settings with files := value }
  | .setFileReceiveSettings settings writes => setFileReceive settings writes
  | .saveConfiguration => saveConfig

def handle : ServiceInput Ip → Handler Ip Unit
  | .request request => handleRequest host request
  | .portChanged none => pure ()
  | .portChanged (some port) => do
    update fun service => { service with port, config := service.config.setPort port }
    saveConfig
  | .entered addr pos fingerprint => enter host addr pos fingerprint
  | .disconnected addr => removeIncoming host addr
  | .peerAuthenticated handle fingerprint changed => do
    let service ← service
    if changed && service.clientManager.peerFingerprint handle ≠ some fingerprint then
      manage (·.setPeerFingerprint handle fingerprint)
      saveConfig
  | .resolving handle => manage (·.setResolving handle true)
  | .resolved handle ips => do
    manage (·.setResolving handle false)
    manage (·.setDnsIps handle ips)
  | .configChanged file => do
    configure fun config => { config with configToml := some file }
    handleConfigChange host

def launch (configured : List (ConfigClient Ip)) : Handler Ip Unit := do
  .each configured (addWithConfig host)
  let service ← service
  let active := service.clientManager.activeClients
  .each active fun handle => manage fun manager => (manager.deactivateClient handle).1
  .each active activateClient

end Handler

variable {Ip : Type} [LinearOrder Ip]

/-- The service comes from a start with this configuration. -/
def Starts (host : Host Ip) (config : Config Ip) (service : Service Ip) : Prop :=
  Handler.launch host config.clients (.new host config) = (.ok (), service)

def running (host : Host Ip) (service : Service Ip) : Machine (Service Ip) (ServiceInput Ip) where
  initial := service
  enabled := fun service input => (Handler.handle host input service).1 = .ok ()
  next := fun service input => (Handler.handle host input service).2

end Syntra.Clients
