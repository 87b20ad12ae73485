import Mathlib.Data.Finset.Sort
import Syntra.Emulation.Requests
import Syntra.Service.Events

/-!
# The clients

The remote machines this device can hand its input to (`client.rs`). No handle is given twice, so
the order of the handles is the order in which the clients were added. What is only shown of a
client is left out.
-/

namespace Syntra.Clients

open Emulation (SocketAddr)
open Proto (Position)
open Service (ClientHandle)
open Tables

def defaultPort : UInt16 := 4242

/-- Handles from here on stand for peers that enter this screen. -/
def enterHandleBegin : ClientHandle := 0x8000000000000000

/-- What the user has said of a client. -/
structure ClientConfig (Ip : Type) where
  hostname : Option String
  /-- Addresses that the user gave. -/
  fixIps : List Ip
  port : UInt16
  pos : Position
  /-- The enter hook. -/
  cmd : Option String

/-- What has become of a client at run time. -/
structure ClientState (Ip : Type) where
  /-- Input is sent to the client and received from it. -/
  active : Bool
  /-- Where data of the client was last received from. -/
  activeAddr : Option (SocketAddr Ip)
  dnsIps : List Ip
  /-- All addresses of the client. -/
  ips : Finset Ip
  resolving : Bool

structure Client (Ip : Type) where
  config : ClientConfig Ip
  state : ClientState Ip

def Client.default (Ip : Type) : Client Ip where
  config := ⟨none, [], defaultPort, .left, none⟩
  state := ⟨false, none, [], ∅, false⟩

/-- A client as it is written to the configuration file and read from it. -/
structure ConfigClient (Ip : Type) where
  ips : Finset Ip
  hostname : Option String
  port : UInt16
  pos : Position
  active : Bool
  enterHook : Option String
  peerFingerprint : Option String
  deriving DecidableEq

/-- A set has no order of its own; here its addresses are put in theirs. -/
def ConfigClient.sortedIps {Ip : Type} [LinearOrder Ip] (client : ConfigClient Ip) : List Ip :=
  client.ips.sort (· ≤ ·)

/-- The clients under their handles, which are given out once each. -/
structure ClientManager (Ip : Type) where
  /-- The latest client first. -/
  clients : Table ClientHandle (Client Ip)
  nextHandle : ClientHandle
  peerFingerprints : Table ClientHandle String
  descending : clients.keys.Pairwise (· > ·)
  below : ∀ handle ∈ clients.keys, handle < nextHandle
  known : ∀ handle ∈ peerFingerprints.keys, handle ∈ clients.keys

namespace ClientManager

variable {Ip : Type}

def empty : ClientManager Ip := ⟨∅, 0, ∅, .nil, by simp, by simp⟩

/-- `get_client_states`: the clients by ascending handle. -/
def clientStates (manager : ClientManager Ip) : List (Sigma fun _ : ClientHandle => Client Ip) :=
  manager.clients.entries.reverse

def registeredClients (manager : ClientManager Ip) : List ClientHandle :=
  manager.clientStates.map (·.1)

def activeClients (manager : ClientManager Ip) : List ClientHandle :=
  (manager.clientStates.filter (·.2.state.active)).map (·.1)

/-- `get_state`. -/
def get (manager : ClientManager Ip) (handle : ClientHandle) : Option (Client Ip) :=
  manager.clients.lookup handle

def getPos (manager : ClientManager Ip) (handle : ClientHandle) : Option Position :=
  (manager.get handle).map (·.config.pos)

def clientAt (manager : ClientManager Ip) (pos : Position) : Option ClientHandle :=
  (manager.clientStates.find? fun client =>
    client.2.state.active && client.2.config.pos = pos).map (·.1)

def peerFingerprint (manager : ClientManager Ip) (handle : ClientHandle) : Option String :=
  manager.peerFingerprints.lookup handle

def modify (manager : ClientManager Ip) (handle : ClientHandle) (change : Client Ip → Client Ip) :
    ClientManager Ip where
  clients := manager.clients.adjust handle change
  nextHandle := manager.nextHandle
  peerFingerprints := manager.peerFingerprints
  descending := by
    rw [AList.keys_adjust]
    exact manager.descending
  below := by
    rw [AList.keys_adjust]
    exact manager.below
  known := by
    rw [AList.keys_adjust]
    exact manager.known

/-- `add_client`, while there is a handle left. -/
def addClient (manager : ClientManager Ip) (room : manager.nextHandle < enterHandleBegin) :
    ClientManager Ip where
  clients := manager.clients.insert manager.nextHandle (.default Ip)
  nextHandle := manager.nextHandle + 1
  peerFingerprints := manager.peerFingerprints
  descending := by
    have fresh : manager.nextHandle ∉ manager.clients.keys := fun known =>
      absurd (manager.below _ known) (UInt64.lt_irrefl _)
    rw [AList.keys_insert, List.erase_of_not_mem fresh]
    exact .cons manager.below manager.descending
  below := by
    have further : manager.nextHandle < manager.nextHandle + 1 := by
      rw [enterHandleBegin, UInt64.lt_iff_toNat_lt] at room
      rw [UInt64.lt_iff_toNat_lt, UInt64.toNat_add]
      have bound : UInt64.toNat 0x8000000000000000 = 0x8000000000000000 := rfl
      have one : UInt64.toNat 1 = 1 := rfl
      omega
    intro handle known
    rw [AList.keys_insert] at known
    rcases List.mem_cons.mp known with rfl | older
    · exact further
    · exact UInt64.lt_trans (manager.below handle (List.mem_of_mem_erase older)) further
  known := by
    intro handle known
    rw [← AList.mem_keys, AList.mem_insert, AList.mem_keys]
    exact .inr (manager.known handle known)

def removeClient (manager : ClientManager Ip) (handle : ClientHandle) : ClientManager Ip where
  clients := manager.clients.erase handle
  nextHandle := manager.nextHandle
  peerFingerprints := manager.peerFingerprints.erase handle
  descending := by
    rw [AList.keys_erase]
    exact manager.descending.sublist List.erase_sublist
  below := by
    rw [AList.keys_erase]
    exact fun handle known => manager.below handle (List.mem_of_mem_erase known)
  known := by
    intro other known
    rw [← AList.mem_keys, AList.mem_erase, AList.mem_keys] at known ⊢
    exact ⟨known.1, manager.known other known.2⟩

def setConfig (manager : ClientManager Ip) (handle : ClientHandle) (config : ClientConfig Ip) :
    ClientManager Ip :=
  manager.modify handle fun client => { client with config }

def setState (manager : ClientManager Ip) (handle : ClientHandle) (state : ClientState Ip) :
    ClientManager Ip :=
  manager.modify handle fun client => { client with state }

def setPeerFingerprint (manager : ClientManager Ip) (handle : ClientHandle)
    (fingerprint : String) : ClientManager Ip :=
  if there : handle ∈ manager.clients then
    { manager with
      peerFingerprints := manager.peerFingerprints.insert handle fingerprint
      known := by
        intro other known
        rw [← AList.mem_keys, AList.mem_insert] at known
        rcases known with rfl | known
        · exact there
        · exact manager.known other known }
  else manager

def isActive (manager : ClientManager Ip) (handle : ClientHandle) (active : Bool) : Bool :=
  (manager.get handle).any (·.state.active = active)

def setActive (manager : ClientManager Ip) (handle : ClientHandle) (active : Bool) :
    ClientManager Ip :=
  manager.modify handle fun client => { client with state := { client.state with active } }

def activateClient (manager : ClientManager Ip) (handle : ClientHandle) : ClientManager Ip × Bool :=
  if manager.isActive handle false then (manager.setActive handle true, true)
  else (manager, false)

def deactivateClient (manager : ClientManager Ip) (handle : ClientHandle) :
    ClientManager Ip × Bool :=
  if manager.isActive handle true then (manager.setActive handle false, true)
  else (manager, false)

section Addresses

variable [LinearOrder Ip]

/-- The fixed addresses and those of the name. -/
def updateIps (client : Client Ip) : Client Ip :=
  { client with
    state := { client.state with
      ips := (client.config.fixIps ++ client.state.dnsIps).toFinset } }

def setFixIps (manager : ClientManager Ip) (handle : ClientHandle) (fixIps : List Ip) :
    ClientManager Ip :=
  manager.modify handle fun client =>
    updateIps { client with config := { client.config with fixIps } }

def setDnsIps (manager : ClientManager Ip) (handle : ClientHandle) (dnsIps : List Ip) :
    ClientManager Ip :=
  manager.modify handle fun client =>
    updateIps { client with state := { client.state with dnsIps } }

def setResolving (manager : ClientManager Ip) (handle : ClientHandle) (status : Bool) :
    ClientManager Ip :=
  manager.modify handle fun client =>
    { client with state := { client.state with resolving := status } }

/-- Another name: what is known of the old one is forgotten. -/
def setHostname (manager : ClientManager Ip) (handle : ClientHandle) (hostname : Option String) :
    ClientManager Ip :=
  manager.modify handle fun client =>
    if client.config.hostname = hostname then client
    else
      updateIps {
        config := { client.config with hostname }
        state := { client.state with activeAddr := none, dnsIps := [] } }

/-- A client of the configuration. A hash set yields the addresses in an order of its own. -/
def configured (order : IterOrder Ip) (client : ConfigClient Ip) : Client Ip :=
  let config : ClientConfig Ip := {
    hostname := client.hostname
    fixIps := order.arrange client.sortedIps
    port := client.port
    pos := client.pos
    cmd := client.enterHook }
  { config
    state := {
      active := client.active
      activeAddr := none
      dnsIps := []
      ips := config.fixIps.toFinset
      resolving := false } }

def addConfigured (order : IterOrder Ip) (manager : ClientManager Ip)
    (room : manager.nextHandle < enterHandleBegin) (client : ConfigClient Ip) :
    ClientManager Ip :=
  let handle := manager.nextHandle
  let added := configured order client
  ((manager.addClient room).setConfig handle added.config).setState handle added.state

/-- `add_with_config`. -/
def addWithConfig (order : IterOrder Ip) (manager : ClientManager Ip)
    (room : manager.nextHandle < enterHandleBegin) (client : ConfigClient Ip) :
    ClientManager Ip :=
  match client.peerFingerprint with
  | some fingerprint =>
    (manager.addConfigured order room client).setPeerFingerprint manager.nextHandle fingerprint
  | none => manager.addConfigured order room client

end Addresses

def setPort (manager : ClientManager Ip) (handle : ClientHandle) (port : UInt16) :
    ClientManager Ip :=
  manager.modify handle fun client =>
    if client.config.port = port then client
    else {
      config := { client.config with port }
      state := { client.state with
        activeAddr := client.state.activeAddr.map fun addr => ⟨addr.ip, port⟩ } }

def setPos (manager : ClientManager Ip) (handle : ClientHandle) (pos : Position) :
    ClientManager Ip × Bool :=
  if (manager.getPos handle).any (· ≠ pos) then
    (manager.modify handle fun client => { client with config := { client.config with pos } },
      manager.isActive handle true)
  else (manager, false)

def setEnterHook (manager : ClientManager Ip) (handle : ClientHandle)
    (enterHook : Option String) : ClientManager Ip :=
  manager.modify handle fun client =>
    { client with config := { client.config with cmd := enterHook } }

variable {manager : ClientManager Ip} {handle other : ClientHandle}
  {change : Client Ip → Client Ip} {room : manager.nextHandle < enterHandleBegin}

theorem mem_clientStates {client : Client Ip} :
    ⟨handle, client⟩ ∈ manager.clientStates ↔ manager.get handle = some client := by
  rw [clientStates, List.mem_reverse, get, ← Option.mem_def, AList.mem_lookup_iff]

theorem get_modify :
    (manager.modify handle change).get other =
      if other = handle then (manager.get handle).map change else manager.get other := by
  split
  · rename_i same
    subst same
    exact AList.lookup_adjust_self manager.clients other change
  · rename_i different
    exact AList.lookup_adjust_ne manager.clients change different

theorem get_addClient :
    (manager.addClient room).get other =
      if other = manager.nextHandle then some (.default Ip) else manager.get other :=
  lookup_insert manager.clients manager.nextHandle other (Client.default Ip)

theorem get_removeClient :
    (manager.removeClient handle).get other = if other = handle then none else manager.get other :=
  lookup_erase manager.clients handle other

theorem get_setPeerFingerprint (fingerprint : String) :
    (manager.setPeerFingerprint handle fingerprint).get other = manager.get other := by
  unfold setPeerFingerprint
  split <;> rfl

section Configured

variable [LinearOrder Ip] {order : IterOrder Ip} {client : ConfigClient Ip}

theorem get_addConfigured :
    (manager.addConfigured order room client).get other =
      if other = manager.nextHandle then some (configured order client) else manager.get other := by
  unfold addConfigured
  rw [setState, setConfig, get_modify]
  split
  · rw [get_modify, if_pos rfl, get_addClient, if_pos rfl]
    rfl
  · rename_i different
    rw [get_modify, if_neg different, get_addClient, if_neg different]

theorem get_addWithConfig :
    (manager.addWithConfig order room client).get other =
      if other = manager.nextHandle then some (configured order client) else manager.get other := by
  unfold addWithConfig
  split
  · rw [get_setPeerFingerprint, get_addConfigured]
  · exact get_addConfigured

theorem nextHandle_addWithConfig :
    (manager.addWithConfig order room client).nextHandle = manager.nextHandle + 1 := by
  unfold addWithConfig setPeerFingerprint
  split
  · split <;> rfl
  · rfl

end Configured

theorem lt_nextHandle {client : Client Ip} (found : manager.get handle = some client) :
    handle < manager.nextHandle := by
  apply manager.below handle
  rw [← AList.mem_keys]
  exact (mem_iff_lookup _ _).mpr ⟨client, found⟩

end ClientManager

end Syntra.Clients
