import Syntra.Clients.Manager

/-!
# The addresses of a client

All addresses of a client are its fixed ones and those of its name. They are kept beside both and
are computed again wherever one of these changes, except where the configuration of a client or its
state is replaced as a whole.
-/

namespace Syntra.Clients

open StateMachine Option AList
open Emulation (SocketAddr)
open Proto (Position)
open Service (ClientHandle)
open Tables

/-- The calls of the client manager. -/
inductive ManagerCall (Ip : Type) where
  | addClient
  | addWithConfig (order : IterOrder Ip) (client : ConfigClient Ip)
  | removeClient (handle : ClientHandle)
  | setConfig (handle : ClientHandle) (config : ClientConfig Ip)
  | setState (handle : ClientHandle) (state : ClientState Ip)
  | activateClient (handle : ClientHandle)
  | deactivateClient (handle : ClientHandle)
  | setHostname (handle : ClientHandle) (hostname : Option String)
  | setFixIps (handle : ClientHandle) (fixIps : List Ip)
  | setDnsIps (handle : ClientHandle) (dnsIps : List Ip)
  | setPort (handle : ClientHandle) (port : UInt16)
  | setPos (handle : ClientHandle) (pos : Position)
  | setEnterHook (handle : ClientHandle) (enterHook : Option String)
  | setResolving (handle : ClientHandle) (status : Bool)
  | setActiveAddr (handle : ClientHandle) (addr : Option (SocketAddr Ip))
  | setPeerFingerprint (handle : ClientHandle) (fingerprint : String)

def ManagerCall.handle {Ip : Type} : ManagerCall Ip → Option ClientHandle
  | .addClient => none
  | .addWithConfig _ _ => none
  | .removeClient handle => some handle
  | .setConfig handle _ => some handle
  | .setState handle _ => some handle
  | .activateClient handle => some handle
  | .deactivateClient handle => some handle
  | .setHostname handle _ => some handle
  | .setFixIps handle _ => some handle
  | .setDnsIps handle _ => some handle
  | .setPort handle _ => some handle
  | .setPos handle _ => some handle
  | .setEnterHook handle _ => some handle
  | .setResolving handle _ => some handle
  | .setActiveAddr handle _ => some handle
  | .setPeerFingerprint handle _ => some handle

/-- The addresses are the fixed ones and those of the name. -/
def Client.Resolved {Ip : Type} [LinearOrder Ip] (client : Client Ip) : Prop :=
  client.state.ips = (client.config.fixIps ++ client.state.dnsIps).toFinset

namespace ClientManager

variable {Ip : Type}

def setActiveAddr (manager : ClientManager Ip) (handle : ClientHandle)
    (activeAddr : Option (SocketAddr Ip)) : ClientManager Ip :=
  manager.modify handle fun client => { client with state := { client.state with activeAddr } }

section Changes

variable {manager : ClientManager Ip} {handle : ClientHandle} {change : Client Ip → Client Ip}
  {holds : Client Ip → Prop}

theorem modify_of_absent (absent : manager.get handle = none) :
    manager.modify handle change = manager := by
  have same : manager.clients.adjust handle change = manager.clients :=
    adjust_of_lookup_none absent
  cases manager
  rw [mk.injEq]
  exact ⟨same, rfl, rfl⟩

theorem removeClient_of_absent (absent : manager.get handle = none) :
    manager.removeClient handle = manager := by
  have unknown : handle ∉ manager.peerFingerprints.keys := fun known =>
    lookup_eq_none.mp absent (manager.known handle known)
  have clients := erase_of_lookup_none absent
  have fingerprints := erase_of_lookup_none (lookup_eq_none.mpr unknown)
  cases manager
  rw [mk.injEq]
  exact ⟨clients, rfl, fingerprints⟩

theorem isActive_of_absent (absent : manager.get handle = none) (active : Bool) :
    manager.isActive handle active = false := by
  rw [isActive, absent, any_none]

/-- Every client has the property. -/
def All (manager : ClientManager Ip) (holds : Client Ip → Prop) : Prop :=
  ∀ handle client, manager.get handle = some client → holds client

theorem all_empty : (empty : ClientManager Ip).All holds := fun _ _ found =>
  absurd found.symm (some_ne_none _)

theorem all_modify (all : manager.All holds) :
    (manager.modify handle change).All holds ↔
      ∀ client, manager.get handle = some client → holds (change client) := by
  constructor
  · intro after client found
    refine after handle (change client) ?_
    rw [get_modify, if_pos rfl, found, map_some]
  · intro keeps other client found
    rw [get_modify] at found
    split at found
    · rcases map_eq_some_iff.mp found with ⟨before, there, rfl⟩
      exact keeps before there
    · exact all other client found

theorem All.modify (all : manager.All holds)
    (keeps : ∀ client, holds client → holds (change client)) :
    (manager.modify handle change).All holds :=
  (all_modify all).mpr fun client found => keeps client (all handle client found)

theorem All.setActive (all : manager.All holds) (active : Bool)
    (keeps : ∀ client, holds client → holds { client with state := { client.state with active } })
    (condition : Bool) :
    (if condition then (manager.setActive handle active, true) else (manager, false)).1.All
      holds := by
  split
  · exact all.modify keeps
  · exact all

theorem All.add (all : manager.All holds) {later : ClientManager Ip} {client : Client Ip}
    (added : ∀ other, later.get other =
      if other = manager.nextHandle then some client else manager.get other)
    (sound : holds client) : later.All holds := by
  intro other found there
  rw [added] at there
  split at there
  · exact some.inj there ▸ sound
  · exact all other found there

theorem All.removeClient (all : manager.All holds) : (manager.removeClient handle).All holds := by
  intro other client found
  rw [get_removeClient] at found
  split at found
  · exact absurd found.symm (some_ne_none client)
  · exact all other client found

theorem All.setPeerFingerprint (all : manager.All holds) (fingerprint : String) :
    (manager.setPeerFingerprint handle fingerprint).All holds := by
  intro other client found
  rw [get_setPeerFingerprint] at found
  exact all other client found

theorem All.setPos (all : manager.All holds) (pos : Position)
    (keeps : ∀ client, holds client → holds { client with config := { client.config with pos } }) :
    (manager.setPos handle pos).1.All holds := by
  unfold ClientManager.setPos
  split
  · exact all.modify keeps
  · exact all

end Changes

variable [LinearOrder Ip] {manager : ClientManager Ip} {handle : ClientHandle}

/-- What a call does, and the handle that it hands out. -/
def step (manager : ClientManager Ip) : ManagerCall Ip → ClientManager Ip × List ClientHandle
  | .addClient =>
    if room : manager.nextHandle < enterHandleBegin then
      (manager.addClient room, [manager.nextHandle])
    -- The source panics.
    else (manager, [])
  | .addWithConfig order client =>
    if room : manager.nextHandle < enterHandleBegin then
      (manager.addWithConfig order room client, [manager.nextHandle])
    else (manager, [])
  | .removeClient handle => (manager.removeClient handle, [])
  | .setConfig handle config => (manager.setConfig handle config, [])
  | .setState handle state => (manager.setState handle state, [])
  | .activateClient handle => ((manager.activateClient handle).1, [])
  | .deactivateClient handle => ((manager.deactivateClient handle).1, [])
  | .setHostname handle hostname => (manager.setHostname handle hostname, [])
  | .setFixIps handle fixIps => (manager.setFixIps handle fixIps, [])
  | .setDnsIps handle dnsIps => (manager.setDnsIps handle dnsIps, [])
  | .setPort handle port => (manager.setPort handle port, [])
  | .setPos handle pos => ((manager.setPos handle pos).1, [])
  | .setEnterHook handle enterHook => (manager.setEnterHook handle enterHook, [])
  | .setResolving handle status => (manager.setResolving handle status, [])
  | .setActiveAddr handle addr => (manager.setActiveAddr handle addr, [])
  | .setPeerFingerprint handle fingerprint =>
    (manager.setPeerFingerprint handle fingerprint, [])

theorem step_of_absent {call : ManagerCall Ip} (about : call.handle = some handle)
    (absent : manager.get handle = none) : (manager.step call).1 = manager := by
  cases call with
  | addClient | addWithConfig => exact absurd about.symm (some_ne_none handle)
  | removeClient =>
    cases about
    exact removeClient_of_absent absent
  | activateClient =>
    cases about
    simp only [step, activateClient, isActive_of_absent absent, Bool.false_eq_true, if_false]
  | deactivateClient =>
    cases about
    simp only [step, deactivateClient, isActive_of_absent absent, Bool.false_eq_true, if_false]
  | setPos =>
    cases about
    simp only [step, setPos, getPos, absent, map_none, any_none, Bool.false_eq_true, if_false]
  | setPeerFingerprint =>
    cases about
    exact dif_neg (lookup_eq_none.mp absent)
  | _ =>
    cases about
    exact modify_of_absent absent

theorem step_nextHandle (manager : ClientManager Ip) (call : ManagerCall Ip) :
    (manager.step call).1.nextHandle = manager.nextHandle ∧ (manager.step call).2 = [] ∨
      manager.nextHandle < (manager.step call).1.nextHandle ∧
        (manager.step call).2 = [manager.nextHandle] := by
  cases call with
  | addClient =>
    simp only [step]
    split
    · rename_i room
      have found : (manager.addClient room).get manager.nextHandle = some (.default Ip) :=
        get_addClient.trans (if_pos rfl)
      exact .inr ⟨lt_nextHandle found, rfl⟩
    · exact .inl ⟨rfl, rfl⟩
  | addWithConfig =>
    simp only [step]
    split
    · exact .inr ⟨lt_nextHandle (get_addWithConfig.trans (if_pos rfl)), rfl⟩
    · exact .inl ⟨rfl, rfl⟩
  | activateClient =>
    refine .inl ⟨?_, rfl⟩
    rw [step, activateClient]
    split <;> rfl
  | deactivateClient =>
    refine .inl ⟨?_, rfl⟩
    rw [step, deactivateClient]
    split <;> rfl
  | setPos =>
    refine .inl ⟨?_, rfl⟩
    rw [step, setPos]
    split <;> rfl
  | setPeerFingerprint =>
    refine .inl ⟨?_, rfl⟩
    rw [step, setPeerFingerprint]
    split <;> rfl
  | _ => exact .inl ⟨rfl, rfl⟩

theorem nextHandle_le_of_issued {calls : List (ManagerCall Ip)}
    (issued : handle ∈ (outcome step manager calls).2) : manager.nextHandle ≤ handle := by
  induction calls generalizing manager with
  | nil => exact absurd issued List.not_mem_nil
  | cons call _ ih =>
    rcases step_nextHandle manager call with ⟨same, none⟩ | ⟨further, one⟩
    · rw [outcome, none, List.nil_append] at issued
      exact same ▸ ih issued
    · rw [outcome, one, List.singleton_append, List.mem_cons] at issued
      rcases issued with rfl | issued
      · exact UInt64.le_refl _
      · exact UInt64.le_trans (UInt64.le_of_lt further) (ih issued)

theorem All.step_add {holds : Client Ip → Prop} (all : manager.All holds)
    (sound : holds (.default Ip)) :
    (manager.step .addClient).1.All holds := by
  simp only [step]
  split
  · rename_i room
    have added : ∀ other, (manager.addClient room).get other = _ := fun _ => get_addClient
    exact all.add added sound
  · exact all

theorem All.step_addWithConfig {holds : Client Ip → Prop} (all : manager.All holds)
    {order : IterOrder Ip} {client : ConfigClient Ip} (sound : holds (configured order client)) :
    (manager.step (.addWithConfig order client)).1.All holds := by
  simp only [step]
  split
  · exact all.add (fun _ => get_addWithConfig) sound
  · exact all

/-- The addresses of each client are those given with those resolved. -/
def Resolved (manager : ClientManager Ip) : Prop := manager.All Client.Resolved

/-- A call that replaces a part of a client leaves its addresses the ones it is to have: those that
the user gave with those that its name was resolved to. -/
def Keeps (manager : ClientManager Ip) : ManagerCall Ip → Prop
  | .setConfig handle config => ∀ client, manager.get handle = some client →
    (config.fixIps ++ client.state.dnsIps).toFinset =
      (client.config.fixIps ++ client.state.dnsIps).toFinset
  | .setState handle state => ∀ client, manager.get handle = some client →
    state.ips = (client.config.fixIps ++ state.dnsIps).toFinset
  | _ => True

theorem step_resolved {call : ManagerCall Ip} (resolved : manager.Resolved) :
    (manager.step call).1.Resolved ↔ manager.Keeps call := by
  cases call with
  | setConfig handle =>
    refine (all_modify resolved).trans (forall₂_congr fun client found => ?_)
    have before : client.state.ips = _ := resolved handle client found
    rw [Client.Resolved, before]
    exact eq_comm
  | setState => exact all_modify resolved
  | addClient => exact iff_of_true (resolved.step_add rfl) trivial
  | addWithConfig =>
    refine iff_of_true (resolved.step_addWithConfig ?_) trivial
    simp [Client.Resolved, configured]
  | removeClient => exact iff_of_true resolved.removeClient trivial
  | activateClient =>
    exact iff_of_true (resolved.setActive true (fun client sound => sound) _) trivial
  | deactivateClient =>
    exact iff_of_true (resolved.setActive false (fun client sound => sound) _) trivial
  | setPos _ pos => exact iff_of_true (resolved.setPos pos fun client sound => sound) trivial
  | setPeerFingerprint _ fingerprint =>
    exact iff_of_true (resolved.setPeerFingerprint fingerprint) trivial
  | setFixIps | setDnsIps => exact iff_of_true (resolved.modify fun client sound => rfl) trivial
  | setHostname =>
    refine iff_of_true (resolved.modify fun client sound => ?_) trivial
    split
    · exact sound
    · rfl
  | setPort =>
    refine iff_of_true (resolved.modify fun client sound => ?_) trivial
    split <;> exact sound
  | setEnterHook | setResolving | setActiveAddr =>
    exact iff_of_true (resolved.modify fun _ sound => sound) trivial

/-- The addresses are right in every state, no handle is handed out after its client was removed,
and a call about a client that does not exist changes nothing. -/
structure Accurate (calls : List (ManagerCall Ip)) : Prop where
  resolved : ∀ state call, Meets step empty calls state call → (state.step call).1.Resolved
  fresh : ∀ earlier handle later, calls = earlier ++ .removeClient handle :: later →
    let manager := (outcome step empty earlier).1
    (manager.get handle).isSome → handle ∉ (outcome step (manager.removeClient handle) later).2
  absent : ∀ state call handle, Meets step empty calls state call → call.handle = some handle →
    state.get handle = none → (state.step call).1 = state

/-- The addresses stay right in every run of calls just if each call that replaces a configuration
or a state keeps them so; handles are fresh in any case. -/
theorem accurate_iff (calls : List (ManagerCall Ip)) :
    Accurate calls ↔ ∀ state call, Meets step empty calls state call → state.Keeps call := by
  have exactly : (∀ state call, Meets step empty calls state call → (state.step call).1.Resolved) ↔
      ∀ state call, Meets step empty calls state call → state.Keeps call :=
    forall_meets_iff (fun _ _ => step_resolved) (fun _ _ after => after) all_empty
  constructor
  · exact fun accurate => exactly.mp accurate.resolved
  · intro keeps
    refine ⟨exactly.mpr keeps, fun _ handle _ _ => ?_,
      fun _ _ handle _ => step_of_absent⟩
    intro manager there again
    rcases Option.isSome_iff_exists.mp there with ⟨_, found⟩
    have bound : (manager.removeClient handle).nextHandle ≤ handle := nextHandle_le_of_issued again
    exact UInt64.lt_irrefl _ (UInt64.lt_of_lt_of_le (lt_nextHandle found) bound)

/-- A new client is given a configuration with an address. -/
theorem configured_without_address :
    ¬Accurate [.addClient, .setConfig 0 ⟨none, [7], defaultPort, .left, none⟩] := by
  intro accurate
  have after := accurate.resolved _ _ ⟨[.addClient], [], rfl, rfl⟩
  have wrong : (∅ : Finset ℕ) = {7} := after 0 _ rfl
  exact absurd wrong (by decide)

end ClientManager

end Syntra.Clients
