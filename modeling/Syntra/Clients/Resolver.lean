import Syntra.Clients.Addresses

/-!
# The resolver

The addresses of a client's name (`dns.rs`, `service/clients.rs`). The service asks the resolver,
which runs one task for each client; what a task found waits until the service handles it. It is
then the client's, whatever the name of the client is by now.
-/

namespace Syntra.Clients

open StateMachine List ClientManager
open Service (ClientHandle)
open Tables

/-- A name to look up for a client. -/
structure DnsRequest where
  handle : ClientHandle
  hostname : String

/-- What the service hears of the resolver. -/
inductive DnsEvent (Ip : Type) where
  | resolving (handle : ClientHandle)
  /-- There are no addresses if the resolution failed. -/
  | resolved (handle : ClientHandle) (hostname : String) (ips : Option (List Ip))

/-- The task that looks names up, with the clients that get the answers. -/
structure Resolver (Ip : Type) where
  manager : ClientManager Ip
  requests : List DnsRequest
  /-- The names of the running tasks. -/
  activeTasks : Table ClientHandle String
  events : List (DnsEvent Ip)
  /-- What every name was resolved to so far. -/
  returned : List (String × List Ip)

/-- The calls of the service that change neither names nor what was found for them. -/
def ManagerCall.keepsNames {Ip : Type} : ManagerCall Ip → Bool
  | .setConfig _ _ => false
  | .setState _ _ => false
  | .setHostname _ _ => false
  | .setDnsIps _ _ => false
  | _ => true

/-- What happens to the clients and the resolver. -/
inductive ResolverInput (Ip : Type) where
  | updateHostname (handle : ClientHandle) (hostname : Option String)
  | activateClient (handle : ClientHandle)
  | manage (call : ManagerCall Ip) (keeps : call.keepsNames = true)
  /-- The resolver receives a request. -/
  | takeRequest
  /-- The task of a client ends. -/
  | finish (handle : ClientHandle) (ips : Option (List Ip))
  /-- The service receives an event. -/
  | handleEvent

namespace Resolver

variable {Ip : Type}

def new : Resolver Ip := ⟨.empty, [], ∅, [], []⟩

def resolve (state : Resolver Ip) (handle : ClientHandle) : Resolver Ip :=
  match (state.manager.get handle).bind (·.config.hostname) with
  | some hostname => { state with requests := state.requests ++ [⟨handle, hostname⟩] }
  | none => state

section Steps

variable [LinearOrder Ip]

def updateHostname (state : Resolver Ip) (handle : ClientHandle) (hostname : Option String) :
    Resolver Ip :=
  let updated := { state with manager := state.manager.setHostname handle hostname }
  if (state.manager.get handle).any (·.config.hostname ≠ hostname) then updated.resolve handle
  else updated

def activateClient (state : Resolver Ip) (handle : ClientHandle) : Resolver Ip :=
  let asked := state.resolve handle
  match state.manager.getPos handle with
  | none => asked
  | some pos =>
    let cleared := match state.manager.clientAt pos with
      | some other =>
        if other ≠ handle then (state.manager.deactivateClient other).1 else state.manager
      | none => state.manager
    { asked with manager := (cleared.activateClient handle).1 }

def takeRequest (state : Resolver Ip) : Resolver Ip :=
  match state.requests with
  | [] => state
  | request :: requests => { state with
    requests
    activeTasks := state.activeTasks.insert request.handle request.hostname
    events := state.events ++ [.resolving request.handle] }

def finish (state : Resolver Ip) (handle : ClientHandle) (ips : Option (List Ip)) : Resolver Ip :=
  match state.activeTasks.lookup handle with
  | none => state
  | some hostname => { state with
    activeTasks := state.activeTasks.erase handle
    events := state.events ++ [.resolved handle hostname ips]
    returned := state.returned ++ (ips.map (hostname, ·)).toList }

/-- `handle_resolver_event`. -/
def handleEvent (state : Resolver Ip) : Resolver Ip :=
  match state.events with
  | [] => state
  | .resolving handle :: events =>
    { state with manager := state.manager.setResolving handle true, events }
  | .resolved handle _ ips :: events => { state with
    manager := (state.manager.setResolving handle false).setDnsIps handle (ips.getD [])
    events }

def step (state : Resolver Ip) : ResolverInput Ip → Resolver Ip
  | .updateHostname handle hostname => state.updateHostname handle hostname
  | .activateClient handle => state.activateClient handle
  | .manage call _ => { state with manager := (state.manager.step call).1 }
  | .takeRequest => state.takeRequest
  | .finish handle ips => state.finish handle ips
  | .handleEvent => state.handleEvent

/-- Addresses that the service receives are for the name that the client still has. -/
def Timely (state : Resolver Ip) : ResolverInput Ip → Prop
  | .handleEvent => ∀ handle hostname ips,
    state.events.head? = some (.resolved handle hostname (some ips)) → ips ≠ [] →
      ∀ client, state.manager.get handle = some client → client.config.hostname = some hostname
  | _ => True

def machine (Ip : Type) [LinearOrder Ip] : Machine (Resolver Ip) (ResolverInput Ip) where
  initial := new
  enabled := Timely
  next := step

end Steps

/-- The client has no addresses of a name, or those that its own was resolved to. -/
def Named (returned : List (String × List Ip)) (client : Client Ip) : Prop :=
  client.state.dnsIps = [] ∨ ∃ hostname, client.config.hostname = some hostname ∧
    (hostname, client.state.dnsIps) ∈ returned

/-- Every address of a client was returned for its name. -/
structure Sound (state : Resolver Ip) : Prop where
  named : state.manager.All (Named state.returned)
  /-- What waits was found. -/
  found : ∀ handle hostname ips, .resolved handle hostname (some ips) ∈ state.events →
    (hostname, ips) ∈ state.returned

variable {state : Resolver Ip} {handle : ClientHandle}

theorem resolve_cases (state : Resolver Ip) (handle : ClientHandle) :
    ∃ requests, state.resolve handle = { state with requests } := by
  unfold resolve
  split
  · exact ⟨_, rfl⟩
  · exact ⟨_, rfl⟩

theorem Sound.resolve (sound : state.Sound) : (state.resolve handle).Sound := by
  rcases resolve_cases state handle with ⟨_, asked⟩
  rw [asked]
  exact ⟨sound.named, sound.found⟩

theorem Sound.activateClient (sound : state.Sound) : (state.activateClient handle).Sound := by
  have placed {manager : ClientManager Ip} (named : manager.All (Named state.returned)) :
      (manager.activateClient handle).1.All (Named state.returned) :=
    named.setActive true (fun client known => known) _
  have asked : (state.resolve handle).Sound := sound.resolve
  rcases resolve_cases state handle with ⟨_, same⟩
  unfold Resolver.activateClient
  rw [same] at asked ⊢
  split
  · exact asked
  · refine ⟨placed ?_, sound.found⟩
    split
    · split
      · exact sound.named.setActive false (fun _ known => known) _
      · exact sound.named
    · exact sound.named

theorem Sound.finish (sound : state.Sound) (ips : Option (List Ip)) :
    (state.finish handle ips).Sound := by
  unfold Resolver.finish
  split
  · exact sound
  · refine ⟨fun other client there => ?_, fun other hostname ips waits => ?_⟩
    · rcases sound.named other client there with none | ⟨hostname, own, found⟩
      · exact .inl none
      · exact .inr ⟨hostname, own, mem_append_left _ found⟩
    · rcases mem_append.mp waits with before | last
      · exact mem_append_left _ (sound.found other hostname ips before)
      · cases mem_singleton.mp last
        exact mem_append_right _ (.head _)

theorem named_resolved (sound : state.Sound) (timely : state.Timely .handleEvent)
    {hostname : String} {ips : Option (List Ip)} {events : List (DnsEvent Ip)}
    (waits : state.events = .resolved handle hostname ips :: events) {client : Client Ip}
    (there : state.manager.get handle = some client) {changed : Client Ip}
    (same : changed.config.hostname = client.config.hostname)
    (given : changed.state.dnsIps = ips.getD []) : Named state.returned changed := by
  cases ips with
  | none => exact .inl given
  | some ips =>
    by_cases none : ips = []
    · exact .inl (given.trans none)
    · have first : state.events.head? = some (.resolved handle hostname (some ips)) := by
        rw [waits, head?_cons]
      have waiting : .resolved handle hostname (some ips) ∈ state.events :=
        mem_of_head? first
      have found := sound.found handle hostname ips waiting
      exact .inr ⟨hostname, same.trans (timely handle hostname ips first none client there),
        given ▸ found⟩

variable [LinearOrder Ip]

theorem named_step {returned : List (String × List Ip)} {manager : ClientManager Ip}
    {call : ManagerCall Ip} (named : manager.All (Named returned))
    (keeps : call.keepsNames = true) : (manager.step call).1.All (Named returned) := by
  cases call with
  | setConfig | setState | setHostname | setDnsIps => exact absurd keeps Bool.false_ne_true
  | addClient => exact named.step_add (.inl rfl)
  | addWithConfig => exact named.step_addWithConfig (.inl rfl)
  | removeClient => exact named.removeClient
  | activateClient => exact named.setActive true (fun client known => known) _
  | deactivateClient => exact named.setActive false (fun client known => known) _
  | setPos _ pos => exact named.setPos pos fun client known => known
  | setPeerFingerprint _ fingerprint => exact named.setPeerFingerprint fingerprint
  | setPort =>
    refine named.modify fun client known => ?_
    split <;> exact known
  | setFixIps | setEnterHook | setResolving | setActiveAddr =>
    exact named.modify fun _ known => known

theorem Sound.updateHostname (sound : state.Sound) (hostname : Option String) :
    (state.updateHostname handle hostname).Sound := by
  have updated : Sound { state with manager := state.manager.setHostname handle hostname } := by
    refine ⟨sound.named.modify fun _ known => ?_, sound.found⟩
    split
    · exact known
    · exact .inl rfl
  unfold Resolver.updateHostname
  split
  · exact updated.resolve
  · exact updated

theorem Sound.handleEvent (sound : state.Sound) (timely : state.Timely .handleEvent) :
    state.handleEvent.Sound := by
  unfold Resolver.handleEvent
  cases waits : state.events with
  | nil => exact sound
  | cons event events =>
    have later : ∀ handle hostname ips, .resolved handle hostname (some ips) ∈ events →
        (hostname, ips) ∈ state.returned := fun handle hostname ips waiting =>
      sound.found handle hostname ips (waits ▸ mem_cons_of_mem event waiting)
    cases event with
    | resolving => exact ⟨sound.named.modify fun client known => known, later⟩
    | resolved other _ ips =>
      have quiet : (state.manager.setResolving other false).All (Named state.returned) :=
        sound.named.modify fun client known => known
      have given : ((state.manager.setResolving other false).setDnsIps other (ips.getD [])).All
          (Named state.returned) := by
        refine (all_modify quiet).mpr fun _ there => ?_
        rw [setResolving, get_modify, if_pos rfl] at there
        rcases Option.map_eq_some_iff.mp there with ⟨_, known, rfl⟩
        exact named_resolved sound timely waits known rfl rfl
      exact ⟨given, later⟩

theorem sound_step {input : ResolverInput Ip} (sound : state.Sound) (timely : state.Timely input) :
    (state.step input).Sound := by
  cases input with
  | updateHostname _ hostname => exact sound.updateHostname hostname
  | activateClient => exact sound.activateClient
  | manage _ keeps => exact ⟨named_step sound.named keeps, sound.found⟩
  | takeRequest =>
    simp only [step, takeRequest]
    split
    · exact sound
    · refine ⟨sound.named, fun handle hostname ips waits => ?_⟩
      rcases mem_append.mp waits with before | last
      · exact sound.found handle hostname ips before
      · cases mem_singleton.mp last
  | finish _ ips => exact sound.finish ips
  | handleEvent => exact sound.handleEvent timely

/-- The resolved addresses of a client were returned for the name that it has now, whatever answers
are late. -/
theorem addresses_of_name {inputs : List (ResolverInput Ip)}
    (timely : (machine Ip).Follows new inputs) {client : Client Ip}
    (there : ((machine Ip).after new inputs).manager.get handle = some client) :
    client.state.dnsIps = [] ∨ ∃ hostname, client.config.hostname = some hostname ∧
      (hostname, client.state.dnsIps) ∈ ((machine Ip).after new inputs).returned := by
  have sound : ((machine Ip).after new inputs).Sound :=
    timely.keeps (fun _ _ sound timely => sound_step sound timely)
      ⟨ClientManager.all_empty, fun _ _ _ waits => absurd waits List.not_mem_nil⟩
  exact sound.named handle client there

def resolution : List (ResolverInput ℕ) :=
  [.manage .addClient rfl, .updateHostname 0 (some "a"), .takeRequest, .finish 0 (some [7]),
    .handleEvent, .handleEvent]

theorem resolution_of_name : ((machine ℕ).after new resolution).returned = [("a", [7])] ∧
    ∀ client, ((machine ℕ).after new resolution).manager.get 0 = some client →
      client.state.dnsIps = [] ∨ ∃ hostname, client.config.hostname = some hostname ∧
        (hostname, client.state.dnsIps) ∈ ((machine ℕ).after new resolution).returned := by
  refine ⟨rfl, fun client there => addresses_of_name ?_ there⟩
  refine ⟨trivial, trivial, trivial, trivial, ?_, ?_, trivial⟩
  · intro handle hostname ips first
    cases first
  · intro _ _ _ first _ _ there
    cases first
    cases there
    rfl

/-- The client has lost its name when the addresses are received. -/
theorem late_resolution : let inputs : List (ResolverInput ℕ) :=
      [.manage .addClient rfl, .updateHostname 0 (some "a"), .takeRequest, .finish 0 (some [7]),
        .updateHostname 0 none, .handleEvent, .handleEvent]
    ¬((machine ℕ).after new inputs).manager.All
      (Named ((machine ℕ).after new inputs).returned) := by
  intro _ named
  rcases named 0 _ rfl with none | ⟨_, own, -⟩
  · cases none
  · cases own

end Resolver

end Syntra.Clients
