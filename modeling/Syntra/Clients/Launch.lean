import Syntra.Clients.Ownership

/-!
# The clients of a service that starts

A service starts with the clients of its configuration, in their order. They are as they are
configured, unless two of them want to be active at one edge.
-/

namespace Syntra.Clients

open ClientManager StateMachine Option List
open Syntra.Capture (CaptureRequest)
open Syntra.Proto (Position)
open Syntra.Service (ClientHandle)
open Tables
open StateMachine.Handler (ensures_bind)

def Client.idle {Ip : Type} (client : Client Ip) : Client Ip :=
  { client with state := { client.state with active := false } }

theorem Client.eq_of_idle {Ip : Type} {client other : Client Ip} (idle : client.idle = other.idle)
    (edge : client.edge = other.edge) : client = other := by
  rcases client with ⟨_, ⟨active, _, _, _, _⟩⟩
  rcases other with ⟨_, ⟨active', _, _, _, _⟩⟩
  rcases idle with ⟨rfl, -, rfl, rfl, rfl, rfl⟩
  have same : active = active' := by
    cases active <;> cases active' <;> simp [Client.edge] at edge ⊢
  rw [same]

def ConfigClient.idle {Ip : Type} (client : ConfigClient Ip) : ConfigClient Ip :=
  { client with active := false }

/-- Two clients do not want to be active at one edge. -/
def ConfigClient.Apart {Ip : Type} (client other : ConfigClient Ip) : Prop :=
  client.active = true → other.active = true → client.pos ≠ other.pos

namespace ClientManager

variable {Ip : Type} {manager other : ClientManager Ip} {handle : ClientHandle}

theorem clientStates_eq :
    manager.clientStates = manager.registeredClients.filterMap fun handle =>
      (manager.get handle).map (Sigma.mk handle) := by
  rw [registeredClients, filterMap_map]
  have here : ∀ client ∈ manager.clientStates,
      ((fun handle => (manager.get handle).map (Sigma.mk handle)) ∘ Sigma.fst) client =
        some client := by
    intro _ member
    rw [Function.comp_apply, mem_clientStates.mp member, map_some]
  rw [filterMap_congr here, filterMap_some]

theorem mem_registeredClients :
    handle ∈ manager.registeredClients ↔ ∃ client, manager.get handle = some client := by
  rw [registeredClients, List.mem_map]
  constructor
  · rintro ⟨⟨handle, client⟩, member, rfl⟩
    exact ⟨client, mem_clientStates.mp member⟩
  · rintro ⟨client, found⟩
    exact ⟨⟨handle, client⟩, mem_clientStates.mpr found, rfl⟩

theorem getPos_of_edgeOf {pos : Position} (edge : manager.edgeOf handle = some pos) :
    manager.getPos handle = some pos := by
  rcases bind_eq_some_iff.mp edge with ⟨_, found, active⟩
  unfold Client.edge at active
  split at active
  · rw [getPos, found]
    exact active
  · cases active

theorem registeredClients_eq : manager.registeredClients = manager.clients.keys.reverse := by
  rw [registeredClients, clientStates, map_reverse]
  rfl

theorem peerFingerprint_nextHandle : manager.peerFingerprint manager.nextHandle = none := by
  rw [peerFingerprint, AList.lookup_eq_none, AList.mem_keys]
  intro known
  exact UInt64.lt_irrefl _ (manager.below _ (manager.known _ known))

variable [LinearOrder Ip] {order : IterOrder Ip} {room : manager.nextHandle < enterHandleBegin}
  {client : ConfigClient Ip}

theorem registeredClients_addWithConfig :
    (manager.addWithConfig order room client).registeredClients =
      manager.registeredClients ++ [manager.nextHandle] := by
  have fresh : manager.nextHandle ∉ manager.clients.keys := fun known =>
    UInt64.lt_irrefl _ (manager.below _ known)
  have before : (manager.addConfigured order room client).clients.keys =
      manager.nextHandle :: manager.clients.keys := by
    refine (AList.keys_adjust _ _ _).trans ((AList.keys_adjust _ _ _).trans ?_)
    refine (AList.keys_insert _).trans ?_
    rw [erase_of_not_mem fresh]
  have keys : (manager.addWithConfig order room client).clients.keys =
      manager.nextHandle :: manager.clients.keys := by
    unfold addWithConfig setPeerFingerprint
    split
    · split <;> exact before
    · exact before
  rw [registeredClients_eq, registeredClients_eq, keys, reverse_cons]

theorem peerFingerprint_addWithConfig {other : ClientHandle} :
    (manager.addWithConfig order room client).peerFingerprint other =
      if other = manager.nextHandle then client.peerFingerprint
      else manager.peerFingerprint other := by
  unfold addWithConfig
  split
  · rename_i fingerprint named
    have there : manager.nextHandle ∈ (manager.addConfigured order room client).clients := by
      rw [mem_iff_lookup]
      exact ⟨configured order client, get_addConfigured.trans (if_pos rfl)⟩
    rw [setPeerFingerprint, dif_pos there, named]
    exact lookup_insert _ _ _ _
  · rename_i unnamed
    rw [unnamed]
    change manager.peerFingerprint other = _
    split
    · rename_i same
      rw [same, peerFingerprint_nextHandle]
    · rfl

end ClientManager

namespace Service

variable {Ip : Type} [LinearOrder Ip] {host : Host Ip} {service later : Service Ip}
  {handle : ClientHandle} {pos : Position}

theorem configClients_eq :
    service.configClients = service.clientManager.registeredClients.filterMap fun handle =>
      (service.clientManager.get handle).map (service.configClient handle) := by
  rw [configClients, clientStates_eq, List.map_filterMap]
  refine List.filterMap_congr fun _ _ => ?_
  rw [Option.map_map]
  rfl

theorem configClients_congr
    (registered : later.clientManager.registeredClients = service.clientManager.registeredClients)
    (alike : ∀ handle, later.clientManager.get handle = service.clientManager.get handle)
    (fingerprints : ∀ handle, later.clientManager.peerFingerprint handle =
      service.clientManager.peerFingerprint handle) :
    later.configClients = service.configClients := by
  rw [configClients_eq, configClients_eq, registered]
  refine filterMap_congr fun handle _ => ?_
  rw [alike]
  have written : later.configClient handle = service.configClient handle := by
    funext client
    rw [configClient, configClient, fingerprints]
  rw [written]

theorem configClients_addWithConfig {order : IterOrder Ip}
    (room : service.clientManager.nextHandle < enterHandleBegin) (client : ConfigClient Ip) :
    configClients { service with
        clientManager := service.clientManager.addWithConfig order room client } =
      service.configClients ++ [client] := by
  rw [configClients_eq, configClients_eq]
  rw [registeredClients_addWithConfig, List.filterMap_append]
  congr 1
  · refine List.filterMap_congr fun handle member => ?_
    rcases mem_registeredClients.mp member with ⟨_, found⟩
    have older : handle ≠ service.clientManager.nextHandle := by
      rintro rfl
      exact UInt64.lt_irrefl _ (lt_nextHandle found)
    rw [get_addWithConfig, if_neg older, found, Option.map_some, Option.map_some]
    simp only [configClient]
    rw [peerFingerprint_addWithConfig, if_neg older]
  · rw [List.filterMap_cons, get_addWithConfig, if_pos rfl, Option.map_some, List.filterMap_nil]
    simp only [configClient]
    rw [peerFingerprint_addWithConfig, if_pos rfl]
    rcases client with ⟨_, _, _, _, _, _, _⟩
    simp only [configured, List.cons.injEq, ConfigClient.mk.injEq, and_true]
    ext ip
    rw [List.mem_toFinset, IterOrder.mem_arrange, ConfigClient.sortedIps, Finset.mem_sort]

/-- Nothing changes but which clients are active, and what the capture task was asked. -/
structure SameClients (service later : Service Ip) : Prop where
  registered : later.clientManager.registeredClients = service.clientManager.registeredClients
  idle : ∀ handle, (later.clientManager.get handle).map Client.idle =
    (service.clientManager.get handle).map Client.idle
  fingerprints : ∀ handle, later.clientManager.peerFingerprint handle =
    service.clientManager.peerFingerprint handle
  rest : later = { service with clientManager := later.clientManager, requests := later.requests }

section

omit [LinearOrder Ip]

theorem SameClients.refl (service : Service Ip) : service.SameClients service :=
  ⟨rfl, fun _ => rfl, fun _ => rfl, rfl⟩

theorem SameClients.trans {last : Service Ip} (first : service.SameClients later)
    (second : later.SameClients last) : service.SameClients last := by
  refine ⟨second.registered.trans first.registered,
    fun handle => (second.idle handle).trans (first.idle handle),
    fun handle => (second.fingerprints handle).trans (first.fingerprints handle), ?_⟩
  rw [second.rest, first.rest]

theorem sameClients_setActive (active : Bool) (requests : List CaptureRequest) :
    service.SameClients { service with
      clientManager := service.clientManager.setActive handle active
      requests := requests } := by
  refine ⟨?_, fun _ => ?_, fun _ => rfl, rfl⟩
  · rw [registeredClients_eq, registeredClients_eq]
    exact congrArg reverse (AList.keys_adjust _ _ _)
  · dsimp only
    rw [setActive, get_modify]
    split
    · rename_i same
      rw [same, Option.map_map]
      rfl
    · rfl

end

theorem SameClients.configClients (same : service.SameClients later)
    (edges : ∀ handle, later.clientManager.edgeOf handle = service.clientManager.edgeOf handle) :
    later.configClients = service.configClients := by
  refine configClients_congr same.registered (fun handle => ?_) same.fingerprints
  have idle := same.idle handle
  have edge := edges handle
  unfold edgeOf at edge
  cases found : later.clientManager.get handle with
  | none =>
    rw [found] at idle
    exact (map_eq_none_iff.mp idle.symm).symm
  | some =>
    rw [found] at idle edge
    cases known : service.clientManager.get handle with
    | none =>
      rw [known] at idle
      cases idle
    | some =>
      rw [known] at idle edge
      exact congrArg some (Client.eq_of_idle (some.inj idle) edge)

theorem SameClients.idleClients (same : service.SameClients later) :
    later.configClients.map ConfigClient.idle = service.configClients.map ConfigClient.idle := by
  rw [configClients_eq, configClients_eq, same.registered, List.map_filterMap, List.map_filterMap]
  refine List.filterMap_congr fun handle _ => ?_
  have fingerprint : later.configClient handle = service.configClient handle := by
    funext client
    rw [configClient, configClient, same.fingerprints]
  calc ((later.clientManager.get handle).map (later.configClient handle)).map ConfigClient.idle
      = ((later.clientManager.get handle).map Client.idle).map (later.configClient handle) := by
        rw [Option.map_map, Option.map_map]
        rfl
    _ = ((service.clientManager.get handle).map Client.idle).map
          (service.configClient handle) := by rw [same.idle, fingerprint]
    _ = ((service.clientManager.get handle).map (service.configClient handle)).map
          ConfigClient.idle := by
        rw [Option.map_map, Option.map_map]
        rfl

section

omit [LinearOrder Ip]

theorem SameClients.getPos (same : service.SameClients later) :
    later.clientManager.getPos handle = service.clientManager.getPos handle := by
  have positions := congrArg (Option.map fun client => client.config.pos) (same.idle handle)
  rw [Option.map_map, Option.map_map] at positions
  exact positions

theorem sameClients_deactivated (handle : ClientHandle) :
    service.SameClients (service.deactivated handle) := by
  unfold deactivated
  split
  · exact sameClients_setActive false _
  · exact .refl service

theorem sameClients_activated (handle : ClientHandle) :
    service.SameClients (service.activated handle) := by
  unfold activated
  cases service.clientManager.getPos handle with
  | none => exact .refl service
  | some pos =>
    have yields : service.SameClients (service.yielding handle pos) := by
      unfold yielding
      cases service.clientManager.clientAt pos with
      | none => exact .refl service
      | some other =>
        dsimp only
        split
        · exact sameClients_deactivated other
        · exact .refl service
    refine yields.trans ?_
    dsimp only
    unfold placed
    split
    · exact sameClients_setActive true _
    · exact .refl _

theorem sameClients_deactivateAll (active : List ClientHandle) :
    (Handler.each active fun handle =>
        Handler.manage fun manager => (manager.deactivateClient handle).1).Ensures service
      (fun _ after => service.SameClients after) fun _ _ => False := by
  refine .each service.SameClients (.refl service) fun _ _ _ same => ?_
  rw [ensures_manage]
  unfold deactivateClient
  split
  · exact same.trans (sameClients_setActive false _)
  · exact same

theorem activated_of_free (at' : service.clientManager.getPos handle = some pos)
    (idle : service.clientManager.edgeOf handle = none)
    (free : ∀ other, service.clientManager.edgeOf other ≠ some pos) :
    service.activated handle = { service with
      clientManager := service.clientManager.setActive handle true
      requests := service.requests ++ [.create handle pos .default] } := by
  have stays : service.yielding handle pos = service := by
    unfold yielding
    cases met : service.clientManager.clientAt pos with
    | none => rfl
    | some other => exact absurd (edgeOf_of_clientAt met) (free other)
  have inactive : service.clientManager.isActive handle false = true := by
    rcases map_eq_some_iff.mp at' with ⟨_, found, _⟩
    rw [edgeOf, found, bind_some, Client.edge] at idle
    rw [isActive, found]
    split at idle
    · cases idle
    · rename_i off
      simpa using off
  rw [activated, at']
  dsimp only
  rw [stays, placed, if_pos inactive]

theorem getPos_setActive {other : ClientHandle} (active : Bool) :
    (service.clientManager.setActive other active).getPos handle =
      service.clientManager.getPos handle := by
  rw [getPos, setActive, get_modify, getPos]
  split
  · rename_i same
    rw [same, Option.map_map]
    rfl
  · rfl

theorem ensures_activateAll {rest : List ClientHandle}
    (there : ∀ handle ∈ rest, ∃ pos, service.clientManager.getPos handle = some pos)
    (idle : ∀ handle ∈ rest, service.clientManager.edgeOf handle = none)
    (free : ∀ handle ∈ rest, ∀ other pos, service.clientManager.edgeOf other = some pos →
      service.clientManager.getPos handle ≠ some pos) (apart : rest.Pairwise fun first second =>
      service.clientManager.getPos first ≠ service.clientManager.getPos second) :
    (Handler.each rest Handler.activateClient).Ensures service
      (fun _ after => service.SameClients after ∧ ∀ handle,
        after.clientManager.edgeOf handle =
          if handle ∈ rest then service.clientManager.getPos handle
          else service.clientManager.edgeOf handle) fun _ _ => False := by
  induction rest generalizing service with
  | nil => exact ⟨.refl service, fun _ => rfl⟩
  | cons first rest ih =>
    rcases there first (.head _) with ⟨pos, at'⟩
    rcases pairwise_cons.mp apart with ⟨away, apart⟩
    have new : first ∉ rest := fun again => absurd rfl (away first again)
    rw [Handler.each, ensures_bind, ensures_activateClient,
      activated_of_free at' (idle first mem_cons_self) fun other taken =>
        free first mem_cons_self other pos taken at']
    have edges : ∀ other, (service.clientManager.setActive first true).edgeOf other =
        if other = first then some pos else service.clientManager.edgeOf other := by
      intro other
      rw [edgeOf_setActive, if_pos rfl, at']
    refine (ih ?_ ?_ ?_ ?_).mono (fun _ _ done => ?_) fun _ _ impossible => impossible
    · intro handle member
      rw [getPos_setActive]
      exact there handle (.tail _ member)
    · intro handle member
      rw [edges, if_neg]
      · exact idle handle (.tail _ member)
      · rintro rfl
        exact new member
    · intro handle member other taken edge
      rw [getPos_setActive]
      rw [edges] at edge
      split at edge
      · rw [← edge, ← at']
        exact (away handle member).symm
      · exact free handle (.tail _ member) other taken edge
    · refine apart.imp fun _ => ?_
      rwa [getPos_setActive, getPos_setActive]
    · refine ⟨(sameClients_setActive true _).trans done.1, fun handle => ?_⟩
      rw [done.2 handle]
      rw [getPos_setActive, edges]
      by_cases same : handle = first
      · subst same
        rw [if_neg new, if_pos rfl, if_pos mem_cons_self, at']
      · rw [if_neg same]
        by_cases member : handle ∈ rest
        · rw [if_pos member, if_pos (.tail _ member)]
        · rw [if_neg member, if_neg]
          exact fun later => member ((mem_cons.mp later).resolve_left same)

end

/-- A start takes its clients and settings from the configuration alone. -/
structure Launched (host : Host Ip) (config : Config Ip) (service : Service Ip) : Prop where
  rest : service = { Service.new host config with
    clientManager := service.clientManager, requests := service.requests }
  idle : service.configClients.map ConfigClient.idle = config.clients.map ConfigClient.idle
  clients : config.clients.Pairwise ConfigClient.Apart → service.configClients = config.clients

theorem ensures_addAll {configured : List (ConfigClient Ip)} :
    (Handler.each configured (Handler.addWithConfig host)).Ensures service
      (fun _ after => after.configClients = service.configClients ++ configured ∧
        after = { service with clientManager := after.clientManager })
      fun _ _ => enterHandleBegin.toNat <
        service.clientManager.nextHandle.toNat + configured.length := by
  induction configured generalizing service with
  | nil => exact ⟨(append_nil _).symm, rfl⟩
  | cons _ _ ih =>
    rw [Handler.each, ensures_bind, Handler.addWithConfig, ensures_bind, ensures_service]
    by_cases room : service.clientManager.nextHandle < enterHandleBegin
    · rw [dif_pos room, ensures_manage]
      refine ih.mono (fun _ _ done => ?_) fun _ _ full => ?_
      · rw [done.1, configClients_addWithConfig, append_assoc, done.2]
        exact ⟨rfl, rfl⟩
      · dsimp only at full
        rw [nextHandle_addWithConfig, UInt64.toNat_add] at full
        have one : UInt64.toNat 1 = 1 := rfl
        rw [length_cons]
        omega
    · rw [dif_neg room, ensures_panic]
      rw [UInt64.lt_iff_toNat_lt] at room
      rw [length_cons]
      omega

omit [LinearOrder Ip] in
theorem configClients_new [DecidableEq Ip] (config : Config Ip) :
    (Service.new host config).configClients = [] := rfl

theorem activeClients_apart (apart : service.configClients.Pairwise ConfigClient.Apart) :
    service.clientManager.activeClients.Pairwise fun first second =>
      service.clientManager.getPos first ≠ service.clientManager.getPos second := by
  unfold activeClients
  unfold configClients at apart
  rw [pairwise_map] at apart ⊢
  refine (apart.filter _).imp_of_mem fun {first second} one two apart => ?_
  rcases mem_filter.mp one with ⟨there, active⟩
  rcases mem_filter.mp two with ⟨also, activeToo⟩
  rw [getPos, getPos, mem_clientStates.mp there, mem_clientStates.mp also, map_some, map_some]
  exact fun same => apart active activeToo (some.inj same)

theorem ensures_launch (host : Host Ip) (config : Config Ip) :
    (Handler.launch host config.clients).Ensures (.new host config)
      (fun _ after => Launched host config after)
      fun _ _ => enterHandleBegin.toNat < config.clients.length := by
  rw [Handler.launch, ensures_bind]
  refine (ensures_addAll.and (ensures_addAll_fresh config)).mono (fun _ added both => ?_)
    fun _ _ _ => ?_
  · rcases both with ⟨⟨written, rest⟩, fresh⟩
    rw [configClients_new, nil_append] at written
    rw [ensures_bind, ensures_service]
    rw [ensures_bind]
    have stopped := (ensures_deactivateAll fresh fun handle there =>
      mem_activeClients.mpr there).and (sameClients_deactivateAll _)
    refine stopped.mono (fun _ idle both => ?_) fun _ _ impossible => impossible.1.elim
    rcases both with ⟨⟨_, inactive⟩, same⟩
    have launched : ∀ after, idle.SameClients after → after = { Service.new host config with
          clientManager := after.clientManager, requests := after.requests } ∧
        after.configClients.map ConfigClient.idle = config.clients.map ConfigClient.idle := by
      intro after further
      refine ⟨by rw [(same.trans further).rest, rest], ?_⟩
      rw [← written]
      exact (same.trans further).idleClients
    by_cases apart : config.clients.Pairwise ConfigClient.Apart
    · have there : ∀ handle ∈ added.clientManager.activeClients,
          ∃ pos, idle.clientManager.getPos handle = some pos := by
        intro handle member
        rw [same.getPos]
        rcases ne_none_iff_exists'.mp (mem_activeClients.mp member) with ⟨pos, edge⟩
        exact ⟨pos, getPos_of_edgeOf edge⟩
      have away : added.clientManager.activeClients.Pairwise fun first second =>
          idle.clientManager.getPos first ≠ idle.clientManager.getPos second := by
        rw [← written] at apart
        refine (activeClients_apart apart).imp fun _ => ?_
        rwa [same.getPos, same.getPos]
      refine (ensures_activateAll there (fun handle _ => inactive handle)
        (fun _ _ _ _ taken => ?_) away).mono (fun _ after done =>
          ⟨(launched after done.1).1, (launched after done.1).2, fun _ => ?_⟩)
        fun _ _ impossible => impossible.elim
      · rw [inactive] at taken
        cases taken
      · rw [← written]
        refine (same.trans done.1).configClients fun handle => ?_
        rw [done.2 handle, same.getPos, inactive]
        cases edge : added.clientManager.edgeOf handle with
        | none => rw [if_neg fun member => mem_activeClients.mp member edge]
        | some pos =>
          have member : handle ∈ added.clientManager.activeClients := by
            rw [mem_activeClients, edge]
            exact some_ne_none pos
          rw [if_pos member, getPos_of_edgeOf edge]
    · refine (Handler.Ensures.each idle.SameClients (.refl idle)
        fun handle _ after further => ?_).mono (fun _ after further => ⟨(launched after further).1,
          (launched after further).2, fun holds => absurd holds apart⟩)
          fun _ _ impossible => False.elim impossible
      rw [ensures_activateClient]
      exact further.trans (sameClients_activated handle)
  · have start : (Service.new host config).clientManager.nextHandle.toNat = 0 := rfl
    omega

theorem starts_of_fits {config : Config Ip}
    (fits : config.clients.length ≤ enterHandleBegin.toNat) :
    ∃ service, Starts host config service := by
  have launched := ensures_launch host config
  unfold Handler.Ensures at launched
  unfold Starts
  generalize Handler.launch host config.clients (.new host config) = ended at launched ⊢
  rcases ended with ⟨_ | _, after⟩
  · exact absurd launched (Nat.not_lt.mpr fits)
  · exact ⟨after, rfl⟩

theorem launched_of_starts {config : Config Ip} (started : Starts host config service) :
    Launched host config service := by
  have launched := ensures_launch host config
  unfold Handler.Ensures at launched
  rw [started] at launched
  exact launched

end Service

end Syntra.Clients
