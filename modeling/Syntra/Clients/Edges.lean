import Syntra.Clients.Service

/-!
# One owner for an edge

The service asks for a capture when a client becomes active or a peer enters, and gives it up when
that ends. The captures that stand are those of the active clients, each at the position it has
now, and those of the peers that are on this screen; no two active clients are at one edge.
-/

namespace Syntra.Clients

open ClientManager Option List StateMachine Function
open Syntra.Capture (CaptureRequest CaptureType)
open Syntra.Proto (Position)
open Syntra.Service (ClientHandle)

def capturesAfter (captures : List (ClientHandle × Position × CaptureType)) :
    CaptureRequest → List (ClientHandle × Position × CaptureType)
  | .create handle pos captureType => captures ++ [(handle, pos, captureType)]
  | .destroy handle => captures.filter fun capture => capture.1 ≠ handle
  | _ => captures

def standing (requests : List CaptureRequest) : List (ClientHandle × Position × CaptureType) :=
  requests.foldl capturesAfter []

def creates (requests : List CaptureRequest) (handle : ClientHandle) : ℕ :=
  requests.countP fun request => match request with
    | .create created _ _ => created = handle
    | _ => false

def destroys (requests : List CaptureRequest) (handle : ClientHandle) : ℕ :=
  requests.countP fun request => decide (request = .destroy handle)

/-- The captures asked for are the wanted ones, each once, and every other one was given back. -/
structure Covers (requests : List CaptureRequest)
    (wants : ClientHandle → Option (Position × CaptureType)) : Prop where
  mem : ∀ handle pos captureType,
    (handle, pos, captureType) ∈ standing requests ↔ wants handle = some (pos, captureType)
  nodup : ((standing requests).map Prod.fst).Nodup
  balanced : ∀ handle, creates requests handle =
    destroys requests handle + if (wants handle).isSome then 1 else 0

section Covers

variable {requests : List CaptureRequest} {wants : ClientHandle → Option (Position × CaptureType)}
  {handle : ClientHandle}

theorem covers_nil : Covers [] fun _ => none :=
  ⟨fun _ _ _ => by simp [standing], .nil, fun _ => rfl⟩

theorem standing_concat (request : CaptureRequest) :
    standing (requests ++ [request]) = capturesAfter (standing requests) request := by
  simp [standing]

theorem Covers.create (covers : Covers requests wants) (absent : wants handle = none)
    (pos : Position) (captureType : CaptureType) :
    Covers (requests ++ [.create handle pos captureType])
      (update wants handle (some (pos, captureType))) := by
  refine ⟨fun other at' kind => ?_, ?_, fun other => ?_⟩
  · rw [standing_concat, capturesAfter, mem_append, covers.mem, mem_singleton]
    by_cases same : other = handle
    · subst same
      simp [absent, eq_comm]
    · simp [same]
  · rw [standing_concat, capturesAfter, map_append, nodup_append]
    refine ⟨covers.nodup, nodup_singleton _, ?_⟩
    intro other known _ new
    rcases mem_map.mp known with ⟨⟨_, _, _⟩, member, rfl⟩
    rw [map_singleton, mem_singleton] at new
    subst new
    rintro rfl
    rw [covers.mem, absent] at member
    cases member
  · have before := covers.balanced other
    simp only [creates, destroys] at before ⊢
    rw [countP_append, countP_append, before]
    by_cases same : other = handle
    · subst same
      simp [absent]
    · simp [same, Ne.symm same]

theorem Covers.destroy (covers : Covers requests wants) (present : (wants handle).isSome) :
    Covers (requests ++ [.destroy handle]) (update wants handle none) := by
  refine ⟨fun other _ _ => ?_, ?_, fun other => ?_⟩
  · rw [standing_concat, capturesAfter, mem_filter, covers.mem]
    by_cases same : other = handle
    · simp [same]
    · simp [same]
  · rw [standing_concat, capturesAfter]
    exact covers.nodup.sublist ((filter_sublist).map _)
  · have before := covers.balanced other
    simp only [creates, destroys] at before ⊢
    rw [countP_append, countP_append, before]
    by_cases same : other = handle
    · subst same
      simp [present]
    · simp [same, Ne.symm same]

end Covers

def Client.edge {Ip : Type} (client : Client Ip) : Option Position :=
  if client.state.active then some client.config.pos else none

def ClientManager.edgeOf {Ip : Type} (manager : ClientManager Ip) (handle : ClientHandle) :
    Option Position :=
  (manager.get handle).bind Client.edge

namespace Service

variable {Ip : Type}

def wants (service : Service Ip) (handle : ClientHandle) : Option (Position × CaptureType) :=
  if handle < enterHandleBegin then
    (service.clientManager.edgeOf handle).map fun pos => (pos, .default)
  else
    (service.incomingConnInfo.lookup handle).map fun incoming => (incoming.pos, .enterOnly)

/-- The two tables of entered peers agree. -/
structure PeersKnown (service : Service Ip) : Prop where
  /-- The addresses of the peers that have entered are those of their entries. -/
  conns : ∀ addr, addr ∈ service.incomingConns ↔
    ∃ handle incoming, service.incomingConnInfo.lookup handle = some incoming ∧ incoming.addr = addr
  /-- An address has one entry. -/
  addresses : ∀ handle other incoming others,
    service.incomingConnInfo.lookup handle = some incoming →
    service.incomingConnInfo.lookup other = some others → incoming.addr = others.addr →
    handle = other
  triggers : service.nextTriggerHandle ≤ enterHandleBegin
  handles : ∀ handle incoming, service.incomingConnInfo.lookup handle = some incoming →
    enterHandleBegin ≤ handle ∧
    handle.toNat < enterHandleBegin.toNat + service.nextTriggerHandle.toNat

/-- Edges are shared out: one client each, with the captures that this takes. -/
structure Edges (service : Service Ip) : Prop where
  /-- No two active clients are at one edge. -/
  owner : ∀ handle other pos, service.clientManager.edgeOf handle = some pos →
    service.clientManager.edgeOf other = some pos → handle = other
  /-- The captures are those of the active clients and of the peers that have entered. -/
  covers : Covers service.requests service.wants
  peers : service.PeersKnown
  /-- The handles of clients and those of peers that enter are kept apart. -/
  room : service.clientManager.nextHandle ≤ enterHandleBegin

end Service

namespace ClientManager

variable {Ip : Type} {manager : ClientManager Ip} {handle other : ClientHandle}
  {change : Client Ip → Client Ip} {pos : Position}

theorem edgeOf_modify :
    (manager.modify handle change).edgeOf other =
      if other = handle then (manager.get handle).bind fun client => (change client).edge
      else manager.edgeOf other := by
  rw [edgeOf, get_modify]
  split
  · rw [bind_map]
    rfl
  · rfl

theorem edgeOf_modify_same (keeps : ∀ client, (change client).edge = client.edge) :
    (manager.modify handle change).edgeOf other = manager.edgeOf other := by
  rw [edgeOf_modify]
  split
  · rename_i same
    subst same
    simp only [keeps]
    rfl
  · rfl

theorem isActive_true : manager.isActive handle true = (manager.edgeOf handle).isSome := by
  unfold isActive edgeOf Client.edge
  cases manager.get handle with
  | none => rfl
  | some client => cases active : client.state.active <;> simp [active]

theorem edgeOf_setActive (active : Bool) :
    (manager.setActive handle active).edgeOf other =
      if other = handle then if active then manager.getPos handle else none
      else manager.edgeOf other := by
  rw [setActive, edgeOf_modify, getPos]
  cases active <;> cases manager.get handle <;> rfl

theorem lt_of_edgeOf (there : manager.edgeOf handle = some pos) : handle < manager.nextHandle := by
  rcases bind_eq_some_iff.mp there with ⟨_, found, _⟩
  exact lt_nextHandle found

theorem edgeOf_of_clientAt (found : manager.clientAt pos = some handle) :
    manager.edgeOf handle = some pos := by
  rcases map_eq_some_iff.mp found with ⟨⟨_, _⟩, hit, rfl⟩
  have active := find?_some hit
  have there := mem_clientStates.mp (mem_of_find?_eq_some hit)
  simp only [Bool.and_eq_true, decide_eq_true_eq] at active
  rw [edgeOf, there, bind_some, Client.edge, if_pos active.1, active.2]

theorem edgeOf_ne_of_clientAt (free : manager.clientAt pos = none) :
    manager.edgeOf handle ≠ some pos := by
  intro there
  rcases bind_eq_some_iff.mp there with ⟨_, found, edge⟩
  unfold Client.edge at edge
  split at edge
  · rename_i active
    have missed := find?_eq_none.mp (map_eq_none_iff.mp free) _ (mem_clientStates.mpr found)
    simp only [active, some.inj edge] at missed
    simp at missed
  · cases edge

end ClientManager

namespace Service

variable {Ip : Type} {service later : Service Ip} {handle : ClientHandle} {pos : Position}

/-- Nothing changes about the peers that have entered. -/
structure SamePeers (service later : Service Ip) : Prop where
  conns : later.incomingConns = service.incomingConns
  info : ∀ handle, later.incomingConnInfo.lookup handle = service.incomingConnInfo.lookup handle
  triggers : later.nextTriggerHandle = service.nextTriggerHandle

theorem SamePeers.of_clients {manager : ClientManager Ip} {requests : List CaptureRequest}
    (service : Service Ip) :
    service.SamePeers { service with clientManager := manager, requests := requests } :=
  ⟨rfl, fun _ => rfl, rfl⟩

theorem PeersKnown.of_same (known : service.PeersKnown) (peers : service.SamePeers later) :
    later.PeersKnown := by
  refine ⟨?_, ?_, ?_, ?_⟩
  · simpa only [peers.conns, peers.info] using known.conns
  · simpa only [peers.info] using known.addresses
  · rw [peers.triggers]
    exact known.triggers
  · simpa only [peers.info, peers.triggers] using known.handles

theorem Edges.known_lt (edges : service.Edges)
    (there : service.clientManager.edgeOf handle = some pos) : handle < enterHandleBegin :=
  UInt64.lt_of_lt_of_le (lt_of_edgeOf there) edges.room

theorem Edges.of_same (edges : service.Edges) (peers : service.SamePeers later)
    (same : ∀ other, later.clientManager.edgeOf other = service.clientManager.edgeOf other)
    (room : later.clientManager.nextHandle ≤ enterHandleBegin)
    (requests : later.requests = service.requests) : later.Edges := by
  have wants : later.wants = service.wants := by
    funext other
    simp only [wants, same, peers.info]
  refine ⟨?_, ?_, edges.peers.of_same peers, room⟩
  · simpa only [same] using edges.owner
  · rw [requests, wants]
    exact edges.covers

theorem Edges.vacate (edges : service.Edges) (peers : service.SamePeers later)
    (there : service.clientManager.edgeOf handle = some pos)
    (gone : ∀ other, later.clientManager.edgeOf other =
      if other = handle then none else service.clientManager.edgeOf other)
    (room : later.clientManager.nextHandle ≤ enterHandleBegin)
    (requests : later.requests = service.requests ++ [.destroy handle]) : later.Edges := by
  have client := edges.known_lt there
  have wants : later.wants = update service.wants handle none := by
    funext other
    by_cases same : other = handle
    · subst same
      simp [wants, client, gone]
    · simp [wants, same, gone, peers.info]
  refine ⟨fun first second at' one two => ?_, ?_, edges.peers.of_same peers, room⟩
  · rw [gone] at one two
    split at one
    · cases one
    · split at two
      · cases two
      · exact edges.owner first second at' one two
  · rw [requests, wants]
    refine edges.covers.destroy ?_
    simp [Service.wants, client, there]

theorem Edges.occupy (edges : service.Edges) (peers : service.SamePeers later)
    (known : handle < service.clientManager.nextHandle)
    (idle : service.clientManager.edgeOf handle = none)
    (free : ∀ other, service.clientManager.edgeOf other ≠ some pos)
    (takes : ∀ other, later.clientManager.edgeOf other =
      if other = handle then some pos else service.clientManager.edgeOf other)
    (room : later.clientManager.nextHandle ≤ enterHandleBegin)
    (requests : later.requests = service.requests ++ [.create handle pos .default]) :
    later.Edges := by
  have client : handle < enterHandleBegin :=
    UInt64.lt_of_lt_of_le known edges.room
  have wants : later.wants = update service.wants handle (some (pos, .default)) := by
    funext other
    by_cases same : other = handle
    · subst same
      simp [wants, client, takes]
    · simp [wants, same, takes, peers.info]
  refine ⟨fun first second at' one two => ?_, ?_, edges.peers.of_same peers, room⟩
  · rw [takes] at one two
    split at one
    · rename_i same
      split at two
      · rename_i also
        rw [same, also]
      · rw [← some.inj one] at two
        exact absurd two (free second)
    · split at two
      · rw [← some.inj two] at one
        exact absurd one (free first)
      · exact edges.owner first second at' one two
  · rw [requests, wants]
    refine edges.covers.create ?_ pos .default
    simp [Service.wants, client, idle]

def deactivated (service : Service Ip) (handle : ClientHandle) : Service Ip :=
  if service.clientManager.isActive handle true then
    { service with
      clientManager := service.clientManager.setActive handle false
      requests := service.requests ++ [.destroy handle] }
  else service

def placed (service : Service Ip) (handle : ClientHandle) (pos : Position) : Service Ip :=
  if service.clientManager.isActive handle false then
    { service with
      clientManager := service.clientManager.setActive handle true
      requests := service.requests ++ [.create handle pos .default] }
  else service

/-- Whoever is at the edge gives way to another client. -/
def yielding (service : Service Ip) (handle : ClientHandle) (pos : Position) : Service Ip :=
  match service.clientManager.clientAt pos with
  | some other => if other ≠ handle then service.deactivated other else service
  | none => service

def activated (service : Service Ip) (handle : ClientHandle) : Service Ip :=
  match service.clientManager.getPos handle with
  | none => service
  | some pos => (service.yielding handle pos).placed handle pos

def removed (service : Service Ip) (handle : ClientHandle) : Service Ip :=
  { service with
    clientManager := service.clientManager.removeClient handle
    requests :=
      if service.clientManager.isActive handle true then service.requests ++ [.destroy handle]
      else service.requests }

section Handlers

variable {post : Unit → Service Ip → Prop} {stopped : Panic → Service Ip → Prop}

@[simp]
theorem ensures_service {after : Service Ip → Service Ip → Prop} :
    (Handler.service : Handler Ip (Service Ip)).Ensures service after stopped ↔
      after service service :=
  Iff.rfl

@[simp]
theorem ensures_manage {change : ClientManager Ip → ClientManager Ip} :
    (Handler.manage change).Ensures service post stopped ↔
      post () { service with clientManager := change service.clientManager } :=
  Iff.rfl

@[simp]
theorem ensures_request {request : CaptureRequest} :
    (Handler.request request : Handler Ip Unit).Ensures service post stopped ↔
      post () { service with requests := service.requests ++ [request] } :=
  Iff.rfl

@[simp]
theorem ensures_update {change : Service Ip → Service Ip} :
    (Handler.update change).Ensures service post stopped ↔ post () (change service) :=
  Iff.rfl

@[simp]
theorem ensures_panic {panic : Panic} :
    (Handler.panic panic : Handler Ip Unit).Ensures service post stopped ↔ stopped panic service :=
  Iff.rfl

@[simp]
theorem ensures_deactivateClient :
    (Handler.deactivateClient handle).Ensures service post stopped ↔
      post () (service.deactivated handle) := by
  unfold Handler.deactivateClient deactivateClient deactivated
  by_cases active : service.clientManager.isActive handle true = true <;> simp [active]

theorem ensures_clearEdge :
    (Handler.clearEdge handle pos).Ensures service post stopped ↔
      post () (service.yielding handle pos) := by
  unfold Handler.clearEdge yielding
  rw [Handler.ensures_bind, ensures_service]
  cases service.clientManager.clientAt pos with
  | none => exact Iff.rfl
  | some other => by_cases same : other = handle <;> simp [same]

theorem ensures_placeClient :
    (Handler.placeClient handle pos).Ensures service post stopped ↔
      post () (service.placed handle pos) := by
  unfold Handler.placeClient activateClient placed
  by_cases idle : service.clientManager.isActive handle false = true <;> simp [idle]

@[simp]
theorem ensures_activateClient :
    (Handler.activateClient handle).Ensures service post stopped ↔
      post () (service.activated handle) := by
  unfold Handler.activateClient activated
  rw [Handler.ensures_bind, ensures_service]
  cases service.clientManager.getPos handle with
  | none => exact Iff.rfl
  | some =>
    rw [Handler.ensures_bind, ensures_clearEdge, ensures_placeClient]

@[simp]
theorem ensures_removeClient :
    (Handler.removeClient handle).Ensures service post stopped ↔
      post () (service.removed handle) := by
  unfold Handler.removeClient removed
  by_cases active : service.clientManager.isActive handle true = true <;> simp [active]

end Handlers

variable (edges : service.Edges)
include edges

theorem Edges.deactivated (handle : ClientHandle) : (service.deactivated handle).Edges := by
  unfold Service.deactivated
  split
  · rename_i active
    rw [isActive_true, isSome_iff_exists] at active
    rcases active with ⟨_, there⟩
    refine edges.vacate (.of_clients _) there (fun _ => ?_) edges.room rfl
    exact edgeOf_setActive false
  · exact edges

omit edges in
theorem getPos_deactivated {other : ClientHandle} :
    (service.deactivated other).clientManager.getPos handle =
      service.clientManager.getPos handle := by
  unfold deactivated
  split
  · change ((service.clientManager.setActive other false).get handle).map _ = _
    rw [setActive, get_modify, getPos]
    split
    · rename_i same
      rw [same, Option.map_map]
      rfl
    · rfl
  · rfl

theorem Edges.yielding (handle : ClientHandle) (pos : Position) :
    (service.yielding handle pos).Edges ∧
      (service.yielding handle pos).clientManager.getPos handle =
        service.clientManager.getPos handle ∧
      ∀ other, (service.yielding handle pos).clientManager.edgeOf other = some pos →
        other = handle := by
  unfold Service.yielding
  cases met : service.clientManager.clientAt pos with
  | none =>
    exact ⟨edges, rfl, fun other there => absurd there (edgeOf_ne_of_clientAt met)⟩
  | some owner =>
    have owns := edgeOf_of_clientAt met
    by_cases same : owner = handle
    · simp only [same, ne_eq, not_true_eq_false, if_false]
      rw [same] at owns
      exact ⟨edges, trivial, fun other there => edges.owner other handle pos there owns⟩
    · simp only [ne_eq, same, not_false_eq_true, if_true]
      refine ⟨edges.deactivated owner, getPos_deactivated, fun other there => ?_⟩
      have active : service.clientManager.isActive owner true = true := by
        rw [isActive_true, owns]
        rfl
      unfold Service.deactivated at there
      rw [if_pos active] at there
      rw [edgeOf_setActive] at there
      split at there
      · cases there
      · rename_i different
        exact absurd (edges.owner other owner pos there owns) different

theorem Edges.placed (at' : service.clientManager.getPos handle = some pos)
    (free : ∀ other, service.clientManager.edgeOf other = some pos → other = handle) :
    (service.placed handle pos).Edges := by
  unfold Service.placed
  split
  · rename_i inactive
    rcases map_eq_some_iff.mp at' with ⟨_, found, _⟩
    have idle : service.clientManager.edgeOf handle = none := by
      rw [isActive, found] at inactive
      rw [edgeOf, found, bind_some, Client.edge, if_neg]
      simpa using inactive
    refine edges.occupy (.of_clients _) (lt_nextHandle found) idle
      (fun other there => ?_) (fun other => ?_) edges.room rfl
    · rw [free other there, idle] at there
      cases there
    · refine (edgeOf_setActive true).trans ?_
      rw [if_pos rfl, at']
  · exact edges

theorem Edges.activated (handle : ClientHandle) : (service.activated handle).Edges := by
  unfold Service.activated
  cases at' : service.clientManager.getPos handle with
  | none => exact edges
  | some pos =>
    rcases edges.yielding handle pos with ⟨kept, stays, free⟩
    exact kept.placed (stays.trans at') free

theorem Edges.removed (handle : ClientHandle) : (service.removed handle).Edges := by
  have gone : ∀ other, (service.clientManager.removeClient handle).edgeOf other =
      if other = handle then none else service.clientManager.edgeOf other := by
    intro other
    rw [edgeOf, get_removeClient]
    split <;> rfl
  cases there : service.clientManager.edgeOf handle with
  | some =>
    have active : service.clientManager.isActive handle true = true := by
      rw [isActive_true, there]
      rfl
    refine edges.vacate (.of_clients _) there gone edges.room ?_
    rw [Service.removed, if_pos active]
  | none =>
    have inactive : ¬service.clientManager.isActive handle true = true := by
      rw [isActive_true, there]
      exact Bool.false_ne_true
    refine edges.of_same (.of_clients _) (fun other => ?_) edges.room ?_
    · refine (gone other).trans ?_
      split
      · rename_i same
        rw [same, there]
      · rfl
    · rw [Service.removed, if_neg inactive]

/-- The client leaves its edge before it takes the next one. -/
def moved (service : Service Ip) (handle : ClientHandle) (pos : Position) : Service Ip :=
  let moved := service.clientManager.setPos handle pos
  let service := { service with clientManager := moved.1 }
  if moved.2 then (service.deactivated handle).activated handle else service

theorem Edges.moved (handle : ClientHandle) (pos : Position) :
    (service.moved handle pos).Edges := by
  unfold Service.moved setPos
  by_cases differs : (service.clientManager.getPos handle).any (· ≠ pos) = true
  · rw [if_pos differs]
    cases there : service.clientManager.edgeOf handle with
    | none =>
      have inactive : ¬service.clientManager.isActive handle true = true := by
        rw [isActive_true, there]
        exact Bool.false_ne_true
      rw [if_neg inactive]
      refine edges.of_same (.of_clients _) (fun other => ?_) edges.room rfl
      refine edgeOf_modify.trans ?_
      split
      · rename_i same
        subst same
        unfold edgeOf at there ⊢
        cases found : service.clientManager.get other with
        | none => rfl
        | some =>
          rw [found, bind_some] at there
          rw [bind_some, bind_some, there]
          unfold Client.edge at there ⊢
          split at there
          · cases there
          · rename_i idle
            exact if_neg idle
      · rfl
    | some =>
      have active : service.clientManager.isActive handle true = true := by
        rw [isActive_true, there]
        rfl
      rw [if_pos active]
      refine Edges.activated ?_ handle
      have still : isActive (service.clientManager.modify handle fun client =>
          { client with config := { client.config with pos } }) handle true = true := by
        rw [isActive, get_modify, if_pos rfl]
        rw [isActive] at active
        cases found : service.clientManager.get handle with
        | none =>
          rw [found] at active
          cases active
        | some =>
          rw [found] at active
          exact active
      unfold Service.deactivated
      rw [if_pos still]
      refine edges.vacate (.of_clients _) there (fun other => ?_) edges.room rfl
      refine (edgeOf_setActive false).trans ?_
      by_cases same : other = handle
      · rw [if_pos same, if_pos same]
        rfl
      · rw [if_neg same, if_neg same, edgeOf_modify, if_neg same]
  · rw [if_neg differs]
    exact edges

end Service

end Syntra.Clients
