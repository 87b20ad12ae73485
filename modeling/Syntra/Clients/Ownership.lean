import Syntra.Clients.Edges

/-!
# Who owns an edge, over whole runs

Peers that enter this screen get captures of their own, which follow their position. Every event of
the running service keeps the captures in step with the clients and the peers, so an entry that is
looked up is always there.
-/

namespace Syntra.Clients

open StateMachine Clients.Service Option List
open Syntra.Capture (CaptureRequest CaptureType)
open Syntra.Emulation (SocketAddr)
open Syntra.Proto (Position)
open Syntra.Service (ClientHandle)
open Tables
open StateMachine.Handler (ensures_bind ensures_ite)
open ClientManager (deactivateClient edgeOf_modify_same edgeOf_setActive isActive_true lt_of_edgeOf
  nextHandle_addWithConfig updateIps)
open Handler (addActive addClient addIncoming addWithConfig handleRequest incomingAt launch manage
  removeIncoming saveConfig setBackend updateIncoming updatePos)

namespace Service

variable {Ip : Type} [LinearOrder Ip] {host : Host Ip} {service later : Service Ip}
  {handle : ClientHandle} {incoming : Incoming Ip} {addr : SocketAddr Ip} {pos : Position}
  {fingerprint : String}

theorem not_lt_of_enter (entered : enterHandleBegin ≤ handle) : ¬handle < enterHandleBegin :=
  UInt64.not_lt.mpr entered

theorem Edges.leave (edges : service.Edges)
    (there : service.incomingConnInfo.lookup handle = some incoming)
    (manager : later.clientManager = service.clientManager)
    (conns : later.incomingConns = service.incomingConns.erase incoming.addr)
    (info : ∀ other, later.incomingConnInfo.lookup other =
      if other = handle then none else service.incomingConnInfo.lookup other)
    (triggers : later.nextTriggerHandle = service.nextTriggerHandle)
    (requests : later.requests = service.requests ++ [.destroy handle]) : later.Edges := by
  have enters := not_lt_of_enter (edges.peers.handles handle incoming there).1
  have wants : later.wants = Function.update service.wants handle none := by
    funext other
    by_cases same : other = handle
    · subst same
      simp [wants, enters, info]
    · simp [wants, same, info, manager]
  refine ⟨?_, ?_, ⟨fun _ => ?_, fun first second one two => ?_, ?_, fun other entry => ?_⟩, ?_⟩
  · rw [manager]
    exact edges.owner
  · rw [requests, wants]
    refine edges.covers.destroy ?_
    simp [Service.wants, enters, there]
  · rw [conns, Finset.mem_erase, edges.peers.conns]
    constructor
    · rintro ⟨different, other, entry, found, rfl⟩
      refine ⟨other, entry, ?_, rfl⟩
      rw [info, if_neg, found]
      rintro rfl
      rw [there] at found
      exact different (congrArg Incoming.addr (some.inj found).symm)
    · rintro ⟨other, entry, found, rfl⟩
      rw [info] at found
      split at found
      · cases found
      · rename_i different
        exact ⟨fun same => different (edges.peers.addresses other handle entry incoming found there
          same), other, entry, found, rfl⟩
  · intro found also same
    rw [info] at found also
    split at found
    · cases found
    · split at also
      · cases also
      · exact edges.peers.addresses first second one two found also same
  · rw [triggers]
    exact edges.peers.triggers
  · intro found
    rw [info] at found
    split at found
    · cases found
    · rw [triggers]
      exact edges.peers.handles other entry found
  · rw [manager]
    exact edges.room

omit [LinearOrder Ip] in
theorem triggerHandle_spec (below : service.nextTriggerHandle ≤ enterHandleBegin)
    (fits : ¬enterHandleBegin + service.nextTriggerHandle < enterHandleBegin) :
    (enterHandleBegin + service.nextTriggerHandle).toNat =
        enterHandleBegin.toNat + service.nextTriggerHandle.toNat ∧
      (service.nextTriggerHandle + 1).toNat = service.nextTriggerHandle.toNat + 1 ∧
      service.nextTriggerHandle + 1 ≤ enterHandleBegin := by
  have size : enterHandleBegin.toNat = 0x8000000000000000 := rfl
  have one : UInt64.toNat 1 = 1 := rfl
  rw [UInt64.le_iff_toNat_le] at below
  rw [UInt64.lt_iff_toNat_lt, UInt64.toNat_add] at fits
  rw [UInt64.le_iff_toNat_le, UInt64.toNat_add, UInt64.toNat_add]
  omega

theorem Edges.enter (edges : service.Edges)
    (fresh : ∀ other entry, service.incomingConnInfo.lookup other = some entry → entry.addr ≠ addr)
    (fits : ¬enterHandleBegin + service.nextTriggerHandle < enterHandleBegin) :
    Edges { service with
      requests := service.requests ++
        [.create (enterHandleBegin + service.nextTriggerHandle) pos .enterOnly]
      nextTriggerHandle := service.nextTriggerHandle + 1
      incomingConns := insert addr service.incomingConns
      incomingConnInfo := service.incomingConnInfo.insert
        (enterHandleBegin + service.nextTriggerHandle) ⟨fingerprint, addr, pos⟩ } := by
  generalize numbered : enterHandleBegin + service.nextTriggerHandle = handle at fits
  have spec := triggerHandle_spec edges.peers.triggers (numbered ▸ fits)
  rw [numbered] at spec
  have absent : service.incomingConnInfo.lookup handle = none := by
    cases found : service.incomingConnInfo.lookup handle with
    | none => rfl
    | some entry =>
      have bound := (edges.peers.handles handle entry found).2
      omega
  have lookup : ∀ other, (service.incomingConnInfo.insert handle ⟨fingerprint, addr, pos⟩).lookup
      other = if other = handle then some ⟨fingerprint, addr, pos⟩
        else service.incomingConnInfo.lookup other :=
    fun other => lookup_insert _ _ _ _
  refine ⟨edges.owner, ?_, ⟨fun address => ?_, fun first second one two => ?_, spec.2.2,
    fun other entry => ?_⟩, edges.room⟩
  · have wants : wants { service with
        requests := service.requests ++ [.create handle pos .enterOnly]
        nextTriggerHandle := service.nextTriggerHandle + 1
        incomingConns := insert addr service.incomingConns
        incomingConnInfo := service.incomingConnInfo.insert handle ⟨fingerprint, addr, pos⟩ } =
        Function.update service.wants handle (some (pos, .enterOnly)) := by
      funext other
      by_cases same : other = handle
      · subst same
        simp [wants, fits]
      · simp [wants, same]
    rw [wants]
    refine edges.covers.create ?_ pos .enterOnly
    simp [Service.wants, fits, absent]
  · dsimp only
    rw [Finset.mem_insert, edges.peers.conns]
    constructor
    · rintro (rfl | ⟨other, entry, found, rfl⟩)
      · exact ⟨handle, ⟨fingerprint, address, pos⟩, (lookup handle).trans (if_pos rfl), rfl⟩
      · refine ⟨other, entry, (lookup other).trans ?_, rfl⟩
        rw [if_neg, found]
        rintro rfl
        rw [absent] at found
        cases found
    · rintro ⟨other, entry, found, rfl⟩
      rw [lookup] at found
      split at found
      · cases found
        exact .inl rfl
      · exact .inr ⟨other, entry, found, rfl⟩
  · dsimp only
    intro found also same
    rw [lookup] at found also
    split at found
    · rename_i here
      split at also
      · rename_i there
        rw [here, there]
      · cases found
        exact absurd same.symm (fresh second two also)
    · split at also
      · cases also
        exact absurd same (fresh first one found)
      · exact edges.peers.addresses first second one two found also same
  · dsimp only
    intro found
    rw [lookup] at found
    split at found
    · rename_i here
      subst here
      exact ⟨UInt64.not_lt.mp fits, by omega⟩
    · have bound := edges.peers.handles other entry found
      exact ⟨bound.1, by omega⟩

/-- A handler keeps the edges, and never looks for an entry that is not there. -/
def KeepsEdges (handler : Handler Ip Unit) : Prop :=
  ∀ service : Service Ip, service.Edges →
    handler.Ensures service (fun _ after => after.Edges) fun panic _ => panic ≠ .noSuchClient

section

omit [LinearOrder Ip]

theorem KeepsEdges.bind {first second : Handler Ip Unit} (before : KeepsEdges first)
    (after : KeepsEdges second) : KeepsEdges (do first; second) := by
  intro service edges
  rw [ensures_bind]
  exact (before service edges).mono (fun _ later kept => after later kept) fun _ _ other => other

theorem keepsEdges_pure : KeepsEdges (pure () : Handler Ip Unit) := fun _ edges => edges

theorem KeepsEdges.each {Item : Type} {list : List Item} {body : Item → Handler Ip Unit}
    (turn : ∀ item, KeepsEdges (body item)) :
    KeepsEdges (Handler.each list body) :=
  fun _ edges => .each Edges edges fun item _ service kept => turn item service kept

theorem keepsEdges_update {change : Service Ip → Service Ip}
    (manager : ∀ service, (change service).clientManager = service.clientManager)
    (peers : ∀ service, SamePeers service (change service))
    (requests : ∀ service, (change service).requests = service.requests) :
    KeepsEdges (Handler.update change) := by
  intro service edges
  refine edges.of_same (peers service) (fun _ => ?_) ?_ (requests service)
  · rw [manager]
  · rw [manager]
    exact edges.room

theorem keepsEdges_manage {change : ClientManager Ip → ClientManager Ip}
    (edgeOf : ∀ manager handle, (change manager).edgeOf handle = manager.edgeOf handle)
    (next : ∀ manager, (change manager).nextHandle = manager.nextHandle) :
    KeepsEdges (manage change) := by
  intro _ edges
  refine edges.of_same (.of_clients _) (fun _ => edgeOf _ _) ?_ rfl
  rw [next]
  exact edges.room

theorem keepsEdges_modify {change : Client Ip → Client Ip} (handle : ClientHandle)
    (keeps : ∀ client, (change client).edge = client.edge) :
    KeepsEdges (manage (·.modify handle change)) :=
  keepsEdges_manage (fun _ _ => edgeOf_modify_same keeps) fun _ => rfl

end

theorem incomingAt_some (found : incomingAt host service addr = some handle) :
    ∃ incoming, service.incomingConnInfo.lookup handle = some incoming ∧ incoming.addr = addr := by
  have hit : (service.incomingConnInfo.lookup handle).any (·.addr = addr) = true := by
    simpa using find?_some found
  cases there : service.incomingConnInfo.lookup handle with
  | none =>
    rw [there] at hit
    cases hit
  | some incoming =>
    rw [there] at hit
    exact ⟨incoming, rfl, of_decide_eq_true hit⟩

theorem incomingAt_none (missed : incomingAt host service addr = none)
    (found : service.incomingConnInfo.lookup handle = some incoming) : incoming.addr ≠ addr := by
  intro same
  have member : handle ∈ host.orders.incoming.arrange service.incomingConnInfo.keys := by
    rw [IterOrder.mem_arrange, ← AList.mem_keys]
    exact (mem_iff_lookup _ _).mpr ⟨incoming, found⟩
  have other := find?_eq_none.mp missed handle member
  simp [found, same] at other

theorem keepsEdges_removeIncoming (addr : SocketAddr Ip) :
    KeepsEdges (removeIncoming host addr) := by
  intro service edges
  rw [removeIncoming, ensures_bind, ensures_service]
  cases met : incomingAt host service addr with
  | none => exact edges
  | some =>
    rcases incomingAt_some met with ⟨_, there, rfl⟩
    exact edges.leave there rfl rfl (fun _ => lookup_erase _ _ _) rfl rfl

theorem ensures_addIncoming (edges : service.Edges)
    (fresh : ∀ other entry, service.incomingConnInfo.lookup other = some entry → entry.addr ≠ addr)
    :
    (addIncoming addr pos fingerprint).Ensures service (fun _ after => after.Edges)
      fun panic _ => panic ≠ .noSuchClient := by
  rw [addIncoming, ensures_bind, ensures_service]
  rw [ensures_ite]
  refine ⟨fun _ => ?_, fun fits => ?_⟩
  · rw [ensures_panic]
    exact Panic.noConfusion
  · rw [ensures_bind, ensures_request, ensures_update]
    exact edges.enter fresh fits

theorem ensures_updateIncoming (edges : service.Edges) (there : addr ∈ service.incomingConns) :
    (updateIncoming host addr pos fingerprint).Ensures service
      (fun _ after => after.Edges) fun panic _ => panic ≠ .noSuchClient := by
  rw [updateIncoming, ensures_bind, ensures_service]
  cases met : incomingAt host service addr with
  | none =>
    rcases (edges.peers.conns addr).mp there with ⟨handle, incoming, found, same⟩
    exact absurd same (incomingAt_none met found)
  | some handle =>
    rcases incomingAt_some met with ⟨incoming, found, rfl⟩
    rw [ensures_bind, ensures_update]
    generalize written : { service with
      incomingConnInfo := service.incomingConnInfo.adjust handle fun incoming =>
        { incoming with fingerprint, pos } } = changed
    have info : ∀ other, changed.incomingConnInfo.lookup other =
        if other = handle then some { incoming with fingerprint, pos }
        else service.incomingConnInfo.lookup other := by
      intro other
      rw [← written]
      split
      · rename_i same
        subst same
        refine (AList.lookup_adjust_self _ _ _).trans ?_
        rw [found, map_some]
      · rename_i different
        exact AList.lookup_adjust_ne _ _ different
    rw [ensures_ite]
    constructor
    · intro _
      rw [ensures_bind, removeIncoming, ensures_bind, ensures_service]
      cases again : incomingAt host changed incoming.addr with
      | none =>
        refine absurd ?_ (incomingAt_none again ((info handle).trans (if_pos rfl)))
        rfl
      | some other =>
        have same : other = handle := by
          rcases incomingAt_some again with ⟨entry, there, alike⟩
          rw [info] at there
          split at there
          · assumption
          · exact edges.peers.addresses other handle entry incoming there found alike
        subst same
        have left : Edges { changed with
            requests := changed.requests ++ [.destroy other]
            incomingConns := changed.incomingConns.erase incoming.addr
            incomingConnInfo := changed.incomingConnInfo.erase other } := by
          refine edges.leave found ?_ ?_ (fun third => ?_) ?_ ?_
          · rw [← written]
          · rw [← written]
          · refine (lookup_erase _ _ _).trans ?_
            split
            · rfl
            · rename_i different
              rw [info, if_neg different]
          · rw [← written]
          · rw [← written]
        refine ensures_addIncoming left fun third entry there same => ?_
        have still := (left.peers.conns entry.addr).mpr ⟨third, entry, there, rfl⟩
        rw [same] at still
        exact absurd rfl (Finset.mem_erase.mp still).1
    · intro unchanged
      rw [found] at unchanged
      have same : incoming.fingerprint = fingerprint ∧ incoming.pos = pos := by
        simpa using unchanged
      refine edges.of_same ⟨?_, fun _ => ?_, ?_⟩ (fun _ => ?_) ?_ ?_
      · rw [← written]
      · rw [info]
        split
        · rename_i here
          rw [here, found, ← same.1, ← same.2]
        · rfl
      · rw [← written]
      · rw [← written]
      · rw [← written]
        exact edges.room
      · rw [← written]

theorem keepsEdges_enter : KeepsEdges (Handler.enter host addr pos fingerprint) := by
  intro service edges
  rw [Handler.enter, ensures_bind, ensures_service]
  by_cases sharing : service.inputSharing = true
  · by_cases there : addr ∈ service.incomingConns
    · simp only [sharing, there, Bool.not_true, Bool.false_eq_true, if_false, not_true_eq_false]
      exact ensures_updateIncoming edges there
    · simp only [sharing, there, Bool.not_true, Bool.false_eq_true, if_false, not_false_eq_true,
        if_true]
      refine ensures_addIncoming edges fun other entry found same => there ?_
      exact (edges.peers.conns addr).mpr ⟨other, entry, found, same⟩
  · simp only [Bool.not_eq_true] at sharing
    simp only [sharing, Bool.not_false, if_true]
    exact edges

section

omit [LinearOrder Ip]

theorem keepsEdges_deactivateClient (handle : ClientHandle) :
    KeepsEdges (Handler.deactivateClient handle : Handler Ip Unit) := by
  intro _ edges
  rw [ensures_deactivateClient]
  exact edges.deactivated handle

theorem keepsEdges_activateClient (handle : ClientHandle) :
    KeepsEdges (Handler.activateClient handle : Handler Ip Unit) := by
  intro _ edges
  rw [ensures_activateClient]
  exact edges.activated handle

theorem keepsEdges_removeClient (handle : ClientHandle) :
    KeepsEdges (Handler.removeClient handle : Handler Ip Unit) := by
  intro _ edges
  rw [ensures_removeClient]
  exact edges.removed handle

theorem keepsEdges_updatePos (handle : ClientHandle) (pos : Position) :
    KeepsEdges (updatePos handle pos : Handler Ip Unit) := by
  intro service edges
  have kept := edges.moved handle pos
  unfold moved at kept
  rw [updatePos, ensures_bind, ensures_service]
  rw [ensures_bind, ensures_manage]
  by_cases active : (service.clientManager.setPos handle pos).2 = true
  · rw [if_pos active] at kept ⊢
    rw [ensures_bind, ensures_deactivateClient, ensures_activateClient]
    exact kept
  · rw [if_neg active] at kept ⊢
    exact kept

theorem lt_nextHandle_add (room : service.clientManager.nextHandle < enterHandleBegin) :
    service.clientManager.nextHandle + 1 ≤ enterHandleBegin := by
  have one : UInt64.toNat 1 = 1 := rfl
  rw [UInt64.lt_iff_toNat_lt] at room
  rw [UInt64.le_iff_toNat_le, UInt64.toNat_add]
  omega

theorem edgeOf_addClient (room : service.clientManager.nextHandle < enterHandleBegin)
    (other : ClientHandle) :
    (service.clientManager.addClient room).edgeOf other = service.clientManager.edgeOf other := by
  rw [ClientManager.edgeOf, ClientManager.get_addClient]
  split
  · rename_i new
    cases there : service.clientManager.edgeOf other with
    | none => rfl
    | some =>
      have older := lt_of_edgeOf there
      rw [new] at older
      exact absurd older (UInt64.lt_irrefl _)
  · rfl

theorem keepsEdges_addClient : KeepsEdges (addClient : Handler Ip Unit) := by
  intro service edges
  rw [addClient, ensures_bind, ensures_service]
  by_cases room : service.clientManager.nextHandle < enterHandleBegin
  · rw [dif_pos room, ensures_manage]
    exact edges.of_same (.of_clients _) (edgeOf_addClient room) (lt_nextHandle_add room) rfl
  · rw [dif_neg room, ensures_panic]
    exact Panic.noConfusion

end

theorem edge_setFixIps {fixIps : List Ip} (client : Client Ip) :
    (updateIps { client with config := { client.config with fixIps } }).edge =
      client.edge := rfl

theorem edge_setHostname (hostname : Option String) (client : Client Ip) :
    (if client.config.hostname = hostname then client
      else updateIps {
        config := { client.config with hostname }
        state := { client.state with activeAddr := none, dnsIps := [] } }).edge = client.edge := by
  split <;> rfl

omit [LinearOrder Ip] in
theorem edge_setPort (port : UInt16) (client : Client Ip) :
    (if client.config.port = port then client
      else ({
        config := { client.config with port }
        state := { client.state with
          activeAddr := client.state.activeAddr.map fun addr => ⟨addr.ip, port⟩ } } :
        Client Ip)).edge = client.edge := by
  split <;> rfl

theorem keepsEdges_addDiscoveredClient (addresses : List Ip) (port : UInt16) :
    KeepsEdges (Handler.addDiscoveredClient addresses port : Handler Ip Unit) := by
  intro service edges
  rw [Handler.addDiscoveredClient, ensures_bind, ensures_service]
  rw [ensures_ite]
  refine ⟨fun _ => edges, fun _ => ?_⟩
  refine keepsEdges_addClient.bind ?_ service edges
  refine keepsEdges_manage (fun _ _ => ?_) fun _ => rfl
  refine (edgeOf_modify_same (edge_setPort port)).trans ?_
  exact edgeOf_modify_same edge_setFixIps

theorem keepsEdges_saveConfig : KeepsEdges (saveConfig : Handler Ip Unit) :=
  keepsEdges_update (fun _ => rfl) (fun _ => ⟨rfl, fun _ => rfl, rfl⟩) fun _ => rfl

omit [LinearOrder Ip] in
theorem edgeOf_nextHandle :
    service.clientManager.edgeOf service.clientManager.nextHandle = none := by
  cases there : service.clientManager.edgeOf service.clientManager.nextHandle with
  | none => rfl
  | some => exact absurd (lt_of_edgeOf there) (UInt64.lt_irrefl _)

theorem edgeOf_addWithConfig (order : IterOrder Ip)
    (room : service.clientManager.nextHandle < enterHandleBegin)
    (configured : ConfigClient Ip) (other : ClientHandle) :
    (service.clientManager.addWithConfig order room configured).edgeOf other =
      if other = service.clientManager.nextHandle then
        if configured.active then some configured.pos else none
      else service.clientManager.edgeOf other := by
  rw [ClientManager.edgeOf, ClientManager.get_addWithConfig]
  split <;> rfl

theorem keepsEdges_addActive (configured : ConfigClient Ip) :
    KeepsEdges (addActive host configured) := by
  intro service edges
  rw [addActive, ensures_bind, ensures_service]
  rw [ensures_bind, addWithConfig, ensures_bind, ensures_service]
  by_cases room : service.clientManager.nextHandle < enterHandleBegin
  · rw [dif_pos room, ensures_manage, ensures_bind, ensures_service]
    have added := edgeOf_addWithConfig host.orders.ips room configured
    have next : (service.clientManager.addWithConfig host.orders.ips room configured).nextHandle ≤
        enterHandleBegin := by
      rw [nextHandle_addWithConfig]
      exact lt_nextHandle_add room
    generalize service.clientManager.addWithConfig host.orders.ips room configured = manager
      at added next ⊢
    by_cases active : manager.isActive service.clientManager.nextHandle true = true
    · rw [if_pos active, ensures_bind, ensures_manage, ensures_activateClient]
      refine Edges.activated ?_ _
      rw [deactivateClient, if_pos active]
      refine edges.of_same (.of_clients _) (fun other => ?_) next rfl
      refine (edgeOf_setActive false).trans ?_
      split
      · rename_i same
        rw [same, edgeOf_nextHandle]
        rfl
      · rename_i different
        rw [added, if_neg different]
    · rw [if_neg active]
      refine edges.of_same (.of_clients _) (fun other => ?_) next rfl
      by_cases same : other = service.clientManager.nextHandle
      · rw [isActive_true] at active
        rw [same, edgeOf_nextHandle]
        exact not_isSome_iff_eq_none.mp active
      · rw [added, if_neg same]
  · rw [dif_neg room, ensures_panic]
    exact Panic.noConfusion

theorem keepsEdges_handleConfigChange : KeepsEdges (Handler.handleConfigChange host) := by
  intro service edges
  refine (KeepsEdges.each keepsEdges_removeClient).bind ?_ service edges
  refine (KeepsEdges.each keepsEdges_addActive).bind ?_
  exact keepsEdges_update (fun _ => rfl) (fun _ => ⟨rfl, fun _ => rfl, rfl⟩) fun _ => rfl

theorem keepsEdges_setBackend (choices : List String) (name : Option String)
    (set : Config Ip → Option String → Config Ip) :
    KeepsEdges (setBackend choices name set) := by
  unfold setBackend
  split
  · refine KeepsEdges.bind ?_ keepsEdges_saveConfig
    exact keepsEdges_update (fun _ => rfl) (fun _ => ⟨rfl, fun _ => rfl, rfl⟩) fun _ => rfl
  · exact keepsEdges_pure

theorem keepsEdges_handleRequest (request : FrontendRequest Ip) :
    KeepsEdges (handleRequest host request) := by
  have update : ∀ change : Service Ip → Service Ip,
      (∀ service, (change service).clientManager = service.clientManager) →
      (∀ service, SamePeers service (change service)) →
      (∀ service, (change service).requests = service.requests) →
      KeepsEdges (do Handler.update change; saveConfig) :=
    fun _ manager peers requests =>
      (keepsEdges_update manager peers requests).bind keepsEdges_saveConfig
  cases request with
  | activate handle =>
    refine KeepsEdges.bind ?_ keepsEdges_saveConfig
    unfold Handler.setClientActive
    split
    · exact keepsEdges_activateClient handle
    · exact keepsEdges_deactivateClient handle
  | authorizeKey =>
    exact update _ (fun _ => rfl) (fun _ => ⟨rfl, fun _ => rfl, rfl⟩) fun _ => rfl
  | changePort => exact fun _ edges => edges
  | create => exact KeepsEdges.bind keepsEdges_addClient keepsEdges_saveConfig
  | createDiscovered addresses port =>
    exact (keepsEdges_addDiscoveredClient addresses port).bind keepsEdges_saveConfig
  | delete handle => exact (keepsEdges_removeClient handle).bind keepsEdges_saveConfig
  | setInputSharing =>
    exact keepsEdges_update (fun _ => rfl) (fun _ => ⟨rfl, fun _ => rfl, rfl⟩) fun _ => rfl
  | setIndependentPointers | setMultiHop | setHopBypass =>
    exact update _ (fun _ => rfl) (fun _ => ⟨rfl, fun _ => rfl, rfl⟩) fun _ => rfl
  | setCaptureBackend name | setEmulationBackend name => exact keepsEdges_setBackend _ name _
  | updateFixIps handle =>
    refine KeepsEdges.bind ?_ keepsEdges_saveConfig
    exact keepsEdges_modify handle edge_setFixIps
  | updateHostname handle name =>
    exact (keepsEdges_modify handle (edge_setHostname name)).bind keepsEdges_saveConfig
  | updatePort handle port =>
    exact (keepsEdges_modify handle (edge_setPort port)).bind keepsEdges_saveConfig
  | updatePosition handle pos =>
    exact (keepsEdges_updatePos handle pos).bind keepsEdges_saveConfig
  | removeAuthorizedKey =>
    exact update _ (fun _ => rfl) (fun _ => ⟨rfl, fun _ => rfl, rfl⟩) fun _ => rfl
  | updateEnterHook handle => exact keepsEdges_modify handle fun _ => rfl
  | setClipboardText | setClipboardImage | setClipboardFiles =>
    exact update _ (fun _ => rfl) (fun _ => ⟨rfl, fun _ => rfl, rfl⟩) fun _ => rfl
  | setFileReceiveSettings =>
    rw [handleRequest, Handler.setFileReceive]
    split
    · exact keepsEdges_update (fun _ => rfl) (fun _ => ⟨rfl, fun _ => rfl, rfl⟩) fun _ => rfl
    · exact keepsEdges_pure
  | saveConfiguration => exact keepsEdges_saveConfig

theorem keepsEdges_handle (input : ServiceInput Ip) : KeepsEdges (Handler.handle host input) := by
  cases input with
  | request request => exact keepsEdges_handleRequest request
  | portChanged port =>
    cases port with
    | none => exact keepsEdges_pure
    | some =>
      refine KeepsEdges.bind ?_ keepsEdges_saveConfig
      exact keepsEdges_update (fun _ => rfl) (fun _ => ⟨rfl, fun _ => rfl, rfl⟩) fun _ => rfl
  | entered => exact keepsEdges_enter
  | disconnected addr => exact keepsEdges_removeIncoming addr
  | peerAuthenticated handle fingerprint changed =>
    intro service edges
    rw [Handler.handle, ensures_bind, ensures_service]
    by_cases tells : (changed &&
        service.clientManager.peerFingerprint handle ≠ some fingerprint) = true
    · rw [if_pos tells]
      refine KeepsEdges.bind ?_ keepsEdges_saveConfig service edges
      refine keepsEdges_manage (fun manager _ => ?_) fun _ => ?_
      · rw [ClientManager.edgeOf, ClientManager.get_setPeerFingerprint]
        rfl
      · unfold ClientManager.setPeerFingerprint
        split <;> rfl
    · rw [if_neg tells]
      exact edges
  | resolving handle => exact keepsEdges_modify handle fun _ => rfl
  | resolved handle =>
    refine KeepsEdges.bind ?_ ?_
    · exact keepsEdges_modify handle fun _ => rfl
    · exact keepsEdges_modify handle fun _ => rfl
  | configChanged =>
    refine KeepsEdges.bind ?_ keepsEdges_handleConfigChange
    exact keepsEdges_update (fun _ => rfl) (fun _ => ⟨rfl, fun _ => rfl, rfl⟩) fun _ => rfl

/-- Nothing was asked of the capture task so far, and no peer has entered. -/
structure Fresh (service : Service Ip) : Prop where
  requests : service.requests = []
  conns : service.incomingConns = ∅
  info : service.incomingConnInfo = ∅
  triggers : service.nextTriggerHandle = 0
  room : service.clientManager.nextHandle ≤ enterHandleBegin

section

omit [LinearOrder Ip]

theorem Fresh.edges (fresh : service.Fresh)
    (idle : ∀ handle, service.clientManager.edgeOf handle = none) : service.Edges := by
  refine ⟨fun handle other _ there => ?_, ?_, ⟨fun _ => ?_,
    fun handle _ entry _ => ?_, ?_, fun handle _ => ?_⟩, fresh.room⟩
  · rw [idle] at there
    cases there
  · have wants : service.wants = fun _ => none := by
      funext handle
      simp [wants, idle, fresh.info]
    rw [fresh.requests, wants]
    exact covers_nil
  · simp [fresh.conns, fresh.info]
  · simp [fresh.info]
  · rw [fresh.triggers]
    decide
  · simp [fresh.info]

theorem mem_activeClients :
    handle ∈ service.clientManager.activeClients ↔ service.clientManager.edgeOf handle ≠ none := by
  constructor
  · intro member
    rcases mem_map.mp member with ⟨⟨handle, client⟩, active, rfl⟩
    rcases mem_filter.mp active with ⟨there, active⟩
    rw [ClientManager.edgeOf, ClientManager.mem_clientStates.mp there, bind_some,
      Client.edge, if_pos active]
    exact some_ne_none _
  · intro there
    rcases ne_none_iff_exists'.mp there with ⟨_, edge⟩
    rcases bind_eq_some_iff.mp edge with ⟨client, found, active⟩
    refine mem_map.mpr ⟨⟨handle, client⟩, mem_filter.mpr ⟨?_, ?_⟩, rfl⟩
    · exact ClientManager.mem_clientStates.mpr found
    · unfold Client.edge at active
      split at active
      · assumption
      · cases active

theorem ensures_deactivateAll {active : List ClientHandle} (fresh : service.Fresh)
    (among : ∀ handle, service.clientManager.edgeOf handle ≠ none → handle ∈ active) :
    (Handler.each active fun handle =>
        manage fun manager => (manager.deactivateClient handle).1).Ensures service
      (fun _ after => after.Fresh ∧ ∀ handle, after.clientManager.edgeOf handle = none)
      fun _ _ => False := by
  induction active generalizing service with
  | nil =>
    refine ⟨fresh, fun handle => ?_⟩
    by_contra there
    exact absurd (among handle there) not_mem_nil
  | cons first _ ih =>
    rw [Handler.each, ensures_bind, ensures_manage]
    refine ih ⟨fresh.requests, fresh.conns, fresh.info, fresh.triggers, ?_⟩ fun handle => ?_
    · unfold deactivateClient
      split
      · exact fresh.room
      · exact fresh.room
    · intro there
      have before : service.clientManager.edgeOf handle ≠ none ∧ handle ≠ first := by
        unfold deactivateClient at there
        split at there
        · rw [edgeOf_setActive] at there
          split at there
          · exact absurd rfl there
          · rename_i different
            exact ⟨there, different⟩
        · rename_i inactive
          refine ⟨there, fun same => ?_⟩
          rw [isActive_true, ← same] at inactive
          exact there (not_isSome_iff_eq_none.mp inactive)
      exact (mem_cons.mp (among handle before.1)).resolve_left before.2

end

theorem ensures_addAll_fresh (config : Config Ip) :
    (Handler.each config.clients (addWithConfig host)).Ensures
      (.new host config) (fun _ after => after.Fresh) fun _ _ => True := by
  refine .each Fresh ⟨rfl, rfl, rfl, rfl, UInt64.zero_le⟩ fun _ _ service fresh => ?_
  rw [addWithConfig, ensures_bind, ensures_service]
  by_cases room : service.clientManager.nextHandle < enterHandleBegin
  · rw [dif_pos room, ensures_manage]
    refine ⟨fresh.requests, fresh.conns, fresh.info, fresh.triggers, ?_⟩
    rw [nextHandle_addWithConfig]
    exact lt_nextHandle_add room
  · rw [dif_neg room, ensures_panic]
    trivial

theorem edges_of_starts {config : Config Ip} (started : Starts host config service) :
    service.Edges := by
  have launched : (launch host config.clients).Ensures (.new host config)
      (fun _ after => after.Edges) fun _ _ => True := by
    rw [launch, ensures_bind]
    refine (ensures_addAll_fresh config).mono (fun _ _ fresh => ?_) fun _ _ _ => trivial
    rw [ensures_bind, ensures_service]
    rw [ensures_bind]
    refine (ensures_deactivateAll fresh fun _ there => ?_).mono (fun _ idle stopped => ?_)
      fun _ _ impossible => impossible.elim
    · exact mem_activeClients.mpr there
    · refine (KeepsEdges.each keepsEdges_activateClient idle ?_).mono (fun _ _ kept => kept)
        fun _ _ _ => trivial
      exact stopped.1.edges stopped.2
  unfold Handler.Ensures at launched
  rw [started] at launched
  exact launched

/-- In every state of the running service no two active clients are at one edge, the captures are
those of the active clients and of the peers that have entered, each at the position it has now,
and no entry of a peer is looked up that is not there. -/
theorem edges_of_run {config : Config Ip} {history : List (Service Ip)}
    (started : Starts host config service) (run : Run (running host service) history) :
    ∀ state ∈ history, state.Edges ∧
      ∀ input, (Handler.handle host input state).1 ≠ .error .noSuchClient := by
  have kept : ∀ state ∈ history, state.Edges := by
    refine run.invariant ⟨edges_of_starts started, fun state input edges handled => ?_⟩
    have keeps : KeepsEdges (Handler.handle host input) := keepsEdges_handle input
    replace keeps := keeps state edges
    unfold StateMachine.Handler.Ensures at keeps
    change (Handler.handle host input state).1 = .ok () at handled
    change ((Handler.handle host input state).2).Edges
    rcases ended : Handler.handle host input state with ⟨error | value, after⟩
    · rw [ended] at handled
      cases handled
    · rw [ended] at keeps
      exact keeps
  intro state member
  refine ⟨kept state member, fun input panics => ?_⟩
  have keeps : KeepsEdges (Handler.handle host input) := keepsEdges_handle input
  replace keeps := keeps state (kept state member)
  unfold StateMachine.Handler.Ensures at keeps
  rcases ended : Handler.handle host input state with ⟨error | _, _⟩
  · rw [ended] at keeps panics
    exact keeps (Except.error.inj panics)
  · rw [ended] at panics
    cases panics

end Service

namespace Sample

def host : Host ℕ where
  orders := ⟨.asStored ℕ, .asStored ClientHandle⟩
  captureBackends := ["x11"]
  emulationBackends := ["x11"]
  downloads := .ofText "/home/alex/Downloads"

def config : Config ℕ where
  overrides := ⟨none, none, none⟩
  configToml := some { ConfigToml.default ℕ with
    clients := some [⟨some "desktop", none, none, none, some .right, some true, none, none⟩] }

def service : Service ℕ := (launch host config.clients (.new host config)).2

theorem started : Starts host config service := by
  have fine : (launch host config.clients (.new host config)).1.isOk = true := by
    decide +kernel
  generalize launch host config.clients (.new host config) = launched at fine ⊢
  rcases launched with ⟨_ | _, _⟩
  · cases fine
  · rfl

def peer : SocketAddr ℕ := ⟨7, 4242⟩

def inputs : List (ServiceInput ℕ) :=
  [.request (.updatePosition 0 .left), .entered peer .right "fp", .entered peer .top "fp",
    .disconnected peer]

theorem enabled_of_isOk {state : Service ℕ} {input : ServiceInput ℕ}
    (fine : (Handler.handle host input state).1.isOk = true) :
    (running host service).enabled state input := by
  change (Handler.handle host input state).1 = .ok ()
  cases ended : (Handler.handle host input state).1 with
  | error =>
    rw [ended] at fine
    cases fine
  | ok => rfl

end Sample

open Sample in
/-- The captures of a client that was moved and of a peer that came and went. -/
theorem Service.edges_of_run_moved :
    ((running Sample.host Sample.service).after Sample.service inputs).Edges := by
  have passed : (running Sample.host Sample.service).passes id
      (fun state input => (Handler.handle Sample.host input state).1.isOk) Sample.service
      inputs = true := by
    decide +kernel
  have follows := Machine.Follows.of_passes (fun _ _ fine => enabled_of_isOk fine) passed
  rcases Run.of_follows follows with ⟨_, run⟩
  exact (edges_of_run Sample.started run _ (.head _)).1

end Syntra.Clients
