import Syntra.History.Assembly
import Syntra.History.Reconciler

/-!
# What an event does to a global clear

Most handlers leave the coordinator alone and say nothing that belongs to a clear. The others are
listed in `ClearStep`, one case for each branch that a message of the protocol, the frontend,
a lost route or the deadline can take.
-/

namespace Syntra.History

open ByteFormat Proto Store Effect ClearCoordinator List Option
open Service (Peer ClientHandle)
open Tables

def Event.heard {Address : Type} [DecidableEq Address] (service : Reconciler Address) :
    Event Address → Option (String × ProtoEvent)
  | .clipboardProtocol addr event =>
    (service.authenticatedPeerFingerprints.lookup addr).map (·, event)
  | .clipboard _ fingerprint event => some (fingerprint, event)
  | _ => none

def Event.begins {Address : Type} [DecidableEq Address] (host : Host)
    (around : Surroundings Address) (service : Reconciler Address) :
    Event Address → Option (ClearCoordinator String)
  | .clearGlobalHistory => (service.newClear host around).toOption
  | _ => none

def Effect.OfClear {Address : Type} : Effect Address → Prop
  | .sent _ (.historyClearBoundary ..) => True
  | .sent _ (.historyClearApply ..) => True
  | .sent _ (.historyClearAck ..) => True
  | .notified (.historyClearResult ..) => True
  | .cleared .. => True
  | .snapshot .. => True
  | _ => False

namespace Reconciler

variable {Address : Type}

/-- A step that has nothing to do with a clear. -/
structure Bystander (before : Reconciler Address)
    (outcome : Reconciler Address × List (Effect Address)) : Prop where
  kept : outcome.1.historyClear = before.historyClear
  others : ∀ effect ∈ outcome.2, ¬effect.OfClear

variable {before : Reconciler Address} {peer : Peer Address} {entries : List (String × UInt64)}
  {operationId : OperationId} {clear : ClearCoordinator String}

variable {after : Reconciler Address} {event : ProtoEvent} {identity : String} {affected : UInt64}

theorem Bystander.of_nil (kept : after.historyClear = before.historyClear) :
    Bystander before (after, []) :=
  ⟨kept, by simp⟩

theorem Bystander.of_sent {requestId offset : UInt64}
    (kept : after.historyClear = before.historyClear) :
    Bystander before (after, [.sent peer (.historySyncRequest requestId offset)]) :=
  ⟨kept, by simp [OfClear]⟩

variable [DecidableEq Address] {host : Host} {around : Surroundings Address}
  {service : Reconciler Address}

omit [DecidableEq Address] in
theorem not_ofClear_of_recordEvents {codec : HistoryCodec} {requestId recordId : UInt64}
    {record : ImportedHistoryEvent} {events : List ProtoEvent}
    (made : recordEvents codec requestId recordId record = .ok events) (sent : event ∈ events)
    (peer : Peer Address) : ¬(Effect.sent peer event).OfClear := by
  rcases recordEvents_eq_ok.mp made with ⟨_, -, rfl⟩
  rcases mem_datagrams.mp sent with rfl | ⟨index, -, rfl⟩ <;> simp [OfClear]

variable (kept : service.historyClear = before.historyClear)
include kept

omit [DecidableEq Address] in
theorem bystander_sendHistoryPage (peer : Peer Address) (requestId offset : UInt64) :
    Bystander before (service, service.sendHistoryPage host peer requestId offset) := by
  refine ⟨kept, ?_⟩
  intro _ member
  simp only [sendHistoryPage] at member
  split at member
  · rename_i records nextOffset exported
    simp only [List.mem_append, List.mem_map, List.mem_singleton] at member
    rcases member with ⟨_, sent, rfl⟩ | rfl
    · simp only [pageEvents, List.mem_flatMap] at sent
      rcases sent with ⟨⟨_, _⟩, _, sent⟩
      split at sent
      · rename_i events made
        exact not_ofClear_of_recordEvents made sent peer
      · cases sent
    · simp [OfClear]
  · cases member

omit kept in
theorem bystander_broadcastHistoryRecord (record : ImportedHistoryEvent) :
    Bystander service (service.broadcastHistoryRecord host around record) := by
  unfold broadcastHistoryRecord
  dsimp only
  split
  · exact .of_nil rfl
  · rename_i events made
    refine ⟨rfl, ?_⟩
    intro _ member
    simp only [List.mem_flatMap, List.mem_append, List.mem_map, List.mem_singleton] at member
    rcases member with ⟨entry, _, ⟨_, sent, rfl⟩ | rfl⟩
    · exact not_ofClear_of_recordEvents made sent entry.2
    · simp [OfClear]

theorem bystander_receivePageEnd (peer : Peer Address) (requestId : UInt64)
    (nextOffset : Option UInt64) :
    Bystander before (service.receivePageEnd peer requestId nextOffset) := by
  unfold receivePageEnd
  dsimp only
  split
  · exact .of_nil kept
  split
  · exact .of_nil kept
  split
  · split
    · exact ⟨kept, by simp [OfClear]⟩
    · exact .of_sent kept
  · split
    · exact .of_sent kept
    · exact .of_nil kept

theorem bystander_receiveStart (peer : Peer Address) (requestId recordId : UInt64)
    (totalLen chunks : UInt32) :
    Bystander before (service.receiveStart around peer requestId recordId totalLen chunks, []) := by
  apply Bystander.of_nil
  unfold receiveStart
  split <;> exact kept

theorem bystander_receiveChunk (peer : Peer Address) (requestId recordId : UInt64)
    (index : UInt32) (data : Bytes) :
    Bystander before (service.receiveChunk host around peer requestId recordId index data) := by
  unfold receiveChunk
  dsimp only
  split
  · exact ⟨kept, by simp [OfClear]⟩
  · exact .of_nil kept

omit kept

/-- What an event does to the clear `was` that a device coordinates. The event may bring a message
or start the clear `begun`. -/
inductive ClearStep (around : Surroundings Address) (was : Option (ClearCoordinator String))
    (heard : Option (String × ProtoEvent)) (begun : Option (ClearCoordinator String)) :
    Reconciler Address × List (Effect Address) → Prop
  | bystander {service : Reconciler Address} {outcome : Reconciler Address × List (Effect Address)}
      (same : service.historyClear = was) (bystander : Bystander service outcome) :
      ClearStep around was heard begun outcome
  | answers {after : Reconciler Address} (kept : after.historyClear = was) (peer : Peer Address)
      (operationId : OperationId) (boundary : ClearBoundary) :
      ClearStep around was heard begun (after, [.snapshot operationId boundary,
        .sent peer (.historyClearBoundary operationId (boundaryToWire boundary))])
  | refuses {after : Reconciler Address} (kept : after.historyClear = was) (peer : Peer Address)
      (operationId : OperationId) (text : String) :
      ClearStep around was heard begun
        (after, [.sent peer (.historyClearAck operationId 0 (some text))])
  | applies {after : Reconciler Address} (kept : after.historyClear = was) {source : String}
      {peer : Peer Address} {operationId : OperationId} {entries : List (String × UInt64)}
      (asked : heard = some (source, .historyClearApply operationId entries))
      (identified : after.identityOf peer = some source) (affected : UInt64) :
      ClearStep around was heard begun
        (after, [.cleared (hexOperation operationId) (boundaryFromWire entries),
          .sent peer (.historyClearAck operationId affected none)])
  | clearsAlone {after : Reconciler Address} (kept : after.historyClear = was)
      {clear : ClearCoordinator String} (new : begun = some clear)
      (alone : clear.participants = ∅) (affected : UInt64) :
      ClearStep around was heard begun
        (after, [.snapshot clear.operationId clear.boundary,
          .cleared (hexOperation clear.operationId) clear.boundary,
          .notified (.historyClearResult (hexOperation clear.operationId) affected 0 none)])
  | failsAlone {after : Reconciler Address} (kept : after.historyClear = was)
      (clear : ClearCoordinator String) (text : String) :
      ClearStep around was heard begun
        (after, [.snapshot clear.operationId clear.boundary,
          .notified (.historyClearResult (hexOperation clear.operationId) 0 0 (some text))])
  | starts {after : Reconciler Address} {clear : ClearCoordinator String}
      (new : begun = some clear) (current : after.historyClear = some clear)
      {effects : List (Effect Address)} (others : ∀ effect ∈ effects, ¬effect.OfClear) :
      ClearStep around was heard begun
        (after, .snapshot clear.operationId clear.boundary :: effects)
  | gathers {after : Reconciler Address} {clear : ClearCoordinator String} {identity : String}
      {entries : List (String × UInt64)} (current : was = some clear)
      (said : heard = some (identity, .historyClearBoundary clear.operationId entries))
      (later : after.historyClear =
        some (clear.addBoundary identity (boundaryFromWire entries)).1) :
      ClearStep around was heard begun (after, [])
  | decides {after : Reconciler Address} {clear : ClearCoordinator String} {identity : String}
      {entries : List (String × UInt64)} (current : was = some clear)
      (said : heard = some (identity, .historyClearBoundary clear.operationId entries))
      {all : ClearCoordinator String}
      (ready : clear.addBoundary identity (boundaryFromWire entries) = (all, true))
      {affected : ℕ}
      (later : after.historyClear = some (all.beginApply around.now all.participants affected))
      {effects : List (Effect Address)}
      (sends : ∀ effect ∈ effects, ∃ peer, effect =
        .sent peer (.historyClearApply all.operationId (boundaryToWire all.boundary))) :
      ClearStep around was heard begun
        (after, .cleared (hexOperation all.operationId) all.boundary :: effects)
  | givesUp {after : Reconciler Address} (gone : after.historyClear = none)
      (operation : String) (affected : UInt64) (acknowledged : UInt32) (text : String) :
      ClearStep around was heard begun
        (after, [.notified (.historyClearResult operation affected acknowledged (some text))])
  | counts {after : Reconciler Address} {clear : ClearCoordinator String} {identity : String}
      {affected : UInt64} {error : Option String} (current : was = some clear)
      (said : heard = some (identity, .historyClearAck clear.operationId affected error))
      (applying : clear.applying = true)
      (later : after.historyClear = some (clear.addAck identity affected error).1) :
      ClearStep around was heard begun (after, [])
  | finishes {after : Reconciler Address} {clear : ClearCoordinator String} {identity : String}
      {affected : UInt64} {error : Option String} (current : was = some clear)
      (said : heard = some (identity, .historyClearAck clear.operationId affected error))
      (applying : clear.applying = true) {last : ClearCoordinator String}
      (done : clear.addAck identity affected error = (last, true))
      (gone : after.historyClear = none) (total : UInt64) (acknowledged : UInt32) :
      ClearStep around was heard begun
        (after, [.notified (.historyClearResult (hexOperation clear.operationId) total acknowledged
          (if last.errors = [] then none else some ("; ".intercalate last.errors)))])
  | loses {after : Reconciler Address} {clear : ClearCoordinator String}
      (current : was = some clear) (identity : String)
      (later : after.historyClear = some (clear.peerLost identity)) :
      ClearStep around was heard begun (after, [])
  | repeats {after : Reconciler Address} {clear : ClearCoordinator String}
      (current : was = some clear) (later : after.historyClear = some clear) {identity : String}
      (awaited : identity ∈ clear.awaitingAcks) (peer : Peer Address) :
      ClearStep around was heard begun (after,
        [.sent peer (.historyClearApply clear.operationId (boundaryToWire clear.boundary))])

variable {was : Option (ClearCoordinator String)} {heard : Option (String × ProtoEvent)}
  {begun : Option (ClearCoordinator String)}

variable (same : service.historyClear = was)
include same

theorem clearStep_answerBoundaryRequest (peer : Peer Address) (operationId : OperationId) :
    ClearStep around was heard begun
      (service, service.answerBoundaryRequest host peer operationId) := by
  unfold answerBoundaryRequest
  split
  · exact .answers same peer operationId _
  · exact .refuses same peer operationId _

theorem clearStep_receiveApply {source : String}
    (identified : service.identityOf peer = some source)
    (asked : heard = some (source, .historyClearApply operationId entries)) :
    ClearStep around was heard begun (service.receiveApply host peer operationId entries) := by
  simp only [receiveApply, applyClear]
  cases service.history.clearUnpinnedThrough host.env (hexOperation operationId)
      (boundaryFromWire entries) with
  | ok =>
    refine .applies ?_ asked ?_ _
    · exact same
    · exact identified
  | error => exact .refuses same peer operationId _

omit same in
theorem clearStep_applyEverywhere {all : ClearCoordinator String} (current : was = some clear)
    (said : heard = some (identity, .historyClearBoundary clear.operationId entries))
    (ready : clear.addBoundary identity (boundaryFromWire entries) = (all, true)) :
    ClearStep around was heard begun (service.applyEverywhere host around all) := by
  simp only [applyEverywhere, applyClear]
  cases service.history.clearUnpinnedThrough host.env (hexOperation all.operationId)
      all.boundary with
  | ok =>
    refine .decides current said ready rfl ?_
    intro _ member
    simp only [mem_filterMap, ite_none_right_eq_some, some.injEq] at member
    rcases member with ⟨entry, -, -, rfl⟩
    exact ⟨entry.2, rfl⟩
  | error => exact .givesUp rfl _ _ _ _

theorem clearStep_receiveBoundary
    (said : heard = some (identity, .historyClearBoundary operationId entries)) :
    ClearStep around was heard begun
      (service.receiveBoundary host around identity operationId entries) := by
  unfold receiveBoundary
  split
  · exact .bystander same (.of_nil rfl)
  rename_i clear current
  rw [current] at same
  split
  · rename_i equal
    subst equal
    cases added : clear.addBoundary identity (boundaryFromWire entries) with
    | mk _ ready =>
      cases ready with
      | true => exact clearStep_applyEverywhere same.symm said added
      | false =>
        apply ClearStep.gathers same.symm said
        simp [added]
  · exact .bystander (current.trans same) (.of_nil rfl)

theorem clearStep_receiveAck {error : Option String}
    (said : heard = some (identity, .historyClearAck operationId affected error)) :
    ClearStep around was heard begun (service.receiveAck identity operationId affected error) := by
  unfold receiveAck
  split
  · exact .bystander same (.of_nil rfl)
  rename_i clear current
  rw [current] at same
  split
  · rename_i matching
    rcases matching with ⟨rfl, applying⟩
    cases added : clear.addAck identity affected error with
    | mk _ done =>
      cases done with
      | true => exact .finishes same.symm said applying added rfl _ _
      | false =>
        apply ClearStep.counts same.symm said applying
        simp [added]
  · exact .bystander (current.trans same) (.of_nil rfl)

theorem clearStep_expireClear : ClearStep around was heard begun (service.expireClear around) := by
  unfold expireClear
  split
  · exact .bystander same (.of_nil rfl)
  split
  · exact .givesUp rfl _ _ _ _
  · exact .bystander same (.of_nil rfl)

theorem clearStep_historyPeerLost (peer : Peer Address) :
    ClearStep around was heard begun (service.historyPeerLost around peer) := by
  have kept : (({ service with
      historyConnectedPeers := service.historyConnectedPeers.erase peer
      historyReassembler := service.historyReassembler.peerLost peer
      historySyncProgress := service.historySyncProgress.erase peer }).forgetRoute
        peer).historyClear = was := by
    cases peer <;> exact same
  unfold historyPeerLost
  dsimp only
  split
  · rename_i identity clear identified current
    have now : was = some clear := kept.symm.trans current
    split
    · rename_i route found
      simp only [retryClear]
      split
      · exact .bystander kept ⟨rfl, by simp [OfClear]⟩
      · split
        · rename_i awaited
          exact .repeats now current awaited route
        · exact .bystander kept (.of_nil rfl)
    · exact .loses now _ rfl
  · exact .bystander kept (.of_nil rfl)

theorem clearStep_startGlobalHistoryClear (new : begun = (service.newClear host around).toOption) :
    ClearStep around was heard begun (service.startGlobalHistoryClear host around) := by
  unfold startGlobalHistoryClear
  cases made : service.newClear host around with
  | error => exact .bystander same ⟨rfl, by simp [OfClear]⟩
  | ok clear =>
    have new : begun = some clear := by simpa [made, Except.toOption] using new
    dsimp only
    split
    · rename_i alone
      simp only [finishLocalOnlyClear, applyClear]
      cases service.history.clearUnpinnedThrough host.env (hexOperation clear.operationId)
          clear.boundary with
      | ok =>
        refine .clearsAlone ?_ new alone _
        exact same
      | error =>
        refine .failsAlone ?_ clear _
        exact same
    · refine .starts new rfl ?_
      intro _ member
      simp only [List.mem_map] at member
      rcases member with ⟨_, -, rfl⟩
      simp [OfClear]

theorem clearStep_handlePeerProtocol (said : heard = (service.identityOf peer).map (·, event)) :
    ClearStep around was heard begun (service.handlePeerProtocol host around peer event) := by
  unfold handlePeerProtocol
  split
  · exact .bystander same (.of_nil rfl)
  rename_i identity identified
  rw [identified, map_some] at said
  split
  · exact .bystander same (bystander_sendHistoryPage rfl _ _ _)
  · exact .bystander same (bystander_receiveStart rfl _ _ _ _ _)
  · exact .bystander same (bystander_receiveChunk rfl _ _ _ _ _)
  · exact .bystander same (bystander_receivePageEnd rfl _ _ _)
  · exact clearStep_answerBoundaryRequest same _ _
  · exact clearStep_receiveBoundary same said
  · exact clearStep_receiveApply same identified said
  · exact clearStep_receiveAck same said
  · exact .bystander same (.of_nil rfl)

omit same

omit [DecidableEq Address] in
theorem recordEvent_historyClear (now : Except HistoryError ℤ) (content : HistoryContent) :
    (service.recordEvent host around now content).1.historyClear = service.historyClear := by
  unfold recordEvent
  split
  · rfl
  dsimp only
  split <;> rfl

theorem clearStep_handle (host : Host) (around : Surroundings Address)
    (service : Reconciler Address) (event : Event Address) :
    ClearStep around service.historyClear (event.heard service) (event.begins host around service)
      (service.handle host around event) := by
  cases event with
  | connected => exact .bystander rfl (.of_sent rfl)
  | disconnected => exact clearStep_historyPeerLost rfl _
  | clipboardProtocol => exact clearStep_handlePeerProtocol rfl rfl
  | clipboard handle fingerprint =>
    have identified : ({ service with
        authenticatedCaptureFingerprints :=
          service.authenticatedCaptureFingerprints.insert handle fingerprint
        }).identityOf (.capture handle) = some fingerprint := AList.lookup_insert _
    apply clearStep_handlePeerProtocol
    · rfl
    · rw [identified]
      rfl
  | peerAuthenticated => exact .bystander rfl (.of_nil rfl)
  | peerLost => exact clearStep_historyPeerLost rfl _
  | peerStateChanged =>
    unfold Reconciler.handle
    dsimp only
    split
    · split
      · exact .bystander rfl (.of_nil rfl)
      · exact .bystander rfl (.of_sent rfl)
    · exact clearStep_historyPeerLost rfl _
  | removeClient => exact clearStep_historyPeerLost rfl _
  | requestProfile | profileTick => exact .bystander rfl (.of_nil rfl)
  | recordLocalHistory now content =>
    have recorded : (service.recordEvent host around now content).1.historyClear = _ :=
      recordEvent_historyClear now content
    unfold Reconciler.handle
    dsimp only
    split
    · rename_i after record found
      rw [found] at recorded
      exact .bystander recorded (bystander_broadcastHistoryRecord record)
    · rename_i after error found
      rw [found] at recorded
      exact .bystander rfl (.of_nil recorded)
  | setHistoryPinned =>
    apply ClearStep.bystander rfl
    apply Bystander.of_nil
    unfold setPinned
    split
    · split <;> rfl
    · rfl
  | clearGlobalHistory => exact clearStep_startGlobalHistoryClear rfl rfl
  | clearDeadline => exact clearStep_expireClear rfl

variable {outcome : Reconciler Address × List (Effect Address)}

variable (step : ClearStep around was heard begun outcome)
include step

theorem ClearStep.acknowledged
    (said : .sent peer (.historyClearAck operationId affected none) ∈ outcome.2) :
    ∃ source entries, heard = some (source, .historyClearApply operationId entries) ∧
      outcome.1.identityOf peer = some source ∧
      .cleared (hexOperation operationId) (boundaryFromWire entries) ∈ outcome.2 := by
  cases step with
  | bystander _ bystander => exact absurd trivial (bystander.others _ said)
  | applies _ asked identified =>
    simp only [mem_cons, reduceCtorEq, sent.injEq, ProtoEvent.historyClearAck.injEq,
      not_mem_nil, or_false, false_or] at said
    rcases said with ⟨rfl, rfl, -⟩
    exact ⟨_, _, asked, identified, .head _⟩
  | starts _ _ others =>
    rcases mem_cons.mp said with same | said
    · cases same
    · exact absurd trivial (others _ said)
  | decides _ _ _ _ sends =>
    rcases mem_cons.mp said with same | said
    · cases same
    · rcases sends _ said with ⟨_, same⟩
      cases same
  | _ => simp at said

theorem ClearStep.reported
    (said : .sent peer (.historyClearBoundary operationId entries) ∈ outcome.2) :
    ∃ boundary, entries = boundaryToWire boundary ∧ .snapshot operationId boundary ∈ outcome.2 := by
  cases step with
  | bystander _ bystander => exact absurd trivial (bystander.others _ said)
  | answers _ _ _ boundary =>
    simp only [mem_cons, reduceCtorEq, sent.injEq,
      ProtoEvent.historyClearBoundary.injEq, not_mem_nil, or_false, false_or] at said
    rcases said with ⟨rfl, rfl, rfl⟩
    exact ⟨boundary, rfl, .head _⟩
  | starts _ _ others =>
    rcases mem_cons.mp said with same | said
    · cases same
    · exact absurd trivial (others _ said)
  | decides _ _ _ _ sends =>
    rcases mem_cons.mp said with same | said
    · cases same
    · rcases sends _ said with ⟨_, same⟩
      cases same
  | _ => simp at said

theorem ClearStep.ordered (said : .sent peer (.historyClearApply operationId entries) ∈ outcome.2) :
    ∃ clear, outcome.1.historyClear = some clear ∧ clear.operationId = operationId ∧
      entries = boundaryToWire clear.boundary ∧
      (clear.applying = true ∨ was = some clear ∧ clear.awaitingAcks ≠ ∅) := by
  cases step with
  | bystander _ bystander => exact absurd trivial (bystander.others _ said)
  | starts _ _ others =>
    rcases mem_cons.mp said with same | said
    · cases same
    · exact absurd trivial (others _ said)
  | decides _ _ _ later sends =>
    rcases mem_cons.mp said with same | said
    · cases same
    · rcases sends _ said with ⟨_, same⟩
      cases same
      exact ⟨_, later, rfl, rfl, .inl rfl⟩
  | repeats current later awaited =>
    simp only [mem_singleton, sent.injEq, ProtoEvent.historyClearApply.injEq] at said
    rcases said with ⟨rfl, rfl, rfl⟩
    exact ⟨_, later, rfl, rfl, .inr ⟨current, Finset.ne_empty_of_mem awaited⟩⟩
  | _ => simp at said

theorem ClearStep.succeeded {operation : String} {total : UInt64} {count : UInt32}
    (said : .notified (.historyClearResult operation total count none) ∈ outcome.2) :
    (∃ clear, begun = some clear ∧ operation = hexOperation clear.operationId ∧
      clear.participants = ∅ ∧ .cleared operation clear.boundary ∈ outcome.2) ∨
    ∃ clear identity affected error last, was = some clear ∧
      operation = hexOperation clear.operationId ∧
      heard = some (identity, .historyClearAck clear.operationId affected error) ∧
      clear.applying = true ∧ clear.addAck identity affected error = (last, true) ∧
      last.errors = [] := by
  cases step with
  | bystander _ bystander => exact absurd trivial (bystander.others _ said)
  | clearsAlone _ new alone =>
    simp only [mem_cons, reduceCtorEq, notified.injEq,
      FrontendEvent.historyClearResult.injEq, not_mem_nil, or_false, false_or] at said
    rcases said with ⟨rfl, -⟩
    exact .inl ⟨_, new, rfl, alone, by simp⟩
  | starts _ _ others =>
    rcases mem_cons.mp said with same | said
    · cases same
    · exact absurd trivial (others _ said)
  | decides _ _ _ _ sends =>
    rcases mem_cons.mp said with same | said
    · cases same
    · rcases sends _ said with ⟨_, same⟩
      cases same
  | @finishes after clear identity affected error current heard applying last done gone total
    acknowledged =>
    simp only [mem_singleton, notified.injEq, FrontendEvent.historyClearResult.injEq] at said
    rcases said with ⟨rfl, -, -, clean⟩
    have clean : last.errors = [] := by
      by_contra some
      rw [if_neg some] at clean
      cases clean
    exact .inr ⟨clear, identity, affected, error, last, current, rfl, heard, applying, done, clean⟩
  | _ => simp at said

theorem ClearStep.evolves (later : outcome.1.historyClear = some clear) :
    was = some clear ∨ begun = some clear ∨
      ∃ earlier, was = some earlier ∧ clear.operationId = earlier.operationId ∧
        (earlier.awaitingBoundaries = ∅ → earlier.applying = true →
          clear.applying = true ∧ clear.boundary = earlier.boundary) := by
  cases step with
  | bystander same bystander => exact .inl (same.symm.trans (bystander.kept.symm.trans later))
  | answers kept | refuses kept | applies kept | clearsAlone kept | failsAlone kept =>
    exact .inl (kept.symm.trans later)
  | starts new current => exact .inr (.inl (new.trans (current.symm.trans later)))
  | @gathers after earlier identity entries current said now =>
    cases some.inj (now.symm.trans later)
    refine .inr (.inr ⟨earlier, current, ?_, ?_⟩)
    · unfold addBoundary
      split <;> rfl
    · intro all applying
      simp [addBoundary, all, applying]
  | @decides after earlier identity entries current said all ready affected now effects sends =>
    cases some.inj (now.symm.trans later)
    rcases addBoundary_ready ready with ⟨awaited, -, same⟩
    refine .inr (.inr ⟨earlier, current, same, ?_⟩)
    intro none
    rw [none] at awaited
    cases awaited
  | givesUp gone => cases gone.symm.trans later
  | @counts after earlier identity affected error current said applying now =>
    cases some.inj (now.symm.trans later)
    refine .inr (.inr ⟨earlier, current, ?_⟩)
    unfold addAck
    split <;> exact ⟨rfl, fun _ applying => ⟨applying, rfl⟩⟩
  | finishes _ _ _ _ gone => cases gone.symm.trans later
  | @loses after earlier current identity now =>
    cases some.inj (now.symm.trans later)
    refine .inr (.inr ⟨earlier, current, ?_⟩)
    unfold peerLost
    split
    · exact ⟨rfl, fun _ applying => ⟨applying, rfl⟩⟩
    · split <;> exact ⟨rfl, fun _ applying => ⟨applying, rfl⟩⟩
  | repeats current now => exact .inl (current.trans (now.symm.trans later))

omit step

theorem snapshot_of_begins {event : Event Address}
    (new : event.begins host around service = some clear) :
    .snapshot clear.operationId clear.boundary ∈ (service.handle host around event).2 := by
  cases event with
  | clearGlobalHistory =>
    change (service.newClear host around).toOption = some clear at new
    cases made : service.newClear host around with
    | error =>
      rw [made] at new
      cases new
    | ok =>
      rw [made] at new
      cases new
      rw [Reconciler.handle, startGlobalHistoryClear, made]
      dsimp only
      split <;> exact .head _
  | _ => cases new

end Reconciler

end Syntra.History
