import Syntra.History.Assembly
import Syntra.History.Reconciler
import Syntra.Store.Rows

/-!
# Pages of records

A page is asked for, its datagrams arrive in any order, more than once or not at all, and the end of
the page closes it. The end is taken as that of a complete page when no record of it is pending. Of
the records whose start was accepted none is missing then, and of the others nothing is known.
-/

namespace Syntra.History

open ByteFormat Proto Store UInt64 Reconciler List HistoryStore Reassembler Option
open Service (Peer ClientHandle)
open StateMachine Tables
open Reassembler (chunk_own expire lookup_chunk lookup_start retain start_own)

namespace Reconciler

variable {Address : Type} {before after service : Reconciler Address} {host : Host}
  {around : Surroundings Address} {peer : Peer Address}

def SamePages (before after : Reconciler Address) : Prop :=
  after.historyReassembler = before.historyReassembler ∧
    after.historySyncProgress = before.historySyncProgress

theorem samePages_applyClear (host : Host) (service : Reconciler Address) (operationId : String)
    (boundary : ClearBoundary) :
    SamePages service (service.applyClear host operationId boundary).1 := by
  unfold applyClear
  split <;> exact ⟨rfl, rfl⟩

theorem samePages_finishLocalOnlyClear (host : Host) (service : Reconciler Address)
    (clear : ClearCoordinator String) :
    SamePages service (service.finishLocalOnlyClear host clear).1 := by
  have same := samePages_applyClear host service (hexOperation clear.operationId) clear.boundary
  unfold finishLocalOnlyClear
  dsimp only
  split <;> simp_all

theorem samePages_receiveApply (operationId : OperationId) (entries : List (String × UInt64)) :
    SamePages service (service.receiveApply host peer operationId entries).1 := by
  have same := samePages_applyClear host service (hexOperation operationId)
    (boundaryFromWire entries)
  unfold receiveApply
  dsimp only
  split <;> simp_all

theorem samePages_receiveAck (identity : String) (operationId : OperationId) (affected : UInt64)
    (error : Option String) :
    SamePages service (service.receiveAck identity operationId affected error).1 := by
  unfold receiveAck
  split
  · exact ⟨rfl, rfl⟩
  split
  · dsimp only
    split <;> exact ⟨rfl, rfl⟩
  · exact ⟨rfl, rfl⟩

theorem samePages_expireClear : SamePages service (service.expireClear around).1 := by
  unfold expireClear
  split
  · exact ⟨rfl, rfl⟩
  split <;> exact ⟨rfl, rfl⟩

theorem samePages_recordEvent (host : Host) (around : Surroundings Address)
    (service : Reconciler Address) (now : Except HistoryError ℤ) (content : HistoryContent) :
    SamePages service (service.recordEvent host around now content).1 := by
  unfold recordEvent
  split
  · exact ⟨rfl, rfl⟩
  dsimp only
  split <;> exact ⟨rfl, rfl⟩

theorem samePages_setPinned (eventId : HistoryEventId) (pinned : Bool) :
    SamePages service (service.setPinned host eventId pinned) := by
  unfold setPinned
  split
  · split <;> exact ⟨rfl, rfl⟩
  · exact ⟨rfl, rfl⟩

theorem SamePages.trans {between : Reconciler Address} (first : SamePages before between)
    (second : SamePages between after) : SamePages before after :=
  ⟨second.1.trans first.1, second.2.trans first.2⟩

variable [DecidableEq Address]

theorem samePages_startGlobalHistoryClear :
    SamePages service (service.startGlobalHistoryClear host around).1 := by
  unfold startGlobalHistoryClear
  split
  · exact ⟨rfl, rfl⟩
  split
  · exact samePages_finishLocalOnlyClear host { service with nextHistoryRequest := _ } _
  · exact ⟨rfl, rfl⟩

theorem samePages_applyEverywhere (clear : ClearCoordinator String) :
    SamePages service (service.applyEverywhere host around clear).1 := by
  have same := samePages_applyClear host service (hexOperation clear.operationId) clear.boundary
  unfold applyEverywhere
  dsimp only
  split <;> simp_all [SamePages]

theorem samePages_receiveBoundary (identity : String) (operationId : OperationId)
    (entries : List (String × UInt64)) :
    SamePages service (service.receiveBoundary host around identity operationId entries).1 := by
  unfold receiveBoundary
  split
  · exact ⟨rfl, rfl⟩
  split
  · dsimp only
    split
    · exact samePages_applyEverywhere _
    · exact ⟨rfl, rfl⟩
  · exact ⟨rfl, rfl⟩

theorem samePages_broadcastHistoryRecord (record : ImportedHistoryEvent) :
    SamePages service (service.broadcastHistoryRecord host around record).1 := by
  unfold broadcastHistoryRecord
  dsimp only
  split <;> exact ⟨rfl, rfl⟩

end Reconciler

variable {Address : Type} [DecidableEq Address]

def Event.message : Event Address → Option (Peer Address × ProtoEvent)
  | .clipboardProtocol addr event => some (.emulation addr, event)
  | .clipboard handle _ event => some (.capture handle, event)
  | _ => none

def requestOf : ProtoEvent → Option UInt64
  | .historyRecordStart requestId _ _ _ => some requestId
  | .historyRecordChunk requestId _ _ _ => some requestId
  | _ => none

/-- The service with all that it did. -/
structure Journal (Address : Type) where
  service : Reconciler Address
  effects : List (Effect Address)

def journal (host : Host) (service : Reconciler Address)
    (permits : Journal Address → Surroundings Address × Event Address → Prop) :
    Machine (Journal Address) (Surroundings Address × Event Address) where
  initial := ⟨service, []⟩
  enabled := permits
  next state step :=
    let outcome := state.service.handle host step.1 step.2
    ⟨outcome.1, state.effects ++ outcome.2⟩

def Reconciler.run (host : Host) (service : Reconciler Address)
    (steps : List (Surroundings Address × Event Address)) : Journal Address :=
  (journal host service fun _ _ => True).after ⟨service, []⟩ steps

namespace Reconciler

variable (service : Reconciler Address) (peer : Peer Address) (requestId : UInt64)

def pendingOf (recordId : UInt64) : Option PendingRecord :=
  service.historyReassembler.records.lookup (peer, requestId, recordId)

/-- The page that a request asked for has not come to its end. -/
def Awaits : Prop :=
  ∃ offset retries, service.historySyncProgress.lookup peer = some (requestId, offset, retries)

/-- When `HistorySyncPageEnd` is taken as the end of a complete page: the next page is asked for, or
the synchronization is over. -/
structure FindsComplete : Prop where
  awaits : service.Awaits peer requestId
  nothing : (service.historyReassembler.finishRequest peer requestId).2 = 0

end Reconciler

/-- A page of records that a peer sends under a request. -/
structure Page (Address : Type) where
  peer : Peer Address
  requestId : UInt64
  records : List ImportedHistoryEvent

namespace Page

variable (codec : HistoryCodec) (page : Page Address)

/-- The record stands at this place of the page. -/
structure Holds (index : ℕ) (record : ImportedHistoryEvent) (bytes : Bytes) : Prop where
  listed : page.records[index]? = some record
  carries : Carries codec record bytes

/-- The step does not contradict the page, end it, reuse its id or let it expire. -/
structure Undisturbed (state : Journal Address) (step : Surroundings Address × Event Address) :
    Prop where
  own : ∀ event, step.2.message = some (page.peer, event) →
    requestOf event = some page.requestId → event ∈ pageEvents codec page.requestId page.records
  before : ∀ nextOffset,
    step.2.message ≠ some (page.peer, .historySyncPageEnd page.requestId nextOffset)
  numbered : state.service.nextHistoryRequest + 1 ≠ page.requestId
  young : step.2 = .profileTick → ∀ recordId pending,
    state.service.pendingOf page.peer page.requestId recordId = some pending →
      step.1.now - pending.started < clearTimeout

/-- The steps from the request to the end of the page. -/
structure Window (host : Host) (service : Reconciler Address)
    (steps : List (Surroundings Address × Event Address)) : Prop where
  fresh : ∀ recordId, service.pendingOf page.peer page.requestId recordId = none
  undisturbed : (journal host service (page.Undisturbed host.codec)).Follows ⟨service, []⟩ steps

/-- The step starts a record of the page, and there is room for it. -/
structure Starts (state : Journal Address) (step : Surroundings Address × Event Address)
    (index : ℕ) (bytes : Bytes) : Prop where
  event : step.2.message = some (page.peer, .historyRecordStart page.requestId
    (UInt64.ofNat index) (UInt32.ofNat bytes.length)
    (UInt32.ofNat (chunkCount maxHistoryChunkSize bytes)))
  heard : ∀ addr event, step.2 = .clipboardProtocol addr event →
    addr ∈ state.service.authenticatedPeerFingerprints
  room : (page.peer, page.requestId, UInt64.ofNat index) ∈
      state.service.historyReassembler.records ∨
    state.service.historyReassembler.hasRoom bytes.length = true

end Page

namespace Reconciler

variable {before after service : Reconciler Address} {host : Host}
  {around : Surroundings Address} {peer : Peer Address} {requestId : UInt64}

/-- The records of a page are as they were, as long as its end is awaited. -/
structure Quiet (peer : Peer Address) (requestId : UInt64) (before after : Reconciler Address) :
    Prop where
  fewer : ∀ recordId pending, after.pendingOf peer requestId recordId = some pending →
    before.pendingOf peer requestId recordId = some pending
  kept : after.Awaits peer requestId → before.Awaits peer requestId ∧
    ∀ recordId, after.pendingOf peer requestId recordId = before.pendingOf peer requestId recordId

theorem Quiet.of_pending (pending : ∀ recordId, after.pendingOf peer requestId recordId =
      before.pendingOf peer requestId recordId)
    (progress : after.Awaits peer requestId → before.Awaits peer requestId) :
    Quiet peer requestId before after :=
  ⟨fun recordId _ found => pending recordId ▸ found, fun awaits => ⟨progress awaits, pending⟩⟩

theorem Quiet.of_same (same : SamePages before after) : Quiet peer requestId before after := by
  apply Quiet.of_pending
  · intro _
    rw [pendingOf, pendingOf, same.1]
  · rintro ⟨offset, retries, progress⟩
    exact ⟨offset, retries, same.2 ▸ progress⟩

theorem Quiet.trans {between : Reconciler Address} (first : Quiet peer requestId before between)
    (second : Quiet peer requestId between after) : Quiet peer requestId before after where
  fewer recordId pending found := first.fewer _ _ (second.fewer recordId pending found)
  kept awaits := by
    have later := second.kept awaits
    have earlier := first.kept later.1
    exact ⟨earlier.1, fun recordId => (later.2 recordId).trans (earlier.2 recordId)⟩

theorem quiet_lookups {reassembler : Reassembler (Peer Address)}
    (looked : ∀ recordId, reassembler.records.lookup (peer, requestId, recordId) =
      service.pendingOf peer requestId recordId) :
    Quiet peer requestId service { service with historyReassembler := reassembler } := by
  apply Quiet.of_pending
  · exact looked
  · exact id

variable {other : Peer Address} {otherRequest : UInt64}

theorem quiet_insert {progress : UInt64 × UInt64 × UInt8}
    (reassembler : after.historyReassembler = before.historyReassembler)
    (inserted : after.historySyncProgress = before.historySyncProgress.insert other progress)
    (allowed : other = peer → progress.1 = requestId → before.Awaits peer requestId) :
    Quiet peer requestId before after := by
  apply Quiet.of_pending
  · intro _
    rw [pendingOf, pendingOf, reassembler]
  · rintro ⟨offset, retries, awaited⟩
    rw [inserted, lookup_insert] at awaited
    split at awaited
    · rename_i same
      simp only [some.injEq] at awaited
      exact allowed same.symm (by rw [awaited])
    · exact ⟨offset, retries, awaited⟩

theorem quiet_erase (reassembler : after.historyReassembler = before.historyReassembler)
    (erased : after.historySyncProgress = before.historySyncProgress.erase other) :
    Quiet peer requestId before after := by
  apply Quiet.of_pending
  · intro _
    rw [pendingOf, pendingOf, reassembler]
  · rintro ⟨offset, retries, awaited⟩
    rw [erased, lookup_erase] at awaited
    split at awaited
    · cases awaited
    · exact ⟨offset, retries, awaited⟩

theorem quiet_finishRequest (different : ¬(other = peer ∧ otherRequest = requestId)) :
    Quiet peer requestId service { service with
      historyReassembler := (service.historyReassembler.finishRequest other otherRequest).1 } := by
  apply quiet_lookups
  intro recordId
  have kept : (decide (peer ≠ other) || decide (requestId ≠ otherRequest)) = true := by
    rw [Bool.or_eq_true, decide_eq_true_eq, decide_eq_true_eq, ← not_and_or]
    rintro ⟨rfl, rfl⟩
    exact different ⟨rfl, rfl⟩
  simp only [finishRequest, retain, pendingOf, AList.lookup_retain, kept]
  cases service.historyReassembler.records.lookup (peer, requestId, recordId) <;> rfl

theorem quiet_receivePageEnd (numbered : service.nextHistoryRequest + 1 ≠ requestId)
    (different : ¬(other = peer ∧ otherRequest = requestId)) (nextOffset : Option UInt64) :
    Quiet peer requestId service (service.receivePageEnd other otherRequest nextOffset).1 := by
  apply (quiet_finishRequest different).trans
  unfold receivePageEnd
  dsimp only
  split
  · exact .of_same ⟨rfl, rfl⟩
  split
  · exact .of_same ⟨rfl, rfl⟩
  split
  · split
    · exact quiet_erase rfl rfl
    · exact quiet_insert rfl rfl fun _ again => absurd again numbered
  · split
    · exact quiet_insert rfl rfl fun same again => absurd ⟨same, again⟩ different
    · exact quiet_erase rfl rfl

theorem quiet_historyPeerLost (other : Peer Address) :
    Quiet peer requestId service (service.historyPeerLost around other).1 := by
  have lost : Quiet peer requestId service { service with
      historyReassembler := service.historyReassembler.peerLost other
      historySyncProgress := service.historySyncProgress.erase other } := by
    have looked : ∀ recordId,
        (service.historyReassembler.peerLost other).records.lookup (peer, requestId, recordId) =
          if peer = other then none else service.pendingOf peer requestId recordId := by
      intro recordId
      simp only [peerLost, retain, AList.lookup_retain, pendingOf]
      by_cases same : peer = other
      · cases service.historyReassembler.records.lookup (peer, requestId, recordId) <;> simp [same]
      · cases service.historyReassembler.records.lookup (peer, requestId, recordId) <;> simp [same]
    by_cases same : peer = other
    · simp only [if_pos same] at looked
      constructor
      · intro _ _ found
        rw [pendingOf, looked] at found
        cases found
      · rintro ⟨_, _, awaited⟩
        rw [lookup_erase, if_pos same] at awaited
        cases awaited
    · simp only [if_neg same] at looked
      exact (quiet_lookups looked).trans (quiet_erase rfl rfl)
  apply lost.trans
  apply Quiet.of_same
  unfold historyPeerLost
  cases other <;> dsimp only [forgetRoute] <;> split <;> (try split) <;> exact ⟨rfl, rfl⟩

theorem quiet_expire
    (young : ∀ recordId pending, service.pendingOf peer requestId recordId = some pending →
      around.now - pending.started < clearTimeout) :
    Quiet peer requestId service { service with
      historyReassembler := (service.historyReassembler.expire around.now).1 } := by
  apply quiet_lookups
  intro recordId
  simp only [expire, retain, pendingOf, AList.lookup_retain]
  cases found : service.historyReassembler.records.lookup (peer, requestId, recordId) with
  | none => rfl
  | some pending => simp [young recordId pending found]

theorem quiet_receiveStart {recordId : UInt64}
    (different : ¬(other = peer ∧ otherRequest = requestId)) (totalLen chunks : UInt32) :
    Quiet peer requestId service
      (service.receiveStart around other otherRequest recordId totalLen chunks) := by
  unfold receiveStart
  split
  · rename_i accepted
    apply quiet_lookups
    intro _
    apply lookup_start accepted
    rintro ⟨⟩
    exact different ⟨rfl, rfl⟩
  · exact .of_same ⟨rfl, rfl⟩

theorem quiet_receiveChunk {recordId : UInt64}
    (different : ¬(other = peer ∧ otherRequest = requestId)) (index : UInt32) (data : Bytes) :
    Quiet peer requestId service
      (service.receiveChunk host around other otherRequest recordId index data).1 := by
  have chunked : Quiet peer requestId service { service with
      historyReassembler := (service.historyReassembler.chunk host.codec other otherRequest
        recordId index data).1 } := by
    apply quiet_lookups
    intro _
    apply lookup_chunk
    rintro ⟨⟩
    exact different ⟨rfl, rfl⟩
  apply chunked.trans
  apply Quiet.of_same
  unfold receiveChunk
  dsimp only
  split <;> exact ⟨rfl, rfl⟩

end Reconciler

theorem mem_pageEvents {codec : HistoryCodec} {requestId : UInt64}
    {records : List ImportedHistoryEvent} {event : ProtoEvent} :
    event ∈ pageEvents codec requestId records ↔
      ∃ index record bytes, records[index]? = some record ∧ Carries codec record bytes ∧
        event ∈ datagrams requestId (ofNat index) bytes := by
  rw [pageEvents, mem_flatMap]
  constructor
  · rintro ⟨⟨record, index⟩, listed, sent⟩
    dsimp only at sent
    split at sent
    · rename_i events made
      rcases recordEvents_eq_ok.mp made with ⟨bytes, carries, rfl⟩
      exact ⟨index, record, bytes, mem_zipIdx_iff_getElem?.mp listed, carries, sent⟩
    · cases sent
  · rintro ⟨index, record, bytes, listed, carries, sent⟩
    refine ⟨(record, index), mem_zipIdx_iff_getElem?.mpr listed, ?_⟩
    have made : recordEvents codec requestId (ofNat index) record = .ok _ :=
      recordEvents_eq_ok.mpr ⟨bytes, carries, rfl⟩
    simp only [made]
    exact sent

namespace Page

open Reconciler

variable {host : Host} {page : Page Address} {around : Surroundings Address}
  {service : Reconciler Address}

/-- How a step meets a page: not at all, or by one message of it. -/
inductive Meets (host : Host) (page : Page Address) (around : Surroundings Address)
    (before : Reconciler Address) : Reconciler Address × List (Effect Address) → Prop
  | quiet {outcome : Reconciler Address × List (Effect Address)}
      (quiet : Quiet page.peer page.requestId before outcome.1) :
      Meets host page around before outcome
  | start {service : Reconciler Address} (same : SamePages before service) {index : ℕ}
      {record : ImportedHistoryEvent} {bytes : Bytes}
      (holds : page.Holds host.codec index record bytes) :
      Meets host page around before (service.receiveStart around page.peer page.requestId
        (UInt64.ofNat index) (UInt32.ofNat bytes.length)
        (UInt32.ofNat (chunkCount maxHistoryChunkSize bytes)), [])
  | chunk {service : Reconciler Address} (same : SamePages before service) {index position : ℕ}
      {record : ImportedHistoryEvent} {bytes : Bytes}
      (holds : page.Holds host.codec index record bytes)
      (within : position < chunkCount maxHistoryChunkSize bytes) :
      Meets host page around before (service.receiveChunk host around page.peer page.requestId
        (UInt64.ofNat index) (UInt32.ofNat position)
        (chunkAt maxHistoryChunkSize bytes position))

variable {event : ProtoEvent} {state : Journal Address}

theorem meets_handlePeerProtocol {before : Reconciler Address} (same : SamePages before service)
    {peer : Peer Address} (own : peer = page.peer → requestOf event = some page.requestId →
      event ∈ pageEvents host.codec page.requestId page.records) (unfinished : ∀ nextOffset,
      ¬(peer = page.peer ∧ event = .historySyncPageEnd page.requestId nextOffset))
    (numbered : service.nextHistoryRequest + 1 ≠ page.requestId) :
    Meets host page around before (service.handlePeerProtocol host around peer event) := by
  have unchanged : Quiet page.peer page.requestId before service := .of_same same
  unfold handlePeerProtocol
  split
  · exact .quiet unchanged
  split
  · exact .quiet unchanged
  · rename_i requestId recordId totalLen count
    by_cases ours : peer = page.peer ∧ requestId = page.requestId
    · rcases ours with ⟨rfl, rfl⟩
      rcases mem_pageEvents.mp (own rfl rfl) with ⟨index, record, bytes, listed, carries, sent⟩
      rcases mem_datagrams.mp sent with started | ⟨position, -, chunked⟩
      · cases started
        exact .start same ⟨listed, carries⟩
      · cases chunked
    · exact .quiet (unchanged.trans (quiet_receiveStart ours _ _))
  · rename_i requestId recordId position data
    by_cases ours : peer = page.peer ∧ requestId = page.requestId
    · rcases ours with ⟨rfl, rfl⟩
      rcases mem_pageEvents.mp (own rfl rfl) with ⟨_, _, _, listed, carries, sent⟩
      rcases mem_datagrams.mp sent with started | ⟨_, within, chunked⟩
      · cases started
      · cases chunked
        exact .chunk same ⟨listed, carries⟩ within
    · exact .quiet (unchanged.trans (quiet_receiveChunk ours _ _))
  · rename_i requestId nextOffset
    have different : ¬(peer = page.peer ∧ requestId = page.requestId) := by
      rintro ⟨rfl, rfl⟩
      exact unfinished nextOffset ⟨rfl, rfl⟩
    exact .quiet (unchanged.trans (quiet_receivePageEnd numbered different _))
  · exact .quiet unchanged
  · exact .quiet (.of_same (same.trans (samePages_receiveBoundary _ _ _)))
  · exact .quiet (.of_same (same.trans (samePages_receiveApply _ _)))
  · exact .quiet (.of_same (same.trans (samePages_receiveAck _ _ _ _)))
  · exact .quiet unchanged

theorem meets_handle {event : Event Address}
    (undisturbed : page.Undisturbed host.codec state (around, event)) :
    Meets host page around state.service (state.service.handle host around event) := by
  have numbered := undisturbed.numbered
  cases event with
  | connected =>
    exact .quiet (quiet_insert rfl rfl fun _ same => absurd same numbered)
  | disconnected => exact .quiet (quiet_historyPeerLost _)
  | clipboardProtocol _ event =>
    refine meets_handlePeerProtocol ⟨rfl, rfl⟩ ?_ ?_ numbered
    · intro same requested
      exact undisturbed.own event (by rw [← same]; rfl) requested
    · rintro nextOffset ⟨same, rfl⟩
      exact undisturbed.before nextOffset (by rw [← same]; rfl)
  | clipboard _ _ event =>
    apply meets_handlePeerProtocol
    · exact ⟨rfl, rfl⟩
    · intro same requested
      exact undisturbed.own event (by rw [← same]; rfl) requested
    · rintro nextOffset ⟨same, rfl⟩
      exact undisturbed.before nextOffset (by rw [← same]; rfl)
    · exact numbered
  | peerAuthenticated => exact .quiet (.of_same ⟨rfl, rfl⟩)
  | peerLost => exact .quiet (quiet_historyPeerLost _)
  | peerStateChanged =>
    unfold handle
    dsimp only
    split
    · split
      · exact .quiet (.of_same ⟨rfl, rfl⟩)
      · exact .quiet (quiet_insert rfl rfl fun _ same => absurd same numbered)
    · exact .quiet (quiet_historyPeerLost _)
  | removeClient => exact .quiet (quiet_historyPeerLost _)
  | requestProfile => exact .quiet (.of_same ⟨rfl, rfl⟩)
  | profileTick => exact .quiet (quiet_expire (undisturbed.young rfl))
  | recordLocalHistory now content =>
    have recorded := samePages_recordEvent host around state.service now content
    unfold handle
    dsimp only
    split
    · rename_i after record found
      rw [found] at recorded
      exact .quiet (.of_same (recorded.trans (samePages_broadcastHistoryRecord _)))
    · rename_i after error found
      rw [found] at recorded
      exact .quiet (.of_same recorded)
  | setHistoryPinned => exact .quiet (.of_same (samePages_setPinned _ _))
  | clearGlobalHistory => exact .quiet (.of_same samePages_startGlobalHistoryClear)
  | clearDeadline => exact .quiet (.of_same samePages_expireClear)

def Sound (codec : HistoryCodec) (page : Page Address) (service : Reconciler Address) : Prop :=
  ∀ index record bytes, page.Holds codec index record bytes → ∀ pending,
    service.pendingOf page.peer page.requestId (UInt64.ofNat index) = some pending →
      pending.Fits bytes

def Keeps (page : Page Address) (index : ℕ) (record : ImportedHistoryEvent)
    (state : Journal Address) : Prop :=
  state.service.Awaits page.peer page.requestId →
    (state.service.pendingOf page.peer page.requestId (UInt64.ofNat index)).isSome ∨
      .imported record ∈ state.effects

variable {codec : HistoryCodec} {index other : ℕ} {record otherRecord : ImportedHistoryEvent}
  {bytes otherBytes : Bytes}

section

omit [DecidableEq Address]

theorem ofNat_index_inj (short : page.records.length ≤ pageSize)
    (first : page.Holds codec index record bytes)
    (second : page.Holds codec other otherRecord otherBytes)
    (same : ofNat index = ofNat other) : index = other := by
  have bound : ∀ index, index < page.records.length → index < size := by
    intro index _
    have size : pageSize < size := by decide
    omega
  have left := bound index (List.getElem?_eq_some_iff.mp first.listed).1
  have right := bound other (List.getElem?_eq_some_iff.mp second.listed).1
  have numbers := congrArg toNat same
  rwa [toNat_ofNat_of_lt' left, toNat_ofNat_of_lt' right] at numbers

theorem Holds.same (first : page.Holds codec index record bytes)
    (second : page.Holds codec index otherRecord otherBytes) :
    record = otherRecord ∧ bytes = otherBytes := by
  have records : record = otherRecord := some.inj (first.listed.symm.trans second.listed)
  subst records
  exact ⟨rfl, Except.ok.inj (first.carries.serialized.symm.trans second.carries.serialized)⟩

end

/-- The step concerns no record of the page but this one. -/
structure Touches (page : Page Address) (index : ℕ) (record : ImportedHistoryEvent)
    (bytes : Bytes) (service : Reconciler Address)
    (outcome : Reconciler Address × List (Effect Address)) : Prop where
  progress : outcome.1.historySyncProgress = service.historySyncProgress
  others : ∀ recordId ≠ UInt64.ofNat index,
    outcome.1.pendingOf page.peer page.requestId recordId =
      service.pendingOf page.peer page.requestId recordId
  fits : ∀ pending,
    outcome.1.pendingOf page.peer page.requestId (UInt64.ofNat index) = some pending →
      pending.Fits bytes
  kept : (service.pendingOf page.peer page.requestId (UInt64.ofNat index)).isSome →
    (outcome.1.pendingOf page.peer page.requestId (UInt64.ofNat index)).isSome ∨
      .imported record ∈ outcome.2

theorem touches_receiveStart (carries : Carries codec record bytes) (fits : ∀ pending,
      service.pendingOf page.peer page.requestId (ofNat index) = some pending →
        pending.Fits bytes) :
    Touches page index record bytes service (service.receiveStart around page.peer page.requestId
      (ofNat index) (UInt32.ofNat bytes.length)
      (UInt32.ofNat (chunkCount maxHistoryChunkSize bytes)), []) := by
  unfold receiveStart
  split
  · rename_i after accepted
    rcases start_own carries fits accepted with ⟨_, found, laterFits⟩
    have pending : ∀ pending, after.records.lookup
        (page.peer, page.requestId, ofNat index) = some pending → pending.Fits bytes := by
      intro pending there
      rw [found] at there
      cases there
      exact laterFits
    refine ⟨rfl, ?_, pending, ?_⟩
    · intro _ different
      apply lookup_start accepted
      simpa using different
    · intro _
      left
      rw [pendingOf, found]
      rfl
  · exact ⟨rfl, fun _ _ => rfl, fits, .inl⟩

theorem touches_receiveChunk (roundTrips : host.codec.RoundTrips)
    (carries : Carries host.codec record bytes) (fits : ∀ pending,
      service.pendingOf page.peer page.requestId (ofNat index) = some pending →
        pending.Fits bytes) {position : ℕ}
    (within : position < chunkCount maxHistoryChunkSize bytes) :
    Touches page index record bytes service (service.receiveChunk host around page.peer
      page.requestId (ofNat index) (UInt32.ofNat position)
      (chunkAt maxHistoryChunkSize bytes position)) := by
  have others : ∀ recordId ≠ ofNat index,
      (service.historyReassembler.chunk host.codec page.peer page.requestId (ofNat index)
        (UInt32.ofNat position) (chunkAt maxHistoryChunkSize bytes position)).1.records.lookup
          (page.peer, page.requestId, recordId) =
        service.pendingOf page.peer page.requestId recordId := by
    intro _ different
    apply lookup_chunk
    simpa using different
  cases found : service.pendingOf page.peer page.requestId (ofNat index) with
  | none =>
    have ignored : service.historyReassembler.chunk host.codec page.peer page.requestId
        (ofNat index) (UInt32.ofNat position)
        (chunkAt maxHistoryChunkSize bytes position) = (service.historyReassembler, .ok none) := by
      unfold chunk
      rw [pendingOf] at found
      simp only [found]
    simp only [receiveChunk, ignored]
    exact ⟨rfl, fun _ _ => rfl, fits, .inl⟩
  | some pending =>
    rcases chunk_own roundTrips carries within found (fits pending found) with
      ⟨result, _, there, laterFits⟩ | ⟨result, gone⟩
    · simp only [receiveChunk, result]
      refine ⟨rfl, others, ?_, ?_⟩
      · intro pending known
        rw [pendingOf, there] at known
        cases known
        exact laterFits
      · intro _
        left
        rw [pendingOf, there]
        rfl
    · simp only [receiveChunk, result]
      refine ⟨rfl, others, ?_, fun _ => .inr (mem_singleton_self _)⟩
      intro _ known
      rw [pendingOf, importRecord, gone] at known
      cases known

variable {outcome : Reconciler Address × List (Effect Address)}

theorem Touches.step (short : page.records.length ≤ pageSize) (sound : Sound codec page service)
    (holds : page.Holds codec index record bytes)
    (touches : Touches page index record bytes service outcome) :
    Sound codec page outcome.1 ∧
      ∀ other otherRecord otherBytes, page.Holds codec other otherRecord otherBytes →
        ∀ effects, Keeps page other otherRecord ⟨service, effects⟩ →
          Keeps page other otherRecord ⟨outcome.1, effects ++ outcome.2⟩ := by
  constructor
  · intro other otherRecord otherBytes also pending found
    by_cases same : ofNat other = ofNat index
    · cases ofNat_index_inj short also holds same
      rw [(also.same holds).2]
      exact touches.fits pending found
    · exact sound other otherRecord otherBytes also pending (touches.others _ same ▸ found)
  · intro other _ _ also _ keeps awaits
    have earlier : service.Awaits page.peer page.requestId := by
      rcases awaits with ⟨offset, retries, progress⟩
      exact ⟨offset, retries, touches.progress ▸ progress⟩
    rcases keeps earlier with pending | handed
    · by_cases same : ofNat other = ofNat index
      · cases ofNat_index_inj short also holds same
        rcases touches.kept pending with still | handed
        · exact .inl still
        · right
          rw [(also.same holds).1]
          exact mem_append_right _ handed
      · exact .inl (touches.others _ same ▸ pending)
    · exact .inr (mem_append_left _ handed)

theorem quiet_step {before after : Reconciler Address}
    (quiet : Quiet page.peer page.requestId before after) (sound : Sound codec page before) :
    Sound codec page after ∧
      ∀ other otherRecord effects more, Keeps page other otherRecord ⟨before, effects⟩ →
        Keeps page other otherRecord ⟨after, effects ++ more⟩ := by
  constructor
  · intro index record bytes holds pending found
    exact sound index record bytes holds pending (quiet.fewer _ _ found)
  · intro _ _ _ _ keeps awaits
    rcases quiet.kept awaits with ⟨earlier, pending⟩
    rcases keeps earlier with _ | handed
    · left
      rwa [pending]
    · exact .inr (mem_append_left _ handed)

theorem Meets.step (roundTrips : host.codec.RoundTrips) (short : page.records.length ≤ pageSize)
    {before : Reconciler Address} (sound : Sound host.codec page before)
    (meets : Meets host page around before outcome) :
    Sound host.codec page outcome.1 ∧
      ∀ other otherRecord otherBytes, page.Holds host.codec other otherRecord otherBytes →
        ∀ effects, Keeps page other otherRecord ⟨before, effects⟩ →
          Keeps page other otherRecord ⟨outcome.1, effects ++ outcome.2⟩ := by
  have through : ∀ {service : Reconciler Address}, SamePages before service →
      ∀ {index record bytes}, page.Holds host.codec index record bytes →
        (Sound host.codec page service → Touches page index record bytes service outcome) →
          Sound host.codec page outcome.1 ∧
            ∀ other otherRecord otherBytes, page.Holds host.codec other otherRecord otherBytes →
              ∀ effects, Keeps page other otherRecord ⟨before, effects⟩ →
                Keeps page other otherRecord ⟨outcome.1, effects ++ outcome.2⟩ := by
    intro _ same _ _ _ holds touches
    have first := quiet_step (.of_same same) sound
    have second := (touches first.1).step short first.1 holds
    refine ⟨second.1, ?_⟩
    intro other otherRecord otherBytes also effects keeps
    have between := first.2 other otherRecord effects [] keeps
    rw [append_nil] at between
    exact second.2 other otherRecord otherBytes also effects between
  cases meets with
  | quiet quiet =>
    have stepped := quiet_step quiet sound
    exact ⟨stepped.1, fun other otherRecord _ _ effects => stepped.2 other otherRecord effects _⟩
  | start same holds =>
    exact through same holds fun sound => touches_receiveStart holds.carries (sound _ _ _ holds)
  | chunk same holds within =>
    exact through same holds fun sound =>
      touches_receiveChunk roundTrips holds.carries (sound _ _ _ holds) within

theorem Starts.pending {step : Surroundings Address × Event Address}
    (sound : Sound host.codec page state.service) (holds : page.Holds host.codec index record bytes)
    (starts : page.Starts state step index bytes) :
    ((state.service.handle host step.1 step.2).1.pendingOf page.peer page.requestId
      (ofNat index)).isSome := by
  have started : ∀ service : Reconciler Address, SamePages state.service service →
      ((service.receiveStart step.1 page.peer page.requestId (ofNat index)
        (UInt32.ofNat bytes.length)
        (UInt32.ofNat (chunkCount maxHistoryChunkSize bytes))).pendingOf page.peer page.requestId
          (ofNat index)).isSome := by
    intro service same
    have fits := sound index record bytes holds
    have room := starts.room
    rw [pendingOf, ← same.1] at fits
    rw [← same.1] at room
    rcases start_accepts holds.carries fits room with ⟨_, accepted⟩
    rcases start_own holds.carries fits accepted with ⟨_, found, -⟩
    rw [receiveStart, accepted, pendingOf, found]
    rfl
  rcases step with ⟨_, event⟩
  have message := starts.event
  cases event with
  | clipboardProtocol addr =>
    rcases Prod.mk.inj (some.inj message) with ⟨route, rfl⟩
    have heard := starts.heard addr _ rfl
    rcases (mem_iff_lookup _ _).mp heard with ⟨identity, known⟩
    have identified : state.service.identityOf (.emulation addr) = some identity := known
    rw [handle, handlePeerProtocol, identified]
    rw [← route] at started ⊢
    exact started state.service ⟨rfl, rfl⟩
  | clipboard handle fingerprint =>
    rcases Prod.mk.inj (some.inj message) with ⟨route, rfl⟩
    have identified : ({ state.service with
        authenticatedCaptureFingerprints :=
          state.service.authenticatedCaptureFingerprints.insert handle fingerprint
        }).identityOf (.capture handle) = some fingerprint := AList.lookup_insert _
    rw [Reconciler.handle, handlePeerProtocol, identified]
    rw [← route] at started ⊢
    exact started _ ⟨rfl, rfl⟩
  | _ => cases message

theorem exportPage_short {env : Environment} {store : HistoryStore} {offset : UInt64}
    {records : List ImportedHistoryEvent} {nextOffset : Option UInt64}
    (exported : store.exportPage env offset pageSize = .ok (records, nextOffset)) :
    records.length ≤ pageSize := by
  have limit : max 1 (min pageSize 50) = pageSize := by decide
  rw [exportPage] at exported
  cases windowed : queryWindow env store.exportRows offset pageSize with
  | error =>
    rw [windowed] at exported
    cases exported
  | ok =>
    rw [windowed] at exported
    cases exported
    simp only [queryWindow, bind_ok, limit] at windowed
    rcases windowed with ⟨_, -, taken⟩
    split at taken
    · cases taken
      rw [length_map, length_take]
      exact min_le_left _ _
    · rename_i few
      cases taken
      rw [length_map]
      exact not_lt.mp few

/-- A page that is found complete has been handed to the store, if the start of each of its records
was accepted. -/
theorem complete_of_starts (roundTrips : host.codec.RoundTrips) {env : Environment}
    {store : HistoryStore} {offset : UInt64} {nextOffset : Option UInt64}
    (exported : store.exportPage env offset pageSize = .ok (page.records, nextOffset))
    {steps : List (Surroundings Address × Event Address)} (window : page.Window host service steps)
    (started : ∀ index record bytes, page.Holds host.codec index record bytes →
      ∃ earlier step later, steps = earlier ++ step :: later ∧
        page.Starts (service.run host earlier) step index bytes)
    (complete : (service.run host steps).service.FindsComplete page.peer page.requestId) :
    ∀ index record bytes, page.Holds host.codec index record bytes →
      .imported record ∈ (service.run host steps).effects := by
  have short := exportPage_short exported
  have sound : Sound host.codec page service := by
    intro index record bytes _ pending found
    rw [window.fresh] at found
    cases found
  intro index record bytes holds
  rcases started index record bytes holds with ⟨earlier, step, later, rfl, starts⟩
  have undisturbed := window.undisturbed
  rw [Machine.follows_append] at undisturbed
  rcases undisturbed with ⟨first, now, second⟩
  let window := journal host service (page.Undisturbed host.codec)
  have step_sound : ∀ state step, Sound host.codec page state.service →
      page.Undisturbed host.codec state step →
        Sound host.codec page (window.next state step).service :=
    fun state step sound permitted => ((meets_handle permitted).step roundTrips short sound).1
  have step_keeps : ∀ state step,
      Sound host.codec page state.service ∧ Keeps page index record state →
        page.Undisturbed host.codec state step →
          Sound host.codec page (window.next state step).service ∧
            Keeps page index record (window.next state step) := by
    rintro state step ⟨sound, keeps⟩ permitted
    have stepped := (meets_handle permitted).step roundTrips short sound
    exact ⟨stepped.1, stepped.2 index record bytes holds state.effects keeps⟩
  have before : Sound host.codec page (service.run host earlier).service :=
    first.keeps step_sound sound
  have opened : Keeps page index record (window.next (service.run host earlier) step) :=
    fun _ => .inl (starts.pending before holds)
  have kept : Keeps page index record (service.run host (earlier ++ step :: later)) := by
    rw [run, Machine.after_append]
    exact (second.keeps step_keeps ⟨step_sound _ _ before now, opened⟩).2
  rcases kept complete.awaits with pending | handed
  · rcases Option.isSome_iff_exists.mp pending with ⟨_, found⟩
    have refused := Reassembler.keeps_of_retain_eq_zero complete.nothing found
    simp at refused
  · exact handed

/-- The text event `"a" sequence time` in the fixed-width encoding: its device, its sequence, its
time, no label, the number of its kind and the text. -/
def encodedText (sequence time : UInt8) : Bytes :=
  [1, 0, 0, 0, 0, 0, 0, 0, 97, sequence, 0, 0, 0, 0, 0, 0, 0, time, 0, 0, 0, 0, 0, 0, 0, 0, 0, 0, 0,
    0, 3, 0, 0, 0, 0, 0, 0, 0, 97, 98, 99]

def sampleTexts : List ImportedHistoryEvent := [textEvent "a" 2 6, textEvent "a" 1 5]

def sampleHost : Host where
  env := HistoryStore.unaryEnvironment
  codec := .ofList [(textEvent "a" 2 6, encodedText 2 6), (textEvent "a" 1 5, encodedText 1 5)]
  describe _ := "error"
  publicKeyFingerprint := "this device"
  localDeviceId := "b"
  localLabel := none
  operationDigest _ _ _ := List.Vector.replicate 16 0

def sampleAround : Surroundings ℕ := ⟨0, 0, .asStored _, .asStored _, .asStored _⟩

def sampleService : Reconciler ℕ :=
  ((Reconciler.new 6).handle sampleHost sampleAround (.connected 0 "other device")).1

def samplePage : Page ℕ := ⟨.emulation 0, 7, sampleTexts⟩

def firstChunk : ProtoEvent := .historyRecordChunk 7 0 0 (encodedText 2 6)

def secondChunk : ProtoEvent := .historyRecordChunk 7 1 0 (encodedText 1 5)

def sampleEvents : List ProtoEvent :=
  [.historyRecordStart 7 0 41 1, firstChunk, .historyRecordStart 7 1 41 1, secondChunk]

def sampleStep (event : ProtoEvent) : Surroundings ℕ × Event ℕ :=
  (sampleAround, .clipboardProtocol 0 event)

theorem sampleHost_roundTrips : sampleHost.codec.RoundTrips :=
  HistoryCodec.roundTrips_ofList (by decide)

def sampleStore : HistoryStore :=
  .afterCalls HistoryStore.unaryEnvironment (sampleTexts.map (.mergeImported (.asStored _)))

theorem samplePage_exported :
    sampleStore.exportPage unaryEnvironment 0 pageSize = .ok (samplePage.records, none) := by
  decide +kernel

theorem samplePage_events :
    pageEvents sampleHost.codec 7 samplePage.records = sampleEvents := by
  decide +kernel

theorem sample_undisturbed {state : Journal ℕ} (numbered : state.service.nextHistoryRequest = 7)
    (own : event ∈ sampleEvents) :
    samplePage.Undisturbed sampleHost.codec state (sampleStep event) := by
  constructor
  · intro _ message _
    cases message
    exact samplePage_events ▸ own
  · intro _ message
    cases message
    simp [sampleEvents, firstChunk, secondChunk] at own
  · rw [numbered]
    decide
  · intro tick
    cases tick

/-- The chunk of a record arrives, its start does not, and the page is found complete. -/
theorem lost_start_found_complete :
    ∃ (steps : List (Surroundings ℕ × Event ℕ)) (record : ImportedHistoryEvent) (bytes : Bytes),
      sampleStore.exportPage HistoryStore.unaryEnvironment 0 pageSize =
          .ok (samplePage.records, none) ∧
        samplePage.Window sampleHost sampleService steps ∧
        (sampleService.run sampleHost steps).service.FindsComplete samplePage.peer
          samplePage.requestId ∧
        samplePage.Holds sampleHost.codec 0 record bytes ∧
        .imported record ∉ (sampleService.run sampleHost steps).effects := by
  refine ⟨[sampleStep firstChunk], textEvent "a" 2 6, encodedText 2 6, samplePage_exported,
    ⟨fun _ => rfl, ?_, trivial⟩, ⟨⟨0, 0, rfl⟩, rfl⟩, ?_, ?_⟩
  · exact sample_undisturbed rfl (by simp [sampleEvents])
  · exact ⟨rfl, by decide +kernel, by decide, by decide⟩
  · intro imported
    cases imported

/-- The chunk of the second record is lost before its start, and comes again, twice. -/
def sampleRun : List (Surroundings ℕ × Event ℕ) :=
  [sampleStep secondChunk, sampleStep (.historyRecordStart 7 0 41 1),
    sampleStep (.historyRecordStart 7 1 41 1), sampleStep secondChunk, sampleStep secondChunk,
    sampleStep firstChunk]

theorem complete_of_starts_sample :
    (sampleService.run sampleHost sampleRun).service.FindsComplete samplePage.peer
        samplePage.requestId ∧
      ∀ record ∈ sampleTexts,
        .imported record ∈ (sampleService.run sampleHost sampleRun).effects := by
  have window : samplePage.Window sampleHost sampleService sampleRun := by
    refine ⟨fun _ => rfl, sample_undisturbed rfl ?_, sample_undisturbed rfl ?_,
      sample_undisturbed rfl ?_, sample_undisturbed rfl ?_, sample_undisturbed rfl ?_,
      sample_undisturbed rfl ?_, trivial⟩
    all_goals simp [sampleEvents]
  have complete : (sampleService.run sampleHost sampleRun).service.FindsComplete
      samplePage.peer samplePage.requestId := ⟨⟨0, 0, by decide +kernel⟩, by decide +kernel⟩
  have first : samplePage.Holds sampleHost.codec 0 (textEvent "a" 2 6) (encodedText 2 6) :=
    ⟨rfl, by decide +kernel, by decide, by decide⟩
  have second : samplePage.Holds sampleHost.codec 1 (textEvent "a" 1 5) (encodedText 1 5) :=
    ⟨rfl, by decide +kernel, by decide, by decide⟩
  have starts (index : ℕ) (record : ImportedHistoryEvent) (bytes : Bytes)
      (holds : samplePage.Holds sampleHost.codec index record bytes) :
      ∃ earlier step later, sampleRun = earlier ++ step :: later ∧
        samplePage.Starts (sampleService.run sampleHost earlier) step index bytes := by
    have within := (List.getElem?_eq_some_iff.mp holds.listed).1
    match index, within with
    | 0, _ =>
      cases (holds.same first).2
      refine ⟨[_], _, _, rfl, rfl, ?_, .inr (by decide +kernel)⟩
      intro _ _ same
      cases same
      decide +kernel
    | 1, _ =>
      cases (holds.same second).2
      refine ⟨[_, _], _, _, rfl, rfl, ?_, .inr (by decide +kernel)⟩
      intro _ _ same
      cases same
      decide +kernel
  have all := complete_of_starts sampleHost_roundTrips samplePage_exported window starts complete
  refine ⟨complete, fun record member => ?_⟩
  rcases mem_pair.mp member with rfl | rfl
  · exact all 0 _ _ first
  · exact all 1 _ _ second

end Page

end Syntra.History
