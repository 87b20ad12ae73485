import Syntra.Files.Effects
import Syntra.Manual.Network
import Syntra.PullTransfer.Protocol

/-!
# A manual transfer as a pull transfer

How the records and messages of one transfer appear in the abstract protocol, and what a record
must satisfy for that view to be faithful.
-/

namespace Syntra.Manual

open ByteFormat Proto Files PullTransfer

variable {P : Type}

def toReceiver? : ProtoEvent → Option (ToReceiver UInt8 Digest)
  | .manualFileOffer _ _ _ => some .offer
  | .manualFileDecision _ .accepted => some .accepted
  | .manualFileDecision _ .declined => some .declined
  | .manualFileChunk _ offset data => some (.chunk offset.toNat data)
  | .manualFileComplete _ digest => some (.complete digest)
  | .manualFileResult _ success _ => some (.result success)
  | .manualFileCancel _ => some .cancel
  | _ => none

def toSender? : ProtoEvent → Option ToSender
  | .manualFileDecision _ .pending => some .pending
  | .manualFileDecision _ .accepted => some .accepted
  | .manualFileDecision _ .declined => some .declined
  | .manualFileRequest _ offset length => some (.request offset.toNat length.toNat)
  | .manualFileResult _ success _ => some (.result success)
  | .manualFileCancel _ => some .cancel
  | _ => none

/-- An offer of the transfer has its name and size, and is one that a receiver does not reject. -/
def Issue.Describes (issue : Issue) : ProtoEvent → Prop
  | .manualFileOffer id name size =>
    name = issue.name ∧ size = issue.size ∧ id ≠ 0 ∧ validateManualFileName name = .ok ()
  | _ => True

def yields (files : List FileEvent) : Bytes :=
  files.flatMap fun event =>
    match event with
    | .yielded data => data
    | .published _ _ => []

def publications (files : List FileEvent) : List Bytes :=
  files.filterMap fun event =>
    match event with
    | .yielded _ => none
    | .published _ content => some content

def ManualTransferState.phase : ManualTransferState → Phase
  | .offering => .offered
  | .awaitingAcceptance => .awaiting
  | .transferring => .transferring
  | .completed => .completed
  | .declined | .cancelled | .failed => .ended

theorem phase_active {state : ManualTransferState} :
    state.phase.Active ↔ isTerminal state = false := by
  cases state <;> simp [ManualTransferState.phase, Phase.Active, isTerminal]

namespace Record

def asSender (record : Record P) : Sender UInt8 Digest where
  phase := record.state.phase
  position := record.transferred.toNat
  read := (record.outgoing.map (·.hasher)).getD []
  cache := do
    let (offset, length) ← record.cachedRequest
    let answer ← record.cachedResponse.bind toReceiver?
    pure (offset.toNat, length.toNat, answer)
  digested := record.finalDigest.isSome
  retry := record.retryEvent.bind toReceiver?

/-- Where a receiver stood does not matter once it has given up. -/
def asReceiver (record : Record P) : Receiver UInt8 Digest :=
  if record.state.phase = .ended then
    .stopped (record.retryEvent.bind toSender?)
  else
    { phase := record.state.phase
      position := record.transferred.toNat
      content := ((record.incoming.bind (·.files.lookup fileId)).map (·.file)).getD []
      early := record.earlyDigest
      retry := record.retryEvent.bind toSender? }

/-- The record reads the file that it offered, as far as it has sent it. -/
structure Sourced (record : Record P) (identity : SourceIdentity) : Prop where
  offered : ∃ offer entry path, record.offer = some offer ∧ offer.entries = [entry] ∧
    entry.fileId = 1 ∧ entry.kind = .file ∧ entry.size = record.size ∧
    offer.sources.lookup 1 = some (path, identity)
  bounded : record.transferred ≤ record.size
  closed : record.outgoing = none → record.transferred = 0
  opened : ∀ file, record.outgoing = some file → file.offset = record.transferred ∧
    file.size = record.size ∧ file.cancelled = false ∧ file.identity = identity

/-- The record is the sender of what was issued. -/
structure Sending (issue : Issue) (record : Record P) : Prop where
  direction : record.direction = .sending
  name : record.name = issue.name
  size : record.size = issue.size
  retry : ∀ event, record.retryEvent = some event →
    (toReceiver? event).isSome = true ∧ issue.Describes event
  cached : ∀ event, record.cachedResponse = some event →
    (toReceiver? event).isSome = true ∧ issue.Describes event
  alive : isTerminal record.state = false →
    record.finalResult = none ∧ ∃ identity, record.Sourced identity

/-- The record is the receiver of what was issued. -/
structure Receiving (issue : Issue) (record : Record P) : Prop where
  direction : record.direction = .receiving
  name : record.name = issue.name
  size : record.size = issue.size
  retry : ∀ event, record.retryEvent = some event → (toSender? event).isSome = true
  asked : record.state ≠ .offering
  waiting : record.state = .awaitingAcceptance → record.incoming = none ∧ record.transferred = 0
  writing : record.state = .transferring → ∃ incoming content, record.incoming = some incoming ∧
    incoming.Receiving record.size content ∧ record.transferred.toNat = content.length
  unsettled : isTerminal record.state = false → record.finalResult = none
  succeeded : record.state = .completed → ∃ text, record.finalResult = some (true, text)
  failed : record.state = .failed → ∀ success text, record.finalResult = some (success, text) →
    success = false

end Record

/-- The abstract protocol of a transfer. -/
def Issue.protocol (issue : Issue) (sha256 : Bytes → Digest) : Protocol UInt8 Digest where
  size := issue.size.toNat
  limit := maxManualFileChunkSize
  limit_pos := by decide
  digest := sha256

end Syntra.Manual
