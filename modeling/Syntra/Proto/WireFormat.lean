import Syntra.Proto.Codec

/-!
# The wire format

What the protocol's datagrams are, apart from how either side computes them: the bytes of every
event (`payload`), the events a sender may put on the wire (`Sendable`) and those a receiver can be
given (`Receivable`). The codec is connected to this layer by two equivalences, `encode_eq_ok` and
`decode_eq_ok`.
-/

namespace Syntra.Proto

open ByteFormat

def manifestEntryBytes (entry : ClipboardManifestEntry) : Bytes :=
  u64Bytes entry.fileId ++ (entry.kind.toByte :: (textBytes entry.path ++ u64Bytes entry.size))

def boundaryEntryBytes (entry : String × UInt64) : Bytes :=
  textBytes entry.1 ++ u64Bytes entry.2

/-- The bytes of a hand-off, whose target is cut at the protocol limit. -/
def handoffBytes (side : Position) (target : String) : Bytes :=
  side.toByte ::
    (u16Bytes (UInt16.ofNat (min (utf8 target).length maxHandoffTarget)) ++
      (utf8 target).take (min (utf8 target).length maxHandoffTarget))

def boundaryBytes (boundary : List (String × UInt64)) : Bytes :=
  u16Bytes (UInt16.ofNat boundary.length) ++ boundary.flatMap boundaryEntryBytes

def payload : ProtoEvent → Bytes
  | .manualFileOffer transferId fileName size =>
    u64Bytes transferId ++ (textBytes fileName ++ u64Bytes size)
  | .manualFileDecision transferId decision => u64Bytes transferId ++ [decision.toByte]
  | .manualFileRequest transferId offset length =>
    u64Bytes transferId ++ (u64Bytes offset ++ u32Bytes length)
  | .manualFileChunk transferId offset data => u64Bytes transferId ++ (u64Bytes offset ++ data)
  | .manualFileComplete transferId sha256 => u64Bytes transferId ++ sha256.toList
  | .manualFileResult transferId success error =>
    u64Bytes transferId ++ (success.toUInt8 :: optionalStringBytes error)
  | .manualFileCancel transferId => u64Bytes transferId
  | .input (.pointer (.motion time dx dy)) =>
    u32Bytes time ++ (u64Bytes dx.bits ++ u64Bytes dy.bits)
  | .input (.pointer (.button time button state)) =>
    u32Bytes time ++ (u32Bytes button ++ u32Bytes state)
  | .input (.pointer (.axis time axis value)) => u32Bytes time ++ (axis :: u64Bytes value.bits)
  | .input (.pointer (.axisDiscrete120 axis value)) => axis :: u32Bytes value.toUInt32
  | .input (.keyboard (.key time key state)) => u32Bytes time ++ (u32Bytes key ++ [state])
  | .input (.keyboard (.modifiers depressed latched locked group)) =>
    u32Bytes depressed ++ (u32Bytes latched ++ (u32Bytes locked ++ u32Bytes group))
  | .ping => []
  | .profileChanged => []
  | .pong alive => [alive.toUInt8]
  | .enter position => [position.toByte]
  | .leave serial => u32Bytes serial
  | .ack serial => u32Bytes serial
  | .inputCapabilities bits => u32Bytes bits
  | .leaveAt along => u32Bytes along.bits
  | .enterAt side along => side.toByte :: u32Bytes along.bits
  | .handoff target side => handoffBytes side target
  | .enterVia side via => handoffBytes side via
  | .hello commit => commit.toList
  | .profileRequest requestId => u64Bytes requestId
  | .profileStart requestId width height totalLen chunks displayName =>
    u64Bytes requestId ++ (u32Bytes width ++ (u32Bytes height ++ (u32Bytes totalLen ++
      (u32Bytes chunks ++ (UInt8.ofNat (utf8 displayName).length :: utf8 displayName)))))
  | .profileChunk requestId index data => u64Bytes requestId ++ (u32Bytes index ++ data)
  | .clipboardStart transferId totalLen chunks =>
    u64Bytes transferId ++ (u32Bytes totalLen ++ u32Bytes chunks)
  | .clipboardImageStart transferId width height totalLen chunks =>
    u64Bytes transferId ++ (u32Bytes width ++ (u32Bytes height ++
      (u32Bytes totalLen ++ u32Bytes chunks)))
  | .clipboardChunk transferId index data => u64Bytes transferId ++ (u32Bytes index ++ data)
  | .clipboardCapabilities c => [c.text.toUInt8, c.image.toUInt8, c.files.toUInt8]
  | .clipboardManifest transferId entries =>
    u64Bytes transferId ++ (u32Bytes (UInt32.ofNat entries.length) ++
      entries.flatMap manifestEntryBytes)
  | .clipboardFileRequest transferId fileId requestId offset length =>
    u64Bytes transferId ++ (u64Bytes fileId ++ (u64Bytes requestId ++
      (u64Bytes offset ++ u64Bytes length)))
  | .clipboardFileChunk transferId fileId requestId offset data =>
    u64Bytes transferId ++ (u64Bytes fileId ++ (u64Bytes requestId ++ (u64Bytes offset ++ data)))
  | .clipboardFileComplete transferId fileId requestId size digest =>
    u64Bytes transferId ++ (u64Bytes fileId ++ (u64Bytes requestId ++
      (u64Bytes size ++ digest.toList)))
  | .clipboardTransferCancel transferId fileId reason =>
    u64Bytes transferId ++ (u64Bytes (fileId.getD 0) ++ [reason.toByte])
  | .clipboardTransferProgress transferId fileId completed total =>
    u64Bytes transferId ++ (u64Bytes fileId ++ (u64Bytes completed ++ u64Bytes total))
  | .historySyncRequest requestId offset => u64Bytes requestId ++ u64Bytes offset
  | .historyRecordStart requestId recordId totalLen chunks =>
    u64Bytes requestId ++ (u64Bytes recordId ++ (u32Bytes totalLen ++ u32Bytes chunks))
  | .historyRecordChunk requestId recordId index data =>
    u64Bytes requestId ++ (u64Bytes recordId ++ (u32Bytes index ++ data))
  | .historySyncPageEnd requestId nextOffset =>
    u64Bytes requestId ++ optionalU64Bytes nextOffset
  | .historyClearBoundaryRequest operationId => operationId.toList
  | .historyClearBoundary operationId boundary => operationId.toList ++ boundaryBytes boundary
  | .historyClearApply operationId boundary => operationId.toList ++ boundaryBytes boundary
  | .historyClearAck operationId affected error =>
    operationId.toList ++ (u64Bytes affected ++ optionalStringBytes error)

/-- The entries of a manifest that follow `previous`, with `total` bytes already declared. -/
def ManifestValid (previous total : UInt64) : List ClipboardManifestEntry → Prop
  | [] => True
  | entry :: entries =>
    validatePath entry.path = .ok () ∧ entry.fileId ≠ 0 ∧ previous < entry.fileId ∧
      total.toNat + entry.size.toNat ≤ maxClipboardSize ∧
      (entry.kind = .directory → entry.size = 0) ∧
      ManifestValid entry.fileId (total + entry.size) entries

def BoundaryValid (boundary : List (String × UInt64)) : Prop :=
  boundary.length ≤ maxHistoryBoundaryEntries ∧
    ∀ entry ∈ boundary, 0 < (utf8 entry.1).length ∧ (utf8 entry.1).length ≤ maxHistoryDeviceIdSize

/-- The events that the sender's checks let through, size of the datagram aside. -/
def Sendable : ProtoEvent → Prop
  | .manualFileOffer transferId fileName _ =>
    transferId ≠ 0 ∧ validateManualFileName fileName = .ok ()
  | .manualFileDecision transferId _ => transferId ≠ 0
  | .manualFileRequest transferId _ length =>
    transferId ≠ 0 ∧ 1 ≤ length.toNat ∧ length.toNat ≤ maxManualFileChunkSize
  | .manualFileChunk transferId _ data =>
    transferId ≠ 0 ∧ data ≠ [] ∧ data.length ≤ maxManualFileChunkSize
  | .manualFileComplete transferId _ => transferId ≠ 0
  | .manualFileResult transferId _ error =>
    transferId ≠ 0 ∧ OptionalStringFits error ∧ validateManualFileError error = .ok ()
  | .manualFileCancel transferId => transferId ≠ 0
  | .profileRequest requestId => requestId ≠ 0
  | .profileStart requestId width height totalLen chunks displayName =>
    requestId ≠ 0 ∧
      invalidProfileMetadata (utf8 displayName).length width height totalLen chunks = false
  | .profileChunk requestId _ data =>
    requestId ≠ 0 ∧ data ≠ [] ∧ data.length ≤ maxProfileChunkSize
  | .clipboardStart _ totalLen chunks => validateClipboardStart totalLen chunks = .ok ()
  | .clipboardImageStart _ width height totalLen chunks =>
    validateClipboardImage width height totalLen chunks = .ok ()
  | .clipboardManifest _ entries =>
    entries ≠ [] ∧ entries.length ≤ maxClipboardManifestEntries ∧ ManifestValid 0 0 entries
  | .clipboardFileRequest _ fileId requestId offset length =>
    fileId ≠ 0 ∧ requestId ≠ 0 ∧ validateRequest offset length = .ok ()
  | .clipboardFileChunk _ fileId requestId offset data =>
    fileId ≠ 0 ∧ requestId ≠ 0 ∧ validateFileChunk offset data.length = .ok ()
  | .clipboardFileComplete _ fileId requestId size _ =>
    fileId ≠ 0 ∧ requestId ≠ 0 ∧ validateFilePosition size = .ok ()
  | .clipboardTransferProgress _ _ completed total => completed ≤ total
  | .historyRecordStart _ _ totalLen chunks => validateHistoryStart totalLen chunks = .ok ()
  | .historyRecordChunk _ _ _ data => data ≠ [] ∧ data.length ≤ maxHistoryChunkSize
  | .historyClearBoundary _ boundary => BoundaryValid boundary
  | .historyClearApply _ boundary => BoundaryValid boundary
  | .historyClearAck _ _ error => OptionalStringFits error
  | _ => True

/-- An edge fraction in `[0, 1]`, either zero included. -/
def F32.InUnit (along : F32) : Prop :=
  along.isFinite = true ∧ F32.zero.le along = true ∧ along.le F32.one = true

/-- The checks that only the receiver makes. -/
def Received : ProtoEvent → Prop
  | .leaveAt along => along.InUnit
  | .enterAt _ along => along.InUnit
  | .handoff target _ => (utf8 target).length ≤ maxHandoffTarget
  | .enterVia _ via => (utf8 via).length ≤ maxHandoffTarget
  | .clipboardTransferCancel _ fileId _ => fileId ≠ some 0
  | .clipboardTransferProgress _ fileId _ total =>
    fileId ≠ 0 ∧ validateFilePosition total = .ok ()
  | _ => True

/-- The events that decoding can yield. -/
def Receivable (event : ProtoEvent) : Prop :=
  Sendable event ∧ Received event

/-- The byte strings that the receiver reads as the fields of an event: its payload, and for a
flag or an edge fraction also the values that it normalizes. -/
def Spells (event : ProtoEvent) (image : Bytes) : Prop :=
  match event with
  | .pong alive => ∃ flag : UInt8, image = [flag] ∧ (flag != 0) = alive
  | .leaveAt along =>
    ∃ raw : F32, raw.isFinite = true ∧ raw.clamp .zero .one = along ∧ image = u32Bytes raw.bits
  | .enterAt side along =>
    ∃ raw : F32, raw.isFinite = true ∧ raw.clamp .zero .one = along ∧
      image = side.toByte :: u32Bytes raw.bits
  | event => image = payload event

/-- What an honest receiver makes of a sendable event: edge fractions are brought into range, a
long hand-off target arrives cut, and no file id arrives as a zero one. -/
def delivered : ProtoEvent → Option ProtoEvent
  | .leaveAt along =>
    if along.isFinite then some (.leaveAt (along.clamp .zero .one)) else none
  | .enterAt side along =>
    if along.isFinite then some (.enterAt side (along.clamp .zero .one)) else none
  | .handoff target side =>
    (fromUtf8? ((utf8 target).take maxHandoffTarget)).map (.handoff · side)
  | .enterVia side via =>
    (fromUtf8? ((utf8 via).take maxHandoffTarget)).map (.enterVia side ·)
  | .clipboardTransferCancel transferId fileId reason =>
    some (.clipboardTransferCancel transferId (fileId.filter (· ≠ 0)) reason)
  | .clipboardTransferProgress transferId fileId completed total =>
    if fileId ≠ 0 ∧ total.toNat ≤ maxClipboardSize then
      some (.clipboardTransferProgress transferId fileId completed total)
    else
      none
  | event => some event

/-- The kinds whose data runs to the end of the datagram. -/
def TailData : EventType → Bool
  | .clipboardChunk | .clipboardFileChunk | .manualFileChunk | .historyRecordChunk
  | .profileChunk => true
  | _ => false

end Syntra.Proto
