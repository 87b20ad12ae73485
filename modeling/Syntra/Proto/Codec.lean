import Syntra.Proto.Validate

/-!
# The message codec

`ProtoEvent::encode` and `ProtoEvent::decode`, arm by arm. The two are written separately, as in
the source: field order, widths and checks are pinned by hand on each side.
-/

namespace Syntra.Proto

open ByteFormat

def encodeHistoryBoundaryEntries (buf : Bytes) : List (String × UInt64) → Except ProtocolError Bytes
  | [] => .ok buf
  | (deviceId, sequence) :: boundary => do
    let name := utf8 deviceId
    if name.isEmpty || name.length > maxHistoryDeviceIdSize then
      throw (.invalidHistory "invalid boundary device id")
    encodeHistoryBoundaryEntries (putU64 (putText buf deviceId) sequence) boundary

def encodeHistoryBoundary (buf : Bytes) (boundary : List (String × UInt64)) :
    Except ProtocolError Bytes := do
  if boundary.length > maxHistoryBoundaryEntries then
    throw (.invalidHistory "too many boundary entries")
  let buf ← encodeHistoryBoundaryEntries (putU16 buf (UInt16.ofNat boundary.length)) boundary
  if buf.length > maxDatagramSize then
    throw (.tooLarge buf.length maxDatagramSize)
  pure buf

def encodeManifestEntries (buf : Bytes) (previous total : UInt64) :
    List ClipboardManifestEntry → Except ProtocolError Bytes
  | [] => .ok buf
  | entry :: entries => do
    validatePath entry.path
    if entry.fileId = 0 ∨ entry.fileId ≤ previous then
      throw (.invalidManifest "file ids must increase")
    let total ← okOr (checkedAdd total entry.size) .lengthOverflow
    if total.toNat > maxClipboardSize then
      throw (.tooLarge usizeMax maxClipboardSize)
    if entry.kind = .directory ∧ entry.size ≠ 0 then
      throw (.invalidManifest "directory size")
    let buf := push (putU64 buf entry.fileId) entry.kind.toByte
    let buf := putText buf entry.path
    encodeManifestEntries (putU64 buf entry.size) entry.fileId total entries

def encodeManifest (buf : Bytes) (transferId : UInt64)
    (entries : List ClipboardManifestEntry) : Except ProtocolError Bytes := do
  if entries.isEmpty || entries.length > maxClipboardManifestEntries then
    throw (.invalidManifest "entry count")
  let buf := putU64 buf transferId
  let buf := putU32 buf (UInt32.ofNat entries.length)
  let buf ← encodeManifestEntries buf 0 0 entries
  if buf.length > maxDatagramSize then
    throw (.tooLarge buf.length maxDatagramSize)
  pure buf

/-- The arms of `Handoff` and `EnterVia`, which share their layout. -/
def encodeHandoff (buf : Bytes) (side : Position) (target : String) : Bytes :=
  let bytes := utf8 target
  let buf := push buf side.toByte
  let buf := putU16 buf (UInt16.ofNat (min bytes.length maxHandoffTarget))
  extendFromSlice buf (bytes.take (min bytes.length maxHandoffTarget))

def validateManualFileError : Option String → Except ProtocolError Unit
  | some text =>
    if (utf8 text).length > maxManualFileErrorSize then
      .error (.tooLarge (utf8 text).length maxManualFileErrorSize)
    else
      .ok ()
  | none => .ok ()

/-- The match of `encode`: the fields of an event, appended after its tag. -/
def encodeBody (buf : Bytes) : ProtoEvent → Except ProtocolError Bytes
  | .manualFileOffer transferId fileName size => do
    if transferId = 0 then
      throw (.invalidFileChunk "zero transfer id")
    validateManualFileName fileName
    pure (putU64 (putText (putU64 buf transferId) fileName) size)
  | .manualFileDecision transferId decision => do
    if transferId = 0 then
      throw (.invalidFileChunk "zero transfer id")
    pure (push (putU64 buf transferId) decision.toByte)
  | .manualFileRequest transferId offset length => do
    if transferId = 0 ∨ ¬(1 ≤ length.toNat ∧ length.toNat ≤ maxManualFileChunkSize) then
      throw (.invalidFileChunk "invalid manual request")
    pure (putU32 (putU64 (putU64 buf transferId) offset) length)
  | .manualFileChunk transferId offset data => do
    if transferId = 0 ∨ data.isEmpty ∨ data.length > maxManualFileChunkSize then
      throw (.invalidFileChunk "invalid manual chunk")
    pure (extendFromSlice (putU64 (putU64 buf transferId) offset) data)
  | .manualFileComplete transferId sha256 => do
    if transferId = 0 then
      throw (.invalidFileChunk "zero transfer id")
    pure (extendFromSlice (putU64 buf transferId) sha256.toList)
  | .manualFileResult transferId success error => do
    if transferId = 0 then
      throw (.invalidFileChunk "zero transfer id")
    validateManualFileError error
    let buf := push (putU64 buf transferId) success.toUInt8
    putOptionalString buf error
  | .manualFileCancel transferId => do
    if transferId = 0 then
      throw (.invalidFileChunk "zero transfer id")
    pure (putU64 buf transferId)
  | .input (.pointer (.motion time dx dy)) =>
    pure (putF64 (putF64 (putU32 buf time) dx) dy)
  | .input (.pointer (.button time button state)) =>
    pure (putU32 (putU32 (putU32 buf time) button) state)
  | .input (.pointer (.axis time axis value)) =>
    pure (putF64 (push (putU32 buf time) axis) value)
  | .input (.pointer (.axisDiscrete120 axis value)) =>
    pure (putI32 (push buf axis) value)
  | .input (.keyboard (.key time key state)) =>
    pure (push (putU32 (putU32 buf time) key) state)
  | .input (.keyboard (.modifiers depressed latched locked group)) =>
    pure (putU32 (putU32 (putU32 (putU32 buf depressed) latched) locked) group)
  | .ping => pure buf
  | .profileChanged => pure buf
  | .pong alive => pure (push buf alive.toUInt8)
  | .enter position => pure (push buf position.toByte)
  | .leave serial => pure (putU32 buf serial)
  | .ack serial => pure (putU32 buf serial)
  | .inputCapabilities bits => pure (putU32 buf bits)
  | .leaveAt along => pure (putU32 buf along.bits)
  | .enterAt side along => pure (putU32 (push buf side.toByte) along.bits)
  | .handoff target side => pure (encodeHandoff buf side target)
  | .enterVia side via => pure (encodeHandoff buf side via)
  | .hello commit => pure (extendFromSlice buf commit.toList)
  | .profileRequest requestId => do
    if requestId = 0 then
      throw (.invalidProfile "zero request id")
    pure (putU64 buf requestId)
  | .profileStart requestId width height totalLen chunks displayName => do
    let name := utf8 displayName
    if requestId = 0 ∨ invalidProfileMetadata name.length width height totalLen chunks then
      throw (.invalidProfile "invalid profile metadata")
    let buf := putU64 buf requestId
    let buf := putU32 (putU32 (putU32 (putU32 buf width) height) totalLen) chunks
    let buf := push buf (UInt8.ofNat name.length)
    pure (extendFromSlice buf name)
  | .profileChunk requestId index data => do
    if requestId = 0 ∨ data.isEmpty ∨ data.length > maxProfileChunkSize then
      throw (.tooLarge (profileChunkHeaderSize + data.length) safeDatagramSize)
    pure (extendFromSlice (putU32 (putU64 buf requestId) index) data)
  | .clipboardStart transferId totalLen chunks => do
    validateClipboardStart totalLen chunks
    pure (putU32 (putU32 (putU64 buf transferId) totalLen) chunks)
  | .clipboardImageStart transferId width height totalLen chunks => do
    validateClipboardImage width height totalLen chunks
    let buf := putU64 buf transferId
    pure (putU32 (putU32 (putU32 (putU32 buf width) height) totalLen) chunks)
  | .clipboardChunk transferId index data => do
    let actual := clipboardChunkHeaderSize + data.length
    if actual > maxDatagramSize then
      throw (.tooLarge actual maxDatagramSize)
    pure (extendFromSlice (putU32 (putU64 buf transferId) index) data)
  | .clipboardCapabilities c =>
    pure (push (push (push buf c.text.toUInt8) c.image.toUInt8) c.files.toUInt8)
  | .clipboardManifest transferId entries => encodeManifest buf transferId entries
  | .clipboardFileRequest transferId fileId requestId offset length => do
    validateIds fileId requestId
    validateRequest offset length
    let buf := putU64 (putU64 (putU64 buf transferId) fileId) requestId
    pure (putU64 (putU64 buf offset) length)
  | .clipboardFileChunk transferId fileId requestId offset data => do
    validateIds fileId requestId
    validateFileChunk offset data.length
    let buf := putU64 (putU64 (putU64 buf transferId) fileId) requestId
    pure (extendFromSlice (putU64 buf offset) data)
  | .clipboardFileComplete transferId fileId requestId size digest => do
    validateIds fileId requestId
    validateFilePosition size
    let buf := putU64 (putU64 (putU64 buf transferId) fileId) requestId
    pure (extendFromSlice (putU64 buf size) digest.toList)
  | .clipboardTransferCancel transferId fileId reason =>
    pure (push (putU64 (putU64 buf transferId) (fileId.getD 0)) reason.toByte)
  | .clipboardTransferProgress transferId fileId completed total => do
    if completed > total then
      throw (.invalidProgress completed total)
    pure (putU64 (putU64 (putU64 (putU64 buf transferId) fileId) completed) total)
  | .historySyncRequest requestId offset => pure (putU64 (putU64 buf requestId) offset)
  | .historyRecordStart requestId recordId totalLen chunks => do
    validateHistoryStart totalLen chunks
    pure (putU32 (putU32 (putU64 (putU64 buf requestId) recordId) totalLen) chunks)
  | .historyRecordChunk requestId recordId index data => do
    if data.isEmpty ∨ data.length > maxHistoryChunkSize then
      throw (.tooLarge data.length maxHistoryChunkSize)
    pure (extendFromSlice (putU32 (putU64 (putU64 buf requestId) recordId) index) data)
  | .historySyncPageEnd requestId nextOffset =>
    pure (putOptionalU64 (putU64 buf requestId) nextOffset)
  | .historyClearBoundaryRequest operationId =>
    pure (extendFromSlice buf operationId.toList)
  | .historyClearBoundary operationId boundary =>
    encodeHistoryBoundary (extendFromSlice buf operationId.toList) boundary
  | .historyClearApply operationId boundary =>
    encodeHistoryBoundary (extendFromSlice buf operationId.toList) boundary
  | .historyClearAck operationId affected error =>
    putOptionalString (putU64 (extendFromSlice buf operationId.toList) affected) error

def encode (event : ProtoEvent) : Except ProtocolError Bytes := do
  let buf ← encodeBody (push [] event.eventType.toByte) event
  if buf.length > maxDatagramSize then
    throw (.tooLarge buf.length maxDatagramSize)
  pure buf

/-- `get_u8(buf)?.try_into()?` at a `Position`. -/
def getPosition : WireReader Position :=
  getCode Position.ofByte? .invalidPosition

/-- `EventType::try_from(get_u8(buf)?)?`. -/
def getEventType : WireReader EventType :=
  getCode EventType.ofByte? .invalidEventId

def getEntryKind : WireReader ClipboardEntryKind :=
  getCode ClipboardEntryKind.ofByte? .invalidBoolean

def getDecision : WireReader ManualDecision :=
  getCode ManualDecision.ofByte? (fun _ => .invalidFileChunk "invalid manual decision")

def getCancelReason : WireReader ClipboardCancelReason :=
  getCode ClipboardCancelReason.ofByte? .invalidCancelReason

def getNonzeroFileId : WireReader UInt64 :=
  getNonzero (.invalidFileChunk "zero file id")

def getNonzeroRequestId : WireReader UInt64 :=
  getNonzero (.invalidFileChunk "zero request id")

def getNonzeroTransferId : WireReader UInt64 :=
  getNonzero (.invalidFileChunk "zero transfer id")

def decodeHistoryBoundaryEntries : ℕ → WireReader (List (String × UInt64))
  | 0 => pure []
  | count + 1 => do
    let deviceId ← getText (fun length => length = 0 || length > maxHistoryDeviceIdSize)
      (fun _ => .invalidHistory "invalid boundary device id")
      (.invalidHistory "non-UTF-8 boundary device id")
    let sequence ← getU64
    let boundary ← decodeHistoryBoundaryEntries count
    pure ((deviceId, sequence) :: boundary)

def decodeHistoryBoundary : WireReader (List (String × UInt64)) := do
  let count ← getU16
  if count.toNat > maxHistoryBoundaryEntries then
    throw (.invalidHistory "too many boundary entries")
  decodeHistoryBoundaryEntries count.toNat

def decodeManifestEntries : ℕ → (previous total : UInt64) → WireReader (List ClipboardManifestEntry)
  | 0, _, _ => pure []
  | count + 1, previous, total => do
    let fileId ← getU64
    if fileId = 0 ∨ fileId ≤ previous then
      throw (.invalidManifest "file ids must increase")
    let kind ← getEntryKind
    let path ← getText (fun length => length > maxClipboardPathSize)
      (fun length => .tooLarge length maxClipboardPathSize) (.invalidPath "non-UTF-8 path")
    validatePath path
    let size ← getU64
    if kind = .directory ∧ size ≠ 0 then
      throw (.invalidManifest "directory size")
    let total ← okOr (checkedAdd total size) ProtocolError.lengthOverflow
    validateFilePosition total
    let entries ← decodeManifestEntries count fileId total
    pure ({ fileId, path, kind, size } :: entries)

def decodeManifest : WireReader ProtoEvent := do
  let transferId ← getU64
  let count ← getU32
  if count.toNat = 0 ∨ count.toNat > maxClipboardManifestEntries then
    throw (.invalidManifest "entry count")
  let entries ← decodeManifestEntries count.toNat 0 0
  pure (.clipboardManifest transferId entries)

/-- An edge fraction: finite, and brought into `[0, 1]`. -/
def getAlong : WireReader F32 := do
  let bits ← getU32
  let along : F32 := ⟨bits⟩
  if along.isFinite then pure (along.clamp .zero .one) else throw .truncated

def getHandoff : WireReader (Position × String) := do
  let side ← getPosition
  let target ← getText (fun length => length > maxHandoffTarget) (fun _ => .truncated) .truncated
  pure (side, target)

/-- The match of `decode`: the fields after the tag. The tail-data arms take all that is left,
after which the check for trailing bytes, which two of them skip, has nothing to find. -/
def decodeBody : EventType → WireReader ProtoEvent
  | .pointerMotion => do
    let time ← getU32
    let dx ← getF64
    let dy ← getF64
    pure (.input (.pointer (.motion time dx dy)))
  | .pointerButton => do
    let time ← getU32
    let button ← getU32
    let state ← getU32
    pure (.input (.pointer (.button time button state)))
  | .pointerAxis => do
    let time ← getU32
    let axis ← getU8
    let value ← getF64
    pure (.input (.pointer (.axis time axis value)))
  | .pointerAxisValue120 => do
    let axis ← getU8
    let value ← getI32
    pure (.input (.pointer (.axisDiscrete120 axis value)))
  | .keyboardKey => do
    let time ← getU32
    let key ← getU32
    let state ← getU8
    pure (.input (.keyboard (.key time key state)))
  | .keyboardModifiers => do
    let depressed ← getU32
    let latched ← getU32
    let locked ← getU32
    let group ← getU32
    pure (.input (.keyboard (.modifiers depressed latched locked group)))
  | .ping => pure .ping
  | .pong => do
    let alive ← getU8
    pure (.pong (alive != 0))
  | .enter => do
    let position ← getPosition
    pure (.enter position)
  | .leave => do
    let serial ← getU32
    pure (.leave serial)
  | .handoff => do
    let (side, target) ← getHandoff
    pure (.handoff target side)
  | .inputCapabilities => do
    let bits ← getU32
    pure (.inputCapabilities bits)
  | .leaveAt => do
    let along ← getAlong
    pure (.leaveAt along)
  | .enterAt => do
    let side ← getPosition
    let along ← getAlong
    pure (.enterAt side along)
  | .enterVia => do
    let (side, via) ← getHandoff
    pure (.enterVia side via)
  | .ack => do
    let serial ← getU32
    pure (.ack serial)
  | .hello => do
    let commit ← takeArray 8
    pure (.hello commit)
  | .profileChanged => pure .profileChanged
  | .profileRequest => do
    let requestId ← getNonzeroRequestId
    pure (.profileRequest requestId)
  | .profileStart => do
    let requestId ← getNonzeroRequestId
    let width ← getU32
    let height ← getU32
    let totalLen ← getU32
    let chunks ← getU32
    let nameLen ← getU8
    if invalidProfileMetadata nameLen.toNat width height totalLen chunks then
      throw (.invalidProfile "invalid profile metadata")
    let displayName ← takeString nameLen.toNat (.invalidProfile "profile name is not UTF-8")
    pure (.profileStart requestId width height totalLen chunks displayName)
  | .profileChunk => do
    let requestId ← getNonzeroRequestId
    let index ← getU32
    let length ← remaining
    if length = 0 ∨ length > maxProfileChunkSize then
      throw (.tooLarge (profileChunkHeaderSize + length) safeDatagramSize)
    let data ← takeAll
    pure (.profileChunk requestId index data)
  | .clipboardStart => do
    let transferId ← getU64
    let totalLen ← getU32
    let chunks ← getU32
    validateClipboardStart totalLen chunks
    pure (.clipboardStart transferId totalLen chunks)
  | .clipboardImageStart => do
    let transferId ← getU64
    let width ← getU32
    let height ← getU32
    let totalLen ← getU32
    let chunks ← getU32
    validateClipboardImage width height totalLen chunks
    pure (.clipboardImageStart transferId width height totalLen chunks)
  | .clipboardChunk => do
    let transferId ← getU64
    let index ← getU32
    let data ← takeAll
    pure (.clipboardChunk transferId index data)
  | .clipboardCapabilities => do
    let text ← getBool
    let image ← getBool
    let files ← getBool
    pure (.clipboardCapabilities { text, image, files })
  | .clipboardManifest => decodeManifest
  | .clipboardFileRequest => do
    let transferId ← getU64
    let fileId ← getNonzeroFileId
    let requestId ← getNonzeroRequestId
    let offset ← getU64
    let length ← getU64
    validateRequest offset length
    pure (.clipboardFileRequest transferId fileId requestId offset length)
  | .clipboardFileChunk => do
    let transferId ← getU64
    let fileId ← getNonzeroFileId
    let requestId ← getNonzeroRequestId
    let offset ← getU64
    let length ← remaining
    validateFileChunk offset length
    let data ← takeAll
    pure (.clipboardFileChunk transferId fileId requestId offset data)
  | .clipboardFileComplete => do
    let transferId ← getU64
    let fileId ← getNonzeroFileId
    let requestId ← getNonzeroRequestId
    let size ← getU64
    validateFilePosition size
    let digest ← takeArray 32
    pure (.clipboardFileComplete transferId fileId requestId size digest)
  | .clipboardTransferCancel => do
    let transferId ← getU64
    let fileId ← getU64
    let reason ← getCancelReason
    pure (.clipboardTransferCancel transferId (if fileId = 0 then none else some fileId) reason)
  | .clipboardTransferProgress => do
    let transferId ← getU64
    let fileId ← getNonzeroFileId
    let completed ← getU64
    let total ← getU64
    validateProgress completed total
    pure (.clipboardTransferProgress transferId fileId completed total)
  | .historySyncRequest => do
    let requestId ← getU64
    let offset ← getU64
    pure (.historySyncRequest requestId offset)
  | .historyRecordStart => do
    let requestId ← getU64
    let recordId ← getU64
    let totalLen ← getU32
    let chunks ← getU32
    validateHistoryStart totalLen chunks
    pure (.historyRecordStart requestId recordId totalLen chunks)
  | .historyRecordChunk => do
    let requestId ← getU64
    let recordId ← getU64
    let index ← getU32
    let length ← remaining
    if length = 0 ∨ length > maxHistoryChunkSize then
      throw (.tooLarge length maxHistoryChunkSize)
    let data ← takeAll
    pure (.historyRecordChunk requestId recordId index data)
  | .manualFileOffer => do
    let transferId ← getNonzeroTransferId
    let name ← getText (fun length => length = 0 || length > maxManualFileNameSize)
      (fun _ => .invalidFileChunk "invalid manual file name")
      (.invalidFileChunk "invalid manual file name")
    validateManualFileName name
    let size ← getU64
    pure (.manualFileOffer transferId name size)
  | .manualFileDecision => do
    let transferId ← getNonzeroTransferId
    let decision ← getDecision
    pure (.manualFileDecision transferId decision)
  | .manualFileRequest => do
    let transferId ← getU64
    let offset ← getU64
    let length ← getU32
    if transferId = 0 ∨ ¬(1 ≤ length.toNat ∧ length.toNat ≤ maxManualFileChunkSize) then
      throw (.invalidFileChunk "invalid manual request")
    pure (.manualFileRequest transferId offset length)
  | .manualFileChunk => do
    let transferId ← getU64
    let offset ← getU64
    let length ← remaining
    if transferId = 0 ∨ length = 0 ∨ length > maxManualFileChunkSize then
      throw (.invalidFileChunk "invalid manual chunk")
    let data ← takeAll
    pure (.manualFileChunk transferId offset data)
  | .manualFileComplete => do
    let transferId ← getNonzeroTransferId
    let sha256 ← takeArray 32
    pure (.manualFileComplete transferId sha256)
  | .manualFileResult => do
    let transferId ← getNonzeroTransferId
    let success ← getBool
    let error ← getOptionalString
    validateManualFileError error
    pure (.manualFileResult transferId success error)
  | .manualFileCancel => do
    let transferId ← getNonzeroTransferId
    pure (.manualFileCancel transferId)
  | .historySyncPageEnd => do
    let requestId ← getU64
    let nextOffset ← getOptionalU64
    pure (.historySyncPageEnd requestId nextOffset)
  | .historyClearBoundaryRequest => do
    let operationId ← takeArray 16
    pure (.historyClearBoundaryRequest operationId)
  | .historyClearBoundary => do
    let operationId ← takeArray 16
    let boundary ← decodeHistoryBoundary
    pure (.historyClearBoundary operationId boundary)
  | .historyClearApply => do
    let operationId ← takeArray 16
    let boundary ← decodeHistoryBoundary
    pure (.historyClearApply operationId boundary)
  | .historyClearAck => do
    let operationId ← takeArray 16
    let affected ← getU64
    let error ← getOptionalString
    pure (.historyClearAck operationId affected error)

def decodeEvent : WireReader ProtoEvent := do
  let eventType ← getEventType
  decodeBody eventType

def decode (buf : Bytes) : Except ProtocolError ProtoEvent :=
  if buf.length > maxDatagramSize then
    .error (.tooLarge buf.length maxDatagramSize)
  else
    match decodeEvent buf with
    | .error error => .error error
    | .ok (event, rest) =>
      if rest.isEmpty then .ok event else .error (.trailingBytes rest.length)

end Syntra.Proto
