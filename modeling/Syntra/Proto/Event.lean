import Mathlib.Data.Vector.Basic
import Syntra.ByteFormat.BigEndian

/-!
# The message set of the peer protocol

The data types of `syntra-proto`: the messages two devices exchange, their wire tags, the protocol
limits and the errors of the codec. Machine integers keep their widths. A float is its bit pattern,
which is what travels on the wire; the few operations on an edge fraction are the IEEE ones on that
pattern.
-/

namespace Syntra.Proto

open ByteFormat

/-- A double, as its bit pattern. -/
structure F64 where
  bits : UInt64
  deriving DecidableEq, Repr

/-- A single-precision float, as its bit pattern. -/
structure F32 where
  bits : UInt32
  deriving DecidableEq, Repr

namespace F32

/-- The pattern without its sign bit; it orders the non-negative floats. -/
def magnitude (value : F32) : ℕ :=
  value.bits.toNat % 2 ^ 31

def isNegative (value : F32) : Bool :=
  2 ^ 31 ≤ value.bits.toNat

def isFinite (value : F32) : Bool :=
  value.magnitude < 0x7f800000

def isNaN (value : F32) : Bool :=
  0x7f800000 < value.magnitude

/-- The position of a number on the real line; both zeros are at the origin. -/
def rank (value : F32) : ℤ :=
  if value.isNegative then -value.magnitude else value.magnitude

/-- IEEE `<`: false as soon as one side is not a number. -/
def lt (left right : F32) : Bool :=
  !left.isNaN && !right.isNaN && left.rank < right.rank

/-- IEEE `≤`. -/
def le (left right : F32) : Bool :=
  !left.isNaN && !right.isNaN && left.rank ≤ right.rank

/-- `0.0`. -/
def zero : F32 := ⟨0⟩

/-- `1.0`. -/
def one : F32 := ⟨0x3f800000⟩

/-- `f32::clamp`. -/
def clamp (value low high : F32) : F32 :=
  let value := if value.lt low then low else value
  if high.lt value then high else value

end F32

/-- Largest datagram accepted by the application protocol. -/
def maxDatagramSize : ℕ := 16 * 1024

/-- Largest clipboard payload accepted by the protocol. -/
def maxClipboardSize : ℕ := 64 * 1024 * 1024

def clipboardChunkHeaderSize : ℕ := 1 + 8 + 4

def maxClipboardChunkSize : ℕ := maxDatagramSize - clipboardChunkHeaderSize

def maxClipboardPathSize : ℕ := 1024

def maxClipboardManifestEntries : ℕ := 256

def clipboardFileChunkHeaderSize : ℕ := 1 + 8 + 8 + 8 + 8

/-- What survives a single DTLS datagram on a normal path MTU. -/
def safeDatagramSize : ℕ := 1200

def maxClipboardFileChunkSize : ℕ := safeDatagramSize - clipboardFileChunkHeaderSize

def maxManualFileChunkSize : ℕ := safeDatagramSize - (1 + 8 + 8)

def maxManualFileNameSize : ℕ := 1024

def maxManualFileErrorSize : ℕ := 512

/-- Maximum serialized history record accepted by reconciliation. -/
def maxHistoryRecordSize : ℕ := 48 * 1024 * 1024

def historyChunkHeaderSize : ℕ := 1 + 8 + 8 + 4

def maxHistoryChunkSize : ℕ := safeDatagramSize - historyChunkHeaderSize

def maxHistoryBoundaryEntries : ℕ := 100

def maxHistoryDeviceIdSize : ℕ := 128

def maxProfileNameSize : ℕ := 128

def maxProfileSize : ℕ := 128 * 128 * 4

def profileChunkHeaderSize : ℕ := 1 + 8 + 4

def maxProfileChunkSize : ℕ := safeDatagramSize - profileChunkHeaderSize

/-- A certificate fingerprint is 95 characters; anything longer is invalid. -/
def maxHandoffTarget : ℕ := 128

/-- `usize::MAX` on the 64-bit targets. -/
def usizeMax : ℕ := 2 ^ 64 - 1

/-- `u64::MAX`. -/
def u64Max : ℕ := 2 ^ 64 - 1

/-- The answer to the offer of a file. -/
inductive ManualDecision where
  | pending
  | accepted
  | declined
  deriving DecidableEq, Repr

/-- What a manifest entry is. -/
inductive ClipboardEntryKind where
  | file
  | directory
  deriving DecidableEq, Repr

/-- A file or directory of a manifest. -/
structure ClipboardManifestEntry where
  fileId : UInt64
  path : String
  kind : ClipboardEntryKind
  size : UInt64
  deriving DecidableEq, Repr

/-- Which contents a device takes. -/
structure ClipboardCapabilities where
  text : Bool
  image : Bool
  files : Bool
  deriving DecidableEq, Repr

/-- Why a transfer was cancelled. -/
inductive ClipboardCancelReason where
  | user
  | ioError
  | protocol
  deriving DecidableEq, Repr

/-- An edge of the screen. -/
inductive Position where
  | left
  | right
  | top
  | bottom
  deriving DecidableEq, Repr

/-- What a pointer does. -/
inductive PointerEvent where
  | motion (time : UInt32) (dx dy : F64)
  | button (time button state : UInt32)
  | axis (time : UInt32) (axis : UInt8) (value : F64)
  | axisDiscrete120 (axis : UInt8) (value : Int32)
  deriving DecidableEq, Repr

/-- What a keyboard does. -/
inductive KeyboardEvent where
  | key (time key : UInt32) (state : UInt8)
  | modifiers (depressed latched locked group : UInt32)
  deriving DecidableEq, Repr

/-- What is emulated on the other device. -/
inductive InputEvent where
  | pointer (event : PointerEvent)
  | keyboard (event : KeyboardEvent)
  deriving DecidableEq, Repr

/-- A fixed-size byte array, `[u8; size]`. -/
abbrev ByteVec (size : ℕ) := List.Vector UInt8 size

abbrev Digest := ByteVec 32

def abcDigest : Digest :=
  ⟨[0xba, 0x78, 0x16, 0xbf, 0x8f, 0x01, 0xcf, 0xea, 0x41, 0x41, 0x40, 0xde, 0x5d, 0xae, 0x22, 0x23,
    0xb0, 0x03, 0x61, 0xa3, 0x96, 0x17, 0x7a, 0x9c, 0xb4, 0x10, 0xff, 0x61, 0xf2, 0x00, 0x15, 0xad],
    rfl⟩

/-- The messages between devices. -/
inductive ProtoEvent where
  | enter (position : Position)
  | leave (serial : UInt32)
  | inputCapabilities (bits : UInt32)
  | leaveAt (along : F32)
  | handoff (target : String) (side : Position)
  | enterVia (side : Position) (via : String)
  | enterAt (side : Position) (along : F32)
  | ack (serial : UInt32)
  | input (event : InputEvent)
  | ping
  | pong (alive : Bool)
  | hello (commit : ByteVec 8)
  | profileChanged
  | profileRequest (requestId : UInt64)
  | profileStart (requestId : UInt64) (width height totalLen chunks : UInt32) (displayName : String)
  | profileChunk (requestId : UInt64) (index : UInt32) (data : Bytes)
  | clipboardStart (transferId : UInt64) (totalLen chunks : UInt32)
  | clipboardImageStart (transferId : UInt64) (width height totalLen chunks : UInt32)
  | clipboardChunk (transferId : UInt64) (index : UInt32) (data : Bytes)
  | clipboardCapabilities (capabilities : ClipboardCapabilities)
  | clipboardManifest (transferId : UInt64) (entries : List ClipboardManifestEntry)
  | clipboardFileRequest (transferId fileId requestId offset length : UInt64)
  | clipboardFileChunk (transferId fileId requestId offset : UInt64) (data : Bytes)
  | clipboardFileComplete (transferId fileId requestId size : UInt64) (digest : Digest)
  | clipboardTransferCancel (transferId : UInt64) (fileId : Option UInt64)
      (reason : ClipboardCancelReason)
  | clipboardTransferProgress (transferId fileId completed total : UInt64)
  | historySyncRequest (requestId offset : UInt64)
  | historyRecordStart (requestId recordId : UInt64) (totalLen chunks : UInt32)
  | historyRecordChunk (requestId recordId : UInt64) (index : UInt32) (data : Bytes)
  | manualFileOffer (transferId : UInt64) (fileName : String) (size : UInt64)
  | manualFileDecision (transferId : UInt64) (decision : ManualDecision)
  | manualFileRequest (transferId offset : UInt64) (length : UInt32)
  | manualFileChunk (transferId offset : UInt64) (data : Bytes)
  | manualFileComplete (transferId : UInt64) (sha256 : Digest)
  | manualFileResult (transferId : UInt64) (success : Bool) (error : Option String)
  | manualFileCancel (transferId : UInt64)
  | historySyncPageEnd (requestId : UInt64) (nextOffset : Option UInt64)
  | historyClearBoundaryRequest (operationId : ByteVec 16)
  | historyClearBoundary (operationId : ByteVec 16) (boundary : List (String × UInt64))
  | historyClearApply (operationId : ByteVec 16) (boundary : List (String × UInt64))
  | historyClearAck (operationId : ByteVec 16) (affected : UInt64) (error : Option String)
  deriving DecidableEq

/-- The wire tags, in the order that numbers them. -/
inductive EventType where
  | pointerMotion
  | pointerButton
  | pointerAxis
  | pointerAxisValue120
  | keyboardKey
  | keyboardModifiers
  | ping
  | pong
  | enter
  | leave
  | ack
  | hello
  | clipboardStart
  | clipboardChunk
  | clipboardImageStart
  | clipboardCapabilities
  | clipboardManifest
  | clipboardFileRequest
  | clipboardFileChunk
  | clipboardFileComplete
  | clipboardTransferCancel
  | clipboardTransferProgress
  | historySyncRequest
  | historyRecordStart
  | historyRecordChunk
  | historySyncPageEnd
  | historyClearBoundaryRequest
  | historyClearBoundary
  | historyClearApply
  | historyClearAck
  | profileStart
  | profileChunk
  | profileRequest
  | profileChanged
  | manualFileOffer
  | manualFileDecision
  | manualFileRequest
  | manualFileChunk
  | manualFileComplete
  | manualFileResult
  | manualFileCancel
  | handoff
  | enterVia
  | enterAt
  | inputCapabilities
  | leaveAt
  deriving DecidableEq, Repr

namespace EventType

/-- Every tag, at the index that is its byte on the wire. -/
def all : List EventType :=
  [pointerMotion, pointerButton, pointerAxis, pointerAxisValue120, keyboardKey,
    keyboardModifiers, ping, pong, enter, leave, ack, hello, clipboardStart, clipboardChunk,
    clipboardImageStart, clipboardCapabilities, clipboardManifest, clipboardFileRequest,
    clipboardFileChunk, clipboardFileComplete, clipboardTransferCancel,
    clipboardTransferProgress, historySyncRequest, historyRecordStart, historyRecordChunk,
    historySyncPageEnd, historyClearBoundaryRequest, historyClearBoundary, historyClearApply,
    historyClearAck, profileStart, profileChunk, profileRequest, profileChanged,
    manualFileOffer, manualFileDecision, manualFileRequest, manualFileChunk,
    manualFileComplete, manualFileResult, manualFileCancel, handoff, enterVia, enterAt,
    inputCapabilities, leaveAt]

/-- `EventType as u8`. -/
def toByte (eventType : EventType) : UInt8 :=
  UInt8.ofNat (all.idxOf eventType)

/-- `EventType::try_from(u8)`. -/
def ofByte? (byte : UInt8) : Option EventType :=
  all[byte.toNat]?

end EventType

namespace Position

/-- Every side, at the index that is its byte on the wire. -/
def all : List Position :=
  [left, right, top, bottom]

/-- `Position as u8`. -/
def toByte (position : Position) : UInt8 :=
  UInt8.ofNat (all.idxOf position)

/-- `Position::try_from(u8)`. -/
def ofByte? (byte : UInt8) : Option Position :=
  all[byte.toNat]?

end Position

/-- `true` and `false` as the bytes `1` and `0`; no other byte is a boolean. -/
def boolOfByte? : UInt8 → Option Bool
  | 0 => some false
  | 1 => some true
  | _ => none

def ManualDecision.toByte : ManualDecision → UInt8
  | pending => 0
  | accepted => 1
  | declined => 2

def ManualDecision.ofByte? : UInt8 → Option ManualDecision
  | 0 => some pending
  | 1 => some accepted
  | 2 => some declined
  | _ => none

def ClipboardCancelReason.toByte : ClipboardCancelReason → UInt8
  | user => 0
  | ioError => 1
  | protocol => 2

def ClipboardCancelReason.ofByte? : UInt8 → Option ClipboardCancelReason
  | 0 => some user
  | 1 => some ioError
  | 2 => some protocol
  | _ => none

/-- The byte of an entry kind, `matches!(kind, File) as u8`. -/
def ClipboardEntryKind.toByte : ClipboardEntryKind → UInt8
  | directory => 0
  | file => 1

def ClipboardEntryKind.ofByte? : UInt8 → Option ClipboardEntryKind
  | 0 => some directory
  | 1 => some file
  | _ => none

namespace ProtoEvent

def eventType : ProtoEvent → EventType
  | input (.pointer (.motion ..)) => .pointerMotion
  | input (.pointer (.button ..)) => .pointerButton
  | input (.pointer (.axis ..)) => .pointerAxis
  | input (.pointer (.axisDiscrete120 ..)) => .pointerAxisValue120
  | input (.keyboard (.key ..)) => .keyboardKey
  | input (.keyboard (.modifiers ..)) => .keyboardModifiers
  | ping => .ping
  | pong _ => .pong
  | clipboardCapabilities _ => .clipboardCapabilities
  | clipboardManifest .. => .clipboardManifest
  | clipboardFileRequest .. => .clipboardFileRequest
  | clipboardFileChunk .. => .clipboardFileChunk
  | clipboardFileComplete .. => .clipboardFileComplete
  | clipboardTransferCancel .. => .clipboardTransferCancel
  | clipboardTransferProgress .. => .clipboardTransferProgress
  | historySyncRequest .. => .historySyncRequest
  | historyRecordStart .. => .historyRecordStart
  | historyRecordChunk .. => .historyRecordChunk
  | historySyncPageEnd .. => .historySyncPageEnd
  | historyClearBoundaryRequest _ => .historyClearBoundaryRequest
  | historyClearBoundary .. => .historyClearBoundary
  | historyClearApply .. => .historyClearApply
  | historyClearAck .. => .historyClearAck
  | enter _ => .enter
  | leave _ => .leave
  | handoff .. => .handoff
  | enterVia .. => .enterVia
  | enterAt .. => .enterAt
  | inputCapabilities _ => .inputCapabilities
  | leaveAt _ => .leaveAt
  | ack _ => .ack
  | hello _ => .hello
  | clipboardStart .. => .clipboardStart
  | clipboardImageStart .. => .clipboardImageStart
  | profileRequest _ => .profileRequest
  | profileChanged => .profileChanged
  | profileStart .. => .profileStart
  | profileChunk .. => .profileChunk
  | clipboardChunk .. => .clipboardChunk
  | manualFileOffer .. => .manualFileOffer
  | manualFileDecision .. => .manualFileDecision
  | manualFileRequest .. => .manualFileRequest
  | manualFileChunk .. => .manualFileChunk
  | manualFileComplete .. => .manualFileComplete
  | manualFileResult .. => .manualFileResult
  | manualFileCancel _ => .manualFileCancel

end ProtoEvent

/-- Why an event or a datagram is refused. -/
inductive ProtocolError where
  | invalidEventId (value : UInt8)
  | invalidPosition (value : UInt8)
  | truncated
  | tooLarge (actual limit : ℕ)
  | invalidChunkCount (expected actual : UInt32)
  | invalidPath (path : String)
  | invalidManifest (reason : String)
  | lengthOverflow
  | invalidProgress (completed total : UInt64)
  | trailingBytes (count : ℕ)
  | invalidBoolean (value : UInt8)
  | invalidCancelReason (value : UInt8)
  | invalidFileChunk (reason : String)
  | invalidHistory (reason : String)
  | invalidProfile (reason : String)
  deriving DecidableEq, Repr

variable {byte : UInt8}

/-- A table of at most 256 distinct entries is read back from the index byte of an entry. -/
theorem getElem?_byte_eq_some {α : Type} [DecidableEq α] {table : List α} (nodup : table.Nodup)
    (small : table.length ≤ 256) {entry : α} (listed : entry ∈ table) :
    table[byte.toNat]? = some entry ↔ byte = UInt8.ofNat (table.idxOf entry) := by
  have position_lt : table.idxOf entry < table.length := List.idxOf_lt_length_of_mem listed
  constructor
  · intro named
    rcases List.getElem?_eq_some_iff.mp named with ⟨inRange, atIndex⟩
    rw [← atIndex, nodup.idxOf_getElem _ inRange, UInt8.ofNat_toNat]
  · rintro rfl
    have index : (UInt8.ofNat (table.idxOf entry)).toNat = table.idxOf entry := by
      simp only [UInt8.toNat_ofNat']
      omega
    rw [index, List.getElem?_eq_getElem position_lt, List.getElem_idxOf]

theorem EventType.ofByte?_eq_some {eventType : EventType} :
    EventType.ofByte? byte = some eventType ↔ byte = eventType.toByte :=
  getElem?_byte_eq_some (by decide) (by decide) (by cases eventType <;> decide)

theorem Position.ofByte?_eq_some {position : Position} :
    Position.ofByte? byte = some position ↔ byte = position.toByte :=
  getElem?_byte_eq_some (by decide) (by decide) (by cases position <;> decide)

@[simp]
theorem EventType.toByte_inj {left right : EventType} :
    left.toByte = right.toByte ↔ left = right := by
  rw [← EventType.ofByte?_eq_some, EventType.ofByte?_eq_some.mpr rfl, Option.some_inj]

@[simp]
theorem Position.toByte_inj {side other : Position} :
    side.toByte = other.toByte ↔ side = other := by
  rw [← Position.ofByte?_eq_some, Position.ofByte?_eq_some.mpr rfl, Option.some_inj]

theorem boolOfByte?_eq_some {value : Bool} :
    boolOfByte? byte = some value ↔ byte = value.toUInt8 := by
  constructor
  · intro named
    unfold boolOfByte? at named
    split at named <;> cases named <;> rfl
  · rintro rfl
    cases value <;> rfl

theorem ManualDecision.ofByte?_eq_some {decision : ManualDecision} :
    ManualDecision.ofByte? byte = some decision ↔ byte = decision.toByte := by
  constructor
  · intro named
    unfold ManualDecision.ofByte? at named
    split at named <;> cases named <;> rfl
  · rintro rfl
    cases decision <;> rfl

theorem ClipboardCancelReason.ofByte?_eq_some {reason : ClipboardCancelReason} :
    ClipboardCancelReason.ofByte? byte = some reason ↔ byte = reason.toByte := by
  constructor
  · intro named
    unfold ClipboardCancelReason.ofByte? at named
    split at named <;> cases named <;> rfl
  · rintro rfl
    cases reason <;> rfl

@[simp]
theorem ClipboardCancelReason.toByte_inj {left right : ClipboardCancelReason} :
    left.toByte = right.toByte ↔ left = right := by
  rw [← ClipboardCancelReason.ofByte?_eq_some, ClipboardCancelReason.ofByte?_eq_some.mpr rfl,
    Option.some_inj]

theorem ClipboardEntryKind.ofByte?_eq_some {kind : ClipboardEntryKind} :
    ClipboardEntryKind.ofByte? byte = some kind ↔ byte = kind.toByte := by
  constructor
  · intro named
    unfold ClipboardEntryKind.ofByte? at named
    split at named <;> cases named <;> rfl
  · rintro rfl
    cases kind <;> rfl

end Syntra.Proto
