import Syntra.ByteFormat.Chunks
import Syntra.Proto.Codec
import Syntra.Tables.Association

/-!
# Live clipboard

A copied text or image is streamed to a peer as a start and chunks, each a datagram of its own. The
listening task of the peer keeps a buffer per transfer until all chunks have arrived in order. The
start of a transfer drops the buffers of earlier ones from the same peer, and a timer drops those
that stay incomplete for too long. Times are in nanoseconds.
-/

namespace Syntra.ClipboardStream

open ByteFormat Proto Tables

/-- A content that is streamed. -/
inductive ClipboardContent
  | text (text : String)
  | image (width height : UInt32) (rgba : Bytes)
  deriving DecidableEq

/-- What the bytes of a stream are. -/
inductive ClipboardTransferKind
  | text
  | image (width height : UInt32)
  deriving DecidableEq

/-- A content as far as its chunks have come in. -/
structure ClipboardTransfer where
  kind : ClipboardTransferKind
  next : UInt32
  chunks : UInt32
  totalLen : ℕ
  bytes : Bytes
  started : ℕ

namespace ClipboardTransfer

def new (now : ℕ) (kind : ClipboardTransferKind) (totalLen : ℕ) (chunks : UInt32) :
    ClipboardTransfer where
  kind := kind
  next := 0
  chunks := chunks
  totalLen := totalLen
  bytes := []
  started := now

def content (transfer : ClipboardTransfer) : Option ClipboardContent :=
  match transfer.kind with
  | .text => (fromUtf8? transfer.bytes).map .text
  | .image width height => some (.image width height transfer.bytes)

def accept (transfer : ClipboardTransfer) (index : UInt32) (data : Bytes) :
    Option ClipboardTransfer × Option ClipboardContent :=
  if index = transfer.next ∧ data.length ≤ maxClipboardChunkSize ∧
      transfer.bytes.length + data.length ≤ transfer.totalLen then
    -- the counter wraps in a release build
    let extended :=
      { transfer with bytes := transfer.bytes ++ data, next := transfer.next + 1 }
    if extended.next = extended.chunks then
      if extended.bytes.length = extended.totalLen then
        (none, extended.content)
      else
        (none, none)
    else
      (some extended, none)
  else
    (none, none)

end ClipboardTransfer

def clipboardTransferTimeout : ℕ := 30 * 10 ^ 9

section Receiver

variable {Address : Type} [DecidableEq Address]

abbrev ClipboardTransfers (Address : Type) := Table (Address × UInt64) ClipboardTransfer

variable (transfers : ClipboardTransfers Address)

def startClipboardTransfer (addr : Address) (transferId : UInt64)
    (transfer : ClipboardTransfer) : ClipboardTransfers Address :=
  (transfers.retain fun key _ => key.1 ≠ addr).insert (addr, transferId) transfer

def receiveChunk (addr : Address) (transferId : UInt64) (index : UInt32) (data : Bytes) :
    ClipboardTransfers Address × Option ClipboardContent :=
  match transfers.lookup (addr, transferId) with
  | none => (transfers, none)
  | some transfer =>
    match transfer.accept index data with
    | (some kept, content) => (transfers.insert (addr, transferId) kept, content)
    | (none, content) => (transfers.erase (addr, transferId), content)

/-- The events of the live clipboard, as the listening task handles them. -/
def receiveEvent (now : ℕ) (addr : Address) :
    ProtoEvent → ClipboardTransfers Address × Option ClipboardContent
  | .clipboardStart transferId totalLen chunks =>
    (startClipboardTransfer transfers addr transferId (.new now .text totalLen.toNat chunks), none)
  | .clipboardImageStart transferId width height totalLen chunks =>
    (startClipboardTransfer transfers addr transferId
      (.new now (.image width height) totalLen.toNat chunks), none)
  | .clipboardChunk transferId index data => receiveChunk transfers addr transferId index data
  | _ => (transfers, none)

def expire (now : ℕ) : ClipboardTransfers Address :=
  transfers.retain fun _ transfer => now - transfer.started < clipboardTransferTimeout

/-- What happens at a listening task. -/
inductive Input (Address : Type)
  | datagram (addr : Address) (bytes : Bytes)
  | tick

/-- A step with the time at which it is made, and the content handed on with the peer that it
comes from. A datagram that cannot be decoded is ignored. -/
def step : ℕ × Input Address → ClipboardTransfers Address × Option (Address × ClipboardContent)
  | (now, .datagram addr bytes) =>
    match decode bytes with
    | .ok event =>
      let received := receiveEvent transfers now addr event
      (received.1, received.2.map (addr, ·))
    | .error _ => (transfers, none)
  | (now, .tick) => (expire transfers now, none)

def run (transfers : ClipboardTransfers Address) :
    List (ℕ × Input Address) → ClipboardTransfers Address × List (Address × ClipboardContent)
  | [] => (transfers, [])
  | arrival :: arrivals =>
    let first := step transfers arrival
    let rest := run first.1 arrivals
    (rest.1, first.2.toList ++ rest.2)

end Receiver

/-- Sending stops at the first event that cannot be encoded. -/
def sendAll : List ProtoEvent → List Bytes
  | [] => []
  | event :: events =>
    match encode event with
    | .ok datagram => datagram :: sendAll events
    | .error _ => []

def startEvent (transferId : UInt64) (totalLen chunks : UInt32) :
    Option (UInt32 × UInt32) → ProtoEvent
  | some (width, height) => .clipboardImageStart transferId width height totalLen chunks
  | none => .clipboardStart transferId totalLen chunks

def chunkEvent (transferId : UInt64) (index : ℕ) (data : Bytes) : ProtoEvent :=
  .clipboardChunk transferId (UInt32.ofNat index) data

/-- The datagrams that a payload is sent as. -/
def streamClipboard (transferId : UInt64) (data : Bytes)
    (imageDimensions : Option (UInt32 × UInt32)) : List Bytes :=
  if data.length < 2 ^ 32 then
    let totalLen := UInt32.ofNat data.length
    let chunks := UInt32.ofNat (divCeil totalLen.toNat maxClipboardChunkSize)
    sendAll (startEvent transferId totalLen chunks imageDimensions ::
      (ByteFormat.chunks maxClipboardChunkSize data).mapIdx (chunkEvent transferId))
  else
    []

namespace ClipboardContent

def data : ClipboardContent → Bytes
  | .text copied => utf8 copied
  | .image _ _ rgba => rgba

def imageDimensions : ClipboardContent → Option (UInt32 × UInt32)
  | .text _ => none
  | .image width height _ => some (width, height)

def kind : ClipboardContent → ClipboardTransferKind
  | .text _ => .text
  | .image width height _ => .image width height

end ClipboardContent

end Syntra.ClipboardStream
