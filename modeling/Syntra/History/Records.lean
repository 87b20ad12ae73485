import Syntra.ByteFormat.Chunks
import Syntra.Store.Schema

/-!
# Records on the wire

A record of the history is serialized and sent as a start and chunks in datagrams of their own.
`Reassembler` gathers the chunks of the records that have been started, in any order, and gives a
record back when its last chunk is there (`history_sync.rs`).
-/

namespace Syntra.History

open ByteFormat Proto Store Tables

/-- `history_codec`, the options of the serializer. -/
structure HistoryCodec where
  serialize : ImportedHistoryEvent → Except String Bytes
  deserialize : Bytes → Option ImportedHistoryEvent

/-- What was serialized is read back. -/
def HistoryCodec.RoundTrips (codec : HistoryCodec) : Prop :=
  ∀ record bytes, codec.serialize record = .ok bytes → codec.deserialize bytes = some record

/-- A serializer at the records that are listed with their bytes. -/
def HistoryCodec.ofList (known : List (ImportedHistoryEvent × Bytes)) : HistoryCodec where
  serialize record :=
    match known.find? (·.1 = record) with
    | some (_, bytes) => .ok bytes
    | none => .error "another record"
  deserialize bytes := (known.find? (·.2 = bytes)).map Prod.fst

theorem HistoryCodec.roundTrips_ofList {known : List (ImportedHistoryEvent × Bytes)}
    (apart : (known.map Prod.snd).Nodup) : (ofList known).RoundTrips := by
  intro record bytes serialized
  simp only [ofList] at serialized ⊢
  cases found : known.find? (·.1 = record) with
  | none => simp [found] at serialized
  | some entry =>
    rw [found] at serialized
    cases serialized
    cases read : known.find? (·.2 = entry.2) with
    | none =>
      have unread := List.find?_eq_none.mp read entry (List.mem_of_find?_eq_some found)
      simp at unread
    | some other =>
      have same : other = entry :=
        List.inj_on_of_nodup_map apart (List.mem_of_find?_eq_some read)
          (List.mem_of_find?_eq_some found) (by simpa using List.find?_some read)
      simpa [same] using List.find?_some found

/-- Five seconds, in nanoseconds. -/
def clearTimeout : ℕ := 5 * 10 ^ 9

def maxPendingRecords : ℕ := 8

def maxPendingBytes : ℕ := maxHistoryRecordSize

def recordEvents (codec : HistoryCodec) (requestId recordId : UInt64)
    (record : ImportedHistoryEvent) : Except String (List ProtoEvent) := do
  let bytes ← codec.serialize record
  if bytes.isEmpty || bytes.length > maxHistoryRecordSize then
    throw "serialized history record exceeds protocol limit"
  if UInt32.size ≤ bytes.length then
    throw "history record is too large"
  let start := .historyRecordStart requestId recordId (UInt32.ofNat bytes.length)
    (UInt32.ofNat (divCeil bytes.length maxHistoryChunkSize))
  pure (start :: (chunks maxHistoryChunkSize bytes).zipIdx.map fun (data, index) =>
    .historyRecordChunk requestId recordId (UInt32.ofNat index) data)

/-- A record as far as its chunks have come in. -/
structure PendingRecord where
  received : ℕ
  totalLen : ℕ
  chunks : List (Option Bytes)
  started : ℕ
  deriving DecidableEq, Repr

/-- A record that a peer sends in answer to a request. -/
abbrev RecordKey (P : Type) := P × UInt64 × UInt64

/-- The records that come in, with the bytes set aside for them. -/
structure Reassembler (P : Type) where
  records : Table (RecordKey P) PendingRecord
  pendingBytes : ℕ

namespace Reassembler

variable {P : Type} [DecidableEq P]

def new : Reassembler P := ⟨∅, 0⟩

variable (reassembler : Reassembler P)

def hasRoom (totalLen : ℕ) : Bool :=
  reassembler.records.keys.length < maxPendingRecords &&
    reassembler.pendingBytes + totalLen ≤ maxPendingBytes

def start (now : ℕ) (peer : P) (requestId recordId : UInt64) (totalLen chunks : UInt32) :
    Except String (Reassembler P) :=
  if totalLen = 0 ∨ totalLen.toNat > maxHistoryRecordSize then
    .error "history record exceeds pending limits"
  else if chunks ≠ UInt32.ofNat (divCeil totalLen.toNat maxHistoryChunkSize) then
    .error "invalid history record chunk count"
  else
    match reassembler.records.lookup (peer, requestId, recordId) with
    | some previous =>
      if previous.totalLen = totalLen.toNat ∧ previous.chunks.length = chunks.toNat then
        .ok reassembler
      else
        .error "conflicting history record start"
    | none =>
      if reassembler.hasRoom totalLen.toNat then
        .ok
          { records := reassembler.records.insert (peer, requestId, recordId)
              { received := 0, totalLen := totalLen.toNat,
                chunks := List.replicate chunks.toNat none, started := now }
            pendingBytes := reassembler.pendingBytes + totalLen.toNat }
      else
        .error "history record exceeds pending limits"

def remove (key : RecordKey P) (record : PendingRecord) : Reassembler P where
  records := reassembler.records.erase key
  pendingBytes := reassembler.pendingBytes - record.totalLen

end Reassembler

namespace PendingRecord

variable (record : PendingRecord)

def expectedLen (index : ℕ) : ℕ :=
  if index + 1 = record.chunks.length then
    record.totalLen - maxHistoryChunkSize * (record.chunks.length - 1)
  else maxHistoryChunkSize

def fill (index : ℕ) (data : Bytes) : PendingRecord :=
  { record with chunks := record.chunks.set index (some data), received := record.received + 1 }

def bytes : Bytes := record.chunks.flatMap (·.getD [])

end PendingRecord

namespace Reassembler

variable {P : Type} [DecidableEq P] (codec : HistoryCodec) (reassembler : Reassembler P)

def chunk (peer : P) (requestId recordId : UInt64) (index : UInt32) (data : Bytes) :
    Reassembler P × Except String (Option ImportedHistoryEvent) :=
  let key := (peer, requestId, recordId)
  match reassembler.records.lookup key with
  | none => (reassembler, .ok none)
  | some record =>
    if record.chunks.length ≤ index.toNat then
      (reassembler, .error "invalid history record chunk index")
    else if data.length ≠ record.expectedLen index.toNat then
      (reassembler.remove key record, .error "invalid history record chunk length")
    else
      match record.chunks[index.toNat]?.join with
      | some previous =>
        if previous = data then (reassembler, .ok none)
        else (reassembler, .error "conflicting duplicate history record chunk")
      | none =>
        let record := record.fill index.toNat data
        if record.received ≠ record.chunks.length then
          ({ reassembler with records := reassembler.records.insert key record }, .ok none)
        else
          (reassembler.remove key record,
            match codec.deserialize record.bytes with
            | some event => .ok (some event)
            | none => .error "invalid serialized history record")

def retain (keeps : RecordKey P → PendingRecord → Bool) : Reassembler P × ℕ :=
  let dropped := reassembler.records.entries.filter fun entry => !keeps entry.1 entry.2
  ({ records := reassembler.records.retain keeps
     pendingBytes := reassembler.pendingBytes - (dropped.map (·.2.totalLen)).sum },
    dropped.length)

def peerLost (peer : P) : Reassembler P :=
  (reassembler.retain fun key _ => key.1 ≠ peer).1

/-- Discard incomplete records after a request reaches its page boundary. -/
def finishRequest (peer : P) (requestId : UInt64) : Reassembler P × ℕ :=
  reassembler.retain fun key _ => key.1 ≠ peer || key.2.1 ≠ requestId

def expire (now : ℕ) : Reassembler P × ℕ :=
  reassembler.retain fun _ record => now - record.started < clearTimeout

end Reassembler

end Syntra.History
