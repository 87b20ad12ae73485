import Syntra.ByteFormat.FixedWidth
import Syntra.History.Assembly
import Syntra.History.Clearing
import Syntra.Proto.RoundTrip
import Syntra.Store.Pruning

/-!
# What of the history fits on the wire

The store, the record transport and the protocol have limits of their own. Every event that the
store takes fits into a record. The boundary of a store fits into a datagram if and only if the
store has few origins with short names, which it does not see to.
-/

namespace Syntra.History

open ByteFormat Proto Store List HistoryStore

def fixintText (value : String) : Bytes := sized (utf8 value)

def fixintFile (file : FileMetadata) : Bytes :=
  fixintText file.name ++ toLeBytes 8 file.sizeBytes.toNat ++ optionBytes fixintText file.mediaType

/-- The number of the variant, then its fields. -/
def fixintContent : HistoryContent → Bytes
  | .text value => toLeBytes 4 0 ++ fixintText value
  | .image bytes mediaType width height =>
    toLeBytes 4 1 ++ optionBytes sized bytes ++ optionBytes fixintText mediaType ++
      optionBytes (toLeBytes 4 ·.toNat) width ++ optionBytes (toLeBytes 4 ·.toNat) height
  | .files files => toLeBytes 4 2 ++ sequenceBytes fixintFile files

/-- What the serializer is documented to write with integers of fixed width. -/
def fixintRecord (record : ImportedHistoryEvent) : Bytes :=
  fixintText record.eventId.originDeviceId ++ toLeBytes 8 record.eventId.originSequence.toNat ++
    toLeBytes 8 (record.createdAtMs % 2 ^ 64).toNat ++ optionBytes fixintText record.originLabel ++
    fixintContent record.content

/-- The serializer refuses only what is over the limit it is given. -/
def HistoryCodec.IsFixint (codec : HistoryCodec) : Prop :=
  ∀ record, (fixintRecord record).length ≤ maxHistoryRecordSize →
    codec.serialize record = .ok (fixintRecord record)

variable {label : String} {maximum : ℕ} {record : ImportedHistoryEvent} {codec : HistoryCodec}
  {store : HistoryStore} {env : Environment} {operationId : OperationId}

theorem validateString_eq_ok {value : String} :
    validateString label value maximum = .ok () ↔
      0 < (utf8 value).length ∧ (utf8 value).length ≤ maximum := by
  simp only [validateString, guard_bind_ok, guard_ok, pure_ok, List.isEmpty_iff, not_lt]
  simp [length_pos_iff]

theorem length_fixintText_le {value : String}
    (valid : validateString label value maximum = .ok ()) :
    (fixintText value).length ≤ 8 + maximum := by
  have short := (validateString_eq_ok.mp valid).2
  rw [fixintText, length_sized]
  omega

theorem length_optionalText_le {value : Option String}
    (valid : validateOptional label value maximum = .ok ()) :
    (optionBytes fixintText value).length ≤ 1 + (8 + maximum) := by
  apply length_optionBytes_le
  rintro _ rfl
  exact length_fixintText_le valid

theorem length_fixintFile_le {file : FileMetadata} (valid : validateFile file = .ok ()) :
    (fixintFile file).length ≤ (8 + maxMetadataBytes) + 8 + (1 + (8 + maxMetadataBytes)) := by
  simp only [validateFile, bind_ok] at valid
  rcases valid with ⟨_, named, typed⟩
  have name := length_fixintText_le named
  have mediaType := length_optionalText_le typed
  simp only [fixintFile, length_append, length_toLeBytes]
  omega

theorem length_fixintContent_le {content : HistoryContent}
    (valid : validateContent content = .ok ()) :
    (fixintContent content).length ≤ 34 * 1024 * 1024 := by
  cases content with
  | text =>
    have short := length_fixintText_le valid
    rw [maxTextBytes] at short
    simp only [fixintContent, length_append, length_toLeBytes]
    omega
  | image bytes mediaType width height =>
    simp only [validateContent, validateImage, bind_ok, guard_bind_ok] at valid
    rcases valid with ⟨small, -, _, typed, -⟩
    have payload : (optionBytes sized bytes).length ≤ 1 + (8 + maxImageBytes) := by
      apply length_optionBytes_le
      rintro present rfl
      simp at small
      rw [length_sized]
      omega
    have mediaType := length_optionalText_le typed
    have dimension : ∀ value : Option UInt32,
        (optionBytes (toLeBytes 4 ·.toNat) value).length ≤ 1 + 4 := by
      intro _
      apply length_optionBytes_le
      intro _ _
      simp
    have across := dimension width
    have down := dimension height
    rw [maxImageBytes] at payload
    rw [maxMetadataBytes] at mediaType
    simp only [fixintContent, length_append, length_toLeBytes]
    omega
  | files files =>
    simp only [validateContent, guard_bind_ok] at valid
    rcases valid with ⟨few, valid⟩
    simp only [not_or, not_lt] at few
    have checked := of_forM_eq_ok valid
    have listed : (sequenceBytes fixintFile files).length ≤
        8 + files.length * ((8 + maxMetadataBytes) + 8 + (1 + (8 + maxMetadataBytes))) :=
      length_sequenceBytes_le fun file member => length_fixintFile_le (checked file member)
    have most := Nat.mul_le_mul_right
      ((8 + maxMetadataBytes) + 8 + (1 + (8 + maxMetadataBytes))) few.2
    rw [maxMetadataBytes] at listed most
    rw [maxFiles] at most
    simp only [fixintContent, length_append, length_toLeBytes]
    omega

theorem length_fixintRecord_le (valid : validateEvent record = .ok ()) :
    (fixintRecord record).length ≤ maxHistoryRecordSize := by
  simp only [validateEvent, bind_ok] at valid
  rcases valid with ⟨_, device, _, label, _, -, content⟩
  have name := length_fixintText_le device
  have described := length_optionalText_le label
  have held := length_fixintContent_le content
  rw [maxDeviceIdBytes] at name
  rw [maxOriginLabelBytes] at described
  simp only [fixintRecord, length_append, length_toLeBytes, maxHistoryRecordSize]
  omega

theorem fixintRecord_ne_nil (record : ImportedHistoryEvent) : fixintRecord record ≠ [] := by
  intro none
  have length := congrArg length none
  simp only [fixintRecord, length_append, length_toLeBytes, length_nil] at length
  omega

/-- Every event that the store accepts can be sent, and every part of it encoded. -/
theorem recordEvents_encodes (fixint : codec.IsFixint) (valid : validateEvent record = .ok ())
    (requestId recordId : UInt64) :
    ∃ events, recordEvents codec requestId recordId record = .ok events ∧
      ∀ event ∈ events, ∃ image, encode event = .ok image := by
  have short := length_fixintRecord_le valid
  have carries : Carries codec record (fixintRecord record) :=
    ⟨fixint record short, fixintRecord_ne_nil record, short⟩
  refine ⟨_, recordEvents_eq_ok.mpr ⟨_, carries, rfl⟩, ?_⟩
  intro _ member
  rcases mem_datagrams.mp member with rfl | ⟨index, _, rfl⟩
  · refine ⟨_, encode_eq_ok.mpr ⟨?_, rfl, ?_⟩⟩
    · have nonempty := length_pos_iff.mpr carries.nonempty
      have chunked : divCeil (fixintRecord record).length maxHistoryChunkSize =
          chunkCount maxHistoryChunkSize (fixintRecord record) := rfl
      simp only [Sendable, validateHistoryStart, carries.toNat_length, chunked,
        guard_bind_ok, guard_ok, pure_ok]
      simp only [gt_iff_lt, not_or, not_lt]
      exact ⟨⟨by omega, carries.short⟩, by simp, trivial⟩
    · simp [payload, u32Bytes, u64Bytes, maxDatagramSize]
  · have last := chunkCount_mul_lt carries.nonempty maxHistoryChunkSize_pos
    have before : index * maxHistoryChunkSize ≤
        (chunkCount maxHistoryChunkSize (fixintRecord record) - 1) * maxHistoryChunkSize :=
      Nat.mul_le_mul_right _ (by omega)
    have size : (chunkAt maxHistoryChunkSize (fixintRecord record) index).length =
        min maxHistoryChunkSize ((fixintRecord record).length - index * maxHistoryChunkSize) := by
      rw [chunkAt, length_take, length_drop]
    rw [maxHistoryChunkSize, safeDatagramSize, historyChunkHeaderSize] at size before last
    refine ⟨_, encode_eq_ok.mpr ⟨⟨?_, ?_⟩, rfl, ?_⟩⟩
    · apply length_pos_iff.mp
      rw [maxHistoryChunkSize, safeDatagramSize, historyChunkHeaderSize]
      omega
    · rw [maxHistoryChunkSize, safeDatagramSize, historyChunkHeaderSize]
      omega
    · simp only [payload, length_cons, length_append, u32Bytes, u64Bytes,
        length_toBeBytes, maxDatagramSize]
      rw [maxHistoryChunkSize, safeDatagramSize, historyChunkHeaderSize]
      omega

def origins (store : HistoryStore) : List String :=
  (store.events.keys.map (·.1)).dedup

theorem mem_origins {device : String} :
    device ∈ origins store ↔ ∃ key ∈ store.events, key.1 = device := by
  simp only [origins, mem_dedup, mem_map, AList.mem_keys]

/-- The store has no more origins than a boundary may name, and none with too long a name. -/
def FitsBoundary (store : HistoryStore) : Prop :=
  (origins store).length ≤ maxHistoryBoundaryEntries ∧
    ∀ device ∈ origins store, (utf8 device).length ≤ maxHistoryDeviceIdSize

theorem mem_of_noteDevices {devices : List String} {before after : ClearBoundary}
    (noted : devices.foldlM store.noteDevice before = .ok after) (device : String) :
    device ∈ after ↔ device ∈ before ∨ device ∈ devices := by
  induction devices generalizing before with
  | nil =>
    cases noted
    simp
  | cons _ _ ih =>
    rw [foldlM_cons, bind_ok] at noted
    rcases noted with ⟨_, noted, rest⟩
    simp only [noteDevice] at noted
    split at noted
    · cases noted
    · cases noted
      rw [ih rest, Std.ExtTreeMap.mem_insert, mem_cons]
      simp only [Std.LawfulEqCmp.compare_eq_iff_eq]
      tauto

variable {boundary : ClearBoundary} {calls : List HistoryStore.Call}

theorem boundary_names (taken : store.snapshotBoundary = .ok boundary) :
    ((boundaryToWire boundary).map (·.1)).Perm (origins store) := by
  rw [boundaryToWire, Std.ExtTreeMap.map_fst_toList_eq_keys, origins,
    perm_ext_iff_of_nodup Std.ExtTreeMap.nodup_keys (nodup_dedup _)]
  intro _
  rw [Std.ExtTreeMap.mem_keys, mem_of_noteDevices taken]
  simp

theorem valid_of_mem {key : EventKey} (member : key ∈ (afterCalls env calls).events) :
    ∃ event, validateEvent event = .ok () ∧ event.eventId.key = key := by
  rcases Option.isSome_iff_exists.mp (AList.lookup_isSome.mpr member) with ⟨row, found⟩
  rcases (Sound.of_calls env calls).rows key row found with
    ⟨event, ⟨before, call, rest, -, ties, -, committed, merged⟩, keyed, -⟩
  refine ⟨event, ?_, keyed⟩
  simp only [mergeImported, bind_ok] at merged
  rcases merged with ⟨_, valid, -⟩
  exact valid

theorem exists_snapshotBoundary (env : Environment) (calls : List HistoryStore.Call) :
    ∃ boundary, (afterCalls env calls).snapshotBoundary = .ok boundary := by
  have natural : ∀ device, 0 ≤ ((afterCalls env calls).maxSequence device).getD 0 := by
    intro device
    cases found : (afterCalls env calls).maxSequence device with
    | none => exact le_rfl
    | some =>
      have listed := max?_mem found
      rcases mem_map.mp listed with ⟨_, member, rfl⟩
      rcases valid_of_mem (AList.mem_keys.mpr (mem_of_mem_filter member)) with ⟨event, -, rfl⟩
      exact Int.natCast_nonneg _
  have noted : ∀ (devices : List String) (before : ClearBoundary), ∃ after,
      devices.foldlM (afterCalls env calls).noteDevice before = .ok after := by
    intro devices
    induction devices with
    | nil => exact fun before => ⟨before, rfl⟩
    | cons device _ ih =>
      intro before
      rcases ih (before.insert device (UInt64.ofNat
        (((afterCalls env calls).maxSequence device).getD 0).toNat)) with
        ⟨after, rest⟩
      refine ⟨after, ?_⟩
      rw [foldlM_cons, bind_ok]
      refine ⟨_, ?_, rest⟩
      rw [noteDevice, if_neg (not_lt.mpr (natural device))]
  exact noted _ _

/-- A boundary fits into its message if and only if its store has few origins of short names. -/
theorem boundaryValid_iff (taken : (afterCalls env calls).snapshotBoundary = .ok boundary) :
    BoundaryValid (boundaryToWire boundary) ↔ FitsBoundary (afterCalls env calls) := by
  have names := boundary_names taken
  have named : ∀ device ∈ origins (afterCalls env calls), 0 < (utf8 device).length := by
    intro device listed
    rcases mem_origins.mp listed with ⟨_, member, rfl⟩
    rcases valid_of_mem member with ⟨_, valid, rfl⟩
    simp only [validateEvent, bind_ok] at valid
    rcases valid with ⟨_, device, -⟩
    exact (validateString_eq_ok.mp device).1
  have count := names.length_eq
  rw [length_map] at count
  rw [BoundaryValid, FitsBoundary, count]
  refine and_congr_right fun _ => ?_
  constructor
  · intro valid _ listed
    rcases mem_map.mp (names.mem_iff.mpr listed) with ⟨entry, member, rfl⟩
    exact (valid entry member).2
  · intro short _ member
    have listed := names.mem_iff.mp (mem_map_of_mem member)
    exact ⟨named _ listed, short _ listed⟩

def Crosses (carry : List (String × UInt64) → ProtoEvent) (boundary : ClearBoundary) : Prop :=
  ∃ image wire, encode (carry (boundaryToWire boundary)) = .ok image ∧
    decode image = .ok (carry wire) ∧ boundaryFromWire wire = boundary

theorem length_boundaryBytes_le {boundary : List (String × UInt64)}
    (valid : BoundaryValid boundary) : (boundaryBytes boundary).length ≤ 2 + 100 * 138 := by
  have entries : ∀ entries : List (String × UInt64), (∀ entry ∈ entries,
      (utf8 entry.1).length ≤ maxHistoryDeviceIdSize) →
        (entries.flatMap boundaryEntryBytes).length ≤ entries.length * 138 := by
    intro entries
    induction entries with
    | nil => exact fun _ => le_rfl
    | cons entry _ ih =>
      intro short
      have rest := ih fun other member => short other (.tail _ member)
      have here := short entry (.head _)
      rw [maxHistoryDeviceIdSize] at here
      simp only [flatMap_cons, length_append, length_cons, boundaryEntryBytes,
        Proto.textBytes, u16Bytes, u64Bytes, length_toBeBytes]
      omega
  have all := entries boundary fun entry member => (valid.2 entry member).2
  have few := valid.1
  rw [maxHistoryBoundaryEntries] at few
  simp only [boundaryBytes, length_append, u16Bytes, length_toBeBytes]
  omega

theorem crosses_iff {carry : List (String × UInt64) → ProtoEvent}
    (sendable : ∀ entries, Sendable (carry entries) ↔ BoundaryValid entries)
    (size : ∀ entries, (payload (carry entries)).length = 16 + (boundaryBytes entries).length)
    (arrives : ∀ entries, delivered (carry entries) = some (carry entries)) :
    Crosses carry boundary ↔ BoundaryValid (boundaryToWire boundary) := by
  constructor
  · rintro ⟨_, _, encoded, -⟩
    exact (sendable _).mp (encode_eq_ok.mp encoded).1
  · intro valid
    have short := length_boundaryBytes_le valid
    have encoded : encode (carry (boundaryToWire boundary)) =
        .ok ((carry (boundaryToWire boundary)).eventType.toByte ::
          payload (carry (boundaryToWire boundary))) := by
      refine encode_eq_ok.mpr ⟨(sendable _).mpr valid, rfl, ?_⟩
      rw [length_cons, size, maxDatagramSize]
      omega
    exact ⟨_, _, encoded, (decode_encode encoded).mpr (arrives _),
      boundaryFromWire_boundaryToWire boundary⟩

theorem crosses_boundary_iff :
    Crosses (.historyClearBoundary operationId) boundary ↔
      BoundaryValid (boundaryToWire boundary) :=
  crosses_iff (fun _ => Iff.rfl) (fun _ => by simp [payload]) fun _ => rfl

theorem crosses_apply_iff :
    Crosses (.historyClearApply operationId) boundary ↔ BoundaryValid (boundaryToWire boundary) :=
  crosses_iff (fun _ => Iff.rfl) (fun _ => by simp [payload]) fun _ => rfl

/-- What a store holds can be sent to another device, which takes it as it was. -/
structure Exchangeable (codec : HistoryCodec) (store : HistoryStore) : Prop where
  records : ∀ record, validateEvent record = .ok () → ∀ requestId recordId,
    ∃ events, recordEvents codec requestId recordId record = .ok events ∧
      ∀ event ∈ events, ∃ image, encode event = .ok image
  boundaries : ∀ boundary, store.snapshotBoundary = .ok boundary → ∀ operationId,
    Crosses (.historyClearBoundary operationId) boundary ∧
      Crosses (.historyClearApply operationId) boundary

theorem fits_of_exchangeable (exchangeable : Exchangeable codec (afterCalls env calls)) :
    FitsBoundary (afterCalls env calls) := by
  rcases exists_snapshotBoundary env calls with ⟨boundary, taken⟩
  have crosses := exchangeable.boundaries boundary taken (List.Vector.replicate 16 0)
  exact (boundaryValid_iff taken).mp (crosses_boundary_iff.mp crosses.1)

/-- The state of a store can be exchanged if and only if its boundary has few origins of short
names. -/
theorem exchangeable_iff {codec : HistoryCodec} (fixint : codec.IsFixint) (env : Environment)
    (calls : List HistoryStore.Call) :
    Exchangeable codec (afterCalls env calls) ↔
      FitsBoundary (afterCalls env calls) := by
  refine ⟨fits_of_exchangeable, ?_⟩
  intro fits
  refine ⟨fun _ valid => recordEvents_encodes fixint valid, ?_⟩
  intro _ taken _
  have valid := (boundaryValid_iff taken).mpr fits
  exact ⟨crosses_boundary_iff.mpr valid, crosses_apply_iff.mpr valid⟩

/-- A serializer of fixed width, which reads back one record. -/
def fixintCodec : HistoryCodec where
  serialize record :=
    if (fixintRecord record).length ≤ maxHistoryRecordSize then .ok (fixintRecord record)
    else .error "the size limit has been reached"
  deserialize bytes :=
    if bytes = fixintRecord (textEvent "a" 1 0) then
      some (textEvent "a" 1 0)
    else none

theorem fixintCodec_isFixint : fixintCodec.IsFixint := by
  intro _ short
  simp [fixintCodec, short]

theorem exchangeable_mergeOld :
    origins (afterCalls unaryEnvironment [mergeOld]) = ["a"] ∧
      Exchangeable fixintCodec (afterCalls unaryEnvironment [mergeOld]) := by
  have alone : origins (afterCalls unaryEnvironment [mergeOld]) = ["a"] := by decide +kernel
  refine ⟨alone, (exchangeable_iff fixintCodec_isFixint _ _).mpr ?_⟩
  rw [FitsBoundary, alone]
  decide

def longEvent : ImportedHistoryEvent :=
  textEvent (String.ofList (List.replicate 129 'a')) 1 0

theorem longEvent_not_exchangeable :
    validateEvent longEvent = .ok () ∧ ∀ codec,
      ¬Exchangeable codec (afterCalls unaryEnvironment
        [.mergeImported (.asStored _) longEvent]) := by
  refine ⟨by decide +kernel, ?_⟩
  intro _ exchangeable
  have fits := (fits_of_exchangeable exchangeable).2
  have listed : String.ofList (List.replicate 129 'a') ∈ origins (afterCalls
      unaryEnvironment [.mergeImported (.asStored _) longEvent]) := by
    decide +kernel
  exact absurd (fits _ listed) (by decide +kernel)

end Syntra.History
