import Syntra.Proto.Decoding

/-!
# Encoding produces exactly the wire format

`encode` succeeds on the sendable events that fit a datagram, and then yields the tag of the
event followed by its payload.
-/

namespace Syntra.Proto

open ByteFormat

variable {image : Bytes} {boundary : List (String × UInt64)} {entries : List ClipboardManifestEntry}
  {event : ProtoEvent} {buf : Bytes}

theorem encodeHistoryBoundaryEntries_eq_ok :
    encodeHistoryBoundaryEntries buf boundary = .ok image ↔
      (∀ entry ∈ boundary, 0 < (utf8 entry.1).length ∧
        (utf8 entry.1).length ≤ maxHistoryDeviceIdSize) ∧
      buf ++ boundary.flatMap boundaryEntryBytes = image := by
  induction boundary generalizing buf with
  | nil => simp [encodeHistoryBoundaryEntries]
  | cons entry _ ih =>
    rcases entry with ⟨_, _⟩
    simp only [encodeHistoryBoundaryEntries, guard_bind_ok, ih,
      List.forall_mem_cons, Bool.or_eq_true, List.isEmpty_iff, decide_eq_true_eq, not_or, not_lt,
      List.length_pos_iff, putText_eq, putU64, List.flatMap_cons, boundaryEntryBytes,
      List.append_assoc, and_assoc, ne_eq]

@[simp]
theorem encodeHistoryBoundary_eq_ok :
    encodeHistoryBoundary buf boundary = .ok image ↔
      BoundaryValid boundary ∧ buf ++ boundaryBytes boundary = image ∧
        image.length ≤ maxDatagramSize := by
  simp only [encodeHistoryBoundary, guard_bind_ok, bind_ok,
    encodeHistoryBoundaryEntries_eq_ok, pure_ok, not_lt]
  constructor
  · rintro ⟨few, _, ⟨valid, rfl⟩, fits, rfl⟩
    refine ⟨⟨few, valid⟩, ?_, fits⟩
    simp [boundaryBytes, putU16]
  · rintro ⟨⟨few, valid⟩, rfl, fits⟩
    refine ⟨few, _, ⟨valid, rfl⟩, ?_⟩
    simpa [boundaryBytes, putU16] using fits

theorem exists_encodedTotal_iff {total size : UInt64} (continues : UInt64 → Prop) :
    (∃ sum, checkedAdd total size = some sum ∧ ¬maxClipboardSize < sum.toNat ∧ continues sum) ↔
      total.toNat + size.toNat ≤ maxClipboardSize ∧ continues (total + size) := by
  rw [← exists_total_iff]
  simp

theorem encodeManifestEntries_eq_ok {previous total : UInt64} :
    encodeManifestEntries buf previous total entries = .ok image ↔
      ManifestValid previous total entries ∧ buf ++ entries.flatMap manifestEntryBytes = image := by
  induction entries generalizing buf previous total with
  | nil => simp [encodeManifestEntries, ManifestValid]
  | cons _ _ ih =>
    simp only [encodeManifestEntries, bind_ok, guard_bind_ok,
      okOr_eq_ok, ih, Unique.exists_iff, gt_iff_lt, exists_encodedTotal_iff, not_or, not_and,
      not_not, UInt64.not_le, ManifestValid, and_assoc, ne_eq]
    simp [manifestEntryBytes, push, putU64]

@[simp]
theorem encodeManifest_eq_ok {transferId : UInt64} :
    encodeManifest buf transferId entries = .ok image ↔
      Sendable (.clipboardManifest transferId entries) ∧
        buf ++ payload (.clipboardManifest transferId entries) = image ∧
        image.length ≤ maxDatagramSize := by
  simp only [encodeManifest, guard_bind_ok, bind_ok, encodeManifestEntries_eq_ok, pure_ok, not_lt,
    Bool.or_eq_true, List.isEmpty_iff, decide_eq_true_eq, not_or]
  constructor
  · rintro ⟨⟨nonempty, few⟩, _, ⟨valid, rfl⟩, fits, rfl⟩
    refine ⟨⟨nonempty, few, valid⟩, ?_, fits⟩
    simp [payload, putU32, putU64]
  · rintro ⟨⟨nonempty, few, valid⟩, rfl, fits⟩
    refine ⟨⟨nonempty, few⟩, _, ⟨valid, rfl⟩, ?_⟩
    simpa [payload, putU32, putU64] using fits

@[simp]
theorem validateIds_eq_ok {fileId requestId : UInt64} :
    validateIds fileId requestId = .ok () ↔ fileId ≠ 0 ∧ requestId ≠ 0 := by
  simp [validateIds]

theorem encodeBody_eq_ok {tag : UInt8} :
    (encodeBody [tag] event = .ok image ∧ image.length ≤ maxDatagramSize) ↔
      Sendable event ∧ tag :: payload event = image ∧ image.length ≤ maxDatagramSize := by
  cases event with
  | input event =>
    cases event with
    | pointer event =>
      cases event <;>
        simp [encodeBody, Sendable, payload, push, putF64, putI32, putU32]
    | keyboard event =>
      cases event <;>
        simp [encodeBody, Sendable, payload, push, putU32]
  | clipboardChunk transferId index data =>
    simp only [encodeBody, guard_bind_ok, pure_ok, putU32, putU64,
      extendFromSlice, Sendable, payload, not_lt, true_and]
    constructor
    · rintro ⟨⟨-, rfl⟩, fits⟩
      exact ⟨by simp, fits⟩
    · rintro ⟨rfl, fits⟩
      have sized : clipboardChunkHeaderSize + data.length =
          (tag :: (u64Bytes transferId ++ (u32Bytes index ++ data))).length := by
        simp [clipboardChunkHeaderSize, u64Bytes, u32Bytes]
        omega
      exact ⟨⟨sized ▸ fits, by simp⟩, fits⟩
  | _ =>
    simp [encodeBody, Sendable, payload, push, putU32, putU64, extendFromSlice,
      Unique.exists_iff, -bind_pure_comp]
    try tauto

/-- `encode` succeeds on the sendable events that fit a datagram, with the tag and the payload. -/
theorem encode_eq_ok :
    encode event = .ok image ↔
      Sendable event ∧ event.eventType.toByte :: payload event = image ∧
        image.length ≤ maxDatagramSize := by
  rw [← encodeBody_eq_ok]
  simp only [encode, push, List.nil_append, bind_ok, guard_bind_ok, pure_ok, not_lt]
  constructor
  · rintro ⟨_, encoded, fits, rfl⟩
    exact ⟨encoded, fits⟩
  · rintro ⟨encoded, fits⟩
    exact ⟨image, encoded, fits, rfl⟩

end Syntra.Proto
