import Syntra.Proto.WireFormat

/-!
# Decoding accepts exactly the wire format

The arm of `decode` for a tag accepts the spellings of the receivable events of that tag, and
yields the event that was spelled. Both directions, and with them every round trip, come from
this one equivalence.
-/

namespace Syntra.Proto

open ByteFormat ProtoEvent Reader

namespace F32

variable {along : F32}

theorem clamp_of_inUnit (inUnit : along.InUnit) : along.clamp zero one = along := by
  rcases inUnit with ⟨-, atLeast, atMost⟩
  simp only [le, Bool.and_eq_true, decide_eq_true_eq] at atLeast atMost
  have notBelow : along.lt zero = false := by
    simp only [lt, Bool.and_eq_false_iff, decide_eq_false_iff_not]
    right
    omega
  have notAbove : one.lt along = false := by
    simp only [lt, Bool.and_eq_false_iff, decide_eq_false_iff_not]
    right
    omega
  simp [clamp, notBelow, notAbove]

theorem zero_inUnit : zero.InUnit := by
  unfold InUnit
  decide

theorem one_inUnit : one.InUnit := by
  unfold InUnit
  decide

theorem not_isNaN_of_isFinite (finite : along.isFinite = true) : along.isNaN = false := by
  simp only [isFinite, isNaN, decide_eq_true_eq, decide_eq_false_iff_not] at finite ⊢
  omega

theorem clamp_inUnit (finite : along.isFinite = true) : (along.clamp zero one).InUnit := by
  have notNaN := not_isNaN_of_isFinite finite
  have zeroNotNaN : zero.isNaN = false := by decide
  have oneNotNaN : one.isNaN = false := by decide
  by_cases below : along.lt zero = true
  · have oneNotBelowZero : one.lt zero = false := by decide
    simpa [clamp, below, oneNotBelowZero] using zero_inUnit
  · by_cases above : one.lt along = true
    · simpa [clamp, below, above] using one_inUnit
    · have unchanged : along.clamp zero one = along := by simp [clamp, below, above]
      rw [unchanged]
      simp only [lt, notNaN, zeroNotNaN, oneNotNaN, Bool.not_false, Bool.true_and,
        decide_eq_true_eq, not_lt] at below above
      refine ⟨finite, ?_, ?_⟩
      · simpa [le, notNaN, zeroNotNaN] using below
      · simpa [le, notNaN, oneNotNaN] using above

end F32

variable {input rest : Bytes} {event : ProtoEvent}

@[simp]
theorem getPosition_eq_ok {position : Position} :
    getPosition input = .ok (position, rest) ↔ input = position.toByte :: rest :=
  getCode_eq_ok Position.ofByte?_eq_some

@[simp]
theorem getEventType_eq_ok {eventType : EventType} :
    getEventType input = .ok (eventType, rest) ↔ input = eventType.toByte :: rest :=
  getCode_eq_ok EventType.ofByte?_eq_some

@[simp]
theorem getEntryKind_eq_ok {kind : ClipboardEntryKind} :
    getEntryKind input = .ok (kind, rest) ↔ input = kind.toByte :: rest :=
  getCode_eq_ok ClipboardEntryKind.ofByte?_eq_some

@[simp]
theorem getDecision_eq_ok {decision : ManualDecision} :
    getDecision input = .ok (decision, rest) ↔ input = decision.toByte :: rest :=
  getCode_eq_ok ManualDecision.ofByte?_eq_some

@[simp]
theorem getCancelReason_eq_ok {reason : ClipboardCancelReason} :
    getCancelReason input = .ok (reason, rest) ↔ input = reason.toByte :: rest :=
  getCode_eq_ok ClipboardCancelReason.ofByte?_eq_some

@[simp]
theorem getAlong_eq_ok {along : F32} :
    getAlong input = .ok (along, rest) ↔
      along.InUnit ∧ ∃ raw : F32, raw.isFinite = true ∧ raw.clamp .zero .one = along ∧
        input = u32Bytes raw.bits ++ rest := by
  simp only [getAlong, bind_eq_ok, getU32_eq_ok]
  constructor
  · rintro ⟨bits, _, rfl, continued⟩
    by_cases finite : (F32.mk bits).isFinite = true
    · rw [if_pos finite, pure_eq_ok] at continued
      rcases continued with ⟨rfl, rfl⟩
      exact ⟨F32.clamp_inUnit finite, ⟨bits⟩, finite, rfl, rfl⟩
    · simp [finite] at continued
  · rintro ⟨-, raw, finite, rfl, rfl⟩
    refine ⟨raw.bits, rest, rfl, ?_⟩
    rw [if_pos finite, pure_eq_ok]
    exact ⟨rfl, rfl⟩

variable {value : UInt64} {side : Position} {target : String} {count : ℕ}
  {boundary : List (String × UInt64)}

@[simp]
theorem getNonzeroFileId_eq_ok :
    getNonzeroFileId input = .ok (value, rest) ↔ input = u64Bytes value ++ rest ∧ value ≠ 0 :=
  getNonzero_eq_ok

@[simp]
theorem getNonzeroRequestId_eq_ok :
    getNonzeroRequestId input = .ok (value, rest) ↔ input = u64Bytes value ++ rest ∧ value ≠ 0 :=
  getNonzero_eq_ok

@[simp]
theorem getNonzeroTransferId_eq_ok :
    getNonzeroTransferId input = .ok (value, rest) ↔ input = u64Bytes value ++ rest ∧ value ≠ 0 :=
  getNonzero_eq_ok

theorem handoffBytes_of_short (short : (utf8 target).length ≤ maxHandoffTarget) :
    handoffBytes side target = side.toByte :: textBytes target := by
  rw [handoffBytes, Nat.min_eq_left short, List.take_length, textBytes]

@[simp]
theorem getHandoff_eq_ok :
    getHandoff input = .ok ((side, target), rest) ↔
      (utf8 target).length ≤ maxHandoffTarget ∧ input = handoffBytes side target ++ rest := by
  simp only [getHandoff, bind_eq_ok, getPosition_eq_ok, getText_eq_ok,
    pure_eq_ok, Prod.mk.injEq, decide_eq_false_iff_not, not_lt]
  constructor
  · rintro ⟨_, _, rfl, _, _, ⟨-, short, rfl⟩, ⟨rfl, rfl⟩, rfl⟩
    exact ⟨short, by simp [handoffBytes_of_short short]⟩
  · rintro ⟨short, rfl⟩
    have fits : (utf8 target).length ≤ 0xffff := short.trans (by decide)
    refine ⟨side, textBytes target ++ rest, ?_, target, rest, ⟨fits, short, rfl⟩, ⟨rfl, rfl⟩, rfl⟩
    simp [handoffBytes_of_short short]

theorem decodeHistoryBoundaryEntries_eq_ok :
    decodeHistoryBoundaryEntries count input = .ok (boundary, rest) ↔
      boundary.length = count ∧
        (∀ entry ∈ boundary, 0 < (utf8 entry.1).length ∧
          (utf8 entry.1).length ≤ maxHistoryDeviceIdSize) ∧
        input = boundary.flatMap boundaryEntryBytes ++ rest := by
  induction count generalizing input rest boundary with
  | zero =>
    simp only [decodeHistoryBoundaryEntries, pure_eq_ok, List.length_eq_zero_iff]
    constructor
    · rintro ⟨rfl, rfl⟩
      simp
    · rintro ⟨rfl, -, rfl⟩
      simp
  | succ _ ih =>
    simp only [decodeHistoryBoundaryEntries, bind_eq_ok, getText_eq_ok, getU64_eq_ok,
      ih, pure_eq_ok, Bool.or_eq_false_iff, decide_eq_false_iff_not, not_lt]
    constructor
    · rintro ⟨deviceId, _, ⟨-, ⟨nonempty, short⟩, rfl⟩, sequence, _, rfl, others, _,
        ⟨rfl, valid, rfl⟩, rfl, rfl⟩
      refine ⟨rfl, ?_, ?_⟩
      · intro entry entryMem
        rcases List.mem_cons.mp entryMem with rfl | older
        · exact ⟨Nat.pos_of_ne_zero nonempty, short⟩
        · exact valid entry older
      · simp [boundaryEntryBytes]
    · rintro ⟨sized, valid, rfl⟩
      rcases boundary with _ | ⟨⟨deviceId, sequence⟩, others⟩
      · cases sized
      · rcases valid (deviceId, sequence) (.head _) with ⟨nonempty, short⟩
        have fits : (utf8 deviceId).length ≤ 0xffff := short.trans (by decide)
        refine ⟨deviceId, _, ⟨fits, ⟨Nat.ne_of_gt nonempty, short⟩, ?_⟩, sequence, _, rfl, others,
          rest,
          ⟨by simpa using sized, ?_, rfl⟩, rfl, rfl⟩
        · simp [boundaryEntryBytes]
        · intro entry entryMem
          exact valid entry (.tail _ entryMem)

theorem toNat_ofNat_u32 {length : ℕ} (short : length ≤ 0xffff) :
    (UInt32.ofNat length).toNat = length := by
  simp only [UInt32.toNat_ofNat']
  omega

@[simp]
theorem decodeHistoryBoundary_eq_ok :
    decodeHistoryBoundary input = .ok (boundary, rest) ↔
      BoundaryValid boundary ∧ input = boundaryBytes boundary ++ rest := by
  simp only [decodeHistoryBoundary, bind_eq_ok, getU16_eq_ok,
    ite_throw_bind_eq_ok, decodeHistoryBoundaryEntries_eq_ok, not_lt]
  constructor
  · rintro ⟨_, _, rfl, few, sized, valid, rfl⟩
    refine ⟨⟨by omega, valid⟩, ?_⟩
    simp [boundaryBytes, sized]
  · rintro ⟨⟨few, valid⟩, rfl⟩
    have counted : (UInt16.ofNat boundary.length).toNat = boundary.length :=
      toNat_ofNat_u16 (few.trans (by decide))
    refine ⟨UInt16.ofNat boundary.length, _, ?_, ?_, ?_, valid, rfl⟩
    · simp [boundaryBytes]
    · rw [counted]
      exact few
    · rw [counted]

@[simp]
theorem validateFilePosition_eq_ok :
    validateFilePosition value = .ok () ↔ value.toNat ≤ maxClipboardSize := by
  simp [validateFilePosition]

@[simp]
theorem validateProgress_eq_ok {completed total : UInt64} :
    validateProgress completed total = .ok () ↔
      total.toNat ≤ maxClipboardSize ∧ completed ≤ total := by
  simp [validateProgress, Unique.exists_iff]

theorem length_le_of_validatePath {path : String} (valid : validatePath path = .ok ()) :
    (utf8 path).length ≤ maxClipboardPathSize := by
  by_contra tooLong
  simp [validatePath, Nat.lt_of_not_le tooLong] at valid

theorem exists_total_iff {total size : UInt64} (continues : UInt64 → Prop) :
    (∃ sum, checkedAdd total size = some sum ∧ validateFilePosition sum = .ok () ∧ continues sum) ↔
      total.toNat + size.toNat ≤ maxClipboardSize ∧ continues (total + size) := by
  constructor
  · rintro ⟨_, added, small, next⟩
    rcases checkedAdd_eq_some.mp added with ⟨fits, rfl⟩
    rw [validateFilePosition_eq_ok, toNat_add_of_le fits] at small
    exact ⟨small, next⟩
  · rintro ⟨small, next⟩
    have fits : total.toNat + size.toNat ≤ u64Max := small.trans (by decide)
    refine ⟨total + size, checkedAdd_eq_some.mpr ⟨fits, rfl⟩, ?_, next⟩
    rw [validateFilePosition_eq_ok, toNat_add_of_le fits]
    exact small

theorem decodeManifestEntries_eq_ok {previous total : UInt64}
    {entries : List ClipboardManifestEntry} :
    decodeManifestEntries count previous total input = .ok (entries, rest) ↔
      entries.length = count ∧ ManifestValid previous total entries ∧
        input = entries.flatMap manifestEntryBytes ++ rest := by
  induction count generalizing previous total input rest entries with
  | zero =>
    simp only [decodeManifestEntries, pure_eq_ok, List.length_eq_zero_iff]
    constructor
    · rintro ⟨rfl, rfl⟩
      simp [ManifestValid]
    · rintro ⟨rfl, -, rfl⟩
      simp
  | succ _ ih =>
    simp only [decodeManifestEntries, bind_eq_ok, getU64_eq_ok,
      ite_throw_bind_eq_ok, getEntryKind_eq_ok, getText_eq_ok, lift_eq_ok,
      okOr_eq_ok, ih, pure_eq_ok, decide_eq_false_iff_not, not_lt, not_or]
    constructor
    · rintro ⟨fileId, _, rfl, ⟨nonzero, increasing⟩, kind, _, rfl, path, _, ⟨-, -, rfl⟩,
        ⟨⟩, _, ⟨validPath, rfl⟩, size, _, rfl, directory, sum, _, ⟨added, rfl⟩, ⟨⟩, _,
        ⟨small, rfl⟩, others, _, ⟨rfl, valid, rfl⟩, rfl, rfl⟩
      have bounded :=
        (exists_total_iff (ManifestValid fileId · others)).mp ⟨sum, added, small, valid⟩
      refine ⟨rfl, ⟨validPath, nonzero, UInt64.not_le.mp increasing, bounded.1, ?_, bounded.2⟩, ?_⟩
      · intro isDirectory
        by_contra nonempty
        exact directory ⟨isDirectory, nonempty⟩
      · simp [manifestEntryBytes]
    · rintro ⟨sized, valid, rfl⟩
      rcases entries with _ | ⟨entry, others⟩
      · cases sized
      · rcases valid with ⟨validPath, nonzero, increasing, small, directory, others_valid⟩
        have short := length_le_of_validatePath validPath
        have fits : (utf8 entry.path).length ≤ 0xffff := short.trans (by decide)
        rcases (exists_total_iff (ManifestValid entry.fileId · others)).mpr
          ⟨small, others_valid⟩ with ⟨sum, added, position, continued⟩
        refine ⟨entry.fileId, _, ?_, ⟨nonzero, UInt64.not_le.mpr increasing⟩,
          entry.kind, _, rfl, entry.path,
          _, ⟨fits, short, rfl⟩, (), _, ⟨validPath, rfl⟩, entry.size, _, rfl, ?_, sum, _,
          ⟨added, rfl⟩, (), _, ⟨position, rfl⟩, others, rest,
          ⟨by simpa using sized, continued, rfl⟩, rfl, rfl⟩
        · simp [manifestEntryBytes]
        · rintro ⟨isDirectory, nonempty⟩
          exact nonempty (directory isDirectory)

@[simp]
theorem decodeManifest_eq_ok :
    decodeManifest input = .ok (event, rest) ↔
      ∃ transferId entries, event = .clipboardManifest transferId entries ∧
        entries ≠ [] ∧ entries.length ≤ maxClipboardManifestEntries ∧
        ManifestValid 0 0 entries ∧ input = payload event ++ rest := by
  simp only [decodeManifest, bind_eq_ok, getU64_eq_ok, getU32_eq_ok,
    ite_throw_bind_eq_ok, decodeManifestEntries_eq_ok, pure_eq_ok, not_or, not_lt]
  constructor
  · rintro ⟨transferId, _, rfl, _, _, rfl, ⟨some_entries, few⟩, entries, _,
      ⟨sized, valid, rfl⟩, rfl, rfl⟩
    refine ⟨transferId, entries, rfl, ?_, by omega, valid, ?_⟩
    · rintro rfl
      exact some_entries sized.symm
    · simp [payload, sized]
  · rintro ⟨transferId, entries, rfl, nonempty, few, valid, rfl⟩
    have counted : (UInt32.ofNat entries.length).toNat = entries.length :=
      toNat_ofNat_u32 (few.trans (by decide))
    refine ⟨transferId, _, ?_, UInt32.ofNat entries.length, _, rfl, ?_, entries, rest,
      ⟨counted.symm, valid, rfl⟩, rfl, rfl⟩
    · simp [payload]
    · rw [counted]
      exact ⟨by simpa using nonempty, few⟩

theorem exists_fileId_iff (continues : UInt64 → Prop) {fileId : Option UInt64} :
    (∃ value, continues value ∧ (if value = 0 then none else some value) = fileId) ↔
      fileId ≠ some 0 ∧ continues (fileId.getD 0) := by
  constructor
  · rintro ⟨value, continued, rfl⟩
    by_cases zero : value = 0
    · simpa [zero] using continued
    · simpa [zero] using continued
  · rintro ⟨nonzero, continued⟩
    refine ⟨fileId.getD 0, continued, ?_⟩
    cases fileId with
    | none => simp
    | some value =>
      have : value ≠ 0 := fun zero => nonzero (zero ▸ rfl)
      simp [this]

variable {width height totalLen chunks : UInt32}

theorem length_le_of_profileMetadata {nameLen : ℕ}
    (valid : invalidProfileMetadata nameLen width height totalLen chunks = false) :
    nameLen ≤ maxProfileNameSize := by
  simp only [invalidProfileMetadata, Bool.or_eq_false_iff, decide_eq_false_iff_not, not_lt] at valid
  omega

theorem exists_nameLen_iff {displayName : String} (continues : UInt8 → Prop) :
    (∃ nameLen : UInt8, continues nameLen ∧
        invalidProfileMetadata nameLen.toNat width height totalLen chunks = false ∧
        (utf8 displayName).length = nameLen.toNat) ↔
      invalidProfileMetadata (utf8 displayName).length width height totalLen chunks = false ∧
        continues (UInt8.ofNat (utf8 displayName).length) := by
  constructor
  · rintro ⟨_, continued, valid, sized⟩
    rw [sized, UInt8.ofNat_toNat]
    exact ⟨valid, continued⟩
  · rintro ⟨valid, continued⟩
    have short : (utf8 displayName).length ≤ 128 := length_le_of_profileMetadata valid
    have sized : (UInt8.ofNat (utf8 displayName).length).toNat = (utf8 displayName).length := by
      simp only [UInt8.toNat_ofNat']
      omega
    exact ⟨_, continued, sized.symm ▸ valid, sized.symm⟩

theorem length_of_validateManualFileName {name : String}
    (valid : validateManualFileName name = .ok ()) :
    utf8 name ≠ [] ∧ (utf8 name).length ≤ maxManualFileNameSize := by
  simp only [validateManualFileName, guard_error_ok] at valid
  simp only [Bool.or_eq_true, List.isEmpty_iff, decide_eq_true_eq, not_or] at valid
  exact ⟨by tauto, by omega⟩

theorem decodeBody_self_eq_ok :
    decodeBody event.eventType input = .ok (event, rest) ↔
      Receivable event ∧ (∃ image, Spells event image ∧ input = image ++ rest) ∧
        (TailData event.eventType = true → rest = []) := by
  cases event with
  | input event =>
    cases event with
    | pointer event | keyboard event =>
      cases event <;>
        simp [eventType, decodeBody, Receivable, Sendable, Received, Spells, payload, TailData]
  | profileStart =>
    simp [eventType, decodeBody, Receivable, Sendable, Received, Spells, payload,
      TailData, exists_nameLen_iff]
    tauto
  | clipboardCapabilities capabilities =>
    cases capabilities
    simp [eventType, decodeBody, Receivable, Sendable, Received, Spells, payload,
      TailData, -Bool.exists_bool]
  | clipboardTransferCancel =>
    simp [eventType, decodeBody, Receivable, Sendable, Received, Spells, payload,
      TailData, exists_fileId_iff]
  | manualFileOffer =>
    simp [eventType, decodeBody, Receivable, Sendable, Received, Spells, payload,
      TailData, Unique.exists_iff]
    constructor
    · rintro ⟨⟨rfl, nonzero⟩, -, valid⟩
      exact ⟨⟨nonzero, valid⟩, rfl⟩
    · rintro ⟨⟨nonzero, valid⟩, rfl⟩
      rcases length_of_validateManualFileName valid with ⟨nonempty, short⟩
      exact ⟨⟨rfl, nonzero⟩, ⟨short.trans (by decide), nonempty, short⟩, valid⟩
  | profileChunk | clipboardChunk | clipboardFileChunk | historyRecordChunk
  | manualFileChunk =>
    cases rest <;>
      simp [eventType, decodeBody, Receivable, Sendable, Received, Spells, payload,
        TailData, Unique.exists_iff]
    try tauto
  | _ =>
    simp [eventType, decodeBody, Receivable, Sendable, Received, Spells, payload,
      TailData, -Bool.exists_bool, Unique.exists_iff]
    try tauto

theorem decodeBody_ensures (tag : EventType) :
    Ensures (decodeBody tag) (fun event => event.eventType = tag) := by
  cases tag <;> simp only [decodeBody, decodeManifest]
  all_goals
    repeat
      first
      | exact .pure rfl
      | exact .throw
      | refine .ite ?_ ?_
      | refine .bind ?_; intro

/-- `decode` checks the size, reads the tag, and wants the fields to be all that follows. -/
theorem decode_eq_ok_iff_decodeBody :
    decode input = .ok event ↔
      input.length ≤ maxDatagramSize ∧
        ∃ tag fields, input = EventType.toByte tag :: fields ∧
          decodeBody tag fields = .ok (event, []) := by
  have body : decode input = .ok event ↔
      input.length ≤ maxDatagramSize ∧ decodeEvent input = .ok (event, []) := by
    unfold decode
    rcases decodeEvent input with _ | ⟨_, rest⟩
    · simp
    · cases rest <;> simp
  rw [body]
  simp only [decodeEvent, bind_eq_ok, getEventType_eq_ok]

/-- `decode` accepts the spellings of the receivable events that fit a datagram. -/
theorem decode_eq_ok :
    decode input = .ok event ↔
      input.length ≤ maxDatagramSize ∧ Receivable event ∧
        ∃ image, Spells event image ∧ input = event.eventType.toByte :: image := by
  rw [decode_eq_ok_iff_decodeBody, and_congr_right_iff]
  intro _
  constructor
  · rintro ⟨tag, fields, rfl, accepted⟩
    have sameTag := decodeBody_ensures tag fields [] event accepted
    subst sameTag
    rcases decodeBody_self_eq_ok.mp accepted with ⟨receivable, ⟨image, spelled, rfl⟩, -⟩
    exact ⟨receivable, image, spelled, by simp⟩
  · rintro ⟨receivable, image, spelled, rfl⟩
    refine ⟨event.eventType, image, rfl, ?_⟩
    apply decodeBody_self_eq_ok.mpr
    exact ⟨receivable, ⟨image, spelled, by simp⟩, fun _ => rfl⟩

end Syntra.Proto
