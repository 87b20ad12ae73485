import Syntra.Proto.Encoding

/-!
# Round trips

What a sender puts on the wire and what an honest receiver makes of it. The results here follow from
the two equivalences that connect the codec to the wire format; the one new fact is
`decodeBody_payload`.
-/

namespace Syntra.Proto

open ByteFormat Reader List ProtoEvent

variable {event other : ProtoEvent} {image rest more : Bytes}

theorem delivered_of_received (received : Received event) : delivered event = some event := by
  cases event with
  | leaveAt along | enterAt _ along =>
    have inUnit : along.InUnit := received
    simp [delivered, inUnit.1, F32.clamp_of_inUnit inUnit]
  | handoff target =>
    have whole : (utf8 target).take maxHandoffTarget = utf8 target :=
      take_of_length_le received
    simp [delivered, whole]
  | enterVia _ via =>
    have whole : (utf8 via).take maxHandoffTarget = utf8 via := take_of_length_le received
    simp [delivered, whole]
  | clipboardTransferCancel _ fileId =>
    cases fileId with
    | none => rfl
    | some value =>
      have nonzero : value ≠ 0 := fun zero => received (zero ▸ rfl)
      simp [delivered, nonzero]
  | clipboardTransferProgress =>
    rcases received with ⟨nonzero, small⟩
    rw [validateFilePosition_eq_ok] at small
    simp [delivered, nonzero, small]
  | _ => rfl

theorem spells_payload (received : Received event) : Spells event (payload event) := by
  cases event with
  | pong alive => exact ⟨alive.toUInt8, rfl, by cases alive <;> rfl⟩
  | leaveAt along | enterAt _ along =>
    have inUnit : along.InUnit := received
    exact ⟨along, inUnit.1, F32.clamp_of_inUnit inUnit, rfl⟩
  | _ => rfl

theorem length_take_handoff (target : String) :
    ((utf8 target).take (min (utf8 target).length maxHandoffTarget)).length =
      (UInt16.ofNat (min (utf8 target).length maxHandoffTarget)).toNat := by
  rw [toNat_ofNat_u16 (le_trans (min_le_right _ _) (by decide)), length_take]
  omega

theorem getHandoff_handoffBytes {side otherSide : Position} {target otherTarget : String} :
    getHandoff (handoffBytes side target ++ rest) = .ok ((otherSide, otherTarget), more) ↔
      side = otherSide ∧ fromUtf8? ((utf8 target).take maxHandoffTarget) = some otherTarget ∧
        rest = more := by
  have cut : (utf8 target).take maxHandoffTarget =
      (utf8 target).take (min (utf8 target).length maxHandoffTarget) := by
    rw [Nat.min_comm, ← take_take, take_length]
  rw [getHandoff_eq_ok, fromUtf8?_eq_some, cut]
  constructor
  · rintro ⟨short, aligned⟩
    rw [handoffBytes_of_short short] at aligned
    simp only [handoffBytes, textBytes, cons_append, append_assoc, cons.injEq,
      Position.toByte_inj, u16Bytes_append_inj] at aligned
    rcases aligned with ⟨sameSide, sameLength, tails⟩
    have sized : ((utf8 target).take (min (utf8 target).length maxHandoffTarget)).length =
        (utf8 otherTarget).length := by
      rw [length_take_handoff, sameLength, toNat_ofNat_u16 (short.trans (by decide))]
    rcases append_inj tails sized with ⟨sameText, sameRest⟩
    exact ⟨sameSide, sameText, sameRest⟩
  · rintro ⟨rfl, sameText, rfl⟩
    have sized := length_take_handoff target
    rw [sameText] at sized
    have short : (utf8 otherTarget).length ≤ maxHandoffTarget := by
      rw [← sameText, length_take]
      omega
    refine ⟨short, ?_⟩
    rw [handoffBytes_of_short short]
    rw [handoffBytes, textBytes, sameText, sized, UInt16.ofNat_toNat]

theorem getAlong_u32Bytes {along result : F32} :
    getAlong (u32Bytes along.bits ++ rest) = .ok (result, more) ↔
      along.isFinite = true ∧ along.clamp .zero .one = result ∧ rest = more := by
  rw [getAlong_eq_ok]
  constructor
  · rintro ⟨-, raw, finite, rfl, aligned⟩
    rcases u32Bytes_append_inj.mp aligned with ⟨sameBits, sameRest⟩
    have same : along = raw := congrArg F32.mk sameBits
    subst same
    exact ⟨finite, rfl, sameRest⟩
  · rintro ⟨finite, rfl, rfl⟩
    exact ⟨F32.clamp_inUnit finite, along, finite, rfl, rfl⟩

theorem progress_of_decodeBody {input : Bytes}
    (accepted : decodeBody .clipboardTransferProgress input = .ok (other, more)) :
    ∃ transferId fileId completed total : UInt64,
      fileId ≠ 0 ∧ total.toNat ≤ maxClipboardSize ∧
        input = u64Bytes transferId ++
          (u64Bytes fileId ++ (u64Bytes completed ++ (u64Bytes total ++ more))) := by
  simp only [decodeBody, bind_eq_ok, getU64_eq_ok, getNonzeroFileId_eq_ok,
    lift_eq_ok, pure_eq_ok] at accepted
  rcases accepted with ⟨transferId, _, rfl, fileId, _, ⟨rfl, nonzero⟩, completed, _, rfl, total,
    _, rfl, ⟨⟩, _, ⟨valid, rfl⟩, -, rfl⟩
  exact ⟨transferId, fileId, completed, total, nonzero, (validateProgress_eq_ok.mp valid).1, rfl⟩

theorem decodeBody_payload {input : Bytes} (sendable : Sendable event)
    (whole : TailData event.eventType = true → rest = [])
    (written : input = payload event ++ rest) :
    decodeBody event.eventType input = .ok (other, more) ↔
      delivered event = some other ∧ rest = more := by
  by_cases received : Received event
  · have accepted : decodeBody event.eventType input = .ok (event, rest) :=
      decodeBody_self_eq_ok.mpr
        ⟨⟨sendable, received⟩, ⟨payload event, spells_payload received, written⟩, whole⟩
    rw [accepted, delivered_of_received received]
    simp
  · cases event with
    | leaveAt =>
      simp only [eventType, decodeBody, bind_eq_ok, pure_eq_ok]
      simp only [written, payload, getAlong_u32Bytes, delivered]
      simp
      tauto
    | enterAt =>
      simp only [eventType, decodeBody, bind_eq_ok, pure_eq_ok, getPosition_eq_ok]
      simp [written, payload, getAlong_u32Bytes, delivered, -getAlong_eq_ok]
      tauto
    | handoff | enterVia =>
      simp only [eventType, decodeBody, bind_eq_ok, pure_eq_ok]
      simp [written, payload, getHandoff_handoffBytes, delivered, -getHandoff_eq_ok]
      tauto
    | clipboardTransferCancel _ fileId =>
      have zero : fileId = some 0 := by
        by_contra nonzero
        exact received nonzero
      simp only [eventType, decodeBody, bind_eq_ok, pure_eq_ok, getU64_eq_ok, getCancelReason_eq_ok]
      simp [written, payload, delivered, zero]
      tauto
    | clipboardTransferProgress transferId fileId completed total =>
      have refused : delivered (.clipboardTransferProgress transferId fileId completed total) =
          none := by
        apply if_neg
        rwa [← validateFilePosition_eq_ok]
      rw [refused]
      constructor
      · intro accepted
        rcases progress_of_decodeBody accepted with ⟨_, _, _, _, nonzero, small, aligned⟩
        simp only [written, payload, append_assoc, u64Bytes_append_inj] at aligned
        rcases aligned with ⟨-, rfl, -, rfl, -⟩
        exact absurd ⟨nonzero, validateFilePosition_eq_ok.mpr small⟩ received
      · rintro ⟨impossible, -⟩
        cases impossible
    | _ => exact absurd trivial received

/-- Decoding the datagram of an event yields what the receiver makes of it. -/
theorem decode_encode (encoded : encode event = .ok image) :
    decode image = .ok other ↔ delivered event = some other := by
  rcases encode_eq_ok.mp encoded with ⟨sendable, rfl, fits⟩
  have accepted : decodeBody event.eventType (payload event) = .ok (other, []) ↔
      delivered event = some other := by
    rw [decodeBody_payload sendable (fun _ => rfl) (append_nil _).symm]
    simp
  rw [decode_eq_ok_iff_decodeBody, and_iff_right fits, ← accepted]
  simp

/-- The events that carry nothing for the receiver to bring into range, cut or normalize. -/
def Unaltered : ProtoEvent → Prop
  | .leaveAt along => along.InUnit
  | .enterAt _ along => along.InUnit
  | .handoff target _ => (utf8 target).length ≤ maxHandoffTarget
  | .enterVia _ via => (utf8 via).length ≤ maxHandoffTarget
  | .clipboardTransferCancel _ fileId _ => fileId ≠ some 0
  | _ => True

theorem delivered_eq_self (unaltered : Unaltered event) (arrives : delivered event = some other) :
    other = event := by
  by_cases received : Received event
  · rw [delivered_of_received received, Option.some_inj] at arrives
    exact arrives.symm
  · cases event with
    | clipboardTransferProgress =>
      simp only [delivered, Option.ite_none_right_eq_some, Option.some_inj] at arrives
      exact arrives.2.symm
    | _ => exact absurd unaltered received

/-- Decoding never changes a message. -/
theorem eq_of_decode_encode (unaltered : Unaltered event) (encoded : encode event = .ok image)
    (decoded : decode image = .ok other) : other = event :=
  delivered_eq_self unaltered ((decode_encode encoded).mp decoded)

theorem eq_of_decode_encode_enterAt :
    encode (.enterAt .right ⟨0x3f200000⟩) =
        .ok [EventType.enterAt.toByte, Position.right.toByte, 0x3f, 0x20, 0, 0] ∧
      ∀ other,
        decode [EventType.enterAt.toByte, Position.right.toByte, 0x3f, 0x20, 0, 0] = .ok other →
        other = .enterAt .right ⟨0x3f200000⟩ := by
  refine ⟨rfl, fun _ decoded => ?_⟩
  have unaltered : Unaltered (.enterAt .right ⟨0x3f200000⟩) := by
    unfold Unaltered F32.InUnit
    decide
  exact eq_of_decode_encode unaltered rfl decoded

/-- The events whose datagrams an honest receiver accepts: edge fractions are finite, the cut of a
hand-off target falls between two characters, and progress is reported on a real file within the
transfer limit. -/
def Deliverable : ProtoEvent → Prop
  | .leaveAt along => along.isFinite = true
  | .enterAt _ along => along.isFinite = true
  | .handoff target _ => ∃ text, (utf8 target).take maxHandoffTarget = utf8 text
  | .enterVia _ via => ∃ text, (utf8 via).take maxHandoffTarget = utf8 text
  | .clipboardTransferProgress _ fileId _ total =>
    fileId ≠ 0 ∧ total.toNat ≤ maxClipboardSize
  | _ => True

theorem exists_delivered (deliverable : Deliverable event) :
    ∃ arrived, delivered event = some arrived := by
  cases event with
  | leaveAt | enterAt => exact ⟨_, if_pos deliverable⟩
  | handoff _ side =>
    rcases deliverable with ⟨text, cut⟩
    exact ⟨.handoff text side, by simp [delivered, cut]⟩
  | enterVia side =>
    rcases deliverable with ⟨text, cut⟩
    exact ⟨.enterVia side text, by simp [delivered, cut]⟩
  | clipboardTransferProgress => exact ⟨_, if_pos deliverable⟩
  | _ => exact ⟨_, rfl⟩

/-- What a sender may put on the wire with finite edge fractions is not refused. -/
theorem exists_decode_of_encode (deliverable : Deliverable event)
    (encoded : encode event = .ok image) : ∃ arrived, decode image = .ok arrived := by
  rcases exists_delivered deliverable with ⟨arrived, arrives⟩
  exact ⟨arrived, (decode_encode encoded).mpr arrives⟩

theorem exists_decode_of_encode_progress :
    ∃ arrived, decode (EventType.clipboardTransferProgress.toByte ::
      (u64Bytes 1 ++ (u64Bytes 2 ++ (u64Bytes 3 ++ u64Bytes 4)))) = .ok arrived := by
  have deliverable : Deliverable (.clipboardTransferProgress 1 2 3 4) := by
    unfold Deliverable
    decide
  exact exists_decode_of_encode deliverable rfl

/-- A fraction that is not a number is put on the wire, and refused. -/
theorem decode_encode_leaveAt_nan :
    encode (.leaveAt ⟨0x7fc00000⟩) = .ok [EventType.leaveAt.toByte, 0x7f, 0xc0, 0, 0] ∧
      decode [EventType.leaveAt.toByte, 0x7f, 0xc0, 0, 0] = .error .truncated := by
  exact ⟨rfl, rfl⟩

theorem length_of_spells (spelled : Spells event image) :
    image.length = (payload event).length := by
  cases event with
  | pong =>
    rcases spelled with ⟨_, rfl, -⟩
    rfl
  | leaveAt | enterAt =>
    rcases spelled with ⟨_, -, -, rfl⟩
    simp [payload, u32Bytes]
  | _ => exact congrArg length spelled

/-- The datagrams that the receiver accepts without being the encoding of what it makes of them:
a flag byte above one, or an edge fraction outside `[0, 1]`. -/
inductive Normalized : Bytes → ProtoEvent → Prop
  | pong {flag : UInt8} (large : 1 < flag) :
      Normalized [EventType.pong.toByte, flag] (.pong true)
  | leaveAt {raw : F32} (finite : raw.isFinite = true) (outside : ¬raw.InUnit) :
      Normalized (EventType.leaveAt.toByte :: u32Bytes raw.bits) (.leaveAt (raw.clamp .zero .one))
  | enterAt {side : Position} {raw : F32} (finite : raw.isFinite = true) (outside : ¬raw.InUnit) :
      Normalized (EventType.enterAt.toByte :: side.toByte :: u32Bytes raw.bits)
        (.enterAt side (raw.clamp .zero .one))

theorem payload_or_normalized (spelled : Spells event image) :
    image = payload event ∨ Normalized (event.eventType.toByte :: image) event := by
  cases event with
  | pong =>
    rcases spelled with ⟨flag, rfl, rfl⟩
    by_cases zero : flag = 0
    · left
      subst zero
      rfl
    · by_cases one : flag = 1
      · left
        subst one
        rfl
      · right
        have large : 1 < flag := by
          have nonzero : flag.toNat ≠ 0 := fun same => zero (UInt8.toNat_inj.mp same)
          have notOne : flag.toNat ≠ 1 := fun same => one (UInt8.toNat_inj.mp same)
          change 1 < flag.toNat
          omega
        have set : (flag != 0) = true := by simpa using zero
        rw [set]
        exact .pong large
  | leaveAt =>
    rcases spelled with ⟨raw, finite, rfl, rfl⟩
    by_cases inUnit : raw.InUnit
    · left
      rw [F32.clamp_of_inUnit inUnit, payload]
    · right
      exact .leaveAt finite inUnit
  | enterAt =>
    rcases spelled with ⟨raw, finite, rfl, rfl⟩
    by_cases inUnit : raw.InUnit
    · left
      rw [F32.clamp_of_inUnit inUnit, payload]
    · right
      exact .enterAt finite inUnit
  | _ => exact .inl spelled

/-- An accepted datagram can be encoded back, and is its own encoding unless it was normalized. -/
theorem encode_of_decode (decoded : decode image = .ok event) :
    ∃ canonical, encode event = .ok canonical ∧ decode canonical = .ok event ∧
      (canonical = image ∨ Normalized image event) := by
  rcases decode_eq_ok.mp decoded with ⟨fits, receivable, _, spelled, rfl⟩
  have sized := length_of_spells spelled
  have canonicalFits : (event.eventType.toByte :: payload event).length ≤ maxDatagramSize := by
    rw [List.length_cons, ← sized, ← List.length_cons]
    exact fits
  refine ⟨event.eventType.toByte :: payload event, ?_, ?_, ?_⟩
  · exact encode_eq_ok.mpr ⟨receivable.1, rfl, canonicalFits⟩
  · apply decode_eq_ok.mpr
    exact ⟨canonicalFits, receivable, payload event, spells_payload receivable.2, rfl⟩
  · rcases payload_or_normalized spelled with rfl | normalized
    · exact .inl rfl
    · exact .inr normalized

theorem encode_of_decode_pong :
    ∃ canonical, encode (.pong true) = .ok canonical ∧ decode canonical = .ok (.pong true) ∧
      (canonical = [EventType.pong.toByte, 7] ∨
        Normalized [EventType.pong.toByte, 7] (.pong true)) :=
  encode_of_decode rfl

/-- An encoding without tail data ends where its last field does: a datagram that starts the same
way is accepted only if it is no shorter and no longer. -/
theorem encode_selfDelimiting (encoded : encode event = .ok image)
    (noTail : TailData event.eventType = false) :
    (∀ cut, cut <+: image → cut ≠ image → ∀ arrived, decode cut ≠ .ok arrived) ∧
      (∀ more, more ≠ [] → ∀ arrived, decode (image ++ more) ≠ .ok arrived) := by
  rcases encode_eq_ok.mp encoded with ⟨sendable, rfl, _⟩
  refine ⟨?_, ?_⟩
  · rintro _ ⟨missing, joined⟩ strict arrived decoded
    rcases decode_eq_ok.mp decoded with ⟨-, receivable, spelling, spelled, rfl⟩
    rw [List.cons_append, List.cons.injEq, EventType.toByte_inj] at joined
    rcases joined with ⟨sameTag, joined⟩
    have accepted : decodeBody arrived.eventType (payload event) = .ok (arrived, missing) := by
      apply decodeBody_self_eq_ok.mpr
      refine ⟨receivable, ⟨spelling, spelled, joined.symm⟩, ?_⟩
      rw [sameTag, noTail]
      simp
    rw [sameTag, decodeBody_payload sendable (fun _ => rfl) (List.append_nil _).symm] at accepted
    apply strict
    rw [sameTag, ← joined, ← accepted.2, List.append_nil]
  · intro _ nonempty _ decoded
    rcases decode_eq_ok_iff_decodeBody.mp decoded with ⟨-, _, _, joined, accepted⟩
    rw [List.cons_append, List.cons.injEq, EventType.toByte_inj] at joined
    rcases joined with ⟨rfl, joined⟩
    rw [decodeBody_payload sendable (by simp [noTail]) joined.symm] at accepted
    exact nonempty accepted.2

theorem encode_selfDelimiting_ack :
    (∀ cut, cut <+: [EventType.ack.toByte, 0, 0, 0, 9] →
        cut ≠ [EventType.ack.toByte, 0, 0, 0, 9] → ∀ arrived, decode cut ≠ .ok arrived) ∧
      (∀ more, more ≠ [] →
        ∀ arrived, decode ([EventType.ack.toByte, 0, 0, 0, 9] ++ more) ≠ .ok arrived) :=
  @encode_selfDelimiting (.ack 9) _ rfl rfl

/-- The kinds that `encode` limits to the largest datagram only. -/
def MaySplit : ProtoEvent → Prop
  | .clipboardChunk .. | .clipboardManifest .. | .historyClearBoundary .. | .historyClearApply ..
  | .historyClearAck .. => True
  | _ => False

/-- No other datagram needs to be split on its way. -/
theorem encode_safe (event : ProtoEvent) :
    MaySplit event ∨ ∀ image, encode event = .ok image → image.length ≤ safeDatagramSize := by
  have safe (short : Sendable event → (payload event).length < safeDatagramSize) :
      MaySplit event ∨ ∀ image, encode event = .ok image → image.length ≤ safeDatagramSize := by
    right
    intro image encoded
    rcases encode_eq_ok.mp encoded with ⟨sendable, rfl, -⟩
    exact short sendable
  cases event with
  | clipboardChunk | clipboardManifest | historyClearBoundary | historyClearApply
  | historyClearAck => exact .inl trivial
  | manualFileOffer =>
    refine safe fun sendable => ?_
    rcases sendable with ⟨_, valid⟩
    have short := (length_of_validateManualFileName valid).2
    rw [maxManualFileNameSize] at short
    simp [payload, u64Bytes, u16Bytes, textBytes, safeDatagramSize]
    omega
  | manualFileResult _ _ error =>
    refine safe fun sendable => ?_
    rcases sendable with ⟨_, _, valid⟩
    cases error <;> simp [validateManualFileError, payload, u64Bytes, u16Bytes, textBytes,
      optionalStringBytes, safeDatagramSize, maxManualFileErrorSize] at valid ⊢
    omega
  | profileStart =>
    refine safe fun sendable => ?_
    rcases sendable with ⟨_, valid⟩
    simp [invalidProfileMetadata, maxProfileNameSize] at valid
    simp [payload, u64Bytes, u32Bytes, safeDatagramSize]
    omega
  | manualFileChunk | profileChunk | clipboardFileChunk | historyRecordChunk =>
    refine safe fun sendable => ?_
    simp [Sendable, validateFileChunk, payload, u64Bytes, u32Bytes, safeDatagramSize,
      maxManualFileChunkSize, maxProfileChunkSize, profileChunkHeaderSize,
      maxClipboardFileChunkSize, clipboardFileChunkHeaderSize, maxHistoryChunkSize,
      historyChunkHeaderSize] at sendable ⊢
    omega
  | handoff | enterVia =>
    refine safe fun _ => ?_
    simp [payload, handoffBytes, u16Bytes, maxHandoffTarget, safeDatagramSize]
    omega
  | historySyncPageEnd _ next =>
    cases next <;> exact safe fun _ => by simp [payload, u64Bytes, optionalU64Bytes,
      safeDatagramSize]
  | input event =>
    rcases event with (_ | _ | _ | _) | (_ | _) <;> exact safe fun _ => by simp [payload, u64Bytes,
      u32Bytes, safeDatagramSize]
  | _ => exact safe fun _ => by simp [payload, u64Bytes, u32Bytes, safeDatagramSize]

end Syntra.Proto
