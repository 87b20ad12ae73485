import Syntra.History.Records

/-!
# Reassembly

What the reassembler does with the datagrams of a record: as long as only these come under the
record's key, what it holds is part of the record, and with the last chunk the record is there.
-/

namespace Syntra.History

open ByteFormat Proto Store AList List Option

/-- The bytes are those of the record, and of a size that is sent. -/
structure Carries (codec : HistoryCodec) (record : ImportedHistoryEvent) (bytes : Bytes) :
    Prop where
  serialized : codec.serialize record = .ok bytes
  nonempty : bytes ≠ []
  short : bytes.length ≤ maxHistoryRecordSize

theorem maxHistoryRecordSize_lt : maxHistoryRecordSize < UInt32.size := by decide

theorem maxHistoryChunkSize_pos : 0 < maxHistoryChunkSize := by decide

variable {codec : HistoryCodec} {record : ImportedHistoryEvent} {bytes : Bytes}
  {requestId recordId : UInt64}

def datagrams (requestId recordId : UInt64) (bytes : Bytes) : List ProtoEvent :=
  .historyRecordStart requestId recordId (UInt32.ofNat bytes.length)
      (UInt32.ofNat (chunkCount maxHistoryChunkSize bytes)) ::
    (chunks maxHistoryChunkSize bytes).zipIdx.map fun (data, index) =>
      .historyRecordChunk requestId recordId (UInt32.ofNat index) data

theorem recordEvents_eq_ok {events : List ProtoEvent} :
    recordEvents codec requestId recordId record = .ok events ↔
      ∃ bytes, Carries codec record bytes ∧ events = datagrams requestId recordId bytes := by
  simp only [recordEvents, bind_ok, guard_bind_ok, pure_ok]
  constructor
  · rintro ⟨bytes, serialized, limited, -, rfl⟩
    simp only [Bool.or_eq_true, List.isEmpty_iff, decide_eq_true_eq, not_or, not_lt] at limited
    exact ⟨bytes, ⟨serialized, limited.1, limited.2⟩, rfl⟩
  · rintro ⟨bytes, carries, rfl⟩
    have small := carries.short.trans_lt maxHistoryRecordSize_lt
    refine ⟨bytes, carries.serialized, ?_, not_le.mpr small, rfl⟩
    simp [carries.nonempty, carries.short]

namespace Carries

variable (carries : Carries codec record bytes)

include carries

theorem toNat_length : (UInt32.ofNat bytes.length).toNat = bytes.length :=
  UInt32.toNat_ofNat_of_lt' (carries.short.trans_lt maxHistoryRecordSize_lt)

theorem chunkCount_le : chunkCount maxHistoryChunkSize bytes ≤ maxHistoryRecordSize := by
  have last := chunkCount_mul_lt carries.nonempty maxHistoryChunkSize_pos
  have wide : chunkCount maxHistoryChunkSize bytes - 1 ≤
      (chunkCount maxHistoryChunkSize bytes - 1) * maxHistoryChunkSize :=
    Nat.le_mul_of_pos_right _ maxHistoryChunkSize_pos
  have short := carries.short
  omega

theorem toNat_index {index : ℕ} (within : index ≤ chunkCount maxHistoryChunkSize bytes) :
    (UInt32.ofNat index).toNat = index :=
  UInt32.toNat_ofNat_of_lt' ((within.trans carries.chunkCount_le).trans_lt maxHistoryRecordSize_lt)

theorem chunkCount_pos : 0 < chunkCount maxHistoryChunkSize bytes := by
  have bound : bytes.length ≤ chunkCount maxHistoryChunkSize bytes * maxHistoryChunkSize :=
    length_le_chunkCount maxHistoryChunkSize_pos
  have long := length_pos_iff.mpr carries.nonempty
  apply Nat.pos_of_ne_zero
  intro none
  rw [none, zero_mul] at bound
  omega

end Carries

theorem mem_chunkDatagrams {event : ProtoEvent} :
    (event ∈ (chunks maxHistoryChunkSize bytes).zipIdx.map fun (data, index) =>
        .historyRecordChunk requestId recordId (UInt32.ofNat index) data) ↔
      ∃ index < chunkCount maxHistoryChunkSize bytes, event =
        .historyRecordChunk requestId recordId (UInt32.ofNat index)
          (chunkAt maxHistoryChunkSize bytes index) := by
  rw [List.mem_map]
  constructor
  · rintro ⟨⟨data, index⟩, member, rfl⟩
    have found := List.mem_zipIdx_iff_getElem?.mp member
    rcases List.getElem?_eq_some_iff.mp found with ⟨within, same⟩
    rw [length_chunks] at within
    have data_eq : chunkAt maxHistoryChunkSize bytes index = data := by
      simpa [chunks] using same
    exact ⟨index, within, by rw [data_eq]⟩
  · rintro ⟨index, within, rfl⟩
    refine ⟨(chunkAt maxHistoryChunkSize bytes index, index), ?_, rfl⟩
    rw [List.mem_zipIdx_iff_getElem?]
    simp [chunks, within]

theorem mem_datagrams {event : ProtoEvent} :
    event ∈ datagrams requestId recordId bytes ↔
      event = .historyRecordStart requestId recordId (UInt32.ofNat bytes.length)
          (UInt32.ofNat (chunkCount maxHistoryChunkSize bytes)) ∨
        ∃ index < chunkCount maxHistoryChunkSize bytes, event =
          .historyRecordChunk requestId recordId (UInt32.ofNat index)
            (chunkAt maxHistoryChunkSize bytes index) := by
  rw [datagrams, mem_cons, mem_chunkDatagrams]

/-- What has come of a record is part of these bytes. -/
structure PendingRecord.Fits (pending : PendingRecord) (bytes : Bytes) : Prop where
  totalLen : pending.totalLen = bytes.length
  length : pending.chunks.length = chunkCount maxHistoryChunkSize bytes
  slots : ∀ index data, pending.chunks[index]? = some (some data) →
    data = chunkAt maxHistoryChunkSize bytes index
  received : pending.received = pending.chunks.countP Option.isSome
  incomplete : pending.received < pending.chunks.length

namespace PendingRecord

variable {pending : PendingRecord} {index : ℕ}

theorem Fits.expectedLen (fits : pending.Fits bytes) (nonempty : bytes ≠ [])
    (within : index < chunkCount maxHistoryChunkSize bytes) :
    (chunkAt maxHistoryChunkSize bytes index).length = pending.expectedLen index := by
  rw [length_chunkAt nonempty maxHistoryChunkSize_pos within, PendingRecord.expectedLen,
    fits.length, fits.totalLen]

theorem countP_set {slots : List (Option Bytes)} (empty : slots[index]? = some none)
    (data : Bytes) :
    (slots.set index (some data)).countP isSome = slots.countP isSome + 1 := by
  induction slots generalizing index with
  | nil => cases empty
  | cons _ _ ih =>
    cases index with
    | zero =>
      simp only [getElem?_cons_zero, some.injEq] at empty
      simp [empty]
    | succ =>
      rw [set_cons_succ, countP_cons, countP_cons, ih empty]
      omega

theorem slots_fill {data : Bytes} (slots : ∀ index data, pending.chunks[index]? = some (some data) →
      data = chunkAt maxHistoryChunkSize bytes index)
    (same : data = chunkAt maxHistoryChunkSize bytes index) (other : ℕ) (found : Bytes)
    (there : (pending.fill index data).chunks[other]? = some (some found)) :
    found = chunkAt maxHistoryChunkSize bytes other := by
  rw [PendingRecord.fill, getElem?_set] at there
  split at there
  · rename_i equal
    split at there
    · simp only [some.injEq] at there
      rw [← there, same, equal]
    · cases there
  · exact slots other found there

theorem bytes_eq (length : pending.chunks.length = chunkCount maxHistoryChunkSize bytes)
    (slots : ∀ index data, pending.chunks[index]? = some (some data) →
      data = chunkAt maxHistoryChunkSize bytes index)
    (full : pending.chunks.countP isSome = pending.chunks.length) :
    pending.bytes = bytes := by
  have filled := countP_eq_length.mp full
  have pieces : pending.chunks.map (·.getD []) = ByteFormat.chunks maxHistoryChunkSize bytes := by
    apply ext_getElem
    · rw [length_map, length, length_chunks]
    · intro index within _
      rw [length_map] at within
      rcases isSome_iff_exists.mp (filled _ (getElem_mem within)) with ⟨data, there⟩
      have known := slots index data (by rw [getElem?_eq_getElem within, there])
      simp [ByteFormat.chunks, there, known]
  rw [PendingRecord.bytes, flatMap_def, pieces]
  exact flatten_chunks maxHistoryChunkSize_pos

end PendingRecord

namespace Reassembler

variable {P : Type} [DecidableEq P] {reassembler after : Reassembler P} {now : ℕ} {peer : P}
  {totalLen count : UInt32} {key : RecordKey P} {pending : PendingRecord}

theorem lookup_start (accepted : reassembler.start now peer requestId recordId totalLen count =
      .ok after) (different : key ≠ (peer, requestId, recordId)) :
    after.records.lookup key = reassembler.records.lookup key := by
  unfold start at accepted
  split at accepted
  · cases accepted
  split at accepted
  · cases accepted
  split at accepted
  · split at accepted
    · cases accepted
      rfl
    · cases accepted
  · split at accepted
    · cases accepted
      exact lookup_insert_ne different
    · cases accepted

theorem lookup_chunk {index : UInt32} {data : Bytes}
    (different : key ≠ (peer, requestId, recordId)) :
    (reassembler.chunk codec peer requestId recordId index data).1.records.lookup key =
      reassembler.records.lookup key := by
  unfold chunk
  dsimp only
  split
  · rfl
  split
  · rfl
  split
  · exact lookup_erase_ne different
  split
  · split <;> rfl
  split
  · exact lookup_insert_ne different
  · exact lookup_erase_ne different

theorem keeps_of_retain_eq_zero {keeps : RecordKey P → PendingRecord → Bool}
    (nothing : (reassembler.retain keeps).2 = 0)
    (found : reassembler.records.lookup key = some pending) : keeps key pending = true := by
  by_contra refused
  have listed := mem_lookup_iff.mp found
  have dropped : (⟨key, pending⟩ : Sigma fun _ => PendingRecord) ∈
      reassembler.records.entries.filter fun entry => !keeps entry.1 entry.2 := by
    rw [mem_filter]
    exact ⟨listed, by simpa using refused⟩
  have length : (reassembler.records.entries.filter fun entry => !keeps entry.1 entry.2) = [] :=
    length_eq_zero_iff.mp nothing
  rw [length] at dropped
  cases dropped

theorem start_own (carries : Carries codec record bytes)
    (fits : ∀ pending, reassembler.records.lookup (peer, requestId, recordId) = some pending →
      pending.Fits bytes)
    (accepted : reassembler.start now peer requestId recordId (UInt32.ofNat bytes.length)
      (UInt32.ofNat (chunkCount maxHistoryChunkSize bytes)) = .ok after) :
    ∃ pending, after.records.lookup (peer, requestId, recordId) = some pending ∧
      pending.Fits bytes := by
  unfold start at accepted
  split at accepted
  · cases accepted
  split at accepted
  · cases accepted
  split at accepted
  · rename_i previous found
    split at accepted
    · cases accepted
      exact ⟨previous, found, fits previous found⟩
    · cases accepted
  · split at accepted
    · cases accepted
      refine ⟨_, lookup_insert _, ?_⟩
      have count := carries.toNat_index (le_refl _)
      have positive := carries.chunkCount_pos
      refine ⟨carries.toNat_length, by simp [count], ?_, ?_, by simpa [count] using positive⟩
      · intro _ _ there
        rw [getElem?_replicate] at there
        split at there <;> cases there
      · rw [countP_replicate]
        rfl
    · cases accepted

theorem start_accepts (carries : Carries codec record bytes)
    (fits : ∀ pending, reassembler.records.lookup (peer, requestId, recordId) = some pending →
      pending.Fits bytes) (room : (peer, requestId, recordId) ∈ reassembler.records ∨
      reassembler.hasRoom bytes.length = true) :
    ∃ after, reassembler.start now peer requestId recordId (UInt32.ofNat bytes.length)
      (UInt32.ofNat (chunkCount maxHistoryChunkSize bytes)) = .ok after := by
  have length := carries.toNat_length
  have count := carries.toNat_index (le_refl _)
  have long := length_pos_iff.mpr carries.nonempty
  have sized : ¬((UInt32.ofNat bytes.length) = 0 ∨
      (UInt32.ofNat bytes.length).toNat > maxHistoryRecordSize) := by
    rintro (zero | large)
    · rw [zero] at length
      simp at length
      omega
    · rw [length] at large
      exact absurd carries.short (not_le.mpr large)
  have counted : ¬UInt32.ofNat (chunkCount maxHistoryChunkSize bytes) ≠
      UInt32.ofNat (divCeil (UInt32.ofNat bytes.length).toNat maxHistoryChunkSize) := by
    rw [length]
    exact not_not.mpr rfl
  unfold start
  rw [if_neg sized, if_neg counted]
  cases found : reassembler.records.lookup (peer, requestId, recordId) with
  | some previous =>
    have known := fits previous found
    refine ⟨reassembler, ?_⟩
    dsimp only
    rw [if_pos ⟨known.totalLen.trans length.symm, known.length.trans count.symm⟩]
  | none =>
    have room := room.resolve_left fun present => by
      rw [← lookup_isSome, found] at present
      cases present
    rw [length, if_pos room]
    exact ⟨_, rfl⟩

theorem chunk_own (roundTrips : codec.RoundTrips) (carries : Carries codec record bytes)
    {index : ℕ} (within : index < chunkCount maxHistoryChunkSize bytes)
    (found : reassembler.records.lookup (peer, requestId, recordId) = some pending)
    (fits : pending.Fits bytes) :
    let outcome := reassembler.chunk codec peer requestId recordId (UInt32.ofNat index)
      (chunkAt maxHistoryChunkSize bytes index)
    (outcome.2 = .ok none ∧ ∃ later,
      outcome.1.records.lookup (peer, requestId, recordId) = some later ∧ later.Fits bytes) ∨
    (outcome.2 = .ok (some record) ∧
      outcome.1.records.lookup (peer, requestId, recordId) = none) := by
  have position := carries.toNat_index within.le
  have expected := fits.expectedLen carries.nonempty within
  have bounded : index < pending.chunks.length := by rwa [fits.length]
  unfold chunk
  simp only [found, position]
  rw [if_neg (not_le.mpr bounded), if_neg (not_not.mpr expected)]
  cases slot : pending.chunks[index]?.join with
  | some previous =>
    rw [join_eq_some_iff] at slot
    have same := fits.slots index previous slot
    simp only [same, if_true]
    exact .inl ⟨trivial, pending, found, fits⟩
  | none =>
    have empty : pending.chunks[index]? = some none := by
      rw [getElem?_eq_getElem bounded] at slot ⊢
      simpa using slot
    have counted : (pending.fill index (chunkAt maxHistoryChunkSize bytes index)).received =
        (pending.fill index (chunkAt maxHistoryChunkSize bytes index)).chunks.countP
          isSome := by
      rw [PendingRecord.fill, PendingRecord.countP_set empty, fits.received]
    have length : (pending.fill index (chunkAt maxHistoryChunkSize bytes index)).chunks.length =
        chunkCount maxHistoryChunkSize bytes := by
      rw [PendingRecord.fill, length_set, fits.length]
    have slots := PendingRecord.slots_fill fits.slots
      (rfl : chunkAt maxHistoryChunkSize bytes index = _)
    by_cases full : (pending.fill index (chunkAt maxHistoryChunkSize bytes index)).received =
        (pending.fill index (chunkAt maxHistoryChunkSize bytes index)).chunks.length
    · right
      have whole := PendingRecord.bytes_eq length slots (counted.symm.trans full)
      simp only [if_neg (not_not.mpr full), whole, roundTrips _ _ carries.serialized]
      exact ⟨trivial, lookup_erase ..⟩
    · left
      simp only [if_pos full]
      refine ⟨trivial, _, lookup_insert _, fits.totalLen, length, slots, counted, ?_⟩
      apply lt_of_le_of_ne _ full
      rw [counted]
      exact countP_le_length

end Reassembler

end Syntra.History
