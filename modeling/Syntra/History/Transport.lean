import Syntra.History.Assembly

/-!
# Transport of records

The calls that the reassembler answers, in any order. It counts what it holds and stays within its
limits, and of a record whose start it has accepted it gives back exactly that record, once, however
its chunks are ordered and repeated and whatever is asked of it for other records meanwhile.
-/

namespace Syntra.History

open ByteFormat Proto Store Tables List Option

/-- What is asked of a reassembler, with the time where it is read. -/
inductive Call (P : Type)
  | start (now : ℕ) (peer : P) (requestId recordId : UInt64) (totalLen chunks : UInt32)
  | chunk (peer : P) (requestId recordId : UInt64) (index : UInt32) (data : Bytes)
  | peerLost (peer : P)
  | finishRequest (peer : P) (requestId : UInt64)
  | expire (now : ℕ)

/-- Calls that touch this record. -/
def Call.Concerns {P : Type} (key : RecordKey P) : Call P → Prop
  | .start _ peer requestId recordId _ _ => key = (peer, requestId, recordId)
  | .chunk peer requestId recordId _ _ => key = (peer, requestId, recordId)
  | .peerLost peer => key.1 = peer
  | .finishRequest peer requestId => key.1 = peer ∧ key.2.1 = requestId
  | .expire _ => True

instance {P : Type} [DecidableEq P] (key : RecordKey P) : DecidablePred (Call.Concerns key)
  | .start .. => inferInstanceAs (Decidable (_ = _))
  | .chunk .. => inferInstanceAs (Decidable (_ = _))
  | .peerLost _ => inferInstanceAs (Decidable (_ = _))
  | .finishRequest .. => inferInstanceAs (Decidable (_ ∧ _))
  | .expire _ => inferInstanceAs (Decidable True)

namespace Reassembler

variable {P : Type} [DecidableEq P] (codec : HistoryCodec) (reassembler : Reassembler P)

def answer : Call P → Reassembler P × Except String (Option ImportedHistoryEvent)
  | .start now peer requestId recordId totalLen chunks =>
    match reassembler.start now peer requestId recordId totalLen chunks with
    | .ok after => (after, .ok none)
    | .error error => (reassembler, .error error)
  | .chunk peer requestId recordId index data =>
    reassembler.chunk codec peer requestId recordId index data
  | .peerLost peer => (reassembler.peerLost peer, .ok none)
  | .finishRequest peer requestId => ((reassembler.finishRequest peer requestId).1, .ok none)
  | .expire now => ((reassembler.expire now).1, .ok none)

def answers (reassembler : Reassembler P) :
    List (Call P) → Reassembler P × List (Call P × Except String (Option ImportedHistoryEvent))
  | [] => (reassembler, [])
  | call :: calls =>
    let first := reassembler.answer codec call
    let rest := answers first.1 calls
    (rest.1, (call, first.2) :: rest.2)

/-- The counts are those of the records, and within the limits. -/
structure Bounded (reassembler : Reassembler P) : Prop where
  pendingBytes : reassembler.pendingBytes = reassembler.records.total fun entry => entry.2.totalLen
  bytes : reassembler.pendingBytes ≤ maxPendingBytes
  records : reassembler.records.keys.length ≤ maxPendingRecords
  received : ∀ key record, reassembler.records.lookup key = some record →
    record.received = record.chunks.countP Option.isSome ∧ record.received < record.chunks.length

variable {codec reassembler}

theorem bounded_new : Bounded (new : Reassembler P) where
  pendingBytes := rfl
  bytes := Nat.zero_le _
  records := Nat.zero_le _
  received := by
    intro _ _ found
    cases found

theorem Bounded.remove (bounded : Bounded reassembler) {key : RecordKey P}
    {record : PendingRecord} (found : reassembler.records.lookup key = some record) :
    Bounded (reassembler.remove key record) := by
  have sum := AList.total_of_lookup (fun entry => entry.2.totalLen) found
  have fewer := AList.total_of_lookup (fun _ => 1) found
  dsimp only at sum
  rcases bounded with ⟨_, _, records, received⟩
  rw [AList.length_keys] at records
  refine ⟨?_, ?_, ?_, ?_⟩
  · simp only [Reassembler.remove]
    omega
  · simp only [Reassembler.remove]
    omega
  · simp only [Reassembler.remove, AList.length_keys]
    omega
  · intro other pending there
    rw [Reassembler.remove, lookup_erase] at there
    split at there
    · cases there
    · exact received other pending there

theorem chunks_pos {totalLen chunks : UInt32}
    (counted : chunks = UInt32.ofNat (divCeil totalLen.toNat maxHistoryChunkSize))
    (sized : ¬(totalLen = 0 ∨ totalLen.toNat > maxHistoryRecordSize)) : 0 < chunks.toNat := by
  have positive : totalLen.toNat ≠ 0 := by
    intro zero
    exact sized (.inl (UInt32.toNat_inj.mp zero))
  have short : totalLen.toNat ≤ maxHistoryRecordSize := not_lt.mp fun large => sized (.inr large)
  simp only [divCeil, maxHistoryChunkSize, safeDatagramSize, historyChunkHeaderSize,
    maxHistoryRecordSize] at counted short
  rw [counted, UInt32.toNat_ofNat']
  omega

theorem Bounded.start (bounded : Bounded reassembler) {now : ℕ} {peer : P}
    {requestId recordId : UInt64} {totalLen chunks : UInt32} {after : Reassembler P}
    (accepted : reassembler.start now peer requestId recordId totalLen chunks = .ok after) :
    Bounded after := by
  unfold Reassembler.start at accepted
  split at accepted
  · cases accepted
  rename_i sized
  split at accepted
  · cases accepted
  rename_i counted
  split at accepted
  · split at accepted
    · cases accepted
      exact bounded
    · cases accepted
  · rename_i fresh
    split at accepted
    · rename_i room
      cases accepted
      rw [hasRoom, Bool.and_eq_true, decide_eq_true_eq, decide_eq_true_eq] at room
      have gone := AList.erase_of_lookup_none fresh
      rcases bounded with ⟨pendingBytes, _, _, received⟩
      refine ⟨?_, room.2, ?_, ?_⟩
      · rw [AList.total_insert, gone, pendingBytes]
      · rw [AList.length_keys, AList.total_insert, gone, ← AList.length_keys]
        exact room.1
      · intro other pending there
        rw [lookup_insert] at there
        split at there
        · cases there
          have some : 0 < chunks.toNat := chunks_pos (not_not.mp counted) sized
          simpa [countP_replicate] using some
        · exact received other pending there
    · cases accepted

theorem Bounded.fill (bounded : Bounded reassembler) {key : RecordKey P} {record : PendingRecord}
    {index : ℕ} {data : Bytes} (found : reassembler.records.lookup key = some record)
    (empty : record.chunks[index]? = some none)
    (more : (record.fill index data).received ≠ (record.fill index data).chunks.length) :
    Bounded { reassembler with records := reassembler.records.insert key (record.fill index data) }
    := by
  have sum := AList.total_of_lookup (fun entry => entry.2.totalLen) found
  have fewer := AList.total_of_lookup (fun _ => 1) found
  have counted : (record.fill index data).received =
      (record.fill index data).chunks.countP isSome := by
    rw [PendingRecord.fill, PendingRecord.countP_set empty, (bounded.received key record found).1]
  rcases bounded with ⟨pendingBytes, bytes, _, received⟩
  refine ⟨?_, bytes, ?_, ?_⟩
  · rw [AList.total_insert, pendingBytes, sum]
    rfl
  · rwa [AList.length_keys, AList.total_insert, ← fewer, ← AList.length_keys]
  · intro other pending there
    rw [lookup_insert] at there
    split at there
    · cases there
      refine ⟨counted, lt_of_le_of_ne ?_ more⟩
      rw [counted]
      exact countP_le_length
    · exact received other pending there

theorem Bounded.chunk (bounded : Bounded reassembler) {peer : P} {requestId recordId : UInt64}
    {index : UInt32} {data : Bytes} :
    Bounded (reassembler.chunk codec peer requestId recordId index data).1 := by
  unfold Reassembler.chunk
  dsimp only
  split
  · exact bounded
  rename_i record found
  split
  · exact bounded
  rename_i within
  split
  · exact bounded.remove found
  split
  · split <;> exact bounded
  rename_i slot
  have empty : record.chunks[index.toNat]? = some none := by
    rw [getElem?_eq_getElem (not_le.mp within)] at slot ⊢
    simpa using slot
  split
  · rename_i more
    exact bounded.fill found empty more
  · change Bounded (reassembler.remove (peer, requestId, recordId) record)
    exact bounded.remove found

theorem Bounded.retain (bounded : Bounded reassembler)
    (keeps : RecordKey P → PendingRecord → Bool) : Bounded (reassembler.retain keeps).1 := by
  have sum := AList.total_retain (fun entry => entry.2.totalLen) keeps reassembler.records
  have fewer := AList.total_retain (fun _ => 1) keeps reassembler.records
  rcases bounded with ⟨_, _, records, received⟩
  rw [AList.length_keys] at records
  refine ⟨?_, ?_, ?_, ?_⟩
  · simp only [Reassembler.retain]
    omega
  · simp only [Reassembler.retain]
    omega
  · simp only [Reassembler.retain, AList.length_keys]
    omega
  · intro other pending there
    rw [Reassembler.retain, AList.lookup_retain, filter_eq_some_iff] at there
    exact received other pending there.1

theorem Bounded.answer (bounded : Bounded reassembler) (call : Call P) :
    Bounded (reassembler.answer codec call).1 := by
  cases call with
  | start now peer requestId recordId totalLen chunks =>
    cases accepted : reassembler.start now peer requestId recordId totalLen chunks with
    | ok => simpa only [Reassembler.answer, accepted] using bounded.start accepted
    | error => simpa only [Reassembler.answer, accepted] using bounded
  | chunk => exact bounded.chunk
  | peerLost | finishRequest | expire => exact bounded.retain _

theorem Bounded.answers (bounded : Bounded reassembler) (calls : List (Call P)) :
    Bounded (reassembler.answers codec calls).1 := by
  induction calls generalizing reassembler with
  | nil => exact bounded
  | cons call _ ih => exact ih (bounded.answer call)

/-- Whatever is asked of a reassembler, it counts what is pending and stays within its limits. -/
theorem bounded_of_answers (codec : HistoryCodec) (calls : List (Call P)) :
    Bounded ((new : Reassembler P).answers codec calls).1 :=
  bounded_new.answers calls

variable {key : RecordKey P} {record : ImportedHistoryEvent} {bytes : Bytes} {peer : P}
  {requestId recordId : UInt64} {pending : PendingRecord}

theorem lookup_retain_of_keeps {keeps : RecordKey P → PendingRecord → Bool}
    (kept : ∀ record, keeps key record = true) :
    (reassembler.retain keeps).1.records.lookup key = reassembler.records.lookup key := by
  rw [retain, AList.lookup_retain]
  cases reassembler.records.lookup key with
  | none => rfl
  | some => simp [filter_some, kept]

theorem lookup_answer {call : Call P} (foreign : ¬call.Concerns key) :
    (reassembler.answer codec call).1.records.lookup key = reassembler.records.lookup key := by
  cases call with
  | start now peer requestId recordId totalLen chunks =>
    cases accepted : reassembler.start now peer requestId recordId totalLen chunks with
    | ok =>
      simp only [answer, accepted]
      exact lookup_start accepted foreign
    | error => simp only [answer, accepted]
  | chunk => exact lookup_chunk foreign
  | peerLost =>
    apply lookup_retain_of_keeps
    intro _
    simpa [Call.Concerns] using foreign
  | finishRequest =>
    apply lookup_retain_of_keeps
    intro _
    simpa [Call.Concerns, imp_iff_not_or] using foreign
  | expire => exact absurd trivial foreign

theorem open_of_open {index : UInt32} {data : Bytes} {later : PendingRecord} {slot : ℕ}
    (found : reassembler.records.lookup (peer, requestId, recordId) = some pending)
    (kept : (reassembler.chunk codec peer requestId recordId index data).1.records.lookup
      (peer, requestId, recordId) = some later) (empty : later.chunks[slot]? = some none) :
    pending.chunks[slot]? = some none ∧ slot ≠ index.toNat := by
  have gone : ¬(reassembler.remove (peer, requestId, recordId) pending).records.lookup
      (peer, requestId, recordId) = some later := by
    simp [remove]
  unfold chunk at kept
  simp only [found] at kept
  split at kept
  · rename_i outside
    cases found.symm.trans kept
    refine ⟨empty, ?_⟩
    rintro rfl
    rw [getElem?_eq_none outside] at empty
    cases empty
  split at kept
  · exact absurd kept gone
  split at kept
  · rename_i previous there
    have same : pending = later := by
      split at kept <;> exact some_inj.mp (found.symm.trans kept)
    rw [same] at there ⊢
    refine ⟨empty, ?_⟩
    rintro rfl
    rw [empty] at there
    cases there
  split at kept
  · simp only [AList.lookup_insert, some_inj] at kept
    rw [← kept, PendingRecord.fill, getElem?_set] at empty
    split at empty
    · split at empty <;> cases empty
    · rename_i different
      exact ⟨empty, Ne.symm different⟩
  · exact absurd kept gone

def chunkCall (peer : P) (requestId recordId : UInt64) (bytes : Bytes) (index : ℕ) : Call P :=
  .chunk peer requestId recordId (UInt32.ofNat index) (chunkAt maxHistoryChunkSize bytes index)

def answersFor (key : RecordKey P)
    (log : List (Call P × Except String (Option ImportedHistoryEvent))) :
    List (Except String (Option ImportedHistoryEvent)) :=
  (log.filter fun entry => entry.1.Concerns key).map Prod.snd

/-- The answers give a record back once and are otherwise empty. -/
def GivesOnce (record : ImportedHistoryEvent)
    (given : List (Except String (Option ImportedHistoryEvent))) : Prop :=
  ∃ before after, given = before ++ .ok (some record) :: after ∧
    (∀ answer ∈ before, answer = .ok none) ∧ ∀ answer ∈ after, answer = .ok none

variable {calls : List (Call P)}

variable (codec) in
theorem answers_late (gone : reassembler.records.lookup (peer, requestId, recordId) = none)
    (own : ∀ call ∈ calls, call.Concerns (peer, requestId, recordId) →
      ∃ index, call = chunkCall peer requestId recordId bytes index) :
    (∀ answer ∈ answersFor (peer, requestId, recordId) (reassembler.answers codec calls).2,
        answer = .ok none) ∧
      (reassembler.answers codec calls).1.records.lookup (peer, requestId, recordId) = none := by
  induction calls generalizing reassembler with
  | nil => exact ⟨by simp [answersFor, answers], gone⟩
  | cons call _ ih =>
    rw [forall_mem_cons] at own
    by_cases concerns : call.Concerns (peer, requestId, recordId)
    · rcases own.1 concerns with ⟨index, rfl⟩
      have silent : reassembler.answer codec (chunkCall peer requestId recordId bytes index) =
          (reassembler, .ok none) := by
        simp [answer, chunkCall, chunk, gone]
      have rest := ih gone own.2
      simpa [answers, answersFor, concerns, silent] using rest
    · have still : (reassembler.answer codec call).1.records.lookup
          (peer, requestId, recordId) = none := (lookup_answer concerns).trans gone
      have rest := ih still own.2
      simpa [answers, answersFor, concerns] using rest

theorem answersFor_cons_of_concerns {call : Call P} (concerns : call.Concerns key) :
    answersFor key (reassembler.answers codec (call :: calls)).2 =
      (reassembler.answer codec call).2 ::
        answersFor key ((reassembler.answer codec call).1.answers codec calls).2 := by
  simp [answers, answersFor, concerns]

theorem answersFor_cons_of_foreign {call : Call P} (foreign : ¬call.Concerns key) :
    answersFor key (reassembler.answers codec (call :: calls)).2 =
      answersFor key ((reassembler.answer codec call).1.answers codec calls).2 := by
  simp [answers, answersFor, foreign]

theorem answers_pending (roundTrips : codec.RoundTrips) (carries : Carries codec record bytes)
    (found : reassembler.records.lookup (peer, requestId, recordId) = some pending)
    (fits : pending.Fits bytes) (own : ∀ call ∈ calls, call.Concerns (peer, requestId, recordId) →
      ∃ index < chunkCount maxHistoryChunkSize bytes,
        call = chunkCall peer requestId recordId bytes index)
    (missing : ∀ index, pending.chunks[index]? = some none →
      chunkCall peer requestId recordId bytes index ∈ calls) :
    GivesOnce record (answersFor (peer, requestId, recordId) (reassembler.answers codec calls).2) ∧
      (reassembler.answers codec calls).1.records.lookup (peer, requestId, recordId) = none := by
  induction calls generalizing reassembler pending with
  | nil =>
    exfalso
    have short := fits.incomplete
    rw [fits.received] at short
    have full : pending.chunks.countP Option.isSome = pending.chunks.length := by
      apply List.countP_eq_length.mpr
      intro slot member
      rcases List.mem_iff_getElem?.mp member with ⟨index, there⟩
      cases slot with
      | none => exact absurd (missing index there) List.not_mem_nil
      | some => rfl
    omega
  | cons call _ ih =>
    have later := (List.forall_mem_cons.mp own).2
    by_cases concerns : call.Concerns (peer, requestId, recordId)
    · rcases own call (.head _) concerns with ⟨index, within, rfl⟩
      rw [answersFor_cons_of_concerns concerns]
      rcases chunk_own roundTrips carries within found fits with
        ⟨silent, _, there, still⟩ | ⟨given, gone⟩
      · have rest := ih there still later (by
          intro slot empty
          rcases open_of_open found there empty with ⟨before, different⟩
          refine (List.mem_cons.mp (missing slot before)).resolve_left ?_
          intro same
          have bound := (List.getElem?_eq_some_iff.mp before).1
          rw [fits.length] at bound
          injection same with _ _ _ sameIndex _
          rw [← sameIndex, carries.toNat_index bound.le] at different
          exact different rfl)
        rcases rest.1 with ⟨before, after, same, silentBefore, silentAfter⟩
        refine ⟨⟨.ok none :: before, after, ?_, ?_, silentAfter⟩, rest.2⟩
        · exact congrArg₂ List.cons silent same
        · exact List.forall_mem_cons.mpr ⟨rfl, silentBefore⟩
      · have rest := answers_late codec gone fun other member about => by
          rcases later other member about with ⟨index, -, same⟩
          exact ⟨index, same⟩
        exact ⟨⟨[], _, congrArg₂ List.cons given rfl, by simp, rest.1⟩, rest.2⟩
    · have there : (reassembler.answer codec call).1.records.lookup
          (peer, requestId, recordId) = some pending := (lookup_answer concerns).trans found
      rw [answersFor_cons_of_foreign concerns]
      apply ih there fits later
      intro slot empty
      refine (List.mem_cons.mp (missing slot empty)).resolve_left ?_
      rintro rfl
      exact concerns rfl

def callOf (now : ℕ) (peer : P) : ProtoEvent → Option (Call P)
  | .historyRecordStart requestId recordId totalLen chunks =>
    some (.start now peer requestId recordId totalLen chunks)
  | .historyRecordChunk requestId recordId index data =>
    some (.chunk peer requestId recordId index data)
  | _ => none

/-- There is room for a record, whose chunks may have come in part already. -/
def HasRoomFor (codec : HistoryCodec) (reassembler : Reassembler P) (key : RecordKey P)
    (record : ImportedHistoryEvent) : Prop :=
  ∀ bytes, codec.serialize record = .ok bytes →
    (∀ pending, reassembler.records.lookup key = some pending → pending.Fits bytes) ∧
      (key ∈ reassembler.records ∨ reassembler.hasRoom bytes.length = true)

/-- A record comes out of its datagrams as it went in, once, and nothing is left of it: after the
start its chunks may be ordered and repeated in any way, with anything else between them that does
not concern the record. -/
theorem reassembles_once (roundTrips : codec.RoundTrips) {start : ProtoEvent}
    {chunkEvents : List ProtoEvent}
    (recorded : recordEvents codec requestId recordId record = .ok (start :: chunkEvents))
    (room : HasRoomFor codec reassembler (peer, requestId, recordId) record) {now : ℕ}
    {first : Call P} (begins : callOf now peer start = some first) {calls : List (Call P)}
    (own : ∀ call ∈ calls, call.Concerns (peer, requestId, recordId) →
      ∃ event ∈ chunkEvents, callOf now peer event = some call)
    (all : ∀ event ∈ chunkEvents, ∃ call ∈ calls, callOf now peer event = some call) :
    GivesOnce record (answersFor (peer, requestId, recordId)
        (reassembler.answers codec (first :: calls)).2) ∧
      (reassembler.answers codec (first :: calls)).1.records.lookup
        (peer, requestId, recordId) = none := by
  rcases recordEvents_eq_ok.mp recorded with ⟨bytes, carries, listed⟩
  rcases room bytes carries.serialized with ⟨known, free⟩
  rcases List.cons_eq_cons.mp listed with ⟨rfl, rfl⟩
  cases begins
  have accepts : ∃ after, reassembler.start now peer requestId recordId
      (UInt32.ofNat bytes.length) (UInt32.ofNat (chunkCount maxHistoryChunkSize bytes)) =
      .ok after := start_accepts carries known free
  rcases accepts with ⟨after, accepted⟩
  rcases start_own carries known accepted with ⟨pending, found, fits⟩
  have begun : reassembler.answer codec (.start now peer requestId recordId
      (UInt32.ofNat bytes.length) (UInt32.ofNat (chunkCount maxHistoryChunkSize bytes))) =
      (after, .ok none) := by
    simp only [Reassembler.answer, accepted]
  have concerns : (Call.start now peer requestId recordId (UInt32.ofNat bytes.length)
      (UInt32.ofNat (chunkCount maxHistoryChunkSize bytes))).Concerns
      (peer, requestId, recordId) := rfl
  have mine : ∀ call ∈ calls, call.Concerns (peer, requestId, recordId) →
      ∃ index < chunkCount maxHistoryChunkSize bytes,
        call = chunkCall peer requestId recordId bytes index := by
    intro call member about
    rcases own call member about with ⟨_, sent, fed⟩
    rcases mem_chunkDatagrams.mp sent with ⟨index, within, rfl⟩
    cases fed
    exact ⟨index, within, rfl⟩
  have missing : ∀ index, pending.chunks[index]? = some none →
      chunkCall peer requestId recordId bytes index ∈ calls := by
    intro index empty
    have within := (List.getElem?_eq_some_iff.mp empty).1
    rw [fits.length] at within
    rcases all _ (mem_chunkDatagrams.mpr ⟨index, within, rfl⟩) with ⟨_, member, fed⟩
    cases fed
    exact member
  have rest := answers_pending roundTrips carries found fits mine missing
  rcases rest.1 with ⟨before, later, same, silentBefore, silentAfter⟩
  rw [answersFor_cons_of_concerns concerns, Reassembler.answers, begun]
  refine ⟨⟨.ok none :: before, later, ?_, ?_, silentAfter⟩, rest.2⟩
  · exact congrArg (List.cons _) same
  · exact List.forall_mem_cons.mpr ⟨rfl, silentBefore⟩

def longText : ImportedHistoryEvent :=
  ⟨⟨"a", 2⟩, 5, none, .text (String.ofList (List.replicate 1200 'a'))⟩

/-- The long text in the fixed-width encoding: its device, its sequence, its time, no label, the
number of its kind and the text. -/
def encodedLong : Bytes :=
  [1, 0, 0, 0, 0, 0, 0, 0, 97, 2, 0, 0, 0, 0, 0, 0, 0, 5, 0, 0, 0, 0, 0, 0, 0, 0, 0, 0, 0, 0,
    0xb0, 4, 0, 0, 0, 0, 0, 0] ++ List.replicate 1200 97

def longChunk (index : ℕ) : Bytes := chunkAt maxHistoryChunkSize encodedLong index

def longCodec : HistoryCodec := .ofList [(longText, encodedLong)]

/-- The second chunk comes before the first one, and both come again. -/
def longCalls : List (Call ℕ) :=
  [.chunk 0 7 3 1 (longChunk 1), .start 1 4 7 3 5 1, .chunk 0 7 3 1 (longChunk 1),
    .chunk 0 7 3 0 (longChunk 0), .chunk 0 7 3 0 (longChunk 0)]

theorem reassembles_once_twice :
    GivesOnce longText (answersFor (0, 7, 3)
        ((new : Reassembler ℕ).answers longCodec (.start 0 0 7 3 1238 2 :: longCalls)).2) ∧
      ((new : Reassembler ℕ).answers longCodec
        (.start 0 0 7 3 1238 2 :: longCalls)).1.records.lookup (0, 7, 3) = none := by
  have carries : Carries longCodec longText encodedLong :=
    ⟨by simp [longCodec, HistoryCodec.ofList], List.cons_ne_nil _ _, by decide +kernel⟩
  have listed : datagrams 7 3 encodedLong = [.historyRecordStart 7 3 1238 2,
      .historyRecordChunk 7 3 0 (longChunk 0), .historyRecordChunk 7 3 1 (longChunk 1)] := by
    decide +kernel
  have recorded := recordEvents_eq_ok.mpr ⟨encodedLong, carries, listed.symm⟩
  have room : HasRoomFor longCodec (new : Reassembler ℕ) (0, 7, 3) longText := by
    intro bytes serialized
    obtain rfl : bytes = encodedLong :=
      Except.ok.inj (serialized.symm.trans carries.serialized)
    exact ⟨fun _ found => (by cases found), .inr (by decide +kernel)⟩
  have roundTrips : longCodec.RoundTrips :=
    HistoryCodec.roundTrips_ofList (List.nodup_singleton encodedLong)
  refine reassembles_once roundTrips recorded room rfl ?_ ?_
  · simp [longCalls, callOf, Call.Concerns]
  · simp [longCalls, callOf]

end Reassembler

end Syntra.History
