import Syntra.ClipboardStream.Reassembly

/-!
# Delivery of a stream

A payload that a device streams reaches the peer once, whatever else the peer is sent meanwhile, if
its datagrams arrive in order and before the timer drops the buffer. The exception is a payload of
no bytes.
-/

namespace Syntra.ClipboardStream

open Proto UInt32 ByteFormat ClipboardTransfer List

abbrev Carry (datagrams : List Bytes) (events : List ProtoEvent) : Prop :=
  List.Forall₂ (fun datagram event => decode datagram = .ok event) datagrams events

variable {events : List ProtoEvent} {first : Bytes} {rest : List Bytes} {transferId : UInt64}

theorem sendAll_cons {event : ProtoEvent} (sent : sendAll (event :: events) = first :: rest) :
    encode event = .ok first ∧ sendAll events = rest := by
  unfold sendAll at sent
  cases encoded : encode event with
  | error =>
    rw [encoded] at sent
    cases sent
  | ok =>
    rw [encoded] at sent
    cases sent
    exact ⟨rfl, rfl⟩

def Delivers (event : ProtoEvent) : Prop :=
  ∃ datagram, encode event = .ok datagram ∧ decode datagram = .ok event

theorem delivers_chunkEvent (transferId : UInt64) (index : ℕ) {data : Bytes}
    (small : data.length ≤ maxClipboardChunkSize) :
    Delivers (chunkEvent transferId index data) := by
  have sized : (u64Bytes transferId ++ (u32Bytes (ofNat index) ++ data)).length + 1 ≤
      maxDatagramSize := by
    have room : clipboardChunkHeaderSize ≤ maxDatagramSize := by decide
    simp only [maxClipboardChunkSize] at small
    have header : (u64Bytes transferId ++ (u32Bytes (ofNat index) ++ data)).length + 1 =
        clipboardChunkHeaderSize + data.length := by
      simp [clipboardChunkHeaderSize, u64Bytes, u32Bytes]
      omega
    omega
  have encoded : encode (chunkEvent transferId index data) = .ok _ :=
    encode_eq_ok.mpr ⟨trivial, rfl, sized⟩
  exact ⟨_, encoded, (decode_encode encoded).mpr rfl⟩

theorem carry_sendAll (delivers : ∀ event ∈ events, Delivers event) :
    Carry (sendAll events) events := by
  induction events with
  | nil => exact .nil
  | cons event _ ih =>
    rcases delivers event (.head _) with ⟨_, encoded, decoded⟩
    simp only [sendAll, encoded]
    exact .cons decoded (ih fun other member => delivers other (.tail _ member))

def chunkEvents (transferId : UInt64) (index : ℕ) : List Bytes → List ProtoEvent
  | [] => []
  | data :: pieces => chunkEvent transferId index data :: chunkEvents transferId (index + 1) pieces

theorem mapIdx_chunkEvent (transferId : UInt64) (index : ℕ) (pieces : List Bytes) :
    (pieces.mapIdx fun position data => chunkEvent transferId (index + position) data) =
      chunkEvents transferId index pieces := by
  induction pieces generalizing index with
  | nil => rfl
  | cons _ _ ih =>
    rw [mapIdx_cons, chunkEvents, ← ih]
    simp [Nat.add_comm, Nat.add_left_comm]

theorem delivers_chunkEvents {index : ℕ} {pieces : List Bytes}
    (small : ∀ data ∈ pieces, data.length ≤ maxClipboardChunkSize) :
    ∀ event ∈ chunkEvents transferId index pieces, Delivers event := by
  induction pieces generalizing index with
  | nil => simp [chunkEvents]
  | cons _ _ ih =>
    simp only [forall_mem_cons, chunkEvents] at small ⊢
    exact ⟨delivers_chunkEvent transferId index small.1, ih small.2⟩

theorem length_le_of_mem_chunks {data piece : Bytes}
    (member : piece ∈ chunks maxClipboardChunkSize data) :
    piece.length ≤ maxClipboardChunkSize := by
  rcases mem_map.mp member with ⟨_, -, rfl⟩
  rw [chunkAt, length_take]
  omega

/-- The start message describes the content. -/
structure Announces (start : ProtoEvent) (transferId : UInt64) (content : ClipboardContent) :
    Prop where
  announces : announcement? start = some ⟨transferId, content.kind,
    UInt32.ofNat content.data.length,
    UInt32.ofNat (chunkCount maxClipboardChunkSize content.data)⟩
  short : content.data.length ≤ maxClipboardSize

theorem carry_streamClipboard {content : ClipboardContent}
    (stream : streamClipboard transferId content.data content.imageDimensions = first :: rest) :
    ∃ start, decode first = .ok start ∧ Announces start transferId content ∧
      Carry rest (chunkEvents transferId 0 (chunks maxClipboardChunkSize content.data)) := by
  unfold streamClipboard at stream
  split at stream
  · rename_i fits
    have whole : (ofNat content.data.length).toNat = content.data.length :=
      toNat_ofNat_of_lt' fits
    rcases sendAll_cons stream with ⟨encoded, sent⟩
    have follow : Carry rest
        (chunkEvents transferId 0 (chunks maxClipboardChunkSize content.data)) := by
      have counted := mapIdx_chunkEvent transferId 0 (chunks maxClipboardChunkSize content.data)
      simp only [Nat.zero_add] at counted
      rw [← sent, counted]
      exact carry_sendAll (delivers_chunkEvents fun _ => length_le_of_mem_chunks)
    have sendable := (encode_eq_ok.mp encoded).1
    have decoded : decode first = .ok (startEvent transferId (ofNat content.data.length)
        (ofNat (divCeil (ofNat content.data.length).toNat maxClipboardChunkSize))
        content.imageDimensions) := by
      apply (decode_encode encoded).mpr
      cases content <;> rfl
    refine ⟨_, decoded, ⟨?_, ?_⟩, follow⟩
    · rw [whole]
      cases content <;> rfl
    · rw [← whole]
      cases content with
      | text => exact (validateClipboardStart_eq_ok.mp sendable).1
      | image =>
        exact (validateClipboardStart_eq_ok.mp (validateClipboardImage_eq_ok.mp sendable).2).1
  · cases stream

def liveClipboard : ProtoEvent → Bool
  | .clipboardStart .. => true
  | .clipboardImageStart .. => true
  | .clipboardChunk .. => true
  | _ => false

section Arrivals

variable {Address : Type} [DecidableEq Address]

def clipboardDatagrams (addr : Address) : List (ℕ × Input Address) → List Bytes
  | [] => []
  | (_, .datagram sender bytes) :: arrivals =>
    if sender = addr ∧ (decode bytes).toOption.any liveClipboard then
      bytes :: clipboardDatagrams addr arrivals
    else
      clipboardDatagrams addr arrivals
  | (_, .tick) :: arrivals => clipboardDatagrams addr arrivals

/-- No tick finds the transfer too old while datagrams of it are still to come. -/
def Prompt (addr : Address) (started : ℕ) : List (ℕ × Input Address) → Prop
  | [] => True
  | (_, .datagram _ _) :: arrivals => Prompt addr started arrivals
  | (now, .tick) :: arrivals =>
    (clipboardDatagrams addr arrivals ≠ [] → now - started < clipboardTransferTimeout) ∧
      Prompt addr started arrivals

variable {addr : Address} {started : ℕ} {buffer : Buffer}

variable {event : ProtoEvent} {transferId : UInt64}

theorem Buffer.receive_other (other : liveClipboard event = false) (now : ℕ) :
    buffer.receive now event = (buffer, none) := by
  cases event <;> first | rfl | cases other

theorem Buffer.receive_start {announced : Announcement}
    (starts : announcement? event = some announced) (now : ℕ) :
    buffer.receive now event = (some (announced.transferId,
        .new now announced.kind announced.totalLen.toNat announced.chunks), none) := by
  cases event <;> cases starts <;> rfl

theorem arrival_cases (addr : Address) (buffer : Buffer) (arrival : ℕ × Input Address)
    (arrivals : List (ℕ × Input Address)) :
    (∃ now, arrival = (now, .tick)) ∨
      (∃ now bytes event, arrival = (now, .datagram addr bytes) ∧ decode bytes = .ok event ∧
        clipboardDatagrams addr (arrival :: arrivals) = bytes :: clipboardDatagrams addr arrivals) ∨
      (buffer.step addr arrival = (buffer, none) ∧
        clipboardDatagrams addr (arrival :: arrivals) = clipboardDatagrams addr arrivals ∧
        ∀ started, Prompt addr started (arrival :: arrivals) = Prompt addr started arrivals) := by
  rcases arrival with ⟨now, ⟨sender, bytes⟩ | _⟩
  · right
    by_cases sent : sender = addr
    · cases decoded : decode bytes with
      | error =>
        right
        refine ⟨?_, ?_, fun _ => rfl⟩ <;>
          simp [Buffer.step, clipboardDatagrams, sent, decoded, Except.toOption]
      | ok event =>
        cases live : liveClipboard event with
        | true =>
          left
          refine ⟨now, bytes, event, by rw [sent], decoded, ?_⟩
          simp [clipboardDatagrams, sent, decoded, Except.toOption, live]
        | false =>
          right
          refine ⟨?_, ?_, fun _ => rfl⟩
          · simp [Buffer.step, sent, decoded, Buffer.receive_other live]
          · simp [clipboardDatagrams, decoded, Except.toOption, live]
    · right
      refine ⟨?_, ?_, fun _ => rfl⟩ <;> simp [Buffer.step, clipboardDatagrams, sent]
  · exact .inl ⟨now, rfl⟩

variable {arrivals : List (ℕ × Input Address)}

theorem run_of_quiet (buffer : Buffer) (started : ℕ)
    (quiet : clipboardDatagrams addr arrivals = []) :
    (buffer.run addr arrivals).2 = [] ∧ Prompt addr started arrivals := by
  induction arrivals generalizing buffer with
  | nil => exact ⟨rfl, trivial⟩
  | cons arrival arrivals ih =>
    rw [Buffer.run]
    rcases arrival_cases addr buffer arrival arrivals with
      ⟨now, rfl⟩ | ⟨now, bytes, event, -, -, listed⟩ | ⟨same, listed, prompt⟩
    · rcases ih _ quiet with ⟨later, prompt⟩
      exact ⟨later, fun some => absurd quiet some, prompt⟩
    · rw [listed] at quiet
      cases quiet
    · rw [same, prompt]
      exact ih _ (listed ▸ quiet)

theorem run_of_dropped {index : ℕ} {pieces : List Bytes}
    (carries : Carry (clipboardDatagrams addr arrivals) (chunkEvents transferId index pieces)) :
    (Buffer.run addr none arrivals).2 = [] := by
  induction arrivals generalizing index pieces with
  | nil => rfl
  | cons arrival arrivals ih =>
    rw [Buffer.run]
    rcases arrival_cases addr none arrival arrivals with
      ⟨now, rfl⟩ | ⟨now, bytes, event, rfl, decoded, listed⟩ | ⟨same, listed, -⟩
    · exact ih carries
    · rw [listed] at carries
      cases pieces with
      | nil => cases carries
      | cons =>
        rcases forall₂_cons.mp carries with ⟨chunk, later⟩
        simpa [Buffer.step, chunk, chunkEvent, Buffer.receive, Buffer.chunk] using ih later
    · rw [same]
      rw [listed] at carries
      exact ih carries

/-- The buffer lacks just the pieces that are left. -/
structure Awaits (transfer : ClipboardTransfer) (content : ClipboardContent) (index : ℕ)
    (pieces : List Bytes) : Prop where
  kind : content.kind = transfer.kind
  whole : content.data = transfer.bytes ++ pieces.flatten
  totalLen : transfer.totalLen = content.data.length
  next : transfer.next = UInt32.ofNat index
  chunks : transfer.chunks = UInt32.ofNat (index + pieces.length)
  counted : index + pieces.length < 2 ^ 32
  small : ∀ data ∈ pieces, data.length ≤ maxClipboardChunkSize

variable {transfer : ClipboardTransfer} {content : ClipboardContent} {index : ℕ} {data : Bytes}
  {pieces : List Bytes}

theorem ofNat_inj {left right : ℕ} (leftSmall : left < 2 ^ 32) (rightSmall : right < 2 ^ 32) :
    UInt32.ofNat left = UInt32.ofNat right ↔ left = right := by
  rw [← UInt32.toNat_inj, UInt32.toNat_ofNat_of_lt' leftSmall, UInt32.toNat_ofNat_of_lt' rightSmall]

theorem Awaits.accept (awaits : Awaits transfer content index (data :: pieces)) :
    if pieces = [] then
      transfer.accept (ofNat index) data = (none, some content)
    else
      transfer.accept (ofNat index) data = (some (transfer.extend data), none) ∧
        Awaits (transfer.extend data) content (index + 1) pieces := by
  have counted := awaits.counted
  have whole := awaits.whole
  rw [length_cons] at counted
  rw [flatten_cons, ← append_assoc] at whole
  have fits : ofNat index = transfer.next ∧ data.length ≤ maxClipboardChunkSize ∧
      transfer.bytes.length + data.length ≤ transfer.totalLen := by
    refine ⟨awaits.next.symm, awaits.small data (.head _), ?_⟩
    rw [awaits.totalLen, whole, length_append, length_append]
    omega
  have last : transfer.next + 1 = transfer.chunks ↔ pieces = [] := by
    rw [awaits.next, awaits.chunks]
    have next : ofNat index + 1 = ofNat (index + 1) := by simp
    rw [next, ofNat_inj (by omega) (by simpa using counted), ← length_eq_zero_iff, length_cons]
    omega
  unfold ClipboardTransfer.accept
  rw [if_pos fits]
  by_cases done : pieces = []
  · rw [if_pos done, if_pos (last.mpr done)]
    rw [done, flatten_nil, append_nil] at whole
    rw [if_pos (by rw [awaits.totalLen, whole])]
    congr 1
    exact content_eq_some.mpr ⟨awaits.kind, whole⟩
  · rw [if_neg done, if_neg (mt last.mp done)]
    refine ⟨rfl, awaits.kind, whole, awaits.totalLen, ?_, ?_, ?_, ?_⟩
    · simp [extend, awaits.next]
    · have chunks := awaits.chunks
      rw [length_cons] at chunks
      rw [extend, chunks]
      congr 1
      omega
    · omega
    · exact fun other member => awaits.small other (.tail _ member)

/-- A transfer that gets all the chunks it waits for in order hands its content on once, unless it
is dropped before. -/
theorem Awaits.run (awaits : Awaits transfer content index pieces) (nonempty : pieces ≠ [])
    (carries : Carry (clipboardDatagrams addr arrivals) (chunkEvents transferId index pieces)) :
    (Buffer.run addr (some (transferId, transfer)) arrivals).2 = [content] ↔
      Prompt addr transfer.started arrivals := by
  induction arrivals generalizing transfer index pieces with
  | nil =>
    cases pieces with
    | nil => exact absurd rfl nonempty
    | cons => cases carries
  | cons arrival arrivals ih =>
    rw [Buffer.run]
    rcases arrival_cases addr (some (transferId, transfer)) arrival arrivals with
      ⟨now, rfl⟩ | ⟨now, _, _, rfl, _, listed⟩ | ⟨same, listed, prompt⟩
    · have more : clipboardDatagrams addr arrivals ≠ [] := by
        intro quiet
        rw [clipboardDatagrams, quiet] at carries
        cases pieces with
        | nil => exact nonempty rfl
        | cons => cases carries
      by_cases young : now - transfer.started < clipboardTransferTimeout
      · have kept := ih awaits nonempty carries
        simpa [Buffer.step, Buffer.expire, Option.filter_some, young, Prompt] using kept
      · have dropped : (Buffer.run addr none arrivals).2 = [] := run_of_dropped carries
        simp [Buffer.step, Buffer.expire, Option.filter_some, young, Prompt, more, dropped]
    · rw [listed] at carries
      cases pieces with
      | nil => exact absurd rfl nonempty
      | cons data pieces =>
        rcases List.forall₂_cons.mp carries with ⟨chunk, later⟩
        have accepted := awaits.accept
        by_cases done : pieces = []
        · rw [if_pos done] at accepted
          subst done
          have rest : (Buffer.run addr none arrivals).2 = [] ∧
              Prompt addr transfer.started arrivals :=
            run_of_quiet none transfer.started (List.forall₂_nil_right_iff.mp later)
          simp [Buffer.step, chunk, chunkEvent, Buffer.receive, Buffer.chunk, accepted, rest,
            Prompt]
        · rw [if_neg done] at accepted
          have rest : (Buffer.run addr (some (transferId, transfer.extend data)) arrivals).2 =
              [content] ↔ Prompt addr transfer.started arrivals :=
            ih accepted.2 done later
          simpa [Buffer.step, chunk, chunkEvent, Buffer.receive, Buffer.chunk, accepted.1,
            Prompt] using rest
    · rw [same, prompt]
      rw [listed] at carries
      exact ih awaits nonempty carries

/-- A stream from a peer whose buffer is in any state is handed on once if and only if it has a
chunk and is not dropped before the last one arrives. -/
theorem run_stream_iff {later : List (ℕ × Input Address)}
    (stream : first :: clipboardDatagrams addr later =
      streamClipboard transferId content.data content.imageDimensions) :
    (buffer.run addr ((started, .datagram addr first) :: later)).2 = [content] ↔
      content.data ≠ [] ∧ Prompt addr started later := by
  rcases carry_streamClipboard stream.symm with ⟨_, decoded, announces, carries⟩
  have begun : buffer.step addr (started, .datagram addr first) =
      (some (transferId, .new started content.kind content.data.length
        (ofNat (chunkCount maxClipboardChunkSize content.data))), none) := by
    have size : (ofNat content.data.length).toNat = content.data.length :=
      toNat_ofNat_of_lt' (lt_of_le_of_lt announces.short (by decide))
    simp only [Buffer.step, if_true, decoded, Buffer.receive_start announces.announces, size]
  rw [Buffer.run, begun]
  by_cases empty : content.data = []
  · have noChunks : chunks maxClipboardChunkSize content.data = [] := by
      rw [empty]
      rfl
    rw [noChunks] at carries
    have quiet := fun held => run_of_quiet held started (forall₂_nil_right_iff.mp carries)
    simp only [(quiet _).1]
    simp [empty]
  · rw [and_iff_right empty]
    have positive : 0 < maxClipboardChunkSize := by decide
    have awaits : Awaits (.new started content.kind content.data.length
        (ofNat (chunkCount maxClipboardChunkSize content.data))) content 0
        (chunks maxClipboardChunkSize content.data) := by
      refine ⟨rfl, ?_, rfl, rfl, ?_, ?_, fun _ => length_le_of_mem_chunks⟩
      · exact (flatten_chunks positive).symm
      · rw [length_chunks, Nat.zero_add]
        rfl
      · have short := announces.short
        rw [length_chunks, chunkCount]
        simp only [maxClipboardSize, maxClipboardChunkSize, maxDatagramSize,
          clipboardChunkHeaderSize] at short ⊢
        omega
    have some : chunks maxClipboardChunkSize content.data ≠ [] := by
      intro none
      have whole : (chunks maxClipboardChunkSize content.data).flatten = content.data :=
        flatten_chunks positive
      rw [none] at whole
      exact empty whole.symm
    exact awaits.run some carries

/-- Whatever has happened at a listening task before: what it hands on next was sent completely and
in order by its peer since the latest start, it has one buffer for a peer at most, and a stream that
arrives in order is handed on once, if it has a chunk and is not dropped. -/
theorem streams_delivered_iff (earlier : List (ℕ × Input Address)) :
    (∀ arrival addr content,
      (step (run (∅ : ClipboardTransfers Address) earlier).1 arrival).2 = some (addr, content) →
        ∃ event, eventsFrom addr [arrival] = [event] ∧
          Completes (eventsFrom addr earlier) event content) ∧
    (∀ addr first second, (addr, first) ∈ (run (∅ : ClipboardTransfers Address) earlier).1 →
      (addr, second) ∈ (run (∅ : ClipboardTransfers Address) earlier).1 → first = second) ∧
    ∀ addr transferId (content : ClipboardContent) started first later,
      first :: clipboardDatagrams addr later =
          streamClipboard transferId content.data content.imageDimensions →
        (contentsFrom addr (run (run (∅ : ClipboardTransfers Address) earlier).1
            ((started, .datagram addr first) :: later)).2 = [content] ↔
          content.data ≠ [] ∧ Prompt addr started later) := by
  have represents := (represents_empty.run earlier).1
  refine ⟨?_, ?_, ?_⟩
  · intro _ addr content output
    exact exists_completes output
  · intro addr first _ one other
    exact represents.eq_of_mem one other
  · intro _ _ _ _ _ _ stream
    rw [(represents.run _).2]
    exact run_stream_iff stream

end Arrivals

theorem streams_delivered_iff_greeting :
    contentsFrom 7 (run (∅ : ClipboardTransfers ℕ)
        [(0, .datagram 7 (EventType.clipboardStart.toByte :: (u64Bytes 1 ++ (u32Bytes 2 ++
          u32Bytes 1)))), (5, .tick),
        (6, .datagram 7 (EventType.clipboardChunk.toByte :: (u64Bytes 1 ++ (u32Bytes 0 ++
          [104, 105]))))]).2 = [.text "hi"] := by
  have holds := (streams_delivered_iff ([] : List (ℕ × Input ℕ))).2.2 7 1 (.text "hi") 0
    (EventType.clipboardStart.toByte :: (u64Bytes 1 ++ (u32Bytes 2 ++ u32Bytes 1)))
    [(5, .tick), (6, .datagram 7 (EventType.clipboardChunk.toByte :: (u64Bytes 1 ++
      (u32Bytes 0 ++ [104, 105]))))] (by decide +kernel)
  refine holds.mpr ⟨by decide +kernel, ?_⟩
  simp [Prompt, clipboardTransferTimeout]

/-- The stream of an empty text is its start, and the receiver hands nothing on. -/
theorem empty_text_not_delivered :
    streamClipboard 1 (ClipboardContent.text "").data (ClipboardContent.text "").imageDimensions =
        [EventType.clipboardStart.toByte :: (u64Bytes 1 ++ (u32Bytes 0 ++ u32Bytes 0))] ∧
      (run (∅ : ClipboardTransfers ℕ) [(0, .datagram 7 (EventType.clipboardStart.toByte ::
          (u64Bytes 1 ++ (u32Bytes 0 ++ u32Bytes 0))))]).2 ≠ [(7, .text "")] := by
  decide +kernel

end Syntra.ClipboardStream
