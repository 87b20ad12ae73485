import Mathlib.Data.List.Induction
import Syntra.ClipboardStream.Buffers
import Syntra.Proto.RoundTrip

/-!
# Buffers of single peers

Seen from one peer the table of transfers is a single buffer, which the start of a transfer
replaces. The run of the task is the run of these buffers side by side, and what a buffer holds is
what its peer has sent since its latest start.
-/

namespace Syntra.ClipboardStream

open ByteFormat Proto Tables Option List

abbrev Buffer := Option (UInt64 × ClipboardTransfer)

namespace Buffer

variable (buffer : Buffer)

def chunk (transferId : UInt64) (index : UInt32) (data : Bytes) :
    Buffer × Option ClipboardContent :=
  match buffer with
  | none => (none, none)
  | some (current, transfer) =>
    if current = transferId then
      ((transfer.accept index data).1.map (current, ·), (transfer.accept index data).2)
    else
      (some (current, transfer), none)

def receive (now : ℕ) : ProtoEvent → Buffer × Option ClipboardContent
  | .clipboardStart transferId totalLen chunks =>
    (some (transferId, .new now .text totalLen.toNat chunks), none)
  | .clipboardImageStart transferId width height totalLen chunks =>
    (some (transferId, .new now (.image width height) totalLen.toNat chunks), none)
  | .clipboardChunk transferId index data => buffer.chunk transferId index data
  | _ => (buffer, none)

def expire (now : ℕ) : Buffer :=
  buffer.filter fun held => now - held.2.started < clipboardTransferTimeout

variable {Address : Type} [DecidableEq Address]

def step (addr : Address) (buffer : Buffer) : ℕ × Input Address → Buffer × Option ClipboardContent
  | (now, .datagram sender bytes) =>
    if sender = addr then
      match decode bytes with
      | .ok event => buffer.receive now event
      | .error _ => (buffer, none)
    else
      (buffer, none)
  | (now, .tick) => (buffer.expire now, none)

def run (addr : Address) (buffer : Buffer) :
    List (ℕ × Input Address) → Buffer × List ClipboardContent
  | [] => (buffer, [])
  | arrival :: arrivals =>
    let first := buffer.step addr arrival
    let rest := run addr first.1 arrivals
    (rest.1, first.2.toList ++ rest.2)

def find (transferId : UInt64) : Option ClipboardTransfer :=
  buffer.bind fun held => if held.1 = transferId then some held.2 else none

@[simp]
theorem find_none (transferId : UInt64) : find none transferId = none := rfl

@[simp]
theorem find_some (current transferId : UInt64) (transfer : ClipboardTransfer) :
    find (some (current, transfer)) transferId =
      if current = transferId then some transfer else none := rfl

theorem find_expire (now : ℕ) (transferId : UInt64) :
    (buffer.expire now).find transferId = (buffer.find transferId).filter fun transfer =>
      now - transfer.started < clipboardTransferTimeout := by
  rcases buffer with _ | ⟨current, transfer⟩
  · rfl
  · by_cases same : current = transferId <;>
      by_cases young : now - transfer.started < clipboardTransferTimeout <;>
      simp [expire, filter_some, same, young]

theorem find_chunk (transferId other : UInt64) (index : UInt32) (data : Bytes) :
    (buffer.chunk transferId index data).1.find other =
      if other = transferId then
        (buffer.find transferId).bind fun transfer => (transfer.accept index data).1
      else buffer.find other := by
  rcases buffer with _ | ⟨current, transfer⟩
  · simp [chunk]
  · by_cases same : current = transferId
    · by_cases asked : other = transferId
      · cases kept : (transfer.accept index data).1 <;> simp [chunk, same, asked, kept]
      · cases kept : (transfer.accept index data).1 <;>
          simp [chunk, same, asked, kept, Ne.symm asked]
    · by_cases asked : other = transferId <;> simp [chunk, same, asked]

theorem content_chunk (transferId : UInt64) (index : UInt32) (data : Bytes) :
    (buffer.chunk transferId index data).2 =
      (buffer.find transferId).bind fun transfer => (transfer.accept index data).2 := by
  rcases buffer with _ | ⟨current, _⟩
  · rfl
  · by_cases same : current = transferId <;> simp [chunk, same]

end Buffer

section Refinement

variable {Address : Type} [DecidableEq Address] {transfers : ClipboardTransfers Address}
  {buffers : Address → Buffer}

theorem lookup_receiveChunk (addr peer : Address) (transferId other : UInt64) (index : UInt32)
    (data : Bytes) :
    (receiveChunk transfers addr transferId index data).1.lookup (peer, other) =
      if (peer, other) = (addr, transferId) then
        (transfers.lookup (addr, transferId)).bind fun transfer => (transfer.accept index data).1
      else transfers.lookup (peer, other) := by
  unfold receiveChunk
  cases found : transfers.lookup (addr, transferId) with
  | none =>
    by_cases same : (peer, other) = (addr, transferId)
    · rw [if_pos same, same]
      exact found
    · rw [if_neg same]
  | some transfer =>
    rcases accepted : transfer.accept index data with ⟨_ | _, _⟩
    · simp [lookup_erase, accepted]
    · simp [lookup_insert, accepted]

theorem content_receiveChunk (addr : Address) (transferId : UInt64) (index : UInt32)
    (data : Bytes) :
    (receiveChunk transfers addr transferId index data).2 =
      (transfers.lookup (addr, transferId)).bind fun transfer =>
        (transfer.accept index data).2 := by
  unfold receiveChunk
  cases transfers.lookup (addr, transferId) with
  | none => rfl
  | some transfer =>
    rcases accepted : transfer.accept index data with ⟨_ | kept, content⟩ <;> simp [accepted]

/-- A table has for every peer the entry of its buffer and no other. -/
def Represents (transfers : ClipboardTransfers Address) (buffers : Address → Buffer) : Prop :=
  ∀ addr transferId, transfers.lookup (addr, transferId) = (buffers addr).find transferId

theorem represents_empty : Represents (∅ : ClipboardTransfers Address) fun _ => none := by
  intro _ _
  rfl

variable (represents : Represents transfers buffers)
include represents

theorem Represents.eq_of_mem {addr : Address} {first second : UInt64}
    (one : (addr, first) ∈ transfers) (other : (addr, second) ∈ transfers) : first = second := by
  rw [mem_iff_lookup] at one other
  rw [represents] at one other
  rcases held : buffers addr with _ | ⟨current, transfer⟩ <;> rw [held] at one other
  · simp at one
  · simp only [Buffer.find_some, ite_none_right_eq_some] at one other
    rcases one with ⟨_, rfl, -⟩
    rcases other with ⟨_, rfl, -⟩
    rfl

theorem Represents.expire (now : ℕ) :
    Represents (expire transfers now) fun addr => (buffers addr).expire now := by
  intro _ _
  rw [ClipboardStream.expire, AList.lookup_retain, represents, Buffer.find_expire]

theorem Represents.start (addr : Address) (transferId : UInt64) (transfer : ClipboardTransfer) :
    Represents (startClipboardTransfer transfers addr transferId transfer) fun peer =>
      if peer = addr then some (transferId, transfer) else buffers peer := by
  intro peer other
  rw [startClipboardTransfer, lookup_insert, AList.lookup_retain, represents]
  by_cases same : peer = addr
  · by_cases latest : other = transferId
    · simp [same, latest]
    · simp [same, latest, Ne.symm latest]
  · cases found : (buffers peer).find other <;> simp [same, found, filter_some]

theorem Represents.chunk (addr : Address) (transferId : UInt64) (index : UInt32) (data : Bytes) :
    Represents (receiveChunk transfers addr transferId index data).1 fun peer =>
      if peer = addr then ((buffers addr).chunk transferId index data).1 else buffers peer := by
  intro peer _
  rw [lookup_receiveChunk, represents, represents]
  by_cases same : peer = addr
  · simp [same, Buffer.find_chunk]
  · simp [same]

theorem Represents.unchanged (addr : Address) :
    Represents transfers fun peer => if peer = addr then buffers addr else buffers peer := by
  intro peer other
  by_cases same : peer = addr
  · subst same
    simpa using represents peer other
  · simpa [same] using represents peer other

theorem Represents.receiveEvent (now : ℕ) (addr : Address) (event : ProtoEvent) :
    Represents (receiveEvent transfers now addr event).1 fun peer =>
      if peer = addr then ((buffers addr).receive now event).1 else buffers peer := by
  cases event with
  | clipboardStart transferId => exact represents.start addr transferId _
  | clipboardImageStart transferId =>
    exact represents.start addr transferId _
  | clipboardChunk transferId index data => exact represents.chunk addr transferId index data
  | _ => exact represents.unchanged addr

theorem Represents.content_receiveEvent (now : ℕ) (addr : Address) (event : ProtoEvent) :
    (ClipboardStream.receiveEvent transfers now addr event).2 =
      ((buffers addr).receive now event).2 := by
  cases event with
  | clipboardChunk transferId index data =>
    change (receiveChunk transfers addr transferId index data).2 =
      ((buffers addr).chunk transferId index data).2
    rw [content_receiveChunk, Buffer.content_chunk, represents]
  | _ => rfl

variable (arrival : ℕ × Input Address)

omit represents in
theorem Represents.step (represents : Represents transfers buffers) (arrival : ℕ × Input Address) :
    Represents (step transfers arrival).1 fun addr => ((buffers addr).step addr arrival).1 := by
  rcases arrival with ⟨now, ⟨sender, bytes⟩ | _⟩
  · cases decoded : decode bytes with
    | error => simpa [ClipboardStream.step, Buffer.step, decoded] using represents
    | ok event =>
      have received := represents.receiveEvent now sender event
      simp only [ClipboardStream.step, Buffer.step, decoded]
      intro addr transferId
      by_cases same : sender = addr
      · simpa [same] using received addr transferId
      · simpa [same, Ne.symm same] using received addr transferId
  · exact represents.expire now

theorem Represents.output (addr : Address) (content : ClipboardContent) :
    (ClipboardStream.step transfers arrival).2 = some (addr, content) ↔
      ((buffers addr).step addr arrival).2 = some content := by
  rcases arrival with ⟨now, ⟨sender, bytes⟩ | _⟩
  · cases decoded : decode bytes with
    | error => simp [ClipboardStream.step, Buffer.step, decoded]
    | ok event =>
      simp only [ClipboardStream.step, Buffer.step, decoded,
        represents.content_receiveEvent now sender event]
      by_cases same : sender = addr
      · simp [same]
      · simp [same]
  · simp [ClipboardStream.step, Buffer.step]

def contentsFrom (addr : Address) (handed : List (Address × ClipboardContent)) :
    List ClipboardContent :=
  handed.filterMap fun entry => if entry.1 = addr then some entry.2 else none

theorem Represents.contentsFrom_step (addr : Address) :
    contentsFrom addr (ClipboardStream.step transfers arrival).2.toList =
      ((buffers addr).step addr arrival).2.toList := by
  have same := represents.output arrival addr
  generalize (ClipboardStream.step transfers arrival).2 = handed at same ⊢
  generalize ((buffers addr).step addr arrival).2 = output at same ⊢
  rcases handed with _ | ⟨sender, content⟩
  · cases output with
    | none => rfl
    | some other => simpa using same other
  · by_cases sent : sender = addr
    · have there : output = some content := (same content).mp (by rw [sent])
      simp [contentsFrom, sent, there]
    · cases output with
      | none => simp [contentsFrom, sent]
      | some other => simpa [sent] using same other

theorem Represents.run (arrivals : List (ℕ × Input Address)) :
    Represents (run transfers arrivals).1 (fun addr => ((buffers addr).run addr arrivals).1) ∧
      ∀ addr, contentsFrom addr (ClipboardStream.run transfers arrivals).2 =
        ((buffers addr).run addr arrivals).2 := by
  induction arrivals generalizing transfers buffers with
  | nil => exact ⟨represents, fun _ => rfl⟩
  | cons arrival _ ih =>
    rcases ih (represents.step arrival) with ⟨later, handed⟩
    refine ⟨later, ?_⟩
    intro addr
    rw [ClipboardStream.run, Buffer.run, contentsFrom, filterMap_append]
    exact congrArg₂ _ (represents.contentsFrom_step arrival addr) (handed addr)

end Refinement

/-- What a start message says of the content. -/
structure Announcement where
  transferId : UInt64
  kind : ClipboardTransferKind
  totalLen : UInt32
  chunks : UInt32

def announcement? : ProtoEvent → Option Announcement
  | .clipboardStart transferId totalLen chunks => some ⟨transferId, .text, totalLen, chunks⟩
  | .clipboardImageStart transferId width height totalLen chunks =>
    some ⟨transferId, .image width height, totalLen, chunks⟩
  | _ => none

/-- The latest start of a peer, with the indices and the data of the chunks that belong to it, in
the order of their arrival. -/
def latest (events : List ProtoEvent) : Option (Announcement × List (UInt32 × Bytes)) :=
  events.foldl note none
where
  note (seen : Option (Announcement × List (UInt32 × Bytes))) (event : ProtoEvent) :
      Option (Announcement × List (UInt32 × Bytes)) :=
    match announcement? event with
    | some announced => some (announced, [])
    | none => seen.map fun known => (known.1, known.2 ++ (chunkOf known.1.transferId event).toList)
  chunkOf (transferId : UInt64) : ProtoEvent → Option (UInt32 × Bytes)
    | .clipboardChunk current index data =>
      if current = transferId then some (index, data) else none
    | _ => none

def indexed (pieces : List Bytes) : List (UInt32 × Bytes) :=
  pieces.mapIdx fun index data => (UInt32.ofNat index, data)

theorem indexed_append (pieces : List Bytes) (data : Bytes) :
    indexed (pieces ++ [data]) = indexed pieces ++ [(UInt32.ofNat pieces.length, data)] := by
  simp [indexed]

/-- The lengths that an announcement of the wire has: no chunk is announced for no bytes only, and
an image has four bytes a pixel. -/
def Announcement.Valid (announced : Announcement) : Prop :=
  (announced.chunks = 0 → announced.totalLen = 0) ∧
    ∀ width height, announced.kind = .image width height →
      announced.totalLen.toNat = width.toNat * height.toNat * 4

theorem toNat_ofNat_divCeil {length : ℕ} (short : length ≤ maxClipboardSize) :
    (UInt32.ofNat (divCeil length maxClipboardChunkSize)).toNat =
      divCeil length maxClipboardChunkSize := by
  apply UInt32.toNat_ofNat_of_lt'
  simp only [divCeil, maxClipboardChunkSize, maxClipboardSize, maxDatagramSize,
    clipboardChunkHeaderSize, UInt32.size] at short ⊢
  omega

theorem validateClipboardStart_eq_ok {totalLen chunks : UInt32} :
    validateClipboardStart totalLen chunks = .ok () ↔
      totalLen.toNat ≤ maxClipboardSize ∧
        chunks.toNat = divCeil totalLen.toNat maxClipboardChunkSize := by
  simp only [validateClipboardStart, guard_bind_ok, guard_ok, not_lt,
    ne_eq, not_not, pure_ok, and_true]
  apply and_congr_right
  intro short
  have count := toNat_ofNat_divCeil short
  by_cases empty : totalLen = 0
  · subst empty
    rw [if_pos rfl, ← UInt32.toNat_inj]
    rfl
  · rw [if_neg empty, ← UInt32.toNat_inj, count]

theorem validateClipboardImage_eq_ok {width height totalLen chunks : UInt32} :
    validateClipboardImage width height totalLen chunks = .ok () ↔
      totalLen.toNat = width.toNat * height.toNat * 4 ∧
        validateClipboardStart totalLen chunks = .ok () := by
  have small := totalLen.toNat_lt
  simp only [validateClipboardImage, bind_ok, okOr_eq_ok, bind_eq_some_iff,
    checkedMul_eq_some, guard_bind_ok, ne_eq, not_not, usizeMax]
  constructor
  · rintro ⟨_, ⟨_, ⟨-, rfl⟩, -, rfl⟩, same, valid⟩
    exact ⟨same.symm, valid⟩
  · rintro ⟨same, valid⟩
    refine ⟨totalLen.toNat, ⟨_, ⟨?_, rfl⟩, ?_, same.symm⟩, rfl, valid⟩ <;> omega

theorem valid_of_start {totalLen chunks : UInt32}
    (valid : validateClipboardStart totalLen chunks = .ok ()) (none : chunks = 0) :
    totalLen = 0 := by
  have count := (validateClipboardStart_eq_ok.mp valid).2
  simp only [none, UInt32.toNat_zero, divCeil, maxClipboardChunkSize, maxDatagramSize,
    clipboardChunkHeaderSize] at count
  apply UInt32.toNat_inj.mp
  simp only [UInt32.toNat_zero]
  omega

theorem valid_of_decode {bytes : Bytes} {event : ProtoEvent} {announced : Announcement}
    (decoded : decode bytes = .ok event) (starts : announcement? event = some announced) :
    announced.Valid := by
  have sendable : Sendable event := (decode_eq_ok.mp decoded).2.1.1
  cases event with
  | clipboardStart =>
    cases starts
    exact ⟨valid_of_start sendable, fun _ _ image => nomatch image⟩
  | clipboardImageStart =>
    cases starts
    rcases validateClipboardImage_eq_ok.mp sendable with ⟨pixels, start⟩
    refine ⟨valid_of_start start, ?_⟩
    intro _ _ image
    cases image
    exact pixels
  | _ => exact nomatch starts

/-- What a buffer holds are the chunks that followed the latest start, from the first one on and in
order. -/
structure Holds (events : List ProtoEvent) (transferId : UInt64) (transfer : ClipboardTransfer)
    (announced : Announcement) (pieces : List Bytes) : Prop where
  seen : latest events = some (announced, indexed pieces)
  valid : announced.Valid
  transferId : announced.transferId = transferId
  kind : transfer.kind = announced.kind
  totalLen : transfer.totalLen = announced.totalLen.toNat
  chunks : transfer.chunks = announced.chunks
  next : transfer.next = UInt32.ofNat pieces.length
  bytes : transfer.bytes = pieces.flatten
  incomplete : announced.chunks = 0 ∨ pieces.length < announced.chunks.toNat

def Buffered (events : List ProtoEvent) (buffer : Buffer) : Prop :=
  ∀ transferId transfer, buffer = some (transferId, transfer) →
    ∃ announced pieces, Holds events transferId transfer announced pieces

/-- The chunk is the last one of the content that was announced last. -/
def Completes (earlier : List ProtoEvent) (event : ProtoEvent) (content : ClipboardContent) :
    Prop :=
  ∃ announced pieces data,
    latest earlier = some (announced, indexed pieces) ∧
      event = .clipboardChunk announced.transferId (UInt32.ofNat pieces.length) data ∧
      (announced.chunks = 0 ∨ (pieces ++ [data]).length = announced.chunks.toNat) ∧
      content.kind = announced.kind ∧
      content.data = ((pieces ++ [data]).take announced.chunks.toNat).flatten ∧
      content.data.length = announced.totalLen.toNat ∧
      ∀ width height, announced.kind = .image width height →
        content.data.length = width.toNat * height.toNat * 4

theorem latest_append (events : List ProtoEvent) (event : ProtoEvent) :
    latest (events ++ [event]) = latest.note (latest events) event := by
  simp [latest]

theorem ClipboardTransfer.content_eq_some {transfer : ClipboardTransfer}
    {content : ClipboardContent} :
    transfer.content = some content ↔
      content.kind = transfer.kind ∧ content.data = transfer.bytes := by
  cases transfer with
  | mk kind =>
    cases kind <;> cases content <;>
      simp [ClipboardTransfer.content, ClipboardContent.kind, ClipboardContent.data,
        fromUtf8?_eq_some, eq_comm, and_assoc]

def ClipboardTransfer.extend (transfer : ClipboardTransfer) (data : Bytes) : ClipboardTransfer :=
  { transfer with bytes := transfer.bytes ++ data, next := transfer.next + 1 }

theorem ClipboardTransfer.accept_kept {transfer kept : ClipboardTransfer} {index : UInt32}
    {data : Bytes} (accepted : (transfer.accept index data).1 = some kept) :
    index = transfer.next ∧ transfer.next + 1 ≠ transfer.chunks ∧ kept = transfer.extend data := by
  unfold accept at accepted
  split at accepted
  · rename_i fits
    dsimp only at accepted
    split at accepted
    · split at accepted <;> cases accepted
    · rename_i more
      exact ⟨fits.1, more, (some_inj.mp accepted).symm⟩
  · cases accepted

theorem ClipboardTransfer.accept_content {transfer : ClipboardTransfer} {index : UInt32}
    {data : Bytes} {content : ClipboardContent}
    (accepted : (transfer.accept index data).2 = some content) :
    index = transfer.next ∧ transfer.next + 1 = transfer.chunks ∧
      (transfer.bytes ++ data).length = transfer.totalLen ∧ content.kind = transfer.kind ∧
      content.data = transfer.bytes ++ data := by
  unfold accept at accepted
  split at accepted
  · rename_i fits
    dsimp only at accepted
    split at accepted
    · rename_i last
      split at accepted
      · rename_i full
        exact ⟨fits.1, last, full, content_eq_some.mp accepted⟩
      · cases accepted
    · cases accepted
  · cases accepted

section Safety

variable {events : List ProtoEvent} {transferId : UInt64} {transfer kept : ClipboardTransfer}
  {announced : Announcement} {pieces : List Bytes} {index : UInt32} {data : Bytes}
  {content : ClipboardContent}

variable (holds : Holds events transferId transfer announced pieces)
include holds

theorem Holds.count :
    announced.chunks = 0 ∨
      (transfer.next + 1 = transfer.chunks ↔ pieces.length + 1 = announced.chunks.toNat) := by
  rcases holds.incomplete with empty | _
  · exact .inl empty
  · right
    have bound := announced.chunks.toNat_lt
    rw [holds.next, holds.chunks, ← UInt32.toNat_inj, UInt32.toNat_add, UInt32.toNat_ofNat']
    simp only [UInt32.toNat_one]
    omega

omit holds in
theorem latest_chunk (seen : latest events = some (announced, indexed pieces))
    (next : index = UInt32.ofNat pieces.length) :
    latest (events ++ [.clipboardChunk announced.transferId index data]) =
      some (announced, indexed (pieces ++ [data])) := by
  rw [latest_append, seen, indexed_append, next]
  simp [latest.note, announcement?, latest.chunkOf]

variable {event : ProtoEvent} {buffer : Buffer}

theorem Holds.keep (noStart : announcement? event = none)
    (foreign : latest.chunkOf announced.transferId event = none) :
    Holds (events ++ [event]) transferId transfer announced pieces := by
  have seen : latest (events ++ [event]) = some (announced, indexed pieces) := by
    rw [latest_append, holds.seen]
    simp [latest.note, noStart, foreign]
  exact { holds with seen := seen }

theorem Holds.extend (accepted : (transfer.accept index data).1 = some kept) :
    Holds (events ++ [.clipboardChunk transferId index data]) transferId kept announced
      (pieces ++ [data]) := by
  rcases ClipboardTransfer.accept_kept accepted with ⟨next, more, rfl⟩
  have seen := holds.seen
  refine ⟨?_, holds.valid, holds.transferId, holds.kind, holds.totalLen, holds.chunks, ?_, ?_, ?_⟩
  · rw [← holds.transferId]
    exact latest_chunk seen (next.trans holds.next)
  · simp [ClipboardTransfer.extend, holds.next]
  · simp [ClipboardTransfer.extend, holds.bytes]
  · rcases holds.count with empty | count
    · exact .inl empty
    · rcases holds.incomplete with empty | _
      · exact .inl empty
      · right
        have different := mt count.mpr more
        rw [length_append, length_singleton]
        omega

theorem Holds.completes (accepted : (transfer.accept index data).2 = some content) :
    Completes events (.clipboardChunk transferId index data) content := by
  rcases ClipboardTransfer.accept_content accepted with ⟨next, last, full, kind, whole⟩
  have size : content.data.length = announced.totalLen.toNat := by
    rw [whole, full, holds.totalLen]
  refine ⟨announced, pieces, data, holds.seen, ?_, ?_, kind.trans holds.kind, ?_, size, ?_⟩
  · rw [holds.transferId, next, holds.next]
  · rcases holds.count with empty | count
    · exact .inl empty
    · right
      simpa using count.mp last
  · rcases holds.count with empty | count
    · rw [holds.valid.1 empty] at size
      simpa [empty] using length_eq_zero_iff.mp size
    · have all : (pieces ++ [data]).take announced.chunks.toNat = pieces ++ [data] := by
        apply take_of_length_le
        simp [← count.mp last]
      simp [all, whole, holds.bytes]
  · intro width height image
    rw [size, holds.valid.2 width height image]

omit holds

theorem Buffered.receive {bytes : Bytes} (buffered : Buffered events buffer)
    (decoded : decode bytes = .ok event) (now : ℕ) :
    Buffered (events ++ [event]) (buffer.receive now event).1 := by
  intro transferId transfer held
  cases starts : announcement? event with
  | some announced =>
    refine ⟨announced, [], ?_⟩
    have valid := valid_of_decode decoded starts
    have seen : latest (events ++ [event]) = some (announced, indexed []) := by
      rw [latest_append]
      simp [latest.note, starts, indexed]
    have counts : announced.chunks = 0 ∨ ([] : List Bytes).length < announced.chunks.toNat := by
      by_cases empty : announced.chunks = 0
      · exact .inl empty
      · right
        apply Nat.pos_of_ne_zero
        rwa [ne_eq, ← UInt32.toNat_zero, UInt32.toNat_inj]
    cases event <;> cases starts <;> cases held <;>
      exact ⟨seen, valid, rfl, rfl, rfl, rfl, rfl, rfl, counts⟩
  | none =>
    cases event with
    | clipboardStart | clipboardImageStart => cases starts
    | clipboardChunk _ _ data =>
      rcases buffer with _ | ⟨known, before⟩
      · cases held
      · rcases buffered known before rfl with ⟨announced, pieces, holds⟩
        simp only [Buffer.receive, Buffer.chunk] at held
        split at held
        · rename_i same
          rcases map_eq_some_iff.mp held with ⟨_, accepted, paired⟩
          cases paired
          rw [← same]
          exact ⟨announced, pieces ++ [data], holds.extend accepted⟩
        · rename_i different
          cases held
          refine ⟨announced, pieces, holds.keep rfl ?_⟩
          simp [latest.chunkOf, holds.transferId, Ne.symm different]
    | _ =>
      rcases buffered transferId transfer held with ⟨announced, pieces, holds⟩
      exact ⟨announced, pieces, holds.keep rfl rfl⟩

theorem Buffered.completes {now : ℕ} (buffered : Buffered events buffer)
    (output : (buffer.receive now event).2 = some content) : Completes events event content := by
  cases event with
  | clipboardChunk =>
    rcases buffer with _ | ⟨known, before⟩
    · cases output
    · rcases buffered known before rfl with ⟨_, _, holds⟩
      simp only [Buffer.receive, Buffer.chunk] at output
      split at output
      · rename_i same
        rw [← same]
        exact holds.completes output
      · cases output
  | _ => cases output

variable {Address : Type} [DecidableEq Address] (addr : Address)

def eventsFrom (addr : Address) (arrivals : List (ℕ × Input Address)) : List ProtoEvent :=
  arrivals.filterMap fun arrival => eventFrom arrival.2
where
  eventFrom : Input Address → Option ProtoEvent
    | .datagram sender bytes => if sender = addr then (decode bytes).toOption else none
    | .tick => none

theorem eventsFrom_append (arrivals more : List (ℕ × Input Address)) :
    eventsFrom addr (arrivals ++ more) = eventsFrom addr arrivals ++ eventsFrom addr more :=
  filterMap_append

theorem Buffered.expire (buffered : Buffered events buffer) (now : ℕ) :
    Buffered events (buffer.expire now) := by
  intro transferId transfer held
  exact buffered transferId transfer (filter_eq_some_iff.mp held).1

theorem Buffered.step {addr : Address} {arrivals : List (ℕ × Input Address)}
    (buffered : Buffered (eventsFrom addr arrivals) buffer) (arrival : ℕ × Input Address) :
    Buffered (eventsFrom addr (arrivals ++ [arrival])) (buffer.step addr arrival).1 := by
  rw [eventsFrom_append]
  generalize eventsFrom addr arrivals = events at buffered ⊢
  rcases arrival with ⟨now, ⟨sender, bytes⟩ | _⟩
  · by_cases same : sender = addr
    · cases decoded : decode bytes with
      | error =>
        simpa [Buffer.step, eventsFrom, eventsFrom.eventFrom, Except.toOption, same, decoded]
          using buffered
      | ok =>
        simpa [Buffer.step, eventsFrom, eventsFrom.eventFrom, Except.toOption, same, decoded]
          using buffered.receive decoded now
    · simpa [Buffer.step, eventsFrom, eventsFrom.eventFrom, same] using buffered
  · simpa [Buffer.step, eventsFrom, eventsFrom.eventFrom] using buffered.expire now

theorem Buffer.run_append (buffer : Buffer) (arrivals : List (ℕ × Input Address))
    (arrival : ℕ × Input Address) :
    (buffer.run addr (arrivals ++ [arrival])).1 =
      ((buffer.run addr arrivals).1.step addr arrival).1 := by
  induction arrivals generalizing buffer with
  | nil => rfl
  | cons first _ ih => exact ih (buffer.step addr first).1

theorem buffered_run (arrivals : List (ℕ × Input Address)) :
    Buffered (eventsFrom addr arrivals) (Buffer.run addr none arrivals).1 := by
  induction arrivals using reverseRecOn with
  | nil =>
    intro _ _ held
    cases held
  | append_singleton _ arrival ih =>
    rw [Buffer.run_append]
    exact ih.step arrival

/-- Whatever a task hands on, its peer has sent completely and in order since its latest start. -/
theorem exists_completes {arrivals : List (ℕ × Input Address)} {arrival : ℕ × Input Address}
    {addr : Address} (output : (step (run (∅ : ClipboardTransfers Address) arrivals).1 arrival).2 =
      some (addr, content)) :
    ∃ event, eventsFrom addr [arrival] = [event] ∧
      Completes (eventsFrom addr arrivals) event content := by
  have represents := (represents_empty.run arrivals).1
  have buffered := buffered_run addr arrivals
  rw [represents.output] at output
  rcases arrival with ⟨_, ⟨sender, bytes⟩ | _⟩
  · by_cases same : sender = addr
    · cases decoded : decode bytes with
      | error => simp [Buffer.step, same, decoded] at output
      | ok event =>
        refine ⟨event, ?_, ?_⟩
        · simp [eventsFrom, eventsFrom.eventFrom, same, decoded, Except.toOption]
        · simp only [Buffer.step, same, decoded] at output
          exact buffered.completes output
    · simp [Buffer.step, same] at output
  · cases output

end Safety

end Syntra.ClipboardStream
