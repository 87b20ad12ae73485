import Syntra.Files.Reading
import Syntra.Manual.Silence

/-!
# Serving a file

The sender's side of one transfer, from its offer on, under any messages, ticks and user actions. A
log has when the transfer was accepted, when the source was opened, what was read of it and how
requests were answered.
-/

namespace Syntra.Manual

open ByteFormat StateMachine Proto Files Record List OutgoingFile

variable {P : Type}

/-- What a record is given. -/
inductive RecordInput (P : Type) where
  | message (io : Io) (peer : P) (event : ProtoEvent)
  | prepare (io : Io) (directory : PathBuf) (automatic : Bool)
  | overwrite (io : Io) (directory : PathBuf)
  | decline
  | cancel
  | tick
  | refresh (route : Option P)

def RecordInput.reply (sha256 : Bytes → Digest) (record : Record P) (now : ℕ) :
    RecordInput P → Reply P
  | .message io peer event => (record.reroute peer).handle sha256 io event now
  | .prepare io directory automatic => record.prepareReceiver io directory now automatic
  | .overwrite io directory => record.overwrite io directory now
  | .decline => record.decline now
  | .cancel => record.cancel now
  | .tick => record.tick now
  | .refresh route => record.refresh route now

/-- What happens to the source of a record. -/
inductive ServeEvent where
  | accepted
  | opened
  | read (position : ℕ) (data : Bytes)
  | answered (offset : UInt64) (length : UInt32) (messages : List ProtoEvent)
  deriving DecidableEq

namespace Record

/-- A request gets past the checks of `send_chunk` to the source. -/
def Reaches (record : Record P) (offset : UInt64) (length : UInt32) : Prop :=
  isTerminal record.state = false ∧ record.direction = .sending ∧
    record.state = .transferring ∧ length ≠ 0 ∧ length.toNat ≤ maxManualFileChunkSize ∧
    offset ≤ record.size ∧
    ¬(record.cachedRequest = some (offset, length) ∧ record.cachedResponse.isSome) ∧
    offset = record.transferred

instance (record : Record P) (offset : UInt64) (length : UInt32) :
    Decidable (record.Reaches offset length) :=
  inferInstanceAs (Decidable (_ ∧ _))

def opening (record : Record P) : List ServeEvent :=
  if record.outgoing.isSome then [] else [.opened]

def sourceEvents (io : Io) (record : Record P) (offset : UInt64) (length : UInt32) :
    List ServeEvent :=
  if record.Reaches offset length then
    match record.openSource io with
    | .error _ => []
    | .ok source =>
      record.opening ++
        if offset = record.size then
          []
        else
          (source.chunkReads io length.toNat).map fun read => .read read.1 read.2
  else
    []

end Record

def RecordInput.events (record : Record P) (reply : Reply P) : RecordInput P → List ServeEvent
  | .message _ _ (.manualFileDecision _ .accepted) =>
    if record.state ≠ .transferring ∧ reply.record.state = .transferring then [.accepted] else []
  | .message io _ (.manualFileRequest _ offset length) =>
    record.sourceEvents io offset length ++ [.answered offset length (sends reply.actions)]
  | _ => []

def serveStep (sha256 : Bytes → Digest) (record : Record P) (input : RecordInput P × ℕ) :
    Record P × List ServeEvent :=
  ((input.1.reply sha256 record input.2).record,
    input.1.events record (input.1.reply sha256 record input.2))

def isServed : ProtoEvent → Bool
  | .manualFileChunk _ _ _ | .manualFileComplete _ _ => true
  | _ => false

def readsOf (log : List ServeEvent) : List (ℕ × Bytes) :=
  log.filterMap fun event =>
    match event with
    | .read position data => some (position, data)
    | _ => none

def ServeEvent.served : ServeEvent → Option ((UInt64 × UInt32) × ProtoEvent)
  | .answered offset length [response] =>
    if isServed response then some ((offset, length), response) else none
  | _ => none

def lastServed (log : List ServeEvent) : Option ((UInt64 × UInt32) × ProtoEvent) :=
  (log.filterMap ServeEvent.served).getLast?

theorem lastServed_append {log events : List ServeEvent}
    (unserved : ∀ event ∈ events, event.served = none) :
    lastServed (log ++ events) = lastServed log := by
  rw [lastServed, filterMap_append, filterMap_eq_nil_iff.mpr unserved, append_nil]
  rfl

theorem lastServed_concat {log : List ServeEvent} {event : ServeEvent}
    {entry : (UInt64 × UInt32) × ProtoEvent} (served : event.served = some entry) :
    lastServed (log ++ [event]) = some entry := by
  simp [lastServed, filterMap_append, served]

theorem isServed_of_lastServed {log : List ServeEvent} {request : UInt64 × UInt32}
    {response : ProtoEvent} (last : lastServed log = some (request, response)) :
    isServed response = true := by
  have member := mem_of_getLast? last
  rcases mem_filterMap.mp member with ⟨_, _, served⟩
  unfold ServeEvent.served at served
  split at served
  · split at served
    · rename_i answered
      cases served
      exact answered
    · cases served
  · cases served

theorem served_answered {offset : UInt64} {length : UInt32} {messages : List ProtoEvent}
    (unserved : ∀ message ∈ messages, isServed message = false) :
    (ServeEvent.answered offset length messages).served = none := by
  unfold ServeEvent.served
  split
  · rename_i named
    cases named
    simp [unserved]
  · rfl

def ServeEvent.handle (handle : Option ℕ) : ServeEvent → Option ℕ
  | .opened => some 0
  | .read position data => some (position + data.length)
  | _ => handle

/-- The source is opened after the acceptance, once, and read on from where it stood. -/
def Sequential : (accepted : Bool) → (handle : Option ℕ) → List ServeEvent → Prop
  | _, _, [] => True
  | _, handle, .accepted :: log => Sequential true handle log
  | accepted, handle, .opened :: log =>
    accepted = true ∧ handle = none ∧ Sequential accepted (some 0) log
  | accepted, handle, .read position data :: log =>
    handle = some position ∧ Sequential accepted (some (position + data.length)) log
  | accepted, handle, .answered _ _ _ :: log => Sequential accepted handle log

variable {accepted : Bool} {position : ℕ} {reads : List (ℕ × Bytes)}

theorem sequential_append {handle : Option ℕ} {first second : List ServeEvent} :
    Sequential accepted handle (first ++ second) ↔ Sequential accepted handle first ∧
      Sequential (accepted || decide (.accepted ∈ first)) (first.foldl ServeEvent.handle handle)
        second := by
  induction first generalizing accepted handle with
  | nil => simp [Sequential]
  | cons event _ ih =>
    cases event with
    | accepted => simp [Sequential, ih, ServeEvent.handle]
    | opened | read => simp [Sequential, ih, ServeEvent.handle, and_assoc]
    | answered => simp [Sequential, ih, ServeEvent.handle]

theorem sequential_reads (contiguous : Contiguous position reads) :
    Sequential accepted (some position) (reads.map fun read => .read read.1 read.2) := by
  induction reads generalizing position with
  | nil => trivial
  | cons _ _ ih =>
    rcases contiguous with ⟨rfl, rest⟩
    exact ⟨rfl, ih rest⟩

theorem handle_reads (contiguous : Contiguous position reads) :
    (reads.map fun read => ServeEvent.read read.1 read.2).foldl ServeEvent.handle
      (some position) = some (position + extent reads) := by
  induction reads generalizing position with
  | nil => rfl
  | cons _ _ ih =>
    rcases contiguous with ⟨rfl, rest⟩
    refine (ih rest).trans ?_
    simp [extent, Nat.add_assoc]

theorem contiguous_of_sequential {handle : Option ℕ} {log : List ServeEvent}
    (sequential : Sequential accepted handle log) : Contiguous (handle.getD 0) (readsOf log) := by
  induction log generalizing accepted handle with
  | nil => trivial
  | cons event _ ih =>
    cases event with
    | accepted => exact ih sequential
    | opened =>
      rcases sequential with ⟨_, rfl, rest⟩
      have later := ih rest
      exact later
    | read =>
      rcases sequential with ⟨rfl, rest⟩
      have later := ih rest
      exact ⟨rfl, later⟩
    | answered => exact ih sequential

namespace Record

variable {record later : Record P} {sha256 : Bytes → Digest} {io : Io} {now : ℕ}

/-- A step that does not serve: it ends the record or leaves all that serving needs. -/
structure Spares (record later : Record P) : Prop where
  direction : later.direction = record.direction
  size : later.size = record.size
  transferred : later.transferred = record.transferred
  kept : isTerminal later.state = false → isTerminal record.state = false ∧
    later.outgoing = record.outgoing ∧ later.cachedRequest = record.cachedRequest ∧
    later.cachedResponse = record.cachedResponse

theorem Spares.refl (record : Record P) : record.Spares record :=
  ⟨rfl, rfl, rfl, fun live => ⟨live, rfl, rfl, rfl⟩⟩

theorem Spares.of_ended (direction : later.direction = record.direction)
    (size : later.size = record.size) (transferred : later.transferred = record.transferred)
    (ended : isTerminal later.state = true) : record.Spares later := by
  refine ⟨direction, size, transferred, fun live => ?_⟩
  rw [ended] at live
  cases live

/-- A step that does not start the transfer either. -/
structure Rests (record later : Record P) : Prop where
  spares : record.Spares later
  starts : later.state = .transferring → record.state = .transferring

theorem Rests.refl (record : Record P) : record.Rests record :=
  ⟨.refl record, fun same => same⟩

theorem Rests.of_ended (direction : later.direction = record.direction)
    (size : later.size = record.size) (transferred : later.transferred = record.transferred)
    (ended : isTerminal later.state = true) : record.Rests later := by
  refine ⟨.of_ended direction size transferred ended, fun transferring => ?_⟩
  rw [transferring] at ended
  cases ended

theorem spares_decision (answer : ManualDecision) (sending : record.direction = .sending) :
    record.Spares (record.decision answer now).record ∧
      (answer ≠ .accepted → record.Rests (record.decision answer now).record) := by
  have rests {later : Record P} (rests : record.Rests later) :
      record.Spares later ∧ (answer ≠ .accepted → record.Rests later) :=
    ⟨rests.spares, fun _ => rests⟩
  unfold decision
  split
  · exact rests (.refl record)
  · rename_i live
    rw [Bool.not_eq_true] at live
    split
    · split
      · exact rests (.refl record)
      · exact rests ⟨⟨rfl, rfl, rfl, fun _ => ⟨live, rfl, rfl, rfl⟩⟩, nofun⟩
    · split
      · exact rests (.of_ended rfl rfl rfl rfl)
      · dsimp only
        split
        · exact ⟨⟨rfl, rfl, rfl, fun _ => ⟨live, rfl, rfl, rfl⟩⟩, fun refused => absurd rfl refused⟩
        · exact rests (.refl record)
    · rename_i _ _ receiving
      cases receiving.symm.trans sending
    · exact rests (.of_ended rfl rfl rfl rfl)
    · exact rests (.refl record)
    · exact rests (.refl record)

theorem rests_writeChunk (offset : UInt64) (data : Bytes) (sending : record.direction = .sending) :
    record.Rests (record.writeChunk sha256 io offset data now).record := by
  unfold writeChunk
  rw [if_pos (by simp [sending])]
  exact .refl record

theorem rests_completeReceiver (digest : Digest) (sending : record.direction = .sending) :
    record.Rests (record.completeReceiver sha256 io digest now).record := by
  unfold completeReceiver
  rw [if_pos (by simp [sending])]
  exact .refl record

theorem rests_receiveResult (success : Bool) (error : Option String) :
    record.Rests (record.receiveResult success error now).record := by
  unfold receiveResult
  split
  · exact .refl record
  · split
    · exact .of_ended rfl rfl rfl rfl
    · split
      · exact .of_ended rfl rfl rfl rfl
      · exact .refl record

theorem rests_receiveCancel : record.Rests (record.receiveCancel now).record := by
  unfold receiveCancel
  split
  · exact .refl record
  · exact .of_ended rfl rfl rfl rfl

theorem rests_cancel : record.Rests (record.cancel now).record := by
  unfold cancel
  split
  · exact .of_ended rfl rfl rfl rfl
  · exact .refl record

theorem rests_tick : record.Rests (record.tick now).record := by
  have retried : record.Rests (record.retry now).record :=
    ⟨⟨rfl, rfl, rfl, fun live => ⟨live, rfl, rfl, rfl⟩⟩, fun same => same⟩
  unfold tick
  split
  · split
    · exact retried
    · exact .refl record
  · split
    · exact .of_ended rfl rfl rfl rfl
    · split
      · split
        · exact .of_ended rfl rfl rfl rfl
        · exact retried
      · exact .refl record

theorem rests_refresh (route : Option P) : record.Rests (record.refresh route now).record := by
  unfold refresh
  split
  · exact ⟨⟨rfl, rfl, rfl, fun live => ⟨live, rfl, rfl, rfl⟩⟩, fun same => same⟩
  · split
    · exact .of_ended rfl rfl rfl rfl
    · exact .refl record

/-- How a request is dealt with. -/
inductive Treats (record : Record P) (offset : UInt64) (length : UInt32) (reply : Reply P) : Prop
  | refuses (unreached : ¬record.Reaches offset length) (rests : record.Rests reply.record)
      (unserved : ∀ message ∈ sends reply.actions, isServed message = false)
  | repeats (response : ProtoEvent) (unreached : ¬record.Reaches offset length)
      (live : isTerminal record.state = false)
      (request : record.cachedRequest = some (offset, length))
      (cached : record.cachedResponse = some response) (rests : record.Rests reply.record)
      (told : sends reply.actions = [response])
  | serves (reaches : record.Reaches offset length)

theorem fail_unserved (error : String) (files : List FileEvent) :
    ∀ message ∈ sends (record.fail error now files).actions, isServed message = false := by
  intro _ member
  rw [mem_singleton.mp member]
  rfl

theorem Treats.of_fail {offset : UInt64} {length : UInt32} (error : String)
    (unreached : ¬record.Reaches offset length) :
    record.Treats offset length (record.fail error now []) :=
  .refuses unreached (.of_ended rfl rfl rfl rfl) (fail_unserved error [])

theorem treats_sendChunk (sha256 : Bytes → Digest) (io : Io) (record : Record P) (offset : UInt64)
    (length : UInt32) (now : ℕ) :
    record.Treats offset length (record.sendChunk sha256 io offset length now) := by
  unfold sendChunk
  split
  · rename_i ended
    refine .refuses (fun reaches => ?_) (.refl record) (by simp)
    rw [reaches.1] at ended
    cases ended
  · rename_i live
    rw [Bool.not_eq_true] at live
    split
    · rename_i idle
      refine .refuses (fun reaches => ?_) (.refl record) fun _ member => ?_
      · exact idle.elim (absurd reaches.2.1) (absurd reaches.2.2.1)
      · rw [peerFailure, sends_send, sends_nil, mem_singleton] at member
        rw [member]
        rfl
    · rename_i transferring
      simp only [not_or, not_not] at transferring
      split
      · rename_i invalid
        refine .of_fail _ fun reaches => ?_
        rcases reaches with ⟨_, _, _, nonzero, limited, within, _⟩
        rcases invalid with zero | large | beyond
        · exact nonzero zero
        · exact Nat.not_lt.mpr limited large
        · exact UInt64.not_lt.mpr within beyond
      · rename_i valid
        simp only [not_or, Nat.not_lt, UInt64.not_lt] at valid
        dsimp only
        split
        · rename_i response cached
          split at cached
          · rename_i request
            refine .repeats response (fun reaches => ?_) live request cached
              ⟨⟨rfl, rfl, rfl, fun live => ⟨live, rfl, rfl, rfl⟩⟩, fun same => same⟩ rfl
            exact reaches.2.2.2.2.2.2.1 ⟨request, by rw [cached]; rfl⟩
          · cases cached
        · rename_i uncached
          have fresh : ¬(record.cachedRequest = some (offset, length) ∧
              record.cachedResponse.isSome) := by
            rintro ⟨request, some⟩
            rw [if_pos request] at uncached
            rw [uncached] at some
            cases some
          split
          · rename_i older
            refine .refuses (fun reaches => ?_) (.refl record) (by simp)
            rw [reaches.2.2.2.2.2.2.2] at older
            exact UInt64.lt_irrefl _ older
          · split
            · rename_i elsewhere
              exact .of_fail _ fun reaches => elsewhere reaches.2.2.2.2.2.2.2
            · rename_i here
              rw [ne_eq, not_not] at here
              exact .serves ⟨live, transferring.1, transferring.2, valid.1, valid.2.1, valid.2.2,
                fresh, here⟩

theorem sendChunk_of_reaches {offset : UInt64} {length : UInt32}
    (reaches : record.Reaches offset length) :
    record.sendChunk sha256 io offset length now = record.serve sha256 io offset length now := by
  rcases reaches with ⟨live, sending, transferring, nonzero, limited, within, fresh, here⟩
  unfold sendChunk
  rw [if_neg (by simp [live]), if_neg (by simp [sending, transferring]),
    if_neg (by simp [nonzero, Nat.not_lt.mpr limited, UInt64.not_lt.mpr within])]
  dsimp only
  split
  · rename_i response cached
    split at cached
    · rename_i request
      exact absurd ⟨request, by rw [cached]; rfl⟩ fresh
    · cases cached
  · rw [if_neg (by rw [here]; exact UInt64.lt_irrefl _), if_neg (not_not.mpr here)]

/-- The record has answered this request from this source. -/
structure Serves (record later : Record P) (source : OutgoingFile) (offset : UInt64)
    (length : UInt32) (response : ProtoEvent) : Prop where
  direction : later.direction = record.direction
  size : later.size = record.size
  state : later.state = record.state
  outgoing : later.outgoing = some source
  request : later.cachedRequest = some (offset, length)
  cached : later.cachedResponse = some response
  served : isServed response = true

/-- What comes of a request that gets to the source. -/
inductive ServeOutcome (io : Io) (record : Record P) (offset : UInt64) (length : UInt32)
    (reply : Reply P) : Prop
  | fails (spares : record.Spares reply.record) (ended : isTerminal reply.record.state = true)
      (unserved : ∀ message ∈ sends reply.actions, isServed message = false)
  | concludes (source : OutgoingFile) (response : ProtoEvent)
      (opened : record.openSource io = .ok source) (all : offset = record.size)
      (serves : record.Serves reply.record source offset length response)
      (transferred : reply.record.transferred = record.transferred)
      (told : sends reply.actions = [response])
  | advances (source later : OutgoingFile) (data : Bytes) (response : ProtoEvent)
      (opened : record.openSource io = .ok source) (more : offset ≠ record.size)
      (read : source.nextChunkBounded io length.toNat = .ok (some (offset, data), later))
      (serves : record.Serves reply.record later offset length response)
      (transferred : reply.record.transferred = offset + UInt64.ofNat data.length)
      (told : sends reply.actions = [response])

section Progress

variable {actions : List (ManualAction P)} {files : List FileEvent}

theorem Serves.progress {source : OutgoingFile} {offset : UInt64} {length : UInt32}
    {response : ProtoEvent} (serves : record.Serves later source offset length response) :
    record.Serves (later.progress now actions files).record source offset length response := by
  unfold Record.progress
  split
  · exact ⟨serves.direction, serves.size, serves.state, serves.outgoing, serves.request,
      serves.cached, serves.served⟩
  · exact serves

theorem transferred_progress :
    (record.progress now actions files).record.transferred = record.transferred := by
  unfold progress
  split
  · rfl
  · rfl

end Progress

theorem serveOutcome (sha256 : Bytes → Digest) (io : Io) (record : Record P) (offset : UInt64)
    (length : UInt32) (now : ℕ) :
    record.ServeOutcome io offset length (record.serve sha256 io offset length now) := by
  unfold serve
  split
  · exact .fails (.of_ended rfl rfl rfl rfl) rfl (fail_unserved _ _)
  · rename_i source opened
    unfold answerRequest
    split
    · exact .fails (.of_ended rfl rfl rfl rfl) rfl (fail_unserved _ _)
    · rename_i response later files read
      have told : sends ((later.cacheResponse offset length response now).progress now
          [(later.cacheResponse offset length response now).send response] files).actions =
          [response] := sends_progress
      unfold readSource at read
      split at read
      · rename_i all
        split at read
        · cases read
          exact .concludes source _ opened all
            (Serves.progress ⟨rfl, rfl, rfl, rfl, rfl, rfl, rfl⟩) transferred_progress told
        · cases read
      · rename_i more
        split at read
        · rename_i start data reached chunk
          split at read
          · rename_i here
            cases read
            rw [here.1] at chunk
            exact .advances source reached data _ opened more chunk
              (Serves.progress ⟨rfl, rfl, rfl, rfl, rfl, rfl, rfl⟩) transferred_progress told
          · cases read
        · cases read
        · cases read

/-- A record that is sent stands where its log has brought it. -/
structure InService (record : Record P) (log : List ServeEvent) : Prop where
  direction : record.direction = .sending
  sequential : Sequential false none log
  accepted : record.state = .transferring → .accepted ∈ log
  closed : isTerminal record.state = false → record.outgoing = none →
    log.foldl ServeEvent.handle none = none
  opened : isTerminal record.state = false → ∀ source, record.outgoing = some source →
    log.foldl ServeEvent.handle none = some source.offset.toNat ∧ source.offset ≤ source.size
  cached : isTerminal record.state = false → lastServed log =
    record.cachedRequest.bind fun request => record.cachedResponse.map fun response =>
      (request, response)
  valid : isTerminal record.state = false → ∀ request, record.cachedRequest = some request →
    request.2 ≠ 0 ∧ request.2.toNat ≤ maxManualFileChunkSize ∧ request.1 ≤ record.size
  passed : ∀ request response, lastServed log = some (request, response) →
    request.1 ≤ record.transferred

variable {log events : List ServeEvent} {offset : UInt64} {length : UInt32}

variable (service : record.InService log)
include service

theorem InService.spared (spares : record.Spares later)
    (sequential : ∀ accepted handle, Sequential accepted handle events)
    (handle : ∀ handle, events.foldl ServeEvent.handle handle = handle)
    (last : lastServed (log ++ events) = lastServed log) (starts : later.state = .transferring →
      record.state = .transferring ∨ .accepted ∈ events) : later.InService (log ++ events) := by
  refine ⟨spares.direction.trans service.direction,
    sequential_append.mpr ⟨service.sequential, sequential _ _⟩, ?_, ?_, ?_, ?_, ?_, ?_⟩
  · intro transferring
    rcases starts transferring with already | now
    · exact mem_append_left _ (service.accepted already)
    · exact mem_append_right _ now
  · intro alive none
    rcases spares.kept alive with ⟨live, outgoing, _⟩
    rw [foldl_append, handle]
    exact service.closed live (outgoing.symm.trans none)
  · intro alive source present
    rcases spares.kept alive with ⟨live, outgoing, _⟩
    rw [foldl_append, handle]
    exact service.opened live source (outgoing.symm.trans present)
  · intro alive
    rcases spares.kept alive with ⟨live, _, request, response⟩
    rw [last, service.cached live, request, response]
  · intro alive asked there
    rcases spares.kept alive with ⟨live, _, request, _⟩
    rw [spares.size]
    exact service.valid live asked (request.symm.trans there)
  · rw [last, spares.transferred]
    exact service.passed

theorem InService.source (reaches : record.Reaches offset length) {source : OutgoingFile}
    (opened : record.openSource io = .ok source) :
    Sequential false none (log ++ record.opening) ∧
      (log ++ record.opening).foldl ServeEvent.handle none = some source.offset.toNat ∧
      source.offset ≤ source.size := by
  have accepted := service.accepted reaches.2.2.1
  unfold openSource at opened
  split at opened
  · rename_i present
    cases opened
    rcases service.opened reaches.1 source present with ⟨handle, bounded⟩
    have nothing : record.opening = [] := by
      rw [opening, present]
      rfl
    rw [nothing, append_nil]
    exact ⟨service.sequential, handle, bounded⟩
  · rename_i absent
    have closed := service.closed reaches.1 absent
    have first : record.opening = [.opened] := by
      rw [opening, absent]
      rfl
    rw [first]
    refine ⟨sequential_append.mpr ⟨service.sequential, ?_⟩, ?_⟩
    · rw [closed]
      exact ⟨by simp [accepted], rfl, trivial⟩
    · split at opened
      · cases opened
      · split at opened
        · rename_i made
          cases opened
          rcases FileOffer.openFile_offset made with ⟨start, bounded⟩
          rw [foldl_append, start]
          exact ⟨rfl, bounded⟩
        · cases opened

section

omit service

theorem sourceEvents_of_unreached (unreached : ¬record.Reaches offset length) :
    record.sourceEvents io offset length = [] :=
  if_neg unreached

theorem sourceEvents_of_opened (reaches : record.Reaches offset length) {source : OutgoingFile}
    (opened : record.openSource io = .ok source) :
    record.sourceEvents io offset length = record.opening ++
      if offset = record.size then
        []
      else
        (source.chunkReads io length.toNat).map fun read => .read read.1 read.2 := by
  rw [sourceEvents, if_pos reaches, opened]

theorem sourceEvents_unserved {event : ServeEvent}
    (member : event ∈ record.sourceEvents io offset length) : event.served = none := by
  unfold sourceEvents at member
  split at member
  · split at member
    · cases member
    · rcases mem_append.mp member with first | reading
      · unfold opening at first
        split at first
        · cases first
        · rw [mem_singleton.mp first]
          rfl
      · split at reading
        · cases reading
        · rcases mem_map.mp reading with ⟨_, _, rfl⟩
          rfl
  · cases member

end

theorem InService.sequential_source (io : Io) (offset : UInt64) (length : UInt32) :
    Sequential false none (log ++ record.sourceEvents io offset length) := by
  by_cases reaches : record.Reaches offset length
  · cases opened : record.openSource io with
    | error =>
      rw [sourceEvents, if_pos reaches, opened, append_nil]
      exact service.sequential
    | ok source =>
      rcases service.source reaches opened with ⟨sequential, handle, _⟩
      rw [sourceEvents_of_opened reaches opened, ← append_assoc]
      refine sequential_append.mpr ⟨sequential, ?_⟩
      rw [handle]
      split
      · trivial
      · exact sequential_reads (source.chunkReads_contiguous io _)
  · rw [sourceEvents_of_unreached reaches, append_nil]
    exact service.sequential

variable {response : ProtoEvent}

theorem InService.of_serves (reaches : record.Reaches offset length) {source : OutgoingFile}
    (serves : record.Serves later source offset length response)
    (handle : (log ++ record.sourceEvents io offset length).foldl ServeEvent.handle none =
      some source.offset.toNat) (bounded : source.offset ≤ source.size)
    (passed : offset ≤ later.transferred) :
    later.InService
      (log ++ (record.sourceEvents io offset length ++ [.answered offset length [response]])) := by
  have last : lastServed (log ++ record.sourceEvents io offset length ++
      [.answered offset length [response]]) = some ((offset, length), response) :=
    lastServed_concat (by simp [ServeEvent.served, serves.served])
  rw [← append_assoc]
  refine ⟨serves.direction.trans service.direction,
    sequential_append.mpr ⟨service.sequential_source io offset length, trivial⟩, ?_, ?_, ?_, ?_, ?_,
    ?_⟩
  · intro _
    exact mem_append_left _ (mem_append_left _ (service.accepted reaches.2.2.1))
  · intro _ none
    cases none.symm.trans serves.outgoing
  · intro _ other present
    cases present.symm.trans serves.outgoing
    rw [foldl_append, handle]
    exact ⟨rfl, bounded⟩
  · intro _
    rw [last, serves.request, serves.cached]
    rfl
  · intro _ request asked
    cases asked.symm.trans serves.request
    rcases reaches with ⟨_, _, _, nonzero, limited, within, _⟩
    rw [serves.size]
    exact ⟨nonzero, limited, within⟩
  · intro _ _ served
    cases served.symm.trans last
    exact passed

theorem InService.le_advance (reaches : record.Reaches offset length) {source next : OutgoingFile}
    {data : Bytes} (opened : record.openSource io = .ok source)
    (read : source.nextChunkBounded io length.toNat = .ok (some (offset, data), next)) :
    offset ≤ offset + UInt64.ofNat data.length := by
  rcases service.source reaches opened with ⟨_, _, bounded⟩
  rcases nextChunkBounded_some bounded read with ⟨here, _, _, after, _⟩
  have fits := next.offset.toNat_lt
  rw [UInt64.le_iff_toNat_le, here, UInt64.toNat_add, UInt64.toNat_ofNat']
  omega

theorem InService.sendChunk (sha256 : Bytes → Digest) (io : Io) (offset : UInt64)
    (length : UInt32) (now : ℕ) :
    let reply := record.sendChunk sha256 io offset length now
    reply.record.InService (log ++ (record.sourceEvents io offset length ++
      [.answered offset length (sends reply.actions)])) := by
  intro reply
  cases treats_sendChunk sha256 io record offset length now with
  | refuses unreached rests unserved =>
    rw [sourceEvents_of_unreached unreached, nil_append]
    refine service.spared rests.spares (fun _ _ => trivial) (fun _ => rfl) ?_
      (fun transferring => .inl (rests.starts transferring))
    refine lastServed_append fun event member => ?_
    rw [mem_singleton.mp member]
    exact served_answered unserved
  | repeats response unreached live request cached rests told =>
    have last : lastServed log = some ((offset, length), response) := by
      rw [service.cached live, request, cached]
      rfl
    rw [sourceEvents_of_unreached unreached, nil_append]
    refine service.spared rests.spares (fun _ _ => trivial) (fun _ => rfl) ?_
      (fun transferring => .inl (rests.starts transferring))
    rw [told, last]
    exact lastServed_concat (by simp [ServeEvent.served, isServed_of_lastServed last])
  | serves reaches =>
    have outcome := serveOutcome sha256 io record offset length now
    rw [← sendChunk_of_reaches reaches] at outcome
    cases outcome with
    | fails spares ended unserved =>
      have same : lastServed (log ++ (record.sourceEvents io offset length ++
          [.answered offset length (sends reply.actions)])) = lastServed log := by
        refine lastServed_append fun _ member => ?_
        rcases mem_append.mp member with source | answered
        · exact sourceEvents_unserved source
        · rw [mem_singleton.mp answered]
          exact served_answered unserved
      have isOver : isTerminal reply.record.state ≠ false := by simp [reply, ended]
      refine ⟨spares.direction.trans service.direction, ?_, ?_, (absurd · isOver),
        (absurd · isOver), (absurd · isOver), (absurd · isOver), ?_⟩
      · rw [← append_assoc]
        exact sequential_append.mpr ⟨service.sequential_source io offset length, trivial⟩
      · intro transferring
        rw [transferring] at isOver
        exact absurd rfl isOver
      · rw [same, spares.transferred]
        exact service.passed
    | concludes _ _ opened all serves transferred told =>
      rcases service.source reaches opened with ⟨_, handle, bounded⟩
      rw [told]
      refine service.of_serves reaches serves ?_ bounded ?_
      · rw [sourceEvents_of_opened reaches opened, if_pos all, append_nil]
        exact handle
      · rw [transferred, reaches.2.2.2.2.2.2.2]
        exact UInt64.le_refl _
    | advances source _ _ _ opened more read serves transferred told =>
      rcases service.source reaches opened with ⟨_, handle, bounded⟩
      rcases nextChunkBounded_some bounded read with ⟨_, _, taken, after, size, _⟩
      rw [told]
      refine service.of_serves reaches serves ?_ ?_ ?_
      · rw [sourceEvents_of_opened reaches opened, if_neg more, ← append_assoc,
          foldl_append, handle, after, ← extent_chunkReads read]
        exact handle_reads (source.chunkReads_contiguous io _)
      · rw [UInt64.le_iff_toNat_le] at bounded ⊢
        rw [after, size, taken]
        omega
      · rw [transferred]
        exact service.le_advance reaches opened read

theorem InService.quiet (rests : record.Rests later) : later.InService (log ++ []) :=
  service.spared rests.spares (fun _ _ => trivial) (fun _ => rfl)
    (lastServed_append fun _ member => nomatch member)
    fun transferring => .inl (rests.starts transferring)

theorem InService.reroute (peer : P) : (record.reroute peer).InService log :=
  ⟨service.direction, service.sequential, service.accepted, service.closed, service.opened,
    service.cached, service.valid, service.passed⟩

theorem InService.decision (io : Io) (peer : P) (id : UInt64) (answer : ManualDecision) (now : ℕ) :
    let reply := record.decision answer now
    reply.record.InService (log ++
      (RecordInput.message io peer (.manualFileDecision id answer)).events record reply) := by
  intro reply
  have decided : record.Spares reply.record ∧ (answer ≠ .accepted → record.Rests reply.record) :=
    spares_decision answer service.direction
  cases answer with
  | pending | declined => exact service.quiet (decided.2 (by decide))
  | accepted =>
    by_cases starts : record.state ≠ .transferring ∧ reply.record.state = .transferring
    · simp only [RecordInput.events, if_pos starts]
      refine service.spared decided.1 (fun _ _ => trivial) (fun _ => rfl)
        (lastServed_append fun _ member => ?_) fun _ => .inr (by simp)
      rw [mem_singleton.mp member]
      rfl
    · simp only [RecordInput.events, if_neg starts]
      refine service.quiet ⟨decided.1, fun transferring => ?_⟩
      by_contra idle
      exact starts ⟨idle, transferring⟩

theorem InService.handle (sha256 : Bytes → Digest) (io : Io) (peer : P) (event : ProtoEvent)
    (now : ℕ) :
    let reply := record.handle sha256 io event now
    reply.record.InService (log ++ (RecordInput.message io peer event).events record reply) := by
  unfold Record.handle
  split
  · exact service.decision io peer _ _ now
  · exact service.sendChunk sha256 io _ _ now
  · exact service.quiet (rests_writeChunk _ _ service.direction)
  · exact service.quiet (rests_completeReceiver _ service.direction)
  · exact service.quiet (rests_receiveResult _ _)
  · exact service.quiet rests_receiveCancel
  · rename_i notDecision notRequest _ _ _ _
    unfold RecordInput.events
    split
    · rename_i same
      cases same
      exact absurd rfl (notDecision _ _)
    · rename_i same
      cases same
      exact absurd rfl (notRequest _ _ _)
    · exact service.quiet (.refl record)

omit service in
theorem InService.step (service : record.InService log) (sha256 : Bytes → Digest)
    (input : RecordInput P × ℕ) :
    (serveStep sha256 record input).1.InService (log ++ (serveStep sha256 record input).2) := by
  rcases input with ⟨input, now⟩
  cases input with
  | message io peer event => exact (service.reroute peer).handle sha256 io peer event now
  | prepare io directory automatic =>
    have same : record.prepareReceiver io directory now automatic = ⟨record, [], []⟩ :=
      if_pos (.inl (by simp [service.direction]))
    simp only [serveStep, RecordInput.reply, same]
    exact service.quiet (.refl record)
  | overwrite io directory =>
    have same : record.overwrite io directory now = ⟨record, [], []⟩ :=
      if_pos (.inl (by simp [service.direction]))
    simp only [serveStep, RecordInput.reply, same]
    exact service.quiet (.refl record)
  | decline =>
    have same : record.decline now = ⟨record, [], []⟩ :=
      if_neg (by simp [service.direction])
    simp only [serveStep, RecordInput.reply, same]
    exact service.quiet (.refl record)
  | cancel => exact service.quiet rests_cancel
  | tick => exact service.quiet rests_tick
  | refresh route => exact service.quiet (rests_refresh route)

theorem InService.transferred_le (sha256 : Bytes → Digest) (io : Io) (offset : UInt64)
    (length : UInt32) (now : ℕ) :
    record.transferred ≤ (record.sendChunk sha256 io offset length now).record.transferred := by
  cases treats_sendChunk sha256 io record offset length now with
  | refuses _ rests | repeats _ _ _ _ _ rests =>
    exact rests.spares.transferred ▸ UInt64.le_refl _
  | serves reaches =>
    have outcome := serveOutcome sha256 io record offset length now
    rw [← sendChunk_of_reaches reaches] at outcome
    have here : offset = record.transferred := reaches.2.2.2.2.2.2.2
    cases outcome with
    | fails spares => exact spares.transferred ▸ UInt64.le_refl _
    | concludes _ _ _ _ _ transferred => exact transferred ▸ UInt64.le_refl _
    | advances _ _ _ _ opened _ read _ transferred =>
      rw [transferred, ← here]
      exact service.le_advance reaches opened read

omit service in
theorem sendChunk_of_cached (sending : record.direction = .sending)
    (transferring : record.state = .transferring) (nonzero : length ≠ 0)
    (limited : length.toNat ≤ maxManualFileChunkSize) (within : offset ≤ record.size)
    (request : record.cachedRequest = some (offset, length))
    (cached : record.cachedResponse = some response) :
    record.sendChunk sha256 io offset length now =
      ⟨{ record with lastActivity := now, retries := 0 }, [record.send response], []⟩ := by
  unfold sendChunk
  rw [if_neg (by simp [transferring, isTerminal]), if_neg (by simp [sending, transferring]),
    if_neg (by simp [nonzero, Nat.not_lt.mpr limited, UInt64.not_lt.mpr within])]
  rw [if_pos request, cached]
  rfl

theorem InService.sendChunk_repeated (transferring : record.state = .transferring)
    (last : lastServed log = some ((offset, length), response)) :
    sends (record.sendChunk sha256 io offset length now).actions = [response] ∧
      (record.sendChunk sha256 io offset length now).record.transferred = record.transferred ∧
      record.sourceEvents io offset length = [] := by
  have live : isTerminal record.state = false := by
    rw [transferring]
    rfl
  have memory := service.cached live
  rw [last, eq_comm, Option.bind_eq_some_iff] at memory
  rcases memory with ⟨_, asked, kept⟩
  rcases Option.map_eq_some_iff.mp kept with ⟨_, present, same⟩
  cases same
  rcases service.valid live _ asked with ⟨nonzero, limited, within⟩
  rw [sendChunk_of_cached service.direction transferring nonzero limited within asked present]
  refine ⟨rfl, rfl, sourceEvents_of_unreached fun reaches => ?_⟩
  exact reaches.2.2.2.2.2.2.1 ⟨asked, by rw [present]; rfl⟩

theorem InService.sendChunk_passed {last : UInt64 × UInt32}
    (served : lastServed log = some (last, response)) (other : (offset, length) ≠ last)
    (passed : offset < last.1 ∨ offset < record.transferred) :
    (∀ message ∈ sends (record.sendChunk sha256 io offset length now).actions,
        isServed message = false) ∧
      (record.sendChunk sha256 io offset length now).record.transferred = record.transferred ∧
      record.sourceEvents io offset length = [] := by
  cases treats_sendChunk sha256 io record offset length now with
  | refuses unreached rests unserved =>
    exact ⟨unserved, rests.spares.transferred, sourceEvents_of_unreached unreached⟩
  | repeats _ _ live request cached =>
    have memory := service.cached live
    rw [served, request, cached] at memory
    cases memory
    exact absurd rfl other
  | serves reaches =>
    have here : offset = record.transferred := reaches.2.2.2.2.2.2.2
    have position := service.passed last response served
    rcases passed with before | before
    · rw [here] at before
      exact absurd position (UInt64.not_le.mpr before)
    · rw [here] at before
      exact absurd before (UInt64.lt_irrefl _)

omit service

theorem inService_newOffering (peer : P) (fingerprint : String) (id : UInt64) (offer : FileOffer)
    (entry : ClipboardManifestEntry) (start : ℕ) :
    (newOffering peer fingerprint id offer entry start).InService [] where
  direction := rfl
  sequential := trivial
  accepted := nofun
  closed := fun _ _ => rfl
  opened := nofun
  cached := fun _ => rfl
  valid := nofun
  passed := nofun

end Record

section Runs

variable (sha256 : Bytes → Digest) (peer : P) (fingerprint : String) (id : UInt64)
  (offer : FileOffer) (entry : ClipboardManifestEntry) (start : ℕ)

theorem inService_outcome (inputs : List (RecordInput P × ℕ)) :
    let before := outcome (serveStep sha256)
      (newOffering peer fingerprint id offer entry start) inputs
    before.1.InService before.2 :=
  outcome_accounts InService (fun _ _ input service => service.step sha256 input)
    (inService_newOffering peer fingerprint id offer entry start) inputs

/-- Whatever happens to a transfer since its offer, its source is opened once and only after the
transfer was accepted, and it is read in order, each byte at most once. At any time a request
does not take the position back; the request that was served last, for the same offset and length,
is answered with the same response as long as the record transfers; a request for an older offset
gets no data. Neither of the two touches the source. -/
theorem serves_each_offset_once (inputs : List (RecordInput P × ℕ)) :
    let before := outcome (serveStep sha256)
      (Record.newOffering peer fingerprint id offer entry start) inputs
    Sequential false none before.2 ∧
      (readsOf before.2).Pairwise (fun earlier later => earlier.1 + earlier.2.length ≤ later.1) ∧
      ∀ io offset length now,
        let reply := before.1.sendChunk sha256 io offset length now
        before.1.transferred ≤ reply.record.transferred ∧
        (∀ response, before.1.state = .transferring →
          lastServed before.2 = some ((offset, length), response) →
          sends reply.actions = [response] ∧ reply.record.transferred = before.1.transferred ∧
            before.1.sourceEvents io offset length = []) ∧
        ∀ last response, lastServed before.2 = some (last, response) → (offset, length) ≠ last →
          offset < last.1 ∨ offset < before.1.transferred →
          (∀ message ∈ sends reply.actions, isServed message = false) ∧
            reply.record.transferred = before.1.transferred ∧
            before.1.sourceEvents io offset length = [] := by
  have service := inService_outcome sha256 peer fingerprint id offer entry start inputs
  generalize outcome (serveStep sha256)
    (Record.newOffering peer fingerprint id offer entry start) inputs = before at service
  refine ⟨service.sequential, (contiguous_of_sequential service.sequential).pairwise.1, ?_⟩
  intro io offset length now
  exact ⟨service.transferred_le sha256 io offset length now,
    fun _ transferring last => service.sendChunk_repeated transferring last,
    fun _ _ served other passed => service.sendChunk_passed served other passed⟩

end Runs

def eightBytes : Io := Io.obliging 8 [1, 2, 3, 4]

def eightEntry : ClipboardManifestEntry := ⟨1, "abc", .file, 8⟩

def eightOffer : FileOffer where
  transferId := 7
  entries := [eightEntry]
  sources := .singleton 1 (.empty, ⟨8, some 0, 1, 1⟩)

def servingEight (requests : List (UInt64 × UInt32)) : Record Unit × List ServeEvent :=
  outcome (serveStep fun _ => .replicate 32 0)
    (Record.newOffering () "peer" 7 eightOffer eightEntry 0)
    ((RecordInput.message eightBytes () (.manualFileDecision 7 .accepted) ::
        requests.map fun request =>
          .message eightBytes () (.manualFileRequest 7 request.1 request.2)).map fun input =>
      (input, 1))

/-- The request that was served last is not answered any more after an invalid request has ended the
record, and for the same offset with another length there is no response either. -/
theorem no_response_to_repeated :
    (∃ response,
      lastServed (servingEight [(0, 4), (0, 0)]).2 = some ((0, 4), response) ∧
        sends ((servingEight [(0, 4), (0, 0)]).1.sendChunk (fun _ => .replicate 32 0) eightBytes 0 4
          2).actions = []) ∧
    ∃ response,
      lastServed (servingEight [(0, 4)]).2 = some ((0, 4), response) ∧
        sends ((servingEight [(0, 4)]).1.sendChunk (fun _ => .replicate 32 0) eightBytes 0 8
          2).actions = [] :=
  ⟨⟨.manualFileChunk 7 0 [1, 2, 3, 4], by decide +kernel⟩,
    ⟨.manualFileChunk 7 0 [1, 2, 3, 4], by decide +kernel⟩⟩

end Syntra.Manual
