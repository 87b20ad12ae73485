import Syntra.PullTransfer.Delivery

/-!
# The channel alone does not fail a transfer

In an undisturbed run both parties keep to the transfer whatever the channel loses, repeats or
reorders. The two positions differ by nothing or by the last chunk served, every chunk and every
request lies on a chunk boundary, and the digest travels only when the receiver has everything.
-/

namespace PullTransfer

open Multiset List Receiver ToSender

variable {α D : Type} {protocol : Protocol α D}

/-- A position between two chunks. -/
def Protocol.Boundary (protocol : Protocol α D) (offset : ℕ) : Prop :=
  offset ≤ protocol.size ∧ (protocol.limit ∣ offset ∨ offset = protocol.size)

namespace Protocol.Boundary

variable {offset position : ℕ}

theorem zero : protocol.Boundary 0 :=
  ⟨Nat.zero_le _, .inl (Nat.dvd_zero _)⟩

theorem next (boundary : protocol.Boundary offset) (more : offset < protocol.size) :
    protocol.Boundary (offset + min protocol.limit (protocol.size - offset)) := by
  refine ⟨by omega, ?_⟩
  by_cases full : protocol.limit ≤ protocol.size - offset
  · left
    rw [Nat.min_eq_left full]
    have aligned : protocol.limit ∣ offset := by
      rcases boundary.2 with aligned | _
      · exact aligned
      · omega
    exact Nat.dvd_add aligned (Nat.dvd_refl _)
  · right
    omega

theorem next_le (boundary : protocol.Boundary offset) (other : protocol.Boundary position)
    (before : offset < position) :
    offset + min protocol.limit (protocol.size - offset) ≤ position := by
  rcases boundary.2 with ⟨index, rfl⟩ | last
  · rcases other.2 with ⟨later, rfl⟩ | _
    · have step : index + 1 ≤ later := by
        have scaled := Nat.lt_of_mul_lt_mul_left before
        omega
      have multiple := Nat.mul_le_mul_left protocol.limit step
      rw [Nat.mul_add, Nat.mul_one] at multiple
      omega
    · omega
  · have bounded := other.1
    omega

end Protocol.Boundary

def Sender.Started (sender : Sender α D) : Prop :=
  sender.phase = .transferring ∨ sender.phase = .completed

def Receiver.Started (receiver : Receiver α D) : Prop :=
  receiver.phase = .transferring ∨ receiver.phase = .completed

/-- One of the chunks that the file is cut into. -/
structure Piece (protocol : Protocol α D) (yielded : List α) (offset : ℕ) (data : List α) :
    Prop where
  boundary : protocol.Boundary offset
  more : offset < protocol.size
  full : data.length = min protocol.limit (protocol.size - offset)
  slice : data <+: yielded.drop offset

/-- The messages that the receiver can be sent, given where the two parties are. -/
def ToReceiver.Expected (protocol : Protocol α D) (sender : Sender α D)
    (receiver : Option (Receiver α D)) (yielded : List α) : ToReceiver α D → Prop
  | .offer => True
  | .accepted => sender.Started ∧ ∃ record, receiver = some record ∧ record.Started
  | .chunk offset data => sender.Started ∧ Piece protocol yielded offset data ∧
    ∃ record, receiver = some record ∧ record.Started ∧ offset ≤ record.position
  | .complete digest => sender.Started ∧ digest = protocol.digest yielded ∧
    yielded.length = protocol.size ∧
    ∃ record, receiver = some record ∧ record.Started ∧ record.position = protocol.size
  | .result success => success = true ∧
    ∃ record, receiver = some record ∧ record.phase = .completed
  | .declined | .cancel => False

def ToSender.Expected (protocol : Protocol α D) (sender : Sender α D)
    (receiver : Option (Receiver α D)) : ToSender → Prop
  | .pending => receiver.isSome = true
  | .accepted => ∃ record, receiver = some record ∧ record.Started
  | .request offset length => length = protocol.limit ∧ sender.Started ∧
    protocol.Boundary offset ∧
    ∃ record, receiver = some record ∧ record.Started ∧ offset ≤ record.position
  | .result success => success = true ∧
    ∃ record, receiver = some record ∧ record.phase = .completed
  | .declined | .cancel => False

/-- How far a receiver may have come since an earlier moment. -/
structure Receiver.Reaches (protocol : Protocol α D) (receiver later : Receiver α D) : Prop where
  started : receiver.Started → later.Started
  position : receiver.position ≤ later.position
  bounded : later.position ≤ protocol.size
  completed : receiver.phase = .completed → later.phase = .completed

section Advance

variable {sender later : Sender α D} {receiver next : Option (Receiver α D)} {yielded more : List α}

theorem ToReceiver.Expected.advance {message : ToReceiver α D}
    (expected : message.Expected protocol sender receiver yielded)
    (started : sender.Started → later.Started) (reaches : ∀ record, receiver = some record →
      ∃ after, next = some after ∧ record.Reaches protocol after)
    (fits : (yielded ++ more).length ≤ protocol.size) :
    message.Expected protocol later next (yielded ++ more) := by
  cases message with
  | offer => trivial
  | accepted =>
    rcases expected with ⟨serving, record, present, going⟩
    rcases reaches record present with ⟨after, same, far⟩
    exact ⟨started serving, after, same, far.started going⟩
  | chunk offset data =>
    rcases expected with ⟨serving, piece, record, present, going, behind⟩
    rcases reaches record present with ⟨after, same, far⟩
    have slice : Slice (yielded ++ more) (.chunk offset data : ToReceiver α D) :=
      Slice.append more piece.slice
    exact ⟨started serving, { piece with slice := slice }, after, same, far.started going,
      behind.trans far.position⟩
  | complete =>
    rcases expected with ⟨serving, same, whole, record, present, going, _⟩
    rcases reaches record present with ⟨after, found, far⟩
    have nothing : more = [] := by
      apply eq_nil_of_length_eq_zero
      rw [length_append] at fits
      omega
    have position := far.position
    have bounded := far.bounded
    refine ⟨started serving, ?_, ?_, after, found, far.started going, by omega⟩
    · rw [nothing, append_nil]
      exact same
    · rw [nothing, append_nil]
      exact whole
  | result =>
    rcases expected with ⟨good, record, present, done⟩
    rcases reaches record present with ⟨after, same, far⟩
    exact ⟨good, after, same, far.completed done⟩
  | declined | cancel => exact expected

theorem ToSender.Expected.advance {message : ToSender}
    (expected : message.Expected protocol sender receiver)
    (started : sender.Started → later.Started) (reaches : ∀ record, receiver = some record →
      ∃ after, next = some after ∧ record.Reaches protocol after) :
    message.Expected protocol later next := by
  cases message with
  | pending =>
    rcases Option.isSome_iff_exists.mp expected with ⟨record, present⟩
    rcases reaches record present with ⟨after, same, far⟩
    exact same ▸ rfl
  | accepted =>
    rcases expected with ⟨record, present, going⟩
    rcases reaches record present with ⟨after, same, far⟩
    exact ⟨after, same, far.started going⟩
  | request =>
    rcases expected with ⟨full, serving, boundary, record, present, going, behind⟩
    rcases reaches record present with ⟨after, same, far⟩
    exact ⟨full, started serving, boundary, after, same, far.started going,
      behind.trans far.position⟩
  | result =>
    rcases expected with ⟨good, record, present, done⟩
    rcases reaches record present with ⟨after, same, far⟩
    exact ⟨good, after, same, far.completed done⟩
  | declined | cancel => exact expected

end Advance

def Lag (protocol : Protocol α D) (sender : Sender α D) (receiver : Receiver α D) : Prop :=
  sender.position = receiver.position ∨
    ∃ data, sender.cache = some (receiver.position, protocol.limit,
      .chunk receiver.position data) ∧ sender.position = receiver.position + data.length

theorem Lag.le {sender : Sender α D} {receiver : Receiver α D}
    (lag : Lag protocol sender receiver) :
    receiver.position ≤ sender.position := by
  rcases lag with _ | ⟨_, _, _⟩
  · omega
  · omega

/-- A sender before it has heard of an acceptance. -/
structure Sender.Waiting (receiver : Option (Receiver α D)) (sender : Sender α D) : Prop where
  phase : sender.phase = .offered ∨ sender.phase = .awaiting
  position : sender.position = 0
  cache : sender.cache = none
  digested : sender.digested = false
  receiver : ∀ record, receiver = some record → record.phase ≠ .completed ∧ record.position = 0

/-- The sender is where the receiver asks, or one chunk ahead. -/
structure Sender.Serving (protocol : Protocol α D) (receiver : Option (Receiver α D))
    (yielded : List α) (sender : Sender α D) : Prop where
  phase : sender.phase = .transferring
  boundary : protocol.Boundary sender.position
  cached : ∀ offset length answer, sender.cache = some (offset, length, answer) →
    answer.Expected protocol sender receiver yielded
  digested : sender.digested = true → sender.position = protocol.size
  receiver : ∃ record, receiver = some record ∧ record.Started ∧ Lag protocol sender record

/-- Both parties have completed. -/
structure Sender.Satisfied (protocol : Protocol α D) (receiver : Option (Receiver α D))
    (sender : Sender α D) : Prop where
  phase : sender.phase = .completed
  position : sender.position = protocol.size
  receiver : ∃ record, receiver = some record ∧ record.phase = .completed

def Sender.Keeping (protocol : Protocol α D) (receiver : Option (Receiver α D))
    (yielded : List α) (sender : Sender α D) : Prop :=
  sender.Waiting receiver ∨ sender.Serving protocol receiver yielded ∨
    sender.Satisfied protocol receiver

/-- A receiver that keeps to the transfer. It never gets the digest early. -/
structure Receiver.Keeping (protocol : Protocol α D) (receiver : Receiver α D) : Prop where
  phase : receiver.phase = .awaiting ∨ receiver.Started
  boundary : protocol.Boundary receiver.position
  early : receiver.phase ≠ .completed → receiver.early = none
  completed : receiver.phase = .completed → receiver.position = protocol.size

/-- Where the parties of an undisturbed transfer can be, and what is in flight then. -/
structure Agreement (protocol : Protocol α D) (session : Session α D) (sender : Sender α D) :
    Prop where
  present : session.sender = some sender
  keeping : sender.Keeping protocol session.receiver session.yielded
  retry : ∀ message, sender.retry = some message →
    message.Expected protocol sender session.receiver session.yielded
  receiverKeeping : ∀ record, session.receiver = some record → record.Keeping protocol
  receiverRetry : ∀ record, session.receiver = some record → ∀ message,
    record.retry = some message → message.Expected protocol sender session.receiver
  toReceiver : ∀ message ∈ session.toReceiver,
    message.Expected protocol sender session.receiver session.yielded
  toSender : ∀ message ∈ session.toSender, message.Expected protocol sender session.receiver

/-- The parties agree whenever the transfer was issued. -/
structure Quiet (protocol : Protocol α D) (session : Session α D) : Prop where
  blank : session.issued = false → session.sender = none ∧ session.receiver = none ∧
    session.toReceiver = 0 ∧ session.toSender = 0
  running : session.issued = true → ∃ sender, Agreement protocol session sender

theorem Quiet.initial : Quiet protocol .initial where
  blank _ := ⟨rfl, rfl, rfl, rfl⟩
  running issued := by cases issued

variable {session : Session α D} {sender : Sender α D}

theorem Receiver.Keeping.reaches {receiver : Receiver α D} (keeping : receiver.Keeping protocol) :
    receiver.Reaches protocol receiver :=
  ⟨id, le_rfl, keeping.boundary.1, id⟩

theorem Receiver.Keeping.alive {receiver : Receiver α D} (keeping : receiver.Keeping protocol) :
    receiver.phase ≠ .ended := by
  intro ended
  have phase := keeping.phase
  simp [Started, ended] at phase

theorem Agreement.sender_alive (agreement : Agreement protocol session sender) :
    sender.phase ≠ .ended := by
  intro ended
  rcases agreement.keeping with waiting | serving | satisfied
  · have phase := waiting.phase
    simp [ended] at phase
  · have phase := serving.phase
    simp [ended] at phase
  · have phase := satisfied.phase
    simp [ended] at phase

theorem Agreement.lag {receiver : Receiver α D} (agreement : Agreement protocol session sender)
    (present : session.receiver = some receiver) : Lag protocol sender receiver := by
  rcases agreement.keeping with waiting | serving | satisfied
  · have start := (waiting.receiver receiver present).2
    exact .inl (waiting.position.trans start.symm)
  · rcases serving.receiver with ⟨record, found, _, lag⟩
    rw [present] at found
    cases found
    exact lag
  · rcases satisfied.receiver with ⟨_, found, completed⟩
    rw [present] at found
    cases found
    have all := (agreement.receiverKeeping receiver present).completed completed
    exact .inl (satisfied.position.trans all.symm)

theorem Agreement.senderChanges {next : Sender α D} {said : List (ToReceiver α D)}
    {data : List α} {sent retried : ℕ} (before : Agreement protocol session sender)
    (fits : (session.yielded ++ data).length ≤ protocol.size)
    (started : sender.Started → next.Started)
    (keeping : next.Keeping protocol session.receiver (session.yielded ++ data))
    (retry : ∀ message, next.retry = some message →
      message.Expected protocol next session.receiver (session.yielded ++ data))
    (answers : ∀ message ∈ said,
      message.Expected protocol next session.receiver (session.yielded ++ data)) :
    Agreement protocol { session with
      sender := some next, toReceiver := session.toReceiver + ofList said
      yielded := session.yielded ++ data, sent, retried } next := by
  have reaches : ∀ record, session.receiver = some record →
      ∃ after, session.receiver = some after ∧ record.Reaches protocol after :=
    fun record present => ⟨record, present, (before.receiverKeeping record present).reaches⟩
  refine ⟨rfl, keeping, retry, before.receiverKeeping, ?_, ?_, ?_⟩
  · intro record present message due
    exact (before.receiverRetry record present message due).advance started reaches
  · intro message member
    rcases mem_add.mp member with earlier | answered
    · exact (before.toReceiver message earlier).advance started reaches fits
    · exact answers message answered
  · intro message member
    exact (before.toSender message member).advance started reaches

variable {receiver : Option (Receiver α D)} {yielded : List α}

theorem Sender.Keeping.serving (keeping : sender.Keeping protocol receiver yielded)
    (transferring : sender.phase = .transferring) :
    sender.Serving protocol receiver yielded := by
  rcases keeping with waiting | serving | satisfied
  · have phase := waiting.phase
    simp [transferring] at phase
  · exact serving
  · have phase := satisfied.phase
    simp [transferring] at phase

theorem Sender.Keeping.waiting (keeping : sender.Keeping protocol receiver yielded)
    (phase : sender.phase = .offered ∨ sender.phase = .awaiting) : sender.Waiting receiver := by
  rcases keeping with waiting | serving | satisfied
  · exact waiting
  · simp [serving.phase] at phase
  · simp [satisfied.phase] at phase

theorem Agreement.sameRecord {record other : Receiver α D} {receiver : Option (Receiver α D)}
    (present : receiver = some record) (found : receiver = some other) : other = record := by
  rw [present] at found
  exact (Option.some.inj found).symm

variable (before : Agreement protocol session sender)
include before

variable {length sent retried : ℕ} {data : List α} {answer : List ToSender}

theorem Agreement.request_position {offset : ℕ} (transferring : sender.phase = .transferring)
    (expected : (request offset length).Expected protocol sender session.receiver) :
    length = protocol.limit ∧ protocol.Boundary offset ∧ offset ≤ sender.position ∧
      ∃ record, session.receiver = some record ∧ record.Started ∧ Lag protocol sender record ∧
        offset ≤ record.position := by
  rcases expected with ⟨full, serving, boundary, _, present, _, behind⟩
  rcases (before.keeping.serving transferring).receiver with ⟨other, found, going', lag⟩
  have same := Agreement.sameRecord present found
  subst same
  exact ⟨full, boundary, behind.trans lag.le, other, found, going', lag, behind⟩

variable (delivered : Delivery protocol session)
include delivered

theorem Agreement.serves (transferring : sender.phase = .transferring)
    (more : sender.position < protocol.size)
    (full : data.length = min length (protocol.size - sender.position))
    (expected : (request sender.position length).Expected protocol sender session.receiver) :
    Agreement protocol { session with
      sender := some (sender.served length data)
      toReceiver := session.toReceiver + ofList [.chunk sender.position data]
      yielded := session.yielded ++ data, sent, retried } (sender.served length data) := by
  have serving := before.keeping.serving transferring
  have reading := (delivered.sender sender before.present).reading (.inr (.inr transferring))
  rcases before.request_position transferring expected with
    ⟨rfl, boundary, _, record, present, going, lag, behind⟩
  have level : sender.position = record.position := le_antisymm behind lag.le
  have unsent : (session.yielded ++ data).drop sender.position = data := by
    rw [reading.2, drop_left]
  have piece : Piece protocol (session.yielded ++ data) sender.position data :=
    ⟨boundary, more, full, [], by rw [unsent, append_nil]⟩
  have answer : (ToReceiver.chunk sender.position data).Expected protocol
      (sender.served protocol.limit data) session.receiver (session.yielded ++ data) :=
    ⟨.inl transferring, piece, record, present, going, behind⟩
  apply before.senderChanges
  · rw [length_append]
    omega
  · intro _
    exact .inl transferring
  · refine .inr (.inl ⟨transferring, ?_, ?_, ?_, record, present, going, .inr ⟨data, ?_, ?_⟩⟩)
    · have next := boundary.next more
      rw [← full] at next
      exact next
    · intro _ _ _ cached
      cases cached
      exact answer
    · intro digested
      have all := serving.digested digested
      omega
    · rw [← level]
      rfl
    · rw [← level]
      rfl
  · intro _ due
    cases due
  · exact forall_mem_singleton.mpr answer

theorem Agreement.concludes (transferring : sender.phase = .transferring)
    (all : sender.position = protocol.size)
    (expected : (request sender.position length).Expected protocol sender session.receiver) :
    Agreement protocol { session with
      sender := some (sender.concluded protocol length)
      toReceiver := session.toReceiver + ofList [.complete (protocol.digest sender.read)]
      yielded := session.yielded ++ [], sent, retried } (sender.concluded protocol length) := by
  have reading := (delivered.sender sender before.present).reading (.inr (.inr transferring))
  rcases before.request_position transferring expected with
    ⟨rfl, boundary, _, record, present, going, lag, behind⟩
  have level : sender.position = record.position := le_antisymm behind lag.le
  have answer : (ToReceiver.complete (protocol.digest sender.read)).Expected protocol
      (sender.concluded protocol protocol.limit) session.receiver (session.yielded ++ []) := by
    refine ⟨.inl transferring, ?_, ?_, record, present, going, ?_⟩
    · rw [reading.1, append_nil]
    · rw [append_nil]
      omega
    · omega
  apply before.senderChanges
  · simpa using delivered.bounded
  · intro _
    exact .inl transferring
  · refine .inr (.inl ⟨transferring, boundary, ?_, fun _ => all, record, present, going,
      .inl level⟩)
    intro _ _ _ cached
    cases cached
    exact answer
  · intro _ due
    cases due
    exact answer
  · exact forall_mem_singleton.mpr answer

omit delivered in
theorem Agreement.not_stops {message : ToSender}
    (expected : message.Expected protocol sender session.receiver) :
    ¬(message = .declined ∨ message = .cancel ∨ message = .result false ∨
      sender.phase = .transferring ∧ BadRequest protocol sender message ∨ False) := by
  intro cause
  rcases cause with rfl | rfl | rfl | ⟨transferring, _, _, rfl, _⟩ | impossible
  · exact expected
  · exact expected
  · exact absurd expected.1 (by simp)
  · rcases before.request_position transferring expected with ⟨rfl, boundary, _, _⟩
    have bounded := boundary.1
    have positive := protocol.limit_pos
    omega
  · exact impossible

theorem Agreement.senderReacts {next : Sender α D} {message : ToSender}
    {answer : List (ToReceiver α D)}
    (expected : message.Expected protocol sender session.receiver)
    (reacts : SenderReacts protocol False sender message next answer data) :
    Agreement protocol { session with
      sender := some next, toReceiver := session.toReceiver + ofList answer
      yielded := session.yielded ++ data, sent, retried } next := by
  have fits : (session.yielded ++ []).length ≤ protocol.size := by
    simpa using delivered.bounded
  have keeping := before.keeping
  have retry := before.retry
  cases reacts with
  | ignore =>
    apply before.senderChanges fits id
    · simpa using keeping
    · simpa using retry
    · simp
  | await offered =>
    have waiting := keeping.waiting (.inl offered)
    apply before.senderChanges fits
    · intro started
      simp [Sender.Started, offered] at started
    · exact .inl { waiting with phase := .inr rfl }
    · simp
    · simp
  | start phase =>
    have waiting := keeping.waiting phase
    rcases expected with ⟨record, present, going⟩
    have level := (waiting.receiver record present).2
    apply before.senderChanges fits
    · intro _
      exact .inl rfl
    · refine .inr (.inl ⟨rfl, ?_, ?_, ?_, record, present, going, .inl ?_⟩)
      · change protocol.Boundary sender.position
        rw [waiting.position]
        exact .zero
      · simp [waiting.cache]
      · simp [waiting.digested]
      · rw [level]
        exact waiting.position
    · simp
    · exact forall_mem_singleton.mpr ⟨.inl rfl, record, present, going⟩
  | echo transferring =>
    rcases expected with ⟨record, present, going⟩
    apply before.senderChanges fits id
    · simpa using keeping
    · simpa using retry
    · exact forall_mem_singleton.mpr ⟨.inl transferring, record, present, going⟩
  | resend transferring cached =>
    apply before.senderChanges fits id
    · simpa using keeping
    · simpa using retry
    · intro message member
      rw [List.mem_singleton.mp member, List.append_nil]
      exact (keeping.serving transferring).cached _ _ _ cached
  | serve transferring more _ full =>
    exact before.serves delivered transferring more full expected
  | conclude transferring all =>
    exact before.concludes delivered transferring all expected
  | refuse waiting =>
    rcases expected with ⟨_, started, _⟩
    rcases waiting with offered | awaiting
    · simp [Sender.Started, offered] at started
    · simp [Sender.Started, awaiting] at started
  | finish _ all =>
    rcases expected with ⟨_, record, present, done⟩
    apply before.senderChanges fits
    · intro _
      exact .inr rfl
    · exact .inr (.inr ⟨rfl, all, record, present, done⟩)
    · intro _ due
      cases due
      exact ⟨rfl, record, present, done⟩
    · simp
  | stop _ cause => exact absurd cause (before.not_stops expected)

theorem Agreement.senderActs {next : Option (Sender α D)} {said : List (ToReceiver α D)}
    {retries : ℕ} (acts : SenderActs False sender next said retries) :
    Agreement protocol { session with
      sender := next, toReceiver := session.toReceiver + ofList said, sent, retried }
      sender := by
  cases acts with
  | @retry message due =>
    have changed := @Agreement.senderChanges α D protocol session sender sender [message] [] sent
      retried before (by simpa using delivered.bounded) id (by simpa using before.keeping)
      (by simpa using before.retry) (by simpa using before.retry message due)
    simpa using changed
  | stop allowed | forget allowed => exact allowed.elim

variable {receiver : Receiver α D} {next : Receiver α D}

theorem Agreement.receiverChanges {said : List ToSender} {files : List (List α)} {retried : ℕ}
    (reaches : ∀ record, session.receiver = some record → record.Reaches protocol next)
    (keeping : next.Keeping protocol)
    (waiting : sender.Waiting session.receiver → next.phase ≠ .completed ∧ next.position = 0)
    (lag : ∀ record, session.receiver = some record → sender.phase = .transferring →
      Lag protocol sender record → Lag protocol sender next)
    (retry : ∀ message, next.retry = some message → message.Expected protocol sender (some next))
    (answers : ∀ message ∈ said, message.Expected protocol sender (some next)) :
    Agreement protocol { session with
      receiver := some next, toSender := session.toSender + ofList said
      published := session.published ++ files, retried } sender := by
  have advances : ∀ record, session.receiver = some record →
      ∃ after, some next = some after ∧ record.Reaches protocol after :=
    fun record present => ⟨next, rfl, reaches record present⟩
  have bounded : (session.yielded ++ []).length ≤ protocol.size := by
    simpa using delivered.bounded
  refine ⟨before.present, ?_, ?_, ?_, ?_, ?_, ?_⟩
  · rcases before.keeping with idle | serving | satisfied
    · refine .inl { idle with receiver := ?_ }
      intro record same
      cases same
      exact waiting idle
    · rcases serving.receiver with ⟨record, present, going, behind⟩
      refine .inr (.inl { serving with cached := ?_, receiver := ?_ })
      · intro offset length answer cached
        simpa using (serving.cached offset length answer cached).advance id advances bounded
      · exact ⟨next, rfl, (reaches record present).started going,
          lag record present serving.phase behind⟩
    · rcases satisfied.receiver with ⟨record, present, done⟩
      exact .inr (.inr { satisfied with
        receiver := ⟨next, rfl, (reaches record present).completed done⟩ })
  · intro message due
    simpa using (before.retry message due).advance id advances bounded
  · intro record same
    cases same
    exact keeping
  · intro _ same
    cases same
    exact retry
  · intro message member
    simpa using (before.toReceiver message member).advance id advances bounded
  · intro message member
    rcases mem_add.mp member with earlier | answered
    · exact (before.toSender message earlier).advance id advances
    · exact answers message answered

theorem Agreement.receiverSays {said : List ToSender} {retried : ℕ}
    (present : session.receiver = some receiver) (phase : next.phase = receiver.phase)
    (position : next.position = receiver.position) (early : next.early = receiver.early)
    (retry : ∀ message, next.retry = some message →
      message.Expected protocol sender (some receiver))
    (answers : ∀ message ∈ said, message.Expected protocol sender (some receiver)) :
    Agreement protocol { session with
      receiver := some next, toSender := session.toSender + ofList said
      published := session.published ++ [], retried } sender := by
  have keeping := before.receiverKeeping receiver present
  have started : receiver.Started → next.Started := by
    simp only [Receiver.Started, phase]
    exact id
  have reaches : receiver.Reaches protocol next :=
    ⟨started, position.ge, position ▸ keeping.boundary.1, fun done => phase ▸ done⟩
  have advances : ∀ record, some receiver = some record →
      ∃ after, some next = some after ∧ record.Reaches protocol after := by
    intro record same
    cases same
    exact ⟨next, rfl, reaches⟩
  apply before.receiverChanges delivered
  · intro record found
    rw [Agreement.sameRecord present found]
    exact reaches
  · refine ⟨?_, ?_, ?_, ?_⟩
    · rcases keeping.phase with awaiting | going
      · exact .inl (phase ▸ awaiting)
      · exact .inr (started going)
    · rw [position]
      exact keeping.boundary
    · rw [phase, early]
      exact keeping.early
    · rw [phase, position]
      exact keeping.completed
  · intro waiting
    rw [phase, position]
    exact waiting.receiver receiver present
  · intro _ found _ lag
    rw [Agreement.sameRecord present found] at lag
    unfold Lag
    rw [position]
    exact lag
  · intro message due
    exact (retry message due).advance id advances
  · intro message member
    exact (answers message member).advance id advances

theorem Agreement.level_after_piece (transferring : sender.phase = .transferring)
    (piece : Piece protocol session.yielded receiver.position data)
    (lag : Lag protocol sender receiver) : sender.position = receiver.position + data.length := by
  have reading := (delivered.sender sender before.present).reading (.inr (.inr transferring))
  have within := piece.slice.length_le
  rw [length_drop] at within
  have full := piece.full
  rcases lag with _ | ⟨_, cached, _⟩
  · omega
  · have expected := (before.keeping.serving transferring).cached _ _ _ cached
    have other := expected.2.1.full
    omega

theorem Agreement.writes (present : session.receiver = some receiver)
    (transferring : receiver.phase = .transferring)
    (fits : receiver.position + data.length ≤ protocol.size)
    (expected : (ToReceiver.chunk receiver.position data).Expected protocol sender
      session.receiver session.yielded) :
    Agreement protocol { session with
      receiver := some (receiver.wrote protocol.limit data)
      toSender := session.toSender +
        ofList [.request (receiver.position + data.length) protocol.limit]
      published := session.published ++ [] } sender := by
  have keeping := before.receiverKeeping receiver present
  rcases expected with ⟨started, piece, _⟩
  have boundary := piece.boundary.next piece.more
  rw [← piece.full] at boundary
  have pull : (request (receiver.position + data.length) protocol.limit).Expected
      protocol sender (some (receiver.wrote protocol.limit data)) :=
    ⟨rfl, started, boundary, _, rfl, .inl transferring, le_rfl⟩
  apply before.receiverChanges delivered
  · intro record found
    rw [Agreement.sameRecord present found]
    refine ⟨fun _ => .inl transferring, Nat.le_add_right _ _, fits, fun done => ?_⟩
    simp [transferring] at done
  · refine ⟨.inr (.inl transferring), boundary, fun _ => keeping.early (by simp [transferring]),
      fun done => ?_⟩
    simp [wrote, transferring] at done
  · intro waiting
    rcases waiting.phase with offered | awaiting
    · simp [Sender.Started, offered] at started
    · simp [Sender.Started, awaiting] at started
  · intro _ found serving lag
    rw [Agreement.sameRecord present found] at lag
    exact .inl (before.level_after_piece delivered serving piece lag)
  · intro _ due
    cases due
    exact pull
  · exact forall_mem_singleton.mpr pull

theorem Agreement.finishes {data : List (List α)} (present : session.receiver = some receiver)
    (all : receiver.position = protocol.size) (started : sender.Started) :
    Agreement protocol { session with
      receiver := some receiver.completed
      toSender := session.toSender + ofList [.result true]
      published := session.published ++ data } sender := by
  have keeping := before.receiverKeeping receiver present
  apply before.receiverChanges delivered
  · intro record found
    rw [Agreement.sameRecord present found]
    exact ⟨fun _ => .inr rfl, le_rfl, keeping.boundary.1, fun _ => rfl⟩
  · exact ⟨.inr (.inr rfl), keeping.boundary, fun live => absurd rfl live, fun _ => all⟩
  · intro waiting
    rcases waiting.phase with offered | awaiting
    · simp [Sender.Started, offered] at started
    · simp [Sender.Started, awaiting] at started
  · intro _ found _ lag
    rw [Agreement.sameRecord present found] at lag
    exact lag
  · intro _ due
    cases due
    exact ⟨rfl, _, rfl, rfl⟩
  · exact forall_mem_singleton.mpr ⟨rfl, _, rfl, rfl⟩

omit delivered in
theorem Agreement.responds {answer : ToSender} (present : session.receiver = some receiver)
    (responds : receiver.Responds answer) : answer.Expected protocol sender (some receiver) := by
  have phase := (before.receiverKeeping receiver present).phase
  unfold Receiver.Responds at responds
  split at responds
  · rw [responds]
    exact rfl
  · rename_i transferring
    rw [responds]
    exact ⟨receiver, rfl, .inl transferring⟩
  · rename_i done
    rw [responds]
    exact ⟨rfl, receiver, rfl, done⟩
  · rename_i offered
    simp [Receiver.Started, offered] at phase
  · rename_i ended
    simp [Receiver.Started, ended] at phase

omit delivered in
theorem Agreement.pulls (present : session.receiver = some receiver) (started : sender.Started)
    (transferring : receiver.phase = .transferring) :
    (request receiver.position protocol.limit).Expected protocol sender (some receiver) :=
  ⟨rfl, started, (before.receiverKeeping receiver present).boundary, receiver, rfl,
    .inl transferring, le_rfl⟩

variable {message : ToReceiver α D}

theorem Agreement.receiver_not_stops (present : session.receiver = some receiver)
    (expected : message.Expected protocol sender session.receiver session.yielded) :
    ¬(message = .cancel ∨ message = .result false ∨
      receiver.phase = .transferring ∧
        (BadChunk protocol receiver message ∨ BadDigest protocol receiver message) ∨ False) := by
  have keeping := before.receiverKeeping receiver present
  intro cause
  rcases cause with rfl | rfl | ⟨transferring, bad | bad⟩ | impossible
  · exact expected
  · exact absurd expected.1 (by simp)
  · rcases bad with ⟨_, _, rfl, bad⟩
    rcases expected with ⟨_, piece, _⟩
    have early := keeping.early (by simp [transferring])
    have full := piece.full
    have more := piece.more
    have positive := protocol.limit_pos
    rcases bad with rfl | _ | _ | ⟨behind, _⟩ | ⟨digest, known, _⟩
    · rw [length_nil] at full
      omega
    · omega
    · omega
    · have apart := piece.boundary.next_le keeping.boundary behind
      omega
    · simp [early] at known
  · rcases bad with ⟨_, rfl, ⟨_, wrong⟩ | ⟨_, known, _⟩⟩
    · rcases expected with ⟨_, same, _, _⟩
      rcases (delivered.receiver receiver present).writing transferring with ⟨begins, _⟩
      have content := (delivered.eq_yielded begins (by omega)).1
      rw [content] at wrong
      exact wrong same.symm
    · simp [keeping.early (by simp [transferring])] at known
  · exact impossible

theorem Agreement.receiverReacts {files : List (List α)}
    (present : session.receiver = some receiver)
    (expected : message.Expected protocol sender session.receiver session.yielded)
    (reacts : ReceiverReacts protocol False receiver message next answer files) :
    Agreement protocol { session with
      receiver := some next, toSender := session.toSender + ofList answer
      published := session.published ++ files } sender := by
  have keeping := before.receiverKeeping receiver present
  have retry : ∀ message, receiver.retry = some message →
      message.Expected protocol sender (some receiver) := by
    rw [← present]
    exact before.receiverRetry receiver present
  cases reacts with
  | ignore => exact before.receiverSays delivered present rfl rfl rfl retry (by simp)
  | respond responds =>
    apply before.receiverSays delivered present rfl rfl rfl retry
    exact forall_mem_singleton.mpr (before.responds present responds)
  | pull transferring =>
    have pull := before.pulls present expected.1 transferring
    apply before.receiverSays delivered present
    · rfl
    · rfl
    · rfl
    · intro message due
      cases due
      exact pull
    · exact forall_mem_singleton.mpr pull
  | write transferring _ fits =>
    exact before.writes delivered present transferring fits expected
  | writeLast transferring _ known =>
    rw [keeping.early (by simp [transferring])] at known
    cases known
  | repeatPull transferring =>
    apply before.receiverSays delivered present rfl rfl rfl retry
    exact forall_mem_singleton.mpr (before.pulls present expected.1 transferring)
  | note _ missing =>
    rcases expected with ⟨_, _, _, record, found, _, all⟩
    rw [Agreement.sameRecord present found] at all
    exact absurd all missing
  | finish _ all => exact before.finishes delivered present all expected.1
  | remind _ responds =>
    apply before.receiverSays delivered present rfl rfl rfl retry
    exact forall_mem_singleton.mpr (before.responds present responds)
  | refuse waiting content =>
    have going : receiver.Started := by
      cases message with
      | chunk =>
        rcases expected with ⟨_, _, record, found, going, _⟩
        rw [Agreement.sameRecord present found] at going
        exact going
      | complete =>
        rcases expected with ⟨_, _, _, _, found, going, _⟩
        rw [Agreement.sameRecord present found] at going
        exact going
      | _ => exact content.elim
    simp [Receiver.Started, waiting] at going
  | stop _ cause =>
    exact absurd cause (before.receiver_not_stops delivered present expected)

theorem Agreement.receiverOpens {next : Option (Receiver α D)} (absent : session.receiver = none)
    (opens : ReceiverOpens False next answer) :
    Agreement protocol { session with
      receiver := next, toSender := session.toSender + ofList answer } sender := by
  have opened : ∀ (record : Receiver α D) (message : ToSender),
      record.phase = .awaiting ∨ record.phase = .transferring → record.position = 0 →
      record.early = none → (∀ other, record.retry = some other →
        other.Expected protocol sender (some record)) →
      message.Expected protocol sender (some record) →
      Agreement protocol { session with
        receiver := some record, toSender := session.toSender + ofList [message]
        published := session.published ++ [] } sender := by
    intro _ _ phase position early retry expected
    apply before.receiverChanges delivered
    · intro other found
      simp [absent] at found
    · refine ⟨?_, ?_, fun _ => early, ?_⟩
      · rcases phase with awaiting | transferring
        · exact .inl awaiting
        · exact .inr (.inl transferring)
      · rw [position]
        exact .zero
      · intro done
        simp [done] at phase
    · intro _
      refine ⟨?_, position⟩
      intro done
      simp [done] at phase
    · intro other found
      simp [absent] at found
    · exact retry
    · exact forall_mem_singleton.mpr expected
  cases opens with
  | ask =>
    have asked := opened .asked .pending (.inl rfl) rfl rfl (by simp [asked]) rfl
    simpa using asked
  | accept =>
    have going : (ToSender.accepted).Expected protocol sender
        (some (asked : Receiver α D).accepted) := ⟨_, rfl, .inl rfl⟩
    have accepted := opened asked.accepted .accepted (.inr rfl) rfl rfl
      (by
        intro _ due
        cases due
        exact going) going
    simpa using accepted
  | refuse allowed => exact allowed.elim

theorem Agreement.receiverActs {next : Option (Receiver α D)} {said : List ToSender} {retries : ℕ}
    (present : session.receiver = some receiver)
    (acts : ReceiverActs False receiver next said retries) :
    Agreement protocol { session with
      receiver := next, toSender := session.toSender + ofList said, retried }
      sender := by
  have keeping := before.receiverKeeping receiver present
  cases acts with
  | accept waiting =>
    have zero := ((delivered.receiver receiver present).waiting waiting).2
    have going : (ToSender.accepted).Expected protocol sender (some receiver.accepted) :=
      ⟨_, rfl, .inl rfl⟩
    have changed := @Agreement.receiverChanges α D protocol session sender before delivered
      receiver.accepted [.accepted] [] retried
    simp only [append_nil] at changed
    apply changed
    · intro record found
      rw [Agreement.sameRecord present found]
      exact ⟨fun _ => .inl rfl, le_rfl, keeping.boundary.1, fun done => by simp [waiting] at done⟩
    · exact ⟨.inr (.inl rfl), keeping.boundary, fun _ => keeping.early (by simp [waiting]),
        fun done => by cases done⟩
    · intro _
      refine ⟨?_, zero⟩
      intro done
      cases done
    · intro _ found _ lag
      rw [Agreement.sameRecord present found] at lag
      exact lag
    · intro message due
      cases due
      exact going
    · exact forall_mem_singleton.mpr going
  | @retry message due =>
    have expected := before.receiverRetry receiver present
    rw [present] at expected
    have changed := @Agreement.receiverSays α D protocol session sender before delivered receiver
      receiver [message] retried present rfl rfl rfl expected (by simpa using expected message due)
    simpa using changed
  | stop allowed | forget allowed => exact allowed.elim

omit delivered

omit before

theorem Agreement.loseToSender {message : ToSender} {rest : Multiset ToSender}
    (before : Agreement protocol session sender) (arrives : session.toSender = message ::ₘ rest) :
    Agreement protocol { session with toSender := rest } sender :=
  { before with
    toSender := fun other member =>
      before.toSender other (arrives ▸ mem_cons_of_mem member) }

theorem Agreement.loseToReceiver {rest : Multiset (ToReceiver α D)}
    (before : Agreement protocol session sender) (arrives : session.toReceiver = message ::ₘ rest) :
    Agreement protocol { session with toReceiver := rest } sender :=
  { before with
    toReceiver := fun other member =>
      before.toReceiver other (arrives ▸ mem_cons_of_mem member) }

theorem ToReceiver.Expected.isOffer (expected : message.Expected protocol sender none yielded) :
    message = .offer := by
  cases message with
  | offer => rfl
  | accepted =>
    rcases expected with ⟨_, record, absent, _⟩
    cases absent
  | chunk =>
    rcases expected with ⟨_, _, record, absent, _⟩
    cases absent
  | complete =>
    rcases expected with ⟨_, _, _, record, absent, _⟩
    cases absent
  | result =>
    rcases expected with ⟨_, _, absent, _⟩
    cases absent
  | declined | cancel => exact expected.elim

variable {later : Session α D}

theorem Agreement.step (before : Agreement protocol session sender) (issued : session.issued = true)
    (delivered : Delivery protocol session) (step : Step protocol False session later) :
    ∃ next, Agreement protocol later next := by
  have present := before.present
  cases step with
  | issue fresh => simp [issued] at fresh
  | senderReacts found arrives reacts =>
    rw [present] at found
    cases found
    refine ⟨_,
      (before.loseToSender arrives).senderReacts (delivered.loseToSender arrives) ?_ reacts⟩
    apply before.toSender
    rw [arrives]
    exact mem_cons_self _ _
  | senderMissing absent => simp [present] at absent
  | senderActs found acts =>
    rw [present] at found
    cases found
    exact ⟨_, before.senderActs delivered acts⟩
  | receiverReacts found arrives reacts =>
    refine ⟨_, (before.loseToReceiver arrives).receiverReacts (delivered.loseToReceiver arrives)
      found ?_ reacts⟩
    apply before.toReceiver
    rw [arrives]
    exact mem_cons_self _ _
  | receiverOpens absent arrives opens =>
    exact ⟨_, (before.loseToReceiver arrives).receiverOpens (delivered.loseToReceiver arrives)
      absent opens⟩
  | @receiverMissing message rest answer absent arrives notOffer said =>
    have expected := before.toReceiver message (by
      rw [arrives]
      exact mem_cons_self _ _)
    rw [absent] at expected
    exact absurd expected.isOffer notOffer
  | receiverActs found acts => exact ⟨_, before.receiverActs delivered found acts⟩
  | loseToSender arrives => exact ⟨_, before.loseToSender arrives⟩
  | loseToReceiver arrives => exact ⟨_, before.loseToReceiver arrives⟩
  | duplicateToSender inFlight =>
    refine ⟨sender, { before with toSender := ?_ }⟩
    intro message member
    rcases mem_cons.mp member with rfl | earlier
    · exact before.toSender _ inFlight
    · exact before.toSender message earlier
  | duplicateToReceiver inFlight =>
    refine ⟨sender, { before with toReceiver := ?_ }⟩
    intro message member
    rcases mem_cons.mp member with rfl | earlier
    · exact before.toReceiver _ inFlight
    · exact before.toReceiver message earlier

theorem Step.issued {disturbed : Prop} (step : Step protocol disturbed session later)
    (issued : session.issued = true) :
    later.issued = true := by
  cases step <;> first | rfl | exact issued

theorem Quiet.step (before : Quiet protocol session) (delivered : Delivery protocol session)
    (step : Step protocol False session later) :
    Quiet protocol later := by
  by_cases issued : session.issued = true
  · rcases before.running issued with ⟨_, agreement⟩
    refine ⟨fun unissued => ?_, fun _ => agreement.step issued delivered step⟩
    simp [step.issued issued] at unissued
  · have unissued : session.issued = false := by simpa using issued
    rcases before.blank unissued with ⟨noSender, noReceiver, nothing, silence⟩
    rw [step.first noSender noReceiver nothing silence]
    refine ⟨fun absurdity => (by cases absurdity), fun _ =>
      ⟨.fresh, rfl, .inl ?_, ?_, ?_, ?_, ?_, ?_⟩⟩
    · exact ⟨.inl rfl, rfl, rfl, rfl, by simp [noReceiver]⟩
    · intro _ due
      cases due
      trivial
    · simp [noReceiver]
    · simp [noReceiver]
    · simp [nothing, ToReceiver.Expected]
    · simp [silence]

end PullTransfer
