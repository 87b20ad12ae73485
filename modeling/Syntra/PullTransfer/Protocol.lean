import Mathlib.Data.Multiset.AddSub

/-!
# A pull transfer between two parties

One file, offered by a sender and pulled chunk by chunk by a receiver over a channel that may lose,
duplicate and reorder messages. The sender keeps its last answer, the receiver asks again for what
it misses.

The protocol is given by what each party may do on a message or on its own. Moves that only a
disturbance explains (a timeout, a decision against the transfer, a file error, a forgotten record)
ask for the proposition `disturbed`, so that `True` gives every run and `False` the runs in which
nothing but the channel interferes.
-/

namespace PullTransfer

/-- What is fixed during a transfer: the size of the file and of a chunk, and the digest. -/
structure Protocol (α D : Type) where
  size : ℕ
  limit : ℕ
  limit_pos : 0 < limit
  digest : List α → D

/-- The messages of the sender. -/
inductive ToReceiver (α D : Type) where
  | offer
  | accepted
  | declined
  | chunk (offset : ℕ) (data : List α)
  | complete (digest : D)
  | result (success : Bool)
  | cancel

/-- The messages that only a receiver that has accepted can expect. -/
def ToReceiver.IsContent {α D : Type} : ToReceiver α D → Prop
  | .chunk _ _ | .complete _ => True
  | _ => False

/-- The messages of the receiver. -/
inductive ToSender where
  | pending
  | accepted
  | declined
  | request (offset length : ℕ)
  | result (success : Bool)
  | cancel

/-- How far a party is. -/
inductive Phase where
  | offered
  | awaiting
  | transferring
  | completed
  | ended
  deriving DecidableEq

def Phase.Active (phase : Phase) : Prop :=
  phase = .offered ∨ phase = .awaiting ∨ phase = .transferring

/-- The sending party: `read` is what its source has yielded, `cache` its last answer with the
offset and length of the request. -/
structure Sender (α D : Type) where
  phase : Phase
  position : ℕ
  read : List α
  cache : Option (ℕ × ℕ × ToReceiver α D)
  digested : Bool
  retry : Option (ToReceiver α D)

/-- The party that asks for the content. -/
structure Receiver (α D : Type) where
  phase : Phase
  position : ℕ
  content : List α
  early : Option D
  retry : Option ToSender

/-- The transfer as a whole: both parties, the messages in flight, and what happened so far. -/
structure Session (α D : Type) where
  sender : Option (Sender α D)
  receiver : Option (Receiver α D)
  toReceiver : Multiset (ToReceiver α D)
  toSender : Multiset ToSender
  issued : Bool
  yielded : List α
  published : List (List α)
  sent : ℕ
  duplicated : ℕ
  retried : ℕ

variable {α D : Type}

def Session.initial : Session α D where
  sender := none
  receiver := none
  toReceiver := 0
  toSender := 0
  issued := false
  yielded := []
  published := []
  sent := 0
  duplicated := 0
  retried := 0

namespace Sender

def fresh : Sender α D where
  phase := .offered
  position := 0
  read := []
  cache := none
  digested := false
  retry := some .offer

/-- What a sender that gave up may still say. -/
def Farewell (retry : Option (ToReceiver α D)) : Prop :=
  retry = none ∨ retry = some (.result false) ∨ retry = some .cancel ∨ retry = some .declined

def stopped (sender : Sender α D) (retry : Option (ToReceiver α D)) : Sender α D :=
  { sender with phase := .ended, read := [], cache := none, retry }

def served (sender : Sender α D) (length : ℕ) (data : List α) : Sender α D :=
  { sender with
    position := sender.position + data.length
    read := sender.read ++ data
    cache := some (sender.position, length, .chunk sender.position data)
    retry := none }

def concluded (protocol : Protocol α D) (sender : Sender α D) (length : ℕ) : Sender α D :=
  let answer := .complete (protocol.digest sender.read)
  { sender with
    cache := some (sender.position, length, answer), digested := true, retry := some answer }

def finished (sender : Sender α D) : Sender α D :=
  { sender with phase := .completed, read := [], cache := none, retry := some (.result true) }

end Sender

variable (protocol : Protocol α D) (disturbed : Prop)

/-- A request that no receiver following the protocol makes. -/
def BadRequest (sender : Sender α D) (message : ToSender) : Prop :=
  ∃ offset length, message = .request offset length ∧
    (sender.position < offset ∨ protocol.size < offset ∨ length = 0 ∨ protocol.limit < length)

/-- What the sender makes of a message: its next state, its answer and what it reads. -/
inductive SenderReacts (sender : Sender α D) :
    ToSender → Sender α D → List (ToReceiver α D) → List α → Prop
  | ignore (message : ToSender) : SenderReacts sender message sender [] []
  | await (offered : sender.phase = .offered) :
      SenderReacts sender .pending { sender with phase := .awaiting, retry := none } [] []
  | start (waiting : sender.phase = .offered ∨ sender.phase = .awaiting) :
      SenderReacts sender .accepted { sender with phase := .transferring, retry := none }
        [.accepted] []
  | echo (transferring : sender.phase = .transferring) :
      SenderReacts sender .accepted sender [.accepted] []
  | resend {offset length : ℕ} {answer : ToReceiver α D}
      (transferring : sender.phase = .transferring)
      (cached : sender.cache = some (offset, length, answer)) :
      SenderReacts sender (.request offset length) sender [answer] []
  | serve {length : ℕ} {data : List α} (transferring : sender.phase = .transferring)
      (more : sender.position < protocol.size) (nonempty : data ≠ [])
      (full : data.length = min length (protocol.size - sender.position)) :
      SenderReacts sender (.request sender.position length) (sender.served length data)
        [.chunk sender.position data] data
  | conclude {length : ℕ} (transferring : sender.phase = .transferring)
      (all : sender.position = protocol.size) :
      SenderReacts sender (.request sender.position length) (sender.concluded protocol length)
        [.complete (protocol.digest sender.read)] []
  | refuse {offset length : ℕ} (waiting : sender.phase = .offered ∨ sender.phase = .awaiting) :
      SenderReacts sender (.request offset length) sender [.result false] []
  | finish (transferring : sender.phase = .transferring) (all : sender.position = protocol.size)
      (digested : sender.digested = true) :
      SenderReacts sender (.result true) sender.finished [] []
  | stop {message : ToSender} {retry : Option (ToReceiver α D)} {answer : List (ToReceiver α D)}
      (active : sender.phase.Active)
      (cause : message = .declined ∨ message = .cancel ∨ message = .result false ∨
        sender.phase = .transferring ∧ BadRequest protocol sender message ∨ disturbed)
      (farewell : Sender.Farewell retry) (said : answer = [] ∨ answer = [.result false]) :
      SenderReacts sender message (sender.stopped retry) answer []

/-- A repeated message counts as a retry, unless it only repeats that the transfer is off. -/
def ToReceiver.retries : ToReceiver α D → ℕ
  | .cancel => 0
  | _ => 1

def ToSender.retries : ToSender → ℕ
  | .cancel => 0
  | _ => 1

/-- What the sender does unasked, and how many retries that is. -/
inductive SenderActs (sender : Sender α D) :
    Option (Sender α D) → List (ToReceiver α D) → ℕ → Prop
  | retry {message : ToReceiver α D} (due : sender.retry = some message) :
      SenderActs sender (some sender) [message] message.retries
  | stop {retry : Option (ToReceiver α D)} {said : List (ToReceiver α D)} (allowed : disturbed)
      (active : sender.phase.Active) (farewell : Sender.Farewell retry)
      (silent : said = [] ∨ said = [.cancel]) :
      SenderActs sender (some (sender.stopped retry)) said 0
  | forget (allowed : disturbed) (isOver : ¬sender.phase.Active) : SenderActs sender none [] 0

namespace Receiver

def asked : Receiver α D where
  phase := .awaiting
  position := 0
  content := []
  early := none
  retry := none

variable (receiver : Receiver α D)

def accepted : Receiver α D :=
  { receiver with phase := .transferring, retry := some .accepted }

/-- What a receiver that gave up may say. -/
def Farewell (message : ToSender) : Prop :=
  message = .result false ∨ message = .cancel ∨ message = .declined

def stopped (retry : Option ToSender) : Receiver α D where
  phase := .ended
  position := 0
  content := []
  early := none
  retry

def completed : Receiver α D :=
  { receiver with phase := .completed, content := [], retry := some (.result true) }

def wrote (limit : ℕ) (data : List α) : Receiver α D :=
  { receiver with
    position := receiver.position + data.length
    content := receiver.content ++ data
    retry := some (.request (receiver.position + data.length) limit) }

/-- The answer to an offer that is already known. -/
def Responds (message : ToSender) : Prop :=
  match receiver.phase with
  | .awaiting => message = .pending
  | .transferring => message = .accepted
  | .completed => message = .result true
  | .offered | .ended => Farewell message

end Receiver

/-- A chunk that no sender following the protocol serves. -/
def BadChunk (receiver : Receiver α D) (message : ToReceiver α D) : Prop :=
  ∃ offset data, message = .chunk offset data ∧
    (data = [] ∨ protocol.limit < data.length ∨ protocol.size < offset + data.length ∨
      offset < receiver.position ∧ receiver.position < offset + data.length ∨
      ∃ digest, receiver.early = some digest ∧ offset = receiver.position ∧
        protocol.digest (receiver.content ++ data) ≠ digest)

def BadDigest (receiver : Receiver α D) (message : ToReceiver α D) : Prop :=
  ∃ digest, message = .complete digest ∧
    (receiver.position = protocol.size ∧ protocol.digest receiver.content ≠ digest ∨
      ∃ previous, receiver.early = some previous ∧ previous ≠ digest)

/-- What the receiver makes of a message: its next state, its answer and what it publishes. -/
inductive ReceiverReacts (receiver : Receiver α D) :
    ToReceiver α D → Receiver α D → List ToSender → List (List α) → Prop
  | ignore (message : ToReceiver α D) : ReceiverReacts receiver message receiver [] []
  | respond {message : ToSender} (responds : receiver.Responds message) :
      ReceiverReacts receiver .offer receiver [message] []
  | pull (transferring : receiver.phase = .transferring) :
      ReceiverReacts receiver .accepted
        { receiver with retry := some (.request receiver.position protocol.limit) }
        [.request receiver.position protocol.limit] []
  | write {data : List α} (transferring : receiver.phase = .transferring) (nonempty : data ≠ [])
      (fits : receiver.position + data.length ≤ protocol.size) :
      ReceiverReacts receiver (.chunk receiver.position data) (receiver.wrote protocol.limit data)
        [.request (receiver.position + data.length) protocol.limit] []
  | writeLast {data : List α} (transferring : receiver.phase = .transferring)
      (all : receiver.position + data.length = protocol.size)
      (known : receiver.early = some (protocol.digest (receiver.content ++ data))) :
      ReceiverReacts receiver (.chunk receiver.position data)
        { receiver with position := protocol.size, early := none }.completed
        [.result true] [receiver.content ++ data]
  | repeatPull {offset : ℕ} {data : List α} (transferring : receiver.phase = .transferring)
      (other : offset + data.length ≤ receiver.position ∨ receiver.position < offset) :
      ReceiverReacts receiver (.chunk offset data) receiver
        [.request receiver.position protocol.limit] []
  | note {digest : D} (transferring : receiver.phase = .transferring)
      (missing : receiver.position ≠ protocol.size) :
      ReceiverReacts receiver (.complete digest) { receiver with early := some digest }
        [.request receiver.position protocol.limit] []
  | finish (transferring : receiver.phase = .transferring)
      (all : receiver.position = protocol.size) :
      ReceiverReacts receiver (.complete (protocol.digest receiver.content)) receiver.completed
        [.result true] [receiver.content]
  | remind {message : ToReceiver α D} {answer : ToSender}
      (isOver : receiver.phase = .completed ∨ receiver.phase = .ended)
      (responds : receiver.Responds answer) :
      ReceiverReacts receiver message receiver [answer] []
  | refuse {message : ToReceiver α D} (waiting : receiver.phase = .awaiting)
      (content : message.IsContent) :
      ReceiverReacts receiver message receiver [.result false] []
  | stop {message : ToReceiver α D} {retry : Option ToSender} {answer : List ToSender}
      (active : receiver.phase.Active)
      (cause : message = .cancel ∨ message = .result false ∨
        receiver.phase = .transferring ∧
          (BadChunk protocol receiver message ∨ BadDigest protocol receiver message) ∨ disturbed)
      (farewell : ∀ last, retry = some last → Receiver.Farewell last)
      (said : answer = [] ∨ answer = [.result false]) :
      ReceiverReacts receiver message (Receiver.stopped retry) answer []

theorem ReceiverReacts.publishes {receiver later : Receiver α D} {message : ToReceiver α D}
    {answer : List ToSender} {files : List (List α)}
    (reacts : ReceiverReacts protocol disturbed receiver message later answer files) :
    files = [] ∨ later.phase = .completed := by
  cases reacts with
  | writeLast | finish => exact .inr rfl
  | _ => exact .inl rfl

/-- What a receiver that has no record of the transfer makes of an offer. -/
inductive ReceiverOpens : Option (Receiver α D) → List ToSender → Prop
  | ask : ReceiverOpens (some .asked) [.pending]
  | accept : ReceiverOpens (some Receiver.asked.accepted) [.accepted]
  | refuse {receiver : Option (Receiver α D)} (allowed : disturbed)
      (isOver : ∀ record, receiver = some record →
        ∃ retry, record = Receiver.stopped retry ∧
          ∀ last, retry = some last → Receiver.Farewell last) :
      ReceiverOpens receiver [.result false]

/-- What the receiver does unasked. -/
inductive ReceiverActs (receiver : Receiver α D) :
    Option (Receiver α D) → List ToSender → ℕ → Prop
  | accept (waiting : receiver.phase = .awaiting) :
      ReceiverActs receiver (some receiver.accepted) [.accepted] 0
  | retry {message : ToSender} (due : receiver.retry = some message) :
      ReceiverActs receiver (some receiver) [message] message.retries
  | stop {retry : Option ToSender} {said : List ToSender} (allowed : disturbed)
      (active : receiver.phase.Active)
      (farewell : ∀ last, retry = some last → Receiver.Farewell last)
      (parting : ∀ last ∈ said, Receiver.Farewell last) :
      ReceiverActs receiver (some (Receiver.stopped retry)) said 0
  | forget (allowed : disturbed) (isOver : ¬receiver.phase.Active) :
      ReceiverActs receiver none [] 0

def chunks : List (ToReceiver α D) → ℕ
  | [] => 0
  | .chunk _ _ :: messages => chunks messages + 1
  | _ :: messages => chunks messages

theorem chunks_append (first second : List (ToReceiver α D)) :
    chunks (first ++ second) = chunks first + chunks second := by
  induction first with
  | nil => simp [chunks]
  | cons message _ ih =>
    rw [List.cons_append]
    cases message with
    | chunk => simp only [chunks, ih, Nat.add_right_comm]
    | _ => exact ih

/-- A party acts or reacts, or the channel loses or repeats a message. -/
inductive Step (session : Session α D) : Session α D → Prop
  | issue (fresh : session.issued = false) :
      Step session { session with
        issued := true, sender := some .fresh, toReceiver := .offer ::ₘ session.toReceiver }
  | senderReacts {sender later : Sender α D} {message : ToSender} {rest : Multiset ToSender}
      {answer : List (ToReceiver α D)} {data : List α}
      (present : session.sender = some sender) (arrives : session.toSender = message ::ₘ rest)
      (reacts : SenderReacts protocol disturbed sender message later answer data) :
      Step session { session with
        sender := some later, toSender := rest
        toReceiver := session.toReceiver + Multiset.ofList answer
        yielded := session.yielded ++ data, sent := session.sent + chunks answer }
  | senderMissing {message : ToSender} {rest : Multiset ToSender} {answer : List (ToReceiver α D)}
      (absent : session.sender = none) (arrives : session.toSender = message ::ₘ rest)
      (said : answer = [] ∨ answer = [.result false] ∨ answer = [.cancel]) :
      Step session { session with
        toSender := rest, toReceiver := session.toReceiver + Multiset.ofList answer }
  | senderActs {sender : Sender α D} {later : Option (Sender α D)}
      {said : List (ToReceiver α D)} {retries : ℕ} (present : session.sender = some sender)
      (acts : SenderActs disturbed sender later said retries) :
      Step session { session with
        sender := later, toReceiver := session.toReceiver + Multiset.ofList said
        sent := session.sent + chunks said, retried := session.retried + retries }
  | receiverReacts {receiver later : Receiver α D} {message : ToReceiver α D}
      {rest : Multiset (ToReceiver α D)} {answer : List ToSender} {files : List (List α)}
      (present : session.receiver = some receiver)
      (arrives : session.toReceiver = message ::ₘ rest)
      (reacts : ReceiverReacts protocol disturbed receiver message later answer files) :
      Step session { session with
        receiver := some later, toReceiver := rest
        toSender := session.toSender + Multiset.ofList answer
        published := session.published ++ files }
  | receiverOpens {rest : Multiset (ToReceiver α D)} {later : Option (Receiver α D)}
      {answer : List ToSender} (absent : session.receiver = none)
      (arrives : session.toReceiver = .offer ::ₘ rest)
      (opens : ReceiverOpens disturbed later answer) :
      Step session { session with
        receiver := later, toReceiver := rest
        toSender := session.toSender + Multiset.ofList answer }
  | receiverMissing {message : ToReceiver α D} {rest : Multiset (ToReceiver α D)}
      {answer : List ToSender} (absent : session.receiver = none)
      (arrives : session.toReceiver = message ::ₘ rest) (notOffer : message ≠ .offer)
      (said : answer = [] ∨ answer = [.result false] ∨ answer = [.cancel]) :
      Step session { session with
        toReceiver := rest, toSender := session.toSender + Multiset.ofList answer }
  | receiverActs {receiver : Receiver α D} {later : Option (Receiver α D)}
      {said : List ToSender} {retries : ℕ} (present : session.receiver = some receiver)
      (acts : ReceiverActs disturbed receiver later said retries) :
      Step session { session with
        receiver := later, toSender := session.toSender + Multiset.ofList said
        retried := session.retried + retries }
  | loseToSender {message : ToSender} {rest : Multiset ToSender}
      (arrives : session.toSender = message ::ₘ rest) :
      Step session { session with toSender := rest }
  | loseToReceiver {message : ToReceiver α D} {rest : Multiset (ToReceiver α D)}
      (arrives : session.toReceiver = message ::ₘ rest) :
      Step session { session with toReceiver := rest }
  | duplicateToSender {message : ToSender} (inFlight : message ∈ session.toSender) :
      Step session { session with
        toSender := message ::ₘ session.toSender, duplicated := session.duplicated + 1 }
  | duplicateToReceiver {message : ToReceiver α D} (inFlight : message ∈ session.toReceiver) :
      Step session { session with
        toReceiver := message ::ₘ session.toReceiver, duplicated := session.duplicated + 1 }

variable {protocol disturbed} in
theorem Step.first {session later : Session α D} (step : Step protocol disturbed session later)
    (noSender : session.sender = none) (noReceiver : session.receiver = none)
    (nothing : session.toReceiver = 0) (silence : session.toSender = 0) :
    later = { session with
      issued := true, sender := some .fresh, toReceiver := .offer ::ₘ session.toReceiver } := by
  cases step with
  | issue => rfl
  | senderReacts present | senderActs present => simp [noSender] at present
  | senderMissing _ arrives | loseToSender arrives => simp [silence] at arrives
  | receiverReacts present | receiverActs present => simp [noReceiver] at present
  | receiverOpens _ arrives | receiverMissing _ arrives | loseToReceiver arrives =>
    simp [nothing] at arrives
  | duplicateToSender inFlight => simp [silence] at inFlight
  | duplicateToReceiver inFlight => simp [nothing] at inFlight

end PullTransfer
