import Mathlib.Algebra.BigOperators.Group.Multiset.Basic
import Mathlib.Algebra.Order.BigOperators.Group.Multiset
import Mathlib.Algebra.Order.Ring.Nat
import Syntra.PullTransfer.Protocol

/-!
# How many chunks are sent

Every message in flight can still lead to some number of chunks, and so can an unanswered offer.
This load never grows but by what the channel duplicates and the timers repeat, each of which adds
at most one whole file. The sender pays for the chunks it sends out of the load.
-/

namespace PullTransfer

open ToSender Multiset Receiver Nat Sender

variable {α D : Type} {protocol : Protocol α D}

/-- The number of chunks from an offset to the end of the file. -/
def Protocol.remaining (protocol : Protocol α D) (offset : ℕ) : ℕ :=
  (protocol.size - offset + protocol.limit - 1) / protocol.limit

namespace Protocol

theorem remaining_le {first second : ℕ} (ordered : first ≤ second) :
    protocol.remaining second ≤ protocol.remaining first := by
  apply Nat.div_le_div_right
  omega

theorem remaining_next {offset length : ℕ} (more : offset < protocol.size)
    (full : length = min protocol.limit (protocol.size - offset)) :
    protocol.remaining (offset + length) + 1 ≤ protocol.remaining offset := by
  have positive := protocol.limit_pos
  unfold remaining
  rw [← Nat.add_div_right _ positive]
  by_cases whole : protocol.limit ≤ protocol.size - offset
  · apply Nat.div_le_div_right
    omega
  · have last : protocol.size - (offset + length) = 0 := by omega
    rw [last]
    have least : (protocol.limit - 1) / protocol.limit = 0 := Nat.div_eq_of_lt (by omega)
    rw [Nat.add_div_right _ positive]
    have enough : 1 ≤ (protocol.size - offset + protocol.limit - 1) / protocol.limit :=
      (Nat.one_le_div_iff positive).mpr (by omega)
    simp only [Nat.zero_add, least]
    omega

end Protocol

/-- The offset of the last request that the sender has answered. -/
def Sender.mark (sender : Sender α D) : ℕ :=
  match sender.cache with
  | some (offset, _, _) => offset
  | none => 0

/-- How many chunks a message to the receiver can still lead to. -/
def ToReceiver.load (protocol : Protocol α D) : ToReceiver α D → ℕ
  | .offer | .accepted => protocol.remaining 0
  | .chunk offset data => protocol.remaining (offset + data.length)
  | .complete _ | .result _ | .declined | .cancel => 0

/-- A request from before the last answer leads to nothing. -/
def ToSender.load (protocol : Protocol α D) (mark : ℕ) : ToSender → ℕ
  | .accepted => protocol.remaining 0
  | .request offset _ => if offset < mark then 0 else protocol.remaining offset
  | .pending | .declined | .result _ | .cancel => 0

/-- An offer that waits for a decision can still be accepted. -/
def Receiver.load (protocol : Protocol α D) : Option (Receiver α D) → ℕ
  | some receiver => if receiver.phase = .awaiting then protocol.remaining 0 else 0
  | none => 0

def Session.load (protocol : Protocol α D) (session : Session α D) (mark : ℕ) : ℕ :=
  (session.toReceiver.map (ToReceiver.load protocol)).sum +
    (session.toSender.map (ToSender.load protocol mark)).sum +
    Receiver.load protocol session.receiver

/-- What the chunks sent and the load are paid from. -/
def Session.budget (protocol : Protocol α D) (session : Session α D) : ℕ :=
  protocol.remaining 0 * (1 + session.duplicated + session.retried)

theorem budget_duplicated (whole duplicated retried : ℕ) :
    whole * (1 + (duplicated + 1) + retried) = whole * (1 + duplicated + retried) + whole := by
  rw [← mul_add_one]
  congr 1
  omega

theorem budget_retried (whole duplicated retried more : ℕ) :
    whole * (1 + duplicated + (retried + more)) =
      whole * (1 + duplicated + retried) + whole * more := by
  rw [← mul_add]
  congr 1
  omega

theorem ToReceiver.load_le (message : ToReceiver α D) :
    message.load protocol ≤ protocol.remaining 0 := by
  cases message with
  | offer | accepted => exact le_rfl
  | chunk => exact Protocol.remaining_le (zero_le _)
  | _ => exact zero_le _

theorem ToReceiver.load_le_retries (protocol : Protocol α D) (message : ToReceiver α D) :
    message.load protocol ≤ protocol.remaining 0 * message.retries := by
  cases message with
  | cancel => exact zero_le _
  | _ => exact (ToReceiver.load_le _).trans (mul_one _).ge

@[simp]
theorem ToSender.load_request {offset length mark : ℕ} :
    (request offset length).load protocol mark =
      if offset < mark then 0 else protocol.remaining offset :=
  rfl

variable (message : ToSender)

theorem ToSender.load_le (mark : ℕ) : message.load protocol mark ≤ protocol.remaining 0 := by
  cases message with
  | accepted => exact le_rfl
  | request =>
    rw [load_request]
    split
    · exact zero_le _
    · exact Protocol.remaining_le (zero_le _)
  | _ => exact zero_le _

theorem ToSender.load_le_retries (protocol : Protocol α D) (message : ToSender) (mark : ℕ) :
    message.load protocol mark ≤ protocol.remaining 0 * message.retries := by
  cases message with
  | cancel => exact zero_le _
  | _ => exact (load_le _ _).trans (mul_one _).ge

theorem ToSender.load_request_le {offset least length mark : ℕ} (ordered : least ≤ offset) :
    (request offset length).load protocol mark ≤ protocol.remaining least := by
  rw [load_request]
  split
  · exact zero_le _
  · exact Protocol.remaining_le ordered

theorem ToSender.load_mono {mark later : ℕ} (advanced : mark ≤ later) :
    message.load protocol later ≤ message.load protocol mark := by
  cases message with
  | request offset =>
    rw [load_request, load_request]
    by_cases stale : offset < mark
    · rw [if_pos (by omega), if_pos stale]
    · rw [if_neg stale]
      split
      · exact zero_le _
      · exact le_rfl
  | _ => exact le_rfl

theorem ToSender.sum_load_mono (protocol : Protocol α D) (messages : Multiset ToSender)
    {mark later : ℕ} (advanced : mark ≤ later) :
    (messages.map (load protocol later)).sum ≤ (messages.map (load protocol mark)).sum :=
  sum_map_le_sum_map _ _ (fun message _ => message.load_mono advanced)

section Load

variable (protocol) (mark : ℕ)

theorem load_cons_toSender (rest : Multiset ToSender) :
    ((message ::ₘ rest).map (load protocol mark)).sum =
      message.load protocol mark + (rest.map (ToSender.load protocol mark)).sum := by
  rw [Multiset.map_cons, Multiset.sum_cons]

theorem load_cons_toReceiver (message : ToReceiver α D) (rest : Multiset (ToReceiver α D)) :
    ((message ::ₘ rest).map (ToReceiver.load protocol)).sum =
      message.load protocol + (rest.map (ToReceiver.load protocol)).sum := by
  rw [Multiset.map_cons, Multiset.sum_cons]

theorem load_say_toSender (messages : Multiset ToSender) (said : List ToSender) :
    ((messages + ofList said).map (load protocol mark)).sum =
      (messages.map (load protocol mark)).sum + (said.map (load protocol mark)).sum := by
  rw [map_add, sum_add, map_coe, sum_coe]

theorem load_say_toReceiver (messages : Multiset (ToReceiver α D)) (said : List (ToReceiver α D)) :
    ((messages + Multiset.ofList said).map (ToReceiver.load protocol)).sum =
      (messages.map (ToReceiver.load protocol)).sum +
        (said.map (ToReceiver.load protocol)).sum := by
  rw [Multiset.map_add, Multiset.sum_add, Multiset.map_coe, Multiset.sum_coe]

end Load

/-- A chunk in flight is whole and not ahead of the last answer; the digest is the last answer. -/
def ToReceiver.Fair (protocol : Protocol α D) (mark : ℕ) : ToReceiver α D → Prop
  | .chunk offset data => offset ≤ mark ∧ offset < protocol.size ∧
    data.length = min protocol.limit (protocol.size - offset)
  | .complete _ => mark = protocol.size
  | _ => True

def ToReceiver.IsChunk : ToReceiver α D → Prop
  | .chunk _ _ => True
  | _ => False

def ToSender.Fair (protocol : Protocol α D) : ToSender → Prop
  | .request _ length => length = protocol.limit
  | _ => True

/-- What the sender may say again is no further than it has come. -/
structure Sender.Fair (protocol : Protocol α D) (sender : Sender α D) : Prop where
  bounded : sender.position ≤ protocol.size
  cached : ∀ offset length answer, sender.cache = some (offset, length, answer) →
    offset ≤ sender.position ∧ answer.Fair protocol offset ∧
      ((∃ data, answer = .chunk offset data) ∨ ∃ digest, answer = .complete digest)
  retry : ∀ message, sender.retry = some message → message.Fair protocol sender.mark

/-- What the receiver may say again is within the content. -/
structure Receiver.Fair (protocol : Protocol α D) (receiver : Receiver α D) : Prop where
  bounded : receiver.position ≤ protocol.size
  retry : ∀ message, receiver.retry = some message → message.Fair protocol

/-- The chunks sent and those that messages under way can cause are within the budget. -/
structure Busy (protocol : Protocol α D) (session : Session α D) (sender : Sender α D) : Prop where
  fair : sender.Fair protocol
  toReceiver : ∀ message ∈ session.toReceiver, message.Fair protocol sender.mark
  toSender : ∀ message ∈ session.toSender, message.Fair protocol
  receiver : ∀ receiver, session.receiver = some receiver → receiver.Fair protocol
  paid : session.sent + session.load protocol sender.mark ≤ session.budget protocol

/-- The chunks that are sent stay within the budget. -/
structure Traffic (protocol : Protocol α D) (session : Session α D) : Prop where
  blank : session.issued = false → session.receiver = none ∧ session.toReceiver = 0 ∧
    session.toSender = 0 ∧ session.sent = 0
  absent : session.issued = false → session.sender = none
  spent : session.sent ≤ session.budget protocol
  silent : ∀ sender, session.sender = some sender → ∀ message, sender.retry = some message →
    ¬message.IsChunk
  busy : ∀ sender, session.sender = some sender → sender.phase.Active → Busy protocol session sender

theorem Traffic.initial : Traffic protocol .initial where
  blank _ := ⟨rfl, rfl, rfl, rfl⟩
  absent _ := rfl
  spent := zero_le _
  silent _ present := by cases present
  busy _ present := by cases present

variable {session later : Session α D} {sender next : Sender α D}

theorem Busy.spent (busy : Busy protocol session sender) : session.sent ≤ session.budget protocol :=
  (Nat.le_add_right _ _).trans busy.paid

section

variable (fair : sender.Fair protocol)
include fair

theorem Sender.Fair.mark_le : sender.mark ≤ protocol.size := by
  unfold mark
  split
  · rename_i offset length answer cached
    exact (fair.cached offset length answer cached).1.trans fair.bounded
  · exact zero_le _

omit fair in
theorem ToReceiver.Fair.advance {message : ToReceiver α D} {mark further : ℕ}
    (fair : message.Fair protocol mark) (advanced : mark ≤ further)
    (bounded : further ≤ protocol.size) : message.Fair protocol further := by
  cases message with
  | chunk => exact ⟨fair.1.trans advanced, fair.2⟩
  | complete =>
    have last : mark = protocol.size := fair
    exact le_antisymm bounded (last ▸ advanced)
  | _ => trivial

/-- An answer of the sender costs no more than the request has paid. -/
structure Sender.Pays (protocol : Protocol α D) (sender : Sender α D) (message : ToSender)
    (next : Sender α D) (answer : List (ToReceiver α D)) : Prop where
  active : next.phase.Active
  fair : next.Fair protocol
  advanced : sender.mark ≤ next.mark
  answers : ∀ reply ∈ answer, reply.Fair protocol next.mark
  pays : chunks answer + (answer.map (ToReceiver.load protocol)).sum ≤
    message.load protocol sender.mark

theorem Sender.Fair.cache_free {phase : Phase} {retry : Option (ToReceiver α D)}
    (kept : ∀ message, retry = some message → message.Fair protocol sender.mark) :
    { sender with phase, retry }.Fair protocol :=
  ⟨fair.bounded, fair.cached, kept⟩

theorem Sender.Fair.resends {offset length : ℕ} {answer : ToReceiver α D}
    (active : sender.phase.Active) (cached : sender.cache = some (offset, length, answer)) :
    sender.Pays protocol (.request offset length) sender [answer] := by
  have mark : sender.mark = offset := by simp [Sender.mark, cached]
  rcases fair.cached offset length answer cached with ⟨_, whole, kind⟩
  refine ⟨active, fair, le_rfl, ?_, ?_⟩
  · intro _ member
    rw [List.mem_singleton.mp member, mark]
    exact whole
  · rw [ToSender.load_request, mark, if_neg (lt_irrefl _)]
    rcases kind with ⟨_, rfl⟩ | ⟨_, rfl⟩
    · have payment := Protocol.remaining_next whole.2.1 whole.2.2
      simp only [chunks, List.map_cons, List.map_nil, List.sum_cons, List.sum_nil, ToReceiver.load]
      omega
    · simp [chunks, ToReceiver.load]

theorem Sender.Fair.serves {data : List α} (active : sender.phase.Active)
    (more : sender.position < protocol.size)
    (full : data.length = min protocol.limit (protocol.size - sender.position)) :
    sender.Pays protocol (.request sender.position protocol.limit)
      (sender.served protocol.limit data) [.chunk sender.position data] := by
  have advanced : sender.mark ≤ sender.position := by
    unfold Sender.mark
    split
    · rename_i offset length answer cached
      exact (fair.cached offset length answer cached).1
    · exact Nat.zero_le _
  refine ⟨active, ⟨?_, ?_, ?_⟩, advanced, ?_, ?_⟩
  · change sender.position + data.length ≤ protocol.size
    omega
  · intro _ _ _ cached
    cases cached
    exact ⟨Nat.le_add_right _ _, ⟨le_rfl, more, full⟩, .inl ⟨data, rfl⟩⟩
  · intro _ due
    cases due
  · exact List.forall_mem_singleton.mpr ⟨le_rfl, more, full⟩
  · have payment := Protocol.remaining_next more full
    rw [ToSender.load_request, if_neg (Nat.not_lt.mpr advanced)]
    simp only [chunks, List.map_cons, List.map_nil, List.sum_cons, List.sum_nil, ToReceiver.load]
    omega

theorem Sender.Fair.concludes {length : ℕ} (active : sender.phase.Active)
    (all : sender.position = protocol.size) :
    sender.Pays protocol (.request sender.position length) (sender.concluded protocol length)
      [.complete (protocol.digest sender.read)] := by
  have advanced : sender.mark ≤ sender.position := fair.mark_le.trans all.ge
  refine ⟨active, ⟨fair.bounded, ?_, ?_⟩, advanced, ?_, ?_⟩
  · intro _ _ _ cached
    cases cached
    exact ⟨le_rfl, all, .inr ⟨_, rfl⟩⟩
  · intro _ due
    cases due
    exact all
  · exact List.forall_mem_singleton.mpr all
  · simp [chunks, ToReceiver.load]

end

variable {disturbed : Prop}

variable {data : List α} {said : List (ToReceiver α D)} {files : List (List α)} {retries : ℕ}
  {message : ToSender} {answer : List (ToReceiver α D)}

theorem Sender.Fair.reacts (fair : sender.Fair protocol) (active : sender.phase.Active)
    (asked : message.Fair protocol)
    (reacts : SenderReacts protocol disturbed sender message next answer data) :
    ¬next.phase.Active ∧ chunks answer = 0 ∨ sender.Pays protocol message next answer := by
  cases reacts with
  | ignore => exact .inr ⟨active, fair, le_rfl, by simp, by simp [chunks]⟩
  | await =>
    exact .inr ⟨.inr (.inl rfl), fair.cache_free (by simp), le_rfl, by simp, by simp [chunks]⟩
  | start =>
    refine .inr ⟨.inr (.inr rfl), fair.cache_free (by simp), le_rfl, ?_, ?_⟩
    · simp [ToReceiver.Fair]
    · simp [chunks, ToReceiver.load, ToSender.load]
  | echo =>
    refine .inr ⟨active, fair, le_rfl, ?_, ?_⟩
    · simp [ToReceiver.Fair]
    · simp [chunks, ToReceiver.load, ToSender.load]
  | resend _ cached => exact .inr (fair.resends active cached)
  | serve _ more _ full =>
    have limit : _ = protocol.limit := asked
    subst limit
    exact .inr (fair.serves active more full)
  | conclude _ all => exact .inr (fair.concludes active all)
  | refuse =>
    refine .inr ⟨active, fair, le_rfl, ?_, ?_⟩
    · simp [ToReceiver.Fair]
    · simp [chunks, ToReceiver.load]
  | finish => exact .inl ⟨by simp [Phase.Active, finished], rfl⟩
  | stop _ _ _ said =>
    refine .inl ⟨by simp [Phase.Active, stopped], ?_⟩
    rcases said with rfl | rfl
    · rfl
    · rfl

variable {rest : Multiset ToSender}

theorem Busy.senderReplies {yielded : List α} (before : Busy protocol session sender)
    (arrives : session.toSender = message ::ₘ rest)
    (replies : sender.Pays protocol message next answer) :
    Busy protocol { session with
      sender := some next, toSender := rest
      toReceiver := session.toReceiver + Multiset.ofList answer
      yielded, sent := session.sent + chunks answer } next := by
  refine ⟨replies.fair, ?_, ?_, before.receiver, ?_⟩
  · intro reply member
    rcases Multiset.mem_add.mp member with earlier | answered
    · exact (before.toReceiver reply earlier).advance replies.advanced replies.fair.mark_le
    · exact replies.answers reply answered
  · intro other member
    exact before.toSender other (arrives ▸ Multiset.mem_cons_of_mem member)
  · have paid := before.paid
    have pays := replies.pays
    have lighter := ToSender.sum_load_mono protocol rest replies.advanced
    simp only [Session.load, Session.budget, arrives, load_cons_toSender,
      load_say_toReceiver] at paid ⊢
    omega

theorem Busy.senderRepeats {message : ToReceiver α D} (before : Busy protocol session sender)
    (due : sender.retry = some message) :
    Busy protocol { session with
      sender := some sender, toReceiver := session.toReceiver + Multiset.ofList [message]
      retried := session.retried + message.retries } sender := by
  refine ⟨before.fair, ?_, before.toSender, before.receiver, ?_⟩
  · intro other member
    rcases Multiset.mem_add.mp member with earlier | answered
    · exact before.toReceiver other earlier
    · rw [List.mem_singleton.mp answered]
      exact before.fair.retry message due
  · have paid := before.paid
    have worth := message.load_le_retries protocol
    simp only [Session.load, Session.budget, load_say_toReceiver, List.map_cons, List.map_nil,
      List.sum_cons, List.sum_nil] at paid ⊢
    rw [budget_retried]
    omega

theorem chunks_eq_zero (silent : ∀ message ∈ said, ¬message.IsChunk) : chunks said = 0 := by
  induction said with
  | nil => rfl
  | cons message _ ih =>
    have tail := ih (fun other member => silent other (List.mem_cons_of_mem message member))
    cases message with
    | chunk => exact absurd trivial (silent _ (.head _))
    | _ => exact tail

variable {toReceiver : Multiset (ToReceiver α D)}

theorem Busy.receiverSays {next : Option (Receiver α D)} {said : List ToSender}
    {published : List (List α)} {retried : ℕ} (before : Busy protocol session sender)
    (heard : ∀ message ∈ toReceiver, message ∈ session.toReceiver)
    (fair : ∀ receiver, next = some receiver → receiver.Fair protocol)
    (answers : ∀ message ∈ said, message.Fair protocol)
    (pays : (toReceiver.map (ToReceiver.load protocol)).sum +
      (said.map (ToSender.load protocol sender.mark)).sum + Receiver.load protocol next ≤
      (session.toReceiver.map (ToReceiver.load protocol)).sum +
        Receiver.load protocol session.receiver + protocol.remaining 0 * retried) :
    Busy protocol { session with
      receiver := next, toReceiver, toSender := session.toSender + Multiset.ofList said
      published, retried := session.retried + retried } sender := by
  refine ⟨before.fair, fun message member => before.toReceiver message (heard message member),
    ?_, fair, ?_⟩
  · intro message member
    rcases Multiset.mem_add.mp member with earlier | answered
    · exact before.toSender message earlier
    · exact answers message answered
  · have paid := before.paid
    simp only [Session.load, Session.budget, load_say_toSender] at paid ⊢
    rw [budget_retried]
    omega

theorem ToSender.load_of_farewell (protocol : Protocol α D) (mark : ℕ)
    (farewell : Farewell message) :
    message.Fair protocol ∧ message.load protocol mark = 0 := by
  rcases farewell with rfl | rfl | rfl
  · exact ⟨trivial, rfl⟩
  · exact ⟨trivial, rfl⟩
  · exact ⟨trivial, rfl⟩

theorem Receiver.Responds.fair (protocol : Protocol α D) {receiver : Receiver α D}
    {answer : ToSender} (mark : ℕ) (responds : receiver.Responds answer) :
    answer.Fair protocol ∧ (receiver.phase ≠ .transferring → answer.load protocol mark = 0) := by
  unfold Responds at responds
  split at responds
  · rw [responds]
    exact ⟨trivial, fun _ => rfl⟩
  · rename_i transferring
    rw [responds]
    exact ⟨trivial, fun other => absurd transferring other⟩
  · rw [responds]
    exact ⟨trivial, fun _ => rfl⟩
  · have gone := load_of_farewell protocol mark responds
    exact ⟨gone.1, fun _ => gone.2⟩
  · have gone := load_of_farewell protocol mark responds
    exact ⟨gone.1, fun _ => gone.2⟩

/-- An answer of the receiver costs no more than the message has paid. -/
structure Receiver.Pays (protocol : Protocol α D) (mark : ℕ) (receiver : Receiver α D)
    (message : ToReceiver α D) (next : Receiver α D) (answer : List ToSender) : Prop where
  fair : next.Fair protocol
  answers : ∀ reply ∈ answer, reply.Fair protocol
  pays : (answer.map (ToSender.load protocol mark)).sum + Receiver.load protocol (some next) ≤
    message.load protocol + Receiver.load protocol (some receiver)

namespace Receiver.Pays

variable {mark : ℕ} {receiver after : Receiver α D} {message : ToReceiver α D} {answer : ToSender}

theorem ignores (fair : receiver.Fair protocol) : receiver.Pays protocol mark message receiver [] :=
  ⟨fair, by simp, by simp⟩

theorem answers_one (fair : after.Fair protocol) (phase : after.phase = receiver.phase)
    (reply : answer.Fair protocol) (pays : answer.load protocol mark ≤ message.load protocol) :
    receiver.Pays protocol mark message after [answer] := by
  refine ⟨fair, ?_, ?_⟩
  · exact List.forall_mem_singleton.mpr reply
  · simp only [List.map_cons, List.map_nil, List.sum_cons, List.sum_nil, Receiver.load, phase]
    omega

theorem ends {said : List ToSender} (fair : after.Fair protocol) (isOver : after.phase ≠ .awaiting)
    (parting : ∀ other ∈ said, other.Fair protocol ∧ other.load protocol mark = 0) :
    receiver.Pays protocol mark message after said := by
  refine ⟨fair, fun other member => (parting other member).1, ?_⟩
  have nothing : (said.map (ToSender.load protocol mark)).sum = 0 := by
    apply List.sum_eq_zero
    intro load member
    rcases List.mem_map.mp member with ⟨other, said, rfl⟩
    exact (parting other said).2
  rw [nothing, load, if_neg isOver]
  omega

end Receiver.Pays

theorem Receiver.Fair.reacts {mark : ℕ} {receiver after : Receiver α D} {message : ToReceiver α D}
    {answer : List ToSender} (fair : receiver.Fair protocol) (heard : message.Fair protocol mark)
    (reacts : ReceiverReacts protocol disturbed receiver message after answer files) :
    receiver.Pays protocol mark message after answer := by
  cases reacts with
  | ignore => exact .ignores fair
  | respond responds =>
    exact .answers_one fair rfl (responds.fair protocol mark).1 (load_le _ _)
  | pull =>
    refine .answers_one ⟨fair.bounded, ?_⟩ rfl rfl (load_le _ _)
    intro message due
    cases due
    exact rfl
  | write _ _ fits =>
    refine .answers_one ⟨fits, ?_⟩ rfl rfl (load_request_le le_rfl)
    intro message due
    cases due
    exact rfl
  | writeLast =>
    refine .ends ⟨le_rfl, ?_⟩ (by simp [completed]) (by simp [ToSender.Fair, ToSender.load])
    intro message due
    cases due
    trivial
  | @repeatPull offset data transferring other =>
    refine .answers_one fair rfl rfl ?_
    rcases other with known | ahead
    · exact load_request_le known
    · rw [load_request, if_pos (ahead.trans_le heard.1)]
      exact zero_le _
  | note =>
    refine .answers_one ⟨fair.bounded, fair.retry⟩ rfl rfl ?_
    have last : mark = protocol.size := heard
    have bounded := fair.bounded
    rw [load_request, if_pos (by omega)]
    exact zero_le _
  | finish =>
    refine .ends ⟨fair.bounded, ?_⟩ (by simp [completed]) (by simp [ToSender.Fair, ToSender.load])
    intro message due
    cases due
    trivial
  | remind isOver responds =>
    have replies := responds.fair protocol mark
    have other : receiver.phase ≠ .transferring := by
      rcases isOver with done | gone
      · simp [done]
      · simp [gone]
    refine .answers_one fair rfl replies.1 ?_
    rw [replies.2 other]
    exact zero_le _
  | refuse =>
    exact .answers_one fair rfl trivial (zero_le _)
  | stop _ _ farewell said =>
    refine .ends ⟨zero_le _, ?_⟩ (by simp [stopped]) ?_
    · intro message due
      exact (load_of_farewell protocol mark (farewell message due)).1
    · rcases said with rfl | rfl
      · simp
      · simp [ToSender.Fair, ToSender.load]

theorem Traffic.stops {next : Option (Sender α D)} {toReceiver : Multiset (ToReceiver α D)}
    {toSender : Multiset ToSender} {receiver : Option (Receiver α D)} {yielded : List α}
    {published : List (List α)} {duplicated retried : ℕ} (before : Traffic protocol session)
    (issued : session.issued = true) (isOver : ∀ sender, next = some sender → ¬sender.phase.Active)
    (silent : ∀ sender, next = some sender → ∀ message, sender.retry = some message →
      ¬message.IsChunk) :
    Traffic protocol { session with
      sender := next, receiver, toReceiver, toSender, yielded, published
      duplicated := session.duplicated + duplicated, retried := session.retried + retried } := by
  refine ⟨?_, ?_, ?_, silent, ?_⟩
  · intro unissued
    simp [issued] at unissued
  · intro unissued
    simp [issued] at unissued
  · apply before.spent.trans
    apply Nat.mul_le_mul_left
    dsimp only
    omega
  · intro sender present active
    exact absurd active (isOver sender present)

theorem Traffic.works (issued : session.issued = true) (present : session.sender = some sender)
    (silent : ∀ message, sender.retry = some message → ¬message.IsChunk)
    (busy : Busy protocol session sender) : Traffic protocol session := by
  refine ⟨?_, ?_, busy.spent, ?_, ?_⟩
  · intro unissued
    simp [issued] at unissued
  · intro unissued
    simp [issued] at unissued
  · intro other found
    rw [present] at found
    cases found
    exact silent
  · intro _ found _
    rw [present] at found
    cases found
    exact busy

theorem Traffic.issued_of_present (before : Traffic protocol session)
    (present : session.sender = some sender) : session.issued = true := by
  by_contra unissued
  have absent := before.absent (by simpa using unissued)
  rw [present] at absent
  cases absent

theorem not_isChunk_of_farewell {retry : Option (ToReceiver α D)} (farewell : Farewell retry) :
    ∀ message, retry = some message → ¬message.IsChunk := by
  intro _ due
  rcases farewell with rfl | rfl | rfl | rfl
  · cases due
  · cases due
    exact id
  · cases due
    exact id
  · cases due
    exact id

theorem SenderReacts.silent
    (reacts : SenderReacts protocol disturbed sender message next answer data)
    (silent : ∀ message, sender.retry = some message → ¬message.IsChunk) :
    ∀ message, next.retry = some message → ¬message.IsChunk := by
  cases reacts with
  | ignore => exact silent
  | await | start => simp
  | echo | resend => exact silent
  | serve => simp [served]
  | conclude => simp [concluded, ToReceiver.IsChunk]
  | refuse => exact silent
  | finish => simp [finished, ToReceiver.IsChunk]
  | stop _ _ farewell => exact not_isChunk_of_farewell farewell

theorem SenderReacts.idle (reacts : SenderReacts protocol disturbed sender message next answer data)
    (isOver : ¬sender.phase.Active) : next = sender ∧ answer = [] := by
  have phase : sender.phase ≠ .offered ∧ sender.phase ≠ .awaiting ∧
      sender.phase ≠ .transferring := by
    simpa [Phase.Active] using isOver
  cases reacts with
  | ignore => exact ⟨rfl, rfl⟩
  | await offered => exact absurd offered phase.1
  | start waiting => exact absurd waiting (by simp [phase])
  | echo transferring | resend transferring
  | serve transferring | conclude transferring => exact absurd transferring phase.2.2
  | refuse waiting => exact absurd waiting (by simp [phase])
  | finish transferring => exact absurd transferring phase.2.2
  | stop active => exact absurd active isOver

theorem Traffic.senderReacts (before : Traffic protocol session)
    (present : session.sender = some sender) (arrives : session.toSender = message ::ₘ rest)
    (reacts : SenderReacts protocol disturbed sender message next answer data) :
    Traffic protocol { session with
      sender := some next, toSender := rest
      toReceiver := session.toReceiver + ofList answer
      yielded := session.yielded ++ data, sent := session.sent + chunks answer } := by
  have issued := before.issued_of_present present
  have silent := reacts.silent (before.silent sender present)
  have stopped : ¬next.phase.Active → chunks answer = 0 →
      Traffic protocol { session with
        sender := some next, toSender := rest
        toReceiver := session.toReceiver + ofList answer
        yielded := session.yielded ++ data, sent := session.sent + chunks answer } := by
    intro isOver nothing
    rw [nothing]
    apply @Traffic.stops _ _ _ _ _ _ _ _ _ _ 0 0 before issued
    · intro later same
      cases same
      exact isOver
    · intro _ same
      cases same
      exact silent
  by_cases active : sender.phase.Active
  · have busy := before.busy sender present active
    have asked : message.Fair protocol := busy.toSender message (by
      rw [arrives]
      exact mem_cons_self _ _)
    rcases busy.fair.reacts active asked reacts with ⟨isOver, nothing⟩ | replies
    · exact stopped isOver nothing
    · exact .works issued rfl silent (busy.senderReplies arrives replies)
  · rcases reacts.idle active with ⟨same, nothing⟩
    exact stopped (same ▸ active) (by rw [nothing, chunks])

theorem Traffic.senderActs {later : Option (Sender α D)}
    (before : Traffic protocol session) (present : session.sender = some sender)
    (acts : SenderActs disturbed sender later said retries) :
    Traffic protocol { session with
      sender := later, toReceiver := session.toReceiver + Multiset.ofList said
      sent := session.sent + chunks said, retried := session.retried + retries } := by
  have issued := before.issued_of_present present
  cases acts with
  | @retry message due =>
    have silent := before.silent sender present
    have nothing : chunks [message] = 0 := chunks_eq_zero (by simpa using silent message due)
    rw [nothing]
    by_cases active : sender.phase.Active
    · exact .works issued rfl silent ((before.busy sender present active).senderRepeats due)
    · apply @Traffic.stops _ _ _ _ _ _ _ _ _ _ 0 _ before issued
      · intro later same
        cases same
        exact active
      · intro later same
        cases same
        exact silent
  | stop _ _ farewell parting =>
    have nothing : chunks said = 0 := by
      rcases parting with rfl | rfl
      · rfl
      · rfl
    rw [nothing]
    apply @Traffic.stops _ _ _ _ _ _ _ _ _ _ 0 _ before issued
    · intro later same
      cases same
      simp [Phase.Active, Sender.stopped]
    · intro later same
      cases same
      exact not_isChunk_of_farewell farewell
  | forget =>
    apply @Traffic.stops _ _ _ _ _ _ _ _ _ _ 0 _ before issued
    · intro later absent
      cases absent
    · intro _ absent
      cases absent

theorem Traffic.passes {toSender : Multiset ToSender} {receiver : Option (Receiver α D)}
    {published : List (List α)} {duplicated retried : ℕ} (before : Traffic protocol session)
    (issued : session.issued = true) (busy : ∀ sender, Busy protocol session sender →
      Busy protocol { session with
        receiver, toReceiver, toSender, published
        duplicated := session.duplicated + duplicated, retried := session.retried + retried }
        sender) :
    Traffic protocol { session with
      receiver, toReceiver, toSender, published
      duplicated := session.duplicated + duplicated, retried := session.retried + retried } := by
  by_cases working : ∃ sender, session.sender = some sender ∧ sender.phase.Active
  · rcases working with ⟨sender, present, active⟩
    exact .works issued present (before.silent sender present)
      (busy sender (before.busy sender present active))
  · apply before.stops issued
    · intro sender present active
      exact working ⟨sender, present, active⟩
    · exact before.silent

variable {rest : Multiset (ToReceiver α D)}

variable (before : Busy protocol session sender)
include before

theorem Busy.receiverReacts {receiver after : Receiver α D}
    {message : ToReceiver α D} {answer : List ToSender}
    (present : session.receiver = some receiver) (arrives : session.toReceiver = message ::ₘ rest)
    (reacts : ReceiverReacts protocol disturbed receiver message after answer files) :
    Busy protocol { session with
      receiver := some after, toReceiver := rest
      toSender := session.toSender + ofList answer
      published := session.published ++ files, retried := session.retried + 0 } sender := by
  have heard := before.toReceiver message (by
    rw [arrives]
    exact mem_cons_self _ _)
  have replies := (before.receiver receiver present).reacts heard reacts
  apply before.receiverSays
  · intro _ member
    rw [arrives]
    exact mem_cons_of_mem member
  · intro _ same
    cases same
    exact replies.fair
  · exact replies.answers
  · have pays := replies.pays
    rw [arrives, load_cons_toReceiver, present]
    omega

theorem Busy.receiverOpens {next : Option (Receiver α D)}
    {answer : List ToSender} (arrives : session.toReceiver = .offer ::ₘ rest)
    (opens : ReceiverOpens disturbed next answer) :
    Busy protocol { session with
      receiver := next, toReceiver := rest
      toSender := session.toSender + Multiset.ofList answer
      retried := session.retried + 0 } sender := by
  have heard : ∀ message ∈ rest, message ∈ session.toReceiver := by
    intro message member
    rw [arrives]
    exact Multiset.mem_cons_of_mem member
  have worth : (ToReceiver.offer : ToReceiver α D).load protocol = protocol.remaining 0 := rfl
  cases opens with
  | ask =>
    apply before.receiverSays heard
    · intro receiver same
      cases same
      exact ⟨Nat.zero_le _, by simp [Receiver.asked]⟩
    · simp [ToSender.Fair]
    · rw [arrives, load_cons_toReceiver, worth]
      simp only [List.map_cons, List.map_nil, List.sum_cons, List.sum_nil, ToSender.load,
        Receiver.load, Receiver.asked, if_true]
      omega
  | accept =>
    apply before.receiverSays heard
    · intro receiver same
      cases same
      refine ⟨Nat.zero_le _, ?_⟩
      intro message due
      cases due
      trivial
    · simp [ToSender.Fair]
    · rw [arrives, load_cons_toReceiver, worth]
      simp [ToSender.load, Receiver.load, Receiver.accepted]
      omega
  | refuse _ isOver =>
    apply before.receiverSays heard
    · intro receiver same
      rcases isOver receiver same with ⟨retry, rfl, farewell⟩
      refine ⟨Nat.zero_le _, ?_⟩
      intro message due
      exact (ToSender.load_of_farewell protocol 0 (farewell message due)).1
    · simp [ToSender.Fair]
    · have gone : Receiver.load protocol next = 0 := by
        cases next with
        | none => rfl
        | some receiver =>
          rcases isOver receiver rfl with ⟨_, rfl, _⟩
          rfl
      rw [arrives, load_cons_toReceiver, gone]
      simp [ToSender.load]
      omega

theorem Busy.receiverActs {receiver : Receiver α D}
    {next : Option (Receiver α D)} {said : List ToSender}
    (present : session.receiver = some receiver)
    (acts : ReceiverActs disturbed receiver next said retries) :
    Busy protocol { session with
      receiver := next, toSender := session.toSender + ofList said
      retried := session.retried + retries } sender := by
  have fair := before.receiver receiver present
  have heard : ∀ message ∈ session.toReceiver, message ∈ session.toReceiver := fun _ => id
  cases acts with
  | accept waiting =>
    apply before.receiverSays heard
    · intro record same
      cases same
      refine ⟨fair.bounded, ?_⟩
      intro message due
      cases due
      trivial
    · simp [ToSender.Fair]
    · simp [ToSender.load, Receiver.load, Receiver.accepted, present, waiting]
  | @retry message due =>
    apply before.receiverSays heard
    · intro record same
      cases same
      exact fair
    · simpa using fair.retry message due
    · have worth := message.load_le_retries protocol sender.mark
      rw [present]
      simp only [List.map_cons, List.map_nil, List.sum_cons, List.sum_nil]
      omega
  | stop _ _ farewell parting =>
    apply before.receiverSays heard
    · intro record same
      cases same
      refine ⟨zero_le _, ?_⟩
      intro message due
      exact (load_of_farewell protocol 0 (farewell message due)).1
    · intro message member
      exact (load_of_farewell protocol 0 (parting message member)).1
    · have nothing : (said.map (ToSender.load protocol sender.mark)).sum = 0 := by
        apply List.sum_eq_zero
        intro load member
        rcases List.mem_map.mp member with ⟨message, last, rfl⟩
        exact (load_of_farewell protocol sender.mark (parting message last)).2
      rw [nothing]
      simp [Receiver.load, Receiver.stopped]
  | forget =>
    apply before.receiverSays heard
    · intro _ absent
      cases absent
    · simp
    · simp [Receiver.load]

theorem Busy.receiverMissing {message : ToReceiver α D} {answer : List ToSender}
    (arrives : session.toReceiver = message ::ₘ rest)
    (said : answer = [] ∨ answer = [.result false] ∨ answer = [.cancel]) :
    Busy protocol { session with
      toReceiver := rest, toSender := session.toSender + ofList answer
      retried := session.retried + 0 } sender := by
  apply before.receiverSays
  · intro _ member
    rw [arrives]
    exact mem_cons_of_mem member
  · exact before.receiver
  · rcases said with rfl | rfl | rfl
    · simp
    · simp [ToSender.Fair]
    · simp [ToSender.Fair]
  · have nothing : (answer.map (load protocol sender.mark)).sum = 0 := by
      rcases said with rfl | rfl | rfl
      · rfl
      · rfl
      · rfl
    rw [nothing, arrives, load_cons_toReceiver]
    omega

theorem Busy.loseToSender {rest : Multiset ToSender}
    (arrives : session.toSender = message ::ₘ rest) :
    Busy protocol { session with toSender := rest } sender := by
  refine ⟨before.fair, before.toReceiver, ?_, before.receiver, ?_⟩
  · intro other member
    exact before.toSender other (arrives ▸ Multiset.mem_cons_of_mem member)
  · have paid := before.paid
    simp only [Session.load, Session.budget, arrives, load_cons_toSender] at paid ⊢
    omega

theorem Busy.loseToReceiver {message : ToReceiver α D}
    (arrives : session.toReceiver = message ::ₘ rest) :
    Busy protocol { session with toReceiver := rest } sender := by
  refine ⟨before.fair, ?_, before.toSender, before.receiver, ?_⟩
  · intro other member
    exact before.toReceiver other (arrives ▸ Multiset.mem_cons_of_mem member)
  · have paid := before.paid
    simp only [Session.load, Session.budget, arrives, load_cons_toReceiver] at paid ⊢
    omega

theorem Busy.duplicateToSender (inFlight : message ∈ session.toSender) :
    Busy protocol { session with
      toSender := message ::ₘ session.toSender, duplicated := session.duplicated + 1 } sender := by
  refine ⟨before.fair, before.toReceiver, ?_, before.receiver, ?_⟩
  · intro other member
    rcases Multiset.mem_cons.mp member with rfl | earlier
    · exact before.toSender _ inFlight
    · exact before.toSender other earlier
  · have paid := before.paid
    have worth : message.load protocol sender.mark ≤ _ := ToSender.load_le _ _
    simp only [Session.load, Session.budget, load_cons_toSender] at paid ⊢
    rw [budget_duplicated]
    omega

theorem Busy.duplicateToReceiver {message : ToReceiver α D}
    (inFlight : message ∈ session.toReceiver) :
    Busy protocol { session with
      toReceiver := message ::ₘ session.toReceiver, duplicated := session.duplicated + 1 }
      sender := by
  refine ⟨before.fair, ?_, before.toSender, before.receiver, ?_⟩
  · intro other member
    rcases Multiset.mem_cons.mp member with rfl | earlier
    · exact before.toReceiver _ inFlight
    · exact before.toReceiver other earlier
  · have paid := before.paid
    have worth : message.load protocol ≤ _ := ToReceiver.load_le _
    simp only [Session.load, Session.budget, load_cons_toReceiver] at paid ⊢
    rw [budget_duplicated]
    omega

omit before

theorem Traffic.step (before : Traffic protocol session)
    (step : Step protocol disturbed session later) : Traffic protocol later := by
  by_cases unissued : session.issued = false
  · rcases before.blank unissued with ⟨noReceiver, nothing, silence, unsent⟩
    rw [step.first (before.absent unissued) noReceiver nothing silence]
    apply Traffic.works rfl rfl
    · intro message due
      cases due
      exact id
    · refine ⟨⟨zero_le _, by simp [fresh], ?_⟩, ?_, ?_, ?_, ?_⟩
      · intro _ due
        cases due
        trivial
      · simp [nothing, ToReceiver.Fair]
      · simp [silence]
      · simp [noReceiver]
      · simp only [Session.load, Session.budget, unsent, nothing, silence, noReceiver,
          Multiset.map_cons, Multiset.sum_cons, Multiset.map_zero, Multiset.sum_zero,
          ToReceiver.load, Receiver.load, Nat.mul_add]
        omega
  have issued : session.issued = true := by simpa using unissued
  have passes := fun duplicated retried receiver toReceiver toSender published =>
    @Traffic.passes α D protocol session toReceiver toSender receiver published duplicated retried
      before issued
  cases step with
  | issue fresh => exact absurd fresh unissued
  | senderReacts present arrives reacts => exact before.senderReacts present arrives reacts
  | senderMissing absent =>
    apply @Traffic.stops _ _ _ _ _ _ _ _ _ _ 0 0 before issued
    · simp [absent]
    · simp [absent]
  | senderActs present acts => exact before.senderActs present acts
  | receiverReacts present arrives reacts =>
    exact passes 0 0 _ _ _ _ fun sender busy => busy.receiverReacts present arrives reacts
  | receiverOpens _ arrives opens =>
    exact passes 0 0 _ _ _ _ fun sender busy => busy.receiverOpens arrives opens
  | receiverMissing _ arrives _ said =>
    exact passes 0 0 _ _ _ _ fun sender busy => busy.receiverMissing arrives said
  | receiverActs present acts =>
    exact passes 0 _ _ _ _ _ fun sender busy => busy.receiverActs present acts
  | loseToSender arrives =>
    exact passes 0 0 _ _ _ _ fun sender busy => busy.loseToSender arrives
  | loseToReceiver arrives =>
    exact passes 0 0 _ _ _ _ fun sender busy => busy.loseToReceiver arrives
  | duplicateToSender inFlight =>
    exact passes 1 0 _ _ _ _ fun sender busy => busy.duplicateToSender inFlight
  | duplicateToReceiver inFlight =>
    exact passes 1 0 _ _ _ _ fun _ busy => busy.duplicateToReceiver inFlight

end PullTransfer
