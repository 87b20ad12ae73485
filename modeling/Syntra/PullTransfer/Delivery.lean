import Syntra.PullTransfer.Protocol

/-!
# What is published is what was read

In every run of a pull transfer, whatever the channel and the disturbances do, a published file is
the whole of what the source yielded, and the sender believes in success only after a file was
published. The digest plays no part in this.
-/

namespace PullTransfer

open Multiset List Receiver

variable {α D : Type} {protocol : Protocol α D} {disturbed : Prop}

def Slice (yielded : List α) : ToReceiver α D → Prop
  | .chunk offset data => data <+: yielded.drop offset
  | _ => True

variable {message : ToReceiver α D}

theorem Slice.append {yielded : List α} (more : List α) (slice : Slice yielded message) :
    Slice (yielded ++ more) message := by
  cases message with
  | chunk offset data =>
    rcases slice with ⟨after, split⟩
    by_cases within : offset ≤ yielded.length
    · refine ⟨after ++ more, ?_⟩
      rw [drop_append_of_le_length within, ← split, append_assoc]
    · have nothing : yielded.drop offset = [] := drop_of_length_le (by omega)
      have empty : data = [] := (append_eq_nil_iff.mp (split.trans nothing)).1
      rw [empty]
      exact nil_prefix
  | _ => trivial

/-- All that the sender keeps is of the content that it has read so far. -/
structure Sender.Sound (yielded : List α) (sender : Sender α D) : Prop where
  reading : sender.phase.Active → sender.read = yielded ∧ sender.position = yielded.length
  cached : ∀ offset length answer, sender.cache = some (offset, length, answer) →
    Slice yielded answer
  retried : ∀ message, sender.retry = some message → Slice yielded message

/-- All that the receiver has is of the content that was read so far. -/
structure Receiver.Sound (yielded : List α) (receiver : Receiver α D) : Prop where
  waiting : receiver.phase = .awaiting → receiver.content = [] ∧ receiver.position = 0
  writing : receiver.phase = .transferring →
    receiver.content <+: yielded ∧ receiver.position = receiver.content.length

/-- Nothing is published but the whole content as it was read. -/
structure Delivery (protocol : Protocol α D) (session : Session α D) : Prop where
  unissued : session.issued = false → session.sender = none ∧ session.yielded = []
  bounded : session.yielded.length ≤ protocol.size
  sender : ∀ sender, session.sender = some sender → sender.Sound session.yielded
  inFlight : ∀ message ∈ session.toReceiver, Slice session.yielded message
  receiver : ∀ receiver, session.receiver = some receiver → receiver.Sound session.yielded
  published : ∀ content ∈ session.published,
    content = session.yielded ∧ session.yielded.length = protocol.size
  announced : .result true ∈ session.toSender → session.published ≠ []
  completed : ∀ receiver, session.receiver = some receiver →
    receiver.phase = .completed ∨ receiver.retry = some (.result true) → session.published ≠ []
  believed : ∀ sender, session.sender = some sender → sender.phase = .completed →
    session.published ≠ []

theorem Delivery.initial : Delivery protocol .initial where
  unissued _ := ⟨rfl, rfl⟩
  bounded := Nat.zero_le _
  sender _ absent := by cases absent
  inFlight message absent := by simp [Session.initial] at absent
  receiver _ absent := by cases absent
  published _ absent := by simp [Session.initial] at absent
  announced absent := by simp [Session.initial] at absent
  completed _ absent := by cases absent
  believed _ absent := by cases absent

variable {session later : Session α D}

theorem Delivery.loseToSender {message : ToSender} {rest : Multiset ToSender}
    (before : Delivery protocol session) (arrives : session.toSender = message ::ₘ rest) :
    Delivery protocol { session with toSender := rest } :=
  { before with
    announced := fun member => before.announced (arrives ▸ mem_cons_of_mem member) }

theorem Delivery.loseToReceiver {rest : Multiset (ToReceiver α D)}
    (before : Delivery protocol session) (arrives : session.toReceiver = message ::ₘ rest) :
    Delivery protocol { session with toReceiver := rest } :=
  { before with
    inFlight := fun other member =>
      before.inFlight other (arrives ▸ mem_cons_of_mem member) }

namespace Sender.Sound

variable {yielded data : List α} {sender : Sender α D}

theorem fresh : (Sender.fresh : Sender α D).Sound [] where
  reading _ := ⟨rfl, rfl⟩
  cached _ _ _ absent := by cases absent
  retried message due := by
    cases due
    trivial

variable {retry : Option (ToReceiver α D)} {length : ℕ}

theorem farewell (farewell : Sender.Farewell retry) :
    ∀ message, retry = some message → Slice yielded message := by
  intro _ due
  rcases farewell with rfl | rfl | rfl | rfl <;> cases due <;> trivial

theorem stopped (farewell : Sender.Farewell retry) :
    (sender.stopped retry).Sound yielded where
  reading active := by simp [Phase.Active, Sender.stopped] at active
  cached _ _ _ absent := by cases absent
  retried := Sound.farewell farewell

theorem served (sound : sender.Sound yielded) (transferring : sender.phase = .transferring) :
    (sender.served length data).Sound (yielded ++ data) where
  reading active := by
    have reading := sound.reading (.inr (.inr transferring))
    simp [Sender.served, reading]
  cached offset length answer cached := by
    have reading := sound.reading (.inr (.inr transferring))
    cases cached
    simp [Slice, reading]
  retried _ absent := by cases absent

theorem concluded (sound : sender.Sound yielded) :
    (sender.concluded protocol length).Sound yielded where
  reading := sound.reading
  cached offset length answer cached := by
    cases cached
    trivial
  retried message due := by
    cases due
    trivial

theorem finished : sender.finished.Sound yielded where
  reading active := by simp [Phase.Active, Sender.finished] at active
  cached _ _ _ absent := by cases absent
  retried message due := by
    cases due
    trivial

end Sender.Sound

theorem Delivery.senderChanges {next : Option (Sender α D)} {said : List (ToReceiver α D)}
    {data : List α} {sent retried : ℕ} (before : Delivery protocol session)
    (issued : session.issued = true) (fits : session.yielded.length + data.length ≤ protocol.size)
    (unpublished : data ≠ [] → session.published = [])
    (sound : ∀ sender, next = some sender → sender.Sound (session.yielded ++ data))
    (slices : ∀ message ∈ said, Slice (session.yielded ++ data) message)
    (believes : ∀ sender, next = some sender → sender.phase = .completed → session.published ≠ []) :
    Delivery protocol { session with
      sender := next, toReceiver := session.toReceiver + ofList said
      yielded := session.yielded ++ data, sent, retried } :=
  { before with
    unissued := fun unissued => by simp [issued] at unissued
    bounded := by simpa using fits
    sender := sound
    inFlight := by
      intro message member
      rcases mem_add.mp member with earlier | answered
      · exact (before.inFlight message earlier).append data
      · exact slices message answered
    receiver := by
      intro receiver present
      have sound := before.receiver receiver present
      refine ⟨sound.waiting, ?_⟩
      intro transferring
      rcases sound.writing transferring with ⟨begins, sized⟩
      exact ⟨begins.trans (prefix_append _ _), sized⟩
    published := by
      intro content member
      by_cases nothing : data = []
      · simpa [nothing] using before.published content member
      · simp [unpublished nothing] at member
    believed := believes }

variable {sender : Sender α D}

theorem Delivery.issued_of_present (before : Delivery protocol session)
    (present : session.sender = some sender) : session.issued = true := by
  by_contra unissued
  have absent := (before.unissued (by simpa using unissued)).1
  rw [present] at absent
  cases absent

theorem Delivery.unpublished (before : Delivery protocol session)
    (present : session.sender = some sender) (transferring : sender.phase = .transferring)
    (more : sender.position < protocol.size) : session.published = [] := by
  have reading := (before.sender sender present).reading (.inr (.inr transferring))
  apply eq_nil_iff_forall_not_mem.mpr
  intro content member
  have whole := (before.published content member).2
  omega

namespace SenderReacts

variable {sender next : Sender α D} {message : ToSender} {answer : List (ToReceiver α D)}
  {yielded data : List α} (reacts : SenderReacts protocol disturbed sender message next answer data)
include reacts

theorem sound (sound : sender.Sound yielded) : next.Sound (yielded ++ data) := by
  cases reacts with
  | await offered =>
    rw [append_nil]
    exact ⟨fun _ => sound.reading (.inl offered), sound.cached, fun _ absent => by cases absent⟩
  | start waiting =>
    rw [append_nil]
    exact ⟨fun _ => sound.reading (waiting.imp_right .inl), sound.cached,
      fun _ absent => by cases absent⟩
  | serve transferring => exact sound.served transferring
  | conclude => simpa using sound.concluded
  | finish => exact .finished
  | stop _ _ farewell => exact .stopped farewell
  | _ => rwa [append_nil]

theorem slices (sound : sender.Sound yielded) :
    ∀ reply ∈ answer, Slice (yielded ++ data) reply := by
  cases reacts with
  | resend _ cached => simpa using sound.cached _ _ _ cached
  | serve transferring => simp [Slice, sound.reading (.inr (.inr transferring))]
  | stop _ _ _ said => rcases said with rfl | rfl <;> simp [Slice]
  | _ => simp [Slice]

theorem completed (done : next.phase = .completed) :
    sender.phase = .completed ∨ message = .result true := by
  cases reacts with
  | serve | conclude => exact .inl done
  | finish => exact .inr rfl
  | await | start | stop => cases done
  | _ => exact .inl done

theorem yields : data = [] ∨ sender.phase = .transferring ∧ sender.position < protocol.size ∧
    sender.position + data.length ≤ protocol.size := by
  cases reacts with
  | serve transferring more => exact .inr ⟨transferring, more, by omega⟩
  | _ => exact .inl rfl

end SenderReacts

theorem Delivery.senderReacts {next : Sender α D} {message : ToSender}
    {answer : List (ToReceiver α D)} {data : List α} {sent : ℕ}
    (before : Delivery protocol session) (present : session.sender = some sender)
    (received : message = .result true → session.published ≠ [])
    (reacts : SenderReacts protocol disturbed sender message next answer data) :
    Delivery protocol { session with
      sender := some next, toReceiver := session.toReceiver + ofList answer
      yielded := session.yielded ++ data, sent } := by
  have sound := before.sender sender present
  apply before.senderChanges (before.issued_of_present present)
  · rcases reacts.yields with rfl | ⟨transferring, -, _⟩
    · exact before.bounded
    · rwa [← (sound.reading (.inr (.inr transferring))).2]
  · intro some
    rcases reacts.yields with nothing | ⟨transferring, more, -⟩
    · exact absurd nothing some
    · exact before.unpublished present transferring more
  · rintro _ ⟨⟩
    exact reacts.sound sound
  · exact reacts.slices sound
  · rintro _ ⟨⟩ done
    exact (reacts.completed done).elim (before.believed sender present) received

theorem Delivery.senderActs {next : Option (Sender α D)} {said : List (ToReceiver α D)}
    {retries sent retried : ℕ} (before : Delivery protocol session)
    (present : session.sender = some sender)
    (acts : SenderActs disturbed sender next said retries) :
    Delivery protocol { session with
      sender := next, toReceiver := session.toReceiver + ofList said, sent, retried } := by
  have issued := before.issued_of_present present
  have sound := before.sender sender present
  have changes := @Delivery.senderChanges α D protocol session next said [] sent retried before
    issued (by simpa using before.bounded) (by simp)
  simp only [append_nil] at changes
  cases acts with
  | retry due =>
    apply changes
    · intro later same
      cases same
      exact sound
    · simpa using sound.retried _ due
    · intro later same
      cases same
      exact before.believed sender present
  | stop _ _ farewell silent =>
    apply changes
    · intro later same
      cases same
      exact .stopped farewell
    · rcases silent with rfl | rfl <;> simp [Slice]
    · intro later same done
      cases same
      cases done
  | forget =>
    apply changes
    · intro later same
      cases same
    · simp
    · intro _ same
      cases same

variable {next : Option (Receiver α D)}

theorem Delivery.receiverChanges {said : List ToSender} {files : List (List α)} {retried : ℕ}
    (before : Delivery protocol session)
    (sound : ∀ receiver, next = some receiver → receiver.Sound session.yielded)
    (copies : ∀ content ∈ files, content = session.yielded ∧ session.yielded.length = protocol.size)
    (truthful : .result true ∈ said → session.published ++ files ≠ [])
    (done : ∀ receiver, next = some receiver →
      receiver.phase = .completed ∨ receiver.retry = some (.result true) →
      session.published ++ files ≠ []) :
    Delivery protocol { session with
      receiver := next, toSender := session.toSender + ofList said
      published := session.published ++ files, retried } :=
  { before with
    receiver := sound
    published := by
      intro content member
      rcases mem_append.mp member with earlier | new
      · exact before.published content earlier
      · exact copies content new
    announced := by
      intro member
      rcases mem_add.mp member with earlier | answered
      · exact append_ne_nil_of_left_ne_nil (before.announced earlier) files
      · exact truthful answered
    completed := done
    believed := by
      intro sender present finished
      exact append_ne_nil_of_left_ne_nil (before.believed sender present finished) files }

namespace Receiver.Sound

variable {yielded : List α} {receiver : Receiver α D}

theorem asked : (asked : Receiver α D).Sound yielded where
  waiting _ := ⟨rfl, rfl⟩
  writing transferring := by cases transferring

theorem accepted (sound : receiver.Sound yielded) (waiting : receiver.phase = .awaiting) :
    receiver.accepted.Sound yielded where
  waiting awaiting := by cases awaiting
  writing _ := by
    rcases sound.waiting waiting with ⟨empty, zero⟩
    simp [Receiver.accepted, empty, zero]

theorem stopped {retry : Option ToSender} :
    (stopped retry : Receiver α D).Sound yielded where
  waiting awaiting := by cases awaiting
  writing transferring := by cases transferring

theorem completed : receiver.completed.Sound yielded where
  waiting awaiting := by cases awaiting
  writing transferring := by cases transferring

theorem content_append {data : List α} (sound : receiver.Sound yielded)
    (transferring : receiver.phase = .transferring)
    (slice : data <+: yielded.drop receiver.position) :
    receiver.content ++ data <+: yielded ∧
      receiver.position + data.length = (receiver.content ++ data).length := by
  rcases sound.writing transferring with ⟨⟨_, begins⟩, sized⟩
  rcases slice with ⟨after, split⟩
  rw [← begins, sized, drop_left] at split
  refine ⟨⟨after, ?_⟩, ?_⟩
  · rw [append_assoc, split, begins]
  · rw [length_append, sized]

end Receiver.Sound

theorem Delivery.eq_yielded {content : List α} (before : Delivery protocol session)
    (begins : content <+: session.yielded) (all : content.length = protocol.size) :
    content = session.yielded ∧ session.yielded.length = protocol.size := by
  have bounded := before.bounded
  have shorter := begins.length_le
  have same : content = session.yielded := begins.eq_of_length (by omega)
  exact ⟨same, same ▸ all⟩

theorem not_result_true_of_farewell {message : ToSender} (farewell : Farewell message) :
    message ≠ .result true := by
  rcases farewell with rfl | rfl | rfl <;> simp

theorem completed_of_responds {receiver : Receiver α D}
    (responds : receiver.Responds (.result true)) : receiver.phase = .completed := by
  unfold Responds at responds
  split at responds
  · cases responds
  · cases responds
  · assumption
  · exact absurd rfl (not_result_true_of_farewell responds)
  · exact absurd rfl (not_result_true_of_farewell responds)

namespace ReceiverReacts

variable {receiver next : Receiver α D} {message : ToReceiver α D} {answer : List ToSender}
  {files : List (List α)} {yielded : List α}
  (reacts : ReceiverReacts protocol disturbed receiver message next answer files)
include reacts

theorem sound (sound : receiver.Sound yielded) (slice : Slice yielded message) :
    next.Sound yielded := by
  cases reacts with
  | pull | note => exact ⟨sound.waiting, sound.writing⟩
  | write transferring =>
    refine ⟨fun awaiting => ?_, fun _ => sound.content_append transferring slice⟩
    rw [wrote, transferring] at awaiting
    cases awaiting
  | writeLast | finish => exact .completed
  | stop => exact .stopped
  | _ => exact sound

theorem whole (sound : receiver.Sound yielded) (slice : Slice yielded message) :
    ∀ content ∈ files, content <+: yielded ∧ content.length = protocol.size := by
  cases reacts with
  | writeLast transferring =>
    have ⟨begins, sized⟩ := sound.content_append transferring slice
    exact forall_mem_singleton.mpr ⟨begins, by omega⟩
  | finish transferring =>
    have ⟨begins, sized⟩ := sound.writing transferring
    exact forall_mem_singleton.mpr ⟨begins, by omega⟩
  | _ => simp

theorem truthful
    (told : .result true ∈ answer ∨ next.phase = .completed ∨ next.retry = some (.result true)) :
    (receiver.phase = .completed ∨ receiver.retry = some (.result true)) ∨ files ≠ [] := by
  cases reacts with
  | respond responds | remind _ responds =>
    rcases told with told | told
    · cases List.mem_singleton.mp told
      exact .inl (.inl (completed_of_responds responds))
    · exact .inl told
  | pull transferring | write transferring =>
    simp [wrote, transferring] at told
  | writeLast | finish => simp
  | stop _ _ farewell said =>
    rcases told with told | impossible | due
    · rcases said with rfl | rfl <;> simp at told
    · cases impossible
    · exact absurd rfl (not_result_true_of_farewell (farewell _ due))
  | _ => exact .inl (by simpa using told)

end ReceiverReacts

theorem Delivery.receiverReacts {receiver next : Receiver α D} {answer : List ToSender}
    {files : List (List α)} (before : Delivery protocol session)
    (present : session.receiver = some receiver) (slice : Slice session.yielded message)
    (reacts : ReceiverReacts protocol disturbed receiver message next answer files) :
    Delivery protocol { session with
      receiver := some next, toSender := session.toSender + ofList answer
      published := session.published ++ files } := by
  have sound := before.receiver receiver present
  have published := fun told => (reacts.truthful told).elim
    (fun earlier => append_ne_nil_of_left_ne_nil (before.completed receiver present earlier) files)
    (append_ne_nil_of_right_ne_nil session.published)
  apply before.receiverChanges
  · rintro _ ⟨⟩
    exact reacts.sound sound slice
  · intro content member
    have ⟨begins, all⟩ := reacts.whole sound slice content member
    exact before.eq_yielded begins all
  · exact fun told => published (.inl told)
  · rintro _ ⟨⟩ done
    exact published (.inr done)

theorem Delivery.receiverOpens {answer : List ToSender} (before : Delivery protocol session)
    (opens : ReceiverOpens disturbed next answer) :
    Delivery protocol { session with
      receiver := next, toSender := session.toSender + ofList answer } := by
  have changes := @Delivery.receiverChanges α D protocol session next answer [] session.retried
    before
  simp only [append_nil] at changes
  cases opens with
  | ask =>
    apply changes
    · intro later same
      cases same
      exact .asked
    · simp
    · simp
    · intro later same finished
      cases same
      simp [asked] at finished
  | accept =>
    apply changes
    · intro later same
      cases same
      exact Sound.asked.accepted rfl
    · simp
    · simp
    · intro later same finished
      cases same
      simp [asked, accepted] at finished
  | refuse _ isOver =>
    apply changes
    · intro later same
      rcases isOver later same with ⟨retry, rfl, -⟩
      exact .stopped
    · simp
    · simp
    · intro later same finished
      rcases isOver later same with ⟨_, rfl, farewell⟩
      rcases finished with impossible | due
      · cases impossible
      · exact absurd rfl (not_result_true_of_farewell (farewell _ due))

theorem Delivery.receiverActs {receiver : Receiver α D}
    {said : List ToSender} {retries retried : ℕ} (before : Delivery protocol session)
    (present : session.receiver = some receiver)
    (acts : ReceiverActs disturbed receiver next said retries) :
    Delivery protocol { session with
      receiver := next, toSender := session.toSender + ofList said, retried } := by
  have sound := before.receiver receiver present
  have completed := before.completed receiver present
  have changes := @Delivery.receiverChanges α D protocol session next said [] retried before
  simp only [append_nil] at changes
  cases acts with
  | accept waiting =>
    apply changes
    · intro later same
      cases same
      exact sound.accepted waiting
    · simp
    · simp
    · intro later same finished
      cases same
      simp [accepted] at finished
  | retry due =>
    apply changes
    · intro later same
      cases same
      exact sound
    · simp
    · intro told
      rw [List.mem_singleton] at told
      subst told
      exact completed (.inr due)
    · intro later same
      cases same
      exact completed
  | stop _ _ farewell parting =>
    apply changes
    · intro later same
      cases same
      exact .stopped
    · simp
    · intro told
      exact absurd rfl (not_result_true_of_farewell (parting _ told))
    · intro later same finished
      cases same
      rcases finished with impossible | due
      · cases impossible
      · exact absurd rfl (not_result_true_of_farewell (farewell _ due))
  | forget =>
    apply changes
    · intro later same
      cases same
    · simp
    · simp
    · intro _ same
      cases same

theorem Delivery.step (before : Delivery protocol session)
    (step : Step protocol disturbed session later) : Delivery protocol later := by
  cases step with
  | issue fresh =>
    rcases before.unissued fresh with ⟨-, nothing⟩
    exact { before with
      unissued := fun unissued => by cases unissued
      sender := by
        intro sender same
        cases same
        rw [nothing]
        exact .fresh
      inFlight := by
        intro message member
        rcases mem_cons.mp member with rfl | earlier
        · trivial
        · exact before.inFlight message earlier
      believed := by
        intro _ same finished
        cases same
        cases finished }
  | senderReacts present arrives reacts =>
    apply (before.loseToSender arrives).senderReacts present _ reacts
    rintro rfl
    apply before.announced
    rw [arrives]
    exact mem_cons_self _ _
  | senderMissing _ arrives said =>
    exact { before.loseToSender arrives with
      inFlight := by
        intro message member
        rcases mem_add.mp member with earlier | answered
        · exact before.inFlight message earlier
        · rcases said with rfl | rfl | rfl
          · cases answered
          · rw [List.mem_singleton.mp answered]
            trivial
          · rw [List.mem_singleton.mp answered]
            trivial }
  | senderActs present acts => exact before.senderActs present acts
  | receiverReacts present arrives reacts =>
    apply (before.loseToReceiver arrives).receiverReacts present _ reacts
    apply before.inFlight
    rw [arrives]
    exact mem_cons_self _ _
  | receiverOpens _ arrives opens => exact (before.loseToReceiver arrives).receiverOpens opens
  | receiverMissing _ arrives _ said =>
    exact { before.loseToReceiver arrives with
      announced := by
        intro member
        rcases mem_add.mp member with earlier | answered
        · exact before.announced earlier
        · rcases said with rfl | rfl | rfl <;> simp at answered }
  | receiverActs present acts => exact before.receiverActs present acts
  | loseToSender arrives => exact before.loseToSender arrives
  | loseToReceiver arrives => exact before.loseToReceiver arrives
  | duplicateToSender inFlight =>
    exact { before with
      announced := by
        intro member
        rcases mem_cons.mp member with same | earlier
        · exact before.announced (same ▸ inFlight)
        · exact before.announced earlier }
  | duplicateToReceiver inFlight =>
    exact { before with
      inFlight := by
        intro message member
        rcases mem_cons.mp member with rfl | earlier
        · exact before.inFlight _ inFlight
        · exact before.inFlight message earlier }

end PullTransfer
