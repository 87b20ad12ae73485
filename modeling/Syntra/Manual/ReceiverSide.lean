import Syntra.Manual.SenderSide

/-!
# The receiving side keeps to the protocol

What a handler does to a record of the receiving side is a move of the abstract receiver. A move
that the protocol allows only to a disturbed receiver comes from a passed deadline or a failing
file.
-/

namespace Syntra.Manual

open ByteFormat Proto Files PullTransfer Record ManualTransferState UInt64 OfferedFile
open List ReceiverReacts

variable {P : Type} {issue : Issue} {record : Record P} {sha256 : Bytes → Digest} {io : Io}
  {now : ℕ} {disturbed : Prop}

/-- What a reply of the receiving side says and publishes, in the terms of the protocol. -/
structure ReceiverReply (issue : Issue) (reply : Reply P) (answer : List ToSender)
    (files : List Bytes) : Prop where
  receiving : reply.record.Receiving issue
  said : (sends reply.actions).map toSender? = answer.map some
  published : publications reply.files = files
  unread : yields reply.files = []

def ReceiverReaction (issue : Issue) (sha256 : Bytes → Digest) (disturbed : Prop)
    (record : Record P) (message : ToReceiver UInt8 Digest) (reply : Reply P) : Prop :=
  ∃ answer files, ReceiverReacts (issue.protocol sha256) disturbed record.asReceiver message
    reply.record.asReceiver answer files ∧ ReceiverReply issue reply answer files

namespace ReceiverReply

theorem same (receiving : record.Receiving issue) : ReceiverReply issue ⟨record, [], []⟩ [] [] :=
  ⟨receiving, rfl, rfl, rfl⟩

theorem tells {later : Record P} {peer : P} {event : ProtoEvent} {answer : ToSender}
    (receiving : later.Receiving issue) (shown : toSender? event = some answer) :
    ReceiverReply issue ⟨later, [.send peer event], []⟩ [answer] [] :=
  ⟨receiving, by simp [shown], rfl, rfl⟩

end ReceiverReply

theorem ReceiverReaction.ignores (receiving : record.Receiving issue)
    (message : ToReceiver UInt8 Digest) :
    ReceiverReaction issue sha256 disturbed record message ⟨record, [], []⟩ :=
  ⟨[], [], .ignore message, .same receiving⟩

namespace Record

theorem asReceiver_of_live (live : record.state.phase ≠ .ended) :
    record.asReceiver =
      { phase := record.state.phase
        position := record.transferred.toNat
        content := ((record.incoming.bind (·.files.lookup fileId)).map (·.file)).getD []
        early := record.earlyDigest
        retry := record.retryEvent.bind toSender? } :=
  if_neg live

theorem asReceiver_of_ended (ended : record.state.phase = .ended) :
    record.asReceiver = .stopped (record.retryEvent.bind toSender?) :=
  if_pos ended

theorem asReceiver_phase (record : Record P) : record.asReceiver.phase = record.state.phase := by
  unfold asReceiver
  split
  · rename_i ended
    rw [ended]
    rfl
  · rfl

theorem asReceiver_active (live : isTerminal record.state = false) :
    record.asReceiver.phase.Active := by
  rw [asReceiver_phase]
  exact phase_active.mpr live

theorem going_of_transferring (transferring : record.state = .transferring) :
    record.state.phase ≠ .ended := by
  simp [transferring, phase]

theorem asReceiver_transferring (transferring : record.state = .transferring) :
    record.asReceiver.phase = .transferring := by
  rw [asReceiver_phase, transferring]
  rfl

theorem Receiving.size_eq (receiving : record.Receiving issue) :
    (issue.protocol sha256).size = record.size.toNat := by
  rw [receiving.size]
  rfl

theorem Receiving.negative (receiving : record.Receiving issue)
    (live : isTerminal record.state = false) :
    ∀ success text, record.finalResult = some (success, text) → success = false := by
  rw [receiving.unsettled live]
  intro _ _ impossible
  cases impossible

theorem Receiving.responds (receiving : record.Receiving issue) :
    ∃ message, toSender? record.offerResponse = some message ∧
      record.asReceiver.Responds message := by
  unfold Receiver.Responds
  rw [asReceiver_phase]
  unfold offerResponse
  cases state : record.state with
  | offering => exact absurd state receiving.asked
  | awaitingAcceptance => exact ⟨.pending, rfl, rfl⟩
  | transferring => exact ⟨.accepted, rfl, rfl⟩
  | completed =>
    rcases receiving.succeeded state with ⟨text, result⟩
    rw [result]
    exact ⟨.result true, rfl, rfl⟩
  | declined => exact ⟨.declined, rfl, .inr (.inr rfl)⟩
  | cancelled => exact ⟨.cancel, rfl, .inr (.inl rfl)⟩
  | failed =>
    cases result : record.finalResult with
    | none => exact ⟨.result false, rfl, .inl rfl⟩
    | some answer =>
      rcases answer with ⟨success, text⟩
      have negative := receiving.failed state success text result
      subst negative
      exact ⟨.result false, rfl, .inl rfl⟩

variable {state : ManualTransferState} {message : ToReceiver UInt8 Digest}

theorem Receiving.terminal (receiving : record.Receiving issue) (ended : state.phase = .ended)
    (unsettled : record.finalResult = none) (error : Option String) :
    (record.terminal state error now).Receiving issue := by
  have other : ∀ going : ManualTransferState, going.phase ≠ .ended → state ≠ going := by
    rintro _ live rfl
    exact live ended
  refine ⟨receiving.direction, receiving.name, receiving.size, ?_,
    fun offering => other .offering (by decide) offering,
    fun waiting => absurd waiting (other .awaitingAcceptance (by decide)),
    fun transferring => absurd transferring (other .transferring (by decide)),
    fun _ => unsettled, fun completed => absurd completed (other .completed (by decide)), ?_⟩
  · intro _ due
    cases state with
    | declined | cancelled =>
      cases due
      rfl
    | _ => cases due
  · intro _ _ _ result
    rw [show (record.terminal state error now).finalResult = record.finalResult from rfl,
      unsettled] at result
    cases result

theorem asReceiver_terminal (ended : state.phase = .ended) (error : Option String) :
    (record.terminal state error now).asReceiver =
      .stopped ((record.terminal state error now).retryEvent.bind toSender?) :=
  asReceiver_of_ended ended

theorem farewell_of_terminal (ended : state.phase = .ended) (error : Option String) :
    ∀ last, (record.terminal state error now).retryEvent.bind toSender? = some last →
      Receiver.Farewell last := by
  intro _ due
  cases state with
  | declined =>
    cases due
    exact .inr (.inr rfl)
  | cancelled =>
    cases due
    exact .inr (.inl rfl)
  | failed => cases due
  | _ => cases ended

variable {finalResult : Option (Bool × Option String)} {files : List FileEvent} {event : ProtoEvent}
  {cause : Cause}

theorem Receiving.settle (direction : record.direction = .receiving)
    (name : record.name = issue.name) (size : record.size = issue.size)
    (result : state = .completed ∧ (∃ text, finalResult = some (true, text)) ∨
      state = .failed ∧ ∀ success text, finalResult = some (success, text) → success = false)
    (error : Option String) : (record.settle state error finalResult now).Receiving issue := by
  refine ⟨direction, name, size, ?_, ?_, ?_, ?_, ?_, ?_, ?_⟩
  · intro _ due
    cases due
    rcases result with ⟨rfl, _⟩ | ⟨rfl, _⟩
    · rfl
    · rfl
  · rcases result with ⟨rfl, _⟩ | ⟨rfl, _⟩ <;> simp [Record.settle, Record.terminal]
  · rcases result with ⟨rfl, _⟩ | ⟨rfl, _⟩ <;> simp [Record.settle, Record.terminal]
  · rcases result with ⟨rfl, _⟩ | ⟨rfl, _⟩ <;> simp [Record.settle, Record.terminal]
  · rcases result with ⟨rfl, _⟩ | ⟨rfl, _⟩ <;> simp [Record.settle, Record.terminal, isTerminal]
  · rcases result with ⟨rfl, good⟩ | ⟨rfl, _⟩
    · intro _
      exact good
    · simp [Record.settle, Record.terminal]
  · rcases result with ⟨rfl, _⟩ | ⟨rfl, bad⟩
    · simp [Record.settle, Record.terminal]
    · intro _
      exact bad

theorem asReceiver_settle_failed (error : Option String)
    (bad : ∀ success text, finalResult = some (success, text) → success = false) :
    (record.settle .failed error finalResult now).asReceiver = .stopped (some (.result false)) := by
  cases finalResult with
  | none => rfl
  | some result =>
    rcases result with ⟨success, text⟩
    have negative := bad success text rfl
    subst negative
    rfl

theorem asReceiver_settle_completed (error : Option String) (text : Option String)
    (transferring : record.state = .transferring) :
    (record.settle .completed error (some (true, text)) now).asReceiver =
      record.asReceiver.completed := by
  rw [asReceiver_of_live (by simp [settle, terminal, phase]),
    asReceiver_of_live (by simp [transferring, phase])]
  rfl

variable (receiving : record.Receiving issue)
include receiving

theorem Receiving.fail (live : isTerminal record.state = false) {middle : Record P}
    (direction : middle.direction = record.direction) (name : middle.name = record.name)
    (size : middle.size = record.size) (result : middle.finalResult = record.finalResult)
    {error : String} (cause : message = .cancel ∨ message = .result false ∨
      record.asReceiver.phase = .transferring ∧
        (BadChunk (issue.protocol sha256) record.asReceiver message ∨
          BadDigest (issue.protocol sha256) record.asReceiver message) ∨ disturbed) :
    ReceiverReaction issue sha256 disturbed record message (middle.fail error now []) := by
  have unsettled := result ▸ receiving.negative live
  refine ⟨[.result false], [], ?_, ?_, rfl, rfl, rfl⟩
  · rw [show (middle.fail error now []).record =
      middle.settle .failed (some error) middle.finalResult now from rfl,
      asReceiver_settle_failed _ unsettled]
    refine .stop (asReceiver_active live) cause ?_ (.inr rfl)
    intro _ due
    cases due
    exact .inl rfl
  · exact .settle (direction.trans receiving.direction) (name.trans receiving.name)
      (size.trans receiving.size) (.inr ⟨rfl, unsettled⟩) _

theorem Receiving.reroute (peer : P) : (record.reroute peer).Receiving issue :=
  { receiving with }

theorem Receiving.live (live : isTerminal record.state = false) :
    record.state = .awaitingAcceptance ∨ record.state = .transferring := by
  cases state : record.state with
  | offering => exact absurd state receiving.asked
  | awaitingAcceptance => exact .inl rfl
  | transferring => exact .inr rfl
  | _ => simp [state, isTerminal] at live

theorem Receiving.decision {answer : ManualDecision}
    (shown : toReceiver? (.manualFileDecision record.id answer) = some message) :
    ReceiverReaction issue sha256 disturbed record message (record.decision answer now) := by
  unfold Record.decision
  split
  · exact .ignores receiving message
  · cases answer with
    | pending => cases shown
    | declined =>
      rw [receiving.direction]
      exact .ignores receiving message
    | accepted =>
      cases shown
      rw [receiving.direction]
      dsimp only
      split
      · rename_i transferring
        have phase := going_of_transferring transferring
        have view := asReceiver_of_live phase
        refine ⟨[.request record.asReceiver.position (issue.protocol sha256).limit], [], ?_, ?_,
          ?_, rfl, rfl⟩
        · have pulled :
              ReceiverReacts (issue.protocol sha256) disturbed record.asReceiver .accepted
              { record.asReceiver with
                retry :=
                  some (.request record.asReceiver.position (issue.protocol sha256).limit) }
              [.request record.asReceiver.position (issue.protocol sha256).limit] [] := by
            apply pull
            simp [asReceiver_phase, transferring, ManualTransferState.phase]
          convert pulled using 1
          rw [view, asReceiver_of_live (by exact phase)]
          rfl
        · refine ⟨rfl, receiving.name, receiving.size, ?_, receiving.asked, receiving.waiting,
            receiving.writing, receiving.unsettled, receiving.succeeded, receiving.failed⟩
          intro _ due
          cases due
          rfl
        · rw [view]
          rfl
      · exact .ignores receiving _

theorem Receiving.receiveResult (success : Bool) (error : Option String) :
    ReceiverReaction issue sha256 disturbed record (.result success)
      (record.receiveResult success error now) := by
  unfold Record.receiveResult
  split
  · exact .ignores receiving _
  · rename_i live
    simp only [Bool.not_eq_true] at live
    split
    · rename_i failure
      have negative : success = false := by simpa using failure
      subst negative
      have bad := receiving.negative live
      refine ⟨[], [], ?_, ?_, rfl, rfl, rfl⟩
      · dsimp only
        rw [asReceiver_settle_failed _ bad]
        refine .stop (asReceiver_active live) (.inr (.inl rfl)) ?_ (.inl rfl)
        intro _ due
        cases due
        exact .inl rfl
      · exact .settle receiving.direction receiving.name receiving.size (.inr ⟨rfl, bad⟩) _
    · rw [if_neg (by simp [receiving.direction])]
      exact .ignores receiving _

theorem Receiving.receiveCancel :
    ReceiverReaction issue sha256 disturbed record .cancel (record.receiveCancel now) := by
  unfold Record.receiveCancel
  split
  · exact .ignores receiving _
  · rename_i live
    simp only [Bool.not_eq_true] at live
    refine ⟨[], [], ?_, receiving.terminal rfl (receiving.unsettled live) none, rfl, rfl, rfl⟩
    exact .stop (asReceiver_active live) (.inl rfl) (farewell_of_terminal rfl none) (.inl rfl)

omit receiving

section Finish

variable {incoming : IncomingTransfer} {content : Bytes}

theorem finishReceiver_cases (held : incoming.Receiving record.size content) (digest : Digest) :
    (content.length = record.size.toNat ∧ sha256 content = digest ∧
      ∃ path, record.finishReceiver sha256 io incoming digest now =
        ⟨record.settle .completed none (some (true, none)) now,
          [(record.settle .completed none (some (true, none)) now).send
              (.manualFileResult record.id true none),
            (record.settle .completed none (some (true, none)) now).notify],
          [.published path content]⟩) ∨
    (∃ error, record.finishReceiver sha256 io incoming digest now = record.fail error now []) ∧
      (io.Stores → content.length = record.size.toNat → sha256 content ≠ digest) := by
  have bytes : ((incoming.files.lookup fileId).map (·.file)).getD [] = content := held.lookup
  unfold finishReceiver
  cases finalized :
      (incoming.finalizeFile sha256 io fileId record.size digest).bind (·.finish) with
  | error =>
    right
    refine ⟨⟨_, rfl⟩, ?_⟩
    intro stores whole same
    subst same
    rcases held.finalizeFile_succeeds stores whole with ⟨_, succeeded⟩
    rw [show fileId = 1 from rfl, succeeded] at finalized
    cases finalized
  | ok =>
    have exact := held.finalizeFile finalized
    dsimp only
    split
    · rename_i error failed
      right
      refine ⟨⟨_, rfl⟩, ?_⟩
      intro stores
      split at failed
      · rw [stores.rename] at failed
        cases failed
      · cases failed
    · rename_i path _
      left
      refine ⟨exact.1, exact.2, path, ?_⟩
      rw [bytes]
      rfl

theorem Receiving.published (receiving : record.Receiving issue) (path : PathBuf)
    (content : Bytes) :
    ReceiverReply issue ⟨record.settle .completed none (some (true, none)) now,
        [(record.settle .completed none (some (true, none)) now).send
            (.manualFileResult record.id true none),
          (record.settle .completed none (some (true, none)) now).notify],
        [.published path content]⟩ [.result true] [content] :=
  ⟨.settle receiving.direction receiving.name receiving.size (.inl ⟨rfl, none, rfl⟩) _,
    rfl, rfl, rfl⟩

theorem Receiving.finishes (receiving : record.Receiving issue)
    (transferring : record.state = .transferring) (present : record.incoming = some incoming)
    (held : incoming.Receiving record.size content)
    (position : record.transferred.toNat = content.length) (all : record.transferred = record.size)
    (digest : Digest) (broken : ¬io.Stores → disturbed) :
    ReceiverReaction issue sha256 disturbed record (.complete digest)
      (record.finishReceiver sha256 io incoming digest now) := by
  have view := asReceiver_of_live (going_of_transferring transferring)
  have bytes : record.asReceiver.content = content := by
    rw [view, present]
    exact held.lookup
  have place : record.asReceiver.position = (issue.protocol sha256).size := by
    rw [view, receiving.size_eq, ← all]
  have moving := asReceiver_transferring transferring
  rcases finishReceiver_cases held digest with ⟨_, same, path, finished⟩ | ⟨⟨error, failed⟩, wrong⟩
  · rw [finished]
    refine ⟨[.result true], [content], ?_, receiving.published path content⟩
    rw [asReceiver_settle_completed none none transferring, ← same, ← bytes]
    exact .finish moving place
  · rw [failed]
    apply receiving.fail (by rw [transferring]; rfl) rfl rfl rfl rfl
    by_cases stores : io.Stores
    · refine .inr (.inr (.inl ⟨moving, .inr ⟨digest, rfl, .inl ⟨place, ?_⟩⟩⟩))
      rw [bytes]
      apply wrong stores
      rw [← position, all]
    · exact .inr (.inr (.inr (broken stores)))

end Finish

variable {actions : List (ManualAction P)}

theorem asReceiver_progress {later : Record P} :
    (later.progress now actions files).record.asReceiver = later.asReceiver := by
  unfold progress
  split
  · rfl
  · rfl

theorem files_progress {later : Record P} : (later.progress now actions files).files = files := by
  unfold progress
  split
  · rfl
  · rfl

theorem Receiving.progress {later : Record P} (receiving : later.Receiving issue) :
    (later.progress now actions files).record.Receiving issue := by
  unfold Record.progress
  split
  · exact { receiving with }
  · exact receiving

section Chunk

variable {incoming later : IncomingTransfer} {content data : Bytes} {finish : UInt64}

theorem Receiving.appended (receiving : record.Receiving issue)
    (transferring : record.state = .transferring)
    (held : later.Receiving record.size (content ++ data))
    (position : record.transferred.toNat = content.length)
    (moved : finish.toNat = record.transferred.toNat + data.length) (early : Option Digest)
    (now : ℕ) :
    { record with
      incoming := some later, transferred := finish, lastActivity := now, retries := 0
      earlyDigest := early }.Receiving issue := by
  refine ⟨receiving.direction, receiving.name, receiving.size, receiving.retry, receiving.asked,
    ?_, ?_, receiving.unsettled, receiving.succeeded, receiving.failed⟩
  · intro waiting
    rw [transferring] at waiting
    cases waiting
  · intro _
    refine ⟨later, content ++ data, rfl, held, ?_⟩
    rw [length_append, ← position]
    exact moved

theorem Receiving.chunkWritten (receiving : record.Receiving issue)
    (transferring : record.state = .transferring) (present : record.incoming = some incoming)
    (before : incoming.Receiving record.size content)
    (held : later.Receiving record.size (content ++ data)) (nonempty : data ≠ [])
    (position : record.transferred.toNat = content.length)
    (moved : finish.toNat = record.transferred.toNat + data.length) (fits : finish ≤ record.size)
    (broken : ¬io.Stores → disturbed) :
    ReceiverReaction issue sha256 disturbed record (.chunk record.transferred.toNat data)
      ({ record with
          incoming := some later, transferred := finish, lastActivity := now
          retries := 0 }.chunkWritten sha256 io later now) := by
  have phase := going_of_transferring transferring
  have view := asReceiver_of_live phase
  have bytes : record.asReceiver.content = content := by
    rw [view, present]
    exact before.lookup
  have place : record.asReceiver.position = record.transferred.toNat := by rw [view]
  have moving := asReceiver_transferring transferring
  have limit : (issue.protocol sha256).size = _ := receiving.size_eq
  rw [← place]
  unfold Record.chunkWritten
  split
  · rename_i digest known
    have last : finish = record.size ∧ record.earlyDigest = some digest := by
      split at known
      · rename_i all
        exact ⟨all, known⟩
      · cases known
    have early : record.asReceiver.early = some digest := by
      rw [view]
      exact last.2
    have all : record.asReceiver.position + data.length = (issue.protocol sha256).size := by
      rw [place, ← moved, last.1, limit]
    have kept := receiving.appended transferring held position moved none now
    rcases @finishReceiver_cases P { record with
        incoming := some later, transferred := finish, lastActivity := now, retries := 0
        earlyDigest := none } sha256 io now later (content ++ data) held digest with
      ⟨_, same, path, finished⟩ | ⟨⟨_, failed⟩, wrong⟩
    · rw [finished]
      refine ⟨[.result true], [content ++ data], ?_, kept.published path (content ++ data)⟩
      have completed : ReceiverReacts (issue.protocol sha256) disturbed record.asReceiver
          (.chunk record.asReceiver.position data)
          { record.asReceiver with
            position := (issue.protocol sha256).size, early := none }.completed
          [.result true] [record.asReceiver.content ++ data] := by
        apply writeLast moving all
        rw [early, bytes, ← same]
        rfl
      rw [bytes] at completed
      convert completed using 1
      rw [asReceiver_settle_completed none none (by exact transferring),
        asReceiver_of_live (by exact phase), limit, ← last.1]
      rfl
    · rw [failed]
      refine receiving.fail (by rw [transferring]; rfl) ?_ ?_ ?_ ?_ ?_
      · rfl
      · rfl
      · rfl
      · rfl
      by_cases stores : io.Stores
      · refine .inr (.inr (.inl ⟨moving, .inl ⟨_, data, rfl, ?_⟩⟩))
        refine .inr (.inr (.inr (.inr ⟨digest, early, rfl, ?_⟩)))
        rw [bytes]
        apply wrong stores
        rw [length_append, ← position, ← moved, last.1]
      · exact .inr (.inr (.inr (broken stores)))
  · have kept := receiving.appended transferring held position moved record.earlyDigest now
    have wrote : ReceiverReacts (issue.protocol sha256) disturbed record.asReceiver
        (.chunk record.asReceiver.position data)
        (record.asReceiver.wrote (issue.protocol sha256).limit data)
        [.request (record.asReceiver.position + data.length) (issue.protocol sha256).limit] [] := by
      apply write moving nonempty
      rw [place, ← moved, limit]
      exact le_iff_toNat_le.mp fits
    rw [place, ← moved] at wrote
    refine ⟨[.request finish.toNat (issue.protocol sha256).limit], [], ?_, ?_, ?_, ?_, ?_⟩
    · dsimp only
      rw [asReceiver_progress, place]
      convert wrote using 1
      rw [asReceiver_of_live (by exact phase)]
      unfold Receiver.wrote
      rw [place, ← moved, bytes, view]
      simp only [Option.bind_some]
      have stored : ((later.files.lookup fileId).map (·.file)).getD [] = content ++ data :=
        held.lookup
      rw [stored]
      rfl
    · apply Receiving.progress
      refine ⟨kept.direction, kept.name, kept.size, ?_, kept.asked, kept.waiting, kept.writing,
        kept.unsettled, kept.succeeded, kept.failed⟩
      intro _ due
      cases due
      rfl
    · dsimp only
      rw [sends_progress]
      rfl
    · dsimp only
      rw [files_progress]
      rfl
    · dsimp only
      rw [files_progress]
      rfl

end Chunk

theorem Receiving.reminds (receiving : record.Receiving issue)
    (ended : isTerminal record.state = true) (message : ToReceiver UInt8 Digest) :
    ReceiverReaction issue sha256 disturbed record message
      ⟨record, [record.send record.offerResponse], []⟩ := by
  rcases receiving.responds with ⟨answer, shown, responds⟩
  refine ⟨[answer], [], .remind ?_ responds, .tells receiving shown⟩
  rw [asReceiver_phase]
  cases state : record.state <;> simp_all [isTerminal, phase]

theorem Receiving.refuses (receiving : record.Receiving issue)
    (live : isTerminal record.state = false) (waiting : record.state ≠ .transferring)
    (content : message.IsContent) :
    ReceiverReaction issue sha256 disturbed record message
      ⟨record, [peerFailure record.peer record.id remoteNotAcceptedError], []⟩ := by
  refine ⟨[.result false], [], .refuse ?_ content, .tells receiving rfl⟩
  rw [asReceiver_phase]
  rcases receiving.live live with awaiting | transferring
  · rw [awaiting]
    rfl
  · exact absurd transferring waiting

theorem Receiving.writeChunk (receiving : record.Receiving issue) (offset : UInt64) (data : Bytes)
    (broken : ¬io.Stores → disturbed) :
    ReceiverReaction issue sha256 disturbed record (.chunk offset.toNat data)
      (record.writeChunk sha256 io offset data now) := by
  unfold Record.writeChunk
  rw [if_neg (not_not.mpr receiving.direction)]
  split
  · rename_i ended
    split
    · exact receiving.reminds ended _
    · exact .ignores receiving _
  · rename_i live
    simp only [Bool.not_eq_true] at live
    split
    · rename_i incoming transferring present
      rcases receiving.writing transferring with ⟨_, content, there, held, position⟩
      rw [present] at there
      cases there
      have moving := asReceiver_transferring transferring
      have place : record.asReceiver.position = record.transferred.toNat := by
        rw [asReceiver_of_live (going_of_transferring transferring)]
      have limit : (issue.protocol sha256).size = _ := receiving.size_eq
      have bad : ∀ {error : String}, (data = [] ∨ (issue.protocol sha256).limit < data.length ∨
          (issue.protocol sha256).size < offset.toNat + data.length ∨
          offset.toNat < record.asReceiver.position ∧
            record.asReceiver.position < offset.toNat + data.length) →
          ReceiverReaction issue sha256 disturbed record (.chunk offset.toNat data)
            (record.fail error now []) := by
        intro error invalid
        apply receiving.fail live rfl rfl rfl rfl
        refine .inr (.inr (.inl ⟨moving, .inl ⟨_, data, rfl, ?_⟩⟩))
        rcases invalid with empty | long | beyond | across
        · exact .inl empty
        · exact .inr (.inl long)
        · exact .inr (.inr (.inl beyond))
        · exact .inr (.inr (.inr (.inl across)))
      have small : data.length ≤ maxManualFileChunkSize →
          (UInt64.ofNat data.length).toNat = data.length := by
        intro short
        apply toNat_ofNat_of_lt
        change data.length < 2 ^ 64
        have chunk : maxManualFileChunkSize < 2 ^ 64 := by decide
        omega
      have bound := record.size.toNat_lt
      split
      · rename_i overflow
        apply bad
        by_cases short : data.length ≤ maxManualFileChunkSize
        · refine .inr (.inr (.inl ?_))
          by_contra fits
          have added : checkedAdd offset (ofNat data.length) =
              some (offset + UInt64.ofNat data.length) := by
            apply checkedAdd_eq_some.mpr
            refine ⟨?_, rfl⟩
            change _ ≤ 18446744073709551615
            omega
          rw [overflow] at added
          cases added
        · exact .inr (.inl (Nat.lt_of_not_le short))
      · rename_i finish added
        rcases checkedAdd_eq_some.mp added with ⟨fitting, rfl⟩
        split
        · rename_i invalid
          apply bad
          rcases invalid with empty | long | beyond
          · exact .inl (List.isEmpty_iff.mp empty)
          · exact .inr (.inl long)
          · by_cases short : data.length ≤ maxManualFileChunkSize
            · refine .inr (.inr (.inl ?_))
              rw [limit]
              have order := lt_iff_toNat_lt.mp beyond
              rw [toNat_add_of_le fitting, small short] at order
              exact order
            · exact .inr (.inl (Nat.lt_of_not_le short))
        · rename_i valid
          simp only [not_or, List.isEmpty_iff, Nat.not_lt] at valid
          have length := small valid.2.1
          have finish : (offset + UInt64.ofNat data.length).toNat = offset.toNat + data.length := by
            rw [toNat_add_of_le fitting, length]
          split
          · rename_i elsewhere
            split
            · rename_i across
              apply bad
              refine .inr (.inr (.inr ?_))
              rw [place, ← finish]
              exact ⟨lt_iff_toNat_lt.mp across.1, lt_iff_toNat_lt.mp across.2⟩
            · rename_i apart
              refine ⟨[.request record.asReceiver.position (issue.protocol sha256).limit], [],
                .repeatPull moving ?_, .tells receiving (by rw [place]; rfl)⟩
              rw [place]
              by_contra between
              simp only [not_or, Nat.not_le, Nat.not_lt] at between
              apply apart
              refine ⟨?_, ?_⟩
              · apply lt_iff_toNat_lt.mpr
                apply Nat.lt_of_le_of_ne between.2
                intro same
                exact elsewhere (UInt64.toNat_inj.mp same)
              · apply lt_iff_toNat_lt.mpr
                rw [finish]
                exact between.1
          · rename_i here
            have same : offset = record.transferred := not_not.mp here
            subst same
            split
            · rename_i error failed
              apply receiving.fail live rfl rfl rfl rfl
              refine .inr (.inr (.inr (broken ?_)))
              intro stores
              rcases held.writeChunk_succeeds stores position valid.1 valid.2.1 (by
                rw [← finish]
                exact UInt64.le_iff_toNat_le.mp (UInt64.not_lt.mp valid.2.2)) with ⟨later, wrote⟩
              rw [show fileId = 1 from rfl, wrote] at failed
              cases failed
            · rename_i later wrote
              exact receiving.chunkWritten transferring present held
                (held.writeChunk wrote).1 valid.1 position finish
                  (UInt64.not_lt.mp valid.2.2) broken
    · rename_i waiting
      apply receiving.refuses live
      · intro transferring
        rcases receiving.writing transferring with ⟨incoming, _, present, _⟩
        exact waiting incoming transferring present
      · trivial

theorem Receiving.completeReceiver (receiving : record.Receiving issue) (digest : Digest)
    (broken : ¬io.Stores → disturbed) :
    ReceiverReaction issue sha256 disturbed record (.complete digest)
      (record.completeReceiver sha256 io digest now) := by
  unfold Record.completeReceiver
  rw [if_neg (not_not.mpr receiving.direction)]
  split
  · rename_i ended
    exact receiving.reminds ended _
  · rename_i live
    simp only [Bool.not_eq_true] at live
    split
    · rename_i incoming transferring present
      rcases receiving.writing transferring with ⟨_, content, there, held, position⟩
      rw [present] at there
      cases there
      have phase := going_of_transferring transferring
      have view := asReceiver_of_live phase
      have moving := asReceiver_transferring transferring
      split
      · rename_i missing
        split
        · rename_i conflict
          apply receiving.fail live rfl rfl rfl rfl
          refine .inr (.inr (.inl ⟨moving, .inr ⟨digest, rfl, .inr ?_⟩⟩))
          rw [view]
          cases known : record.earlyDigest with
          | none =>
            rw [known] at conflict
            cases conflict
          | some previous =>
            rw [known] at conflict
            exact ⟨previous, rfl, by simpa using conflict⟩
        · refine ⟨[.request record.asReceiver.position (issue.protocol sha256).limit], [], ?_, ?_,
            ?_, rfl, rfl⟩
          · have noted : ReceiverReacts (issue.protocol sha256) disturbed record.asReceiver
                (.complete digest) { record.asReceiver with early := some digest }
                [.request record.asReceiver.position (issue.protocol sha256).limit] [] := by
              apply note moving
              rw [view, receiving.size_eq]
              intro same
              exact missing (UInt64.toNat_inj.mp same)
            convert noted using 1
            rw [asReceiver_of_live (by exact phase), view]
          · exact { receiving with }
          · rw [view]
            rfl
      · rename_i all
        exact receiving.finishes transferring present held position (not_not.mp all) digest broken
    · rename_i waiting
      apply receiving.refuses live
      · intro transferring
        rcases receiving.writing transferring with ⟨incoming, _, present, _⟩
        exact waiting incoming transferring present
      · trivial

theorem Receiving.handle (receiving : record.Receiving issue)
    (shown : toReceiver? event = some message) (other : message ≠ .offer)
    (broken : ¬io.Stores → disturbed) :
    ReceiverReaction issue sha256 disturbed record message (record.handle sha256 io event now) := by
  cases event with
  | manualFileOffer =>
    cases shown
    exact absurd rfl other
  | manualFileDecision _ answer =>
    apply receiving.decision
    cases answer <;> exact shown
  | manualFileChunk _ offset data =>
    cases shown
    exact receiving.writeChunk offset data broken
  | manualFileComplete _ digest =>
    cases shown
    exact receiving.completeReceiver digest broken
  | manualFileResult _ success error =>
    cases shown
    exact receiving.receiveResult success error
  | manualFileCancel =>
    cases shown
    exact receiving.receiveCancel
  | _ => cases shown

/-- What the receiving side does on its own account: nothing that the protocol sees, or a move of
the abstract receiver. -/
def ReceiverMove (issue : Issue) (disturbed : Prop) (cause : Cause) (record : Record P)
    (reply : Reply P) : Prop :=
  reply.record.asReceiver = record.asReceiver ∧ ReceiverReply issue reply [] [] ∨
    ∃ said retries,
      ReceiverActs disturbed record.asReceiver (some reply.record.asReceiver) said retries ∧
      ReceiverReply issue reply said [] ∧
      retries = if cause = .timer then
        ((sends reply.actions).filter (fun event => !isCancel event)).length else 0

theorem ReceiverMove.same (receiving : record.Receiving issue) :
    ReceiverMove issue disturbed cause record ⟨record, [], []⟩ :=
  .inl ⟨rfl, .same receiving⟩

theorem ReceiverMove.redirected {reply : Reply P} (directory : PathBuf)
    (replacement : Option (PathBuf × PathBuf))
    (move : ReceiverMove issue disturbed cause record reply) :
    ReceiverMove issue disturbed cause record
      { record := { reply.record with destination := some directory, replacement }
        actions := reply.actions.map (redirect directory)
        files := reply.files } := by
  have said : sends (reply.actions.map (redirect directory)) = sends reply.actions := by
    unfold sends
    rw [filterMap_map]
    apply filterMap_congr
    intro action _
    cases action with
    | send => rfl
    | notify event => cases event <;> rfl
  have kept : ∀ {answer : List ToSender}, ReceiverReply issue reply answer [] →
      ReceiverReply issue
        { record := { reply.record with destination := some directory, replacement }
          actions := reply.actions.map (redirect directory)
          files := reply.files } answer [] := by
    intro answer shown
    refine ⟨{ shown.receiving with }, ?_, shown.published, shown.unread⟩
    rw [said]
    exact shown.said
  rcases move with ⟨same, shown⟩ | ⟨answer, retries, acts, shown, counted⟩
  · exact .inl ⟨same, kept shown⟩
  · refine .inr ⟨answer, retries, acts, kept shown, ?_⟩
    rw [said]
    exact counted

theorem prepareIncoming_receiving {directory : PathBuf} {incoming : IncomingTransfer}
    (prepared : record.prepareIncoming io directory = .ok incoming) :
    incoming.Receiving record.size [] := by
  unfold prepareIncoming at prepared
  simp only [bind_ok, guard_bind_ok, pure_ok] at prepared
  rcases prepared with ⟨_, _, _, _, made, ⟨_, _⟩, ready, rfl⟩
  exact IncomingTransfer.Receiving.of_prepare rfl rfl made ready

theorem Receiving.accepted (receiving : record.Receiving issue)
    (waiting : record.state = .awaitingAcceptance) {incoming : IncomingTransfer}
    (held : incoming.Receiving record.size []) (destination : Option PathBuf) (now : ℕ) :
    { record with
      destination, incoming := some incoming, state := .transferring, error := none
      lastActivity := now, lastNotification := now, retries := 0
      retryEvent := some (.manualFileDecision record.id .accepted) }.asReceiver =
        record.asReceiver.accepted ∧
    { record with
      destination, incoming := some incoming, state := .transferring, error := none
      lastActivity := now, lastNotification := now, retries := 0
      retryEvent := some (.manualFileDecision record.id .accepted) }.Receiving issue := by
  rcases receiving.waiting waiting with ⟨empty, start⟩
  refine ⟨?_, receiving.direction, receiving.name, receiving.size, ?_, ?_, ?_, ?_, ?_, ?_, ?_⟩
  · rw [asReceiver_of_live (by simp [phase]), asReceiver_of_live (by simp [waiting, phase])]
    simp only [Option.bind_some, empty]
    rw [show ((incoming.files.lookup fileId).map (·.file)).getD [] = [] from held.lookup]
    rfl
  · intro _ due
    cases due
    rfl
  · intro impossible
    cases impossible
  · intro impossible
    cases impossible
  · intro _
    refine ⟨incoming, [], rfl, held, ?_⟩
    rw [start]
    rfl
  · intro _
    exact receiving.unsettled (by rw [waiting]; rfl)
  · intro impossible
    cases impossible
  · intro impossible
    cases impossible

variable (receiving : record.Receiving issue)
include receiving

theorem Receiving.prepareReceiver (directory : PathBuf) (late : record.Overdue now → disturbed) :
    ReceiverMove issue disturbed .other record (record.prepareReceiver io directory now false) := by
  unfold Record.prepareReceiver
  split
  · exact .same receiving
  · rename_i ready
    have waiting : record.state = .awaitingAcceptance := by
      by_contra other
      exact ready (.inr other)
    have live : isTerminal record.state = false := by rw [waiting]; rfl
    split
    · rename_i passed
      have unsettled := receiving.negative live
      refine .inr ⟨[.result false], 0, ?_, ⟨?_, rfl, rfl, rfl⟩, rfl⟩
      · rw [show (record.fail "file offer expired" now []).record =
          record.settle .failed (some "file offer expired") record.finalResult now from rfl,
          asReceiver_settle_failed _ unsettled]
        refine .stop (late ⟨.inr waiting, passed⟩) (asReceiver_active live) ?_
          (forall_mem_singleton.mpr (.inl rfl))
        intro _ due
        cases due
        exact .inl rfl
      · exact .settle receiving.direction receiving.name receiving.size (.inr ⟨rfl, unsettled⟩) _
    · split
      · rename_i incoming prepared
        have accepts := receiving.accepted waiting (prepareIncoming_receiving prepared)
          (some (incoming.destination.join (.ofText record.name))) now
        refine .inr ⟨[.accepted], 0, ?_, ⟨accepts.2, rfl, rfl, rfl⟩, rfl⟩
        rw [accepts.1]
        apply ReceiverActs.accept
        rw [asReceiver_phase, waiting]
        rfl
      · refine .inl ⟨rfl, ?_, rfl, rfl, rfl⟩
        exact { receiving with }

theorem Receiving.overwrite (directory : PathBuf) (late : record.Overdue now → disturbed) :
    ReceiverMove issue disturbed .other record (record.overwrite io directory now) := by
  unfold Record.overwrite
  split
  · exact .same receiving
  · dsimp only
    split
    · rename_i staging _
      have prepared : ReceiverMove issue disturbed .other record
          (record.prepareReceiver io staging now false) := receiving.prepareReceiver staging late
      split
      · exact prepared.redirected directory _
      · exact prepared
    · refine .inl ⟨rfl, ?_, rfl, rfl, rfl⟩
      exact { receiving with }

theorem Receiving.ends (allowed : disturbed) (live : isTerminal record.state = false)
    (ended : state.phase = .ended) (error : Option String) {said : List ToSender}
    (spoken : (sends actions).map toSender? = said.map some)
    (parting : ∀ last ∈ said, Receiver.Farewell last) (uncounted : cause = .timer →
      ((sends actions).filter (fun event => !isCancel event)).length = 0) :
    ReceiverMove issue disturbed cause record ⟨record.terminal state error now, actions, []⟩ := by
  refine .inr ⟨said, 0, ?_, ⟨receiving.terminal ended (receiving.unsettled live) error, spoken, rfl,
    rfl⟩, ?_⟩
  · dsimp only
    rw [asReceiver_terminal ended]
    exact .stop allowed (asReceiver_active live) (farewell_of_terminal ended error) parting
  · split
    · rename_i timer
      exact (uncounted timer).symm
    · rfl

theorem Receiving.decline (wanted : record.state = .awaitingAcceptance → disturbed) :
    ReceiverMove issue disturbed .other record (record.decline now) := by
  unfold Record.decline
  split
  · rename_i waiting
    apply receiving.ends (wanted waiting.2) (by rw [waiting.2]; rfl) rfl none
    · exact (rfl : _ = map some [ToSender.declined])
    · exact forall_mem_singleton.mpr (.inr (.inr rfl))
    · intro impossible
      cases impossible
  · exact .same receiving

theorem Receiving.cancel (wanted : isTerminal record.state = false → disturbed) :
    ReceiverMove issue disturbed .other record (record.cancel now) := by
  unfold Record.cancel
  split
  · rename_i live
    simp only [Bool.not_eq_true] at live
    apply receiving.ends (wanted live) live rfl none
    · exact (rfl : _ = map some [ToSender.cancel])
    · exact forall_mem_singleton.mpr (.inr (.inl rfl))
    · intro impossible
      cases impossible
  · exact .same receiving

theorem Receiving.refresh (route : Option P)
    (lost : route = none → isTerminal record.state = false → disturbed) :
    ReceiverMove issue disturbed .other record (record.refresh route now) := by
  unfold Record.refresh
  cases route with
  | some peer => exact .inl ⟨rfl, receiving.reroute peer, rfl, rfl, rfl⟩
  | none =>
    dsimp only
    split
    · rename_i live
      simp only [Bool.not_eq_true] at live
      apply receiving.ends (lost rfl live) live rfl
      · exact (rfl : _ = map some ([] : List ToSender))
      · exact forall_mem_nil _
      · intro impossible
        cases impossible
    · exact .same receiving

omit receiving in
theorem retries_toSender {message : ToSender} (shown : toSender? event = some message) :
    message.retries = ([event].filter (fun event => !isCancel event)).length := by
  unfold toSender? at shown
  split at shown <;> cases shown <;> rfl

theorem Receiving.repeats : ReceiverMove issue disturbed .timer record (record.retry now) := by
  have kept : (record.retry now).record.Receiving issue := { receiving with }
  cases due : record.retryEvent with
  | none =>
    refine .inl ⟨rfl, kept, ?_, rfl, rfl⟩
    simp [Record.retry, due]
  | some event =>
    rcases Option.isSome_iff_exists.mp (receiving.retry event due) with ⟨message, view⟩
    have said : sends (record.retry now).actions = [event] := by
      simp [Record.retry, due, send]
    refine .inr ⟨[message], message.retries, .retry ?_, ⟨kept, ?_, rfl, rfl⟩, ?_⟩
    · unfold asReceiver
      split <;> simp [Receiver.stopped, due, view]
    · rw [said]
      simp [view]
    · rw [said, if_pos rfl]
      exact retries_toSender view

theorem Receiving.expire (live : isTerminal record.state = false) (allowed : disturbed)
    (error : String) : ReceiverMove issue disturbed .timer record (record.expire error now) := by
  apply receiving.ends allowed live rfl
  · exact (rfl : _ = map some [ToSender.cancel])
  · exact forall_mem_singleton.mpr (.inr (.inl rfl))
  · intro _
    rfl

theorem Receiving.tick (expires : record.Expires now → disturbed) :
    ReceiverMove issue disturbed .timer record (record.tick now) := by
  unfold Record.tick
  split
  · split
    · exact receiving.repeats
    · exact .same receiving
  · rename_i live
    simp only [Bool.not_eq_true] at live
    split
    · rename_i passed
      exact receiving.expire live (expires ⟨live, .inl passed⟩) _
    · split
      · rename_i silent
        split
        · rename_i exhausted
          exact receiving.expire live (expires ⟨live, .inr ⟨silent.1, silent.2, exhausted⟩⟩) _
        · exact receiving.repeats
      · exact .same receiving

theorem Receiving.answersOffer :
    ReceiverReaction issue sha256 disturbed record .offer
      ⟨record, [record.send record.offerResponse], []⟩ := by
  rcases receiving.responds with ⟨answer, shown, responds⟩
  exact ⟨[answer], [], .respond responds, .tells receiving shown⟩

end Record

/-- The reply to an offer that is new, as the abstract receiver opens. -/
def ReceiverOpening (issue : Issue) (disturbed : Prop) (reply : Reply P) : Prop :=
  ∃ answer, ReceiverOpens disturbed (some reply.record.asReceiver) answer ∧
    ReceiverReply issue reply answer []

section Opening

variable {offer : OfferedFile P} {settings : FileReceiveSettings}

theorem OfferedFile.receiving (name : offer.name = issue.name) (size : offer.size = issue.size) :
    (offer.record settings now).Receiving issue where
  direction := rfl
  name := name
  size := size
  retry _ due := by cases due
  asked impossible := by cases impossible
  waiting _ := ⟨rfl, rfl⟩
  writing impossible := by cases impossible
  unsettled _ := rfl
  succeeded impossible := by cases impossible
  failed impossible := by cases impossible

theorem OfferedFile.asReceiver : (offer.record settings now).asReceiver = .asked :=
  rfl

theorem OfferedFile.asks (name : offer.name = issue.name) (size : offer.size = issue.size)
    (destination : Option PathBuf) (error : Option String) :
    ReceiverOpening issue disturbed
      ({ offer.record settings now with error, destination }.askUser) := by
  have receiving : (offer.record settings now).Receiving issue := receiving name size
  refine ⟨[.pending], .ask, ?_, rfl, rfl, rfl⟩
  exact { receiving with }

theorem Io.Creates.prepareIncoming {directory : PathBuf} (creates : io.Creates)
    (absolute : directory.isAbsolute = true) (valid : validateManualFileName record.name = .ok ()) :
    ∃ incoming, record.prepareIncoming io directory = .ok incoming := by
  rcases @Io.Creates.prepare io creates record.id record.size record.name directory valid with
    ⟨created, _, transfer, made, prepared⟩
  refine ⟨transfer, ?_⟩
  unfold Record.prepareIncoming
  simp only [bind_ok, guard_bind_ok, pure_ok, orIo_eq_ok]
  exact ⟨by simp [absolute], (), creates.createDirAll directory, created, made, _, prepared, rfl⟩

theorem OfferedFile.opens (valid : validateManualFileName offer.name = .ok ())
    (name : offer.name = issue.name) (size : offer.size = issue.size)
    (blocked : settings.autoAccept = true →
      ¬(io.Creates ∧ settings.downloadDirectory.isAbsolute = true) → disturbed) :
    ReceiverOpening issue disturbed
      (if settings.autoAccept then
        (offer.record settings now).prepareReceiver io settings.downloadDirectory now true
      else
        (offer.record settings now).askUser) := by
  have receiving : (offer.record settings now).Receiving issue := receiving name size
  split
  · rename_i automatic
    unfold prepareReceiver
    rw [if_neg (by simp [record]), if_neg (by simp [record, approvalTimeout])]
    split
    · rename_i incoming prepared
      have accepts := receiving.accepted rfl (prepareIncoming_receiving prepared)
        (some (incoming.destination.join (.ofText (offer.record settings now).name))) now
      refine ⟨[.accepted], ?_, accepts.2, rfl, rfl, rfl⟩
      rw [accepts.1, asReceiver]
      exact .accept
    · rename_i error failed
      dsimp only
      split
      · exact asks name size _ _
      · have negative : ∀ success text, some (false, some remotePreparationError) =
            some (success, text) → success = false := by
          intro _ _ same
          cases same
          rfl
        rw [if_pos rfl]
        refine ⟨[.result false], ?_, ?_, rfl, rfl, rfl⟩
        · dsimp only
          refine .refuse (blocked automatic ?_) ?_
          · rintro ⟨creates, absolute⟩
            rcases @Io.Creates.prepareIncoming P (offer.record settings now) io _ creates absolute
              valid with ⟨incoming, prepared⟩
            rw [failed] at prepared
            cases prepared
          · intro _ same
            cases same
            refine ⟨_, rfl, ?_⟩
            intro _ due
            cases due
            exact .inl rfl
        · exact .settle receiving.direction receiving.name receiving.size (.inr ⟨rfl, negative⟩) _
  · exact ⟨[.pending], .ask, receiving, rfl, rfl, rfl⟩

end Opening

end Syntra.Manual
