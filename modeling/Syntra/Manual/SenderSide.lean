import Syntra.Manual.Views

/-!
# The sending side keeps to the protocol

What a handler does to a record of the sending side is a move of the abstract sender. A move that
the protocol allows only to a disturbed sender comes from a passed deadline or a failing file.
-/

namespace Syntra.Manual

open ByteFormat Proto Files PullTransfer Record ManualTransferState SenderReacts Issue OutgoingFile

variable {P : Type} {issue : Issue} {record : Record P} {sha256 : Bytes → Digest} {io : Io}
  {now : ℕ} {disturbed : Prop}

/-- What a reply of the sending side says and reads, in the terms of the protocol. -/
structure SenderReply (issue : Issue) (reply : Reply P) (answer : List (ToReceiver UInt8 Digest))
    (data : Bytes) : Prop where
  sending : reply.record.Sending issue
  said : (sends reply.actions).map toReceiver? = answer.map some
  described : ∀ event ∈ sends reply.actions, issue.Describes event
  yielded : yields reply.files = data
  unpublished : publications reply.files = []

namespace SenderReply

theorem same (sending : record.Sending issue) : SenderReply issue ⟨record, [], []⟩ [] [] :=
  ⟨sending, rfl, by simp, rfl, rfl⟩

theorem tells {later : Record P} {peer : P} {event : ProtoEvent} {answer : ToReceiver UInt8 Digest}
    (sending : later.Sending issue) (shown : toReceiver? event = some answer)
    (described : issue.Describes event) :
    SenderReply issue ⟨later, [.send peer event], []⟩ [answer] [] :=
  ⟨sending, by simp [shown], by simpa using described, rfl, rfl⟩

end SenderReply

namespace Record

/-- The time in which the transfer can be accepted has passed. -/
def Overdue (record : Record P) (now : ℕ) : Prop :=
  (record.state = .offering ∨ record.state = .awaitingAcceptance) ∧ record.approvalDeadline ≤ now

variable {state : ManualTransferState} {actions : List (ManualAction P)}

theorem Sending.terminal (sending : record.Sending issue) (ended : isTerminal state = true)
    (error : Option String) : (record.terminal state error now).Sending issue := by
  refine ⟨sending.direction, sending.name, sending.size, ?_, ?_, ?_⟩
  · intro event due
    cases state with
    | declined | cancelled =>
      cases due
      exact ⟨rfl, trivial⟩
    | _ => cases due
  · intro _ due
    cases due
  · intro live
    rw [show (record.terminal state error now).state = state from rfl, ended] at live
    cases live

theorem Sending.settle (sending : record.Sending issue)
    (result : state = .completed ∨ state = .failed) (error : Option String)
    (finalResult : Option (Bool × Option String)) :
    (record.settle state error finalResult now).Sending issue := by
  refine ⟨sending.direction, sending.name, sending.size, ?_, ?_, ?_⟩
  · intro event due
    cases due
    rcases result with rfl | rfl
    · exact ⟨rfl, trivial⟩
    · exact ⟨rfl, trivial⟩
  · intro _ due
    cases due
  · intro live
    rcases result with rfl | rfl
    · cases live
    · cases live

theorem asSender_terminal (ended : state.phase = .ended) (error : Option String) :
    (record.terminal state error now).asSender =
      record.asSender.stopped ((record.terminal state error now).retryEvent.bind toReceiver?) := by
  unfold asSender Sender.stopped
  simp [terminal, ended]

theorem farewell_terminal (ended : state.phase = .ended) (error : Option String) :
    Sender.Farewell ((record.terminal state error now).retryEvent.bind toReceiver?) := by
  cases state with
  | declined => exact .inr (.inr (.inr rfl))
  | cancelled => exact .inr (.inr (.inl rfl))
  | failed => exact .inl rfl
  | _ => cases ended

theorem asSender_settle_failed (error : Option String) :
    (record.settle .failed error none now).asSender =
      record.asSender.stopped (some (.result false)) := by
  unfold asSender Sender.stopped
  simp [settle, terminal, phase, offerResponse, toReceiver?]

theorem asSender_settle_completed (error : Option String) (text : Option String) :
    (record.settle .completed error (some (true, text)) now).asSender =
      record.asSender.finished := by
  unfold asSender Sender.finished
  simp [settle, terminal, phase, offerResponse, toReceiver?]

def SenderReaction (issue : Issue) (sha256 : Bytes → Digest) (disturbed : Prop)
    (record : Record P) (message : ToSender) (reply : Reply P) : Prop :=
  ∃ answer data, SenderReacts (issue.protocol sha256) disturbed record.asSender message
    reply.record.asSender answer data ∧ SenderReply issue reply answer data

theorem SenderReaction.ignores (sending : record.Sending issue) (message : ToSender) :
    SenderReaction issue sha256 disturbed record message ⟨record, [], []⟩ :=
  ⟨[], [], .ignore message, .same sending⟩

variable {message : ToSender} {later : Record P} {files : List FileEvent} {event : ProtoEvent}

theorem Sending.fail (sending : record.Sending issue) (live : isTerminal record.state = false)
    {error : String} (cause : message = .declined ∨ message = .cancel ∨ message = .result false ∨
      record.asSender.phase = .transferring ∧
        BadRequest (issue.protocol sha256) record.asSender message ∨ disturbed) :
    SenderReaction issue sha256 disturbed record message (record.fail error now []) := by
  have unsettled := (sending.alive live).1
  have stops : (record.fail error now []).record.asSender =
      record.asSender.stopped (some (.result false)) := by
    unfold Record.fail
    rw [unsettled]
    exact asSender_settle_failed _
  refine ⟨[.result false], [], ?_, ?_⟩
  · rw [stops]
    exact .stop (phase_active.mpr live) cause (.inr (.inl rfl)) (.inr rfl)
  · exact ⟨sending.settle (.inr rfl) _ _, rfl, by simp [Record.fail, sends, peerFailure, notify,
      Describes], rfl, rfl⟩

theorem Sending.decision (sending : record.Sending issue) {answer : ManualDecision}
    (shown : toSender? (.manualFileDecision record.id answer) = some message)
    (late : record.Overdue now → disturbed) :
    SenderReaction issue sha256 disturbed record message (record.decision answer now) := by
  unfold Record.decision
  split
  · exact .ignores sending message
  · rename_i live
    simp only [Bool.not_eq_true] at live
    have alive := sending.alive live
    rw [sending.direction]
    cases answer with
    | pending =>
      cases shown
      dsimp only
      split
      · exact .ignores sending _
      · rename_i offering
        refine ⟨[], [], .await (by simp [asSender, not_not.mp offering, phase]),
          ?_, rfl, by simp [notify], rfl, rfl⟩
        exact ⟨rfl, sending.name, sending.size, by simp, sending.cached,
          fun _ => ⟨alive.1, alive.2.imp fun _ sourced => { sourced with }⟩⟩
    | accepted =>
      cases shown
      dsimp only
      split
      · rename_i passed
        have waiting : record.state = .offering ∨ record.state = .awaitingAcceptance := by
          cases state : record.state <;> simp_all [isTerminal]
        exact sending.fail live (.inr (.inr (.inr (.inr (late ⟨waiting, passed.1⟩)))))
      · split
        · rename_i waiting
          have phase : record.asSender.phase = .offered ∨ record.asSender.phase = .awaiting := by
            cases state : record.state <;> simp_all [asSender, phase, isTerminal]
          refine ⟨[.accepted], [], .start phase, ?_, rfl, by simp [send, notify, Describes],
            rfl, rfl⟩
          exact ⟨rfl, sending.name, sending.size, by simp, sending.cached,
            fun _ => ⟨alive.1, alive.2.imp fun _ sourced => { sourced with }⟩⟩
        · rename_i transferring
          refine ⟨[.accepted], [], .echo ?_, .tells sending rfl trivial⟩
          simp [asSender, not_not.mp transferring, phase]
    | declined =>
      cases shown
      refine ⟨[], [], ?_, sending.terminal rfl none, rfl, by simp [notify], rfl, rfl⟩
      rw [asSender_terminal rfl]
      exact .stop (phase_active.mpr live) (.inl rfl) (farewell_terminal rfl none) (.inl rfl)

theorem sends_progress : sends (later.progress now actions files).actions = sends actions := by
  unfold progress
  split
  · simp [notify]
  · rfl

theorem asSender_progress :
    (later.progress now actions files).record.asSender = later.asSender ∧
      (later.progress now actions files).files = files := by
  unfold progress
  split
  · exact ⟨rfl, rfl⟩
  · exact ⟨rfl, rfl⟩

theorem Sending.progress (sending : later.Sending issue) :
    (later.progress now actions files).record.Sending issue := by
  unfold Record.progress
  split
  · exact ⟨sending.direction, sending.name, sending.size, sending.retry, sending.cached,
      fun live => ⟨(sending.alive live).1,
        (sending.alive live).2.imp fun _ sourced => { sourced with }⟩⟩
  · exact sending

theorem Sending.reroute (sending : record.Sending issue) (peer : P) :
    (record.reroute peer).Sending issue :=
  ⟨sending.direction, sending.name, sending.size, sending.retry, sending.cached,
    fun live => ⟨(sending.alive live).1,
      (sending.alive live).2.imp fun _ sourced => { sourced with }⟩⟩

theorem Sourced.openSource {identity : SourceIdentity} (sourced : record.Sourced identity)
    {source : OutgoingFile} (opened : record.openSource io = .ok source) :
    source.offset = record.transferred ∧ source.size = record.size ∧ source.cancelled = false ∧
      source.identity = identity ∧
      source.hasher = (record.outgoing.map (·.hasher)).getD [] := by
  unfold Record.openSource at opened
  split at opened
  · rename_i file present
    cases opened
    rcases sourced.opened _ present with ⟨offset, size, cancelled, same⟩
    refine ⟨offset, size, cancelled, same, ?_⟩
    rw [present]
    rfl
  · rename_i absent
    rcases sourced.offered with ⟨_, _, _, held, entries, _, _, size, sources⟩
    rw [held] at opened
    dsimp only at opened
    split at opened
    · rename_i file read
      cases opened
      rcases FileOffer.openFile_ok entries read with ⟨offset, length, hasher, cancelled, _, found⟩
      refine ⟨?_, length.trans size, cancelled, ?_, ?_⟩
      · rw [offset, sourced.closed absent]
      · rw [show fileId = 1 from rfl, sources] at found
        exact (congrArg Prod.snd (Option.some.inj found)).symm
      · rw [hasher, absent]
        rfl
    · cases opened

theorem Sourced.openSource_succeeds {identity : SourceIdentity}
    (sourced : record.Sourced identity) (serves : io.Serves identity) :
    ∃ source, record.openSource io = .ok source := by
  unfold Record.openSource
  split
  · exact ⟨_, rfl⟩
  · rcases sourced.offered with ⟨offer, _, _, held, entries, first, kind, _, sources⟩
    rcases serves.openFile entries kind (first ▸ sources) with ⟨file, opened⟩
    rw [first] at opened
    rw [held]
    dsimp only
    rw [show offer.openFile io fileId 0 = .ok file from opened]
    exact ⟨file, rfl⟩

section Request

variable {identity : SourceIdentity} {source : OutgoingFile} {offset : UInt64} {length : UInt32}

theorem Sending.concludes (sending : record.Sending issue) (sourced : record.Sourced identity)
    (present : record.outgoing = some source) (transferring : record.state = .transferring)
    (here : offset = record.transferred) (all : offset = record.size) {digest : Digest}
    (finalized : source.finalizeDigest sha256 io = .ok digest) :
    SenderReaction issue sha256 disturbed record (.request offset.toNat length.toNat)
      (({ record with finalDigest := some digest }.cacheResponse offset length
          (.manualFileComplete record.id digest) now).progress now
        [.send record.peer (.manualFileComplete record.id digest)] []) := by
  have same : digest = sha256 record.asSender.read := by
    rw [(finalizeDigest_ok finalized).2]
    simp [asSender, present]
  have concluded : ({ record with finalDigest := some digest }.cacheResponse offset length
      (.manualFileComplete record.id digest) now).asSender =
      record.asSender.concluded (issue.protocol sha256) length.toNat := by
    unfold asSender Sender.concluded
    simp [cacheResponse, isComplete, toReceiver?, here, protocol, same, asSender]
  have live : isTerminal record.state = false := by rw [transferring]; rfl
  refine ⟨[.complete (sha256 record.asSender.read)], [], ?_, ?_, ?_, ?_, ?_, ?_⟩
  · rw [asSender_progress.1, concluded]
    have position : offset.toNat = record.asSender.position := by rw [here]; rfl
    rw [position]
    apply conclude
    · simp [asSender, transferring, phase]
    · rw [← position, all, sending.size]
      rfl
  · apply Sending.progress
    refine ⟨sending.direction, sending.name, sending.size, ?_, ?_, ?_⟩
    · intro event due
      cases due
      exact ⟨rfl, trivial⟩
    · intro _ due
      cases due
      exact ⟨rfl, trivial⟩
    · intro _
      exact ⟨(sending.alive live).1, identity, { sourced with }⟩
  · rw [sends_progress]
    simp [toReceiver?, same]
  · rw [sends_progress]
    simp [Describes]
  · rw [asSender_progress.2]
    rfl
  · rw [asSender_progress.2]
    rfl

theorem Sending.serves (sending : record.Sending issue) (sourced : record.Sourced identity)
    (present : record.outgoing = some source) (transferring : record.state = .transferring)
    (here : offset = record.transferred) (positive : 0 < length.toNat) {later : OutgoingFile}
    {start : UInt64} {data : Bytes}
    (read : source.nextChunkBounded io length.toNat = .ok (some (start, data), later)) :
    start = offset ∧ data ≠ [] ∧
    SenderReaction issue sha256 disturbed record (.request offset.toNat length.toNat)
      (({ record with
          outgoing := some later, transferred := offset + UInt64.ofNat data.length }.cacheResponse
          offset length (.manualFileChunk record.id offset data) now).progress now
        [.send record.peer (.manualFileChunk record.id offset data)] [.yielded data]) := by
  rcases sourced.opened source present with ⟨position, size, _, same⟩
  have bounded : source.offset ≤ source.size := by
    rw [position, size]
    exact sourced.bounded
  rcases nextChunkBounded_some bounded read with
    ⟨begins, more, full, moved, kept, hashed, alive, unchanged⟩
  have order := UInt64.le_iff_toNat_le.mp bounded
  have strict : source.offset.toNat < source.size.toNat := by
    apply Nat.lt_of_le_of_ne order
    intro equal
    exact more (UInt64.toNat_inj.mp equal)
  have limit := source.size.toNat_lt
  have nonempty : data ≠ [] := by
    intro empty
    rw [empty, List.length_nil] at full
    omega
  have small : (UInt64.ofNat data.length).toNat = data.length := by
    apply UInt64.toNat_ofNat_of_lt
    change data.length < 2 ^ 64
    omega
  have sum : (offset + UInt64.ofNat data.length).toNat = offset.toNat + data.length := by
    rw [toNat_add_of_le, small]
    rw [small, here, ← position]
    change _ ≤ 18446744073709551615
    omega
  have served : ({ record with
      outgoing := some later, transferred := offset + UInt64.ofNat data.length }.cacheResponse
      offset length (.manualFileChunk record.id offset data) now).asSender =
      record.asSender.served length.toNat data := by
    rw [here] at sum ⊢
    unfold asSender Sender.served
    simp [-UInt64.toNat_add, cacheResponse, isComplete, toReceiver?, sum, hashed, present]
  have live : isTerminal record.state = false := by rw [transferring]; rfl
  refine ⟨by rw [begins, position, here], nonempty,
    [.chunk offset.toNat data], data, ?_, ?_, ?_, ?_, ?_, ?_⟩
  · rw [asSender_progress.1, served]
    have same : offset.toNat = record.asSender.position := by rw [here]; rfl
    rw [same]
    apply SenderReacts.serve
    · simp [asSender, transferring, phase]
    · rw [← same, here, ← position]
      change _ < issue.size.toNat
      rw [← sending.size, ← size]
      exact strict
    · exact nonempty
    · rw [← same, here, ← position, full, Nat.min_comm]
      change _ = min _ (issue.size.toNat - _)
      rw [← sending.size, ← size]
  · apply Sending.progress
    refine ⟨sending.direction, sending.name, sending.size, ?_, ?_, ?_⟩
    · intro event due
      cases due
    · intro _ due
      cases due
      exact ⟨rfl, trivial⟩
    · intro _
      refine ⟨(sending.alive live).1, identity, sourced.offered, ?_, ?_, ?_⟩
      · apply UInt64.le_iff_toNat_le.mpr
        change (offset + UInt64.ofNat data.length).toNat ≤ record.size.toNat
        rw [sum, here, ← position, ← size]
        omega
      · intro absent
        cases absent
      · intro _ equal
        cases equal
        refine ⟨UInt64.toNat_inj.mp ?_, kept.trans size, alive, unchanged.trans same⟩
        change _ = (offset + UInt64.ofNat data.length).toNat
        rw [sum, moved, position, here]
  · rw [sends_progress]
    simp [toReceiver?]
  · rw [sends_progress]
    simp [Describes]
  · rw [asSender_progress.2]
    simp [yields]
  · rw [asSender_progress.2]
    rfl

theorem Sending.answerRequest (sending : record.Sending issue) (sourced : record.Sourced identity)
    (present : record.outgoing = some source) (transferring : record.state = .transferring)
    (here : offset = record.transferred) (positive : 0 < length.toNat)
    (limited : length.toNat ≤ maxManualFileChunkSize) (broken : ¬io.Serves identity → disturbed) :
    SenderReaction issue sha256 disturbed record (.request offset.toNat length.toNat)
      (record.answerRequest sha256 io source offset length now) := by
  have live : isTerminal record.state = false := by rw [transferring]; rfl
  rcases sourced.opened source present with ⟨position, size, cancelled, same⟩
  have bounded : source.offset ≤ source.size := by
    rw [position, size]
    exact sourced.bounded
  unfold Record.answerRequest Record.readSource
  by_cases all : offset = record.size
  · rw [if_pos all]
    cases finalized : source.finalizeDigest sha256 io with
    | ok =>
      exact sending.concludes sourced present transferring here all finalized
    | error =>
      apply sending.fail live
      refine .inr (.inr (.inr (.inr (broken fun serves => ?_))))
      have complete : source.offset = source.size := by rw [position, size, ← here, all]
      rw [(same ▸ serves : io.Serves source.identity).finalizeDigest complete] at finalized
      cases finalized
  · rw [if_neg all]
    cases read : source.nextChunkBounded io length.toNat with
    | ok result =>
      rcases result with ⟨chunk, _⟩
      cases chunk with
      | none =>
        have complete := nextChunkBounded_none read
        rw [position, size, ← here] at complete
        exact absurd complete all
      | some chunk =>
        rcases sending.serves sourced present transferring here positive read with
          ⟨begins, nonempty, serves⟩
        dsimp only
        rw [if_pos ⟨begins, nonempty⟩]
        exact serves
    | error =>
      apply sending.fail live
      refine .inr (.inr (.inr (.inr (broken fun serves => ?_))))
      rcases (same ▸ serves : io.Serves source.identity).nextChunkBounded cancelled bounded
        positive limited with ⟨result, succeeded⟩
      rw [read] at succeeded
      cases succeeded

theorem Sending.serve (sending : record.Sending issue) (transferring : record.state = .transferring)
    (here : offset = record.transferred) (positive : 0 < length.toNat)
    (limited : length.toNat ≤ maxManualFileChunkSize)
    (broken : ∀ identity, record.Sourced identity → ¬io.Serves identity → disturbed) :
    SenderReaction issue sha256 disturbed record (.request offset.toNat length.toNat)
      (record.serve sha256 io offset length now) := by
  have live : isTerminal record.state = false := by rw [transferring]; rfl
  rcases (sending.alive live).2 with ⟨identity, sourced⟩
  unfold Record.serve
  cases opened : record.openSource io with
  | error =>
    apply sending.fail live
    refine .inr (.inr (.inr (.inr (broken identity sourced fun serves => ?_))))
    rcases sourced.openSource_succeeds serves with ⟨source, succeeded⟩
    rw [opened] at succeeded
    cases succeeded
  | ok source =>
    rcases sourced.openSource opened with ⟨position, size, cancelled, same, read⟩
    have unchanged : { record with outgoing := some source }.asSender = record.asSender := by
      unfold asSender
      simp [read]
    have held : { record with outgoing := some source }.Sourced identity := by
      refine ⟨sourced.offered, sourced.bounded, ?_, ?_⟩
      · intro absent
        cases absent
      · intro _ equal
        cases equal
        exact ⟨position, size, cancelled, same⟩
    have kept : { record with outgoing := some source }.Sending issue :=
      ⟨sending.direction, sending.name, sending.size, sending.retry, sending.cached,
        fun _ => ⟨(sending.alive live).1, identity, held⟩⟩
    rcases kept.answerRequest held rfl transferring here positive limited
      (broken identity sourced) with ⟨answer, data, reacts, reply⟩
    rw [unchanged] at reacts
    exact ⟨answer, data, reacts, reply⟩

theorem Sending.sendChunk (sending : record.Sending issue) (offset : UInt64) (length : UInt32)
    (broken : ∀ identity, record.Sourced identity → ¬io.Serves identity → disturbed) :
    SenderReaction issue sha256 disturbed record (.request offset.toNat length.toNat)
      (record.sendChunk sha256 io offset length now) := by
  unfold Record.sendChunk
  split
  · exact .ignores sending _
  · rename_i live
    simp only [Bool.not_eq_true] at live
    split
    · rename_i waiting
      have phase : record.asSender.phase = .offered ∨ record.asSender.phase = .awaiting := by
        cases state : record.state <;> simp_all [asSender, phase, isTerminal, sending.direction]
      exact ⟨[.result false], [], .refuse phase, .tells sending rfl trivial⟩
    · rename_i started
      have transferring : record.state = .transferring := by
        by_contra waiting
        exact started (.inr waiting)
      have phase : record.asSender.phase = .transferring := by
        simp [asSender, transferring, phase]
      split
      · rename_i invalid
        apply sending.fail live
        refine .inr (.inr (.inr (.inl ⟨phase, offset.toNat, length.toNat, rfl, ?_⟩)))
        rcases invalid with empty | long | beyond
        · rw [empty]
          exact .inr (.inr (.inl rfl))
        · exact .inr (.inr (.inr long))
        · rw [sending.size] at beyond
          exact .inr (.inl (UInt64.lt_iff_toNat_lt.mp beyond))
      · rename_i valid
        simp only [not_or, Nat.not_lt] at valid
        have positive : 0 < length.toNat := by
          apply Nat.pos_of_ne_zero
          intro zero
          exact valid.1 (UInt32.toNat_inj.mp zero)
        dsimp only
        split
        · rename_i response cached
          have kept : record.cachedRequest = some (offset, length) ∧
              record.cachedResponse = some response := by
            split at cached
            · rename_i asked
              exact ⟨asked, cached⟩
            · cases cached
          rcases sending.cached response kept.2 with ⟨shown, described⟩
          rcases Option.isSome_iff_exists.mp shown with ⟨answer, view⟩
          refine ⟨[answer], [], ?_, .tells ?_ view described⟩
          · apply resend phase
            simp [asSender, kept, view]
          · exact ⟨sending.direction, sending.name, sending.size, sending.retry, sending.cached,
              fun live => ⟨(sending.alive live).1,
                (sending.alive live).2.imp fun _ sourced => { sourced with }⟩⟩
        · split
          · exact .ignores sending _
          · rename_i behind
            split
            · rename_i ahead
              apply sending.fail live
              refine .inr (.inr (.inr (.inl ⟨phase, offset.toNat, length.toNat, rfl, .inl ?_⟩)))
              have least := UInt64.le_iff_toNat_le.mp (UInt64.not_lt.mp behind)
              apply Nat.lt_of_le_of_ne least
              intro same
              exact ahead (UInt64.toNat_inj.mp same.symm)
            · rename_i here
              exact sending.serve transferring (not_not.mp here) positive valid.2.1 broken

end Request

variable (sending : record.Sending issue)
include sending

theorem Sending.receiveResult (success : Bool) (error : Option String) :
    SenderReaction issue sha256 disturbed record (.result success)
      (record.receiveResult success error now) := by
  unfold Record.receiveResult
  split
  · exact .ignores sending _
  · rename_i live
    simp only [Bool.not_eq_true] at live
    have alive := sending.alive live
    split
    · rename_i failure
      have negative : success = false := by simpa using failure
      subst negative
      refine ⟨[], [], ?_, sending.settle (.inr rfl) _ _, rfl, by simp [notify], rfl, rfl⟩
      rw [alive.1, asSender_settle_failed]
      exact .stop (phase_active.mpr live) (.inr (.inr (.inl rfl))) (.inr (.inl rfl)) (.inl rfl)
    · rename_i good
      have positive : success = true := by simpa using good
      subst positive
      split
      · rename_i done
        refine ⟨[], [], ?_, sending.settle (.inl rfl) _ _, rfl, by simp [notify], rfl, rfl⟩
        rw [asSender_settle_completed]
        apply finish
        · simp [asSender, done.2.1, phase]
        · change record.transferred.toNat = issue.size.toNat
          rw [done.2.2.1, sending.size]
        · exact done.2.2.2
      · exact .ignores sending _

theorem Sending.receiveCancel :
    SenderReaction issue sha256 disturbed record .cancel (record.receiveCancel now) := by
  unfold Record.receiveCancel
  split
  · exact .ignores sending _
  · rename_i live
    simp only [Bool.not_eq_true] at live
    refine ⟨[], [], ?_, sending.terminal rfl none, rfl, by simp [notify], rfl, rfl⟩
    rw [asSender_terminal rfl]
    exact .stop (phase_active.mpr live) (.inr (.inl rfl)) (farewell_terminal rfl none) (.inl rfl)

theorem Sending.handle (shown : toSender? event = some message)
    (late : record.Overdue now → disturbed)
    (broken : ∀ identity, record.Sourced identity → ¬io.Serves identity → disturbed) :
    SenderReaction issue sha256 disturbed record message (record.handle sha256 io event now) := by
  cases event with
  | manualFileDecision _ answer =>
    apply sending.decision _ late
    cases answer <;> exact shown
  | manualFileRequest _ offset length =>
    cases shown
    exact sending.sendChunk offset length broken
  | manualFileResult _ success error =>
    cases shown
    exact sending.receiveResult success error
  | manualFileCancel =>
    cases shown
    exact sending.receiveCancel
  | _ => cases shown

/-- What the sending side does on its own account: nothing that the protocol sees, or a move of the
abstract sender. -/
def SenderMove (issue : Issue) (disturbed : Prop) (cause : Cause) (record : Record P)
    (reply : Reply P) : Prop :=
  reply.record.asSender = record.asSender ∧ SenderReply issue reply [] [] ∨
    ∃ said retries, SenderActs disturbed record.asSender (some reply.record.asSender) said retries ∧
      SenderReply issue reply said [] ∧
      retries = if cause = .timer then
        ((sends reply.actions).filter (fun event => !isCancel event)).length else 0

theorem SenderMove.same {cause : Cause} :
    SenderMove issue disturbed cause record ⟨record, [], []⟩ :=
  .inl ⟨rfl, .same sending⟩

theorem Sending.cancel (wanted : isTerminal record.state = false → disturbed) :
    SenderMove issue disturbed .other record (record.cancel now) := by
  unfold Record.cancel
  split
  · rename_i live
    simp only [Bool.not_eq_true] at live
    refine .inr ⟨[.cancel], 0, ?_, ⟨sending.terminal rfl none, rfl, ?_, rfl, rfl⟩, rfl⟩
    · rw [asSender_terminal rfl]
      exact .stop (wanted live) (phase_active.mpr live) (farewell_terminal rfl none) (.inr rfl)
    · simp [send, notify, Describes]
  · exact .same sending

theorem Sending.decline : SenderMove issue disturbed .other record (record.decline now) := by
  unfold Record.decline
  rw [if_neg (by simp [sending.direction])]
  exact .same sending

theorem Sending.prepareReceiver (directory : PathBuf) (automatic : Bool) :
    SenderMove issue disturbed .other record
      (record.prepareReceiver io directory now automatic) := by
  unfold Record.prepareReceiver
  rw [if_pos (.inl (by simp [sending.direction]))]
  exact .same sending

theorem Sending.overwrite (directory : PathBuf) :
    SenderMove issue disturbed .other record (record.overwrite io directory now) := by
  unfold Record.overwrite
  rw [if_pos (.inl (by simp [sending.direction]))]
  exact .same sending

theorem Sending.refresh (route : Option P)
    (lost : route = none → isTerminal record.state = false → disturbed) :
    SenderMove issue disturbed .other record (record.refresh route now) := by
  unfold Record.refresh
  cases route with
  | some peer =>
    exact .inl ⟨rfl, sending.reroute peer, rfl, by simp, rfl, rfl⟩
  | none =>
    dsimp only
    split
    · rename_i live
      simp only [Bool.not_eq_true] at live
      refine .inr ⟨[], 0, ?_, ⟨sending.terminal rfl _, rfl, by simp [notify], rfl, rfl⟩, rfl⟩
      rw [asSender_terminal rfl]
      exact .stop (lost rfl live) (phase_active.mpr live) (farewell_terminal rfl _) (.inl rfl)
    · exact .same sending

/-- The timer gives up on the record. -/
def Expires (record : Record P) (now : ℕ) : Prop :=
  isTerminal record.state = false ∧
    (record.Overdue now ∨
      record.state ≠ .awaitingAcceptance ∧ retryTimeout ≤ now - record.lastActivity ∧
        maxRetries ≤ record.retries)

omit sending in
theorem retries_toReceiver {message : ToReceiver UInt8 Digest}
    (shown : toReceiver? event = some message) :
    message.retries = ([event].filter (fun event => !isCancel event)).length := by
  unfold toReceiver? at shown
  split at shown <;> cases shown <;> rfl

theorem Sending.repeats : SenderMove issue disturbed .timer record (record.retry now) := by
  have kept : (record.retry now).record.Sending issue :=
    ⟨sending.direction, sending.name, sending.size, sending.retry, sending.cached,
      fun live => ⟨(sending.alive live).1,
        (sending.alive live).2.imp fun _ sourced => { sourced with }⟩⟩
  cases due : record.retryEvent with
  | none =>
    refine .inl ⟨rfl, kept, ?_, ?_, rfl, rfl⟩
    · simp [Record.retry, due]
    · simp [Record.retry, due]
  | some event =>
    rcases sending.retry event due with ⟨shown, described⟩
    rcases Option.isSome_iff_exists.mp shown with ⟨message, view⟩
    have said : sends (record.retry now).actions = [event] := by
      simp [Record.retry, due, send]
    refine .inr ⟨[message], message.retries, .retry ?_, ⟨kept, ?_, ?_, rfl, rfl⟩, ?_⟩
    · simp [asSender, due, view]
    · rw [said]
      simp [view]
    · rw [said]
      simpa using described
    · rw [said, if_pos rfl]
      exact retries_toReceiver view

theorem Sending.expire (live : isTerminal record.state = false) (allowed : disturbed)
    (error : String) : SenderMove issue disturbed .timer record (record.expire error now) := by
  refine .inr ⟨[.cancel], 0, ?_, ⟨sending.terminal rfl _, rfl, ?_, rfl, rfl⟩, rfl⟩
  · unfold Record.expire
    rw [asSender_terminal rfl]
    exact .stop allowed (phase_active.mpr live) (farewell_terminal rfl _) (.inr rfl)
  · simp [Record.expire, send, notify, Describes]

theorem Sending.tick (expires : record.Expires now → disturbed) :
    SenderMove issue disturbed .timer record (record.tick now) := by
  unfold Record.tick
  split
  · split
    · exact sending.repeats
    · exact .same sending
  · rename_i live
    simp only [Bool.not_eq_true] at live
    split
    · rename_i passed
      exact sending.expire live (expires ⟨live, .inl passed⟩) _
    · split
      · rename_i silent
        split
        · rename_i exhausted
          exact sending.expire live (expires ⟨live, .inr ⟨silent.1, silent.2, exhausted⟩⟩) _
        · exact sending.repeats
      · exact .same sending

end Record

end Syntra.Manual
