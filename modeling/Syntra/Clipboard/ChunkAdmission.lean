import Syntra.Clipboard.Steps
import Syntra.Proto.Decoding
import Syntra.StateMachine.Handler

/-!
# What answers a range request

`ClipboardFileChunkValidator` with its fields assigned in place, for any sequence of calls: one
chunk of the range may be accepted and after it, or instead of it, one completion.
-/

namespace Syntra.Clipboard

open ByteFormat Proto StateMachine StateMachine.Handler List

namespace ClipboardFileChunkValidator

/-- `validate_chunk`. -/
def validateChunkInPlace (transferId fileId requestId offset : UInt64) (dataLen : ℕ) :
    Handler ClipboardFileChunkValidator ProtocolError Unit := do
  let self ← read
  if self.complete ∨ self.chunkReceived then
    stop (.invalidFileChunk "duplicate chunk")
  if (transferId, fileId, requestId) ≠ (self.transferId, self.fileId, self.requestId) then
    stop (.invalidFileChunk "unexpected transfer identity")
  if offset ≠ self.offset then
    stop (.invalidFileChunk "unexpected offset")
  attempt (validateFileChunk offset dataLen)
  if dataLen > self.length.toNat then
    stop (.invalidFileChunk "chunk exceeds requested length")
  let chunkEnd ← attempt (okOr (checkedAdd offset (UInt64.ofNat dataLen)) .lengthOverflow)
  change fun self => { self with chunkReceived := true }
  change fun self => { self with chunkEnd := some chunkEnd }
  change fun self => { self with eof := UInt64.ofNat dataLen < self.length }

def validateComplete (transferId fileId requestId size : UInt64) :
    Handler ClipboardFileChunkValidator ProtocolError Unit := do
  let self ← read
  if self.complete then
    stop (.invalidFileChunk "duplicate completion")
  if (transferId, fileId, requestId) ≠ (self.transferId, self.fileId, self.requestId) then
    stop (.invalidFileChunk "unexpected transfer identity")
  if self.chunkReceived then
    if self.eof = false ∨ self.chunkEnd ≠ some size then
      stop (.invalidFileChunk "inconsistent completion size")
  else if size ≠ self.offset then
    stop (.invalidFileChunk "completion before end of file")
  attempt (validateFilePosition size)
  change fun self => { self with complete := true }

variable (validator : ClipboardFileChunkValidator)

/-- The chunk is accepted just where the check of `Transfer` accepts it, and leaves the same
validator; a chunk that is rejected leaves the validator alone. -/
theorem validateChunkInPlace_ensures (transferId fileId requestId offset : UInt64) (dataLen : ℕ) :
    (validateChunkInPlace transferId fileId requestId offset dataLen).Ensures validator
      (fun _ later =>
        validator.validateChunk transferId fileId requestId offset dataLen = .ok later)
      fun _ later => later = validator := by
  simp only [validateChunkInPlace, ensures_bind, ensures_read, ensures_ite, ensures_stop,
    ensures_attempt, ensures_change]
  refine ⟨fun _ => trivial, fun unfed => ⟨fun _ => trivial, fun named =>
    ⟨fun _ => trivial, fun here => ?_⟩⟩⟩
  refine ⟨fun _ valid => ⟨fun _ => trivial, fun fits =>
    ⟨fun chunkEnd ends => ?_, fun _ _ => trivial⟩⟩, fun _ _ => trivial⟩
  simp only [not_or, Bool.not_eq_true, ne_eq, not_not, Prod.mk.injEq] at unfed named here
  exact validateChunk_eq_ok.mpr ⟨unfed.1, unfed.2, named.1, named.2.1, named.2.2, here, valid,
    not_lt.mp fits, chunkEnd, okOr_eq_ok.mp ends, rfl⟩

theorem validateComplete_ensures (transferId fileId requestId size : UInt64) :
    (validateComplete transferId fileId requestId size).Ensures validator
      (fun _ later => validator.complete = false ∧ transferId = validator.transferId ∧
        fileId = validator.fileId ∧ requestId = validator.requestId ∧
        (if validator.chunkReceived then validator.eof = true ∧ validator.chunkEnd = some size
          else size = validator.offset) ∧
        size.toNat ≤ maxClipboardSize ∧ later = { validator with complete := true })
      fun _ later => later = validator := by
  simp only [validateComplete, ensures_bind, ensures_read, ensures_ite, ensures_stop,
    ensures_attempt, ensures_change]
  refine ⟨fun _ => trivial, fun open_ => ⟨fun _ => trivial, fun named =>
    ⟨fun fed => ⟨fun _ => trivial, ?_⟩, fun unfed => ⟨fun _ => trivial, ?_⟩⟩⟩⟩
  · intro consistent
    refine ⟨fun _ small => ?_, fun _ _ => trivial⟩
    simp only [ne_eq, not_or, not_not, Bool.not_eq_false, Bool.not_eq_true, Prod.mk.injEq]
      at open_ named consistent
    rw [if_pos fed]
    exact ⟨open_, named.1, named.2.1, named.2.2, consistent,
      validateFilePosition_eq_ok.mp small, trivial⟩
  · intro ending
    refine ⟨fun _ small => ?_, fun _ _ => trivial⟩
    simp only [ne_eq, not_not, Bool.not_eq_true, Prod.mk.injEq] at open_ named ending
    rw [if_neg unfed]
    exact ⟨open_, named.1, named.2.1, named.2.2, ending,
      validateFilePosition_eq_ok.mp small, trivial⟩

/-- A call with the values that came over the network. -/
inductive ValidatorCall where
  | chunk (transferId fileId requestId offset : UInt64) (dataLen : ℕ)
  | complete (transferId fileId requestId size : UInt64)
  deriving DecidableEq, Repr

namespace ValidatorCall

def isChunk : ValidatorCall → Bool
  | .chunk .. => true
  | .complete .. => false

/-- The position in the file that the call says has been reached. -/
def position : ValidatorCall → ℕ
  | .chunk _ _ _ offset dataLen => offset.toNat + dataLen
  | .complete _ _ _ size => size.toNat

def handler : ValidatorCall → Handler ClipboardFileChunkValidator ProtocolError Unit
  | .chunk transferId fileId requestId offset dataLen =>
    validateChunkInPlace transferId fileId requestId offset dataLen
  | .complete transferId fileId requestId size =>
    validateComplete transferId fileId requestId size

end ValidatorCall

def answer (validator : ClipboardFileChunkValidator) (call : ValidatorCall) :
    ClipboardFileChunkValidator × List ValidatorCall :=
  match call.handler validator with
  | (.ok (), later) => (later, [call])
  | (.error _, later) => (later, [])

/-- The calls accepted so far by a validator that was `fresh`, and how they have left it. -/
inductive Admitted (fresh : ClipboardFileChunkValidator) :
    ClipboardFileChunkValidator → List ValidatorCall → Prop
  | waiting : Admitted fresh fresh []
  | answered (dataLen : ℕ) (chunkEnd : UInt64)
      (valid : validateFileChunk fresh.offset dataLen = .ok ())
      (fits : dataLen ≤ fresh.length.toNat)
      (ends : checkedAdd fresh.offset (UInt64.ofNat dataLen) = some chunkEnd) :
      Admitted fresh
        { fresh with
          chunkReceived := true
          chunkEnd := some chunkEnd
          eof := UInt64.ofNat dataLen < fresh.length }
        [.chunk fresh.transferId fresh.fileId fresh.requestId fresh.offset dataLen]
  | ended :
      Admitted fresh { fresh with complete := true }
        [.complete fresh.transferId fresh.fileId fresh.requestId fresh.offset]
  | answeredAndEnded (dataLen : ℕ) (chunkEnd : UInt64)
      (valid : validateFileChunk fresh.offset dataLen = .ok ())
      (fits : dataLen ≤ fresh.length.toNat)
      (ends : checkedAdd fresh.offset (UInt64.ofNat dataLen) = some chunkEnd)
      (short : UInt64.ofNat dataLen < fresh.length) :
      Admitted fresh
        { fresh with
          chunkReceived := true
          chunkEnd := some chunkEnd
          eof := true
          complete := true }
        [.chunk fresh.transferId fresh.fileId fresh.requestId fresh.offset dataLen,
          .complete fresh.transferId fresh.fileId fresh.requestId chunkEnd]

/-- What every validator is that a range request makes. -/
structure Fresh (validator : ClipboardFileChunkValidator) : Prop where
  unfed : validator.chunkReceived = false
  incomplete : validator.complete = false
  small : validator.offset.toNat ≤ maxClipboardSize

variable {validator fresh : ClipboardFileChunkValidator} {accepted : List ValidatorCall}

theorem Fresh.of_new {transferId fileId requestId offset length : UInt64}
    (made : new transferId fileId requestId offset length = .ok validator) :
    validator.Fresh ∧ validator.transferId = transferId ∧ validator.fileId = fileId ∧
      validator.requestId = requestId ∧ validator.offset = offset ∧ validator.length = length := by
  simp only [new, guard_bind_ok, bind_ok, pure_ok] at made
  rcases made with ⟨_, _, valid, _, rfl⟩
  simp only [validateRequest, bind_ok] at valid
  rcases valid with ⟨_, small, _⟩
  exact ⟨⟨rfl, rfl, validateFilePosition_eq_ok.mp small⟩, rfl, rfl, rfl, rfl, rfl⟩

variable {later : ClipboardFileChunkValidator} {call : ValidatorCall}

theorem rejected_unchanged {error : ProtocolError}
    (rejected : call.handler validator = (.error error, later)) : later = validator := by
  cases call with
  | chunk transferId fileId requestId offset dataLen =>
    have ensures :=
      validateChunkInPlace_ensures validator transferId fileId requestId offset dataLen
    rw [ValidatorCall.handler] at rejected
    rwa [Ensures, rejected] at ensures
  | complete transferId fileId requestId size =>
    have ensures := validateComplete_ensures validator transferId fileId requestId size
    rw [ValidatorCall.handler] at rejected
    rwa [Ensures, rejected] at ensures

theorem accepted_cases (accepted : call.handler validator = (.ok (), later)) :
    (∃ dataLen,
      call = .chunk validator.transferId validator.fileId validator.requestId validator.offset
        dataLen ∧
      validator.validateChunk validator.transferId validator.fileId validator.requestId
        validator.offset dataLen = .ok later) ∨
    ∃ size, call = .complete validator.transferId validator.fileId validator.requestId size ∧
      validator.complete = false ∧
      (if validator.chunkReceived then validator.eof = true ∧ validator.chunkEnd = some size
        else size = validator.offset) ∧
      later = { validator with complete := true } := by
  cases call with
  | chunk transferId fileId requestId offset dataLen =>
    have ensures :=
      validateChunkInPlace_ensures validator transferId fileId requestId offset dataLen
    rw [ValidatorCall.handler] at accepted
    rw [Ensures, accepted] at ensures
    rcases validateChunk_eq_ok.mp ensures with ⟨_, _, rfl, rfl, rfl, rfl, _⟩
    exact .inl ⟨dataLen, rfl, ensures⟩
  | complete transferId fileId requestId size =>
    have ensures := validateComplete_ensures validator transferId fileId requestId size
    rw [ValidatorCall.handler] at accepted
    rw [Ensures, accepted] at ensures
    rcases ensures with ⟨incomplete, rfl, rfl, rfl, consistent, _, rfl⟩
    exact .inr ⟨size, rfl, incomplete, consistent, rfl⟩

theorem Admitted.answer (admitted : Admitted fresh validator accepted) (usable : fresh.Fresh)
    (call : ValidatorCall) :
    Admitted fresh (validator.answer call).1 (accepted ++ (validator.answer call).2) := by
  unfold ClipboardFileChunkValidator.answer
  rcases answered : call.handler validator with ⟨_ | ⟨⟩, _⟩
  · obtain rfl := rejected_unchanged answered
    simpa using admitted
  · rcases accepted_cases answered with ⟨dataLen, rfl, valid⟩ | ⟨_, rfl, open_, ends, rfl⟩
    · rcases validateChunk_eq_ok.mp valid with
        ⟨incomplete, unfed, _, _, _, _, chunk, fits, chunkEnd, added, rfl⟩
      cases admitted with
      | waiting => exact .answered dataLen chunkEnd chunk fits added
      | answered => cases unfed
      | ended | answeredAndEnded => cases incomplete
    · cases admitted with
      | waiting =>
        rw [if_neg (by simp [usable.unfed])] at ends
        subst ends
        exact .ended
      | answered dataLen chunkEnd valid fits added =>
        rcases ends with ⟨short, same⟩
        obtain rfl := Option.some.inj same
        rw [short]
        exact .answeredAndEnded dataLen chunkEnd valid fits added (of_decide_eq_true short)
      | ended | answeredAndEnded => cases open_

theorem chunkEnd_bounded {offset chunkEnd : UInt64} {dataLen : ℕ}
    (valid : validateFileChunk offset dataLen = .ok ())
    (added : checkedAdd offset (UInt64.ofNat dataLen) = some chunkEnd) :
    chunkEnd.toNat = offset.toNat + dataLen ∧ chunkEnd.toNat ≤ maxClipboardSize := by
  have sizes := validateFileChunk_pos valid
  have small : dataLen < 2 ^ 64 := lt_of_le_of_lt sizes.2 (by decide)
  simp only [validateFileChunk, guard_bind_ok, bind_ok, okOr_eq_ok] at valid
  rcases valid with ⟨_, _, _, _, _, ends, bounded⟩
  obtain rfl := Option.some.inj (added.symm.trans ends)
  rcases checkedAdd_eq_some.mp added with ⟨fits, rfl⟩
  refine ⟨?_, validateFilePosition_eq_ok.mp bounded⟩
  rw [toNat_add_of_le fits, UInt64.toNat_ofNat_of_lt' small]

theorem Admitted.ordered (admitted : Admitted fresh validator accepted) :
    accepted.countP ValidatorCall.isChunk ≤ 1 ∧
      (accepted.countP fun call => !call.isChunk) ≤ 1 ∧
      accepted.Pairwise fun earlier later => earlier.isChunk = false → later.isChunk = false := by
  cases admitted <;> simp [ValidatorCall.isChunk, countP_cons]

theorem Admitted.answers (admitted : Admitted fresh validator accepted) :
    ∀ call ∈ accepted,
      (∃ dataLen, call = .chunk fresh.transferId fresh.fileId fresh.requestId fresh.offset dataLen ∧
        0 < dataLen ∧ dataLen ≤ fresh.length.toNat) ∨
      ∃ size, call = .complete fresh.transferId fresh.fileId fresh.requestId size ∧
        ((∃ dataLen,
            .chunk fresh.transferId fresh.fileId fresh.requestId fresh.offset dataLen ∈ accepted ∧
            size.toNat = fresh.offset.toNat + dataLen) ∨
          accepted.countP ValidatorCall.isChunk = 0 ∧ size = fresh.offset) := by
  intro _ member
  cases admitted with
  | waiting => cases member
  | answered dataLen _ valid fits =>
    obtain rfl := mem_singleton.mp member
    exact .inl ⟨dataLen, rfl, (validateFileChunk_pos valid).1, fits⟩
  | ended =>
    obtain rfl := mem_singleton.mp member
    exact .inr ⟨fresh.offset, rfl, .inr ⟨by simp [ValidatorCall.isChunk], rfl⟩⟩
  | answeredAndEnded dataLen chunkEnd valid fits added =>
    rcases mem_pair.mp member with rfl | rfl
    · exact .inl ⟨dataLen, rfl, (validateFileChunk_pos valid).1, fits⟩
    · exact .inr ⟨chunkEnd, rfl, .inl ⟨dataLen, .head _, (chunkEnd_bounded valid added).1⟩⟩

theorem Admitted.bounded (admitted : Admitted fresh validator accepted) (usable : fresh.Fresh) :
    ∀ call ∈ accepted, call.position ≤ maxClipboardSize := by
  intro _ member
  cases admitted with
  | waiting => cases member
  | answered _ _ valid _ added =>
    obtain rfl := mem_singleton.mp member
    have ends := chunkEnd_bounded valid added
    simpa only [ValidatorCall.position, ends.1] using ends.2
  | ended =>
    obtain rfl := mem_singleton.mp member
    exact usable.small
  | answeredAndEnded _ _ valid _ added =>
    have ends := chunkEnd_bounded valid added
    rcases mem_pair.mp member with rfl | rfl
    · simpa only [ValidatorCall.position, ends.1] using ends.2
    · exact ends.2

/-- A validator that a range request has made accepts one chunk and one completion at most, and the
chunk first: those of the request, which end where the chunk ends. Calls that it rejects leave it as
it was. -/
theorem validator_accepts_one_answer {transferId fileId requestId offset length : UInt64}
    {validator : ClipboardFileChunkValidator}
    (made : new transferId fileId requestId offset length = .ok validator)
    (calls : List ValidatorCall) :
    let accepted := (outcome answer validator calls).2
    accepted.countP ValidatorCall.isChunk ≤ 1 ∧
    (accepted.countP fun call => !call.isChunk) ≤ 1 ∧
    (accepted.Pairwise fun earlier later => earlier.isChunk = false → later.isChunk = false) ∧
    (∀ call ∈ accepted,
      (∃ dataLen, call = .chunk transferId fileId requestId offset dataLen ∧ 0 < dataLen ∧
        dataLen ≤ length.toNat) ∨
      ∃ size, call = .complete transferId fileId requestId size ∧
        ((∃ dataLen, .chunk transferId fileId requestId offset dataLen ∈ accepted ∧
            size.toNat = offset.toNat + dataLen) ∨
          accepted.countP ValidatorCall.isChunk = 0 ∧ size = offset)) ∧
    (∀ call ∈ accepted, call.position ≤ maxClipboardSize) ∧
    ∀ state call, Meets answer validator calls state call → ∀ error later,
      call.handler state = (.error error, later) → later = state := by
  rcases Fresh.of_new made with ⟨usable, rfl, rfl, rfl, rfl, rfl⟩
  have admitted : Admitted validator (outcome answer validator calls).1
      (outcome answer validator calls).2 :=
    outcome_accounts (Admitted validator)
      (fun _ _ call admitted => admitted.answer usable call) .waiting calls
  rcases admitted.ordered with ⟨chunks, completions, last⟩
  exact ⟨chunks, completions, last, admitted.answers, admitted.bounded usable,
    fun _ _ _ _ _ => rejected_unchanged⟩

theorem validator_accepts_one_answer_of_range : let validator : ClipboardFileChunkValidator :=
      { transferId := 1, fileId := 2, requestId := 3, offset := 10, length := 8,
        chunkReceived := false, chunkEnd := none, eof := false, complete := false }
    let accepted := (outcome answer validator
      [.complete 1 2 4 10, .chunk 1 2 3 10 4, .chunk 1 2 3 10 4, .complete 1 2 3 18,
        .complete 1 2 3 14, .chunk 1 2 3 10 4]).2
    accepted = [.chunk 1 2 3 10 4, .complete 1 2 3 14] ∧
      accepted.countP ValidatorCall.isChunk ≤ 1 ∧
      (accepted.countP fun call => !call.isChunk) ≤ 1 := by
  intro validator _
  have made : new 1 2 3 10 8 = .ok validator := by decide
  have answers := validator_accepts_one_answer made
    [.complete 1 2 4 10, .chunk 1 2 3 10 4, .chunk 1 2 3 10 4, .complete 1 2 3 18,
      .complete 1 2 3 14, .chunk 1 2 3 10 4]
  exact ⟨by decide, answers.1, answers.2.1⟩

end ClipboardFileChunkValidator

end Syntra.Clipboard
