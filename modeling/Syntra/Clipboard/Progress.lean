import Syntra.Clipboard.Replacement
import Syntra.Clipboard.Responses

/-!
# Reported progress

What the clients are told of the progress of a file: where its range ends when a chunk is taken, and
how much the range has when the completion is. The reports go forward, and end with the size of the
file, exactly when the completed ranges begin with the file.
-/

namespace Syntra.Clipboard

open ByteFormat StateMachine Proto Files Tables List

variable {P : Type}

/-- A report of progress of one file of a transfer. -/
structure ProgressReport (P : Type) where
  file : TransferOwner P × UInt64
  offset : UInt64
  received : UInt64
  size : UInt64
  completed : UInt64
  final : Bool
  deriving DecidableEq, Repr

def ProgressReport.finish (report : ProgressReport P) : ℕ :=
  report.offset.toNat + report.received.toNat

def TransferAction.progress : TransferAction P → Option UInt64
  | .frontend (.progress _ completed _) => some completed
  | _ => none

/-- The ranges of a file are read in increasing order: no chunk is taken that ends before an earlier
one. -/
def ReadInOrder (file : TransferOwner P × UInt64) (log : List (ProgressReport P)) : Prop :=
  log.Pairwise fun earlier later =>
    earlier.file = file → later.file = file → earlier.final = false → later.final = false →
    earlier.finish ≤ later.finish

/-- The reports of a file never go back or past its size, and a final one is at it. -/
def GoesForward (file : TransferOwner P × UInt64) (log : List (ProgressReport P)) : Prop :=
  (log.Pairwise fun earlier later =>
    earlier.file = file → later.file = file → earlier.completed ≤ later.completed) ∧
  (∀ report ∈ log, report.file = file → report.completed ≤ report.size) ∧
  ∀ report ∈ log, report.file = file → report.final = true → report.completed = report.size

instance [DecidableEq P] (file : TransferOwner P × UInt64) (log : List (ProgressReport P)) :
    Decidable (ReadInOrder file log) :=
  inferInstanceAs (Decidable (log.Pairwise _))

instance [DecidableEq P] (file : TransferOwner P × UInt64) (log : List (ProgressReport P)) :
    Decidable (GoesForward file log) :=
  inferInstanceAs (Decidable (log.Pairwise _ ∧ (∀ report ∈ log, _) ∧ ∀ report ∈ log, _))

namespace TransferState

variable [DecidableEq P]

def fileSize (state : TransferState P) (file : TransferOwner P × UInt64) : Option UInt64 :=
  ((state.remoteTransfers.lookup file.1).bind (·.entries.lookup file.2)).map (·.size)

def reportsOn (state : TransferState P) (key : RequestKey P) (received : PendingRange P → UInt64)
    (final : Bool) (actions : List (TransferAction P)) : List (ProgressReport P) :=
  match state.pending.lookup key, state.fileSize (key.1, key.2.1) with
  | some range, some size =>
    (actions.filterMap (·.progress)).map fun completed =>
      { file := (key.1, key.2.1), offset := range.key.offset, received := received range, size,
        completed, final }
  | _, _ => []

/-- What `inbound_chunk` and `inbound_complete` report. -/
def progressReports (state : TransferState P) (call : Call P) :
    Except (TransferStateError P) (List (TransferAction P)) → List (ProgressReport P)
  | .error _ => []
  | .ok actions =>
    match call.message with
    | some (peer, .clipboardFileChunk wireId fileId requestId _ data) =>
      state.reportsOn (⟨peer, wireId⟩, fileId, requestId)
        (fun _ => UInt64.ofNat data.length) false actions
    | some (peer, .clipboardFileComplete wireId fileId requestId _ _) =>
      state.reportsOn (⟨peer, wireId⟩, fileId, requestId) (·.received) true actions
    | _ => []

def progressStep (sha256 : Bytes → Digest) (base64 : Bytes → String) (state : TransferState P)
    (call : Call P) : TransferState P × List (ProgressReport P) :=
  ((state.perform sha256 base64 call).state,
    state.progressReports call (state.perform sha256 base64 call).result)

def AtEnd (state : TransferState P) (file : TransferOwner P × UInt64)
    (offset received size : UInt64) : Prop :=
  state.fileSize file = some size ∧ received ≠ 0 ∧ offset.toNat + received.toNat = size.toNat ∧
    ∃ requestId range, state.pending.lookup (file.1, file.2, requestId) = some range ∧
      range.key.offset = offset ∧ range.received = received

end TransferState

/-- A report counts no more than was received, and a final one counts the whole file. -/
structure ProgressReport.Exact (report : ProgressReport P) : Prop where
  within : report.finish ≤ report.size.toNat
  chunk : report.final = false → report.completed.toNat = report.finish
  completion : report.final = true →
    report.completed = report.received ∧ report.finish = report.size.toNat

namespace TransferState

variable [DecidableEq P]

/-- What a call reports, and which ranges are at the end of their files after it. -/
structure ProgressEffect (state : TransferState P) (outcome : Outcome P)
    (reports : List (ProgressReport P)) : Prop where
  single : ∀ report ∈ reports, reports = [report]
  sizes : ∀ report ∈ reports, state.fileSize report.file = some report.size
  exact : ∀ report ∈ reports, report.Exact
  final : ∀ report ∈ reports, report.final = true →
    state.AtEnd report.file report.offset report.received report.size
  reached : ∀ file offset received size, outcome.state.AtEnd file offset received size →
    state.AtEnd file offset received size ∨ ∃ report ∈ reports, report.final = false ∧
      report.file = file ∧ report.offset = offset ∧ report.received = received ∧
      report.size = size

variable {sha256 : Bytes → Digest} {base64 : Bytes → String} {whole : Prop}
  {state later : TransferState P} {call : Call P} {file : TransferOwner P × UInt64}
  {offset received size : UInt64}

theorem fileSize_eq_some :
    state.fileSize file = some size ↔ ∃ transfer entry,
      state.remoteTransfers.lookup file.1 = some transfer ∧
      transfer.entries.lookup file.2 = some entry ∧ entry.size = size := by
  simp [fileSize, Option.bind_eq_some_iff]

theorem fileSize_of_remains (remains : state.Remains later)
    (known : later.fileSize file = some size) : state.fileSize file = some size := by
  rcases fileSize_eq_some.mp known with ⟨_, entry, remote, listed, sized⟩
  rcases remains.manifests _ _ remote with ⟨before, there, same⟩
  exact fileSize_eq_some.mpr ⟨before, entry, there, same ▸ listed, sized⟩

theorem AtEnd.of_remains (remains : state.Remains later)
    (atEnd : later.AtEnd file offset received size) : state.AtEnd file offset received size := by
  rcases atEnd with ⟨known, nonzero, ends, requestId, range, found, begins, has⟩
  exact ⟨fileSize_of_remains remains known, nonzero, ends, requestId, range,
    remains.ranges _ _ found, begins, has⟩

theorem AtEnd.of_insert {key : RequestKey P} {range : PendingRange P}
    (atEnd : { state with pending := state.pending.insert key range }.AtEnd file offset received
      size) :
    state.AtEnd file offset received size ∨
      (key.1, key.2.1) = file ∧ range.key.offset = offset ∧ range.received = received := by
  rcases atEnd with ⟨known, nonzero, ends, requestId, later, found, begins, has⟩
  rw [lookup_insert] at found
  split at found
  · rename_i same
    cases found
    rw [← same]
    exact .inr ⟨rfl, begins, has⟩
  · exact .inl ⟨known, nonzero, ends, requestId, later, found, begins, has⟩

theorem ProgressEffect.silent {outcome : Outcome P}
    (reached : ∀ file offset received size, outcome.state.AtEnd file offset received size →
      state.AtEnd file offset received size) : ProgressEffect state outcome [] where
  single := fun _ member => nomatch member
  sizes := fun _ member => nomatch member
  exact := fun _ member => nomatch member
  final := fun _ member => nomatch member
  reached := fun file offset received size atEnd => .inl (reached file offset received size atEnd)

theorem ProgressEffect.of_remains {outcome : Outcome P} (remains : state.Remains outcome.state) :
    ProgressEffect state outcome [] :=
  .silent fun _ _ _ _ atEnd => atEnd.of_remains remains

theorem ProgressEffect.of_quiet {outcome : Outcome P} (quiet : state.Quiet outcome) :
    ProgressEffect state outcome [] :=
  .of_remains quiet.remains

theorem ProgressEffect.refused (error : TransferStateError P) :
    ProgressEffect state ⟨state, .error error⟩ [] :=
  .of_remains (.refl state)

theorem progressReports_of_unanswering (unanswering : call.answering = none)
    (result : Except (TransferStateError P) (List (TransferAction P))) :
    state.progressReports call result = [] := by
  cases result with
  | error => rfl
  | ok =>
    simp only [progressReports]
    unfold Call.answering at unanswering
    split
    · rename_i handed
      rw [handed] at unanswering
      cases unanswering
    · rename_i handed
      rw [handed] at unanswering
      cases unanswering
    · rfl

theorem ProgressEffect.attempt {α : Type} {checks : Except (TransferStateError P) α}
    {commit : α → TransferState P × List (TransferAction P)}
    (committed : ∀ value, ProgressEffect state ⟨(commit value).1, .ok (commit value).2⟩ []) :
    ProgressEffect state (state.attempt checks commit) [] := by
  rcases attempt_cases state checks commit with ⟨error, failed⟩ | ⟨value, -, done⟩
  · rw [failed]
    exact .refused error
  · rw [done]
    exact committed value

variable (sound : state.Sound whole)
include sound

theorem replaceOffers_progress {checks : Except (TransferStateError P) Unit}
    (superseded : List (TransferOwner P)) (notifyPeer : Bool)
    {enter : TransferState P → UiTransferId → TransferState P} {announcement : TransferAction P}
    (pending : ∀ earlier uiId, (enter earlier uiId).pending = earlier.pending)
    (sizes : ∀ earlier uiId file size, checks = .ok () →
      (enter earlier uiId).fileSize file = some size →
      earlier.fileSize file = some size ∨ state.remoteTransfers.lookup file.1 = none) :
    ProgressEffect state
      (state.replaceOffers checks superseded notifyPeer enter announcement) [] := by
  rcases replaceOffers_cases sound checks superseded notifyPeer enter announcement with
    ⟨error, _, refused⟩ | ⟨passed, next, _, ⟨_, _, full⟩ | ⟨uiId, _, _, entered⟩⟩
  · rw [refused]
    exact .refused error
  · rw [full]
    exact .of_remains (remains_cancelOwners superseded notifyPeer next)
  · have remains : state.Remains _ := remains_cancelOwners superseded notifyPeer next
    rw [entered]
    refine .silent ?_
    rintro file _ _ size ⟨known, nonzero, ends, requestId, range, found, begins, has⟩
    rw [pending] at found
    rcases sizes _ uiId file size passed known with earlier | unknown
    · exact AtEnd.of_remains remains ⟨earlier, nonzero, ends, requestId, range, found, begins, has⟩
    · rcases (sound.awaited _ _ (remains.ranges _ _ found)).covered with ⟨transfer, _, remote, _⟩
      exact absurd (unknown.symm.trans remote) (Option.some_ne_none transfer).symm

theorem inboundManifest_progress (order : IterOrder (TransferOwner P)) (peer : P)
    (adapterId : AdapterId) (adapterTransferId : String) (wireId : UInt64) (operation : Operation)
    (entries : List ClipboardManifestEntry) :
    ProgressEffect state
      (state.inboundManifest order peer adapterId adapterTransferId wireId operation entries)
      [] := by
  refine replaceOffers_progress sound _ false (fun _ _ => rfl) ?_
  intro _ _ _ _ passed known
  rw [fileSize, addRemote] at known
  simp only [lookup_insert] at known
  split at known
  · rename_i same
    right
    simp only [bind_ok, guard_bind_ok, ensureIdsAvailable, ensureOwnerAvailable, guard_ok] at passed
    rcases passed with ⟨_, _, ⟨_, ⟨free, _⟩, _⟩, _⟩
    rw [same]
    exact AList.lookup_eq_none.mpr fun member => free (.inr member)
  · exact .inl known

omit sound in
theorem adapterRangeRequest_progress (order : IterOrder (TransferOwner P)) (adapterId : String)
    (request : RangeRequest) :
    ProgressEffect state (state.adapterRangeRequest order adapterId request) [] := by
  apply ProgressEffect.attempt
  rintro ⟨owner, _⟩
  refine .silent fun _ _ _ _ atEnd => ?_
  rcases (AtEnd.of_remains (.announceRemote owner) atEnd).of_insert with before | ⟨_, _, none⟩
  · exact before
  · exact absurd none.symm atEnd.2.1

omit sound in
theorem sourceFileRequest_progress (peer : P) (wireId fileId requestId offset length : UInt64) :
    ProgressEffect state (state.sourceFileRequest peer wireId fileId requestId offset length)
      [] := by
  apply ProgressEffect.attempt
  intro _
  refine .of_remains (Remains.trans ?_ (.announceLocal ⟨peer, wireId⟩))
  exact .of_same (fun _ => rfl) (fun _ => rfl) rfl

theorem inboundChunk_progress (base64 : Bytes → String) (peer : P)
    (wireId fileId requestId offset : UInt64) (data : Bytes)
    (handed : call.message = some (peer, .clipboardFileChunk wireId fileId requestId offset data)) :
    ProgressEffect state (state.inboundChunk base64 peer wireId fileId requestId offset data)
      (state.progressReports call
        (state.inboundChunk base64 peer wireId fileId requestId offset data).result) := by
  rcases inboundChunk_cases sound base64 peer wireId fileId requestId offset data with
    ⟨_, error, refused⟩ |
    ⟨range, validator, transfer, entry, finish, found, valid, remote, listed, sums, outcome⟩
  · rw [refused]
    exact .refused error
  · rcases ClipboardFileChunkValidator.validateChunk_eq_ok.mp valid with
      ⟨_, _, _, _, _, begins, chunk, fits, _⟩
    have awaited := sound.awaited _ _ found
    have start : offset = range.key.offset := begins.trans awaited.consistent.offset
    rw [awaited.consistent.length] at fits
    rcases awaited.covered with ⟨_, _, there, named, _, _⟩
    cases remote.symm.trans there
    cases listed.symm.trans named
    rcases checkedAdd_eq_some.mp sums with ⟨room, sum⟩
    have small : data.length < 2 ^ 64 :=
      lt_of_le_of_lt (validateFileChunk_pos chunk).2 (by decide)
    have counted : (UInt64.ofNat data.length).toNat = data.length :=
      UInt64.toNat_ofNat_of_lt' small
    have known : state.fileSize (⟨peer, wireId⟩, fileId) = some entry.size :=
      fileSize_eq_some.mpr ⟨transfer, entry, remote, listed, rfl⟩
    let report : ProgressReport P :=
      { file := (⟨peer, wireId⟩, fileId), offset := range.key.offset,
        received := UInt64.ofNat data.length, size := entry.size, completed := finish,
        final := false }
    let taken : TransferState P :=
      { state with
        pending := state.pending.insert (⟨peer, wireId⟩, fileId, requestId)
          (range.feed validator data) }
    have exact : report.Exact := by
      refine ⟨?_, fun _ => ?_, fun completion => absurd completion Bool.false_ne_true⟩
      · simp only [report, ProgressReport.finish]
        omega
      · simp only [report, ProgressReport.finish]
        rw [sum, toNat_add_of_le room, start]
    have reporting : ∀ reached : Outcome P, taken.Remains reached.state →
        ProgressEffect state reached [report] := by
      intro _ remains
      refine ⟨?_, ?_, ?_, ?_, ?_⟩
      · intro told member
        rw [mem_singleton.mp member]
      · exact forall_mem_singleton.mpr known
      · exact forall_mem_singleton.mpr exact
      · intro told member final
        rw [mem_singleton.mp member] at final
        cases final
      · intro _ start _ size atEnd
        have before := atEnd.of_remains remains
        refine before.of_insert.imp_right ?_
        rintro ⟨rfl, begun, has⟩
        have sized : entry.size = size := Option.some.inj (known.symm.trans before.1)
        exact ⟨report, mem_singleton_self report, rfl, rfl, begun, has, sized⟩
    have told : ∀ actions : List (TransferAction P), actions.filterMap (·.progress) = [finish] →
        state.progressReports call (.ok actions) = [report] := by
      intro _ one
      simp only [progressReports, handed, reportsOn, found, known, one]
      rfl
    rw [outcome]
    split
    · rw [told _ rfl]
      exact reporting _ (.refl taken)
    · rename_i inner
      split
      · refine .silent fun _ start _ _ atEnd => ?_
        rcases atEnd.of_insert with before | ⟨rfl, rfl, rfl⟩
        · exact before
        · cases known.symm.trans atEnd.1
          refine absurd ((finish_eq_iff small sums).mpr ?_) inner
          rw [← atEnd.2.2.1, start]
          exact congrArg _ counted.symm
      · rw [told _ rfl]
        exact reporting _ (.erasePending _)

theorem inboundComplete_progress (sha256 : Bytes → Digest) (base64 : Bytes → String) (peer : P)
    (wireId fileId requestId size : UInt64) (digest : Digest)
    (handed : call.message = some (peer, .clipboardFileComplete wireId fileId requestId size
      digest)) :
    ProgressEffect state
      (state.inboundComplete sha256 base64 peer wireId fileId requestId size digest)
      (state.progressReports call
        (state.inboundComplete sha256 base64 peer wireId fileId requestId size digest).result) := by
  simp only [TransferState.inboundComplete]
  split
  · exact .refused _
  · rename_i range passed
    rcases checkCompletion_eq_ok.mp passed with
      ⟨transfer, entry, remote, listed, found, nonzero, covered, _, _⟩
    have awaited := sound.awaited _ _ found
    have there : state.remoteTransfers.lookup range.key.owner = some transfer := by
      rw [awaited.owner]
      exact remote
    have known : state.fileSize (⟨peer, wireId⟩, fileId) = some entry.size :=
      fileSize_eq_some.mpr ⟨transfer, entry, remote, listed, rfl⟩
    have ends : range.key.offset.toNat + range.received.toNat = entry.size.toNat := by
      rcases checkedAdd_eq_some.mp covered with ⟨fits, sum⟩
      rw [sum, toNat_add_of_le fits]
    simp only [there, progressReports, handed, reportsOn, found, known]
    refine ⟨?_, ?_, ?_, ?_, ?_⟩
    · intro report member
      rw [mem_singleton.mp member]
      rfl
    · exact forall_mem_singleton.mpr known
    · exact forall_mem_singleton.mpr ⟨le_of_eq ends, by simp, fun _ => ⟨rfl, ends⟩⟩
    · intro _ member _
      rw [mem_singleton.mp member]
      exact ⟨known, nonzero, ends, requestId, range, found, rfl, rfl⟩
    · exact fun _ _ _ _ atEnd => .inl (atEnd.of_remains (.erasePending _))

theorem perform_progress (sha256 : Bytes → Digest) (base64 : Bytes → String) (call : Call P) :
    ProgressEffect state (state.perform sha256 base64 call)
      (state.progressReports call (state.perform sha256 base64 call).result) := by
  cases call with
  | inboundChunk peer wireId fileId requestId offset data =>
    exact inboundChunk_progress sound base64 peer wireId fileId requestId offset data rfl
  | inboundComplete peer wireId fileId requestId size digest =>
    exact inboundComplete_progress sound sha256 base64 peer wireId fileId requestId size digest rfl
  | localCopyManifest =>
    rw [progressReports_of_unanswering rfl]
    exact replaceOffers_progress sound _ true (fun _ _ => rfl) fun _ _ _ _ _ known => .inl known
  | inboundManifest order peer adapterId adapterTransferId wireId operation entries =>
    rw [progressReports_of_unanswering rfl]
    exact inboundManifest_progress sound order peer adapterId adapterTransferId wireId operation
      entries
  | adapterRangeRequest order adapterId request =>
    rw [progressReports_of_unanswering rfl]
    exact adapterRangeRequest_progress order adapterId request
  | adapterMountReady =>
    rw [progressReports_of_unanswering rfl]
    exact .attempt fun _ => .of_remains (.refl state)
  | sourceFileRequest peer wireId fileId requestId offset length =>
    rw [progressReports_of_unanswering rfl]
    exact sourceFileRequest_progress peer wireId fileId requestId offset length
  | sourceChunk =>
    rw [progressReports_of_unanswering rfl]
    exact .attempt fun _ => .of_remains (.refl state)
  | sourceComplete owner fileId requestId =>
    rw [progressReports_of_unanswering rfl]
    exact .attempt fun _ => .of_remains (.sourceRangeServed owner fileId requestId)
  | handleProtocol peer event =>
    cases event with
    | clipboardFileChunk wireId fileId requestId offset data =>
      exact inboundChunk_progress sound base64 peer wireId fileId requestId offset data rfl
    | clipboardFileComplete wireId fileId requestId size digest =>
      exact inboundComplete_progress sound sha256 base64 peer wireId fileId requestId size
        digest rfl
    | clipboardFileRequest wireId fileId requestId offset length =>
      rw [progressReports_of_unanswering rfl]
      exact sourceFileRequest_progress peer wireId fileId requestId offset length
    | _ =>
      rw [progressReports_of_unanswering rfl]
      refine .of_quiet ?_
      exact perform_quiet sha256 base64 trivial
  | _ =>
    rw [progressReports_of_unanswering rfl]
    refine .of_quiet ?_
    exact perform_quiet sha256 base64 trivial

omit sound

/-- The chunk of a range up to the end of its file has been reported, and the size of the file has
not changed since. -/
def Reported (log : List (ProgressReport P)) (file : TransferOwner P × UInt64)
    (offset received size : UInt64) : Prop :=
  ∃ earlier report later, log = earlier ++ report :: later ∧ report.final = false ∧
    report.file = file ∧ report.offset = offset ∧ report.received = received ∧
    report.size = size ∧ ∀ other ∈ later, other.file = file → other.size = size

def EndInOrder (file : TransferOwner P × UInt64) (log : List (ProgressReport P)) : Prop :=
  log.Pairwise fun earlier later =>
    earlier.file = file → later.file = file → earlier.finish ≤ later.finish

/-- The reports so far account for what was received so far. -/
structure Tracked (state : TransferState P) (log : List (ProgressReport P)) : Prop where
  sound : state.Sound False
  exact : ∀ report ∈ log, report.Exact
  reported : ∀ file offset received size, state.AtEnd file offset received size →
    Reported log file offset received size
  completed : ∀ report ∈ log, report.final = true → ∃ chunk ∈ log, chunk.final = false ∧
    chunk.file = report.file ∧ chunk.finish = report.finish
  ordered : ∀ file, ReadInOrder file log → EndInOrder file log

theorem tracked_new : (new : TransferState P).Tracked [] where
  sound := new_sound
  exact := fun _ member => nomatch member
  reported := by
    rintro _ _ _ _ ⟨_, _, _, _, _, found, _⟩
    simp [new] at found
  completed := fun _ member => nomatch member
  ordered := fun _ _ => .nil

section

omit [DecidableEq P]

theorem Reported.appended {log reports : List (ProgressReport P)}
    (before : Reported log file offset received size)
    (sizes : ∀ report ∈ reports, report.file = file → report.size = size) :
    Reported (log ++ reports) file offset received size := by
  rcases before with ⟨earlier, report, later, rfl, chunk, about, begins, has, sized, kept⟩
  refine ⟨earlier, report, later ++ reports, by simp, chunk, about, begins, has, sized, ?_⟩
  intro other member same
  rcases mem_append.mp member with earlier | now
  · exact kept other earlier same
  · exact sizes other now same

theorem Reported.finish {log : List (ProgressReport P)}
    (reported : Reported log file offset received size) :
    ∃ chunk ∈ log, chunk.final = false ∧ chunk.file = file ∧
      chunk.finish = offset.toNat + received.toNat := by
  rcases reported with ⟨_, report, _, rfl, chunk, about, rfl, rfl, _⟩
  exact ⟨report, by simp, chunk, about, rfl⟩

theorem EndInOrder.completed {log : List (ProgressReport P)} (ordered : EndInOrder file log)
    (exact : ∀ report ∈ log, report.Exact) (reported : Reported log file offset received size)
    (ends : offset.toNat + received.toNat = size.toNat) :
    ∀ report ∈ log, report.file = file → report.finish ≤ size.toNat := by
  rcases reported with ⟨_, chunk, _, rfl, _, about, rfl, rfl, rfl, kept⟩
  intro report member same
  rcases mem_append.mp member with before | rest
  · have inOrder :=
      (pairwise_append.mp ordered).2.2 report before chunk (mem_cons_self ..)
    exact ends ▸ inOrder same about
  · have within := (exact report member).within
    rcases mem_cons.mp rest with rfl | after
    · exact within
    · exact kept report after same ▸ within

end

theorem Tracked.effect {log reports : List (ProgressReport P)} (tracked : state.Tracked log)
    {outcome : Outcome P} (sound : outcome.state.Sound False)
    (effect : ProgressEffect state outcome reports) : outcome.state.Tracked (log ++ reports) := by
  refine ⟨sound, ?_, ?_, ?_, ?_⟩
  · intro report member
    rcases mem_append.mp member with before | now
    · exact tracked.exact report before
    · exact effect.exact report now
  · intro file offset received size atEnd
    rcases effect.reached file offset received size atEnd with
      before | ⟨report, member, chunk, about, begins, has, sized⟩
    · apply (tracked.reported file offset received size before).appended
      intro report member same
      have known := effect.sizes report member
      rw [same, before.1] at known
      exact (Option.some.inj known).symm
    · rw [effect.single report member]
      exact ⟨log, report, [], rfl, chunk, about, begins, has, sized, fun _ none => nomatch none⟩
  · intro report member final
    rcases mem_append.mp member with before | now
    · rcases tracked.completed report before final with ⟨chunk, listed, same⟩
      exact ⟨chunk, mem_append_left _ listed, same⟩
    · rcases (tracked.reported _ _ _ _ (effect.final report now final)).finish with
        ⟨chunk, listed, same⟩
      exact ⟨chunk, mem_append_left _ listed, same⟩
  · intro file readInOrder
    rcases pairwise_append.mp readInOrder with ⟨before, _, across⟩
    have ordered := tracked.ordered file before
    have single : EndInOrder file reports := by
      cases reports with
      | nil => exact .nil
      | cons report =>
        rw [effect.single report (mem_cons_self ..)]
        exact pairwise_singleton _ report
    refine pairwise_append.mpr ⟨ordered, single, ?_⟩
    intro earlier member later now same about
    by_cases final : later.final = true
    · have atEnd := effect.final later now final
      have reported := tracked.reported _ _ _ _ atEnd
      rw [about] at reported
      have ends := (effect.exact later now).completion final
      rw [ends.2]
      exact ordered.completed tracked.exact reported atEnd.2.2.1 earlier member same
    · rw [Bool.not_eq_true] at final
      by_cases completes : earlier.final = true
      · rcases tracked.completed earlier member completes with
          ⟨chunk, listed, chunkOf, sameFile, ends⟩
        rw [← ends]
        exact across chunk listed later now (sameFile.trans same) about chunkOf final
      · rw [Bool.not_eq_true] at completes
        exact across earlier member later now same about completes final

theorem tracked_outcome (sha256 : Bytes → Digest) (base64 : Bytes → String)
    (calls : List (Call P)) :
    (outcome (progressStep sha256 base64) new calls).1.Tracked
      (outcome (progressStep sha256 base64) new calls).2 := by
  apply outcome_accounts Tracked _ tracked_new
  intro _ _ call tracked
  exact tracked.effect (tracked.sound.perform sha256 base64 False.elim)
    (perform_progress tracked.sound sha256 base64 call)

/-- In every run that reads a file in increasing order, the reports for the file go forward exactly
when every range of it that is completed starts with the file. -/
theorem progress_goes_forward (sha256 : Bytes → Digest) (base64 : Bytes → String)
    (calls : List (Call P)) (file : TransferOwner P × UInt64)
    (readInOrder : ReadInOrder file (outcome (progressStep sha256 base64) new calls).2) :
    GoesForward file (outcome (progressStep sha256 base64) new calls).2 ↔
      ∀ report ∈ (outcome (progressStep sha256 base64) new calls).2, report.file = file →
        report.final = true → report.offset = 0 := by
  have tracked := tracked_outcome sha256 base64 calls
  generalize (outcome (progressStep sha256 base64) new calls).2 = log at *
  constructor
  · rintro ⟨-, -, whole⟩ report member about final
    rcases (tracked.exact report member).completion final with ⟨counted, ends⟩
    rw [ProgressReport.finish, ← whole report member about final, counted] at ends
    exact UInt64.toNat_inj.mp (Nat.add_eq_right.mp ends)
  · intro fromStart
    have counts : ∀ report ∈ log, report.file = file → report.completed.toNat = report.finish := by
      intro report member about
      have exact := tracked.exact report member
      cases final : report.final with
      | false => exact exact.chunk final
      | true =>
        rw [ProgressReport.finish, fromStart report member about final, (exact.completion final).1]
        simp
    refine ⟨?_, ?_, ?_⟩
    · refine (tracked.ordered file readInOrder).imp_of_mem ?_
      intro earlier later before after inOrder same about
      rw [UInt64.le_iff_toNat_le, counts earlier before same, counts later after about]
      exact inOrder same about
    · intro report member about
      rw [UInt64.le_iff_toNat_le, counts report member about]
      exact (tracked.exact report member).within
    · intro report member about final
      rw [← UInt64.toNat_inj, counts report member about]
      exact ((tracked.exact report member).completion final).2

/-- Peer 1 sends a file of three bytes, which is read in two ranges. -/
def readAbcInTwo : List (Call ℕ) :=
  [offerAbc, .adapterRangeRequest (.asStored _) "7" ⟨"7", 1, 1, 0, 2⟩,
    .inboundChunk 1 7 1 1 0 [0x61, 0x62],
    .adapterRangeRequest (.asStored _) "7" ⟨"7", 2, 1, 2, 1⟩,
    .inboundChunk 1 7 1 2 2 [0x63], .inboundComplete 1 7 1 2 3 abcDigest]

theorem progress_goes_back :
    let log := (outcome (progressStep (fun _ => abcDigest) fun _ => "YWJj") new readAbcInTwo).2
    ReadInOrder (⟨1, 7⟩, 1) log ∧ log.map (·.completed) = [2, 3, 1] ∧
      ¬GoesForward (⟨1, 7⟩, 1) log := by
  decide +kernel

theorem progress_goes_forward_abc :
    let log := (outcome (progressStep (fun _ => abcDigest) fun _ => "YWJj") new
      [offerAbc, requestAbc, .inboundChunk 1 7 1 1 0 [0x61, 0x62, 0x63],
        .inboundComplete 1 7 1 1 3 abcDigest]).2
    GoesForward (⟨1, 7⟩, 1) log ∧ log.map (·.completed) = [3, 3] := by
  refine ⟨(progress_goes_forward _ _ _ _ ?_).mpr ?_, ?_⟩
  · decide +kernel
  · decide +kernel
  · decide +kernel

end TransferState

end Syntra.Clipboard
