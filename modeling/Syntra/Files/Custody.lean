import Syntra.Files.Reception

/-!
# What a transfer holds

In every state of a reception the open files hold what was accepted for them, as long as no call on
them has failed, and what the transfer remembers to have created it did create. Each operation does
to the transfer what it does to the transfer alone.
-/

namespace Syntra.Files

open ByteFormat FileTree StateMachine Proto Tables Handler List
open Handler (ensures_bind ensures_read)
open IncomingTransfer (checkChunk_eq_ok checkSize_eq_ok collectEntries new)

namespace Reception

open Handler (read change stop)

variable {α : Type} {answers : Answers} {sha256 : Bytes → Digest} {reception : Reception}
  {manifest : Table UInt64 ClipboardManifestEntry}

/-- The bytes of an open file are the accepted chunks, in order, as many as its offset says and at
most as many as the manifest; they were written through the file unless a call on it failed. -/
structure Holds (reception : Reception) (fileId : UInt64) (incoming : IncomingFile) : Prop where
  declared : ∃ entry, reception.transfer.entries.lookup fileId = some entry ∧ entry.kind = .file ∧
    incoming.expected = entry.size
  accepted : ∃ chunks, reception.accepted.lookup fileId = some chunks ∧
    incoming.file = chunks.flatten
  offset : incoming.offset.toNat = incoming.file.length
  within : incoming.offset ≤ incoming.expected
  hashed : incoming.hasher = incoming.file
  written : ∃ file, reception.openFiles.lookup fileId = some file ∧
    (file.failed = false → file.written ++ file.pending = incoming.file)

/-- The transfer has noted what it created here, or has given it up. -/
def Tracked (reception : Reception) : PathBuf × Node FileIdentity Component → Prop
  | (path, .dir _) => path ∈ reception.transfer.createdDirs
  | (path, .file _) => path ∈ reception.transfer.createdFiles ∨ path ∈ reception.abandoned
  | _ => False

/-- What was opened and created is where the transfer has it, whatever else happened. -/
structure Sound (manifest : Table UInt64 ClipboardManifestEntry) (reception : Reception) :
    Prop where
  active : reception.transfer.cancelled = false
  entries : reception.transfer.entries = manifest
  opened : ∀ fileId incoming, reception.transfer.files.lookup fileId = some incoming →
    reception.Holds fileId incoming
  created : ∀ path identity, reception.transfer.createdFiles.lookup path = some identity →
    (path, .file identity) ∈ reception.made
  tracked : ∀ entry ∈ reception.made, reception.Tracked entry

/-- Neither the files nor what the transfer remembers of them changes, what was made stays recorded,
and what is made is remembered. -/
structure Aside (reception later : Reception) : Prop where
  cancelled : later.transfer.cancelled = reception.transfer.cancelled
  entries : later.transfer.entries = reception.transfer.entries
  files : later.transfer.files = reception.transfer.files
  createdFiles : later.transfer.createdFiles = reception.transfer.createdFiles
  openFiles : later.openFiles = reception.openFiles
  accepted : later.accepted = reception.accepted
  made : reception.made ⊆ later.made
  tracked : ∀ entry ∈ later.made, entry ∈ reception.made ∨ later.Tracked entry
  keeps : ∀ entry, reception.Tracked entry → later.Tracked entry

variable {later : Reception} {entry : ClipboardManifestEntry} {data : Bytes}
  {size transferId : UInt64} {io : Io} {destination : PathBuf}

theorem Aside.quiet (same : later = { reception with disk := later.disk }) :
    Aside reception later := by
  rw [same]
  exact ⟨rfl, rfl, rfl, rfl, rfl, rfl, Subset.refl _, fun _ => .inl, fun _ => id⟩

instance : Std.Refl Aside where
  refl _ := .quiet rfl

instance : IsTrans Reception Aside where
  trans := by
    intro first second third here there
    refine ⟨there.cancelled.trans here.cancelled, there.entries.trans here.entries,
      there.files.trans here.files, there.createdFiles.trans here.createdFiles,
      there.openFiles.trans here.openFiles, there.accepted.trans here.accepted,
      List.Subset.trans here.made there.made, ?_, ?_⟩
    · intro entry member
      rcases there.tracked entry member with between | tracked
      · exact (here.tracked entry between).imp_right (there.keeps entry)
      · exact .inr tracked
    · exact fun entry tracked => there.keeps entry (here.keeps entry tracked)

theorem Sound.aside (sound : Sound manifest reception) (aside : Aside reception later) :
    Sound manifest later := by
  refine ⟨?_, ?_, ?_, ?_, ?_⟩
  · rw [aside.cancelled]
    exact sound.active
  · rw [aside.entries]
    exact sound.entries
  · intro fileId incoming found
    rw [aside.files] at found
    rcases sound.opened fileId incoming found with
      ⟨declared, accepted, offset, within, hashed, written⟩
    refine ⟨?_, ?_, offset, within, hashed, ?_⟩
    · rw [aside.entries]
      exact declared
    · rw [aside.accepted]
      exact accepted
    · rw [aside.openFiles]
      exact written
  · intro path identity found
    rw [aside.createdFiles] at found
    exact aside.made (sound.created path identity found)
  · intro entry member
    exact (aside.tracked entry member).elim (fun before =>
      aside.keeps entry (sound.tracked entry before)) id

theorem aside_orFail (result : Except TransferError α) : (orFail result).Along Aside := by
  cases result with
  | ok value => exact .pure value
  | error error => exact .stop error

theorem aside_allowed (refusal : Option IoError) : (allowed refusal).Along Aside := by
  cases refusal with
  | none => exact .pure ()
  | some => exact .stop _

theorem aside_create (refusal : Option IoError) (path : PathBuf)
    (node : Node FileIdentity Component) : (create refusal path node).Along Aside := by
  refine .bind (aside_allowed refusal) fun _ => .bind .read fun _ => ?_
  split
  · exact .stop _
  · exact .change fun _ => .quiet rfl

theorem aside_symlinkMetadata (path : PathBuf) : (symlinkMetadata answers path).Along Aside := by
  refine .bind .read fun _ => ?_
  split
  · exact .pure _
  · exact .pure _

theorem aside_createComponent (current : PathBuf) :
    (createComponent answers current).Along Aside := by
  refine .bind (aside_symlinkMetadata current) fun _ => ?_
  split
  · exact .pure _
  · exact .stop _
  · refine .ite (.bind (aside_create _ _ _) fun _ => ?_) (.stop _)
    refine .change fun _ => ⟨rfl, rfl, rfl, rfl, rfl, rfl, subset_cons_self _ _, ?_, ?_⟩
    · intro _ member
      rcases mem_cons.mp member with rfl | before
      · exact .inr (mem_insert_self ..)
      · exact .inl before
    · rintro ⟨_, node⟩ tracked
      cases node with
      | dir => exact mem_insert_of_mem tracked
      | file | link | other => exact tracked

theorem aside_createComponents (current : PathBuf) (components : List Component) :
    (createComponents answers current components).Along Aside := by
  induction components generalizing current with
  | nil => exact .pure ()
  | cons _ _ ih =>
    exact .bind (aside_createComponent _) fun _ => ih _

theorem aside_createParents (path : PathBuf) : (createParents answers path).Along Aside := by
  refine .bind .read fun _ => ?_
  split
  · exact .stop _
  · exact aside_createComponents _ _

theorem aside_guarded (identified : Option IoError) (path : PathBuf) :
    (guarded answers identified path).Along Aside := by
  refine .change fun _ => ⟨rfl, rfl, rfl, rfl, rfl, rfl, subset_cons_self _ _, ?_, ?_⟩
  · intro _ member
    rcases mem_cons.mp member with rfl | before
    · exact .inr (.inr (.head _))
    · exact .inl before
  · rintro ⟨other, node⟩ tracked
    cases node with
    | dir => exact tracked
    | file => exact tracked.imp_right (mem_cons_of_mem _)
    | link | other => exact tracked

theorem aside_createFile (target : PathBuf) : (createFile answers target).Along Aside := by
  refine .bind (aside_create _ _ _) fun _ => ?_
  split
  · exact .bind (aside_guarded _ _) fun _ => .stop _
  · split
    · exact .bind (aside_guarded _ _) fun _ => .stop _
    · exact .pure ()

theorem Sound.openFile (sound : Sound manifest reception)
    (listed : manifest.lookup entry.fileId = some entry) (isFile : entry.kind = .file)
    (target : PathBuf) (identity : FileIdentity) :
    Sound manifest (openFile entry.fileId target identity entry.size reception) where
  active := sound.active
  entries := sound.entries
  opened := by
    intro fileId incoming found
    simp only [Reception.openFile, IncomingTransfer.openFile, lookup_insert] at found
    by_cases same : fileId = entry.fileId
    · rw [if_pos same] at found
      cases found
      subst same
      refine ⟨⟨entry, ?_, isFile, rfl⟩, ⟨[], ?_, rfl⟩, rfl, UInt64.zero_le, rfl,
        ⟨⟨[], [], false⟩, ?_, fun _ => rfl⟩⟩
      · exact sound.entries ▸ listed
      · exact AList.lookup_insert _
      · exact AList.lookup_insert _
    · rw [if_neg same] at found
      rcases sound.opened fileId incoming found with
        ⟨declared, accepted, offset, within, hashed, written⟩
      refine ⟨declared, ?_, offset, within, hashed, ?_⟩
      · simpa only [Reception.openFile, lookup_insert, if_neg same] using accepted
      · simpa only [Reception.openFile, lookup_insert, if_neg same] using written
  created := by
    intro path other found
    simp only [Reception.openFile, IncomingTransfer.openFile, lookup_insert] at found
    split at found
    · rename_i same
      subst same
      cases found
      exact .head _
    · exact .tail _ (sound.created path other found)
  tracked := by
    intro entry member
    rcases mem_cons.mp member with rfl | before
    · exact .inl (AList.mem_insert _ |>.mpr (.inl rfl))
    · rcases entry with ⟨_, node⟩
      have tracked := sound.tracked _ before
      cases node with
      | dir => exact tracked
      | file => exact tracked.imp_left fun known => AList.mem_insert _ |>.mpr (.inr known)
      | link | other => exact tracked

theorem Sound.prepareEntry (sound : Sound manifest reception)
    (listed : manifest.lookup entry.fileId = some entry) :
    (prepareEntry answers entry).Attains reception (Sound manifest) := by
  have keeps : ∀ {β : Type} {handler : Receives β} {state : Reception}, Sound manifest state →
      handler.Along Aside → handler.Attains state (Sound manifest) := by
    intro _ _ state before along
    exact (along state).mono (fun _ _ aside => before.aside aside) fun _ _ aside =>
      before.aside aside
  rw [Attains, Reception.prepareEntry, ensures_bind, ensures_read]
  rw [ensures_bind]
  apply (keeps sound (aside_orFail _)).mono
  · intro _ _ contained
    cases kind : entry.kind with
    | directory => exact keeps contained (aside_createParents _)
    | file =>
      dsimp only
      split
      · exact contained
      · rename_i parent _
        rw [ensures_bind]
        apply (keeps contained (aside_createParents parent)).mono
        · intro _ _ there
          rw [ensures_bind]
          apply (keeps there (aside_createFile _)).mono
          · exact fun _ _ opened => opened.openFile listed kind _ _
          · exact fun _ _ kept => kept
        · exact fun _ _ kept => kept
  · exact fun _ _ kept => kept

theorem Sound.prepare (sound : Sound manifest reception)
    (keyed : ∀ fileId entry, manifest.lookup fileId = some entry → entry.fileId = fileId) :
    Sound manifest ((prepare answers).stateAfter reception) := by
  apply Ensures.stateAfter
  rw [Reception.prepare, ensures_bind]
  have active : ensureActive.Attains reception fun after => after = reception := by
    rw [Attains, ensureActive, ensures_bind, ensures_read]
    unfold orFail
    split
    · rfl
    · rfl
  apply active.mono
  · rintro _ after rfl
    rw [ensures_bind, ensures_read]
    rw [ensures_bind]
    refine Ensures.mono (Ensures.each (Sound manifest) sound ?_)
      (fun _ _ kept => kept) fun _ _ kept => kept
    intro _ member _ kept
    apply kept.prepareEntry
    rw [IncomingTransfer.sortedEntries, mem_mergeSort, mem_map] at member
    rcases member with ⟨⟨fileId, found⟩, listed, rfl⟩
    rw [sound.entries] at listed
    have there := AList.mem_lookup_iff.mpr listed
    rw [keyed fileId found there]
    exact there
  · rintro _ _ rfl
    exact sound

def settled (answers : Answers) (fileId : UInt64) (reception : Reception) : Reception :=
  { reception with openFiles := Tables.modify reception.openFiles fileId (·.settle answers) }

def taken (answers : Answers) (fileId : UInt64) (incoming : IncomingFile) (next : UInt64)
    (data : Bytes) (reception : Reception) : Reception :=
  acceptChunk fileId incoming next data { settled answers fileId reception with
    openFiles := Tables.modify (settled answers fileId reception).openFiles fileId fun file =>
      { file with pending := data } }

theorem settle_eq (fileId : UInt64) :
    settle answers fileId reception =
      ((match answers.lastWrite with
        | none => .ok ()
        | some (error, _) => .error (.io error)), settled answers fileId reception) := by
  unfold settle allowed settled
  cases answers.lastWrite with
  | none | some => rfl

theorem writeChunk_eq (fileId offset : UInt64) (data : Bytes) :
    writeChunk answers fileId offset data reception =
      match reception.transfer.checkChunk fileId offset data with
      | .error error => (.error error, reception)
      | .ok (incoming, next) =>
        match answers.lastWrite with
        | some (error, _) => (.error (.io error), settled answers fileId reception)
        | none => (.ok (), taken answers fileId incoming next data reception) := by
  unfold writeChunk
  cases checked : reception.transfer.checkChunk fileId offset data with
  | error => simp [bind, Handler.read, checked, orFail, stop]
  | ok =>
    cases last : answers.lastWrite with
    | some =>
      simp [bind, Handler.read, checked, orFail, writeAll, settle_eq, last, pure]
    | none =>
      simp [bind, Handler.read, checked, orFail, writeAll, settle_eq, last, pure, change, taken]

variable {fileId : UInt64} {transfer : IncomingTransfer} {entries : List ClipboardManifestEntry}
  {sizeLimit : Option UInt64}

/-- The operation does to the transfer what is done to the transfer alone, and leaves it as it is
when that fails. -/
def Mirrors {α : Type} (operation : Receives α) (reception : Reception)
    (alone : Except TransferError (α × IncomingTransfer)) : Prop :=
  operation.Ensures reception (fun value after => alone = .ok (value, after.transfer))
    fun error after => after.transfer = reception.transfer ∧ alone = .error error

theorem writeChunk_mirrors (fileId offset : UInt64) (data : Bytes) :
    Mirrors (writeChunk answers fileId offset data) reception
      ((reception.transfer.writeChunk (answers.io reception.disk) fileId offset data).map
        (Prod.mk ())) := by
  unfold Mirrors Ensures
  rw [writeChunk_eq, IncomingTransfer.writeChunk]
  cases reception.transfer.checkChunk fileId offset data with
  | error => exact ⟨rfl, rfl⟩
  | ok =>
    unfold Answers.io refused
    cases answers.lastWrite with
    | none => rfl
    | some => exact ⟨rfl, rfl⟩

variable (sound : Sound manifest reception)
include sound

theorem Sound.settled (fileId : UInt64) : Sound manifest (settled answers fileId reception) where
  active := sound.active
  entries := sound.entries
  created := sound.created
  tracked := sound.tracked
  opened := by
    intro other incoming found
    rcases sound.opened other incoming found with
      ⟨declared, accepted, offset, within, hashed, file, here, written⟩
    refine ⟨declared, accepted, offset, within, hashed, ?_⟩
    by_cases same : other = fileId
    · subst same
      refine ⟨file.settle answers, ?_, ?_⟩
      · simp [Reception.settled, lookup_modify, here]
      · unfold OpenFile.settle
        cases answers.lastWrite with
        | none =>
          intro healthy
          rw [← written healthy]
          simp
        | some =>
          intro healthy
          cases healthy
    · refine ⟨file, ?_, written⟩
      simp [Reception.settled, lookup_modify, same, here]

theorem Sound.taken {offset next : UInt64} {before : IncomingFile}
    (passed : reception.transfer.checkChunk fileId offset data = .ok (before, next))
    (clean : answers.lastWrite = none) :
    Sound manifest (taken answers fileId before next data reception) where
  active := sound.active
  entries := sound.entries
  created := sound.created
  tracked := sound.tracked
  opened := by
    intro other incoming found
    rcases checkChunk_eq_ok.mp passed with ⟨_, _, _, there, _, ends, fits⟩
    simp only [Reception.taken, acceptChunk, IncomingTransfer.acceptChunk, Reception.settled,
      lookup_insert] at found
    by_cases same : other = fileId
    · subst same
      rw [if_pos rfl, Option.some.injEq] at found
      subst found
      rcases sound.opened other before there with
        ⟨declared, ⟨chunks, listed, content⟩, offset, within, hashed, file, here, written⟩
      refine ⟨declared, ⟨chunks ++ [data], ?_, ?_⟩, ?_, fits, ?_,
        ⟨⟨file.written ++ file.pending, data, file.failed⟩, ?_, ?_⟩⟩
      · simp [Reception.taken, acceptChunk, Reception.settled, lookup_modify, listed]
      · simp [content]
      · simp [ends, offset]
      · simp [hashed]
      · simp [Reception.taken, acceptChunk, Reception.settled, lookup_modify, here, OpenFile.settle,
          clean]
      · intro healthy
        simp [written healthy]
    · rw [if_neg same] at found
      rcases sound.opened other incoming found with
        ⟨declared, accepted, offset, within, hashed, written⟩
      refine ⟨declared, ?_, offset, within, hashed, ?_⟩
      · simpa [Reception.taken, acceptChunk, Reception.settled, lookup_modify, same] using accepted
      · simpa [Reception.taken, acceptChunk, Reception.settled, lookup_modify, same] using written

theorem Sound.writeChunk (fileId offset : UInt64) (data : Bytes) :
    Sound manifest ((writeChunk answers fileId offset data).stateAfter reception) := by
  rw [stateAfter, writeChunk_eq]
  split
  · exact sound
  · rename_i next passed
    split
    · exact sound.settled fileId
    · rename_i clean
      exact sound.taken passed clean

def closed (fileId : UInt64) (reception : Reception) : Reception :=
  { reception with
    transfer := { reception.transfer with files := reception.transfer.files.erase fileId }
    openFiles := reception.openFiles.erase fileId }

omit sound in
theorem finalizeFile_eq (fileId size : UInt64) (digest : Digest) :
    finalizeFile sha256 answers fileId size digest reception =
      match reception.transfer.checkSize fileId size with
      | .error error => (.error error, reception)
      | .ok incoming =>
        match answers.lastWrite, answers.syncData with
        | some (error, _), _ | none, some error =>
          (.error (.io error), settled answers fileId reception)
        | none, none =>
          if sha256 incoming.hasher ≠ digest then
            (.error (.digestMismatch fileId), settled answers fileId reception)
          else (.ok (), closed fileId (settled answers fileId reception)) := by
  unfold finalizeFile
  cases checked : reception.transfer.checkSize fileId size with
  | error => simp [bind, Handler.read, checked, orFail, stop]
  | ok =>
    cases last : answers.lastWrite with
    | some => simp [bind, Handler.read, checked, orFail, settle_eq, last, pure]
    | none =>
      cases answers.syncData with
      | some =>
        simp [bind, Handler.read, checked, orFail, settle_eq, last, pure, allowed, stop]
      | none =>
        simp only [bind, Handler.read, checked, orFail, settle_eq, last, pure, allowed]
        split
        · rfl
        · rfl

omit sound in
theorem finalizeFile_mirrors (fileId size : UInt64) (digest : Digest) :
    Mirrors (finalizeFile sha256 answers fileId size digest) reception
      ((reception.transfer.finalizeFile sha256 (answers.io reception.disk) fileId size digest).map
        (Prod.mk ())) := by
  unfold Mirrors Ensures
  rw [finalizeFile_eq, IncomingTransfer.finalizeFile]
  cases reception.transfer.checkSize fileId size with
  | error => exact ⟨rfl, rfl⟩
  | ok incoming =>
    unfold Answers.io refused
    cases answers.lastWrite with
    | some => exact ⟨rfl, rfl⟩
    | none =>
      cases answers.syncData with
      | some => exact ⟨rfl, rfl⟩
      | none =>
        by_cases same : sha256 incoming.hasher ≠ digest
        · simp [same, settled, orIo, Except.map, Except.mapError, bind, Except.bind, throw,
            throwThe, MonadExceptOf.throw]
        · simp [same, closed, settled, orIo, Except.map, Except.mapError, bind, Except.bind, pure,
            Except.pure]

omit sound in
theorem finish_mirrors :
    Mirrors finish reception (reception.transfer.finish.map (Prod.mk ())) := by
  unfold Mirrors
  rw [Reception.finish, ensures_bind, ensures_read]
  cases reception.transfer.finish with
  | ok => rfl
  | error => exact ⟨rfl, rfl⟩

/-- The calls for a new file, as the transfer alone makes them. -/
def newFile (io : Io) (target : PathBuf) : Except TransferError FileIdentity := do
  orIo (io.createNew target)
  orIo (io.tryClone target)
  orIo (io.identityOf target)

omit sound in
theorem createFile_ensures (target : PathBuf) :
    (createFile answers target).Ensures reception
      (fun _ after => after.transfer = reception.transfer ∧
        newFile (answers.io reception.disk) target = .ok (answers.identity target))
      fun error after => after.transfer = reception.transfer ∧
        newFile (answers.io reception.disk) target = .error error := by
  simp only [createFile, create, allowed, newFile, Answers.io, refused, ensures_bind, ensures_read]
  cases answers.createNew target with
  | some => exact ⟨rfl, rfl⟩
  | none =>
    simp only [ensures_pure]
    cases reception.disk.enter target.components (.file (answers.identity target)) with
    | error => exact ⟨rfl, rfl⟩
    | ok =>
      cases answers.tryClone target with
      | some => exact ⟨rfl, rfl⟩
      | none =>
        cases answers.identify target with
        | some => exact ⟨rfl, rfl⟩
        | none => exact ⟨rfl, rfl⟩

section

omit sound

variable {entry : ClipboardManifestEntry} (kind : entry.kind = .file)
  (direct : (reception.transfer.destination.join (.ofText entry.path)).parent =
    some reception.transfer.destination)

include kind direct

theorem prepareEntry_mirrors :
    Mirrors (prepareEntry answers entry) reception
      ((reception.transfer.prepareEntry (answers.io reception.disk) entry).map (Prod.mk ())) := by
  have root : reception.transfer.destination.stripPrefix reception.transfer.destination =
      some [] := by
    simp [PathBuf.stripPrefix]
  have parents : (createParents answers reception.transfer.destination).Ensures reception
      (fun _ after => after = reception) fun _ _ => False := by
    rw [createParents, ensures_bind, ensures_read, root]
    rfl
  have alone : reception.transfer.prepareEntry (answers.io reception.disk) entry = (do
      ensureContained (answers.io reception.disk) reception.transfer.destination
        (reception.transfer.destination.join (.ofText entry.path))
      let identity ← newFile (answers.io reception.disk)
        (reception.transfer.destination.join (.ofText entry.path))
      pure (reception.transfer.openFile entry.fileId
        (reception.transfer.destination.join (.ofText entry.path)) identity entry.size)) := by
    have same : reception.transfer.createParents (answers.io reception.disk)
        reception.transfer.destination = .ok reception.transfer := by
      rw [IncomingTransfer.createParents, root]
      rfl
    rw [IncomingTransfer.prepareEntry, kind]
    dsimp only
    simp only [direct, okOr, newFile, bind_assoc]
    congr 1
    funext _
    change (reception.transfer.createParents (answers.io reception.disk)
      reception.transfer.destination >>= _) = _
    rw [same]
    rfl
  rw [Mirrors, alone, prepareEntry, ensures_bind, ensures_read, kind]
  dsimp only
  rw [direct]
  cases ensureContained (answers.io reception.disk) reception.transfer.destination
    (reception.transfer.destination.join (.ofText entry.path)) with
  | error => exact ⟨rfl, rfl⟩
  | ok =>
    simp only [orFail, ensures_bind, ensures_pure]
    apply parents.mono
    · rintro _ _ rfl
      apply (createFile_ensures _).mono
      · rintro _ after ⟨same, made⟩
        rw [ensures_change, made, openFile, same]
        rfl
      · rintro error after ⟨same, made⟩
        rw [made]
        exact ⟨same, rfl⟩
    · exact fun _ _ => False.elim

/-- What `prepare` does for one file directly below the destination, as in a manual transfer. -/
theorem prepare_mirrors (sorted : reception.transfer.sortedEntries = [entry]) :
    Mirrors (prepare answers) reception
      (reception.transfer.prepare (answers.io reception.disk)) := by
  rw [Mirrors, prepare, IncomingTransfer.prepare, ensures_bind, ensureActive, ensures_bind,
    ensures_read]
  cases reception.transfer.ensureActive with
  | error => exact ⟨rfl, rfl⟩
  | ok =>
    simp only [orFail, ensures_bind, ensures_pure, ensures_read, sorted, Handler.each,
      IncomingTransfer.prepareEntries]
    have entered : Mirrors (prepareEntry answers entry) reception _ :=
      prepareEntry_mirrors kind direct
    generalize reception.transfer.prepareEntry (answers.io reception.disk) entry = alone
      at entered ⊢
    cases alone with
    | error =>
      apply entered.mono
      · rintro _ _ ⟨⟩
      · rintro _ _ ⟨same, ⟨⟩⟩
        exact ⟨same, rfl⟩
    | ok =>
      apply entered.mono
      · rintro _ _ ⟨⟩
        rfl
      · rintro _ _ ⟨_, ⟨⟩⟩

end

theorem Sound.closed (fileId : UInt64) : Sound manifest (closed fileId reception) where
  active := sound.active
  entries := sound.entries
  created := sound.created
  tracked := sound.tracked
  opened := by
    intro other incoming found
    simp only [Reception.closed, lookup_erase] at found
    split at found
    · cases found
    · rename_i different
      rcases sound.opened other incoming found with
        ⟨declared, accepted, offset, within, hashed, written⟩
      refine ⟨declared, accepted, offset, within, hashed, ?_⟩
      simpa [Reception.closed, lookup_erase, different] using written

theorem Sound.finalizeFile (fileId size : UInt64) (digest : Digest) :
    Sound manifest ((finalizeFile sha256 answers fileId size digest).stateAfter reception) := by
  rw [stateAfter, finalizeFile_eq]
  split
  · exact sound
  · split
    · exact sound.settled fileId
    · exact sound.settled fileId
    · split
      · exact sound.settled fileId
      · exact (sound.settled fileId).closed fileId

theorem Sound.finish : Sound manifest (finish.stateAfter reception) := by
  apply Ensures.stateAfter
  rw [Reception.finish, ensures_bind, ensures_read]
  unfold IncomingTransfer.finish IncomingTransfer.ensureActive
  rw [if_neg (by simp [sound.active])]
  by_cases pending : reception.transfer.files.entries = []
  · simp only [bind, Except.bind, pending, ne_eq, not_true_eq_false, if_false]
    exact sound.aside ⟨rfl, rfl, rfl, rfl, rfl, rfl, Subset.refl _, fun _ => .inl, fun _ => id⟩
  · simp only [bind, Except.bind, pending, ne_eq, not_false_eq_true, if_true]
    exact sound

/-- A file is finalised exactly when it is open, its size and its digest are those announced, and
nothing of it fails to reach the disk. -/
theorem finalizeFile_ok_iff {digest : Digest} :
    (finalizeFile sha256 answers fileId size digest reception).1 = .ok () ↔
      (∃ incoming, reception.transfer.files.lookup fileId = some incoming ∧
        size = incoming.expected ∧ incoming.file.length = size.toNat ∧
        sha256 incoming.file = digest) ∧
      answers.lastWrite = none ∧ answers.syncData = none := by
  rw [finalizeFile_eq]
  constructor
  · intro done
    split at done
    · cases done
    · rename_i incoming checked
      rcases checkSize_eq_ok.mp checked with ⟨_, found, size, offset⟩
      have held := sound.opened fileId incoming found
      split at done
      · cases done
      · cases done
      · rename_i last sync
        split at done
        · cases done
        · rename_i same
          refine ⟨⟨incoming, found, size, ?_, ?_⟩, last, sync⟩
          · rw [← held.offset, offset, size]
          · rw [← held.hashed]
            exact not_not.mp same
  · rintro ⟨⟨incoming, found, size, length, same⟩, last, sync⟩
    have held := sound.opened fileId incoming found
    have offset : incoming.offset = incoming.expected := by
      rw [← size]
      exact UInt64.toNat_inj.mp (held.offset.trans length)
    rw [checkSize_eq_ok.mpr ⟨sound.active, found, size, offset⟩, last, sync]
    simp [held.hashed, same]

omit sound

theorem sound_begin {disk : Disk}
    (made : new io transferId entries destination sizeLimit = .ok transfer) :
    Sound transfer.entries (begin transfer disk) := by
  simp only [new, guard_bind_ok, bind_ok, pure_ok] at made
  rcases made with ⟨_, _, _, _, _, rfl⟩
  refine ⟨rfl, rfl, ?_, ?_, ?_⟩
  · intro _ _ found
    cases found
  · intro _ _ found
    cases found
  · exact forall_mem_nil _

theorem collectEntries_keyed {paths : List String} {previous total : UInt64}
    {byId collected : Table UInt64 ClipboardManifestEntry}
    (keyed : ∀ fileId entry, byId.lookup fileId = some entry → entry.fileId = fileId)
    (done : collectEntries sizeLimit paths previous total byId entries = .ok collected)
    (fileId : UInt64) (entry : ClipboardManifestEntry)
    (found : collected.lookup fileId = some entry) : entry.fileId = fileId := by
  induction entries generalizing paths previous total byId with
  | nil =>
    cases done
    exact keyed fileId entry found
  | cons _ _ ih =>
    simp only [collectEntries, guard_bind_ok, bind_ok] at done
    rcases done with ⟨_, _, _, _, _, _, _, rest⟩
    apply ih _ rest
    intro other held there
    rw [lookup_insert] at there
    split at there
    · rename_i same
      cases there
      exact same.symm
    · exact keyed other held there

theorem new_keyed (made : new io transferId entries destination sizeLimit = .ok transfer)
    (fileId : UInt64) (entry : ClipboardManifestEntry)
    (found : transfer.entries.lookup fileId = some entry) : entry.fileId = fileId := by
  simp only [new, guard_bind_ok, bind_ok, pure_ok] at made
  rcases made with ⟨_, _, _, _, gathered, rfl⟩
  refine collectEntries_keyed ?_ gathered fileId entry found
  intro _ _ there
  cases there

theorem Sound.after (sound : Sound manifest reception)
    (keyed : ∀ fileId entry, manifest.lookup fileId = some entry → entry.fileId = fileId)
    (operation : Operation) : Sound manifest (after sha256 reception operation) := by
  cases operation with
  | prepare => exact sound.prepare keyed
  | writeChunk _ fileId offset data => exact sound.writeChunk fileId offset data
  | finalizeFile _ fileId size digest => exact sound.finalizeFile fileId size digest
  | finish => exact sound.finish
  | elsewhere => exact sound.aside (.quiet rfl)

end Reception

end Syntra.Files
