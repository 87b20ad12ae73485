import Syntra.Files.Transfer
import Syntra.Tables.Association

/-!
# What the file operations do

What a successful read, write or finalization does to the files of a transfer, and that these
operations succeed when the operating system does what it is asked.
-/

namespace Syntra.Files

open ByteFormat Proto IncomingTransfer PathBuf AList Option

variable {io : Io}

namespace OutgoingFile

variable {file later : OutgoingFile}

theorem fill_length {requested turns turn : ℕ} {data result : Bytes}
    (enough : requested ≤ turns + data.length) (within : data.length ≤ requested)
    (filled : file.fill io requested turns turn data = .ok result) :
    result.length = requested := by
  induction turns generalizing turn data with
  | zero =>
    simp only [fill, pure_ok] at filled
    rw [← filled]
    omega
  | succ _ ih =>
    rw [fill] at filled
    split at filled
    · rename_i complete
      have same : data = result := by simpa using filled
      rw [← same]
      omega
    · rename_i short
      simp only [bind_ok, guard_bind_ok] at filled
      rcases filled with ⟨_, _, read, _, nonempty, _, _, continued⟩
      have progress : 0 < (read.take (requested - data.length)).length := by
        apply List.length_pos_of_ne_nil
        simpa using nonempty
      have bounded := List.length_take_le (requested - data.length) read
      apply ih _ _ continued
      · rw [List.length_append]
        omega
      · rw [List.length_append]
        omega

theorem nextChunkBounded_some {maxLen : ℕ} {offset : UInt64} {data : Bytes}
    (bounded : file.offset ≤ file.size)
    (read : file.nextChunkBounded io maxLen = .ok (some (offset, data), later)) :
    offset = file.offset ∧ file.offset ≠ file.size ∧
      data.length = min (file.size.toNat - file.offset.toNat) maxLen ∧
      later.offset.toNat = file.offset.toNat + data.length ∧ later.size = file.size ∧
      later.hasher = file.hasher ++ data ∧ later.cancelled = false ∧
      later.identity = file.identity := by
  unfold nextChunkBounded at read
  simp only [guard_bind_ok] at read
  rcases read with ⟨live, read⟩
  split at read
  · simp at read
  · rename_i more
    simp only [guard_bind_ok, bind_ok, okOr_eq_ok, pure_ok, Prod.mk.injEq, some.injEq] at read
    rcases read with ⟨_, _, _, filled, full, _, added, ⟨rfl, rfl⟩, rfl⟩
    rcases checkedAdd_eq_some.mp added with ⟨fits, rfl⟩
    have left : (file.size - file.offset).toNat = file.size.toNat - file.offset.toNat :=
      UInt64.toNat_sub_of_le _ _ bounded
    have length := fill_length (by simp) (by simp) full
    rw [left] at length
    refine ⟨rfl, more, length, ?_, rfl, rfl, ?_, rfl⟩
    · have small : (UInt64.ofNat filled.length).toNat = filled.length := by
        apply UInt64.toNat_ofNat_of_lt
        have limit := file.size.toNat_lt
        change filled.length < 2 ^ 64
        omega
      rw [small] at fits
      rw [toNat_add_of_le (by rw [small]; exact fits), small]
    · simpa using live

theorem nextChunkBounded_none {maxLen : ℕ}
    (read : file.nextChunkBounded io maxLen = .ok (none, later)) : file.offset = file.size := by
  unfold nextChunkBounded at read
  split at read
  · assumption
  · simp only [guard_bind_ok, bind_ok, okOr_eq_ok, pure_ok,
      Prod.mk.injEq, reduceCtorEq, false_and, and_false, exists_false] at read

theorem finalizeDigest_ok {sha256 : Bytes → Digest} {digest : Digest}
    (done : file.finalizeDigest sha256 io = .ok digest) :
    file.offset = file.size ∧ digest = sha256 file.hasher := by
  unfold finalizeDigest at done
  simp only [guard_bind_ok, bind_ok, pure_ok, not_not] at done
  rcases done with ⟨all, _, _, rfl⟩
  exact ⟨all, rfl⟩

end OutgoingFile

variable {path : PathBuf} {offer : FileOffer} {entry : ClipboardManifestEntry}
  {identity : SourceIdentity} {name : String}

theorem FileOffer.fromRegularFile_ok {id : UInt64}
    (made : FileOffer.fromRegularFile io id path = .ok offer) :
    ∃ entry identity, offer.entries = [entry] ∧ entry.fileId = 1 ∧ entry.kind = .file ∧
      validateManualFileName entry.path = .ok () ∧
      offer.sources.lookup 1 = some (path, identity) := by
  unfold FileOffer.fromRegularFile at made
  simp only [bind_ok, okOr_eq_ok, guard_bind_ok, orIo_eq_ok, pure_ok] at made
  rcases made with ⟨_, _, _, _, _, _, valid, rfl⟩
  exact ⟨_, _, rfl, rfl, rfl, not_not.mp valid, lookup_singleton⟩

theorem FileOffer.openFile_ok {fileId offset : UInt64} {file : OutgoingFile}
    (listed : offer.entries = [entry]) (opened : offer.openFile io fileId offset = .ok file) :
    file.offset = offset ∧ file.size = entry.size ∧ file.hasher = [] ∧ file.cancelled = false ∧
      ∃ path, offer.sources.lookup fileId = some (path, file.identity) := by
  unfold openFile at opened
  rw [listed] at opened
  simp only [bind_ok, okOr_eq_ok, guard_bind_ok, orIo_eq_ok, pure_ok] at opened
  rcases opened with ⟨found, same, _, ⟨path, _⟩, source, _, _, _, _, _, _, _, rfl⟩
  have first : found = entry := by
    rw [List.find?_singleton] at same
    split at same
    · exact (some.inj same).symm
    · cases same
  subst first
  exact ⟨rfl, rfl, rfl, rfl, path, source⟩

theorem FileOffer.openFile_offset {fileId offset : UInt64} {file : OutgoingFile}
    (opened : offer.openFile io fileId offset = .ok file) :
    file.offset = offset ∧ offset ≤ file.size := by
  unfold openFile at opened
  simp only [bind_ok, okOr_eq_ok, guard_bind_ok, orIo_eq_ok, pure_ok] at opened
  rcases opened with ⟨_, _, valid, ⟨_, _⟩, _, _, _, _, _, _, _, _, rfl⟩
  exact ⟨rfl, UInt64.not_lt.mp (not_or.mp valid).2⟩

/-- Every call that serving a file makes succeeds and finds the file unchanged. -/
structure Io.Serves (io : Io) (identity : SourceIdentity) : Prop where
  openRead : ∀ path, io.openRead path = .ok ()
  metadata : ∀ call, ∃ metadata, io.metadata call = .ok metadata ∧ metadata.isFile = true ∧
    identity.matchesMetadata metadata = true
  seek : ∀ offset, io.seek offset = .ok ()
  read : ∀ turn, ∃ data, io.read turn = .ok data ∧ data ≠ []

theorem Io.Serves.obliging {len : UInt64} {next : Bytes} (full : next ≠ [])
    (same : ((Io.obliging len next).metadata 0).toOption.all identity.matchesMetadata = true) :
    (Io.obliging len next).Serves identity :=
  ⟨fun _ => rfl, fun _ => ⟨_, rfl, rfl, same⟩, fun _ => rfl, fun _ => ⟨next, rfl, full⟩⟩

namespace Io.Serves

variable {file : OutgoingFile}

variable (serves : io.Serves file.identity)
include serves

theorem checkIdentity (call : ℕ) : file.checkIdentity io call = .ok () := by
  rcases serves.metadata call with ⟨_, answered, _, same⟩
  simp [OutgoingFile.checkIdentity, answered, same]

theorem fill (requested turns turn : ℕ) (data : Bytes) :
    ∃ result, file.fill io requested turns turn data = .ok result := by
  induction turns generalizing turn data with
  | zero => exact ⟨data, rfl⟩
  | succ _ ih =>
    rw [OutgoingFile.fill]
    split
    · exact ⟨data, rfl⟩
    · rename_i short
      rcases serves.read turn with ⟨read, answered, nonempty⟩
      rcases ih (turn + 1) (data ++ read.take (requested - data.length)) with ⟨result, filled⟩
      refine ⟨result, ?_⟩
      have some : (read.take (requested - data.length)).isEmpty = false := by
        rw [List.isEmpty_eq_false_iff]
        intro empty
        rcases List.take_eq_nil_iff.mp empty with _ | empty
        · omega
        · exact nonempty empty
      simp only [bind_ok, guard_bind_ok, orIo_eq_ok]
      exact ⟨(), serves.checkIdentity _, read, answered, by simp [some], (),
        serves.checkIdentity _, filled⟩

theorem nextChunkBounded {maxLen : ℕ} (live : file.cancelled = false)
    (bounded : file.offset ≤ file.size) (positive : 0 < maxLen)
    (limited : maxLen ≤ maxManualFileChunkSize) :
    ∃ result, file.nextChunkBounded io maxLen = .ok result := by
  unfold OutgoingFile.nextChunkBounded
  by_cases all : file.offset = file.size
  · exact ⟨(none, file), by simp [live, all]⟩
  · rcases serves.fill (min (file.size - file.offset).toNat maxLen)
      (min (file.size - file.offset).toNat maxLen) 0 [] with ⟨data, filled⟩
    have length := OutgoingFile.fill_length (by simp) (by simp) filled
    have left : (file.size - file.offset).toNat = file.size.toNat - file.offset.toNat :=
      UInt64.toNat_sub_of_le _ _ bounded
    have order := UInt64.le_iff_toNat_le.mp bounded
    have limit := file.size.toNat_lt
    have small : (UInt64.ofNat data.length).toNat = data.length := by
      apply UInt64.toNat_ofNat_of_lt
      change data.length < 2 ^ 64
      omega
    have added : checkedAdd file.offset (UInt64.ofNat data.length) =
        some (file.offset + UInt64.ofNat data.length) := by
      apply checkedAdd_eq_some.mpr
      refine ⟨?_, rfl⟩
      change _ ≤ 18446744073709551615
      omega
    have allowed :
        ¬(maxLen = 0 ∨ maxLen > max maxClipboardFileChunkSize maxManualFileChunkSize) := by
      omega
    refine ⟨(some (file.offset, data), { file with
      offset := file.offset + UInt64.ofNat data.length, hasher := file.hasher ++ data }), ?_⟩
    rw [if_neg (by simp [live]), if_neg all]
    simp only [guard_bind_ok, bind_ok, okOr_eq_ok, pure_ok]
    exact ⟨allowed, (), serves.checkIdentity 0, data, filled, _, added, rfl⟩

theorem finalizeDigest {sha256 : Bytes → Digest} (all : file.offset = file.size) :
    file.finalizeDigest sha256 io = .ok (sha256 file.hasher) := by
  simp [OutgoingFile.finalizeDigest, all, serves.checkIdentity]

end Io.Serves

theorem Io.Serves.openFile (serves : io.Serves identity) (listed : offer.entries = [entry])
    (kind : entry.kind = .file)
    (source : offer.sources.lookup entry.fileId = some (path, identity)) :
    ∃ file, offer.openFile io entry.fileId 0 = .ok file := by
  rcases serves.metadata 0 with ⟨metadata, answered, regular, same⟩
  refine ⟨{
    fileId := entry.fileId, offset := 0, size := entry.size, identity, hasher := []
    cancelled := false }, ?_⟩
  unfold FileOffer.openFile
  rw [listed]
  simp only [bind_ok, okOr_eq_ok, guard_bind_ok, orIo_eq_ok, pure_ok]
  exact ⟨entry, by simp, by simp [kind], (path, identity), source, (), serves.openRead path,
    metadata, answered, by simp [regular, same], (), serves.seek 0, rfl⟩

/-- Every write to the destination goes through. -/
structure Io.Stores (io : Io) : Prop where
  writeAll : ∀ data, io.writeAll data = .ok ()
  flush : io.flush = .ok ()
  syncData : io.syncData = .ok ()
  rename : ∀ source target, io.rename source target = .ok ()

theorem Io.Stores.obliging (len : UInt64) (next : Bytes) : (Io.obliging len next).Stores :=
  ⟨fun _ => rfl, rfl, rfl, fun _ _ => rfl⟩

namespace IncomingTransfer

variable {transfer later : IncomingTransfer}

/-- A destination for one file of `size` bytes, of which it holds `content`. -/
structure Receiving (transfer : IncomingTransfer) (size : UInt64) (content : Bytes) : Prop where
  active : transfer.cancelled = false
  file : ∃ file, transfer.files = .singleton 1 file ∧ file.file = content ∧
    file.hasher = content ∧ file.expected = size ∧ file.offset.toNat = content.length

variable {size : UInt64} {content : Bytes}

variable (receiving : transfer.Receiving size content)
include receiving

theorem Receiving.lookup : ((transfer.files.lookup 1).map (·.file)).getD [] = content := by
  rcases receiving.file with ⟨_, only, held, _⟩
  rw [only, lookup_singleton, map_some, getD_some, held]

variable {offset : UInt64} {data : Bytes} {sha256 : Bytes → Digest} {entry : ClipboardManifestEntry}
  {limit : Option UInt64}

theorem Receiving.writeChunk (wrote : transfer.writeChunk io 1 offset data = .ok later) :
    later.Receiving size (content ++ data) ∧ later.destination = transfer.destination := by
  rcases receiving.file with ⟨file, only, held, hashed, expected, position⟩
  simp only [IncomingTransfer.writeChunk, bind_ok, orIo_eq_ok, pure_ok] at wrote
  rcases wrote with ⟨⟨incoming, next⟩, checked, _, _, rfl⟩
  rcases checkChunk_eq_ok.mp checked with ⟨_, _, _, found, _, ends, _⟩
  obtain rfl : file = incoming := by
    rwa [only, lookup_singleton, some.injEq] at found
  refine ⟨⟨receiving.active, { file with
    file := file.file ++ data, hasher := file.hasher ++ data, offset := next }, ?_, ?_, ?_,
    expected, ?_⟩, rfl⟩
  · rw [acceptChunk, only, insert_singleton_eq]
  · rw [held]
  · rw [hashed]
  · rw [ends, position, List.length_append]

theorem Receiving.finalizeFile {digest : Digest}
    (finished : (transfer.finalizeFile sha256 io 1 size digest).bind (·.finish) = .ok later) :
    content.length = size.toNat ∧ sha256 content = digest := by
  rcases receiving.file with ⟨file, only, _, hashed, expected, position⟩
  change (transfer.finalizeFile sha256 io 1 size digest >>= fun file => file.finish) = _ at finished
  unfold IncomingTransfer.finalizeFile at finished
  simp only [bind_ok, guard_bind_ok, orIo_eq_ok, pure_ok] at finished
  rcases finished with ⟨_, ⟨_, checked, _, _, _, _, same, _⟩, _⟩
  rcases checkSize_eq_ok.mp checked with ⟨_, found, _, whole⟩
  rw [only, lookup_singleton, some.injEq] at found
  subst found
  rw [← position, whole, expected, ← hashed]
  exact ⟨rfl, not_not.mp same⟩

theorem Receiving.writeChunk_succeeds (stores : io.Stores) (here : offset.toNat = content.length)
    (nonempty : data ≠ []) (limited : data.length ≤ maxManualFileChunkSize)
    (fits : offset.toNat + data.length ≤ size.toNat) :
    ∃ later, transfer.writeChunk io 1 offset data = .ok later := by
  rcases receiving.file with ⟨file, only, _, _, expected, position⟩
  have small : offset.toNat + data.length < 2 ^ 64 := lt_of_le_of_lt fits size.toNat_lt
  let next := UInt64.ofNat (offset.toNat + data.length)
  have ends : next.toNat = offset.toNat + data.length := UInt64.toNat_ofNat_of_lt small
  have checked : transfer.checkChunk 1 offset data = .ok (file, next) := by
    refine checkChunk_eq_ok.mpr ⟨receiving.active, nonempty,
      limited.trans (Nat.le_max_right _ _), ?_, ?_, ?_, ?_⟩
    · rw [only, lookup_singleton]
    · exact UInt64.toNat_inj.mp (here.trans position.symm)
    · rw [ends, here, position]
    · rw [expected]
      exact UInt64.le_iff_toNat_le.mpr (ends ▸ fits)
  refine ⟨transfer.acceptChunk 1 file next data, ?_⟩
  simp only [IncomingTransfer.writeChunk, bind_ok, orIo_eq_ok, pure_ok]
  exact ⟨(file, next), checked, (), stores.writeAll data, rfl⟩

theorem Receiving.finalizeFile_succeeds (stores : io.Stores) (whole : content.length = size.toNat) :
    ∃ later, (transfer.finalizeFile sha256 io 1 size (sha256 content)).bind (·.finish) =
      .ok later := by
  rcases receiving.file with ⟨file, only, _, hashed, expected, position⟩
  have complete : file.offset = size := UInt64.toNat_inj.mp (position.trans whole)
  refine ⟨{ transfer with files := transfer.files.erase 1, finished := true }, ?_⟩
  change (transfer.finalizeFile sha256 io 1 size (sha256 content) >>= fun file => file.finish) = _
  simp only [bind_ok]
  refine ⟨{ transfer with files := transfer.files.erase 1 }, ?_, ?_⟩
  · have checked : transfer.checkSize 1 size = .ok file :=
      checkSize_eq_ok.mpr ⟨receiving.active, by rw [only, lookup_singleton], expected.symm,
        complete.trans expected.symm⟩
    simp only [IncomingTransfer.finalizeFile, bind_ok, guard_bind_ok, orIo_eq_ok, pure_ok]
    exact ⟨file, checked, (), stores.flush, (), stores.syncData, by simp [hashed]⟩
  · unfold finish
    simp [ensureActive, receiving.active, only, erase_singleton]

omit receiving

theorem createComponents_ok {current : PathBuf} {components : List Component}
    (created : transfer.createComponents io current components = .ok later) :
    later.files = transfer.files ∧ later.cancelled = transfer.cancelled := by
  induction components generalizing transfer current with
  | nil =>
    rw [createComponents, pure_ok] at created
    rw [created]
    exact ⟨rfl, rfl⟩
  | cons _ _ ih =>
    rw [createComponents] at created
    split at created
    · simp only [guard_bind_ok] at created
      exact ih created.2
    · split at created
      · simp only [bind_ok] at created
        rcases created with ⟨_, _, created⟩
        have kept := ih created
        exact kept
      · simp at created

theorem createParents_ok (created : transfer.createParents io path = .ok later) :
    later.files = transfer.files ∧ later.cancelled = transfer.cancelled := by
  unfold createParents at created
  simp only [bind_ok, okOr_eq_ok] at created
  rcases created with ⟨_, _, created⟩
  exact createComponents_ok created

theorem collectEntries_single {byId : AList (fun _ : UInt64 => ClipboardManifestEntry)}
    (collected : collectEntries limit [] 0 0 ∅ [entry] = .ok byId) :
    byId = .singleton entry.fileId entry := by
  simp only [collectEntries, guard_bind_ok, bind_ok, okOr_eq_ok, pure_ok] at collected
  rcases collected with ⟨_, _, _, _, _, _, _, same⟩
  rw [← same, insert_empty]

theorem sortedEntries_single (only : transfer.entries = .singleton entry.fileId entry) :
    transfer.sortedEntries = [entry] := by
  simp [sortedEntries, only]

theorem prepare_eq_ok {requests : List (UInt64 × UInt64)}
    (sorted : transfer.sortedEntries = [entry]) :
    transfer.prepare io = .ok (requests, later) ↔ transfer.cancelled = false ∧
      transfer.prepareEntry io entry = .ok later ∧ requests = transfer.requests := by
  simp only [prepare, bind_ok, pure_ok, ensureActive_eq_ok, sorted, prepareEntries, Prod.mk.injEq]
  constructor
  · rintro ⟨_, active, _, ⟨_, entered, rfl⟩, rfl, rfl⟩
    exact ⟨active, entered, rfl⟩
  · rintro ⟨active, entered, rfl⟩
    exact ⟨(), active, later, ⟨later, entered, rfl⟩, rfl, rfl⟩

theorem Receiving.of_prepare {id : UInt64} {directory : PathBuf}
    {requests : List (UInt64 × UInt64)} {created : IncomingTransfer} (first : entry.fileId = 1)
    (kind : entry.kind = .file) (made : new io id [entry] directory limit = .ok created)
    (prepared : created.prepare io = .ok (requests, transfer)) :
    transfer.Receiving entry.size [] := by
  unfold new at made
  simp only [guard_bind_ok, bind_ok, orIo_eq_ok, pure_ok] at made
  rcases made with ⟨_, _, _, _, collected, rfl⟩
  have entries := collectEntries_single collected
  subst entries
  rcases (prepare_eq_ok (sortedEntries_single rfl)).mp prepared with ⟨_, entered, _⟩
  unfold prepareEntry at entered
  simp only [kind, bind_ok, okOr_eq_ok, orIo_eq_ok, pure_ok] at entered
  rcases entered with ⟨_, _, _, _, _, parents, _, _, _, _, _, _, rfl⟩
  rcases createParents_ok parents with ⟨files, cancelled⟩
  refine ⟨cancelled, { file := [], expected := entry.size, offset := 0, hasher := [] }, ?_, rfl,
    rfl, rfl, rfl⟩
  rw [openFile, files, first]
  rfl

end IncomingTransfer

/-- Every call that creating a file makes succeeds. -/
structure Io.Creates (io : Io) : Prop where
  createDirAll : ∀ path, io.createDirAll path = .ok ()
  canonicalize : ∀ path, ∃ real, io.canonicalize path = .ok real
  createNew : ∀ path, io.createNew path = .ok ()
  tryClone : ∀ path, io.tryClone path = .ok ()
  identityOf : ∀ path, ∃ identity, io.identityOf path = .ok identity

theorem Io.Creates.obliging (len : UInt64) (next : Bytes) : (Io.obliging len next).Creates :=
  ⟨fun _ => rfl, fun path => ⟨path, rfl⟩, fun _ => rfl, fun _ => rfl, fun _ => ⟨_, rfl⟩⟩

theorem PathBuf.ofText_of_valid (valid : validateManualFileName name = .ok ()) :
    ofText name = ⟨false, [.normal (utf8 name)]⟩ := by
  unfold validateManualFileName at valid
  dsimp only at valid
  split at valid
  · cases valid
  · rename_i allowed
    simp only [Bool.or_eq_true, not_or, decide_eq_true_eq, List.isEmpty_iff] at allowed
    have slash : (0x2f : UInt8) ∉ utf8 name := by
      have absent := allowed.1.1.1.1.1.2
      simpa using absent
    have plain : IsName (utf8 name) :=
      { nonempty := allowed.1.1.1.1.1.1.1.1.1.1
        notDot := allowed.1.1.1.1.1.1.1.1.2
        notDots := allowed.1.1.1.1.1.1.1.2
        unslashed := slash }
    exact plain.ofBytes

theorem validateRelativePath_of_valid (valid : validateManualFileName name = .ok ()) :
    validateRelativePath name = .ok () := by
  have single := ofText_of_valid valid
  unfold validateManualFileName at valid
  dsimp only at valid
  split at valid
  · cases valid
  · rename_i allowed
    simp only [Bool.or_eq_true, not_or, decide_eq_true_eq, List.isEmpty_iff] at allowed
    have empty := allowed.1.1.1.1.1.1.1.1.1.1
    have short := allowed.1.1.1.1.1.1.1.1.1.2
    have backslash := allowed.1.1.1.1.2
    have zero : (0 : UInt8) ∉ utf8 name := by
      have none := allowed.1.2
      intro member
      exact none (List.any_eq_true.mpr ⟨0, member, rfl⟩)
    have bounded : (utf8 name).length ≤ maxClipboardPathSize := Nat.le_of_not_lt short
    have chars : (0x5c : UInt8) ∉ utf8 name := by simpa using backslash
    unfold validateRelativePath
    simp only [single]
    simp [empty, bounded, chars, zero]

theorem PathBuf.join_normal (root : PathBuf) (name : Bytes) :
    root.join ⟨false, [.normal name]⟩ = ⟨root.absolute, root.components ++ [.normal name]⟩ := by
  unfold join
  by_cases empty : root = .empty
  · simp [empty, PathBuf.empty]
  · simp [empty]

theorem Io.Creates.prepare (creates : io.Creates) {id size : UInt64} {name : String}
    {directory : PathBuf} (valid : validateManualFileName name = .ok ()) :
    ∃ created requests transfer,
      new io id [{ fileId := 1, path := name, kind := .file, size }] directory
        none = .ok created ∧ created.prepare io = .ok (requests, transfer) := by
  rcases creates.canonicalize directory with ⟨root, real⟩
  have added : checkedAdd 0 size = some (0 + size) := by
    apply checkedAdd_eq_some.mpr
    refine ⟨?_, rfl⟩
    have bound := size.toNat_lt
    change 0 + size.toNat ≤ 18446744073709551615
    omega
  let entry : ClipboardManifestEntry := { fileId := 1, path := name, kind := .file, size }
  let created : IncomingTransfer :=
    { transferId := id, destination := root, entries := .singleton 1 entry, files := ∅
      createdFiles := ∅, createdDirs := [], cancelled := false, finished := false }
  have collected : collectEntries none [] 0 0 ∅ [entry] = .ok (.singleton 1 entry) := by
    simp only [collectEntries, guard_bind_ok, bind_ok, okOr_eq_ok, pure_ok]
    exact ⟨by simp [entry], (), validateRelativePath_of_valid valid, by simp [entry], _, added,
      by simp, insert_empty _ _⟩
  have made : new io id [entry] directory none = .ok created := by
    unfold new
    simp only [guard_bind_ok, bind_ok, orIo_eq_ok, pure_ok]
    exact ⟨by simp [maxClipboardManifestEntries], root, real, _, collected, rfl⟩
  have contained : ensureContained io root (root.join (.ofText name)) = .ok () := by
    rw [ofText_of_valid valid, join_normal]
    unfold ensureContained
    rw [if_neg]
    rw [not_or]
    refine ⟨?_, ?_⟩
    · simp [startsWith]
    · intro same
      have longer := congrArg (fun path => path.components.length) same
      simp at longer
  have parent : (root.join (.ofText name)).parent = some root := by
    rw [ofText_of_valid valid, join_normal]
    simp [parent]
  have parents : created.createParents io root = .ok created := by
    unfold createParents
    simp only [bind_ok, okOr_eq_ok]
    refine ⟨[], ?_, rfl⟩
    simp [stripPrefix, created]
  rcases creates.identityOf (root.join (.ofText name)) with ⟨identity, known⟩
  have entered : ∃ transfer, created.prepareEntry io entry = .ok transfer := by
    apply Exists.intro
    unfold prepareEntry
    simp only [entry, bind_ok, okOr_eq_ok, orIo_eq_ok, pure_ok]
    exact ⟨(), contained, root, parent, created, parents, (), creates.createNew _, (),
      creates.tryClone _, identity, known, rfl⟩
  rcases entered with ⟨transfer, entered⟩
  have sorted : created.sortedEntries = [entry] := sortedEntries_single rfl
  refine ⟨created, [(1, 0)], transfer, made, (prepare_eq_ok sorted).mpr ⟨rfl, entered, ?_⟩⟩
  simp [IncomingTransfer.requests, sorted, entry]

end Syntra.Files
