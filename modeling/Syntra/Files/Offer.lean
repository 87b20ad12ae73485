import Syntra.Files.Transfer

/-!
# Offers built from the file system

`FileOffer::from_uri_list` and what it calls: the URIs of a copied selection become paths, and the
directory tree under each path becomes the entries of a manifest. A tree is finite and does
not change while it is read.
-/

namespace Syntra.Files

open ByteFormat Proto List Relation

/-- A name that a directory can hold. -/
structure FileName where
  bytes : Bytes
  nonempty : bytes ≠ []
  noSlash : 0x2f ∉ bytes
  noNul : 0 ∉ bytes
  notDots : bytes ≠ [0x2e] ∧ bytes ≠ [0x2e, 0x2e]

mutual

/-- What stands at a path: the answer of `symlink_metadata` and, for a directory, that of
`read_dir`. -/
inductive Tree where
  | unreadable (error : IoError)
  | node (metadata : Metadata) (listing : Listing)

/-- The items that `read_dir` yields, in no particular order. -/
inductive Listing where
  | done
  | failed (error : IoError)
  | entry (name : FileName) (tree : Tree) (rest : Listing)

end

def Tree.symlinkMetadata : Tree → Except IoError Metadata
  | .unreadable error => .error error
  | .node metadata _ => .ok metadata

/-- What stands at each path, and how the path is shown. -/
structure FileSystem where
  find : PathBuf → Tree
  display : PathBuf → String

/-- `Path::join` with a name. -/
def joinName (path : Bytes) (name : FileName) : Bytes :=
  if path = [] ∨ path.getLast? = some 0x2f then path ++ name.bytes else path ++ 0x2f :: name.bytes

/-- `validate_relative_path` of a path that may not be text. -/
def validateOsPath (display : PathBuf → String) (path : Bytes) : Except TransferError Unit := do
  let encoded ← okOr (fromUtf8? path) (TransferError.unsafePath (display (.ofBytes path)))
  validateRelativePath encoded

/-- What `collect_entry` changes through its references. -/
structure Collection where
  nextId : UInt64
  total : UInt64
  entries : List ClipboardManifestEntry
  sources : AList (fun _ : UInt64 => PathBuf × SourceIdentity)

def Collection.new : Collection := ⟨1, 0, [], ∅⟩

variable (collection : Collection)

/-- The checks that come before a look at the file system. -/
def Collection.checkNext (display : PathBuf → String) (relative : Bytes) :
    Except TransferError Unit := do
  if collection.entries.length ≥ maxClipboardManifestEntries then
    throw .tooManyEntries
  validateOsPath display relative

def Collection.addFile (nextId : UInt64) (path : String) (source : PathBuf) (metadata : Metadata)
    (total : UInt64) : Collection where
  nextId
  total
  entries := collection.entries ++
    [{ fileId := collection.nextId, path, kind := .file, size := metadata.len }]
  sources := collection.sources.insert collection.nextId (source, .fromMetadata metadata)

def Collection.addDirectory (nextId : UInt64) (path : String) : Collection :=
  { collection with
    nextId
    entries := collection.entries ++
      [{ fileId := collection.nextId, path, kind := .directory, size := 0 }] }

/-- What remains of `collect_entry` once the tree at its source is known. -/
abbrev Collector := PathBuf → Bytes → Collection → Except TransferError Collection

def collectChildren (children : List (FileName × Collector)) : Collector :=
  fun source relative collection =>
    (children.insertionSort fun left right => left.1.bytes ≤ right.1.bytes).foldlM
      (fun collection child =>
        child.2 (source.push (.normal child.1.bytes)) (joinName relative child.1) collection)
      collection

mutual

def collectEntry (display : PathBuf → String) : Tree → Collector
  | .unreadable error => fun _ relative collection => do
    collection.checkNext display relative
    throw (.io error)
  | .node metadata listing => fun source relative collection => do
    collection.checkNext display relative
    if metadata.isSymlink then
      throw (.unsupportedEntry source)
    let nextId ← okOr (checkedAdd collection.nextId 1) TransferError.tooManyEntries
    let path ← okOr (fromUtf8? relative) (TransferError.unsafePath (display (.ofBytes relative)))
    if metadata.isFile then
      let total ← okOr (checkedAdd collection.total metadata.len) TransferError.tooLarge
      if total.toNat > maxClipboardSize then
        throw .tooLarge
      pure (collection.addFile nextId path source metadata total)
    else if metadata.isDir then
      let children ← orIo (listedEntries display listing)
      collectChildren children source relative (collection.addDirectory nextId path)
    else
      throw (.unsupportedEntry source)

def listedEntries (display : PathBuf → String) :
    Listing → Except IoError (List (FileName × Collector))
  | .done => .ok []
  | .failed error => .error error
  | .entry name tree rest =>
    (listedEntries display rest).map ((name, collectEntry display tree) :: ·)

end

/-- One turn of the loop of `from_paths`: the root names so far and what has been collected. -/
def addRoot (files : FileSystem) (progress : List String × Collection) (root : PathBuf) :
    Except TransferError (List String × Collection) := do
  let metadata ← orIo (files.find root).symlinkMetadata
  if metadata.isSymlink then
    throw (.unsupportedEntry root)
  let base ← okOr (root.fileName.bind fromUtf8?) (TransferError.unsafePath (files.display root))
  validateRelativePath base
  if base ∈ progress.1 then
    throw (.unsafePath s!"duplicate root name {base}")
  let collection ← collectEntry files.display (files.find root) root (utf8 base) progress.2
  pure (base :: progress.1, collection)

def FileOffer.fromPaths (files : FileSystem) (transferId : UInt64) (roots : List PathBuf) :
    Except TransferError FileOffer := do
  let (_, collection) ← roots.foldlM (addRoot files) ([], .new)
  pure { transferId, entries := collection.entries, sources := collection.sources }

def hex (value : UInt8) : Option UInt8 :=
  if 0x30 ≤ value ∧ value ≤ 0x39 then
    some (value - 0x30)
  else if 0x61 ≤ value ∧ value ≤ 0x66 then
    some (value - 0x61 + 10)
  else if 0x41 ≤ value ∧ value ≤ 0x46 then
    some (value - 0x41 + 10)
  else
    none

/-- The loop of `file_uri_to_path`. -/
def percentDecode : Bytes → Option Bytes
  | [] => some []
  | byte :: rest =>
    if byte = 0x25 then
      match rest with
      | high :: low :: rest => do
        let high ← hex high
        let low ← hex low
        let decoded ← percentDecode rest
        some ((high <<< 4 ||| low) :: decoded)
      | _ => none
    else
      (percentDecode rest).map (byte :: ·)

def encodedPath (uri : Bytes) : Option Bytes := do
  let encoded ← (utf8 "file://").isPrefixOf? uri
  match (utf8 "localhost/").isPrefixOf? encoded with
  | some path => some (0x2f :: path)
  | none => if encoded.head? = some 0x2f then some encoded else none

def fileUriToPath (uri : String) : Except TransferError PathBuf := do
  let decoded ← okOr ((encodedPath (utf8 uri)).bind percentDecode) (TransferError.invalidUri uri)
  if 0 ∈ decoded then
    throw (.invalidUri uri)
  let path := PathBuf.ofBytes decoded
  if ¬path.isAbsolute then
    throw (.invalidUri uri)
  pure path

/-- `char::is_whitespace`. -/
def isWhitespace (character : Char) : Bool :=
  let code := character.toNat
  (0x9 ≤ code && code ≤ 0xd) || code = 0x20 || code = 0x85 || code = 0xa0 || code = 0x1680 ||
    (0x2000 ≤ code && code ≤ 0x200a) || code = 0x2028 || code = 0x2029 || code = 0x202f ||
    code = 0x205f || code = 0x3000

def trimEndMatches (discard : Char → Bool) (text : List Char) : List Char :=
  (text.reverse.dropWhile discard).reverse

/-- `str::trim`. -/
def trim (text : List Char) : List Char :=
  trimEndMatches isWhitespace (text.dropWhile isWhitespace)

/-- `str::lines`, with the carriage returns that the caller cuts off next. -/
def lines (text : List Char) : List (List Char) :=
  let parts := text.splitOn '\n'
  if parts.getLast? = some [] then parts.dropLast else parts

def uriLines (text : String) : List String :=
  (((lines text.toList).map fun line => trim (trimEndMatches (· = '\r') line)).filter
    fun line => !(line.isEmpty || line.head? = some '#')).map String.ofList

def FileOffer.fromUriList (files : FileSystem) (transferId : UInt64) (text : String) :
    Except TransferError FileOffer := do
  let roots ← (uriLines text).mapM fileUriToPath
  if roots.isEmpty then
    throw (.invalidUri "empty URI list")
  fromPaths files transferId roots

/-- The offers that the constructors build. -/
inductive FileOffer.Built (files : FileSystem) : FileOffer → Prop
  | paths {transferId : UInt64} {roots : List PathBuf} {offer : FileOffer}
      (built : fromPaths files transferId roots = .ok offer) : Built files offer
  | uriList {transferId : UInt64} {text : String} {offer : FileOffer}
      (built : fromUriList files transferId text = .ok offer) : Built files offer

/-- The bytes that the check of a relative path refuses. -/
def IsPlain (path : String) : Prop :=
  0x5c ∉ utf8 path ∧ 0 ∉ utf8 path

variable {path : String} {items : List (FileName × (Bytes → List Bytes))}
  {children : List (FileName × Collector)} {source : PathBuf} {display : PathBuf → String}

theorem isPlain_of_validateRelativePath (valid : validateRelativePath path = .ok ()) :
    IsPlain path := by
  simp only [validateRelativePath, guard_bind_ok, Bool.or_eq_true,
    contains_eq_mem, decide_eq_true_eq, not_or] at valid
  exact ⟨valid.1.1.2, valid.1.2⟩

/-- The ids run upwards to the next one, and the paths have passed the check. -/
structure Collection.Orderly (collection : Collection) : Prop where
  increasing : (0 :: (collection.entries.map (·.fileId) ++ [collection.nextId])).Pairwise (· < ·)
  plain : ∀ entry ∈ collection.entries, IsPlain entry.path

namespace Collection

theorem orderly_new : new.Orderly := by
  refine ⟨?_, ?_⟩
  · decide
  · simp [new]

theorem Orderly.append {collection after : Collection} (orderly : collection.Orderly)
    {entry : ClipboardManifestEntry} (appended : after.entries = collection.entries ++ [entry])
    (numbered : entry.fileId = collection.nextId)
    (counted : checkedAdd collection.nextId 1 = some after.nextId) (plain : IsPlain entry.path) :
    after.Orderly := by
  rcases checkedAdd_eq_some.mp counted with ⟨fits, next⟩
  have later : collection.nextId < after.nextId := by
    rw [UInt64.lt_iff_toNat_lt, next, toNat_add_of_le fits]
    simp
  refine ⟨?_, ?_⟩
  · have increasing := orderly.increasing
    grind
  · intro other member
    rw [appended, mem_append, mem_singleton] at member
    rcases member with member | rfl
    · exact orderly.plain other member
    · exact plain

end Collection

theorem foldlM_keeps {ε α β : Type} (holds : β → Prop) {step : β → α → Except ε β} {items : List α}
    (keeps : ∀ item ∈ items, ∀ before after, holds before → step before item = .ok after →
      holds after) {start finish : β} (initially : holds start)
    (ran : items.foldlM step start = .ok finish) :
    holds finish := by
  induction items generalizing start with
  | nil =>
    simp only [foldlM_nil, pure_ok] at ran
    exact ran ▸ initially
  | cons item _ ih =>
    simp only [foldlM_cons, bind_ok] at ran
    rcases ran with ⟨next, stepped, ran⟩
    apply ih (fun other member => keeps other (.tail _ member)) _ ran
    exact keeps item (.head _) start next initially stepped

mutual

/-- The paths of what stands at a place and below it; nothing is below a file. -/
def Tree.paths : Tree → Bytes → List Bytes
  | .unreadable _, _ => []
  | .node metadata listing, relative =>
    relative :: if metadata.isFile then [] else listing.paths relative

def Listing.paths : Listing → Bytes → List Bytes
  | .done, _ | .failed _, _ => []
  | .entry name tree rest, relative => tree.paths (joinName relative name) ++ rest.paths relative

end

namespace Collection

def paths (collection : Collection) : List Bytes :=
  collection.entries.map fun entry => utf8 entry.path

def HasDirectory (collection : Collection) (path : Bytes) : Prop :=
  ∃ entry ∈ collection.entries, entry.kind = .directory ∧ utf8 entry.path = path

/-- The entry that comes next stands at the path, or in a directory that is there already. -/
structure Next (relative : Bytes) (collection : Collection) (nextId : UInt64) (path : String) :
    Prop where
  room : collection.entries.length < maxClipboardManifestEntries
  counted : checkedAdd collection.nextId 1 = some nextId
  plain : IsPlain path
  placed : utf8 path = relative ∨
    ∃ place name, collection.HasDirectory place ∧ utf8 path = joinName place name

/-- One entry is added below this path. -/
inductive Adds (relative : Bytes) : Collection → Collection → Prop
  | file {before : Collection} {nextId total : UInt64} {path : String} {source : PathBuf}
      {metadata : Metadata} (next : Next relative before nextId path)
      (summed : checkedAdd before.total metadata.len = some total)
      (small : total.toNat ≤ maxClipboardSize) :
      Adds relative before (before.addFile nextId path source metadata total)
  | directory {before : Collection} {nextId : UInt64} {path : String}
      (next : Next relative before nextId path) :
      Adds relative before (before.addDirectory nextId path)

variable {relative inner : Bytes} {before after : Collection}

theorem Adds.orderly (added : Adds relative before after) (orderly : before.Orderly) :
    after.Orderly := by
  cases added with
  | file next | directory next => exact orderly.append rfl rfl next.counted next.plain

theorem orderly_of_adds (added : ReflTransGen (Adds relative) before after)
    (orderly : before.Orderly) : after.Orderly := by
  induction added with
  | refl => exact orderly
  | tail _ last ih => exact last.orderly ih

theorem Adds.hasDirectory (added : Adds relative before after) (there : before.HasDirectory inner) :
    after.HasDirectory inner := by
  obtain ⟨entry, member, is⟩ := there
  cases added with
  | file | directory => exact ⟨entry, mem_append_left _ member, is⟩

variable {place : Bytes} {name : FileName}

theorem Next.outside {nextId : UInt64} (there : before.HasDirectory place)
    (next : Next (joinName place name) before nextId path) :
    Next relative before nextId path where
  room := next.room
  counted := next.counted
  plain := next.plain
  placed := .inr (next.placed.elim (fun same => ⟨place, name, there, same⟩) id)

theorem adds_of_inside (there : before.HasDirectory place)
    (added : ReflTransGen (Adds (joinName place name)) before after) :
    ReflTransGen (Adds relative) before after ∧ after.HasDirectory place := by
  induction added with
  | refl => exact ⟨.refl, there⟩
  | tail _ last ih =>
    refine ⟨ih.1.tail ?_, last.hasDirectory ih.2⟩
    cases last with
    | file next summed small => exact .file (next.outside ih.2) summed small
    | directory next => exact .directory (next.outside ih.2)

end Collection

def Collector.Collects (collector : Collector) (paths : Bytes → List Bytes) : Prop :=
  ∀ source relative before after, collector source relative before = .ok after →
    Relation.ReflTransGen (Collection.Adds relative) before after ∧
      after.paths.Perm (before.paths ++ paths relative)

/-- A name of a listing with what belongs to it. -/
def Named (child : FileName × Collector) (item : FileName × (Bytes → List Bytes)) : Prop :=
  child.1 = item.1 ∧ child.2.Collects item.2

variable {relative : Bytes}

theorem foldlM_children (named : Forall₂ Named children items) {before after : Collection}
    (there : before.HasDirectory relative) (ran : children.foldlM (fun collection child =>
      child.2 (source.push (.normal child.1.bytes)) (joinName relative child.1) collection)
      before = .ok after) :
    ReflTransGen (Collection.Adds relative) before after ∧
      after.paths.Perm
        (before.paths ++ items.flatMap fun item => item.2 (joinName relative item.1)) := by
  induction named generalizing before with
  | nil =>
    cases ran
    exact ⟨.refl, by simp⟩
  | cons first _ ih =>
    simp only [foldlM_cons, bind_ok] at ran
    obtain ⟨_, collected, ran⟩ := ran
    obtain ⟨steps, covered⟩ := first.2 _ _ _ _ collected
    obtain ⟨inside, there⟩ := Collection.adds_of_inside there steps
    obtain ⟨others, rest⟩ := ih there ran
    refine ⟨inside.trans others, rest.trans ?_⟩
    rw [flatMap_cons, ← append_assoc, ← first.1]
    exact covered.append_right _

theorem collectChildren_collects (named : Forall₂ Named children items) {before after : Collection}
    (there : before.HasDirectory relative)
    (ran : collectChildren children source relative before = .ok after) :
    ReflTransGen (Collection.Adds relative) before after ∧
      after.paths.Perm
        (before.paths ++ items.flatMap fun item => item.2 (joinName relative item.1)) := by
  obtain ⟨_, sortedNamed, same⟩ := perm_comp_forall₂ (perm_insertionSort
    (fun left right : FileName × Collector => left.1.bytes ≤ right.1.bytes) children) named
  obtain ⟨steps, covered⟩ := foldlM_children sortedNamed there ran
  exact ⟨steps, covered.trans ((same.flatMap_right _).append_left _)⟩

theorem isPlain_of_checkNext {collection : Collection}
    (checked : collection.checkNext display relative = .ok ())
    (spelled : fromUtf8? relative = some path) : IsPlain path := by
  simp only [Collection.checkNext, validateOsPath, guard_bind_ok, bind_ok,
    okOr_eq_ok, spelled] at checked
  rcases checked with ⟨-, _, same, valid⟩
  cases same
  exact isPlain_of_validateRelativePath valid

theorem Collection.length_lt_of_checkNext
    (checked : collection.checkNext display relative = .ok ()) :
    collection.entries.length < maxClipboardManifestEntries := by
  simp only [Collection.checkNext, guard_bind_ok, ge_iff_le, not_le] at checked
  exact checked.1

mutual

theorem collectEntry_collects (display : PathBuf → String) :
    (tree : Tree) → (collectEntry display tree).Collects tree.paths
  | .unreadable error => by
    intro source relative before after collected
    simp [collectEntry] at collected
  | .node metadata listing => by
    intro _ relative before _ collected
    simp only [collectEntry, bind_ok, guard_bind_ok, okOr_eq_ok] at collected
    rcases collected with ⟨_, checked, -, nextId, counted, path, spelled, collected⟩
    have same := fromUtf8?_eq_some.mp spelled
    have next : before.Next relative nextId path :=
      ⟨(before.length_lt_of_checkNext checked), counted, isPlain_of_checkNext checked spelled,
        .inl same.symm⟩
    rw [Tree.paths]
    split at collected
    · rename_i isFile
      simp only [bind_ok, guard_bind_ok, pure_ok, okOr_eq_ok, not_lt] at collected
      rcases collected with ⟨_, summed, small, rfl⟩
      refine ⟨.single (.file next summed small), ?_⟩
      simp [Collection.paths, Collection.addFile, isFile, same]
    · rename_i isFile
      split at collected
      · simp only [bind_ok, orIo_eq_ok] at collected
        rcases collected with ⟨children, listed, collected⟩
        obtain ⟨_, named, paths⟩ := listedEntries_collects display listing children listed
        obtain ⟨steps, covered⟩ := collectChildren_collects named
          ⟨_, mem_append_right _ (.head _), rfl, same.symm⟩ collected
        refine ⟨.head (.directory next) steps, covered.trans ?_⟩
        simp [Collection.paths, Collection.addDirectory, isFile, same, paths]
      · simp at collected

theorem listedEntries_collects (display : PathBuf → String) :
    (listing : Listing) → (children : List (FileName × Collector)) →
      listedEntries display listing = .ok children →
        ∃ items : List (FileName × (Bytes → List Bytes)), Forall₂ Named children items ∧
          ∀ relative, listing.paths relative =
            items.flatMap fun item => item.2 (joinName relative item.1)
  | .done, children, listed => by
    simp only [listedEntries, Except.ok.injEq] at listed
    exact ⟨[], listed ▸ .nil, fun _ => rfl⟩
  | .failed error, children, listed => by
    simp [listedEntries] at listed
  | .entry name tree rest, children, listed => by
    cases remaining : listedEntries display rest with
    | error => simp [listedEntries, remaining, Except.map] at listed
    | ok others =>
      simp only [listedEntries, remaining, Except.map, Except.ok.injEq] at listed
      rw [← listed]
      obtain ⟨items, named, paths⟩ := listedEntries_collects display rest others remaining
      refine ⟨(name, tree.paths) :: items, .cons ⟨rfl, collectEntry_collects display tree⟩ named,
        fun _ => ?_⟩
      rw [Listing.paths, paths, flatMap_cons]

end

namespace FileOffer

/-- The ids of an offer run upwards from 1, and its paths have passed the check. -/
structure Orderly (offer : FileOffer) : Prop where
  increasing : (0 :: offer.entries.map (·.fileId)).Pairwise (· < ·)
  plain : ∀ entry ∈ offer.entries, IsPlain entry.path

variable {files : FileSystem} {offer : FileOffer}

theorem orderly_of_fromPaths {transferId : UInt64} {roots : List PathBuf}
    (built : fromPaths files transferId roots = .ok offer) : offer.Orderly := by
  simp only [fromPaths, bind_ok, pure_ok] at built
  rcases built with ⟨⟨_, collection⟩, ran, rfl⟩
  have orderly : collection.Orderly := by
    apply foldlM_keeps (fun progress : List String × Collection => progress.2.Orderly) _
      Collection.orderly_new ran
    intro root _ _ _ orderly stepped
    simp only [addRoot, bind_ok, guard_bind_ok, pure_ok] at stepped
    rcases stepped with ⟨_, -, -, _, -, _, -, -, _, entered, rfl⟩
    exact Collection.orderly_of_adds
      (collectEntry_collects files.display (files.find root) _ _ _ _ entered).1 orderly
  refine ⟨?_, orderly.plain⟩
  have increasing := orderly.increasing
  rw [← cons_append, pairwise_append] at increasing
  exact increasing.1

theorem Built.orderly (built : Built files offer) : offer.Orderly := by
  cases built with
  | paths built => exact orderly_of_fromPaths built
  | uriList built =>
    simp only [fromUriList, bind_ok, guard_bind_ok] at built
    rcases built with ⟨_, -, -, built⟩
    exact orderly_of_fromPaths built

end FileOffer

end Syntra.Files
