import Mathlib.Data.List.Sort
import Syntra.StateMachine.Run
import Syntra.Store.Schema

/-!
# The history store

`HistoryStore`: its tables, its statements and its public operations. A transaction that fails
leaves the tables as they were, so an operation returns the tables it commits or an error. Rows that
`ORDER BY` does not tell apart come in an order that is an argument.
-/

namespace Syntra.Store

open ByteFormat Proto Tables StateMachine

/-- The columns `pinned` and `dismissed` of `history_local_state`. -/
structure Flags where
  pinned : Bool
  dismissed : Bool
  deriving DecidableEq, Repr

/-- The tables of the database. A clear operation has its boundary as JSON and the number of
events it affected. -/
structure HistoryStore where
  events : Table EventKey EventRow
  localState : Table EventKey Flags
  clearOperations : Table String (String × ℕ)
  clearBoundaries : Table (String × String) ℤ

/-- A row of the events that are not dismissed, joined with the local state. -/
structure VisibleRow where
  key : EventKey
  row : EventRow
  pinned : Bool
  deriving DecidableEq, Repr

namespace VisibleRow

/-- Newest first, then by device, then by descending sequence. Texts compare as their bytes do. -/
def exportKey (visible : VisibleRow) : ℤ ×ₗ String ×ₗ ℤ :=
  toLex (-visible.row.createdAtMs, toLex (visible.key.1, -visible.key.2))

def listKey (visible : VisibleRow) : Bool ×ₗ ℤ ×ₗ String ×ₗ ℤ :=
  toLex (!visible.pinned, visible.exportKey)

/-- The condition of `SEARCH_SQL`. -/
def isLike (env : Environment) (pattern : String) (visible : VisibleRow) : Bool :=
  visible.row.originLabel.any (env.like pattern) ||
    visible.row.textPayload.any (env.like pattern) ||
    visible.row.mediaType.any (env.like pattern) || visible.row.filesJson.any (env.like pattern)

end VisibleRow

/-- `escape_like`. -/
def escapeLike (value : String) : String :=
  String.ofList (value.toList.flatMap fun character =>
    if character = '%' ∨ character = '_' ∨ character = '\\' then ['\\', character]
    else [character])

def likePattern (query : String) : String := "%" ++ escapeLike query ++ "%"

namespace HistoryStore

variable (env : Environment) (store : HistoryStore)

def new : HistoryStore := ⟨∅, ∅, ∅, ∅⟩

/-- The flags of an event, `COALESCE`d where it has none. -/
def flags (key : EventKey) : Flags :=
  (store.localState.lookup key).getD ⟨false, false⟩

def visible : List VisibleRow :=
  store.events.entries.filterMap fun entry =>
    if (store.flags entry.1).dismissed then none
    else some ⟨entry.1, entry.2, (store.flags entry.1).pinned⟩

def queryRecords (rows : List VisibleRow) : Except HistoryError (List HistoryRecord) :=
  rows.mapM fun visible => decodeRecord env visible.key visible.row visible.pinned

/-- The rows of `LIST_SQL`. -/
def listRows : List VisibleRow :=
  store.visible.insertionSort fun left right => left.listKey ≤ right.listKey

/-- The rows of `SEARCH_SQL`. -/
def searchRows (pattern : String) : List VisibleRow :=
  (store.visible.filter (·.isLike env pattern)).insertionSort fun left right =>
    left.listKey ≤ right.listKey

/-- The rows of `EXPORT_SQL`. -/
def exportRows : List VisibleRow :=
  store.visible.insertionSort fun left right => left.exportKey ≤ right.exportKey

def list : Except HistoryError (List HistoryRecord) :=
  queryRecords env store.listRows

def search (query : String) : Except HistoryError (List HistoryRecord) :=
  if (utf8 query).isEmpty then store.list env
  else queryRecords env (store.searchRows env (likePattern query))

def queryWindow (rows : List VisibleRow) (offset : UInt64) (limit : ℕ) :
    Except HistoryError (List HistoryRecord × Option UInt64) := do
  let limit := max 1 (min limit 50)
  let records ← queryRecords env ((rows.drop (min offset.toNat i64Max)).take (limit + 1))
  if records.length > limit then
    pure (records.take limit, some (UInt64.ofNat (min (offset.toNat + limit) u64Max)))
  else
    pure (records, none)

def page (query : String) (offset : UInt64) (limit : ℕ) :
    Except HistoryError (List HistoryRecord × Option UInt64) :=
  if (utf8 query).isEmpty then queryWindow env store.listRows offset limit
  else queryWindow env (store.searchRows env (likePattern query)) offset limit

def exportPage (offset : UInt64) (limit : ℕ) :
    Except HistoryError (List ImportedHistoryEvent × Option UInt64) :=
  (queryWindow env store.exportRows offset limit).map fun (records, next) =>
    (records.map immutableEvent, next)

def get (eventId : HistoryEventId) : Except HistoryError (Option HistoryRecord) := do
  let sequence ← sequenceToSql eventId.originSequence
  let key := (eventId.originDeviceId, sequence)
  match store.events.lookup key with
  | some row =>
    if (store.flags key).dismissed then pure none
    else (decodeRecord env key row (store.flags key).pinned).map some
  | none => pure none

/-- `MAX(origin_sequence)` of the events of a device. -/
def maxSequence (device : String) : Option ℤ :=
  ((store.events.keys.filter fun key => key.1 = device).map (·.2)).max?

/-- `MAX(maximum_sequence)` of the boundaries of a device. -/
def maxBoundary (device : String) : Option ℤ :=
  ((store.clearBoundaries.entries.filter fun entry => entry.1.2 = device).map (·.2)).max?

def nextSequence (device : String) : Except HistoryError UInt64 := do
  validateString "origin device id" device maxDeviceIdBytes
  let maximum := ((store.maxSequence device).toList ++ (store.maxBoundary device).toList).max?
  let next := maximum.getD 0 + 1
  if next > i64Max then
    throw (.invalidPayload "origin sequence exhausted SQLite INTEGER")
  if next < 0 then
    throw (.corruptData "negative persisted origin sequence")
  pure (UInt64.ofNat next.toNat)

/-- One row of `snapshot_boundary`, the events grouped by device. -/
def noteDevice (boundary : ClearBoundary) (device : String) : Except HistoryError ClearBoundary :=
  let sequence := (store.maxSequence device).getD 0
  if sequence < 0 then
    .error (.corruptData "negative origin sequence")
  else
    .ok (boundary.insert device (UInt64.ofNat sequence.toNat))

def snapshotBoundary : Except HistoryError ClearBoundary :=
  (store.events.keys.map (·.1)).dedup.foldlM store.noteDevice ∅

def coveredByClear (key : EventKey) : Bool :=
  store.clearBoundaries.entries.any fun entry => entry.1.2 = key.1 && key.2 ≤ entry.2

def insertEvent (event : ImportedHistoryEvent) (key : EventKey) : HistoryStore :=
  { store with events := store.events.insert key (encodeEvent env event) }

/-- Newest first, then by descending sequence. -/
def recency (key : EventKey) : ℤ ×ₗ ℤ :=
  toLex (-((store.events.lookup key).map (·.createdAtMs)).getD 0, -key.2)

variable (ties : IterOrder EventKey)

/-- The unpinned rows after the newest thousand; `ties` says how equally recent rows stand. -/
def prunable : List EventKey :=
  ((ties.arrange (store.events.keys.filter fun key => !(store.flags key).pinned)).insertionSort
    fun left right => store.recency left ≤ store.recency right).drop maxUnpinnedRecords

def pruneUnpinned : HistoryStore :=
  { store with
    events := store.events.retain fun key _ => key ∉ store.prunable ties
    localState := store.localState.retain fun key _ => key ∉ store.prunable ties }

def mergeImported (event : ImportedHistoryEvent) :
    Except HistoryError (HistoryStore × MergeOutcome) := do
  validateEvent event
  let sequence ← sequenceToSql event.eventId.originSequence
  let key := (event.eventId.originDeviceId, sequence)
  if (store.flags key).dismissed then
    pure (store, .suppressed)
  else
    match store.events.lookup key with
    | some row =>
      let existing ← decodeRecord env key row (store.flags key).pinned
      if immutableEvent existing ≠ event then
        throw (.eventConflict event.eventId)
      pure (store, .alreadyPresent)
    | none =>
      if store.coveredByClear key then
        pure (store, .suppressed)
      else
        pure ((store.insertEvent env event key).pruneUnpinned ties, .inserted)

/-- `now` is the answer of `now_ms`. -/
def record (now : Except HistoryError ℤ) (kind : HistoryKind) (content : HistoryContent)
    (origin : HistoryOrigin) :
    Except HistoryError (HistoryStore × MergeOutcome) := do
  if kind ≠ content.kind then
    throw (.invalidPayload s!"kind {kind.debug} does not match {content.kind.debug} content")
  let createdAtMs ← now
  store.mergeImported env ties
    { eventId := origin.eventId, createdAtMs, originLabel := origin.label, content }

def setPinned (eventId : HistoryEventId) (pinned : Bool) :
    Except HistoryError (HistoryStore × Bool) := do
  let sequence ← sequenceToSql eventId.originSequence
  let key := (eventId.originDeviceId, sequence)
  if key ∈ store.events then
    let (localState, changed) := upsert store.localState key ⟨pinned, false⟩ fun old =>
      if old.dismissed then none else some { old with pinned }
    pure ({ store with localState }, changed ≠ 0)
  else
    pure (store, false)

def dismiss (within : EventKey → Bool) : HistoryStore × ℕ :=
  let selected := store.events.keys.filter fun key =>
    within key && !(store.flags key).pinned && !(store.flags key).dismissed
  let (localState, affected) := selected.foldl
    (fun (table, affected) key =>
      let (table, changed) := upsert table key ⟨false, true⟩ fun old =>
        if old.pinned || old.dismissed then none else some { old with dismissed := true }
      (table, affected + changed))
    (store.localState, 0)
  ({ store with localState }, affected)

end HistoryStore

def EventRow.scrubbed (row : EventRow) : EventRow :=
  { row with textPayload := none, imagePayload := none, mediaType := none, filesJson := none }

namespace HistoryStore

variable (env : Environment) (store : HistoryStore)

/-- The statement that removes the payloads of the dismissed events of a range. -/
def scrub (within : EventKey → Bool) : HistoryStore :=
  { store with
    events := store.events.filterMap fun key row =>
      some (if within key && !(store.flags key).pinned && (store.flags key).dismissed then
        row.scrubbed else row) }

def hide (within : EventKey → Bool) : HistoryStore × ℕ :=
  ((store.dismiss within).1.scrub within, (store.dismiss within).2)

def clearUnpinned : HistoryStore × ℕ :=
  store.hide fun _ => true

/-- One turn of the loop of `clear_unpinned_through`. -/
def clearDevice (operationId : String) (progress : HistoryStore × ℕ) (entry : String × UInt64) :
    Except HistoryError (HistoryStore × ℕ) := do
  let maximum ← sequenceToSql entry.2
  let bounded : HistoryStore :=
    { progress.1 with
      clearBoundaries := progress.1.clearBoundaries.insert (operationId, entry.1) maximum }
  let (cleared, affected) := bounded.hide fun key => key.1 = entry.1 && key.2 ≤ maximum
  pure (cleared, progress.2 + affected)

def clearUnpinnedThrough (operationId : String) (boundary : ClearBoundary) :
    Except HistoryError (HistoryStore × ℕ) := do
  validateString "clear operation id" operationId maxOperationIdBytes
  boundary.keys.forM fun device => validateString "boundary device id" device maxDeviceIdBytes
  match store.clearOperations.lookup operationId with
  | some (stored, affected) =>
    if stored ≠ env.boundaryToJson boundary then
      throw (.clearOperationConflict operationId)
    pure (store, affected)
  | none => do
    let (cleared, affected) ← boundary.toList.foldlM (clearDevice operationId) (store, 0)
    pure
      ({ cleared with
          clearOperations :=
            cleared.clearOperations.insert operationId (env.boundaryToJson boundary, affected) },
        affected)

/-- The calls that change the store. -/
inductive Call where
  | record (ties : IterOrder EventKey) (now : Except HistoryError ℤ) (kind : HistoryKind)
      (content : HistoryContent) (origin : HistoryOrigin)
  | mergeImported (ties : IterOrder EventKey) (event : ImportedHistoryEvent)
  | setPinned (eventId : HistoryEventId) (pinned : Bool)
  | clearUnpinned
  | clearUnpinnedThrough (operationId : String) (boundary : ClearBoundary)

/-- What an operation leaves, committed or rolled back. -/
def settle {α : Type} (store : HistoryStore) : Except HistoryError (HistoryStore × α) → HistoryStore
  | .ok (committed, _) => committed
  | .error _ => store

def perform : Call → HistoryStore
  | .record ties now kind content origin =>
    store.settle (store.record env ties now kind content origin)
  | .mergeImported ties event => store.settle (store.mergeImported env ties event)
  | .setPinned eventId pinned => store.settle (store.setPinned eventId pinned)
  | .clearUnpinned => store.clearUnpinned.1
  | .clearUnpinnedThrough operationId boundary =>
    store.settle (store.clearUnpinnedThrough env operationId boundary)

def machine (permits : HistoryStore → Call → Prop) : Machine HistoryStore Call where
  initial := new
  enabled := permits
  next := perform env

end HistoryStore

end Syntra.Store
