import Mathlib.Logic.Equiv.List
import Syntra.Store.Effects

/-!
# The rows and their flags

In every state that calls lead to, no event is both pinned and dismissed, the payloads of dismissed
events are gone, and every other row is that of an event that was inserted. So every query can
decode the rows it finds.
-/

namespace Syntra.Store

open Tables StateMachine List

namespace HistoryStore

variable {env : Environment} {store : HistoryStore}

def rowOf (env : Environment) (event : ImportedHistoryEvent) (dismissed : Bool) : EventRow :=
  if dismissed then (encodeEvent env event).scrubbed else encodeEvent env event

@[simp]
theorem scrubbed_rowOf (event : ImportedHistoryEvent) (dismissed : Bool) :
    (rowOf env event dismissed).scrubbed = rowOf env event true := by
  cases dismissed <;> rfl

/-- The rows are those of `inserted` events. -/
structure Sound (env : Environment) (inserted : ImportedHistoryEvent → Prop)
    (store : HistoryStore) : Prop where
  exclusive : ∀ key, ¬((store.flags key).pinned = true ∧ (store.flags key).dismissed = true)
  rows : ∀ key row, store.events.lookup key = some row → ∃ event, inserted event ∧
    event.eventId.key = key ∧ row = rowOf env event (store.flags key).dismissed

variable {inserted : ImportedHistoryEvent → Prop}

theorem sound_new : new.Sound env inserted := by
  refine ⟨?_, ?_⟩
  · rintro key ⟨pinned, -⟩
    cases pinned
  · intro _ _ found
    cases found

variable (sound : store.Sound env inserted)
include sound

theorem Sound.mono {later : ImportedHistoryEvent → Prop}
    (more : ∀ event, inserted event → later event) : store.Sound env later := by
  refine ⟨sound.exclusive, ?_⟩
  intro key row found
  rcases sound.rows key row found with ⟨event, was, keyed, same⟩
  exact ⟨event, more event was, keyed, same⟩

theorem Sound.insertEvent {event : ImportedHistoryEvent} (admits : store.Admits event)
    (now : inserted event) : (store.withEvent env event).Sound env inserted := by
  refine ⟨sound.exclusive, ?_⟩
  intro key row found
  have looked : (store.withEvent env event).events.lookup key =
      if key = event.eventId.key then some (encodeEvent env event)
      else store.events.lookup key := lookup_insert store.events _ key _
  rw [looked] at found
  split at found
  · rename_i same
    refine ⟨event, now, same.symm, ?_⟩
    have shown : ((store.withEvent env event).flags key).dismissed = false := same ▸ admits.shown
    rw [shown]
    exact (Option.some.inj found).symm
  · exact sound.rows key row found

theorem Sound.pruneUnpinned (ties : IterOrder EventKey) :
    (store.pruneUnpinned ties).Sound env inserted := by
  refine ⟨?_, ?_⟩
  · intro key
    rw [flags_pruneUnpinned]
    split
    · simp
    · exact sound.exclusive key
  · intro key row found
    rw [lookup_pruneUnpinned] at found
    rw [flags_pruneUnpinned]
    split at found
    · cases found
    · rename_i kept
      rw [if_neg kept]
      exact sound.rows key row found

theorem Sound.withPin (key : EventKey) (pinned : Bool) :
    (store.withPin key pinned).Sound env inserted := by
  refine ⟨?_, ?_⟩
  · intro other
    rw [flags_withPin]
    split
    · simp
    · exact sound.exclusive other
  · intro other row found
    rcases sound.rows other row found with ⟨event, was, keyed, same⟩
    refine ⟨event, was, keyed, ?_⟩
    rw [flags_withPin]
    split
    · rename_i shown
      rw [same, shown.1, shown.2]
    · exact same

variable {after : HistoryStore} {rows : List VisibleRow}

theorem Sound.cleared {within : EventKey → Prop} (cleared : store.Cleared after within) :
    after.Sound env inserted := by
  refine ⟨?_, ?_⟩
  · intro key
    by_cases range : key ∈ store.events ∧ within key ∧ (store.flags key).pinned = false
    · rw [cleared.dismissed key range.1 range.2.1 range.2.2]
      simp
    · rw [cleared.flags key range]
      exact sound.exclusive key
  · intro key row found
    by_cases scrubbed : within key ∧ after.flags key = ⟨false, true⟩
    · rw [cleared.scrubbed key scrubbed.1 scrubbed.2, Option.map_eq_some_iff] at found
      rcases found with ⟨old, found, rfl⟩
      rcases sound.rows key old found with ⟨event, was, keyed, rfl⟩
      refine ⟨event, was, keyed, ?_⟩
      rw [scrubbed.2, scrubbed_rowOf]
    · rw [cleared.rows key scrubbed] at found
      have kept : after.flags key = store.flags key := by
        apply cleared.flags
        rintro ⟨known, range, unpinned⟩
        exact scrubbed ⟨range, cleared.dismissed key known range unpinned⟩
      rw [kept]
      exact sound.rows key row found

theorem Sound.effect {call : Call} (effect : Effect env store call after)
    (now : ∀ ties event, call.merging = some (ties, event) → store.Admits event → inserted event) :
    after.Sound env inserted := by
  cases effect with
  | none => exact sound
  | insertion merging admits =>
    apply Sound.pruneUnpinned
    exact sound.insertEvent admits (now _ _ merging admits)
  | pin => exact sound.withPin _ _
  | clear _ cleared => exact sound.cleared cleared
  | clearThrough _ cleared => exact sound.cleared cleared.toCleared

def afterCalls (env : Environment) (calls : List Call) : HistoryStore :=
  (machine env fun _ _ => True).after new calls

omit sound in
theorem afterCalls_append (calls : List Call) (call : Call) :
    afterCalls env (calls ++ [call]) = (afterCalls env calls).perform env call := by
  simp [afterCalls, Machine.after, machine]

/-- One of the calls has inserted the event. -/
def InsertedBy (env : Environment) (calls : List Call) (event : ImportedHistoryEvent) : Prop :=
  ∃ before call rest, calls = before ++ call :: rest ∧ ∃ ties, call.merging = some (ties, event) ∧
    ∃ committed, (afterCalls env before).mergeImported env ties event = .ok (committed, .inserted)

omit sound in
theorem Sound.of_calls (env : Environment) (calls : List Call) :
    (afterCalls env calls).Sound env (InsertedBy env calls) := by
  induction calls using reverseRecOn with
  | nil => exact sound_new
  | append_singleton calls call ih =>
    have earlier : (afterCalls env calls).Sound env (InsertedBy env (calls ++ [call])) := by
      apply ih.mono
      rintro event ⟨before, other, rest, rfl, happened⟩
      exact ⟨before, other, rest ++ [call], by simp, happened⟩
    rw [afterCalls_append]
    apply earlier.effect (perform_effect env _ call)
    intro ties _ merging admits
    exact ⟨calls, call, [], rfl, ties, merging, _, admits.mergeImported ties⟩

omit sound in
theorem mem_visible {visible : VisibleRow} :
    visible ∈ store.visible ↔ store.events.lookup visible.key = some visible.row ∧
      store.flags visible.key = ⟨visible.pinned, false⟩ := by
  simp only [HistoryStore.visible, List.mem_filterMap]
  constructor
  · rintro ⟨⟨key, row⟩, member, shown⟩
    split at shown
    · cases shown
    · rename_i undismissed
      cases shown
      refine ⟨AList.mem_lookup_iff.mpr member, ?_⟩
      cases found : store.flags key with
      | mk =>
        rw [found] at undismissed
        simp only [Bool.not_eq_true] at undismissed
        rw [undismissed]
  · rintro ⟨found, flags⟩
    refine ⟨⟨visible.key, visible.row⟩, AList.mem_lookup_iff.mp found, ?_⟩
    simp [flags]

theorem Sound.decode (roundTrips : env.RoundTrips) {key : EventKey} {row : EventRow}
    (found : store.events.lookup key = some row) (shown : (store.flags key).dismissed = false)
    (pinned : Bool) :
    ∃ event, inserted event ∧ event.eventId.key = key ∧
      decodeRecord env key row pinned = .ok (event.record pinned) := by
  rcases sound.rows key row found with ⟨event, was, rfl, same⟩
  rw [shown] at same
  refine ⟨event, was, rfl, ?_⟩
  rw [same]
  exact decodeRecord_encodeEvent roundTrips event pinned

def Decodes (env : Environment) (rows : List VisibleRow) : Prop :=
  ∀ visible ∈ rows, ∃ record, decodeRecord env visible.key visible.row visible.pinned = .ok record

omit sound in
theorem exists_queryRecords (decodes : Decodes env rows) :
    ∃ records, queryRecords env rows = .ok records := by
  induction rows with
  | nil => exact ⟨[], rfl⟩
  | cons visible _ ih =>
    rcases decodes visible (.head _) with ⟨record, decoded⟩
    rcases ih fun other member => decodes other (.tail _ member) with ⟨records, queried⟩
    refine ⟨record :: records, ?_⟩
    rw [queryRecords] at queried ⊢
    simp [decoded, queried]

theorem Sound.decodes (roundTrips : env.RoundTrips) : Decodes env store.visible := by
  intro visible member
  rcases mem_visible.mp member with ⟨found, flags⟩
  have shown : (store.flags visible.key).dismissed = false := by rw [flags]
  rcases sound.decode roundTrips found shown visible.pinned with ⟨_, -, -, decoded⟩
  exact ⟨_, decoded⟩

omit sound in
theorem exists_queryWindow (decodes : Decodes env rows) (offset : UInt64) (limit : ℕ) :
    ∃ page, queryWindow env rows offset limit = .ok page := by
  have window : ∃ records, queryRecords env ((rows.drop (min offset.toNat i64Max)).take
      (max 1 (min limit 50) + 1)) = .ok records := by
    apply exists_queryRecords
    intro visible member
    exact decodes visible (mem_of_mem_drop (mem_of_mem_take member))
  rcases window with ⟨records, queried⟩
  simp only [queryWindow, queried]
  change ∃ page, (if records.length > max 1 (min limit 50) then Except.ok _ else Except.ok _) =
    Except.ok page
  split
  · exact ⟨_, rfl⟩
  · exact ⟨_, rfl⟩

/-- What holds of a store that `calls` have led to. That a search succeeds leaves out the patterns
`LIKE` refuses for their length. -/
structure RowInvariant (env : Environment) (calls : List Call) (store : HistoryStore) : Prop where
  exclusive : ∀ key, ¬((store.flags key).pinned = true ∧ (store.flags key).dismissed = true)
  scrubbed : ∀ key row, store.events.lookup key = some row → (store.flags key).dismissed = true →
    row.textPayload = none ∧ row.imagePayload = none ∧ row.mediaType = none ∧ row.filesJson = none
  decoded : ∀ key row, store.events.lookup key = some row → (store.flags key).dismissed = false →
    ∃ event, InsertedBy env calls event ∧ event.eventId.key = key ∧
      (decodeRecord env key row (store.flags key).pinned).map immutableEvent = .ok event
  list : ∃ records, store.list env = .ok records
  search : ∀ query, ∃ records, store.search env query = .ok records
  page : ∀ query offset limit, ∃ page, store.page env query offset limit = .ok page
  exportPage : ∀ offset limit, ∃ page, store.exportPage env offset limit = .ok page
  get : ∀ eventId, (∃ record, store.get env eventId = .ok record) ∨
    store.get env eventId = .error (.invalidPayload "origin sequence exceeds SQLite INTEGER")

omit sound in
theorem get_of_small {eventId : HistoryEventId} (small : eventId.originSequence.toNat ≤ i64Max) :
    store.get env eventId =
      match store.events.lookup eventId.key with
      | some row =>
        if (store.flags eventId.key).dismissed then .ok none
        else (decodeRecord env eventId.key row (store.flags eventId.key).pinned).map some
      | none => .ok none := by
  have sequence : sequenceToSql eventId.originSequence =
      .ok (eventId.originSequence.toNat : ℤ) := sequenceToSql_eq_ok.mpr ⟨small, rfl⟩
  simp only [HistoryStore.get, sequence]
  rfl

theorem Sound.get (roundTrips : env.RoundTrips) (eventId : HistoryEventId) :
    (∃ record, store.get env eventId = .ok record) ∨
      store.get env eventId =
        .error (.invalidPayload "origin sequence exceeds SQLite INTEGER") := by
  by_cases small : eventId.originSequence.toNat ≤ i64Max
  · left
    rw [get_of_small small]
    cases found : store.events.lookup eventId.key with
    | none => exact ⟨none, rfl⟩
    | some =>
      cases dismissed : (store.flags eventId.key).dismissed with
      | true => exact ⟨none, rfl⟩
      | false =>
        rcases sound.decode roundTrips found dismissed (store.flags eventId.key).pinned with
          ⟨event, -, -, decoded⟩
        exact ⟨some (event.record (store.flags eventId.key).pinned), by simp [decoded, Except.map]⟩
  · right
    simp [HistoryStore.get, sequenceToSql, small, bind, Except.bind]

omit sound

/-- Whatever calls were made, rows and flags agree and every query succeeds. -/
theorem rowInvariant_of_calls (roundTrips : env.RoundTrips) (calls : List Call) :
    RowInvariant env calls (afterCalls env calls) := by
  have sound := Sound.of_calls env calls
  have decodes := sound.decodes roundTrips
  have listed : Decodes env (afterCalls env calls).listRows :=
    fun visible member => decodes visible ((List.mem_insertionSort _).mp member)
  have searched : ∀ pattern, Decodes env ((afterCalls env calls).searchRows env pattern) := by
    intro _ visible member
    have found := (List.mem_insertionSort _).mp member
    exact decodes visible (List.mem_filter.mp found).1
  refine
    { exclusive := sound.exclusive, scrubbed := ?_, decoded := ?_,
      list := exists_queryRecords listed, search := ?_, page := ?_, exportPage := ?_,
      get := sound.get roundTrips }
  · intro key row found dismissed
    rcases sound.rows key row found with ⟨event, -, -, rfl⟩
    simp [rowOf, dismissed, EventRow.scrubbed]
  · intro key _ found shown
    rcases sound.decode roundTrips found shown ((afterCalls env calls).flags key).pinned with
      ⟨event, was, keyed, decoded⟩
    exact ⟨event, was, keyed, by rw [decoded]; rfl⟩
  · intro query
    simp only [HistoryStore.search]
    split
    · exact exists_queryRecords listed
    · exact exists_queryRecords (searched _)
  · intro _ offset limit
    simp only [HistoryStore.page]
    split
    · exact exists_queryWindow listed offset limit
    · exact exists_queryWindow (searched _) offset limit
  · intro offset limit
    have exported : Decodes env (afterCalls env calls).exportRows :=
      fun visible member => decodes visible ((List.mem_insertionSort _).mp member)
    rcases exists_queryWindow exported offset limit with ⟨_, queried⟩
    exact ⟨_, by rw [HistoryStore.exportPage, queried]; rfl⟩

def fileNumbers (file : FileMetadata) : List ℕ × ℕ × Option (List ℕ) :=
  (file.name.toList.map (·.toNat), file.sizeBytes.toNat,
    file.mediaType.map fun mediaType => mediaType.toList.map (·.toNat))

def fileOfNumbers (numbers : List ℕ × ℕ × Option (List ℕ)) : FileMetadata where
  name := String.ofList (numbers.1.map Char.ofNat)
  sizeBytes := UInt64.ofNat numbers.2.1
  mediaType := numbers.2.2.map fun mediaType => String.ofList (mediaType.map Char.ofNat)

def unaryEnvironment : Environment where
  filesToJson files :=
    String.ofList (List.replicate (Encodable.encode (files.map fileNumbers)) '1')
  filesFromJson json :=
    match (Encodable.decode json.toList.length : Option (List (List ℕ × ℕ × Option (List ℕ)))) with
    | some numbers => .ok (numbers.map fileOfNumbers)
    | none => .error "not a list of files"
  boundaryToJson boundary :=
    "\x7b" ++ ",".intercalate (boundary.toList.map fun entry => s!"\"{entry.1}\":{entry.2}") ++
      "\x7d"
  like _ _ := true

theorem fileOfNumbers_fileNumbers (file : FileMetadata) :
    fileOfNumbers (fileNumbers file) = file := by
  have characters : ∀ text : String,
      String.ofList ((text.toList.map (·.toNat)).map Char.ofNat) = text := by
    intro _
    simp [map_map, Function.comp_def]
  rcases file with ⟨_, _, mediaType⟩
  cases mediaType with
  | none => simp only [fileOfNumbers, fileNumbers, characters, Option.map_none, UInt64.ofNat_toNat]
  | some =>
    simp only [fileOfNumbers, fileNumbers, characters, Option.map_some, UInt64.ofNat_toNat]

theorem unaryEnvironment_roundTrips : unaryEnvironment.RoundTrips := by
  intro files
  have restored : (files.map fileNumbers).map fileOfNumbers = files := by
    simp [map_map, Function.comp_def, fileOfNumbers_fileNumbers]
  simp only [unaryEnvironment, String.toList_ofList, length_replicate, Encodable.encodek, restored]

def textEvent (device : String) (sequence : UInt64) (createdAtMs : ℤ) : ImportedHistoryEvent :=
  ⟨⟨device, sequence⟩, createdAtMs, none, .text "abc"⟩

def pinAndClear : List Call :=
  [.mergeImported (.asStored _) (textEvent "a" 1 5),
    .mergeImported (.asStored _) (textEvent "b" 1 6), .setPinned ⟨"a", 1⟩ true, .clearUnpinned,
    .mergeImported (.asStored _) (textEvent "b" 2 7)]

theorem rowInvariant_of_pinAndClear :
    RowInvariant unaryEnvironment pinAndClear (afterCalls unaryEnvironment pinAndClear) ∧
      ((afterCalls unaryEnvironment pinAndClear).list unaryEnvironment).toOption.map
        (·.map (·.eventId)) = some [⟨"a", 1⟩, ⟨"b", 2⟩] :=
  ⟨rowInvariant_of_calls unaryEnvironment_roundTrips pinAndClear, by decide +kernel⟩

end HistoryStore

end Syntra.Store
