import Syntra.Store.Pruning

/-!
# Cleared events

A dismissed event leaves a mark in the table that pruning deletes from. This module says which
marks must survive the pruning for cleared events to stay away, and shows a run in which one of
them does not.
-/

namespace Syntra.Store

open ByteFormat Tables StateMachine List

namespace HistoryStore

variable {env : Environment} {store : HistoryStore}

/-- An event that the store will not take back: it is marked as dismissed, or it is gone and a
boundary covers it. -/
def Buried (store : HistoryStore) (key : EventKey) : Prop :=
  (store.flags key).dismissed = true ∨
    store.events.lookup key = none ∧ store.coveredByClear key = true

/-- A call prunes no mark that a boundary does not stand in for. -/
def KeepsMarks (env : Environment) (store : HistoryStore) (call : Call) : Prop :=
  ∀ ties event, call.merging = some (ties, event) → store.Admits event →
    ∀ key ∈ (store.withEvent env event).prunable ties, (store.flags key).dismissed = true →
      store.coveredByClear key = true

variable {key : EventKey} {after : HistoryStore} {record : HistoryRecord} {eventId : HistoryEventId}

theorem Buried.cleared (buried : store.Buried key) {within : EventKey → Prop}
    (cleared : store.Cleared after within)
    (covers : store.coveredByClear key = true → after.coveredByClear key = true) :
    after.Buried key := by
  rcases buried with dismissed | ⟨absent, covered⟩
  · left
    by_cases range : key ∈ store.events ∧ within key ∧ (store.flags key).pinned = false
    · rw [cleared.dismissed key range.1 range.2.1 range.2.2]
    · rw [cleared.flags key range]
      exact dismissed
  · refine .inr ⟨?_, covers covered⟩
    rw [AList.lookup_eq_none, cleared.mem, ← AList.lookup_eq_none]
    exact absent

theorem Buried.effect (buried : store.Buried key) (referenced : store.Referenced) {call : Call}
    (effect : Effect env store call after) (keeps : KeepsMarks env store call) :
    after.Buried key := by
  have covers : store.coveredByClear key = true → after.coveredByClear key = true :=
    referenced.covered effect
  cases effect with
  | none => exact buried
  | @insertion ties event merging admits =>
    have other : key ≠ event.eventId.key := by
      rintro rfl
      rcases buried with dismissed | ⟨-, covered⟩
      · exact absurd dismissed (by simp [admits.shown])
      · exact absurd covered (by simp [admits.uncovered])
    by_cases gone : key ∈ (store.withEvent env event).prunable ties
    · refine .inr ⟨by rw [lookup_pruneUnpinned, if_pos gone], covers ?_⟩
      rcases buried with dismissed | ⟨-, covered⟩
      · exact keeps ties event merging admits key gone dismissed
      · exact covered
    · rcases buried with dismissed | ⟨absent, covered⟩
      · left
        rw [flags_pruneUnpinned, if_neg gone]
        exact dismissed
      · refine .inr ⟨?_, covers covered⟩
        rw [lookup_pruneUnpinned, if_neg gone]
        apply (lookup_insert store.events _ key _).trans
        rw [if_neg other]
        exact absent
  | pin =>
    rcases buried with dismissed | absent
    · left
      rw [flags_withPin, if_neg]
      · exact dismissed
      · rintro ⟨rfl, shown⟩
        exact absurd dismissed (by simp [shown])
    · exact .inr absent
  | clear _ cleared => exact buried.cleared cleared covers
  | clearThrough _ cleared => exact buried.cleared cleared.toCleared covers

/-- No query shows the event. -/
structure Unseen (env : Environment) (store : HistoryStore) (eventId : HistoryEventId) : Prop where
  get : ∀ record, store.get env eventId ≠ .ok (some record)
  list : ∀ records, store.list env = .ok records → ∀ record ∈ records, record.eventId ≠ eventId
  page : ∀ query offset limit page, store.page env query offset limit = .ok page →
    ∀ record ∈ page.1, record.eventId ≠ eventId
  search : ∀ query records, store.search env query = .ok records →
    ∀ record ∈ records, record.eventId ≠ eventId

theorem mem_queryRecords {rows : List VisibleRow} {records : List HistoryRecord}
    (queried : queryRecords env rows = .ok records) (member : record ∈ records) :
    ∃ visible ∈ rows, decodeRecord env visible.key visible.row visible.pinned = .ok record := by
  induction rows generalizing records with
  | nil =>
    cases queried
    cases member
  | cons visible _ ih =>
    simp only [queryRecords, mapM_cons, bind_ok, pure_ok] at queried
    rcases queried with ⟨_, decoded, _, queried, rfl⟩
    rcases mem_cons.mp member with rfl | later
    · exact ⟨visible, .head _, decoded⟩
    · rcases ih queried later with ⟨other, found, decoded⟩
      exact ⟨other, .tail _ found, decoded⟩

theorem eventId_of_decodeRecord {row : EventRow} {pinned : Bool}
    (decoded : decodeRecord env eventId.key row pinned = .ok record) :
    record.eventId = eventId := by
  simp only [decodeRecord, bind_ok, guard_bind_ok, pure_ok] at decoded
  rcases decoded with ⟨_, -, _, -, -, rfl⟩
  simp [HistoryEventId.key]

theorem Sound.unseen {inserted : ImportedHistoryEvent → Prop} (sound : store.Sound env inserted)
    (buried : store.Buried eventId.key) : store.Unseen env eventId := by
  have hidden : ∀ rows : List VisibleRow, (∀ visible ∈ rows, visible ∈ store.visible) →
      ∀ records, queryRecords env rows = .ok records →
        ∀ record ∈ records, record.eventId ≠ eventId := by
    rintro rows shown records queried record member rfl
    rcases mem_queryRecords queried member with ⟨visible, found, decoded⟩
    rcases mem_visible.mp (shown visible found) with ⟨row, flags⟩
    rcases sound.rows _ _ row with ⟨_, -, keyed, -⟩
    rw [← keyed] at decoded row flags
    rw [eventId_of_decodeRecord decoded] at buried
    rcases buried with dismissed | ⟨absent, -⟩
    · rw [flags] at dismissed
      cases dismissed
    · rw [row] at absent
      cases absent
  have window : ∀ rows : List VisibleRow, (∀ visible ∈ rows, visible ∈ store.visible) →
      ∀ offset limit page, queryWindow env rows offset limit = .ok page →
        ∀ record ∈ page.1, record.eventId ≠ eventId := by
    intro _ shown offset limit page queried record member
    simp only [queryWindow, bind_ok] at queried
    rcases queried with ⟨records, queried, paged⟩
    apply hidden _ _ records queried record
    · split at paged
      · rw [← pure_ok.mp paged] at member
        exact mem_of_mem_take member
      · rw [← pure_ok.mp paged] at member
        exact member
    · intro visible found
      exact shown visible (mem_of_mem_drop (mem_of_mem_take found))
  have listed : ∀ visible ∈ store.listRows, visible ∈ store.visible :=
    fun visible member => (mem_insertionSort _).mp member
  have searched : ∀ pattern, ∀ visible ∈ store.searchRows env pattern, visible ∈ store.visible :=
    fun _ _ member => (mem_filter.mp ((mem_insertionSort _).mp member)).1
  refine ⟨?_, hidden _ listed, ?_, ?_⟩
  · intro _ got
    by_cases small : eventId.originSequence.toNat ≤ i64Max
    · rw [get_of_small small] at got
      rcases buried with dismissed | ⟨absent, -⟩
      · cases found : store.events.lookup eventId.key <;> simp [found, dismissed] at got
      · simp [absent] at got
    · simp [HistoryStore.get, sequenceToSql, small, bind, Except.bind] at got
  · intro query offset limit page queried
    simp only [HistoryStore.page] at queried
    split at queried
    · exact window _ listed offset limit page queried
    · exact window _ (searched _) offset limit page queried
  · intro _ records queried
    simp only [HistoryStore.search] at queried
    split at queried
    · exact hidden _ listed records queried
    · exact hidden _ (searched _) records queried

/-- In a run that prunes no mark without a boundary, an event that a clear has dismissed is never
seen again. -/
theorem unseen_after_clear {before rest : List Call}
    (follows : (machine env (KeepsMarks env)).Follows new (before ++ rest))
    {eventId : HistoryEventId}
    (dismissed : ((afterCalls env before).flags eventId.key).dismissed = true) :
    (afterCalls env (before ++ rest)).Unseen env eventId := by
  have keeps : ∀ store call, store.Referenced ∧ store.Buried eventId.key →
      KeepsMarks env store call →
        (store.perform env call).Referenced ∧ (store.perform env call).Buried eventId.key := by
    rintro store call ⟨referenced, buried⟩ permitted
    have effect := perform_effect env store call
    exact ⟨referenced.effect effect, buried.effect referenced effect permitted⟩
  have referenced : (afterCalls env before).Referenced :=
    (Machine.follows_append.mp follows).1.keeps
      (fun store call referenced _ => referenced.effect (perform_effect env store call))
      referenced_new
  have later := (Machine.follows_append.mp follows).2.keeps keeps ⟨referenced, .inl dismissed⟩
  apply (Sound.of_calls env (before ++ rest)).unseen
  rw [afterCalls, Machine.after_append]
  exact later.2

namespace Filled

variable {count : ℕ}

theorem returns (filled : store.Filled none maxUnpinnedRecords) (roundTrips : env.RoundTrips) :
    ∃ eventId record, ((store.perform env (.setPinned eventId true)).perform env mergeOld).get env
      ⟨"a", 1⟩ = .ok (some record) := by
  have full : ∃ count, maxUnpinnedRecords = count + 1 := ⟨999, rfl⟩
  rcases full with ⟨count, full⟩
  rw [full] at filled
  have small : count < maxUnpinnedRecords := by omega
  refine ⟨(filler count).eventId, (textEvent "a" 1 0).record false, ?_⟩
  rw [filled.setPinned_filler small]
  have flags : ∀ key, (store.withPin (filler count).eventId.key true).flags key =
      if key = (filler count).eventId.key then ⟨true, false⟩ else ⟨false, false⟩ := by
    intro key
    have shown : ∀ other, store.flags other = ⟨false, false⟩ := by
      intro other
      rw [filled.flags]
      split <;> rfl
    rw [flags_withPin, shown, shown]
    simp
  have other : oldKey ≠ (filler count).eventId.key := by
    rw [key_filler small]
    simp [oldKey]
  have admits : (store.withPin (filler count).eventId.key true).Admits (textEvent "a" 1 0) := by
    refine ⟨by decide, ?_, filled.admits_old.fresh, filled.uncovered _⟩
    rw [flags]
    split <;> rfl
  have few : ((store.withPin (filler count).eventId.key true).withEvent env
      (textEvent "a" 1 0)).unpinned.length ≤ maxUnpinnedRecords := by
    have within : ∀ key ∈ ((store.withPin (filler count).eventId.key true).withEvent env
        (textEvent "a" 1 0)).unpinned, key ∈ oldKey :: fillerKeys count := by
      intro key member
      rcases List.mem_filter.mp member with ⟨known, unpinned⟩
      rw [← AList.mem_keys, mem_withEvent] at known
      rcases known with rfl | known
      · exact .head _
      · have listed := (filled.mem key).mp known
        have free : (store.withPin (filler count).eventId.key true).flags key ≠ ⟨true, false⟩ := by
          intro pinned
          simp only [HistoryStore.flags] at pinned unpinned
          simp [insertEvent, pinned] at unpinned
        rw [fillerKeys_succ] at listed
        rw [flags, key_filler small] at free
        grind
    have length := (((store.withPin (filler count).eventId.key true).withEvent env
      (textEvent "a" 1 0)).nodup_unpinned.subperm within).length_le
    rw [List.length_cons, length_fillerKeys] at length
    omega
  rw [mergeOld, perform, admits.mergeImported, settle, get_of_small (by decide)]
  have row : (((store.withPin (filler count).eventId.key true).withEvent env
      (textEvent "a" 1 0)).pruneUnpinned (.asStored _)).events.lookup oldKey =
        some (encodeEvent env (textEvent "a" 1 0)) := by
    rw [(pruneUnpinned_of_few few oldKey).1]
    exact AList.lookup_insert _
  have shown : (((store.withPin (filler count).eventId.key true).withEvent env
      (textEvent "a" 1 0)).pruneUnpinned (.asStored _)).flags oldKey = ⟨false, false⟩ := by
    rw [(pruneUnpinned_of_few few oldKey).2]
    apply (flags oldKey).trans
    rw [if_neg other]
  have keyed : (⟨"a", 1⟩ : HistoryEventId).key = oldKey := rfl
  rw [keyed, row, shown]
  have decoded : decodeRecord env oldKey (encodeEvent env (textEvent "a" 1 0)) false =
      .ok ((textEvent "a" 1 0).record false) := decodeRecord_encodeEvent roundTrips _ false
  simp [decoded, Except.map]

end Filled

/-- An event that was cleared and then pruned comes back with its next merge. -/
theorem cleared_event_returns :
    ∃ before rest eventId,
      ((afterCalls unaryEnvironment before).flags eventId.key).dismissed = true ∧
        ¬(afterCalls unaryEnvironment (before ++ rest)).Unseen unaryEnvironment eventId := by
  have stepped : ((new.perform unaryEnvironment mergeOld).perform unaryEnvironment
      .clearUnpinned).Filled (some true) 0 := Filled.mergeOld_new.clear
  have cleared : (afterCalls unaryEnvironment [mergeOld, .clearUnpinned]).Filled (some true) 0 :=
    stepped
  rcases cleared.fillers_overflow.returns unaryEnvironment_roundTrips with ⟨pinned, record, got⟩
  refine ⟨[mergeOld, .clearUnpinned],
    fillers maxUnpinnedRecords ++ [.setPinned pinned true, mergeOld], ⟨"a", 1⟩, ?_, ?_⟩
  · have keyed : (⟨"a", 1⟩ : HistoryEventId).key = oldKey := rfl
    rfl
  · intro unseen
    apply unseen.get record
    rw [afterCalls, Machine.after_append, Machine.after_append]
    exact got

theorem unseen_after_clear_old :
    ((afterCalls unaryEnvironment [mergeOld, .clearUnpinned]).flags oldKey).dismissed = true ∧
      (afterCalls unaryEnvironment ([mergeOld, .clearUnpinned] ++ [mergeOld])).Unseen
        unaryEnvironment ⟨"a", 1⟩ := by
  have dismissed : ((afterCalls unaryEnvironment [mergeOld, .clearUnpinned]).flags
      oldKey).dismissed = true := by decide +kernel
  have keyed : (⟨"a", 1⟩ : HistoryEventId).key = oldKey := rfl
  refine ⟨dismissed, unseen_after_clear ?_ (keyed ▸ dismissed)⟩
  refine ⟨?_, ?_, ?_, trivial⟩
  · intro ties event merging _ _ gone
    rw [not_prunable_of_filled Filled.empty rfl merging] at gone
    cases gone
  · intro ties event merging
    cases merging
  · intro _ _ merging admits
    cases merging
    have shown : ((afterCalls unaryEnvironment [mergeOld, .clearUnpinned]).flags
        oldKey).dismissed = false := admits.shown
    cases shown

end HistoryStore

end Syntra.Store
