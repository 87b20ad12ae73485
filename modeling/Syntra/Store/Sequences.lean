import Syntra.Store.Pruning

/-!
# Sequence numbers

The number of the next event comes from the rows and boundaries that are there. This module says
which rows must survive the pruning for numbers not to be given out twice, and shows a run in which
one of them does not.
-/

namespace Syntra.Store

open ByteFormat Tables StateMachine List

namespace HistoryStore

variable {env : Environment} {store : HistoryStore}

/-- A row or a boundary of the device of an event has its sequence or a later one. -/
def Counted (store : HistoryStore) (key : EventKey) : Prop :=
  (∃ sequence, (key.1, sequence) ∈ store.events ∧ key.2 ≤ sequence) ∨
    store.coveredByClear key = true

/-- A call prunes no row whose sequence neither a row that is left nor a boundary reaches. -/
def KeepsMaximum (env : Environment) (store : HistoryStore) (call : Call) : Prop :=
  ∀ ties event, call.merging = some (ties, event) → store.Admits event →
    ∀ key ∈ (store.withEvent env event).prunable ties,
      ((store.withEvent env event).pruneUnpinned ties).Counted key

variable {key : EventKey} {call : Call} {after : HistoryStore}

theorem Counted.effect (counted : store.Counted key) (referenced : store.Referenced)
    (effect : Effect env store call after) (keeps : KeepsMaximum env store call) :
    after.Counted key := by
  rcases counted with ⟨sequence, known, below⟩ | covered
  · cases effect with
    | none => exact .inl ⟨sequence, known, below⟩
    | @insertion ties event merging admits =>
      by_cases gone : (key.1, sequence) ∈ (store.withEvent env event).prunable ties
      · rcases keeps ties event merging admits _ gone with ⟨later, left, above⟩ | covered
        · exact .inl ⟨later, left, below.trans above⟩
        · right
          rcases coveredByClear_iff.mp covered with ⟨operationId, maximum, found, above⟩
          exact coveredByClear_iff.mpr ⟨operationId, maximum, found, below.trans above⟩
      · have left := mem_pruneUnpinned.mpr ⟨mem_withEvent.mpr (.inr known), gone⟩
        exact .inl ⟨sequence, left, below⟩
    | pin => exact .inl ⟨sequence, known, below⟩
    | clear _ cleared
    | clearThrough _ cleared => exact .inl ⟨sequence, (cleared.mem _).mpr known, below⟩
  · exact .inr (referenced.covered effect covered)

theorem counted_of_mergeImported {ties : IterOrder EventKey} {event : ImportedHistoryEvent}
    (merging : call.merging = some (ties, event)) (referenced : store.Referenced)
    (keeps : KeepsMaximum env store call) {outcome : MergeOutcome}
    (merged : store.mergeImported env ties event = .ok (after, outcome)) :
    after.Counted event.eventId.key := by
  rcases mergeImported_eq_ok merged with ⟨rfl, suppressed⟩ | ⟨admits, -, rfl⟩
  · by_cases known : event.eventId.key ∈ after.events
    · exact .inl ⟨_, known, le_refl _⟩
    · right
      by_contra uncovered
      -- neither known nor covered, the event would have been inserted
      have admits : after.Admits event := by
        refine ⟨?_, ?_, AList.lookup_eq_none.mpr known, by simpa using uncovered⟩
        · simp only [HistoryStore.mergeImported, bind_ok] at merged
          rcases merged with ⟨_, valid, -⟩
          exact valid
        · rw [referenced.events _ known]
      rw [admits.mergeImported ties, Except.ok.injEq, Prod.mk.injEq] at merged
      exact suppressed merged.2.symm
  · by_cases gone : event.eventId.key ∈ (store.withEvent env event).prunable ties
    · exact keeps ties event merging admits _ gone
    · left
      refine ⟨_, mem_pruneUnpinned.mpr ⟨mem_withEvent.mpr (.inl rfl), gone⟩, le_refl _⟩

theorem le_max?_of_mem {values : List ℤ} {value : ℤ} (member : value ∈ values) :
    ∃ maximum, values.max? = some maximum ∧ value ≤ maximum := by
  cases found : values.max? with
  | none =>
    rw [max?_eq_none_iff.mp found] at member
    cases member
  | some maximum => exact ⟨maximum, rfl, (max?_eq_some_iff.mp found).2 value member⟩

/-- The numbers that `next_sequence` takes the maximum of. -/
def lastSequences (store : HistoryStore) (device : String) : List ℤ :=
  (store.maxSequence device).toList ++ (store.maxBoundary device).toList

theorem Counted.reached (counted : store.Counted key) :
    ∃ largest ∈ store.lastSequences key.1, key.2 ≤ largest := by
  rcases counted with ⟨sequence, known, below⟩ | covered
  · have member : sequence ∈ (store.events.keys.filter fun other =>
        other.1 = key.1).map (·.2) := by
      refine mem_map.mpr ⟨(key.1, sequence), ?_, rfl⟩
      exact mem_filter.mpr ⟨AList.mem_keys.mp known, by simp⟩
    rcases le_max?_of_mem member with ⟨largest, found, above⟩
    exact ⟨largest, by simp [lastSequences, maxSequence, found], below.trans above⟩
  · rcases coveredByClear_iff.mp covered with ⟨operationId, bound, found, below⟩
    have member : bound ∈ (store.clearBoundaries.entries.filter fun entry =>
        entry.1.2 = key.1).map (·.2) := by
      refine mem_map.mpr ⟨⟨(operationId, key.1), bound⟩, ?_, rfl⟩
      exact mem_filter.mpr ⟨AList.mem_lookup_iff.mp found, by simp⟩
    rcases le_max?_of_mem member with ⟨largest, found, above⟩
    exact ⟨largest, by simp [lastSequences, maxBoundary, found], below.trans above⟩

theorem Counted.nextSequence {eventId : HistoryEventId} (counted : store.Counted eventId.key)
    (valid : validateString "origin device id" eventId.originDeviceId maxDeviceIdBytes = .ok ()) :
    (∃ next, store.nextSequence eventId.originDeviceId = .ok next ∧ eventId.originSequence < next) ∨
      store.nextSequence eventId.originDeviceId =
        .error (.invalidPayload "origin sequence exhausted SQLite INTEGER") := by
  rcases counted.reached with ⟨_, listed, below⟩
  rcases le_max?_of_mem listed with ⟨maximum, found, higher⟩
  have above : (eventId.originSequence.toNat : ℤ) ≤ maximum := below.trans higher
  change ((store.maxSequence eventId.originDeviceId).toList ++
    (store.maxBoundary eventId.originDeviceId).toList).max? = some maximum at found
  by_cases exhausted : maximum + 1 > i64Max
  · right
    simp [HistoryStore.nextSequence, valid, found, exhausted, bind, Except.bind, throw, throwThe,
      MonadExceptOf.throw]
  · left
    refine ⟨UInt64.ofNat (maximum + 1).toNat, ?_, ?_⟩
    · have natural : ¬(maximum + 1 < 0) := by omega
      simp [HistoryStore.nextSequence, valid, found, exhausted, natural, bind, Except.bind, pure,
        Except.pure]
    · have bound : (maximum + 1).toNat < 2 ^ 64 := by
        have limit : (i64Max : ℤ) < 2 ^ 64 := by decide
        omega
      rw [UInt64.lt_iff_toNat_lt, UInt64.toNat_ofNat', Nat.mod_eq_of_lt bound]
      omega

/-- One of the calls has merged the event, whatever came of it. -/
def MergedBy (env : Environment) (calls : List Call) (event : ImportedHistoryEvent) : Prop :=
  ∃ before call rest, calls = before ++ call :: rest ∧ ∃ ties, call.merging = some (ties, event) ∧
    ∃ result, (afterCalls env before).mergeImported env ties event = .ok result

/-- In a run that prunes no maximum, the next number of a device is past every event merged. -/
theorem nextSequence_after_merge {calls : List Call}
    (follows : (machine env (KeepsMaximum env)).Follows new calls) {event : ImportedHistoryEvent}
    (merged : MergedBy env calls event) :
    (∃ next, (afterCalls env calls).nextSequence event.eventId.originDeviceId = .ok next ∧
        event.eventId.originSequence < next) ∨
      (afterCalls env calls).nextSequence event.eventId.originDeviceId =
        .error (.invalidPayload "origin sequence exhausted SQLite INTEGER") := by
  rcases merged with ⟨before, call, _, rfl, _, merging, ⟨after, _⟩, merged⟩
  rcases Machine.follows_append.mp follows with ⟨earlier, permitted, later⟩
  have referenced : (afterCalls env before).Referenced :=
    earlier.keeps (fun store call referenced _ => referenced.effect (perform_effect env store call))
      referenced_new
  have performed : (afterCalls env before).perform env call = after := by
    rw [perform_of_merging merging, merged, settle]
  have counted : ((afterCalls env before).perform env call).Counted event.eventId.key := by
    rw [performed]
    exact counted_of_mergeImported merging referenced permitted merged
  have keeps : ∀ store call, store.Referenced ∧ store.Counted event.eventId.key →
      KeepsMaximum env store call →
        (store.perform env call).Referenced ∧
          (store.perform env call).Counted event.eventId.key := by
    rintro store call ⟨referenced, counted⟩ permitted
    have effect := perform_effect env store call
    exact ⟨referenced.effect effect, counted.effect referenced effect permitted⟩
  have kept := later.keeps keeps ⟨referenced.effect (perform_effect env _ call), counted⟩
  have valid : validateString "origin device id" event.eventId.originDeviceId maxDeviceIdBytes =
      .ok () := by
    simp only [HistoryStore.mergeImported, validateEvent, bind_ok] at merged
    rcases merged with ⟨_, ⟨_, valid, -⟩, -⟩
    exact valid
  apply Counted.nextSequence _ valid
  rw [afterCalls, Machine.after_append]
  exact kept.2

theorem nextSequence_of_fillers {count : ℕ}
    (rows : ∀ key ∈ store.events, key ∈ fillerKeys count) (unbounded : store.clearBoundaries = ∅) :
    store.nextSequence "a" = .ok 1 := by
  have others : store.events.keys.filter (fun key => key.1 = "a") = [] := by
    apply filter_eq_nil_iff.mpr
    intro key member
    have listed := rows key (AList.mem_keys.mpr member)
    simp only [fillerKeys, mem_map] at listed
    rcases listed with ⟨_, -, rfl⟩
    simp
  have events : store.maxSequence "a" = none := by
    rw [maxSequence, others]
    rfl
  have boundaries : store.maxBoundary "a" = none := by
    rw [maxBoundary, unbounded]
    rfl
  have device : validateString "origin device id" "a" maxDeviceIdBytes = .ok () := by decide
  simp only [nextSequence, bind_ok, guard_bind_ok, pure_ok, events, boundaries]
  exact ⟨(), device, by decide, by decide, rfl⟩

/-- The number of an event that has been pruned is given out again. -/
theorem nextSequence_rewinds :
    ∃ calls event, MergedBy unaryEnvironment calls event ∧ ∃ next,
      (afterCalls unaryEnvironment calls).nextSequence event.eventId.originDeviceId = .ok next ∧
        ¬event.eventId.originSequence < next := by
  have filled : (afterCalls unaryEnvironment ([mergeOld] ++ fillers maxUnpinnedRecords)).Filled none
      maxUnpinnedRecords := by
    rw [afterCalls, Machine.after_append]
    exact Filled.mergeOld_new.fillers_overflow
  have rows : ∀ key ∈ (afterCalls unaryEnvironment ([mergeOld] ++
      fillers maxUnpinnedRecords)).events, key ∈ fillerKeys maxUnpinnedRecords := by
    exact fun key => (filled.mem_fillers key).mp
  refine ⟨_, textEvent "a" 1 0, ?_, 1, nextSequence_of_fillers rows filled.boundaries, by decide⟩
  refine ⟨[], mergeOld, fillers maxUnpinnedRecords, ?_, .asStored _, rfl, _,
    Filled.empty.admits_old.mergeImported _⟩
  rw [List.nil_append, List.singleton_append]

theorem nextSequence_after_merge_old :
    (afterCalls unaryEnvironment [mergeOld]).nextSequence "a" = .ok 2 ∧
      ((∃ next, (afterCalls unaryEnvironment [mergeOld]).nextSequence "a" = .ok next ∧ 1 < next) ∨
        (afterCalls unaryEnvironment [mergeOld]).nextSequence "a" =
          .error (.invalidPayload "origin sequence exhausted SQLite INTEGER")) := by
  have merged : MergedBy unaryEnvironment [mergeOld] (textEvent "a" 1 0) :=
    ⟨[], mergeOld, [], rfl, .asStored _, rfl, _, Filled.empty.admits_old.mergeImported _⟩
  refine ⟨by decide +kernel, nextSequence_after_merge ?_ merged⟩
  refine ⟨?_, trivial⟩
  intro _ _ merging _ _ gone
  rw [not_prunable_of_filled Filled.empty rfl merging] at gone
  cases gone

end HistoryStore

end Syntra.Store
