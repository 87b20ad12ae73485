import Syntra.Store.Convergence
import Syntra.Tables.Ranking

/-!
# What the outcome of a merge says

`merge_imported` inserts an event and prunes in one transaction, and it does not look whether the
event is among the rows that it prunes. Its outcome is honest in every order of equally recent rows
if and only if fewer rows than are kept are as recent as a new event.
-/

namespace Syntra.Store

open ByteFormat Tables StateMachine List

namespace HistoryStore

variable {env : Environment} {store : HistoryStore} {event : ImportedHistoryEvent}

/-- `get` gives the event back. -/
def Shows (env : Environment) (store : HistoryStore) (event : ImportedHistoryEvent) : Prop :=
  ∃ record, store.get env event.eventId = .ok (some record) ∧ immutableEvent record = event

/-- The outcome says what has become of the event. -/
structure Honest (env : Environment) (store : HistoryStore) (ties : IterOrder EventKey)
    (event : ImportedHistoryEvent) : Prop where
  inserted : (∃ after, store.mergeImported env ties event = .ok (after, .inserted)) ↔
    store.get env event.eventId = .ok none ∧
      (store.perform env (.mergeImported ties event)).Shows env event
  alreadyPresent : ∀ after, store.mergeImported env ties event = .ok (after, .alreadyPresent) →
    after.Shows env event
  suppressed : ∀ after, store.mergeImported env ties event = .ok (after, .suppressed) →
    (store.flags event.eventId.key).dismissed = true ∨ store.coveredByClear event.eventId.key = true

variable {ties : IterOrder EventKey} {after : HistoryStore}

theorem not_inserted {outcome : MergeOutcome}
    (merged : store.mergeImported env ties event = .ok (after, outcome))
    (other : outcome ≠ .inserted) :
    (outcome = .alreadyPresent ∧ after.Shows env event) ∨
      (outcome = .suppressed ∧ ((store.flags event.eventId.key).dismissed = true ∨
        store.coveredByClear event.eventId.key = true)) := by
  simp only [mergeImported, bind_ok, sequenceToSql_eq_ok] at merged
  rcases merged with ⟨_, _, _, ⟨small, rfl⟩, merged⟩
  have keyed : (event.eventId.originDeviceId, (event.eventId.originSequence.toNat : ℤ)) =
      event.eventId.key := rfl
  rw [keyed] at merged
  split at merged
  · rename_i dismissed
    simp only [pure_ok, Prod.mk.injEq] at merged
    exact .inr ⟨merged.2.symm, .inl dismissed⟩
  · rename_i shown
    cases found : store.events.lookup event.eventId.key with
    | some =>
      simp only [found, bind_ok, guard_bind_ok, pure_ok, Prod.mk.injEq] at merged
      rcases merged with ⟨existing, decoded, same, rfl, rfl⟩
      refine .inl ⟨rfl, existing, ?_, not_not.mp same⟩
      rw [get_of_small small]
      simp [found, shown, decoded, Except.map]
    | none =>
      simp only [found] at merged
      split at merged
      · rename_i covered
        simp only [pure_ok, Prod.mk.injEq] at merged
        exact .inr ⟨merged.2.symm, .inr covered⟩
      · simp only [pure_ok, Prod.mk.injEq] at merged
        exact absurd merged.2.symm other

theorem shows_of_alreadyPresent
    (merged : store.mergeImported env ties event = .ok (after, .alreadyPresent)) :
    after.Shows env event := by
  rcases not_inserted merged MergeOutcome.noConfusion with ⟨-, there⟩ | ⟨other, -⟩
  · exact there
  · cases other

theorem hidden_of_suppressed
    (merged : store.mergeImported env ties event = .ok (after, .suppressed)) :
    (store.flags event.eventId.key).dismissed = true ∨
      store.coveredByClear event.eventId.key = true := by
  rcases not_inserted merged MergeOutcome.noConfusion with ⟨other, -⟩ | ⟨-, hidden⟩
  · cases other
  · exact hidden

theorem honest_of_not_admits (refused : ¬store.Admits event) (ties : IterOrder EventKey) :
    store.Honest env ties event := by
  refine ⟨?_, fun _ => shows_of_alreadyPresent, fun _ => hidden_of_suppressed⟩
  constructor
  · rintro ⟨_, merged⟩
    rcases mergeImported_eq_ok merged with ⟨-, other⟩ | ⟨admits, -⟩
    · exact absurd rfl other
    · exact absurd admits refused
  · rintro ⟨absent, _, got, -⟩
    rw [perform, settle_of_not_admits refused, absent] at got
    cases got

theorem Admits.get (admits : store.Admits event) : store.get env event.eventId = .ok none := by
  rw [get_of_small (small_of_valid admits.valid), admits.fresh]

theorem Admits.shows_iff (admits : store.Admits event) (roundTrips : env.RoundTrips)
    (ties : IterOrder EventKey) :
    (store.perform env (.mergeImported ties event)).Shows env event ↔
      event.eventId.key ∉ (store.withEvent env event).prunable ties := by
  rw [perform, admits.mergeImported ties, settle, Shows,
    get_of_small (small_of_valid admits.valid), lookup_pruneUnpinned, flags_pruneUnpinned]
  by_cases gone : event.eventId.key ∈ (store.withEvent env event).prunable ties
  · simp [gone]
  · have written : (store.withEvent env event).events.lookup event.eventId.key =
        some (encodeEvent env event) := AList.lookup_insert _
    have shown : ((store.withEvent env event).flags event.eventId.key).dismissed = false :=
      admits.shown
    simp [gone, written, shown, decodeRecord_encodeEvent roundTrips, Except.map]

theorem Admits.honest_iff (admits : store.Admits event) (roundTrips : env.RoundTrips)
    (ties : IterOrder EventKey) :
    store.Honest env ties event ↔
      event.eventId.key ∉ (store.withEvent env event).prunable ties := by
  have merged : ∃ after, store.mergeImported env ties event = .ok (after, .inserted) :=
    ⟨_, admits.mergeImported ties⟩
  rw [← admits.shows_iff roundTrips ties]
  constructor
  · intro honest
    exact (honest.inserted.mp merged).2
  · intro there
    exact ⟨⟨fun _ => ⟨admits.get, there⟩, fun _ => merged⟩, fun _ => shows_of_alreadyPresent,
      fun _ => hidden_of_suppressed⟩

def recencyOf (event : ImportedHistoryEvent) : ℤ ×ₗ ℤ :=
  toLex (-event.createdAtMs, -(event.eventId.originSequence.toNat : ℤ))

def asRecent (store : HistoryStore) (event : ImportedHistoryEvent) : List EventKey :=
  store.unpinned.filter fun key => store.recency key ≤ recencyOf event

/-- A new event finds a place among the rows that are kept. -/
def KeepsNew (store : HistoryStore) (event : ImportedHistoryEvent) : Prop :=
  store.Admits event → (store.asRecent event).length < maxUnpinnedRecords

theorem recency_withEvent (key : EventKey) :
    (store.withEvent env event).recency key =
      if key = event.eventId.key then recencyOf event else store.recency key := by
  have looked : (store.withEvent env event).events.lookup key =
      if key = event.eventId.key then some (encodeEvent env event) else store.events.lookup key :=
    lookup_insert store.events _ key _
  rw [recency, looked]
  split
  · rename_i same
    rw [same]
    rfl
  · rfl

theorem Admits.unpinned_withEvent (env : Environment) (admits : store.Admits event)
    (referenced : store.Referenced) :
    (store.withEvent env event).unpinned = event.eventId.key :: store.unpinned := by
  have fresh : event.eventId.key ∉ store.events := AList.lookup_eq_none.mp admits.fresh
  have keys : (store.withEvent env event).events.keys = event.eventId.key :: store.events.keys :=
    congrArg (map Sigma.fst) (AList.entries_insert_of_notMem fresh)
  have free : (store.flags event.eventId.key).pinned = false := by
    rw [referenced.events _ fresh]
  have flags : ∀ key, (store.withEvent env event).flags key = store.flags key := fun _ => rfl
  simp only [unpinned, keys, flags]
  rw [filter_cons_of_pos (by simp [free])]

theorem Admits.fresh_unpinned (admits : store.Admits event) :
    event.eventId.key ∉ store.unpinned := by
  intro listed
  have known := AList.mem_keys.mpr (mem_of_mem_filter listed)
  exact AList.lookup_eq_none.mp admits.fresh known

theorem Admits.asRecent_withEvent (env : Environment) (admits : store.Admits event) :
    (store.unpinned.filter fun key =>
      (store.withEvent env event).recency key ≤ recencyOf event) = store.asRecent event := by
  apply filter_congr
  intro key listed
  have other : key ≠ event.eventId.key := fun same => admits.fresh_unpinned (same ▸ listed)
  rw [recency_withEvent, if_neg other]

theorem Admits.kept_iff (env : Environment) (admits : store.Admits event)
    (referenced : store.Referenced) :
    (∀ ties, event.eventId.key ∉ (store.withEvent env event).prunable ties) ↔
      (store.asRecent event).length < maxUnpinnedRecords := by
  have rows := admits.unpinned_withEvent env referenced
  have isRecent : (store.withEvent env event).recency event.eventId.key = recencyOf event := by
    rw [recency_withEvent, if_pos rfl]
  have same := admits.asRecent_withEvent env
  have distinct := (store.withEvent env event).nodup_unpinned
  constructor
  · intro kept
    by_contra many
    apply kept (.postpone event.eventId.key)
    change event.eventId.key ∈ (ranked (store.withEvent env event).recency
      ((store.withEvent env event).unpinned.filter (· ≠ event.eventId.key) ++
        (store.withEvent env event).unpinned.filter (· = event.eventId.key))).drop
          maxUnpinnedRecords
    have fresh := admits.fresh_unpinned
    have others : (store.withEvent env event).unpinned.filter (· ≠ event.eventId.key) =
        store.unpinned := by
      rw [rows, filter_cons_of_neg (by simp)]
      apply filter_eq_self.mpr
      intro key listed
      have other : key ≠ event.eventId.key := fun equal => fresh (equal ▸ listed)
      simpa using other
    have alone : (store.withEvent env event).unpinned.filter (· = event.eventId.key) =
        [event.eventId.key] := by
      rw [rows, filter_cons_of_pos (by simp), filter_eq_nil_iff.mpr]
      intro key listed equal
      exact fresh (of_decide_eq_true equal ▸ listed)
    rw [others, alone]
    apply mem_drop_of_many
    · rw [nodup_append]
      refine ⟨store.nodup_unpinned, nodup_singleton _, ?_⟩
      intro key listed _ isNew equal
      rw [mem_singleton.mp isNew] at equal
      exact fresh (equal ▸ listed)
    · rw [isRecent, same]
      omega
  · intro few ties
    apply notMem_drop_of_few ((ties.nodup_arrange).mpr distinct)
    have perm := (ties.perm (store.withEvent env event).unpinned).filter fun key =>
      decide (key ≠ event.eventId.key ∧ (store.withEvent env event).recency key ≤
        (store.withEvent env event).recency event.eventId.key)
    have fewer : ((store.withEvent env event).unpinned.filter fun key =>
        decide (key ≠ event.eventId.key ∧ (store.withEvent env event).recency key ≤
          (store.withEvent env event).recency event.eventId.key)).length ≤
        (store.asRecent event).length := by
      rw [rows, filter_cons_of_neg (by simp), isRecent, ← same]
      apply Sublist.length_le
      apply monotone_filter_right
      intro _
      simp
    exact (perm.length_eq.le.trans fewer).trans_lt few

theorem referenced_of_calls (env : Environment) (calls : List Call) :
    (afterCalls env calls).Referenced := by
  induction calls using reverseRecOn with
  | nil => exact referenced_new
  | append_singleton _ call ih =>
    rw [afterCalls_append]
    exact ih.effect (perform_effect env _ call)

/-- A merge says what it has done, in every order of the ties, if and only if there is a place for
the event when it is new. -/
theorem mergeImported_honest_iff (roundTrips : env.RoundTrips) (calls : List Call)
    (event : ImportedHistoryEvent) :
    (∀ ties, (afterCalls env calls).Honest env ties event) ↔
      (afterCalls env calls).KeepsNew event := by
  have referenced := referenced_of_calls env calls
  by_cases admits : (afterCalls env calls).Admits event
  · have kept := admits.kept_iff env referenced
    constructor
    · intro honest _
      exact kept.mp fun ties => (admits.honest_iff roundTrips ties).mp (honest ties)
    · intro keeps ties
      exact (admits.honest_iff roundTrips ties).mpr (kept.mpr (keeps admits) ties)
  · constructor
    · intro _ admitted
      exact absurd admitted admits
    · intro _ ties
      exact honest_of_not_admits admits ties

/-- Calls that prune the oldest event, pin the latest one and clear the others. -/
def pruneAndClear : List Call :=
  [mergeOld] ++ fillers maxUnpinnedRecords ++
    [.setPinned (filler (maxUnpinnedRecords - 1)).eventId true] ++ [.clearUnpinned]

/-- The rows after these calls: all but the latest are unpinned. -/
structure OnePinned (store : HistoryStore) (count : ℕ) : Prop where
  rows : ∀ key, key ∈ store.events ↔ key ∈ fillerKeys (count + 1)
  unpinned : ∀ key ∈ store.unpinned, key ∈ fillerKeys count
  shown : (store.flags oldKey).dismissed = false
  boundaries : store.clearBoundaries = ∅

theorem Filled.onePinned {count : ℕ} (filled : store.Filled none (count + 1))
    (small : count < maxUnpinnedRecords) :
    ((store.perform env (.setPinned (filler count).eventId true)).perform env
      .clearUnpinned).OnePinned count := by
  rw [filled.setPinned_filler small]
  have cleared := cleared_hide (store.withPin (filler count).eventId.key true) fun _ => true
  refine ⟨?_, ?_, ?_, filled.boundaries⟩
  · exact fun key => (cleared.mem key).trans (filled.mem_fillers key)
  · intro key member
    rcases List.mem_filter.mp member with ⟨known, unpinned⟩
    have listed := (filled.mem_fillers key).mp ((cleared.mem key).mp (AList.mem_keys.mpr known))
    rw [fillerKeys_succ] at listed
    refine (List.mem_append.mp listed).resolve_right fun latest => ?_
    have same : key = (filler count).eventId.key := by
      rw [key_filler small]
      exact List.mem_singleton.mp latest
    have pinned : (store.withPin (filler count).eventId.key true).flags key = ⟨true, false⟩ := by
      rw [flags_withPin, same, filled.flags, key_filler small]
      simp [oldKey]
    have kept := cleared.flags key fun range => by simp [pinned] at range
    rw [perform, clearUnpinned, kept, pinned] at unpinned
    cases unpinned
  · have unknown : oldKey ∉ store.events := fun known =>
      oldKey_notMem_fillerKeys _ ((filled.mem_fillers oldKey).mp known)
    have kept := cleared.flags oldKey fun range => unknown range.1
    rw [perform, clearUnpinned, kept]
    simp [flags_withPin, filled.flags, oldKey, key_filler small]

theorem onePinned_pruneAndClear :
    (afterCalls unaryEnvironment pruneAndClear).OnePinned (maxUnpinnedRecords - 1) := by
  have full : maxUnpinnedRecords - 1 + 1 = maxUnpinnedRecords := by decide
  have filled : (afterCalls unaryEnvironment ([mergeOld] ++ fillers maxUnpinnedRecords)).Filled none
      (maxUnpinnedRecords - 1 + 1) := by
    rw [full, afterCalls, Machine.after_append]
    exact Filled.mergeOld_new.fillers_overflow
  rw [pruneAndClear, afterCalls_append, afterCalls_append]
  exact filled.onePinned (by decide)

theorem OnePinned.admits {count : ℕ} (pinned : store.OnePinned count) :
    store.Admits (textEvent "a" 1 0) := by
  refine ⟨by decide, pinned.shown, ?_, ?_⟩
  · exact AList.lookup_eq_none.mpr fun known =>
      oldKey_notMem_fillerKeys _ ((pinned.rows _).mp known)
  · simp [coveredByClear, pinned.boundaries]

theorem mergeImported_honest_new :
    (∀ ties, (afterCalls unaryEnvironment pruneAndClear).Honest unaryEnvironment ties
        (textEvent "a" 1 0)) ∧
      ∃ after, (afterCalls unaryEnvironment pruneAndClear).mergeImported unaryEnvironment
        (.asStored _) (textEvent "a" 1 0) = .ok (after, .inserted) := by
  have pinned := onePinned_pruneAndClear
  have place : (afterCalls unaryEnvironment pruneAndClear).KeepsNew (textEvent "a" 1 0) := by
    intro _
    apply (length_filter_le _ _).trans_lt
    have few := ((nodup_unpinned _).subperm pinned.unpinned).length_le
    rw [length_fillerKeys] at few
    exact few.trans_lt (by decide)
  exact ⟨(mergeImported_honest_iff unaryEnvironment_roundTrips pruneAndClear _).mpr place, _,
    pinned.admits.mergeImported _⟩

/-- An event older than as many others as are kept is reported as inserted and is not there. -/
theorem inserted_is_absent :
    ∃ calls ties event after,
      (afterCalls unaryEnvironment calls).mergeImported unaryEnvironment ties event =
          .ok (after, .inserted) ∧
        after.get unaryEnvironment event.eventId = .ok none ∧
          ¬(afterCalls unaryEnvironment calls).Honest unaryEnvironment ties event := by
  have filled : (afterCalls unaryEnvironment (fillers maxUnpinnedRecords)).Filled none
      maxUnpinnedRecords := Filled.empty.fill (by simp)
  have more : ((afterCalls unaryEnvironment (fillers maxUnpinnedRecords)).withEvent
      unaryEnvironment (textEvent "a" 1 0)).Filled (some false) maxUnpinnedRecords :=
    filled.withOld
  have gone := more.prunable_old rfl
  have dropped : (textEvent "a" 1 0).eventId.key ∈
      ((afterCalls unaryEnvironment (fillers maxUnpinnedRecords)).withEvent unaryEnvironment
        (textEvent "a" 1 0)).prunable (.asStored _) := by
    rw [gone]
    exact List.mem_singleton.mpr rfl
  have admits := filled.admits_old
  refine ⟨fillers maxUnpinnedRecords, .asStored _, textEvent "a" 1 0, _,
    admits.mergeImported _, ?_, ?_⟩
  · rw [get_of_small (small_of_valid admits.valid), lookup_pruneUnpinned, if_pos dropped]
  · intro honest
    exact (admits.honest_iff unaryEnvironment_roundTrips _).mp honest dropped

/-- In every state the number that `next_sequence` gives is free: an event with it is inserted. -/
theorem inserts_next (env : Environment) (calls : List Call) (ties : IterOrder EventKey)
    (valid : validateEvent event = .ok ())
    (next : (afterCalls env calls).nextSequence event.eventId.originDeviceId =
      .ok event.eventId.originSequence) :
    ∃ after, (afterCalls env calls).mergeImported env ties event = .ok (after, .inserted) := by
  have named := valid
  simp only [validateEvent, bind_ok] at named
  rcases named with ⟨_, device, -⟩
  have free : ¬(afterCalls env calls).Counted event.eventId.key := by
    intro counted
    rcases counted.nextSequence device with ⟨_, found, later⟩ | exhausted
    · cases next.symm.trans found
      exact absurd later (UInt64.lt_irrefl _)
    · cases next.symm.trans exhausted
  have absent : event.eventId.key ∉ (afterCalls env calls).events :=
    fun known => free (.inl ⟨_, known, le_rfl⟩)
  refine ⟨_, Admits.mergeImported ⟨valid, ?_, AList.lookup_eq_none.mpr absent, ?_⟩ ties⟩
  · rw [(referenced_of_calls env calls).events _ absent]
  · exact Bool.eq_false_iff.mpr fun covered => free (.inr covered)

theorem inserts_next_first :
    ∃ after, (afterCalls unaryEnvironment pruneAndClear).mergeImported unaryEnvironment
      (.asStored _) (textEvent "a" 1 0) = .ok (after, .inserted) := by
  have pinned := onePinned_pruneAndClear
  have next : (afterCalls unaryEnvironment pruneAndClear).nextSequence "a" = .ok 1 :=
    nextSequence_of_fillers (fun key => (pinned.rows key).mp) pinned.boundaries
  exact inserts_next _ pruneAndClear _ (by decide) next

end HistoryStore

end Syntra.Store
