import Syntra.Store.Rows

/-!
# What pruning deletes

References between the tables hold in every state. Pruning ranks the unpinned rows and deletes those
after the first thousand, with their local state. A run is built here in which an old event is
driven out by a thousand newer ones.
-/

namespace Syntra.Store

open ByteFormat Tables StateMachine List AList

namespace HistoryStore

variable {env : Environment} {store : HistoryStore}

/-- No flags and no boundaries without their rows. -/
structure Referenced (store : HistoryStore) : Prop where
  events : ∀ key, key ∉ store.events → store.flags key = ⟨false, false⟩
  operations : ∀ operationId device maximum,
    store.clearBoundaries.lookup (operationId, device) = some maximum →
      operationId ∈ store.clearOperations

theorem referenced_new : new.Referenced := by
  refine ⟨fun _ _ => rfl, ?_⟩
  intro _ _ _ found
  cases found

variable {event : ImportedHistoryEvent} {key : EventKey} {after : HistoryStore} {call : Call}
  {index : ℕ}

theorem mem_withEvent :
    key ∈ (store.withEvent env event).events ↔ key = event.eventId.key ∨ key ∈ store.events :=
  mem_insert _

variable {ties : IterOrder EventKey}

theorem mem_pruneUnpinned :
    key ∈ (store.pruneUnpinned ties).events ↔ key ∈ store.events ∧ key ∉ store.prunable ties := by
  rw [← lookup_isSome, lookup_pruneUnpinned, ← lookup_isSome]
  split <;> simp_all

theorem Referenced.cleared (referenced : store.Referenced) {within : EventKey → Prop}
    (cleared : store.Cleared after within) (key : EventKey) (absent : key ∉ after.events) :
    after.flags key = ⟨false, false⟩ := by
  have missing : key ∉ store.events := fun known => absent ((cleared.mem key).mpr known)
  rw [cleared.flags key fun range => missing range.1]
  exact referenced.events key missing

theorem Referenced.effect (referenced : store.Referenced) (effect : Effect env store call after) :
    after.Referenced := by
  cases effect with
  | none => exact referenced
  | @insertion ties event merging admits =>
    refine ⟨?_, referenced.operations⟩
    intro _ absent
    rw [flags_pruneUnpinned]
    split
    · rfl
    · rename_i kept
      apply referenced.events
      intro known
      exact absent (mem_pruneUnpinned.mpr ⟨mem_withEvent.mpr (.inr known), kept⟩)
  | pin _ known =>
    refine ⟨?_, referenced.operations⟩
    intro other absent
    rw [flags_withPin, if_neg]
    · exact referenced.events other absent
    · rintro ⟨rfl, -⟩
      exact absent known
  | clear _ cleared boundaries operations =>
    refine ⟨referenced.cleared cleared, ?_⟩
    rw [boundaries, operations]
    exact referenced.operations
  | @clearThrough after operationId boundary _ cleared =>
    refine ⟨referenced.cleared cleared.toCleared, ?_⟩
    intro other device maximum found
    rw [cleared.boundaries] at found
    rw [cleared.registered]
    split at found
    · rename_i inside
      exact .inl inside.1
    · exact .inr (referenced.operations other device maximum found)

theorem Referenced.covered (referenced : store.Referenced) (effect : Effect env store call after)
    (covered : store.coveredByClear key = true) : after.coveredByClear key = true := by
  cases effect with
  | none | insertion | pin => exact covered
  | clear _ _ boundaries =>
    rw [coveredByClear, boundaries]
    exact covered
  | @clearThrough after operationId boundary _ cleared =>
    rcases coveredByClear_iff.mp covered with ⟨other, maximum, found, below⟩
    refine coveredByClear_iff.mpr ⟨other, maximum, ?_, below⟩
    rw [cleared.boundaries, if_neg]
    · exact found
    · rintro ⟨rfl, -⟩
      have known := referenced.operations _ _ _ found
      rw [← lookup_isSome, cleared.fresh] at known
      cases known

def unpinned (store : HistoryStore) : List EventKey :=
  store.events.keys.filter fun key => !(store.flags key).pinned

theorem nodup_unpinned (store : HistoryStore) : store.unpinned.Nodup :=
  store.events.keys_nodup.filter _

theorem prunable_eq_nil (few : store.unpinned.length ≤ maxUnpinnedRecords) :
    store.prunable ties = [] := by
  apply drop_eq_nil_of_le
  rw [length_insertionSort, (ties.perm _).length_eq]
  exact few

theorem pruneUnpinned_of_few (few : store.unpinned.length ≤ maxUnpinnedRecords) (key : EventKey) :
    (store.pruneUnpinned ties).events.lookup key = store.events.lookup key ∧
      (store.pruneUnpinned ties).flags key = store.flags key := by
  rw [lookup_pruneUnpinned, flags_pruneUnpinned, prunable_eq_nil few]
  simp

theorem prunable_eq_singleton {oldest : EventKey}
    (count : store.unpinned.length = maxUnpinnedRecords + 1) (member : oldest ∈ store.unpinned)
    (least : ∀ key ∈ store.unpinned, key ≠ oldest → store.recency key < store.recency oldest) :
    store.prunable ties = [oldest] := by
  let ranked := (ties.arrange store.unpinned).insertionSort fun left right =>
    store.recency left ≤ store.recency right
  have perm : ranked.Perm store.unpinned := (perm_insertionSort _ _).trans (ties.perm _)
  have sorted : ranked.Pairwise fun left right => store.recency left ≤ store.recency right :=
    pairwise_insertionSort _ _
  have split : ranked = ranked.take maxUnpinnedRecords ++ ranked.drop maxUnpinnedRecords :=
    (take_append_drop _ _).symm
  have single : (ranked.drop maxUnpinnedRecords).length = 1 := by
    rw [length_drop, perm.length_eq, count]
    omega
  rcases length_eq_one_iff.mp single with ⟨last, dropped⟩
  change ranked.drop maxUnpinnedRecords = [oldest]
  rw [dropped] at split ⊢
  have distinct : ranked.Nodup := perm.nodup_iff.mpr store.nodup_unpinned
  rw [split] at sorted distinct
  have ranks := (pairwise_append.mp sorted).2.2
  have kept : last ∈ store.unpinned := by
    apply perm.mem_iff.mp
    rw [split]
    simp
  by_cases same : last = oldest
  · rw [same]
  · -- otherwise the least recent row would stand before a more recent one
    have early : oldest ∈ ranked.take maxUnpinnedRecords := by
      have placed := perm.mem_iff.mpr member
      rw [split] at placed
      rcases mem_append.mp placed with early | late
      · exact early
      · exact absurd (mem_singleton.mp late).symm same
    exact absurd (least last kept same) (not_lt.mpr (ranks _ early _ (by simp)))

def oldKey : EventKey := ("a", 1)

/-- The oldest event of the runs below. -/
def mergeOld : Call := .mergeImported (.asStored _) (textEvent "a" 1 0)

def filler (index : ℕ) : ImportedHistoryEvent :=
  textEvent "b" (UInt64.ofNat (index + 1)) (index + 1)

def fillers (count : ℕ) : List Call :=
  (List.range count).map fun index => .mergeImported (.asStored _) (filler index)

variable (count : ℕ)

theorem fillers_succ :
    fillers (count + 1) = fillers count ++ [.mergeImported (.asStored _) (filler count)] := by
  rw [fillers, range_succ, map_append]
  rfl

theorem key_filler (few : index < maxUnpinnedRecords) :
    (filler index).eventId.key = ("b", (index : ℤ) + 1) := by
  rw [maxUnpinnedRecords] at few
  simp [filler, textEvent, HistoryEventId.key, UInt64.toNat_ofNat']
  omega

theorem valid_filler (few : index < maxUnpinnedRecords) :
    validateEvent (filler index) = .ok () := by
  have keyed := congrArg Prod.snd (key_filler few)
  have small : (filler index).eventId.originSequence.toNat ≤ i64Max := by
    simp only [HistoryEventId.key] at keyed
    rw [maxUnpinnedRecords] at few
    rw [i64Max]
    omega
  have sequence : sequenceToSql (filler index).eventId.originSequence =
      .ok ((filler index).eventId.originSequence.toNat : ℤ) :=
    sequenceToSql_eq_ok.mpr ⟨small, rfl⟩
  have device : validateString "origin device id" "b" maxDeviceIdBytes = .ok () := by decide
  have text : validateString "text" "abc" maxTextBytes = .ok () := by decide
  simp only [validateEvent, bind_ok, sequence]
  exact ⟨(), device, (), rfl, _, rfl, text⟩

def fillerKeys (count : ℕ) : List EventKey :=
  (List.range count).map fun index : ℕ => ("b", (index : ℤ) + 1)

theorem nodup_fillerKeys : (fillerKeys count).Nodup := by
  refine Nodup.map ?_ nodup_range
  intro _ _ same
  simpa using same

theorem length_fillerKeys : (fillerKeys count).length = count := by
  simp [fillerKeys]

theorem fillerKeys_succ :
    fillerKeys (count + 1) = fillerKeys count ++ [("b", (count : ℤ) + 1)] := by
  simp [fillerKeys, range_succ]

theorem oldKey_notMem_fillerKeys : oldKey ∉ fillerKeys count := by
  simp [fillerKeys, oldKey]

/-- The rows are the fillers and perhaps the old one. -/
structure Filled (store : HistoryStore) (old : Option Bool) (count : ℕ) : Prop where
  rows : ∀ key, (store.events.lookup key).map (·.createdAtMs) =
    if key = oldKey then old.map fun _ => 0
    else if key ∈ fillerKeys count then some key.2 else none
  flags : ∀ key, store.flags key = if key = oldKey then ⟨false, old.getD false⟩ else ⟨false, false⟩
  boundaries : store.clearBoundaries = ∅

namespace Filled

variable {old : Option Bool} {count : ℕ}

variable (filled : store.Filled old count)
include filled

theorem mem (key : EventKey) :
    key ∈ store.events ↔ key = oldKey ∧ old.isSome = true ∨ key ∈ fillerKeys count := by
  have looked := congrArg Option.isSome (filled.rows key)
  rw [Option.isSome_map] at looked
  rw [← lookup_isSome, looked]
  by_cases isOld : key = oldKey
  · have other := oldKey_notMem_fillerKeys count
    simp [isOld, other]
  · by_cases listed : key ∈ fillerKeys count <;> simp [isOld, listed]

theorem unpinned_perm :
    store.unpinned.Perm ((old.toList.map fun _ => oldKey) ++ fillerKeys count) := by
  have distinct : ((old.toList.map fun _ => oldKey) ++ fillerKeys count).Nodup := by
    cases old with
    | none => exact nodup_fillerKeys count
    | some =>
      exact List.nodup_cons.mpr ⟨oldKey_notMem_fillerKeys count, nodup_fillerKeys count⟩
  rw [List.perm_ext_iff_of_nodup store.nodup_unpinned distinct]
  intro key
  have free : (store.flags key).pinned = false := by
    rw [filled.flags]
    split <;> rfl
  rw [unpinned, List.mem_filter, ← AList.mem_keys, filled.mem, free]
  cases old <;> simp

theorem uncovered (key : EventKey) : store.coveredByClear key = false := by
  simp [coveredByClear, filled.boundaries]

theorem admits_filler (few : count < maxUnpinnedRecords) : store.Admits (filler count) := by
  have keyed := key_filler few
  have other : (filler count).eventId.key ≠ oldKey := by
    rw [keyed]
    simp [oldKey]
  refine ⟨valid_filler few, ?_, ?_, filled.uncovered _⟩
  · rw [filled.flags, if_neg other]
  · rw [lookup_eq_none, filled.mem, keyed]
    simp [oldKey, fillerKeys]

theorem withEvent (few : count < maxUnpinnedRecords) :
    (store.withEvent env (filler count)).Filled old (count + 1) := by
  have keyed := key_filler few
  refine ⟨?_, filled.flags, filled.boundaries⟩
  intro key
  have looked : (store.withEvent env (filler count)).events.lookup key =
      if key = (filler count).eventId.key then some (encodeEvent env (filler count))
      else store.events.lookup key := lookup_insert store.events _ key _
  rw [looked, keyed]
  split
  · rename_i same
    rw [same]
    simp [oldKey, fillerKeys_succ, encodeEvent, filler, textEvent]
  · rename_i different
    rw [filled.rows, fillerKeys_succ]
    simp [different]

theorem next (few : old.toList.length + count < maxUnpinnedRecords) :
    (store.perform env (.mergeImported (.asStored _) (filler count))).Filled old (count + 1) := by
  have small : count < maxUnpinnedRecords := by omega
  have more : (store.withEvent env (filler count)).Filled old (count + 1) :=
    filled.withEvent small
  have kept : (store.withEvent env (filler count)).unpinned.length ≤ maxUnpinnedRecords := by
    rw [more.unpinned_perm.length_eq, length_append, length_fillerKeys]
    simp
    omega
  rw [perform, (filled.admits_filler small).mergeImported, settle]
  refine ⟨?_, ?_, more.boundaries⟩
  · intro key
    rw [(pruneUnpinned_of_few kept key).1]
    exact more.rows key
  · intro key
    rw [(pruneUnpinned_of_few kept key).2]
    exact more.flags key

omit filled

theorem fill (filled : store.Filled old 0) (few : old.toList.length + count ≤ maxUnpinnedRecords) :
    ((machine env fun _ _ => True).after store (fillers count)).Filled old count := by
  induction count with
  | zero => exact filled
  | succ _ ih =>
    rw [fillers_succ, Machine.after_append]
    exact (ih (by omega)).next (by omega)

variable {dismissed : Bool}

/-- With as many fillers as are kept, the old event is the one row too many. -/
theorem prunable_old (filled : store.Filled (some dismissed) count)
    (full : maxUnpinnedRecords = count) : store.prunable (.asStored _) = [oldKey] := by
  have perm := filled.unpinned_perm
  have length : store.unpinned.length = maxUnpinnedRecords + 1 := by
    rw [perm.length_eq, length_append, length_fillerKeys, full]
    simp
    omega
  have recency : ∀ key, store.recency key =
      toLex (-(if key = oldKey then some 0 else if key ∈ fillerKeys count then some key.2
        else none).getD 0, -key.2) := by
    intro key
    rw [recency, filled.rows]
    rfl
  refine prunable_eq_singleton length (perm.mem_iff.mpr (by simp)) ?_
  intro key member other
  have listed : key ∈ fillerKeys count := by
    have placed := perm.mem_iff.mp member
    simpa [other] using placed
  rw [recency, recency, if_neg other, if_pos listed, if_pos rfl]
  simp only [fillerKeys, mem_map] at listed
  rcases listed with ⟨_, -, rfl⟩
  apply Prod.Lex.toLex_lt_toLex.mpr
  left
  simp
  omega

theorem overflow (filled : store.Filled (some dismissed) count)
    (full : maxUnpinnedRecords = count + 1) :
    (store.perform env (.mergeImported (.asStored _) (filler count))).Filled none (count + 1) := by
  have small : count < maxUnpinnedRecords := by omega
  have more : (store.withEvent env (filler count)).Filled (some dismissed) (count + 1) :=
    filled.withEvent small
  have gone : (store.withEvent env (filler count)).prunable (.asStored _) = [oldKey] :=
    more.prunable_old full
  rw [perform, (filled.admits_filler small).mergeImported, settle]
  refine ⟨?_, ?_, more.boundaries⟩
  · intro key
    rw [lookup_pruneUnpinned, gone]
    by_cases old : key = oldKey
    · simp [old]
    · simpa [old] using more.rows key
  · intro key
    rw [flags_pruneUnpinned, gone]
    by_cases old : key = oldKey
    · simp [old]
    · simpa [old] using more.flags key

theorem mem_fillers (filled : store.Filled none count) (key : EventKey) :
    key ∈ store.events ↔ key ∈ fillerKeys count := by
  simp [filled.mem]

theorem admits_old (filled : store.Filled none count) : store.Admits (textEvent "a" 1 0) := by
  refine ⟨by decide, ?_, ?_, filled.uncovered _⟩
  · rw [filled.flags]
    split <;> rfl
  · rw [lookup_eq_none, filled.mem]
    have other : (textEvent "a" 1 0).eventId.key ∉ fillerKeys count :=
      oldKey_notMem_fillerKeys count
    simp [other]

theorem withOld (filled : store.Filled none count) :
    (store.withEvent env (textEvent "a" 1 0)).Filled (some false) count := by
  refine ⟨?_, ?_, filled.boundaries⟩
  · intro key
    have looked : (store.withEvent env (textEvent "a" 1 0)).events.lookup key =
        if key = oldKey then some (encodeEvent env (textEvent "a" 1 0))
        else store.events.lookup key := lookup_insert store.events _ key _
    rw [looked]
    split
    · rfl
    · rename_i other
      rw [filled.rows, if_neg other]
  · intro key
    apply (filled.flags key).trans
    split <;> rfl

theorem empty : new.Filled none 0 := by
  refine ⟨?_, ?_, rfl⟩
  · intro key
    simp [new, fillerKeys]
  · intro _
    split <;> rfl

theorem mergeOld_new : (new.perform env mergeOld).Filled (some false) 0 := by
  have filled := empty
  have more : (new.withEvent env (textEvent "a" 1 0)).Filled (some false) 0 := filled.withOld
  have kept : (new.withEvent env (textEvent "a" 1 0)).unpinned.length ≤ maxUnpinnedRecords := by
    rw [more.unpinned_perm.length_eq]
    decide
  rw [mergeOld, perform, (filled.admits_old).mergeImported, settle]
  refine ⟨?_, ?_, more.boundaries⟩
  · intro key
    rw [(pruneUnpinned_of_few kept key).1]
    exact more.rows key
  · intro key
    rw [(pruneUnpinned_of_few kept key).2]
    exact more.flags key

theorem clear (filled : store.Filled (some false) 0) :
    (store.perform env .clearUnpinned).Filled (some true) 0 := by
  have cleared := cleared_hide store fun _ => true
  have alone : ∀ key, key ∈ store.events ↔ key = oldKey := by
    intro key
    rw [filled.mem]
    simp [fillerKeys]
  refine ⟨?_, ?_, filled.boundaries⟩
  · intro key
    have times : ((store.hide fun _ => true).1.events.lookup key).map (·.createdAtMs) =
        (store.events.lookup key).map (·.createdAtMs) := by
      by_cases scrubbed : (store.hide fun _ => true).1.flags key = ⟨false, true⟩
      · rw [cleared.scrubbed key rfl scrubbed, Option.map_map]
        rfl
      · rw [cleared.rows key fun both => scrubbed both.2]
    apply times.trans
    rw [filled.rows]
    rfl
  · intro key
    have free : (store.flags key).pinned = false := by
      rw [filled.flags]
      split <;> rfl
    by_cases old : key = oldKey
    · rw [if_pos old]
      exact cleared.dismissed key ((alone key).mpr old) rfl free
    · rw [if_neg old]
      apply (cleared.flags key fun range => old ((alone key).mp range.1)).trans
      rw [filled.flags, if_neg old]

theorem fillers_overflow (filled : store.Filled (some dismissed) 0) :
    ((machine env fun _ _ => True).after store (fillers maxUnpinnedRecords)).Filled none
      maxUnpinnedRecords := by
  have full : ∃ count, maxUnpinnedRecords = count + 1 := ⟨999, rfl⟩
  rcases full with ⟨count, full⟩
  have nearly : ((machine env fun _ _ => True).after store (fillers count)).Filled
      (some dismissed) count := filled.fill (by simp [full]; omega)
  rw [full, fillers_succ, Machine.after_append]
  exact nearly.overflow full

theorem setPinned_filler (filled : store.Filled none (count + 1))
    (small : count < maxUnpinnedRecords) :
    store.perform env (.setPinned (filler count).eventId true) =
      store.withPin (filler count).eventId.key true := by
  have known : (filler count).eventId.key ∈ store.events := by
    rw [filled.mem, key_filler small, fillerKeys_succ]
    simp
  have sequence : sequenceToSql (filler count).eventId.originSequence =
      .ok ((filler count).eventId.originSequence.toNat : ℤ) :=
    sequenceToSql_eq_ok.mpr ⟨small_of_valid (valid_filler small), rfl⟩
  simp only [perform, setPinned, sequence]
  have keyed : ((filler count).eventId.originDeviceId,
      ((filler count).eventId.originSequence.toNat : ℤ)) = (filler count).eventId.key := rfl
  change store.settle (if _ ∈ store.events then _ else _) = _
  rw [keyed, if_pos known]
  rfl

end Filled

theorem not_prunable_of_filled (filled : store.Filled none 0) (isMerge : call = mergeOld)
    (merging : call.merging = some (ties, event)) :
    (store.withEvent env event).prunable ties = [] := by
  subst isMerge
  cases merging
  have more : (store.withEvent env (textEvent "a" 1 0)).Filled (some false) 0 := filled.withOld
  apply prunable_eq_nil
  rw [more.unpinned_perm.length_eq]
  decide

end HistoryStore

end Syntra.Store
