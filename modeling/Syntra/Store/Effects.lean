import Syntra.Store.Operations

/-!
# What the operations of the store do

Each statement is described by the rows and the flags that it leaves under every key, and each
operation by the statements it is made of: an insertion followed by pruning, or a series of pins,
boundaries and dismissals.
-/

namespace Syntra.Store

open ByteFormat Tables AList

namespace HistoryStore

variable {env : Environment} {store : HistoryStore}

def Hidden (store : HistoryStore) (within : EventKey → Bool) (key : EventKey) : Prop :=
  key ∈ store.events ∧ within key = true ∧ (store.flags key).pinned = false ∧
    (store.flags key).dismissed = false

def dismissedFlags (found : Option Flags) : Flags :=
  (found.map fun old =>
      if old.pinned || old.dismissed then old else { old with dismissed := true }).getD
    ⟨false, true⟩

theorem lookup_foldl_dismiss (keys : List EventKey) (table : Table EventKey Flags) (count : ℕ)
    (key : EventKey) :
    (keys.foldl (fun (table, affected) key =>
        let (table, changed) := upsert table key ⟨false, true⟩ fun old =>
          if old.pinned || old.dismissed then none else some { old with dismissed := true }
        (table, affected + changed)) (table, count)).1.lookup key =
      if key ∈ keys then some (dismissedFlags (table.lookup key)) else table.lookup key := by
  induction keys generalizing table count with
  | nil => simp
  | cons first _ ih =>
    simp only [List.foldl_cons]
    rw [ih, lookup_upsert]
    by_cases same : key = first
    · subst same
      rcases table.lookup key with _ | ⟨pinned, dismissed⟩
      · simp [dismissedFlags]
      · cases pinned <;> cases dismissed <;> simp [dismissedFlags]
    · simp [same]

variable (within : EventKey → Bool)
include within

@[simp]
theorem dismiss_events : (store.dismiss within).1.events = store.events := rfl

open Classical in
theorem flags_dismiss (key : EventKey) :
    (store.dismiss within).1.flags key =
      if store.Hidden within key then ⟨false, true⟩ else store.flags key := by
  have selected : (key ∈ store.events.keys.filter fun key =>
      within key && !(store.flags key).pinned && !(store.flags key).dismissed) ↔
        store.Hidden within key := by
    simp only [List.mem_filter, ← mem_keys, Hidden, Bool.and_eq_true, Bool.not_eq_true', and_assoc]
  simp only [flags, dismiss]
  rw [lookup_foldl_dismiss]
  simp only [flags] at selected
  simp only [selected]
  split
  · rename_i hidden
    rcases hidden with ⟨-, -, unpinned, shown⟩
    simp only [flags] at unpinned shown
    cases found : store.localState.lookup key with
    | none => rfl
    | some old =>
      cases old with
      | mk =>
        simp only [found, Option.getD_some] at unpinned shown
        simp [dismissedFlags, unpinned, shown]
  · rfl

open Classical in
theorem flags_hide (key : EventKey) :
    (store.hide within).1.flags key =
      if store.Hidden within key then ⟨false, true⟩ else store.flags key :=
  flags_dismiss within key

theorem lookup_hide (key : EventKey) :
    (store.hide within).1.events.lookup key = (store.events.lookup key).map fun row =>
      if within key && !((store.hide within).1.flags key).pinned &&
          ((store.hide within).1.flags key).dismissed then row.scrubbed else row := by
  simp only [hide, scrub, lookup_filterMap, dismiss_events]
  cases store.events.lookup key <;> rfl

omit within

def withPin (store : HistoryStore) (key : EventKey) (pinned : Bool) : HistoryStore :=
  { store with
    localState := (upsert store.localState key ⟨pinned, false⟩ fun old =>
      if old.dismissed then none else some { old with pinned }).1 }

theorem pinnedFlags (found : Option Flags) (pinned : Bool) :
    (found.map fun old =>
        (if old.dismissed then none else some { old with pinned }).getD old).getD ⟨pinned, false⟩ =
      if (found.getD ⟨false, false⟩).dismissed = false then ⟨pinned, false⟩
      else found.getD ⟨false, false⟩ := by
  rcases found with _ | ⟨_, dismissed⟩
  · rfl
  · cases dismissed <;> rfl

theorem flags_withPin (key other : EventKey) (pinned : Bool) :
    (store.withPin key pinned).flags other =
      if other = key ∧ (store.flags key).dismissed = false then ⟨pinned, false⟩
      else store.flags other := by
  simp only [flags, withPin]
  rw [lookup_upsert]
  by_cases same : other = key
  · subst same
    simpa using pinnedFlags (store.localState.lookup other) pinned
  · simp [same]

variable (ties : IterOrder EventKey)

@[simp]
theorem lookup_pruneUnpinned (key : EventKey) :
    (store.pruneUnpinned ties).events.lookup key =
      if key ∈ store.prunable ties then none else store.events.lookup key := by
  simp only [pruneUnpinned, lookup_retain]
  by_cases gone : key ∈ store.prunable ties
  · cases store.events.lookup key <;> simp [gone]
  · cases store.events.lookup key <;> simp [gone]

theorem flags_pruneUnpinned (key : EventKey) :
    (store.pruneUnpinned ties).flags key =
      if key ∈ store.prunable ties then ⟨false, false⟩ else store.flags key := by
  simp only [flags, pruneUnpinned, lookup_retain]
  by_cases gone : key ∈ store.prunable ties
  · cases store.localState.lookup key <;> simp [gone]
  · cases store.localState.lookup key <;> simp [gone, Option.filter]

theorem coveredByClear_iff {key : EventKey} :
    store.coveredByClear key = true ↔
      ∃ operationId maximum, store.clearBoundaries.lookup (operationId, key.1) = some maximum ∧
        key.2 ≤ maximum := by
  simp only [coveredByClear, List.any_eq_true, Bool.and_eq_true, decide_eq_true_eq]
  constructor
  · rintro ⟨⟨⟨operationId, _⟩, maximum⟩, member, rfl, covered⟩
    exact ⟨operationId, maximum, mem_lookup_iff.mpr member, covered⟩
  · rintro ⟨operationId, maximum, found, covered⟩
    exact ⟨⟨(operationId, key.1), maximum⟩, mem_lookup_iff.mp found, rfl, covered⟩

/-- The unpinned events of a range are dismissed, and the payloads of the dismissed ones there are
gone. -/
structure Cleared (store after : HistoryStore) (within : EventKey → Prop) : Prop where
  dismissed : ∀ key, key ∈ store.events → within key → (store.flags key).pinned = false →
    after.flags key = ⟨false, true⟩
  flags : ∀ key, ¬(key ∈ store.events ∧ within key ∧ (store.flags key).pinned = false) →
    after.flags key = store.flags key
  scrubbed : ∀ key, within key → after.flags key = ⟨false, true⟩ →
    after.events.lookup key = (store.events.lookup key).map EventRow.scrubbed
  rows : ∀ key, ¬(within key ∧ after.flags key = ⟨false, true⟩) →
    after.events.lookup key = store.events.lookup key

variable {after : HistoryStore} {event : ImportedHistoryEvent}

theorem Cleared.mem {within : EventKey → Prop} (cleared : store.Cleared after within)
    (key : EventKey) : key ∈ after.events ↔ key ∈ store.events := by
  rw [← lookup_isSome, ← lookup_isSome]
  by_cases scrubbed : within key ∧ after.flags key = ⟨false, true⟩
  · rw [cleared.scrubbed key scrubbed.1 scrubbed.2]
    simp
  · rw [cleared.rows key scrubbed]

theorem Cleared.refl (store : HistoryStore) : store.Cleared store fun _ => False := by
  refine ⟨?_, ?_, ?_, ?_⟩
  · intro key _ within
    exact within.elim
  · intro key _
    rfl
  · intro key within
    exact within.elim
  · intro _ _
    rfl

theorem Cleared.congr {first second : EventKey → Prop} (cleared : store.Cleared after first)
    (same : ∀ key, first key ↔ second key) : store.Cleared after second := by
  have equal : first = second := funext fun key => propext (same key)
  exact equal ▸ cleared

theorem Cleared.trans {middle : HistoryStore} {first second : EventKey → Prop}
    (one : store.Cleared middle first) (two : middle.Cleared after second) :
    store.Cleared after fun key => first key ∨ second key := by
  -- a flag that the first clearing sets, the second finds set
  have flags : ∀ key, middle.flags key = ⟨false, true⟩ → after.flags key = ⟨false, true⟩ := by
    intro key set
    by_cases range : key ∈ middle.events ∧ second key ∧ (middle.flags key).pinned = false
    · exact two.dismissed key range.1 range.2.1 range.2.2
    · rw [two.flags key range]
      exact set
  refine ⟨?_, ?_, ?_, ?_⟩
  · intro key known within unpinned
    by_cases early : first key
    · exact flags key (one.dismissed key known early unpinned)
    · have kept := one.flags key fun range => early range.2.1
      apply two.dismissed key ((one.mem key).mpr known) (within.resolve_left early)
      rw [kept]
      exact unpinned
  · intro key outside
    have kept := one.flags key fun range => outside ⟨range.1, .inl range.2.1, range.2.2⟩
    rw [two.flags key, kept]
    rintro ⟨known, within, unpinned⟩
    rw [kept] at unpinned
    exact outside ⟨(one.mem key).mp known, .inr within, unpinned⟩
  · intro key within set
    by_cases late : second key
    · rw [two.scrubbed key late set]
      by_cases early : first key ∧ middle.flags key = ⟨false, true⟩
      · rw [one.scrubbed key early.1 early.2]
        cases store.events.lookup key <;> rfl
      · rw [one.rows key early]
    · have kept : after.flags key = middle.flags key := two.flags key fun range => late range.2.1
      rw [two.rows key fun scrubbed => late scrubbed.1]
      exact one.scrubbed key (within.resolve_right late) (kept ▸ set)
  · intro key untouched
    rw [two.rows key fun scrubbed => untouched ⟨.inr scrubbed.1, scrubbed.2⟩]
    exact one.rows key fun scrubbed => untouched ⟨.inl scrubbed.1, flags key scrubbed.2⟩

theorem cleared_hide (store : HistoryStore) (within : EventKey → Bool) :
    store.Cleared (store.hide within).1 fun key => within key = true := by
  refine ⟨?_, ?_, ?_, ?_⟩
  · intro key known inside unpinned
    rw [flags_hide]
    split
    · rfl
    · rename_i shown
      have already : (store.flags key).dismissed = true := by
        by_contra undismissed
        exact shown ⟨known, inside, unpinned, by simpa using undismissed⟩
      cases found : store.flags key with
      | mk => simp_all
  · intro key outside
    rw [flags_hide, if_neg]
    rintro ⟨known, inside, unpinned, -⟩
    exact outside ⟨known, inside, unpinned⟩
  · intro key inside set
    rw [lookup_hide, set]
    simp [inside]
  · intro key untouched
    have kept : (within key && !((store.hide within).1.flags key).pinned &&
        ((store.hide within).1.flags key).dismissed) = false := by
      cases found : (store.hide within).1.flags key with
      | mk pinned dismissed =>
        cases pinned <;> cases dismissed <;> simp_all
    rw [lookup_hide, kept]
    simp

/-- The boundary covers the event. -/
def Covers (boundary : ClearBoundary) (key : EventKey) : Prop :=
  ∃ maximum, boundary[key.1]? = some maximum ∧ key.2 ≤ maximum.toNat

/-- A clear that is new hides what it covers, and is remembered. -/
structure ClearedThrough (store after : HistoryStore) (operationId : String)
    (boundary : ClearBoundary) : Prop extends store.Cleared after (Covers boundary) where
  fresh : store.clearOperations.lookup operationId = none
  registered : ∀ other, other ∈ after.clearOperations ↔
    other = operationId ∨ other ∈ store.clearOperations
  boundaries : ∀ other device, after.clearBoundaries.lookup (other, device) =
    if other = operationId ∧ boundary[device]?.isSome then boundary[device]?.map (·.toNat)
    else store.clearBoundaries.lookup (other, device)
  fits : ∀ (device : String) (maximum : UInt64), boundary[device]? = some maximum →
    maximum.toNat ≤ i64Max

variable {operationId : String} {affected : ℕ} {ties : IterOrder EventKey}

theorem clearDevices_eq_ok {entries : List (String × UInt64)} {total : ℕ}
    (distinct : entries.Pairwise fun left right => left.1 ≠ right.1)
    (ran : entries.foldlM (clearDevice operationId) (store, affected) = .ok (after, total)) :
    store.Cleared after (fun key => ∃ entry ∈ entries, entry.1 = key.1 ∧ key.2 ≤ entry.2.toNat) ∧
      after.clearOperations = store.clearOperations ∧
      (∀ entry ∈ entries, entry.2.toNat ≤ i64Max ∧
        after.clearBoundaries.lookup (operationId, entry.1) = some (entry.2.toNat : ℤ)) ∧
      (∀ other device, ¬(other = operationId ∧ ∃ entry ∈ entries, entry.1 = device) →
        after.clearBoundaries.lookup (other, device) =
          store.clearBoundaries.lookup (other, device)) := by
  induction entries generalizing store affected with
  | nil =>
    simp only [List.foldlM_nil, pure_ok, Prod.mk.injEq] at ran
    rcases ran with ⟨rfl, -⟩
    refine ⟨(Cleared.refl store).congr (by simp), rfl, by simp, by simp⟩
  | cons entry _ ih =>
    rcases List.pairwise_cons.mp distinct with ⟨first, others⟩
    simp only [List.foldlM_cons, bind_ok, clearDevice, sequenceToSql_eq_ok, pure_ok] at ran
    rcases ran with ⟨_, ⟨_, ⟨small, rfl⟩, rfl⟩, ran⟩
    rcases ih others ran with ⟨cleared, operations, bounded, kept⟩
    have one := cleared_hide
      { store with
        clearBoundaries :=
          store.clearBoundaries.insert (operationId, entry.1) (entry.2.toNat : ℤ) }
      fun key => key.1 = entry.1 && key.2 ≤ (entry.2.toNat : ℤ)
    have here : Cleared store _ _ := ⟨one.dismissed, one.flags, one.scrubbed, one.rows⟩
    refine ⟨?_, operations, ?_, ?_⟩
    · apply (here.trans cleared).congr
      intro _
      simp only [Bool.and_eq_true, decide_eq_true_eq, List.exists_mem_cons_iff]
      rw [eq_comm]
    · intro other member
      rcases List.mem_cons.mp member with rfl | later
      · refine ⟨small, ?_⟩
        rw [kept]
        · exact lookup_insert _
        · rintro ⟨-, other, member, same⟩
          exact first other member same.symm
      · exact bounded other later
    · intro _ _ outside
      rw [kept]
      · apply (lookup_insert store.clearBoundaries _ _ _).trans
        rw [if_neg]
        intro same
        cases same
        exact outside ⟨rfl, entry, .head _, rfl⟩
      · rintro ⟨same, later, member, found⟩
        exact outside ⟨same, later, .tail _ member, found⟩

theorem clearUnpinnedThrough_eq_ok {boundary : ClearBoundary}
    (cleared : store.clearUnpinnedThrough env operationId boundary = .ok (after, affected)) :
    after = store ∨ store.ClearedThrough after operationId boundary := by
  simp only [clearUnpinnedThrough, bind_ok] at cleared
  rcases cleared with ⟨_, -, _, -, cleared⟩
  cases found : store.clearOperations.lookup operationId with
  | some =>
    simp only [found, guard_bind_ok, pure_ok, Prod.mk.injEq] at cleared
    exact .inl cleared.2.1.symm
  | none =>
    simp only [found, bind_ok, pure_ok] at cleared
    rcases cleared with ⟨⟨_, _⟩, ran, same⟩
    cases same
    have distinct : boundary.toList.Pairwise fun left right => left.1 ≠ right.1 :=
      Std.ExtTreeMap.distinct_keys_toList.imp fun different same => different (by simp [same])
    rcases clearDevices_eq_ok distinct ran with ⟨cleared, operations, bounded, kept⟩
    have listed : ∀ (device : String) (maximum : UInt64),
        (device, maximum) ∈ boundary.toList ↔ boundary[device]? = some maximum :=
      fun device maximum => Std.ExtTreeMap.mem_toList_iff_getElem?_eq_some
    have range : ∀ key : EventKey,
        (∃ entry ∈ boundary.toList, entry.1 = key.1 ∧ key.2 ≤ entry.2.toNat) ↔
          Covers boundary key := by
      intro key
      constructor
      · rintro ⟨⟨device, maximum⟩, member, rfl, below⟩
        exact ⟨maximum, (listed _ _).mp member, below⟩
      · rintro ⟨maximum, found, below⟩
        exact ⟨(key.1, maximum), (listed _ _).mpr found, rfl, below⟩
    have clearing := cleared.congr range
    refine .inr ⟨⟨clearing.dismissed, clearing.flags, clearing.scrubbed, clearing.rows⟩, found,
      ?_, ?_, ?_⟩
    · intro other
      rw [← operations]
      exact mem_insert _
    · intro _ device
      split
      · rename_i inside
        rcases Option.isSome_iff_exists.mp inside.2 with ⟨maximum, found⟩
        rw [found, inside.1]
        exact (bounded (device, maximum) ((listed _ _).mpr found)).2
      · rename_i outside
        apply kept
        rintro ⟨same, ⟨_, maximum⟩, member, rfl⟩
        exact outside ⟨same, by simp [(listed _ _).mp member]⟩
    · intro device maximum found
      exact (bounded (device, maximum) ((listed _ _).mpr found)).1

/-- The event is valid and new to the store. -/
structure Admits (store : HistoryStore) (event : ImportedHistoryEvent) : Prop where
  valid : validateEvent event = .ok ()
  shown : (store.flags event.eventId.key).dismissed = false
  fresh : store.events.lookup event.eventId.key = none
  uncovered : store.coveredByClear event.eventId.key = false

abbrev withEvent (env : Environment) (store : HistoryStore) (event : ImportedHistoryEvent) :
    HistoryStore :=
  store.insertEvent env event event.eventId.key

theorem small_of_valid (valid : validateEvent event = .ok ()) :
    event.eventId.originSequence.toNat ≤ i64Max := by
  simp only [validateEvent, bind_ok, sequenceToSql_eq_ok] at valid
  rcases valid with ⟨_, -, _, -, _, ⟨small, -⟩, -⟩
  exact small

theorem mergeImported_eq_ok {outcome : MergeOutcome}
    (merged : store.mergeImported env ties event = .ok (after, outcome)) :
    (after = store ∧ outcome ≠ .inserted) ∨
      (store.Admits event ∧ outcome = .inserted ∧
        after = (store.withEvent env event).pruneUnpinned ties) := by
  simp only [mergeImported, bind_ok, sequenceToSql_eq_ok] at merged
  rcases merged with ⟨_, valid, _, ⟨_, rfl⟩, merged⟩
  have keyed : (event.eventId.originDeviceId, (event.eventId.originSequence.toNat : ℤ)) =
      event.eventId.key := rfl
  rw [keyed] at merged
  split at merged
  · simp only [pure_ok, Prod.mk.injEq] at merged
    exact .inl ⟨merged.1.symm, by simp [← merged.2]⟩
  · rename_i shown
    cases found : store.events.lookup event.eventId.key with
    | some =>
      simp only [found, bind_ok, guard_bind_ok, pure_ok, Prod.mk.injEq] at merged
      rcases merged with ⟨_, -, -, rfl, rfl⟩
      exact .inl ⟨rfl, by simp⟩
    | none =>
      simp only [found] at merged
      split at merged
      · simp only [pure_ok, Prod.mk.injEq] at merged
        exact .inl ⟨merged.1.symm, by simp [← merged.2]⟩
      · rename_i uncovered
        simp only [pure_ok, Prod.mk.injEq] at merged
        refine .inr ⟨⟨valid, by simpa using shown, found, by simpa using uncovered⟩,
          merged.2.symm, merged.1.symm⟩

theorem Admits.mergeImported (admits : store.Admits event) (ties : IterOrder EventKey) :
    store.mergeImported env ties event =
      .ok ((store.withEvent env event).pruneUnpinned ties, .inserted) := by
  have small := small_of_valid admits.valid
  have sequence : sequenceToSql event.eventId.originSequence =
      .ok (event.eventId.originSequence.toNat : ℤ) := sequenceToSql_eq_ok.mpr ⟨small, rfl⟩
  have keyed : (event.eventId.originDeviceId, (event.eventId.originSequence.toNat : ℤ)) =
      event.eventId.key := rfl
  simp only [HistoryStore.mergeImported, bind_ok]
  refine ⟨(), admits.valid, _, sequence, ?_⟩
  rw [keyed]
  simp only [admits.shown, admits.fresh, admits.uncovered]
  rfl

def Call.merging : Call → Option (IterOrder EventKey × ImportedHistoryEvent)
  | .record ties (.ok createdAtMs) kind content origin =>
    if kind = content.kind then
      some (ties, { eventId := origin.eventId, createdAtMs, originLabel := origin.label, content })
    else
      none
  | .mergeImported ties event => some (ties, event)
  | _ => none

/-- What a call does to the store. -/
inductive Effect (env : Environment) (store : HistoryStore) (call : Call) : HistoryStore → Prop
  | none : Effect env store call store
  | insertion {ties : IterOrder EventKey} {event : ImportedHistoryEvent}
      (merging : call.merging = some (ties, event)) (admits : store.Admits event) :
      Effect env store call ((store.withEvent env event).pruneUnpinned ties)
  | pin {eventId : HistoryEventId} {pinned : Bool} (isPin : call = .setPinned eventId pinned)
      (known : eventId.key ∈ store.events) :
      Effect env store call (store.withPin eventId.key pinned)
  | clear {after : HistoryStore} (isClear : call = .clearUnpinned)
    (cleared : store.Cleared after fun _ => True)
    (boundaries : after.clearBoundaries = store.clearBoundaries)
    (operations : after.clearOperations = store.clearOperations) : Effect env store call after
  | clearThrough {after : HistoryStore} {operationId : String} {boundary : ClearBoundary}
      (isClear : call = .clearUnpinnedThrough operationId boundary)
      (cleared : store.ClearedThrough after operationId boundary) : Effect env store call after

theorem perform_effect (env : Environment) (store : HistoryStore) (call : Call) :
    Effect env store call (store.perform env call) := by
  cases call with
  | record ties now kind content origin =>
    simp only [perform]
    cases merged : store.record env ties now kind content origin with
    | error => exact .none
    | ok result =>
      rcases result with ⟨after, outcome⟩
      simp only [record, guard_bind_ok, bind_ok] at merged
      rcases merged with ⟨_, _, rfl, merged⟩
      rcases mergeImported_eq_ok merged with ⟨rfl, -⟩ | ⟨admits, -, rfl⟩
      · exact .none
      · exact .insertion (by simp_all [Call.merging]) admits
  | mergeImported ties event =>
    simp only [perform]
    cases merged : store.mergeImported env ties event with
    | error => exact .none
    | ok result =>
      rcases result with ⟨after, _⟩
      rcases mergeImported_eq_ok merged with ⟨rfl, -⟩ | ⟨admits, -, rfl⟩
      · exact .none
      · exact .insertion rfl admits
  | setPinned eventId pinned =>
    simp only [perform]
    cases done : store.setPinned eventId pinned with
    | error => exact .none
    | ok result =>
      rcases result with ⟨after, _⟩
      simp only [setPinned, bind_ok, sequenceToSql_eq_ok] at done
      rcases done with ⟨_, ⟨-, rfl⟩, done⟩
      split at done
      · rename_i known
        simp only [pure_ok, Prod.mk.injEq] at done
        rw [settle, ← done.1]
        exact .pin rfl known
      · simp only [pure_ok, Prod.mk.injEq] at done
        rw [settle, ← done.1]
        exact .none
  | clearUnpinned =>
    refine .clear rfl ((cleared_hide store fun _ => true).congr (by simp)) rfl rfl
  | clearUnpinnedThrough operationId boundary =>
    simp only [perform]
    cases cleared : store.clearUnpinnedThrough env operationId boundary with
    | error => exact .none
    | ok result =>
      rcases clearUnpinnedThrough_eq_ok cleared with rfl | cleared
      · exact .none
      · exact .clearThrough rfl cleared

theorem perform_of_merging {call : Call} (merging : call.merging = some (ties, event)) :
    store.perform env call = store.settle (store.mergeImported env ties event) := by
  cases call with
  | record _ now =>
    cases now with
    | error => cases merging
    | ok =>
      simp only [Call.merging] at merging
      split at merging
      · rename_i same
        cases merging
        simp [perform, record, same, bind, Except.bind]
      · cases merging
  | mergeImported =>
    cases merging
    rfl
  | setPinned | clearUnpinned | clearUnpinnedThrough => cases merging

end HistoryStore

end Syntra.Store
