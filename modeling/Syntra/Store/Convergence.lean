import Syntra.Store.Sequences

/-!
# Convergence

Stores that are told the same events and clears show the same history, in whatever order and however
often they are told. What a store has been told is two sets (`Knowledge`), which it reflects
(`Reflects`), and of which the queries are functions.
-/

namespace Syntra.Store

open ByteFormat Proto Tables StateMachine AList List

namespace HistoryStore

variable {env : Environment} {store : HistoryStore}

/-- A clear operation that the store accepts when it has not seen it before. -/
structure ValidClear (operationId : String) (boundary : ClearBoundary) : Prop where
  operation : validateString "clear operation id" operationId maxOperationIdBytes = .ok ()
  devices : boundary.keys.forM (fun device =>
    validateString "boundary device id" device maxDeviceIdBytes) = .ok ()
  fits : ∀ (device : String) (maximum : UInt64), boundary[device]? = some maximum →
    maximum.toNat ≤ i64Max

/-- The events and clears that a store has got. -/
structure Knowledge where
  events : Set ImportedHistoryEvent
  clears : Set (String × ClearBoundary)

namespace Knowledge

def Clears (known : Knowledge) (key : EventKey) : Prop :=
  ∃ clear ∈ known.clears, Covers clear.2 key

/-- Events are told apart by their ids and clears by theirs, and the events are at most as many as
a store keeps. -/
structure Coherent (known : Knowledge) : Prop where
  events : ∀ first ∈ known.events, ∀ second ∈ known.events,
    first.eventId = second.eventId → first = second
  clears : ∀ first ∈ known.clears, ∀ second ∈ known.clears, first.1 = second.1 → first = second
  few : ∃ pool : List ImportedHistoryEvent, pool.length ≤ maxUnpinnedRecords ∧
    ∀ event ∈ known.events, event ∈ pool

theorem Coherent.mono {less more : Knowledge} (coherent : more.Coherent)
    (events : less.events ⊆ more.events) (clears : less.clears ⊆ more.clears) : less.Coherent := by
  refine ⟨?_, ?_, ?_⟩
  · intro first known second alsoKnown
    exact coherent.events first (events known) second (events alsoKnown)
  · intro first known second alsoKnown
    exact coherent.clears first (clears known) second (clears alsoKnown)
  · rcases coherent.few with ⟨pool, few, all⟩
    exact ⟨pool, few, fun event known => all event (events known)⟩

/-- What calls tell a store. -/
def of (calls : List Call) : Knowledge where
  events := { event | (∃ ties, .mergeImported ties event ∈ calls) ∧ validateEvent event = .ok () }
  clears := { clear | .clearUnpinnedThrough clear.1 clear.2 ∈ calls ∧ ValidClear clear.1 clear.2 }

end Knowledge

/-- The store is what its knowledge determines. -/
structure Reflects (env : Environment) (known : Knowledge) (store : HistoryStore) : Prop
    extends store.Sound env (· ∈ known.events), store.Referenced where
  kept : ∀ event ∈ known.events, ¬known.Clears event.eventId.key → event.eventId.key ∈ store.events
  dismissed : ∀ key ∈ store.events, known.Clears key → store.flags key = ⟨false, true⟩
  shown : ∀ key ∈ store.events, ¬known.Clears key → store.flags key = ⟨false, false⟩
  cleared : ∀ operationId, operationId ∈ store.clearOperations ↔
    ∃ boundary, (operationId, boundary) ∈ known.clears
  bounded : ∀ operationId device maximum,
    store.clearBoundaries.lookup (operationId, device) = some maximum ↔
      ∃ boundary, (operationId, boundary) ∈ known.clears ∧
        boundary[device]?.map (fun bound => (bound.toNat : ℤ)) = some maximum

variable {known : Knowledge}

theorem Reflects.coveredByClear_iff (reflects : store.Reflects env known) (key : EventKey) :
    store.coveredByClear key = true ↔ known.Clears key := by
  rw [HistoryStore.coveredByClear_iff]
  constructor
  · rintro ⟨operationId, _, found, below⟩
    rcases (reflects.bounded _ _ _).mp found with ⟨boundary, made, bound⟩
    rcases Option.map_eq_some_iff.mp bound with ⟨limit, listed, rfl⟩
    exact ⟨(operationId, boundary), made, limit, listed, below⟩
  · rintro ⟨⟨operationId, boundary⟩, made, limit, found, below⟩
    refine ⟨operationId, limit.toNat, ?_, below⟩
    exact (reflects.bounded _ _ _).mpr ⟨boundary, made, by rw [found]; rfl⟩

theorem Reflects.unpinned_le (reflects : store.Reflects env known) (coherent : known.Coherent) :
    store.unpinned.length ≤ maxUnpinnedRecords := by
  rcases coherent.few with ⟨pool, few, all⟩
  have within : ∀ key ∈ store.unpinned, key ∈ pool.map fun event => event.eventId.key := by
    intro key member
    have present := mem_keys.mpr (mem_filter.mp member).1
    rcases (mem_iff_lookup store.events key).mp present with ⟨row, found⟩
    rcases reflects.rows key row found with ⟨event, was, keyed, -⟩
    exact mem_map.mpr ⟨event, all event was, keyed⟩
  have length := (store.nodup_unpinned.subperm within).length_le
  rw [length_map] at length
  exact length.trans few

theorem reflects_new : new.Reflects env ⟨∅, ∅⟩ := by
  refine ⟨sound_new, referenced_new, ?_, ?_, ?_, ?_, ?_⟩
  · intro _ known
    exact known.elim
  · intro key present
    exact absurd present (notMem_empty key)
  · intro key present
    exact absurd present (notMem_empty key)
  · intro operationId
    constructor
    · intro present
      exact absurd present (notMem_empty operationId)
    · rintro ⟨_, made⟩
      exact made.elim
  · intro _ _ _
    constructor
    · intro found
      cases found
    · rintro ⟨_, made, -⟩
      exact made.elim

variable {event : ImportedHistoryEvent} {operationId : String} {boundary : ClearBoundary}
  {calls : List Call}

theorem settle_of_not_admits (refused : ¬store.Admits event) (ties : IterOrder EventKey) :
    store.settle (store.mergeImported env ties event) = store := by
  cases merged : store.mergeImported env ties event with
  | error => rfl
  | ok result =>
    rcases mergeImported_eq_ok merged with ⟨same, -⟩ | ⟨admits, -⟩
    · exact same
    · exact absurd admits refused

/-- An event more, in the two sets. -/
def Knowledge.withEvent (known : Knowledge) (event : ImportedHistoryEvent) : Knowledge :=
  { known with events := insert event known.events }

theorem Reflects.mergeImported (reflects : store.Reflects env known)
    (valid : validateEvent event = .ok ()) (coherent : (known.withEvent event).Coherent)
    (ties : IterOrder EventKey) :
    (store.settle (store.mergeImported env ties event)).Reflects env (known.withEvent event) := by
  have more : ∀ other, other ∈ known.events → other ∈ (known.withEvent event).events :=
    fun other was => .inr was
  by_cases admits : store.Admits event
  · have uncleared : ¬known.Clears event.eventId.key := by
      rw [← reflects.coveredByClear_iff]
      simp [admits.uncovered]
    have absent : event.eventId.key ∉ store.events := lookup_eq_none.mp admits.fresh
    have inserted : (store.withEvent env event).Reflects env (known.withEvent event) := by
      refine ⟨(reflects.toSound.mono more).insertEvent admits (.inl rfl), ⟨?_, reflects.operations⟩,
        ?_, ?_, ?_, reflects.cleared, reflects.bounded⟩
      · intro key missing
        exact reflects.events key fun present => missing (mem_withEvent.mpr (.inr present))
      · rintro other (rfl | was) uncovered
        · exact mem_withEvent.mpr (.inl rfl)
        · exact mem_withEvent.mpr (.inr (reflects.kept other was uncovered))
      · intro key present covered
        rcases mem_withEvent.mp present with rfl | present
        · exact absurd covered uncleared
        · exact reflects.dismissed key present covered
      · intro key present uncovered
        rcases mem_withEvent.mp present with rfl | present
        · exact reflects.events _ absent
        · exact reflects.shown key present uncovered
    have few := inserted.unpinned_le coherent
    rw [admits.mergeImported, settle]
    have kept : ∀ key, ((store.withEvent env event).pruneUnpinned ties).events.lookup key =
        (store.withEvent env event).events.lookup key ∧
          ((store.withEvent env event).pruneUnpinned ties).flags key =
            (store.withEvent env event).flags key := pruneUnpinned_of_few few
    have members : ∀ key, key ∈ ((store.withEvent env event).pruneUnpinned ties).events ↔
        key ∈ (store.withEvent env event).events := by
      intro key
      rw [← lookup_isSome, (kept key).1, lookup_isSome]
    refine ⟨inserted.toSound.pruneUnpinned ties, ⟨?_, inserted.operations⟩, ?_, ?_, ?_,
      inserted.cleared, inserted.bounded⟩
    · intro key missing
      rw [(kept key).2]
      exact inserted.events key fun present => missing ((members key).mpr present)
    · intro other was uncovered
      exact (members _).mpr (inserted.kept other was uncovered)
    · intro key present covered
      rw [(kept key).2]
      exact inserted.dismissed key ((members key).mp present) covered
    · intro key present uncovered
      rw [(kept key).2]
      exact inserted.shown key ((members key).mp present) uncovered
  · rw [settle_of_not_admits admits]
    refine ⟨reflects.toSound.mono more, reflects.toReferenced, ?_, reflects.dismissed,
      reflects.shown, reflects.cleared, reflects.bounded⟩
    rintro other (rfl | was) uncovered
    · -- an event that is neither known nor covered would have been taken
      by_contra absent
      apply admits
      refine ⟨valid, ?_, lookup_eq_none.mpr absent, ?_⟩
      · rw [reflects.events _ absent]
      · rw [Bool.eq_false_iff, ne_eq, reflects.coveredByClear_iff]
        exact uncovered
    · exact reflects.kept other was uncovered

theorem exists_clearDevices {entries : List (String × UInt64)}
    (fits : ∀ entry ∈ entries, entry.2.toNat ≤ i64Max) (progress : HistoryStore × ℕ) :
    ∃ result, entries.foldlM (clearDevice operationId) progress = .ok result := by
  induction entries generalizing progress with
  | nil => exact ⟨progress, rfl⟩
  | cons entry _ ih =>
    have sequence : sequenceToSql entry.2 = .ok (entry.2.toNat : ℤ) :=
      sequenceToSql_eq_ok.mpr ⟨fits entry (.head _), rfl⟩
    simp only [foldlM_cons, clearDevice, sequence]
    exact ih (fun other member => fits other (.tail _ member)) _

theorem settle_clearUnpinnedThrough (env : Environment) (boundary : ClearBoundary)
    (fresh : operationId ∉ store.clearOperations) :
    (ValidClear operationId boundary ∧ store.ClearedThrough
      (store.settle (store.clearUnpinnedThrough env operationId boundary)) operationId boundary) ∨
    (¬ValidClear operationId boundary ∧
      store.settle (store.clearUnpinnedThrough env operationId boundary) = store) := by
  have unseen := lookup_eq_none.mpr fresh
  cases cleared : store.clearUnpinnedThrough env operationId boundary with
  | error =>
    right
    refine ⟨?_, rfl⟩
    intro valid
    have entries : ∀ entry ∈ boundary.toList, entry.2.toNat ≤ i64Max := by
      intro entry member
      exact valid.fits entry.1 entry.2 (Std.ExtTreeMap.mem_toList_iff_getElem?_eq_some.mp member)
    have loop : ∃ result, boundary.toList.foldlM (clearDevice operationId) (store, 0) =
        .ok result := exists_clearDevices entries (store, 0)
    rcases loop with ⟨result, ran⟩
    have succeeds : ∃ result, store.clearUnpinnedThrough env operationId boundary = .ok result := by
      simp only [clearUnpinnedThrough, unseen, valid.operation, valid.devices, ran]
      exact ⟨_, rfl⟩
    rcases succeeds with ⟨result, succeeds⟩
    rw [cleared] at succeeds
    cases succeeds
  | ok result =>
    left
    rcases result with ⟨after, _⟩
    have through : store.ClearedThrough after operationId boundary := by
      rcases clearUnpinnedThrough_eq_ok cleared with rfl | through
      · -- the operation would be registered
        simp only [clearUnpinnedThrough, unseen, bind_ok, pure_ok, Prod.mk.injEq] at cleared
        rcases cleared with ⟨_, -, _, -, ⟨_, _⟩, -, same, -⟩
        refine absurd ?_ fresh
        rw [← same]
        exact mem_insert _ |>.mpr (.inl rfl)
      · exact through
    refine ⟨⟨?_, ?_, through.fits⟩, through⟩
    · simp only [clearUnpinnedThrough, bind_ok] at cleared
      rcases cleared with ⟨_, operation, -⟩
      exact operation
    · simp only [clearUnpinnedThrough, bind_ok] at cleared
      rcases cleared with ⟨_, -, _, devices, -⟩
      exact devices

theorem settle_of_registered (known : operationId ∈ store.clearOperations) :
    store.settle (store.clearUnpinnedThrough env operationId boundary) = store := by
  cases cleared : store.clearUnpinnedThrough env operationId boundary with
  | error => rfl
  | ok result =>
    rcases clearUnpinnedThrough_eq_ok cleared with same | through
    · exact same
    · rw [← lookup_isSome, through.fresh] at known
      cases known

def Knowledge.withClear (known : Knowledge) (operationId : String) (boundary : ClearBoundary) :
    Knowledge :=
  { known with clears := insert (operationId, boundary) known.clears }

theorem clears_withClear {key : EventKey} :
    (known.withClear operationId boundary).Clears key ↔ Covers boundary key ∨ known.Clears key := by
  constructor
  · rintro ⟨clear, rfl | made, covers⟩
    · exact .inl covers
    · exact .inr ⟨clear, made, covers⟩
  · rintro (covers | ⟨clear, made, covers⟩)
    · exact ⟨(operationId, boundary), .inl rfl, covers⟩
    · exact ⟨clear, .inr made, covers⟩

theorem Reflects.clearedThrough (reflects : store.Reflects env known) {after : HistoryStore}
    (through : store.ClearedThrough after operationId boundary) (referenced : after.Referenced) :
    after.Reflects env (known.withClear operationId boundary) := by
  have fresh : ∀ other, (operationId, other) ∉ known.clears := by
    intro other made
    have registered := (reflects.cleared operationId).mpr ⟨other, made⟩
    rw [← lookup_isSome, through.fresh] at registered
    cases registered
  have unpinned : ∀ key ∈ store.events, (store.flags key).pinned = false := by
    intro key present
    by_cases covered : known.Clears key
    · rw [reflects.dismissed key present covered]
    · rw [reflects.shown key present covered]
  refine ⟨reflects.toSound.cleared through.toCleared, referenced, ?_, ?_, ?_, ?_, ?_⟩
  · intro event was uncovered
    rw [clears_withClear, not_or] at uncovered
    exact (through.mem _).mpr (reflects.kept event was uncovered.2)
  · intro key present covered
    have before := (through.mem key).mp present
    by_cases now : Covers boundary key
    · exact through.dismissed key before now (unpinned key before)
    · rw [through.flags key fun range => now range.2.1]
      exact reflects.dismissed key before ((clears_withClear.mp covered).resolve_left now)
  · intro key present uncovered
    have before := (through.mem key).mp present
    rw [clears_withClear, not_or] at uncovered
    rw [through.flags key fun range => uncovered.1 range.2.1]
    exact reflects.shown key before uncovered.2
  · intro other
    rw [through.registered, reflects.cleared]
    constructor
    · rintro (rfl | ⟨earlier, made⟩)
      · exact ⟨boundary, .inl rfl⟩
      · exact ⟨earlier, .inr made⟩
    · rintro ⟨earlier, same | made⟩
      · exact .inl (congrArg Prod.fst same)
      · exact .inr ⟨earlier, made⟩
  · intro other device _
    rw [through.boundaries]
    by_cases now : other = operationId
    · subst now
      have unbounded : store.clearBoundaries.lookup (other, device) = none := by
        cases found : store.clearBoundaries.lookup (other, device) with
        | none => rfl
        | some =>
          rcases (reflects.bounded _ _ _).mp found with ⟨earlier, made, -⟩
          exact absurd made (fresh earlier)
      constructor
      · intro found
        refine ⟨boundary, .inl rfl, ?_⟩
        split at found
        · exact found
        · rw [unbounded] at found
          cases found
      · rintro ⟨earlier, same | made, found⟩
        · cases same
          have bounded : boundary[device]?.isSome = true := by
            cases listed : boundary[device]? with
            | none =>
              rw [listed] at found
              cases found
            | some => rfl
          rw [if_pos ⟨rfl, bounded⟩]
          exact found
        · exact absurd made (fresh earlier)
    · rw [if_neg fun inside => now inside.1, reflects.bounded]
      constructor
      · rintro ⟨earlier, made, found⟩
        exact ⟨earlier, .inr made, found⟩
      · rintro ⟨earlier, same | made, found⟩
        · exact absurd (congrArg Prod.fst same) now
        · exact ⟨earlier, made, found⟩

/-- The calls bring just these events and clears. -/
structure Exchanges (events : List ImportedHistoryEvent) (clears : List (String × ClearBoundary))
    (calls : List Call) : Prop where
  only : ∀ call ∈ calls, (∃ ties, ∃ event ∈ events, call = .mergeImported ties event) ∨
    ∃ clear ∈ clears, call = .clearUnpinnedThrough clear.1 clear.2
  merged : ∀ event ∈ events, ∃ ties, .mergeImported ties event ∈ calls
  made : ∀ clear ∈ clears, .clearUnpinnedThrough clear.1 clear.2 ∈ calls

def Knowledge.ofAll (events : List ImportedHistoryEvent) (clears : List (String × ClearBoundary)) :
    Knowledge where
  events := { event | event ∈ events ∧ validateEvent event = .ok () }
  clears := { clear | clear ∈ clears ∧ ValidClear clear.1 clear.2 }

theorem Knowledge.ext {first second : Knowledge}
    (events : ∀ event, event ∈ first.events ↔ event ∈ second.events)
    (clears : ∀ clear, clear ∈ first.clears ↔ clear ∈ second.clears) : first = second := by
  rw [Knowledge.mk.injEq]
  exact ⟨Set.ext events, Set.ext clears⟩

variable {events : List ImportedHistoryEvent} {clears : List (String × ClearBoundary)}
  {ties : IterOrder EventKey} {other : HistoryStore}

theorem Exchanges.of_calls (exchanges : Exchanges events clears calls) :
    Knowledge.of calls = Knowledge.ofAll events clears := by
  apply Knowledge.ext
  · intro event
    constructor
    · rintro ⟨⟨_, called⟩, valid⟩
      rcases exchanges.only _ called with ⟨_, other, known, same⟩ | ⟨_, _, same⟩
      · cases same
        exact ⟨known, valid⟩
      · cases same
    · rintro ⟨known, valid⟩
      exact ⟨exchanges.merged event known, valid⟩
  · intro clear
    constructor
    · rintro ⟨called, valid⟩
      rcases exchanges.only _ called with ⟨_, _, _, same⟩ | ⟨other, known, same⟩
      · cases same
      · rcases clear with ⟨_, _⟩
        cases same
        exact ⟨known, valid⟩
    · rintro ⟨known, valid⟩
      exact ⟨exchanges.made clear known, valid⟩

theorem coherent_ofAll (few : events.length ≤ maxUnpinnedRecords)
    (identified : (events.map (·.eventId)).Nodup) (operations : (clears.map (·.1)).Nodup) :
    (Knowledge.ofAll events clears).Coherent := by
  refine ⟨?_, ?_, events, few, fun _ known => known.1⟩
  · intro first known second alsoKnown same
    exact inj_on_of_nodup_map identified known.1 alsoKnown.1 same
  · intro _ known _ alsoKnown same
    exact inj_on_of_nodup_map operations known.1 alsoKnown.1 same

def Call.IsExchange : Call → Prop
  | .mergeImported _ _ => True
  | .clearUnpinnedThrough _ _ => True
  | _ => False

theorem Knowledge.of_merge (valid : validateEvent event = .ok ()) :
    of (calls ++ [.mergeImported ties event]) = (of calls).withEvent event := by
  apply Knowledge.ext
  · intro _
    simp only [of, withEvent, mem_append, mem_singleton, Set.mem_ofPred_eq, Set.mem_insert_iff]
    constructor
    · rintro ⟨⟨otherTies, called | same⟩, otherValid⟩
      · exact .inr ⟨⟨otherTies, called⟩, otherValid⟩
      · cases same
        exact .inl rfl
    · rintro (rfl | ⟨⟨otherTies, called⟩, otherValid⟩)
      · exact ⟨⟨ties, .inr rfl⟩, valid⟩
      · exact ⟨⟨otherTies, .inl called⟩, otherValid⟩
  · intro _
    simp [of, withEvent]

theorem Knowledge.of_refused (refused : validateEvent event ≠ .ok ()) :
    of (calls ++ [.mergeImported ties event]) = of calls := by
  apply Knowledge.ext
  · intro _
    simp only [of, mem_append, mem_singleton, Set.mem_ofPred_eq]
    constructor
    · rintro ⟨⟨otherTies, called | same⟩, valid⟩
      · exact ⟨⟨otherTies, called⟩, valid⟩
      · cases same
        exact absurd valid refused
    · rintro ⟨⟨otherTies, called⟩, valid⟩
      exact ⟨⟨otherTies, .inl called⟩, valid⟩
  · intro _
    simp [of]

theorem Knowledge.of_clear (valid : ValidClear operationId boundary) :
    of (calls ++ [.clearUnpinnedThrough operationId boundary]) =
      (of calls).withClear operationId boundary := by
  apply Knowledge.ext
  · intro _
    simp [of, withClear]
  · rintro ⟨_, _⟩
    simp only [of, withClear, List.mem_append, List.mem_singleton, Set.mem_ofPred_eq,
      Set.mem_insert_iff, Call.clearUnpinnedThrough.injEq, Prod.mk.injEq]
    constructor
    · rintro ⟨called | same, otherValid⟩
      · exact .inr ⟨called, otherValid⟩
      · exact .inl same
    · rintro (⟨rfl, rfl⟩ | ⟨called, otherValid⟩)
      · exact ⟨.inr ⟨rfl, rfl⟩, valid⟩
      · exact ⟨.inl called, otherValid⟩

theorem Knowledge.of_invalidClear (invalid : ¬ValidClear operationId boundary) :
    of (calls ++ [.clearUnpinnedThrough operationId boundary]) = of calls := by
  apply Knowledge.ext
  · intro _
    simp [of]
  · rintro ⟨_, _⟩
    simp only [of, mem_append, mem_singleton, Set.mem_ofPred_eq, Call.clearUnpinnedThrough.injEq]
    constructor
    · rintro ⟨called | ⟨rfl, rfl⟩, valid⟩
      · exact ⟨called, valid⟩
      · exact absurd valid invalid
    · rintro ⟨called, valid⟩
      exact ⟨.inl called, valid⟩

theorem reflects_of_calls (exchanges : ∀ call ∈ calls, call.IsExchange)
    (coherent : (Knowledge.of calls).Coherent) :
    (afterCalls env calls).Reflects env (.of calls) := by
  induction calls using reverseRecOn with
  | nil =>
    have nothing : Knowledge.of [] = ⟨∅, ∅⟩ := by
      apply Knowledge.ext <;> simp [Knowledge.of]
    rw [nothing]
    exact reflects_new
  | append_singleton calls call ih =>
    have earlier : (Knowledge.of calls).Coherent := by
      apply coherent.mono
      · rintro event ⟨⟨ties, called⟩, valid⟩
        exact ⟨⟨ties, mem_append_left _ called⟩, valid⟩
      · rintro clear ⟨called, valid⟩
        exact ⟨mem_append_left _ called, valid⟩
    have reflects := ih (fun other member => exchanges other (mem_append_left _ member)) earlier
    have referenced : (afterCalls env (calls ++ [call])).Referenced := by
      rw [afterCalls_append]
      exact reflects.toReferenced.effect (perform_effect env _ call)
    have exchange : call.IsExchange := exchanges call (by simp)
    rw [afterCalls_append] at referenced ⊢
    cases call with
    | mergeImported ties event =>
      by_cases valid : validateEvent event = .ok ()
      · rw [Knowledge.of_merge valid] at coherent ⊢
        exact reflects.mergeImported valid coherent ties
      · rw [Knowledge.of_refused valid, perform]
        rw [settle_of_not_admits fun admits => valid admits.valid]
        exact reflects
    | clearUnpinnedThrough operationId boundary =>
      by_cases known : operationId ∈ (afterCalls env calls).clearOperations
      · rw [perform, settle_of_registered known]
        by_cases valid : ValidClear operationId boundary
        · -- the operation was made before, with the same boundary
          rcases (reflects.cleared operationId).mp known with ⟨before, made⟩
          have now : (operationId, boundary) ∈
              (Knowledge.of (calls ++ [.clearUnpinnedThrough operationId boundary])).clears :=
            ⟨by simp, valid⟩
          have earlierClear : (operationId, before) ∈
              (Knowledge.of (calls ++ [.clearUnpinnedThrough operationId boundary])).clears :=
            ⟨mem_append_left _ made.1, made.2⟩
          have same := coherent.clears _ now _ earlierClear rfl
          cases same
          have unchanged : (Knowledge.of calls).withClear operationId boundary = .of calls := by
            apply Knowledge.ext
            · intro _
              rfl
            · intro _
              constructor
              · rintro (rfl | was)
                · exact made
                · exact was
              · exact .inr
          rw [Knowledge.of_clear valid, unchanged]
          exact reflects
        · rw [Knowledge.of_invalidClear valid]
          exact reflects
      · rcases settle_clearUnpinnedThrough env boundary known with
          ⟨valid, through⟩ | ⟨invalid, same⟩
        · rw [Knowledge.of_clear valid]
          exact reflects.clearedThrough through referenced
        · rw [Knowledge.of_invalidClear invalid, perform, same]
          exact reflects
    | record | setPinned | clearUnpinned => cases exchange

theorem Reflects.mem_visible (reflects : store.Reflects env known) (coherent : known.Coherent)
    (visible : VisibleRow) :
    visible ∈ store.visible ↔ ∃ event ∈ known.events, ¬known.Clears event.eventId.key ∧
      visible = ⟨event.eventId.key, encodeEvent env event, false⟩ := by
  rw [HistoryStore.mem_visible]
  constructor
  · rintro ⟨found, flags⟩
    have present := (mem_iff_lookup store.events visible.key).mpr ⟨_, found⟩
    rcases reflects.rows _ _ found with ⟨event, was, keyed, row⟩
    have uncovered : ¬known.Clears visible.key := by
      intro covered
      rw [reflects.dismissed _ present covered, Flags.mk.injEq] at flags
      cases flags.2
    rw [reflects.shown _ present uncovered] at flags row
    refine ⟨event, was, keyed ▸ uncovered, ?_⟩
    rcases visible with ⟨_, _, _⟩
    simp only [Flags.mk.injEq] at flags
    simp only at keyed row
    rw [row, keyed, ← flags.1]
    rfl
  · rintro ⟨event, was, uncovered, rfl⟩
    have present := reflects.kept event was uncovered
    rcases (mem_iff_lookup store.events _).mp present with ⟨_, found⟩
    rcases reflects.rows _ _ found with ⟨other, alsoWas, keyed, same⟩
    have equal := coherent.events other alsoWas event was (HistoryEventId.key_injective keyed)
    have flags := reflects.shown _ present uncovered
    rw [flags, equal] at same
    rw [found, same]
    exact ⟨rfl, flags⟩

theorem nodup_visible (store : HistoryStore) : store.visible.Nodup := by
  apply Nodup.filterMap _ store.events.nodupKeys.nodup
  rintro ⟨_, _⟩ ⟨_, _⟩ _ first second
  split at first
  · cases first
  · split at second
    · cases second
    · cases first
      cases second
      rfl

theorem visible_unique {left right : VisibleRow} (leftShown : left ∈ store.visible)
    (rightShown : right ∈ store.visible) (keyed : left.key = right.key) : left = right := by
  rw [HistoryStore.mem_visible] at leftShown rightShown
  rcases left with ⟨_, _, _⟩
  cases keyed
  have rows := leftShown.1.symm.trans rightShown.1
  have flags := leftShown.2.symm.trans rightShown.2
  cases rows
  cases flags
  rfl

theorem sorted_eq_of_perm {ι : Type} [LinearOrder ι] {order : VisibleRow → ι}
    (separates : ∀ left right : VisibleRow, order left = order right → left.key = right.key)
    (same : store.visible.Perm other.visible) :
    (store.visible.insertionSort fun left right => order left ≤ order right) =
      other.visible.insertionSort fun left right => order left ≤ order right := by
  apply Perm.eq_of_pairwise _ (pairwise_insertionSort _ _) (pairwise_insertionSort _ _)
  · exact (perm_insertionSort _ _).trans (same.trans (perm_insertionSort _ _).symm)
  · intro left right inFirst inSecond below above
    rw [mem_insertionSort] at inFirst
    rw [mem_insertionSort, ← same.mem_iff] at inSecond
    exact visible_unique inFirst inSecond (separates left right (le_antisymm below above))

theorem exportKey_separates (left right : VisibleRow) (same : left.exportKey = right.exportKey) :
    left.key = right.key := by
  simp only [VisibleRow.exportKey, EmbeddingLike.apply_eq_iff_eq, Prod.mk.injEq, neg_inj] at same
  exact Prod.ext same.2.1 same.2.2

theorem listKey_separates (left right : VisibleRow) (same : left.listKey = right.listKey) :
    left.key = right.key := by
  apply exportKey_separates
  simp only [VisibleRow.listKey, EmbeddingLike.apply_eq_iff_eq, Prod.mk.injEq] at same
  exact same.2

theorem Reflects.counted_iff (reflects : store.Reflects env known) (key : EventKey) :
    store.Counted key ↔ (∃ event ∈ known.events, event.eventId.key.1 = key.1 ∧
      key.2 ≤ event.eventId.key.2) ∨ known.Clears key := by
  constructor
  · rintro (⟨sequence, present, below⟩ | covered)
    · rcases (mem_iff_lookup store.events _).mp present with ⟨_, found⟩
      rcases reflects.rows _ _ found with ⟨event, was, keyed, -⟩
      exact .inl ⟨event, was, by rw [keyed], by rw [keyed]; exact below⟩
    · exact .inr ((reflects.coveredByClear_iff key).mp covered)
  · rintro (⟨event, was, device, below⟩ | covered)
    · by_cases cleared : known.Clears event.eventId.key
      · right
        rcases cleared with ⟨clear, made, maximum, bound, above⟩
        apply (reflects.coveredByClear_iff key).mpr
        exact ⟨clear, made, maximum, device ▸ bound, below.trans above⟩
      · left
        have keyed : event.eventId.key = (key.1, event.eventId.key.2) := Prod.ext device rfl
        exact ⟨event.eventId.key.2, keyed ▸ reflects.kept event was cleared, below⟩
    · exact .inr ((reflects.coveredByClear_iff key).mpr covered)

/-- Lists each of whose numbers the other one reaches have the same maximum. -/
theorem max?_eq_of_reached {first second : List ℤ}
    (one : ∀ value ∈ first, ∃ above ∈ second, value ≤ above)
    (other : ∀ value ∈ second, ∃ above ∈ first, value ≤ above) : first.max? = second.max? := by
  cases found : first.max? with
  | none =>
    rw [max?_eq_none_iff] at found
    cases second with
    | nil => rfl
    | cons value =>
      rcases other value (.head _) with ⟨above, member, -⟩
      rw [found] at member
      cases member
  | some maximum =>
    rcases max?_eq_some_iff.mp found with ⟨member, largest⟩
    rcases one maximum member with ⟨above, listed, below⟩
    rcases other above listed with ⟨back, returned, higher⟩
    have same : above = maximum := le_antisymm (higher.trans (largest back returned)) below
    symm
    apply max?_eq_some_iff.mpr
    refine ⟨same ▸ listed, ?_⟩
    intro value present
    rcases other value present with ⟨bound, known, under⟩
    exact under.trans (largest bound known)

theorem counted_of_lastSequences {device : String} {value : ℤ}
    (listed : value ∈ store.lastSequences device) : store.Counted (device, value) := by
  rcases mem_append.mp listed with found | found
  · rw [Option.mem_toList, maxSequence] at found
    have member := (max?_eq_some_iff.mp found).1
    rcases mem_map.mp member with ⟨key, present, rfl⟩
    rcases mem_filter.mp present with ⟨present, same⟩
    simp only [decide_eq_true_eq] at same
    exact .inl ⟨key.2, by rw [← same]; exact mem_keys.mpr present, le_refl _⟩
  · rw [Option.mem_toList, maxBoundary] at found
    have member := (max?_eq_some_iff.mp found).1
    rcases mem_map.mp member with ⟨⟨⟨operationId, _⟩, bound⟩, present, rfl⟩
    rcases mem_filter.mp present with ⟨entry, same⟩
    simp only [decide_eq_true_eq] at same
    subst same
    right
    exact HistoryStore.coveredByClear_iff.mpr
      ⟨operationId, bound, mem_lookup_iff.mpr entry, le_refl _⟩

theorem nextSequence_eq_of_counted (same : ∀ key, store.Counted key ↔ other.Counted key)
    (device : String) : store.nextSequence device = other.nextSequence device := by
  have maxima : (store.lastSequences device).max? = (other.lastSequences device).max? := by
    apply max?_eq_of_reached
    · intro value listed
      exact ((same _).mp (counted_of_lastSequences listed)).reached
    · intro _ listed
      exact ((same _).mpr (counted_of_lastSequences listed)).reached
  simp only [lastSequences] at maxima
  rw [nextSequence, nextSequence, maxima]

/-- Any two orders of the same merges and clears, repeated or not, lead to the same history. -/
theorem converges {events : List ImportedHistoryEvent} {clears : List (String × ClearBoundary)}
    (few : events.length ≤ maxUnpinnedRecords) (identified : (events.map (·.eventId)).Nodup)
    (operations : (clears.map (·.1)).Nodup) {first second : List Call}
    (one : Exchanges events clears first) (other : Exchanges events clears second) :
    (afterCalls env first).list env = (afterCalls env second).list env ∧
      (∀ offset limit, (afterCalls env first).exportPage env offset limit =
        (afterCalls env second).exportPage env offset limit) ∧
      ∀ device, (afterCalls env first).nextSequence device =
        (afterCalls env second).nextSequence device := by
  have coherent := coherent_ofAll few identified operations
  have reflects : ∀ calls, Exchanges events clears calls →
      (afterCalls env calls).Reflects env (.ofAll events clears) := by
    intro calls exchanges
    have kinds : ∀ call ∈ calls, call.IsExchange := by
      intro call member
      rcases exchanges.only call member with ⟨_, _, _, rfl⟩ | ⟨_, _, rfl⟩ <;> trivial
    rw [← exchanges.of_calls]
    exact reflects_of_calls kinds (exchanges.of_calls ▸ coherent)
  have left := reflects first one
  have right := reflects second other
  have visible : (afterCalls env first).visible.Perm (afterCalls env second).visible := by
    rw [List.perm_ext_iff_of_nodup (nodup_visible _) (nodup_visible _)]
    intro _
    rw [left.mem_visible coherent, right.mem_visible coherent]
  refine ⟨?_, ?_, ?_⟩
  · rw [HistoryStore.list, HistoryStore.list, listRows, listRows,
      sorted_eq_of_perm listKey_separates visible]
  · intro _ _
    rw [HistoryStore.exportPage, HistoryStore.exportPage, exportRows, exportRows,
      sorted_eq_of_perm exportKey_separates visible]
  · apply nextSequence_eq_of_counted
    intro _
    rw [left.counted_iff, right.counted_iff]

def clearFirst : String × ClearBoundary := ("op", Std.ExtTreeMap.ofList [("a", (1 : UInt64))])

def mergeThenClear : List Call :=
  [.mergeImported (.asStored _) (textEvent "a" 1 5),
    .mergeImported (.asStored _) (textEvent "a" 2 6),
    .clearUnpinnedThrough clearFirst.1 clearFirst.2]

def clearThenMerge : List Call :=
  [.clearUnpinnedThrough clearFirst.1 clearFirst.2,
    .mergeImported (.asStored _) (textEvent "a" 2 6),
    .mergeImported (.asStored _) (textEvent "a" 1 5),
    .mergeImported (.asStored _) (textEvent "a" 2 6),
    .clearUnpinnedThrough clearFirst.1 clearFirst.2]

theorem converges_mergeThenClear :
    (afterCalls unaryEnvironment mergeThenClear).list unaryEnvironment =
        (afterCalls unaryEnvironment clearThenMerge).list unaryEnvironment ∧
      (afterCalls unaryEnvironment mergeThenClear).nextSequence "a" = .ok 3 := by
  have one : Exchanges [textEvent "a" 1 5, textEvent "a" 2 6] [clearFirst] mergeThenClear := by
    constructor <;> simp [mergeThenClear]
  have other : Exchanges [textEvent "a" 1 5, textEvent "a" 2 6] [clearFirst] clearThenMerge := by
    refine ⟨by simp [clearThenMerge], ?_, by simp [clearThenMerge]⟩
    intro _ known
    refine ⟨.asStored _, ?_⟩
    simp only [List.mem_cons, List.not_mem_nil, or_false] at known
    rcases known with rfl | rfl <;> simp [clearThenMerge]
  have same : (afterCalls unaryEnvironment mergeThenClear).list unaryEnvironment = _ ∧ _ :=
    converges (by decide) (by decide) (by decide) one other
  exact ⟨same.1, by decide +kernel⟩

end HistoryStore

end Syntra.Store
