import Syntra.StateMachine.Handler
import Syntra.Store.Rows

/-!
# The clear operation, statement by statement

`clear_unpinned_through` as it runs on a connection: the statements of its transaction change the
working tables one after another, and what is not committed when the transaction is dropped is
rolled back. The clear of `Operations` says what all of them together leave.
-/

namespace Syntra.Store

open StateMachine StateMachine.Handler Tables ByteFormat HistoryStore

/-- The tables as they are stored and as the open transaction sees them. -/
structure Connection where
  stored : HistoryStore
  working : HistoryStore

namespace Connection

def idle (store : HistoryStore) : Connection := ⟨store, store⟩

def execute (statement : HistoryStore → HistoryStore) : Handler Connection HistoryError Unit :=
  change fun connection => { connection with working := statement connection.working }

/-- A statement that says how many rows it has changed. -/
def executeCounted (statement : HistoryStore → HistoryStore × ℕ) :
    Handler Connection HistoryError ℕ := do
  let connection ← read
  execute fun store => (statement store).1
  pure (statement connection.working).2

def commit : Handler Connection HistoryError Unit :=
  change fun connection => { connection with stored := connection.working }

/-- `Connection::transaction`, dropped at the end of its scope: what was not committed is rolled
back. -/
def transaction {α : Type} (body : Handler Connection HistoryError α) :
    Handler Connection HistoryError α := fun connection =>
  let (result, ended) := body (idle connection.stored)
  (result, idle ended.stored)

/-- One turn of the loop over the boundary. -/
def clearDevice (operationId : String) (affected : ℕ) (entry : String × UInt64) :
    Handler Connection HistoryError ℕ := do
  let maximum ← attempt (sequenceToSql entry.2)
  let within : EventKey → Bool := fun key => key.1 = entry.1 && key.2 ≤ maximum
  execute fun store =>
    { store with
      clearBoundaries := store.clearBoundaries.insert (operationId, entry.1) maximum }
  let dismissed ← executeCounted fun store => store.dismiss within
  execute fun store => store.scrub within
  pure (affected + dismissed)

def clearUnpinnedThrough (env : Environment) (operationId : String) (boundary : ClearBoundary) :
    Handler Connection HistoryError ℕ := do
  attempt (validateString "clear operation id" operationId maxOperationIdBytes)
  attempt (boundary.keys.forM fun device =>
    validateString "boundary device id" device maxDeviceIdBytes)
  let boundaryJson := env.boundaryToJson boundary
  transaction do
    let connection ← read
    match connection.working.clearOperations.lookup operationId with
    | some (stored, affected) =>
      if stored ≠ boundaryJson then
        stop (.clearOperationConflict operationId)
      else
        pure affected
    | none =>
      execute fun store =>
        { store with clearOperations := store.clearOperations.insert operationId (boundaryJson, 0) }
      let affected ← boundary.toList.foldlM (clearDevice operationId) 0
      if affected > i64Max then
        stop (.invalidPayload "clear affected count exceeds SQLite INTEGER")
      else
        execute fun store =>
          { store with
            clearOperations := store.clearOperations.insert operationId (boundaryJson, affected) }
        commit
        pure affected

variable {α : Type} {connection : Connection}

variable {stopped : HistoryError → Connection → Prop} {affected : ℕ} {operationId : String}
  {store : HistoryStore} {boundary : ClearBoundary} {env : Environment} {key : EventKey}

theorem ensures_transaction {body : Handler Connection HistoryError α}
    {post : α → Connection → Prop} :
    (transaction body).Ensures connection post stopped ↔
      body.Ensures (idle connection.stored) (fun value ended => post value (idle ended.stored))
        fun error ended => stopped error (idle ended.stored) := by
  unfold Ensures transaction
  rcases body (idle connection.stored) with ⟨_ | _, _⟩ <;> rfl

variable {post : Unit → Connection → Prop} {entries : List (String × UInt64)}
  {cleared after : HistoryStore} {total : ℕ} {row : String × ℕ}

@[simp]
theorem ensures_execute {statement : HistoryStore → HistoryStore} :
    (execute statement).Ensures connection post stopped ↔
      post () { connection with working := statement connection.working } :=
  Iff.rfl

@[simp]
theorem ensures_executeCounted {statement : HistoryStore → HistoryStore × ℕ}
    {post : ℕ → Connection → Prop} :
    (executeCounted statement).Ensures connection post stopped ↔
      post (statement connection.working).2
        { connection with working := (statement connection.working).1 } :=
  Iff.rfl

@[simp]
theorem ensures_commit :
    commit.Ensures connection post stopped ↔
      post () { connection with stored := connection.working } :=
  Iff.rfl

/-- The loop changes the working tables as the clear of the store does, and the stored tables not
at all. -/
theorem clearDevices_ensures (operationId : String) (entries : List (String × UInt64))
    (affected : ℕ) (connection : Connection) :
    (entries.foldlM (clearDevice operationId) affected).Ensures connection
      (fun total after => after.stored = connection.stored ∧
        entries.foldlM (HistoryStore.clearDevice operationId) (connection.working, affected) =
          .ok (after.working, total))
      fun error after => after.stored = connection.stored ∧
        entries.foldlM (HistoryStore.clearDevice operationId) (connection.working, affected) =
          .error error := by
  induction entries generalizing affected connection with
  | nil => exact ⟨rfl, rfl⟩
  | cons entry _ ih =>
    simp only [List.foldlM_cons, clearDevice, ensures_bind, ensures_attempt, ensures_execute,
      ensures_executeCounted, ensures_pure]
    constructor
    · intro maximum small
      let within : EventKey → Bool := fun key => key.1 = entry.1 && key.2 ≤ maximum
      let bounded : HistoryStore :=
        { connection.working with
          clearBoundaries :=
            connection.working.clearBoundaries.insert (operationId, entry.1) maximum }
      have turn : HistoryStore.clearDevice operationId (connection.working, affected) entry =
          .ok ((bounded.hide within).1, affected + (bounded.hide within).2) := by
        rw [HistoryStore.clearDevice, small]
        rfl
      rw [turn]
      exact ih _ ⟨connection.stored, (bounded.hide within).1⟩
    · intro error large
      have turn : HistoryStore.clearDevice operationId (connection.working, affected) entry =
          .error error := by
        rw [HistoryStore.clearDevice, large]
        rfl
      rw [turn]
      exact ⟨trivial, rfl⟩

theorem clearDevices_register (operationId : String) (entries : List (String × UInt64))
    (operations : Table String (String × ℕ)) (store : HistoryStore) (affected : ℕ) :
    entries.foldlM (HistoryStore.clearDevice operationId)
        ({ store with clearOperations := operations }, affected) =
      (entries.foldlM (HistoryStore.clearDevice operationId) (store, affected)).map
        fun (cleared, total) => ({ cleared with clearOperations := operations }, total) := by
  induction entries generalizing store affected with
  | nil => rfl
  | cons entry _ ih =>
    simp only [List.foldlM_cons]
    cases small : sequenceToSql entry.2 with
    | error =>
      simp only [HistoryStore.clearDevice, small]
      rfl
    | ok maximum =>
      let within : EventKey → Bool := fun key => key.1 = entry.1 && key.2 ≤ maximum
      let bounded : HistoryStore :=
        { store with
          clearBoundaries := store.clearBoundaries.insert (operationId, entry.1) maximum }
      have rest := ih (bounded.hide within).1 (affected + (bounded.hide within).2)
      simp only [HistoryStore.clearDevice, small]
      exact rest

theorem clearDevices_operations
    (ran : entries.foldlM (HistoryStore.clearDevice operationId) (store, affected) =
      .ok (cleared, total)) : cleared.clearOperations = store.clearOperations := by
  have registered := clearDevices_register operationId entries store.clearOperations store affected
  rw [ran] at registered
  have same : (Except.ok (cleared, total) : Except HistoryError (HistoryStore × ℕ)) =
      .ok ({ cleared with clearOperations := store.clearOperations }, total) :=
    registered
  simp only [Except.ok.injEq, Prod.mk.injEq, and_true] at same
  rw [same]

theorem clearUnpinnedThrough_of_known (env : Environment) {json : String}
    (named : validateString "clear operation id" operationId maxOperationIdBytes = .ok ())
    (listed : (boundary.keys.forM fun device =>
      validateString "boundary device id" device maxDeviceIdBytes) = .ok ())
    (known : store.clearOperations.lookup operationId = some (json, affected)) :
    store.clearUnpinnedThrough env operationId boundary =
      if json ≠ env.boundaryToJson boundary then .error (.clearOperationConflict operationId)
      else .ok (store, affected) := by
  simp only [HistoryStore.clearUnpinnedThrough, named, listed, known]
  by_cases other : json ≠ env.boundaryToJson boundary
  · simp only [if_pos other]
    rfl
  · simp only [if_neg other]
    rfl

theorem clearUnpinnedThrough_of_new (env : Environment)
    (named : validateString "clear operation id" operationId maxOperationIdBytes = .ok ())
    (listed : (boundary.keys.forM fun device =>
      validateString "boundary device id" device maxDeviceIdBytes) = .ok ())
    (fresh : store.clearOperations.lookup operationId = none) :
    store.clearUnpinnedThrough env operationId boundary =
      (boundary.toList.foldlM (HistoryStore.clearDevice operationId) (store, 0)).map
        fun (cleared, affected) =>
          ({ cleared with
              clearOperations :=
                cleared.clearOperations.insert operationId
                  (env.boundaryToJson boundary, affected) },
            affected) := by
  simp only [HistoryStore.clearUnpinnedThrough, named, listed, fresh]
  cases boundary.toList.foldlM (HistoryStore.clearDevice operationId) (store, 0) <;> rfl

/-- The operation commits what the clear of the store leaves, or stops and nothing has changed. -/
theorem clearUnpinnedThrough_ensures (env : Environment) (store : HistoryStore)
    (operationId : String) (boundary : ClearBoundary) :
    (clearUnpinnedThrough env operationId boundary).Ensures (idle store)
      (fun affected after => ∃ cleared, after = idle cleared ∧
        store.clearUnpinnedThrough env operationId boundary = .ok (cleared, affected))
      fun error after => after = idle store ∧
        (store.clearUnpinnedThrough env operationId boundary = .error error ∨
          store.clearOperations.lookup operationId = none ∧ ∃ cleared affected, i64Max < affected ∧
            store.clearUnpinnedThrough env operationId boundary = .ok (cleared, affected)) := by
  simp only [clearUnpinnedThrough, ensures_bind, ensures_attempt]
  refine ⟨fun _ named => ⟨fun _ listed => ?_, fun error unlisted => ?_⟩, fun error unnamed => ?_⟩
  · simp only [ensures_transaction, ensures_bind, ensures_read]
    cases found : store.clearOperations.lookup operationId with
    | some stored =>
      have clear := clearUnpinnedThrough_of_known env named listed found
      simp only [idle, found]
      split
      · rename_i other
        rw [if_pos other] at clear
        exact ⟨rfl, .inl clear⟩
      · rename_i same
        rw [if_neg same] at clear
        exact ⟨store, rfl, clear⟩
    | none =>
      have clear := clearUnpinnedThrough_of_new env named listed found
      simp only [idle, found, ensures_bind, ensures_execute]
      apply (clearDevices_ensures operationId boundary.toList 0 _).mono
      · rintro _ ⟨stored, working⟩ ⟨rfl, ran⟩
        rw [clearDevices_register] at ran
        cases looped : boundary.toList.foldlM (HistoryStore.clearDevice operationId)
            (stored, 0) with
        | error =>
          rw [looped] at ran
          cases ran
        | ok result =>
          rw [looped] at ran clear
          simp only [Except.map, Except.ok.injEq, Prod.mk.injEq] at ran
          obtain ⟨rfl, rfl⟩ := ran
          simp only [ensures_ite, ensures_stop, ensures_bind, ensures_execute,
            ensures_commit, ensures_pure]
          refine ⟨fun many => ⟨trivial, .inr ⟨trivial, _, _, many, clear⟩⟩, fun _ => ⟨_, rfl, ?_⟩⟩
          rw [clear]
          simp only [clearDevices_operations looped, AList.insert_insert, Except.map]
      · rintro error ⟨stored, _⟩ ⟨rfl, ran⟩
        rw [clearDevices_register] at ran
        cases looped : boundary.toList.foldlM (HistoryStore.clearDevice operationId)
            (stored, 0) with
        | error =>
          rw [looped] at ran clear
          cases ran
          exact ⟨rfl, .inl clear⟩
        | ok =>
          rw [looped] at ran
          cases ran
  · refine ⟨trivial, .inl ?_⟩
    rw [HistoryStore.clearUnpinnedThrough, named, unlisted]
    rfl
  · refine ⟨trivial, .inl ?_⟩
    rw [HistoryStore.clearUnpinnedThrough, unnamed]
    rfl

theorem clearUnpinnedThrough_registers
    (ran : store.clearUnpinnedThrough env operationId boundary = .ok (after, affected)) :
    after.clearOperations.lookup operationId = some (env.boundaryToJson boundary, affected) ∧
      ∀ other row, store.clearOperations.lookup other = some row →
        after.clearOperations.lookup other = some row := by
  have checked := ran
  simp only [HistoryStore.clearUnpinnedThrough, bind_ok] at checked
  rcases checked with ⟨_, named, _, listed, -⟩
  cases found : store.clearOperations.lookup operationId with
  | some entry =>
    rw [clearUnpinnedThrough_of_known env named listed found] at ran
    split at ran
    · cases ran
    · rename_i same
      cases ran
      rw [not_not] at same
      exact ⟨same ▸ found, fun _ _ known => known⟩
  | none =>
    rw [clearUnpinnedThrough_of_new env named listed found] at ran
    cases looped : boundary.toList.foldlM (HistoryStore.clearDevice operationId) (store, 0) with
    | error =>
      rw [looped] at ran
      cases ran
    | ok =>
      rw [looped] at ran
      cases ran
      refine ⟨AList.lookup_insert _, fun other _ known => ?_⟩
      have different : other ≠ operationId := by
        rintro rfl
        rw [found] at known
        cases known
      rw [AList.lookup_insert_ne different, clearDevices_operations looped]
      exact known

theorem perform_lookup_clearOperations (call : Call)
    (known : store.clearOperations.lookup operationId = some row) :
    (store.perform env call).clearOperations.lookup operationId = some row := by
  have effect := store.perform_effect env call
  generalize performed : store.perform env call = after at effect
  cases effect with
  | none | insertion | pin => exact known
  | clear _ _ _ operations => rwa [operations]
  | clearThrough isClear cleared =>
    rename_i other boundary
    rw [isClear, perform] at performed
    cases ran : store.clearUnpinnedThrough env other boundary with
    | error =>
      rw [ran] at performed
      rw [← performed]
      exact known
    | ok =>
      rw [ran] at performed
      rw [← performed]
      exact (clearUnpinnedThrough_registers ran).2 operationId row known

/-- The event and its flags are as before. -/
structure SameEvent (key : EventKey) (store after : HistoryStore) : Prop where
  row : after.events.lookup key = store.events.lookup key
  localState : after.localState.lookup key = store.localState.lookup key

theorem SameEvent.flags (same : SameEvent key store after) : after.flags key = store.flags key := by
  rw [HistoryStore.flags, same.localState]
  rfl

theorem SameEvent.trans {first second third : HistoryStore} (one : SameEvent key first second)
    (two : SameEvent key second third) : SameEvent key first third :=
  ⟨two.row.trans one.row, two.localState.trans one.localState⟩

theorem sameEvent_hide {within : EventKey → Bool}
    (safe : (store.flags key).pinned = true ∨ within key = false) :
    SameEvent key store (store.hide within).1 := by
  have unselected : key ∉ store.events.keys.filter fun key =>
      within key && !(store.flags key).pinned && !(store.flags key).dismissed := by
    rcases safe with pinned | outside
    · simp [pinned]
    · simp [outside]
  have localState : (store.hide within).1.localState.lookup key = store.localState.lookup key := by
    change (store.dismiss within).1.localState.lookup key = _
    rw [dismiss, lookup_foldl_dismiss, if_neg unselected]
  refine ⟨?_, localState⟩
  have flags : (store.hide within).1.flags key = store.flags key := by
    rw [flags, localState]
    rfl
  rw [lookup_hide, flags]
  rcases safe with pinned | outside
  · simp [pinned]
  · simp [outside]

theorem sameEvent_clearDevices
    (ran : entries.foldlM (HistoryStore.clearDevice operationId) (store, affected) =
      .ok (cleared, total)) (safe : (store.flags key).pinned = true ∨
      ∀ entry ∈ entries, ¬(entry.1 = key.1 ∧ key.2 ≤ entry.2.toNat)) :
    SameEvent key store cleared := by
  induction entries generalizing store affected with
  | nil =>
    simp only [List.foldlM_nil, pure_ok, Prod.mk.injEq] at ran
    rw [← ran.1]
    exact ⟨rfl, rfl⟩
  | cons entry _ ih =>
    simp only [List.foldlM_cons, bind_ok, HistoryStore.clearDevice,
      sequenceToSql_eq_ok, pure_ok] at ran
    rcases ran with ⟨_, ⟨_, ⟨_, rfl⟩, rfl⟩, ran⟩
    let bounded : HistoryStore :=
      { store with
        clearBoundaries :=
          store.clearBoundaries.insert (operationId, entry.1) (entry.2.toNat : ℤ) }
    let within : EventKey → Bool := fun other =>
      other.1 = entry.1 && other.2 ≤ (entry.2.toNat : ℤ)
    have turn : SameEvent key bounded (bounded.hide within).1 := by
      apply sameEvent_hide
      rcases safe with pinned | outside
      · exact .inl pinned
      · right
        have missed := outside entry (.head _)
        by_cases device : key.1 = entry.1
        · have above : ¬key.2 ≤ (entry.2.toNat : ℤ) := fun below => missed ⟨device.symm, below⟩
          simpa [within, device] using above
        · simp [within, device]
    have first : SameEvent key store (bounded.hide within).1 := ⟨turn.row, turn.localState⟩
    refine first.trans (ih ran ?_)
    rcases safe with pinned | outside
    · left
      rw [first.flags]
      exact pinned
    · exact .inr fun other member => outside other (.tail _ member)

theorem sameEvent_clearUnpinnedThrough
    (ran : store.clearUnpinnedThrough env operationId boundary = .ok (cleared, affected))
    (safe : (store.flags key).pinned = true ∨ ¬Covers boundary key) :
    SameEvent key store cleared := by
  have checked := ran
  simp only [HistoryStore.clearUnpinnedThrough, bind_ok] at checked
  rcases checked with ⟨_, named, _, listed, -⟩
  cases found : store.clearOperations.lookup operationId with
  | some entry =>
    rw [clearUnpinnedThrough_of_known env named listed found] at ran
    split at ran
    · cases ran
    · cases ran
      exact ⟨rfl, rfl⟩
  | none =>
    rw [clearUnpinnedThrough_of_new env named listed found] at ran
    cases looped : boundary.toList.foldlM (HistoryStore.clearDevice operationId) (store, 0) with
    | error =>
      rw [looped] at ran
      cases ran
    | ok result =>
      rw [looped] at ran
      cases ran
      have same : SameEvent key store result.1 := by
        refine sameEvent_clearDevices looped (safe.imp_right fun uncovered entry member => ?_)
        rintro ⟨device, below⟩
        refine uncovered ⟨entry.2, ?_, below⟩
        rw [← device]
        exact Std.ExtTreeMap.mem_toList_iff_getElem?_eq_some.mp member
      exact ⟨same.row, same.localState⟩

theorem clearUnpinnedThrough_of_large (env : Environment) {device : String} {maximum : UInt64}
    (fresh : store.clearOperations.lookup operationId = none)
    (bounds : boundary[device]? = some maximum) (large : i64Max < maximum.toNat) :
    ∀ result, store.clearUnpinnedThrough env operationId boundary ≠ .ok result := by
  rintro ⟨_, _⟩ ran
  rcases clearUnpinnedThrough_eq_ok ran with rfl | through
  · have registered := (clearUnpinnedThrough_registers ran).1
    rw [fresh] at registered
    cases registered
  · exact absurd (through.fits device maximum bounds) (Nat.not_le.mpr large)

theorem clearUnpinnedThrough_fails
    (fails : ∀ result, store.clearUnpinnedThrough env operationId boundary ≠ .ok result) :
    ∃ error, clearUnpinnedThrough env operationId boundary (idle store) =
      (.error error, idle store) := by
  have ensures := clearUnpinnedThrough_ensures env store operationId boundary
  unfold Ensures at ensures
  rcases went : clearUnpinnedThrough env operationId boundary (idle store) with
    ⟨error | affected, later⟩ <;> rw [went] at ensures
  · exact ⟨error, by rw [ensures.1]⟩
  · rcases ensures with ⟨_, -, ran⟩
    exact absurd ran (fails _)

theorem clearUnpinnedThrough_again
    (ran : store.clearUnpinnedThrough env operationId boundary = .ok (store, affected)) :
    clearUnpinnedThrough env operationId boundary (idle store) = (.ok affected, idle store) := by
  have ensures := clearUnpinnedThrough_ensures env store operationId boundary
  unfold Ensures at ensures
  rcases went : clearUnpinnedThrough env operationId boundary (idle store) with
    ⟨error | count, later⟩ <;> rw [went] at ensures
  · rcases ensures with ⟨-, failed | ⟨fresh, -⟩⟩
    · rw [ran] at failed
      cases failed
    · have registered := (clearUnpinnedThrough_registers ran).1
      rw [fresh] at registered
      cases registered
  · rcases ensures with ⟨_, rfl, same⟩
    rw [ran] at same
    cases same
    rfl

theorem checked_of_clearUnpinnedThrough
    (ran : store.clearUnpinnedThrough env operationId boundary = .ok (after, affected)) :
    validateString "clear operation id" operationId maxOperationIdBytes = .ok () ∧
      (boundary.keys.forM fun device =>
        validateString "boundary device id" device maxDeviceIdBytes) = .ok () := by
  simp only [HistoryStore.clearUnpinnedThrough, bind_ok] at ran
  rcases ran with ⟨_, named, _, listed, -⟩
  exact ⟨named, listed⟩

theorem registered_after (env : Environment)
    (known : store.clearOperations.lookup operationId = some row) (calls : List Call) :
    ((machine env fun _ _ => True).after store calls).clearOperations.lookup
      operationId = some row := by
  induction calls generalizing store with
  | nil => exact known
  | cons call _ ih => exact ih (perform_lookup_clearOperations call known)

/-- A clear that has gone through answers the same ever after and changes nothing, and by its id no
other boundary is cleared; it leaves alone what is pinned or not covered. A clear that fails leaves
the store as it was, and an invalid id or a sequence that is too large makes it fail. -/
theorem clear_idempotent_and_atomic (env : Environment) (store : HistoryStore)
    (operationId : String) (boundary : ClearBoundary) :
    (∀ affected later,
      clearUnpinnedThrough env operationId boundary (idle store) = (.ok affected, later) →
      ∃ cleared, later = idle cleared ∧
        (∀ calls : List HistoryStore.Call,
          let now := (HistoryStore.machine env fun _ _ => True).after cleared calls
          clearUnpinnedThrough env operationId boundary (idle now) = (.ok affected, idle now) ∧
          ∀ other, env.boundaryToJson other ≠ env.boundaryToJson boundary →
            ∃ error, clearUnpinnedThrough env operationId other (idle now) =
              (.error error, idle now)) ∧
        ∀ key, (store.flags key).pinned = true ∨ ¬HistoryStore.Covers boundary key →
          cleared.events.lookup key = store.events.lookup key ∧
            cleared.localState.lookup key = store.localState.lookup key) ∧
    (∀ error later,
      clearUnpinnedThrough env operationId boundary (idle store) = (.error error, later) →
      later = idle store) ∧
    ((validateString "clear operation id" operationId maxOperationIdBytes ≠ .ok () ∨
        (∃ device ∈ boundary.keys,
          validateString "boundary device id" device maxDeviceIdBytes ≠ .ok ()) ∨
        store.clearOperations.lookup operationId = none ∧
          ∃ (device : String) (maximum : UInt64),
            boundary[device]? = some maximum ∧ i64Max < maximum.toNat) →
      ∃ error, clearUnpinnedThrough env operationId boundary (idle store) =
        (.error error, idle store)) := by
  have ensures := clearUnpinnedThrough_ensures env store operationId boundary
  refine ⟨?_, ?_, ?_⟩
  · intro _ later went
    rw [Ensures, went] at ensures
    rcases ensures with ⟨cleared, rfl, ran⟩
    have registered := (clearUnpinnedThrough_registers ran).1
    refine ⟨cleared, rfl, fun calls => ?_, fun _ safe => ?_⟩
    · have known := registered_after env registered calls
      intro _
      rcases checked_of_clearUnpinnedThrough ran with ⟨named, listed⟩
      have again := clearUnpinnedThrough_of_known env named listed known
      rw [if_neg (by simp)] at again
      refine ⟨clearUnpinnedThrough_again again, fun _ different => ?_⟩
      apply clearUnpinnedThrough_fails
      rintro ⟨after, _⟩ passed
      have replaced := clearUnpinnedThrough_registers passed
      have kept := replaced.2 operationId _ known
      rw [replaced.1] at kept
      exact different (congrArg Prod.fst (Option.some.inj kept))
    · have same := sameEvent_clearUnpinnedThrough ran safe
      exact ⟨same.row, same.localState⟩
  · intro _ _ failed
    rw [Ensures, failed] at ensures
    exact ensures.1
  · intro invalid
    apply clearUnpinnedThrough_fails
    rintro ⟨_, _⟩ ran
    rcases checked_of_clearUnpinnedThrough ran with ⟨named, listed⟩
    rcases invalid with unnamed | ⟨device, member, unlisted⟩ | ⟨fresh, device, _, found, large⟩
    · exact unnamed named
    · exact unlisted (of_forM_eq_ok listed device member)
    · exact clearUnpinnedThrough_of_large env fresh found large _ ran

end Connection

end Syntra.Store
