import Syntra.History.Limits
import Syntra.Store.Convergence

/-!
# The clear of what is there

The coordinator of a clear takes the boundary of its own store. What the clear leaves there to be
seen are the pinned records.
-/

namespace Syntra.History

open ByteFormat Store List HistoryStore

variable {store : HistoryStore} {env : Environment} {boundary : ClearBoundary}
  {calls : List HistoryStore.Call} {operationId : String}

theorem getElem?_of_noteDevices {devices : List String} {before : ClearBoundary}
    (noted : devices.foldlM store.noteDevice before = .ok boundary) (device : String) :
    boundary[device]? =
      if device ∈ devices then some (.ofNat ((store.maxSequence device).getD 0).toNat)
      else before[device]? := by
  induction devices generalizing before with
  | nil =>
    cases noted
    simp
  | cons _ _ ih =>
    rw [foldlM_cons, bind_ok] at noted
    rcases noted with ⟨_, noted, rest⟩
    simp only [noteDevice] at noted
    split at noted
    · cases noted
    · cases noted
      rw [ih rest, Std.ExtTreeMap.getElem?_insert]
      grind

/-- The entry of an origin is the sequence of a valid event, which none of the store exceeds. -/
theorem entry_of_snapshot (taken : (afterCalls env calls).snapshotBoundary = .ok boundary)
    {key : EventKey} (member : key ∈ (afterCalls env calls).events) :
    ∃ event, validateEvent event = .ok () ∧ event.eventId.originDeviceId = key.1 ∧
      boundary[key.1]? = some event.eventId.originSequence ∧
        key.2 ≤ event.eventId.originSequence.toNat := by
  have listed : key.2 ∈ ((afterCalls env calls).events.keys.filter (·.1 = key.1)).map (·.2) :=
    mem_map_of_mem (mem_filter.mpr ⟨AList.mem_keys.mp member, decide_eq_true rfl⟩)
  rcases le_max?_of_mem listed with ⟨maximum, found, below⟩
  rcases mem_map.mp (max?_mem found) with ⟨other, there, rfl⟩
  rcases mem_filter.mp there with ⟨known, same⟩
  rcases valid_of_mem (AList.mem_keys.mpr known) with ⟨event, valid, rfl⟩
  refine ⟨event, valid, of_decide_eq_true same, ?_, below⟩
  have origin : key.1 ∈ origins (afterCalls env calls) := mem_origins.mpr ⟨key, member, rfl⟩
  rw [getElem?_of_noteDevices taken, ← origins, if_pos origin, maxSequence, found]
  simp [HistoryEventId.key]

theorem validClear_of_snapshot (taken : (afterCalls env calls).snapshotBoundary = .ok boundary)
    (named : validateString "clear operation id" operationId maxOperationIdBytes = .ok ()) :
    ValidClear operationId boundary := by
  have made {device : String} {maximum : UInt64} (found : boundary[device]? = some maximum) :
      ∃ event, validateEvent event = .ok () ∧ event.eventId.originDeviceId = device ∧
        event.eventId.originSequence = maximum := by
    have origin : device ∈ origins (afterCalls env calls) := by
      rw [getElem?_of_noteDevices taken, ← origins] at found
      by_contra foreign
      rw [if_neg foreign, Std.ExtTreeMap.getElem?_empty] at found
      cases found
    rcases mem_origins.mp origin with ⟨key, member, rfl⟩
    rcases entry_of_snapshot taken member with ⟨event, valid, same, entry, -⟩
    exact ⟨event, valid, same, Option.some.inj (entry.symm.trans found)⟩
  refine ⟨named, forM_eq_ok fun device member => ?_, fun device maximum found => ?_⟩
  · rcases made (Std.ExtTreeMap.getElem?_eq_some_getElem (Std.ExtTreeMap.mem_keys.mp member)) with
      ⟨event, valid, rfl, -⟩
    simp only [validateEvent, bind_ok] at valid
    rcases valid with ⟨_, device, -⟩
    exact validateString_eq_ok.mpr (validateString_eq_ok.mp device)
  · rcases made found with ⟨event, valid, -, rfl⟩
    exact small_of_valid valid

/-- Whatever was called before, a snapshot can be taken, and the clear through it under a fresh id
leaves of what is shown exactly the pinned records. -/
theorem visible_of_ownClear (env : Environment) (calls : List HistoryStore.Call)
    (fresh : operationId ∉ (afterCalls env calls).clearOperations)
    (named : validateString "clear operation id" operationId maxOperationIdBytes = .ok ()) :
    ∃ boundary, (afterCalls env calls).snapshotBoundary = .ok boundary ∧ ∀ visible,
      visible ∈ (afterCalls env (calls ++ [.clearUnpinnedThrough operationId boundary])).visible ↔
        visible ∈ (afterCalls env calls).visible ∧ visible.pinned = true := by
  rcases exists_snapshotBoundary env calls with ⟨boundary, taken⟩
  refine ⟨boundary, taken, fun visible => ?_⟩
  rw [afterCalls_append, perform, mem_visible, mem_visible]
  rcases settle_clearUnpinnedThrough env boundary fresh with ⟨-, through⟩ | ⟨invalid, -⟩
  · by_cases known : visible.key ∈ (afterCalls env calls).events
    · rcases entry_of_snapshot taken known with ⟨event, -, -, entry, below⟩
      by_cases pinned : ((afterCalls env calls).flags visible.key).pinned = false
      · rw [through.dismissed _ known ⟨_, entry, below⟩ pinned]
        constructor
        · rintro ⟨-, shown⟩
          injection shown with _ hidden
          cases hidden
        · rintro ⟨⟨-, shown⟩, kept⟩
          rw [shown, kept] at pinned
          cases pinned
      · have same := through.flags visible.key fun gone => pinned gone.2.2
        rw [same, through.rows]
        · refine ⟨fun shown => ⟨shown, ?_⟩, And.left⟩
          rw [shown.2] at pinned
          exact eq_true_of_ne_false pinned
        · rintro ⟨-, gone⟩
          rw [← same, gone] at pinned
          exact pinned rfl
    · rw [AList.lookup_eq_none.mpr known, AList.lookup_eq_none.mpr ((through.mem _).not.mpr known)]
      simp
  · exact absurd (validClear_of_snapshot taken named) invalid

theorem visible_of_ownClear_pinned :
    ∃ boundary, (afterCalls unaryEnvironment pinAndClear).snapshotBoundary = .ok boundary ∧
      ∀ visible, visible ∈ (afterCalls unaryEnvironment
          (pinAndClear ++ [.clearUnpinnedThrough "clear" boundary])).visible ↔
        visible ∈ (afterCalls unaryEnvironment pinAndClear).visible ∧ visible.pinned = true :=
  visible_of_ownClear _ _ (by decide +kernel) (by decide)

end Syntra.History
