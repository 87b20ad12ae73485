import Syntra.Store.Convergence
import Syntra.Tables.Paging

/-!
# Pages of the history

Each page is a query of its own, with one row more than it returns. The orders of the queries leave
no ties, so all pages are windows of one list, and the walk over them is the listing.
-/

namespace Syntra.Store

open ByteFormat Proto Tables List UInt64

namespace HistoryStore

variable {env : Environment} {store : HistoryStore}

theorem queryRecords_append (first second : List VisibleRow) :
    queryRecords env (first ++ second) = queryRecords env first >>= fun records =>
        (queryRecords env second).map (records ++ ·) :=
  mapM_append

variable {records : List HistoryRecord}

theorem length_of_queryRecords {rows : List VisibleRow}
    (queried : queryRecords env rows = .ok records) : records.length = rows.length := by
  induction rows generalizing records with
  | nil =>
    cases queried
    rfl
  | cons _ _ ih =>
    rw [queryRecords, mapM_cons, bind_ok] at queried
    rcases queried with ⟨_, -, queried⟩
    rw [bind_ok] at queried
    rcases queried with ⟨_, decoded, same⟩
    cases same
    rw [length_cons, length_cons, ih decoded]

theorem queryRecords_take {rows : List VisibleRow} {count : ℕ}
    (queried : queryRecords env (rows.take (count + 1)) = .ok records) :
    queryRecords env (rows.take count) = .ok (records.take count) := by
  rw [take_add, queryRecords_append, bind_ok] at queried
  rcases queried with ⟨_, decoded, queried⟩
  cases following : queryRecords env ((rows.drop count).take 1) with
  | error =>
    rw [following] at queried
    cases queried
  | ok late =>
    rw [following] at queried
    cases queried
    rw [decoded]
    have full := length_of_queryRecords decoded
    have rest := length_of_queryRecords following
    rw [length_take] at full rest
    rw [length_drop] at rest
    congr 1
    by_cases short : rows.length ≤ count
    · have none : late = [] := length_eq_zero_iff.mp (by omega)
      simp only [none, append_nil]
      rw [take_of_length_le (by omega)]
    · exact (take_left' (by omega)).symm

def clamped (limit : ℕ) : ℕ := max 1 (min limit 50)

theorem clamped_pos (limit : ℕ) : 0 < clamped limit := by
  rw [clamped]
  omega

variable {rows : List VisibleRow} {offset : UInt64} {limit : ℕ}

theorem queryWindow_error {error : HistoryError} (small : offset.toNat ≤ i64Max)
    (fails : queryRecords env ((rows.drop offset.toNat).take (clamped limit + 1)) = .error error) :
    queryWindow env rows offset limit = .error error := by
  rw [clamped] at fails
  simp only [queryWindow, min_eq_left small, fails]
  rfl

theorem queryWindow_last (small : offset.toNat ≤ i64Max)
    (few : (rows.drop offset.toNat).length ≤ clamped limit)
    (queried : queryRecords env (rows.drop offset.toNat) = .ok records) :
    queryWindow env rows offset limit = .ok (records, none) := by
  have whole : (rows.drop offset.toNat).take (clamped limit + 1) = rows.drop offset.toNat :=
    take_of_length_le (by omega)
  have count := length_of_queryRecords queried
  rw [clamped] at few whole
  simp only [queryWindow, min_eq_left small, whole, queried]
  change (if records.length > max 1 (min limit 50) then _ else _) = _
  rw [if_neg (by omega)]
  rfl

theorem queryWindow_next (small : offset.toNat ≤ i64Max)
    (many : clamped limit < (rows.drop offset.toNat).length)
    (queried : queryRecords env ((rows.drop offset.toNat).take (clamped limit + 1)) = .ok records) :
    queryWindow env rows offset limit = .ok (records.take (clamped limit),
      some (ofNat (min (offset.toNat + clamped limit) u64Max))) := by
  have count := length_of_queryRecords queried
  rw [length_take] at count
  rw [clamped] at many queried count ⊢
  simp only [queryWindow, min_eq_left small, queried]
  change (if records.length > max 1 (min limit 50) then _ else _) = _
  rw [if_pos (by omega)]
  rfl

/-- The walk over the windows of a list is the list. No offset reaches the largest one that the
database takes. -/
theorem walk_queryWindow (fits : rows.length ≤ i64Max) (within : offset.toNat ≤ rows.length) :
    Walk (fun offset => queryWindow env rows offset limit) offset
      (queryRecords env (rows.drop offset.toNat)) := by
  have small : offset.toNat ≤ i64Max := by omega
  induction remaining : rows.length - offset.toNat using Nat.strongRecOn generalizing offset with
  | ind _ ih =>
    have positive := clamped_pos limit
    by_cases few : (rows.drop offset.toNat).length ≤ clamped limit
    · cases queried : queryRecords env (rows.drop offset.toNat) with
      | ok => exact .last (queryWindow_last small few queried)
      | error =>
        have whole : (rows.drop offset.toNat).take (clamped limit + 1) =
            rows.drop offset.toNat := take_of_length_le (by omega)
        exact .failed (queryWindow_error small (by rw [whole, queried]))
    · have parts : rows.drop offset.toNat = (rows.drop offset.toNat).take (clamped limit) ++
          rows.drop (offset.toNat + clamped limit) := by
        rw [← drop_drop, take_append_drop]
      cases queried : queryRecords env ((rows.drop offset.toNat).take (clamped limit + 1)) with
      | error error =>
        have parts : rows.drop offset.toNat =
            (rows.drop offset.toNat).take (clamped limit + 1) ++
              (rows.drop offset.toNat).drop (clamped limit + 1) :=
          (take_append_drop _ _).symm
        have fails : queryRecords env (rows.drop offset.toNat) = .error error := by
          rw [parts, queryRecords_append, queried]
          rfl
        rw [fails]
        exact .failed (queryWindow_error small queried)
      | ok =>
        rw [length_drop] at few
        have next : (ofNat (min (offset.toNat + clamped limit) u64Max)).toNat =
            offset.toNat + clamped limit := by
          rw [i64Max] at fits
          rw [toNat_ofNat', u64Max]
          omega
        rw [parts, queryRecords_append, queryRecords_take queried]
        have walk : Walk (fun offset => queryWindow env rows offset limit)
            (ofNat (min (offset.toNat + clamped limit) u64Max))
            (queryRecords env (rows.drop (ofNat
              (min (offset.toNat + clamped limit) u64Max)).toNat)) :=
          ih (rows.length - (offset.toNat + clamped limit)) (by omega) (by omega) (by omega)
            (by rw [next])
        rw [next] at walk
        refine .step (queryWindow_next small (by rw [length_drop]; omega) queried) ?_ walk
        intro none
        have count := length_of_queryRecords none
        rw [length_drop, length_nil] at count
        omega

/-- What a query answers: the rows in some order that its `ORDER BY` allows. -/
def Answers {ι : Type} [LinearOrder ι] (order : VisibleRow → ι) (rows answer : List VisibleRow) :
    Prop :=
  answer.Perm rows ∧ answer.Pairwise fun left right => order left ≤ order right

theorem eq_of_answers {ι : Type} [LinearOrder ι] {order : VisibleRow → ι}
    (separates : ∀ left right : VisibleRow, order left = order right → left.key = right.key)
    {answer : List VisibleRow} (shown : ∀ visible ∈ rows, visible ∈ store.visible)
    (answers : Answers order rows answer) :
    answer = rows.insertionSort fun left right => order left ≤ order right := by
  apply Perm.eq_of_pairwise _ answers.2 (pairwise_insertionSort _ _)
  · exact answers.1.trans (perm_insertionSort _ _).symm
  · intro left right inAnswer inRows below above
    rw [answers.1.mem_iff] at inAnswer
    rw [mem_insertionSort] at inRows
    exact visible_unique (shown left inAnswer) (shown right inRows)
      (separates left right (le_antisymm below above))

/-- Pages put together are the whole answer. -/
structure Paged (env : Environment) (store : HistoryStore) (query : String) (limit : ℕ) :
    Prop where
  page : Walk (fun offset => store.page env query offset limit) 0 (store.search env query)
  exportPage : Walk (fun offset => store.exportPage env offset limit) 0
    ((queryRecords env store.exportRows).map (List.map immutableEvent))
  listed : ∀ answer, Answers VisibleRow.listKey store.visible answer → answer = store.listRows
  found : ∀ answer, Answers VisibleRow.listKey
    (store.visible.filter (·.isLike env (likePattern query))) answer →
      answer = store.searchRows env (likePattern query)
  exported : ∀ answer, Answers VisibleRow.exportKey store.visible answer → answer = store.exportRows

theorem length_visible_le (store : HistoryStore) :
    store.visible.length ≤ store.events.keys.length := by
  rw [AList.keys, keys, length_map]
  exact length_filterMap_le _ _

/-- In every state, following the pages is listing the records. The table has at most as many rows
as the database can number. -/
theorem paged (env : Environment) (store : HistoryStore) (query : String) (limit : ℕ)
    (numbered : store.events.keys.length ≤ i64Max) : store.Paged env query limit := by
  have few := (store.length_visible_le).trans numbered
  have listed : store.listRows.length ≤ i64Max := by
    rw [listRows, List.length_insertionSort]
    exact few
  have searched : (store.searchRows env (likePattern query)).length ≤ i64Max := by
    rw [searchRows, List.length_insertionSort]
    exact (List.length_filter_le _ _).trans few
  have exported : store.exportRows.length ≤ i64Max := by
    rw [exportRows, List.length_insertionSort]
    exact few
  refine ⟨?_, ?_, ?_, ?_, ?_⟩
  · simp only [HistoryStore.page, HistoryStore.search]
    split
    · exact walk_queryWindow listed (Nat.zero_le _)
    · exact walk_queryWindow searched (Nat.zero_le _)
  · exact (walk_queryWindow exported (Nat.zero_le _)).map immutableEvent
  · exact fun answer => eq_of_answers listKey_separates fun _ shown => shown
  · exact fun answer => eq_of_answers listKey_separates fun _ shown => List.mem_of_mem_filter shown
  · exact fun _ => eq_of_answers exportKey_separates fun _ shown => shown

theorem paged_pinAndClear :
    (afterCalls unaryEnvironment pinAndClear).events.keys.length = 3 ∧
      (afterCalls unaryEnvironment pinAndClear).Paged unaryEnvironment "a" 1 := by
  have few : (afterCalls unaryEnvironment pinAndClear).events.keys.length = 3 := by decide +kernel
  exact ⟨few, paged unaryEnvironment _ "a" 1 (by rw [few]; decide)⟩

end HistoryStore

end Syntra.Store
