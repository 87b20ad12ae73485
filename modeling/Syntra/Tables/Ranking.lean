import Mathlib.Data.List.Sort
import Syntra.Tables.Association

/-!
# What a ranking drops

A table of a bounded size ranks its rows and drops those after the first `kept`. Rows of equal rank
come in an order that the ranking does not fix. A row is safe in all of these orders when fewer than
`kept` others are ranked no later than it, and there is an order that drops it when this many are.
-/

namespace Tables

open List

variable {κ ρ : Type} [LinearOrder ρ]

def ranked (rank : κ → ρ) (rows : List κ) : List κ :=
  rows.insertionSort fun left right => rank left ≤ rank right

variable {rank : κ → ρ} {rows : List κ} {row : κ} {kept : ℕ}

theorem ranked_perm (rank : κ → ρ) (rows : List κ) : (ranked rank rows).Perm rows :=
  perm_insertionSort _ _

theorem ranked_split (rank : κ → ρ) (rows : List κ) (kept : ℕ) :
    (ranked rank rows).take kept ++ (ranked rank rows).drop kept = ranked rank rows :=
  take_append_drop kept _

theorem rank_take_le_drop {early late : κ} (isKept : early ∈ (ranked rank rows).take kept)
    (isDropped : late ∈ (ranked rank rows).drop kept) : rank early ≤ rank late := by
  have sorted : (ranked rank rows).Pairwise fun left right => rank left ≤ rank right :=
    pairwise_insertionSort _ _
  rw [← ranked_split rank rows kept] at sorted
  exact (pairwise_append.mp sorted).2.2 early isKept late isDropped

theorem nodup_split (rank : κ → ρ) (distinct : rows.Nodup) (kept : ℕ) :
    ((ranked rank rows).take kept ++ (ranked rank rows).drop kept).Nodup := by
  rw [ranked_split]
  exact (ranked_perm rank rows).nodup_iff.mpr distinct

theorem head?_ranked {first : κ} (found : (ranked rank rows).head? = some first) :
    first ∈ rows ∧ ∀ other ∈ rows, rank first ≤ rank other := by
  have sorted : (ranked rank rows).Pairwise fun left right => rank left ≤ rank right :=
    pairwise_insertionSort _ _
  cases ordered : ranked rank rows with
  | nil =>
    rw [ordered] at found
    cases found
  | cons _ rest =>
    rw [ordered] at found sorted
    cases found
    have listed : ∀ other, other ∈ rows ↔ other = first ∨ other ∈ rest := by
      intro other
      rw [← (ranked_perm rank rows).mem_iff, ordered, mem_cons]
    refine ⟨(listed first).mpr (.inl rfl), ?_⟩
    intro other member
    rcases (listed other).mp member with rfl | later
    · exact le_rfl
    · exact (pairwise_cons.mp sorted).1 other later

theorem head?_ranked_cons (least : ∀ other ∈ rows, rank row ≤ rank other) :
    (ranked rank (row :: rows)).head? = some row := by
  rw [ranked, insertionSort_cons_of_forall_rel _ least]
  rfl

variable [DecidableEq κ]

theorem notMem_drop_of_few (distinct : rows.Nodup)
    (few : (rows.filter fun other => other ≠ row ∧ rank other ≤ rank row).length < kept) :
    row ∉ (ranked rank rows).drop kept := by
  intro dropped
  have split := nodup_split rank distinct kept
  rw [nodup_append] at split
  -- all that are kept are ranked no later than the row
  have ahead : (ranked rank rows).take kept ⊆
      rows.filter fun other => other ≠ row ∧ rank other ≤ rank row := by
    intro other early
    have listed : other ∈ rows := (ranked_perm rank rows).mem_iff.mp (mem_of_mem_take early)
    have different : other ≠ row := split.2.2 other early row dropped
    simp [listed, different, rank_take_le_drop early dropped]
  have fewer := (subperm_of_subset split.1 ahead).length_le
  have full : kept ≤ (ranked rank rows).length := by
    by_contra short
    rw [drop_eq_nil_of_le (by omega)] at dropped
    cases dropped
  rw [length_take] at fewer
  omega

theorem mem_drop_of_many {others : List κ} (distinct : (others ++ [row]).Nodup)
    (many : kept ≤ (others.filter fun other => rank other ≤ rank row).length) :
    row ∈ (ranked rank (others ++ [row])).drop kept := by
  by_contra remains
  have split := nodup_split rank distinct kept
  have placed : row ∈ (ranked rank (others ++ [row])).take kept := by
    have listed : row ∈ ranked rank (others ++ [row]) :=
      (ranked_perm rank _).mem_iff.mpr (by simp)
    rw [← ranked_split rank _ kept] at listed
    exact (mem_append.mp listed).resolve_right remains
  have ahead : row :: others.filter (fun other => rank other ≤ rank row) ⊆
      (ranked rank (others ++ [row])).take kept := by
    intro other listed
    rcases mem_cons.mp listed with rfl | listed
    · exact placed
    · simp only [mem_filter, decide_eq_true_eq] at listed
      -- the sort is stable, so the row does not overtake
      have stood : [other, row].Sublist (others ++ [row]) :=
        (singleton_sublist.mpr listed.1).append (Sublist.refl [row])
      have before : [other, row].Sublist (ranked rank (others ++ [row])) :=
        pair_sublist_insertionSort (a := other) (b := row) listed.2 stood
      have listed' : other ∈ ranked rank (others ++ [row]) := before.subset (by simp)
      rw [← ranked_split rank _ kept] at before listed'
      apply (mem_append.mp listed').resolve_right
      intro late
      rcases sublist_append_iff.mp before with ⟨first, _, pair, early, rest⟩
      cases first with
      | nil =>
        rw [nil_append] at pair
        exact remains (rest.subset (by simp [← pair]))
      | cons =>
        rw [cons_append, cons.injEq] at pair
        have isEarly : other ∈ (ranked rank (others ++ [row])).take kept :=
          early.subset (by simp [pair.1])
        exact (nodup_append.mp split).2.2 other isEarly other late rfl
  have distinctAhead : (row :: others.filter fun other => rank other ≤ rank row).Nodup := by
    rw [nodup_append] at distinct
    refine nodup_cons.mpr ⟨?_, distinct.1.filter _⟩
    intro listed
    exact distinct.2.2 row (mem_of_mem_filter listed) row (by simp) rfl
  have fewer := (subperm_of_subset distinctAhead ahead).length_le
  rw [length_cons, length_take] at fewer
  omega

/-- The order in which `row` comes first. -/
def IterOrder.prefer (row : κ) : IterOrder κ where
  arrange rows := rows.filter (· = row) ++ rows.filter (· ≠ row)
  perm rows := by
    have complement : (fun other : κ => decide (other ≠ row)) =
        fun other => !decide (other = row) := by
      funext other
      simp
    rw [complement]
    exact List.filter_append_perm _ rows

/-- The order in which `row` comes last. -/
def IterOrder.postpone (row : κ) : IterOrder κ where
  arrange rows := rows.filter (· ≠ row) ++ rows.filter (· = row)
  perm rows := by
    have complement : (fun other : κ => decide (other = row)) =
        fun other => !decide (other ≠ row) := by
      funext other
      simp
    rw [complement]
    exact List.filter_append_perm _ rows

end Tables
