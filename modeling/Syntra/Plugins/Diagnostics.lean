import Mathlib.Data.List.Induction
import Syntra.Plugins.Supervisor

/-!
# Diagnostics of plugins

What is kept of the lines that a plugin writes.
-/

namespace Syntra.Plugins

open List

/-- What is left of some lines to be shown. -/
def shownOf (said : List String) : List String :=
  (said.map sanitizeLine).filter (· ≠ "")

theorem foldl_pushDiagnostic (said : List String) :
    said.foldl pushDiagnostic [] =
      (shownOf said).drop ((shownOf said).length - diagnosticLines) := by
  induction said using reverseRecOn with
  | nil => rfl
  | append_singleton said line ih =>
    simp only [shownOf] at ih ⊢
    simp only [foldl_append, foldl_cons, foldl_nil, map_append, filter_append, map_cons, map_nil,
      ih]
    generalize (said.map sanitizeLine).filter (· ≠ "") = kept
    by_cases blank : sanitizeLine line = ""
    · simp [pushDiagnostic, blank]
    · have room : 0 < diagnosticLines := by decide
      simp only [pushDiagnostic, blank, if_false, length_drop, drop_drop]
      simp only [ne_eq, blank, not_false_eq_true, decide_true, filter_cons_of_pos, filter_nil,
        length_append, length_singleton]
      split_ifs with full
      · rw [drop_append_of_le_length (by omega)]
        congr 2
        omega
      · rw [drop_append_of_le_length (by omega)]
        congr 2
        omega

theorem not_isControl_of_mem_sanitizeLine {line : String} {character : Char}
    (member : character ∈ (sanitizeLine line).toList) : isControl character = false := by
  have plain : ∀ character ∈ (line.toList.filter fun character =>
      !isControl character || character = '\t').map
        fun character => if character = '\t' then ' ' else character,
      isControl character = false := by
    simp only [mem_map, mem_filter, forall_exists_index, and_imp]
    rintro _ character - kept rfl
    split_ifs with tab
    · rfl
    · simpa [tab] using kept
  unfold sanitizeLine at member
  generalize (line.toList.filter _).map _ = kept at plain member
  have within : ((kept.dropWhile isWhitespace).reverse.dropWhile isWhitespace).reverse ⊆ kept :=
    fun _ inside => (dropWhile_sublist _).subset <| mem_reverse.mp <|
      (dropWhile_sublist _).subset <| mem_reverse.mp inside
  rw [String.toList_ofList] at member
  split_ifs at member
  · rcases mem_append.mp member with inside | last
    · exact plain _ (within (mem_of_mem_take inside))
    · rw [mem_singleton.mp last]
      rfl
  · exact plain _ (within member)

theorem length_sanitizeLine (line : String) : (sanitizeLine line).length ≤ diagnosticWidth + 1 := by
  unfold sanitizeLine
  rw [String.length_ofList]
  split_ifs
  · simp
  · omega

/-- The latest lines that are not blank are kept, and what is shown of them is short and plain. -/
theorem diagnostics_bounded (said : List String) :
    said.foldl pushDiagnostic [] = (shownOf said).drop ((shownOf said).length - diagnosticLines) ∧
      (said.foldl pushDiagnostic []).length ≤ diagnosticLines ∧
      ∀ text ∈ said.foldl pushDiagnostic [], text ≠ "" ∧ text.length ≤ diagnosticWidth + 1 ∧
        ∀ character ∈ text.toList, isControl character = false := by
  rw [foldl_pushDiagnostic]
  refine ⟨rfl, ?_, fun text kept => ?_⟩
  · rw [length_drop]
    omega
  · rcases mem_filter.mp (mem_of_mem_drop kept) with ⟨listed, nonempty⟩
    rcases mem_map.mp listed with ⟨line, -, rfl⟩
    exact ⟨of_decide_eq_true nonempty, length_sanitizeLine line,
      fun _ => not_isControl_of_mem_sanitizeLine⟩

end Syntra.Plugins
