import Mathlib.Data.List.Infix
import Syntra.Store.Operations

/-!
# What a search pattern matches

The pattern of `like_pattern` under the `LIKE` of SQLite: `%` stands for any sequence of characters,
`_` for one, what follows the escape character for itself, and the letters of ASCII match in either
case.
-/

namespace Syntra.Store

open List

def matchFirst (matching : Char → Bool) (pattern : List Char → Bool) : List Char → Bool
  | [] => false
  | first :: field => matching first && pattern field

/-- `field LIKE pattern ESCAPE escape`, as it is documented: a field is not cut at a `U+0000`, and a
pattern has any length, though SQLite refuses one of more than 50,000 bytes. -/
def sqliteLike (escape : Char) : List Char → List Char → Bool
  | [], field => field.isEmpty
  | character :: pattern, field =>
    if character = escape then
      match pattern with
      | [] => false
      | literal :: pattern =>
        matchFirst (·.toLower = literal.toLower) (sqliteLike escape pattern) field
    else if character = '%' then
      field.tails.any (sqliteLike escape pattern)
    else if character = '_' then
      matchFirst (fun _ => true) (sqliteLike escape pattern) field
    else
      matchFirst (·.toLower = character.toLower) (sqliteLike escape pattern) field

variable {pattern field : List Char}

theorem sqliteLike_escaped (character : Char) :
    sqliteLike '\\' ((if character = '%' ∨ character = '_' ∨ character = '\\' then
      ['\\', character] else [character]) ++ pattern) field =
        matchFirst (·.toLower = character.toLower) (sqliteLike '\\' pattern) field := by
  split
  · rfl
  · rename_i plain
    simp only [not_or] at plain
    rw [cons_append, nil_append, sqliteLike.eq_def]
    simp only [plain, if_false]

theorem sqliteLike_escapeLike (query : List Char) :
    sqliteLike '\\' ((escapeLike (String.ofList query)).toList ++ pattern) field = true ↔
      ∃ piece rest, field = piece ++ rest ∧ piece.map Char.toLower = query.map Char.toLower ∧
        sqliteLike '\\' pattern rest = true := by
  simp only [escapeLike, String.toList_ofList]
  induction query generalizing field with
  | nil =>
    constructor
    · intro matched
      exact ⟨[], field, rfl, rfl, matched⟩
    · rintro ⟨piece, rest, rfl, same, matched⟩
      cases map_eq_nil_iff.mp same
      exact matched
  | cons character query ih =>
    rw [flatMap_cons, append_assoc, sqliteLike_escaped]
    cases field with
    | nil => simp [matchFirst]
    | cons first field =>
      simp only [matchFirst, Bool.and_eq_true, decide_eq_true_eq, ih]
      constructor
      · rintro ⟨same, piece, rest, rfl, alike, matched⟩
        exact ⟨first :: piece, rest, rfl, by rw [map_cons, map_cons, same, alike], matched⟩
      · rintro ⟨piece, rest, whole, alike, matched⟩
        cases piece with
        | nil => cases alike
        | cons other piece =>
          cases whole
          rw [map_cons, map_cons, cons.injEq] at alike
          exact ⟨alike.1, piece, rest, rfl, alike.2, matched⟩

/-- A pattern matches the fields that contain the query, up to the case of ASCII letters. -/
theorem sqliteLike_likePattern (query field : String) :
    sqliteLike '\\' (likePattern query).toList field.toList = true ↔
      query.toList.map Char.toLower <:+: field.toList.map Char.toLower := by
  have pattern : (likePattern query).toList =
      '%' :: ((escapeLike (String.ofList query.toList)).toList ++ ['%']) := by
    simp [likePattern]
  have any (rest : List Char) : sqliteLike '\\' ['%'] rest = true := by
    rw [sqliteLike.eq_def]
    simp [sqliteLike]
  rw [pattern, sqliteLike.eq_def]
  simp only [Char.reduceEq, if_false, if_true, any_eq_true, mem_tails, sqliteLike_escapeLike, any,
    and_true]
  constructor
  · rintro ⟨_, ⟨before, whole⟩, piece, rest, rfl, alike⟩
    rw [← whole, ← alike]
    exact ⟨before.map Char.toLower, rest.map Char.toLower, by simp⟩
  · rintro ⟨before, after, whole⟩
    rcases map_eq_append_iff.mp whole.symm with ⟨start, rest, split, same, _⟩
    rcases map_eq_append_iff.mp same with ⟨before, piece, rfl, _, alike⟩
    exact ⟨piece ++ rest, ⟨before, by rw [split, append_assoc]⟩, piece, rest, rfl, alike⟩

end Syntra.Store
