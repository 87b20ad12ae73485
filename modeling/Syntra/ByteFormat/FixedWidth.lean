import Syntra.ByteFormat.Sections

/-!
# Serialization at fixed widths

A serializer that writes scalars at their full width, least significant byte first, puts the length
before whatever is counted and a byte before what may be missing. What matters here is how long the
result can be.
-/

namespace ByteFormat

@[simp]
theorem length_sized (bytes : Bytes) : (sized bytes).length = 8 + bytes.length := by
  simp [sized]

variable {α : Type} (serialize : α → Bytes)

def optionBytes : Option α → Bytes
  | none => [0]
  | some value => 1 :: serialize value

/-- Elements after their number. -/
def sequenceBytes (values : List α) : Bytes := toLeBytes 8 values.length ++ values.flatMap serialize

variable {serialize} {bound : ℕ}

theorem length_optionBytes_le {value : Option α}
    (short : ∀ present, value = some present → (serialize present).length ≤ bound) :
    (optionBytes serialize value).length ≤ 1 + bound := by
  cases value with
  | none => simp [optionBytes]
  | some present =>
    have held := short present rfl
    rw [optionBytes, List.length_cons]
    omega

theorem length_sequenceBytes_le {values : List α}
    (short : ∀ value ∈ values, (serialize value).length ≤ bound) :
    (sequenceBytes serialize values).length ≤ 8 + values.length * bound := by
  rw [sequenceBytes, List.length_append, length_toLeBytes]
  apply Nat.add_le_add_left
  induction values with
  | nil => simp
  | cons first _ ih =>
    have here := short first (.head _)
    have rest := ih fun value member => short value (.tail _ member)
    rw [List.flatMap_cons, List.length_append, List.length_cons, Nat.succ_mul]
    omega

end ByteFormat
