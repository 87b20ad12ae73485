import Mathlib.Data.List.Basic
import Mathlib.Tactic.Ring
import Mathlib.Tactic.Linarith

/-!
# Big-endian numerals

Fixed-width big-endian byte strings of natural numbers. A numeral of width `width` and the
number it denotes determine each other below `256 ^ width`, which is all that a length-checked
wire format needs to know about its scalars.
-/

namespace ByteFormat

open Nat

/-- A byte string: a buffer being written, or the unread part of a datagram. -/
abbrev Bytes := List UInt8

/-- The `width` low-order bytes of `value`, most significant byte first. -/
def toBeBytes : ℕ → ℕ → Bytes
  | 0, _ => []
  | width + 1, value => UInt8.ofNat (value / 256 ^ width) :: toBeBytes width value

/-- The number denoted by a big-endian byte string. -/
def fromBeBytes : Bytes → ℕ
  | [] => 0
  | byte :: bytes => byte.toNat * 256 ^ bytes.length + fromBeBytes bytes

@[simp]
theorem length_toBeBytes (width value : ℕ) : (toBeBytes width value).length = width := by
  induction width with
  | zero => rfl
  | succ _ ih => simp [toBeBytes, ih]

theorem fromBeBytes_toBeBytes (width value : ℕ) :
    fromBeBytes (toBeBytes width value) = value % 256 ^ width := by
  induction width with
  | zero => simp [toBeBytes, fromBeBytes, mod_one]
  | succ width ih =>
    simp only [toBeBytes, fromBeBytes, ih, length_toBeBytes, UInt8.toNat_ofNat']
    have digits := mod_pow_succ (x := value) (b := 256) (k := width)
    rw [digits, mul_comm, add_comm]

theorem fromBeBytes_lt (bytes : Bytes) : fromBeBytes bytes < 256 ^ bytes.length := by
  induction bytes with
  | nil => simp [fromBeBytes]
  | cons byte bytes =>
    have byteBounded : byte.toNat + 1 ≤ 256 := byte.toNat_lt
    have scaled : (byte.toNat + 1) * 256 ^ bytes.length ≤ 256 * 256 ^ bytes.length :=
      mul_le_mul_right _ byteBounded
    simp only [fromBeBytes, List.length_cons, pow_succ]
    rw [add_one_mul] at scaled
    omega

/-- High-order digits are invisible to a narrower numeral. -/
theorem toBeBytes_mul_pow_add {width high : ℕ} (narrow : width ≤ high) (digit value : ℕ) :
    toBeBytes width (digit * 256 ^ high + value) = toBeBytes width value := by
  induction width with
  | zero => rfl
  | succ width ih =>
    obtain ⟨gap, rfl⟩ := Nat.exists_eq_add_of_le narrow
    have digitSplit : digit * 256 ^ (width + 1 + gap) + value =
        value + 256 ^ width * (256 * (digit * 256 ^ gap)) := by ring
    have quotient : (digit * 256 ^ (width + 1 + gap) + value) / 256 ^ width =
        value / 256 ^ width + 256 * (digit * 256 ^ gap) := by
      rw [digitSplit, add_mul_div_left _ _ (by positivity)]
    have lowByte : UInt8.ofNat (value / 256 ^ width + 256 * (digit * 256 ^ gap)) =
        UInt8.ofNat (value / 256 ^ width) := by
      apply UInt8.toNat_inj.mp
      simp
    rw [toBeBytes, toBeBytes, ih (by omega), quotient, lowByte]

theorem toBeBytes_fromBeBytes (bytes : Bytes) :
    toBeBytes bytes.length (fromBeBytes bytes) = bytes := by
  induction bytes with
  | nil => rfl
  | cons byte bytes ih =>
    have quotient : (byte.toNat * 256 ^ bytes.length + fromBeBytes bytes) /
        256 ^ bytes.length = byte.toNat := by
      rw [mul_comm, mul_add_div (by positivity), div_eq_of_lt (fromBeBytes_lt bytes), add_zero]
    rw [List.length_cons, toBeBytes, fromBeBytes, quotient,
      toBeBytes_mul_pow_add le_rfl, ih, UInt8.ofNat_toNat]

end ByteFormat
