import Syntra.ByteFormat.Reader
import Syntra.Proto.Event

/-!
# Byte-level encoding primitives

The scalars of the peer protocol (`wire.rs`). Everything is big-endian and length-checked. Each
read has one specification: it accepts exactly the inputs that start with what the matching
write appends.
-/

namespace Syntra.Proto

open ByteFormat UInt16
open Reader (bind_eq_ok pure_eq_ok scalar scalar_eq_ok)

abbrev WireReader := Reader ProtocolError

def u16Bytes (value : UInt16) : Bytes := toBeBytes 2 value.toNat

def u32Bytes (value : UInt32) : Bytes := toBeBytes 4 value.toNat

def u64Bytes (value : UInt64) : Bytes := toBeBytes 8 value.toNat

variable (buf : Bytes)

def push (byte : UInt8) : Bytes := buf ++ [byte]

def extendFromSlice (buf bytes : Bytes) : Bytes := buf ++ bytes

def putU16 (value : UInt16) : Bytes := buf ++ u16Bytes value

def putU32 (value : UInt32) : Bytes := buf ++ u32Bytes value

def putU64 (value : UInt64) : Bytes := buf ++ u64Bytes value

def putI32 (value : Int32) : Bytes := buf ++ u32Bytes value.toUInt32

def putF64 (value : F64) : Bytes := buf ++ u64Bytes value.bits

def putText (text : String) : Bytes :=
  extendFromSlice (putU16 buf (UInt16.ofNat (utf8 text).length)) (utf8 text)

def putOptionalU64 (value : Option UInt64) : Bytes :=
  let buf := push buf value.isSome.toUInt8
  match value with
  | some value => putU64 buf value
  | none => buf

def putOptionalString (value : Option String) : Except ProtocolError Bytes :=
  match value with
  | none => .ok (putU16 buf 0)
  | some value =>
    if (utf8 value).isEmpty || (utf8 value).length > 0xffff then
      .error (.invalidHistory "invalid error string")
    else
      .ok (putText buf value)

/-- Splits `length` bytes off the front of the input. -/
def take (length : ℕ) : WireReader Bytes :=
  Reader.take .truncated length

def takeAll : WireReader Bytes := fun input => .ok (input, [])

def remaining : WireReader ℕ := fun input => .ok (input.length, input)

def getU8 : WireReader UInt8 :=
  scalar .truncated 1 UInt8.ofNat

def getU16 : WireReader UInt16 :=
  scalar .truncated 2 UInt16.ofNat

def getU32 : WireReader UInt32 :=
  scalar .truncated 4 UInt32.ofNat

def getU64 : WireReader UInt64 :=
  scalar .truncated 8 UInt64.ofNat

def getI32 : WireReader Int32 := do
  let bits ← getU32
  pure bits.toInt32

def getF64 : WireReader F64 := do
  let bits ← getU64
  pure ⟨bits⟩

/-- A byte that stands for one of a few values. -/
def getCode {α : Type} (ofByte? : UInt8 → Option α) (unknown : UInt8 → ProtocolError) :
    WireReader α := do
  let byte ← getU8
  match ofByte? byte with
  | some value => pure value
  | none => throw (unknown byte)

def getBool : WireReader Bool :=
  getCode boolOfByte? .invalidBoolean

def getNonzero (zero : ProtocolError) : WireReader UInt64 := do
  let value ← getU64
  if value = 0 then throw zero else pure value

def getOptionalU64 : WireReader (Option UInt64) := do
  if ← getBool then
    let value ← getU64
    pure (some value)
  else
    pure none

/-- `length` bytes of UTF-8 text, refused with `malformed` when they are not. -/
def takeString (length : ℕ) (malformed : ProtocolError) : WireReader String := do
  let bytes ← take length
  match fromUtf8? bytes with
  | some text => pure text
  | none => throw malformed

/-- A string behind its 16-bit length, which is checked before the text is taken. -/
def getText (invalid : ℕ → Bool) (refused : ℕ → ProtocolError) (malformed : ProtocolError) :
    WireReader String := do
  let length ← getU16
  if invalid length.toNat then
    throw (refused length.toNat)
  takeString length.toNat malformed

def getOptionalString : WireReader (Option String) := do
  let length ← getU16
  if length.toNat = 0 then
    pure none
  else
    let value ← takeString length.toNat (.invalidHistory "non-UTF-8 error string")
    pure (some value)

/-- `take(buf, size)?.try_into()`. -/
def takeArray (size : ℕ) : WireReader (ByteVec size) := fun input =>
  if sized : (input.take size).length = size then
    .ok (⟨input.take size, sized⟩, input.drop size)
  else
    .error .truncated

variable {input rest : Bytes}

variable {length : ℕ} {bytes more : Bytes} {value : UInt64} {malformed : ProtocolError}
  {text : String}

@[simp]
theorem take_eq_ok :
    take length input = .ok (bytes, rest) ↔ bytes.length = length ∧ input = bytes ++ rest :=
  Reader.take_eq_ok

@[simp]
theorem takeAll_eq_ok : takeAll input = .ok (bytes, rest) ↔ input = bytes ∧ rest = [] := by
  simp [takeAll, eq_comm]

@[simp]
theorem remaining_eq_ok :
    remaining input = .ok (length, rest) ↔ input.length = length ∧ input = rest := by
  simp [remaining]

@[simp]
theorem getU8_eq_ok {value : UInt8} : getU8 input = .ok (value, rest) ↔ input = value :: rest := by
  have spec : getU8 input = .ok (value, rest) ↔ input = toBeBytes 1 value.toNat ++ rest :=
    scalar_eq_ok (fun value => UInt8.ofNat_toNat) (fun value => value.toNat_lt)
      (fun _ _ => by simp only [UInt8.toNat_ofNat']; omega)
  rw [spec]
  simp [toBeBytes]

@[simp]
theorem getU16_eq_ok {value : UInt16} :
    getU16 input = .ok (value, rest) ↔ input = u16Bytes value ++ rest :=
  scalar_eq_ok (fun value => UInt16.ofNat_toNat) (fun value => value.toNat_lt)
    (fun _ _ => by simp only [toNat_ofNat']; omega)

@[simp]
theorem getU32_eq_ok {value : UInt32} :
    getU32 input = .ok (value, rest) ↔ input = u32Bytes value ++ rest :=
  scalar_eq_ok (fun value => UInt32.ofNat_toNat) (fun value => value.toNat_lt)
    (fun _ _ => by simp only [UInt32.toNat_ofNat']; omega)

@[simp]
theorem getU64_eq_ok : getU64 input = .ok (value, rest) ↔ input = u64Bytes value ++ rest :=
  scalar_eq_ok (fun value => UInt64.ofNat_toNat) (fun value => value.toNat_lt)
    (fun _ _ => by simp only [UInt64.toNat_ofNat']; omega)

@[simp]
theorem u16Bytes_append_inj {left right : UInt16} :
    u16Bytes left ++ rest = u16Bytes right ++ more ↔ left = right ∧ rest = more := by
  rw [← getU16_eq_ok, getU16_eq_ok.mpr rfl]
  simp

@[simp]
theorem u32Bytes_append_inj {left right : UInt32} :
    u32Bytes left ++ rest = u32Bytes right ++ more ↔ left = right ∧ rest = more := by
  rw [← getU32_eq_ok, getU32_eq_ok.mpr rfl]
  simp

@[simp]
theorem u64Bytes_append_inj {left right : UInt64} :
    u64Bytes left ++ rest = u64Bytes right ++ more ↔ left = right ∧ rest = more := by
  rw [← getU64_eq_ok, getU64_eq_ok.mpr rfl]
  simp

@[simp]
theorem getI32_eq_ok {value : Int32} :
    getI32 input = .ok (value, rest) ↔ input = u32Bytes value.toUInt32 ++ rest := by
  simp only [getI32, bind_eq_ok, getU32_eq_ok, pure_eq_ok]
  constructor
  · rintro ⟨_, _, rfl, rfl, rfl⟩
    rfl
  · rintro rfl
    exact ⟨value.toUInt32, rest, rfl, rfl, rfl⟩

@[simp]
theorem getF64_eq_ok {value : F64} :
    getF64 input = .ok (value, rest) ↔ input = u64Bytes value.bits ++ rest := by
  simp only [getF64, bind_eq_ok, getU64_eq_ok, pure_eq_ok]
  constructor
  · rintro ⟨bits, _, rfl, rfl, rfl⟩
    rfl
  · rintro rfl
    exact ⟨value.bits, rest, rfl, rfl, rfl⟩

theorem getCode_eq_ok {α : Type} {ofByte? : UInt8 → Option α} {toByte : α → UInt8}
    {unknown : UInt8 → ProtocolError}
    (inverse : ∀ {byte : UInt8} {value : α}, ofByte? byte = some value ↔ byte = toByte value)
    {value : α} :
    getCode ofByte? unknown input = .ok (value, rest) ↔ input = toByte value :: rest := by
  simp only [getCode, bind_eq_ok, getU8_eq_ok]
  constructor
  · rintro ⟨byte, _, rfl, matched⟩
    rcases named : ofByte? byte with _ | _
    · simp [named] at matched
    · rw [named, pure_eq_ok] at matched
      rcases matched with ⟨rfl, rfl⟩
      rw [inverse.mp named]
  · rintro rfl
    refine ⟨toByte value, rest, rfl, ?_⟩
    rw [inverse.mpr rfl, pure_eq_ok]
    exact ⟨rfl, rfl⟩

@[simp]
theorem getBool_eq_ok {value : Bool} :
    getBool input = .ok (value, rest) ↔ input = value.toUInt8 :: rest :=
  getCode_eq_ok boolOfByte?_eq_some

@[simp]
theorem getNonzero_eq_ok {zero : ProtocolError} :
    getNonzero zero input = .ok (value, rest) ↔ input = u64Bytes value ++ rest ∧ value ≠ 0 := by
  simp only [getNonzero, bind_eq_ok, getU64_eq_ok, Reader.ite_throw_eq_ok, pure_eq_ok]
  constructor
  · rintro ⟨_, _, rfl, nonzero, rfl, rfl⟩
    exact ⟨rfl, nonzero⟩
  · rintro ⟨rfl, nonzero⟩
    exact ⟨value, rest, rfl, nonzero, rfl, rfl⟩

/-- The bytes of an optional number: a presence byte, then the number. -/
def optionalU64Bytes (value : Option UInt64) : Bytes :=
  value.isSome.toUInt8 :: value.elim [] u64Bytes

@[simp]
theorem putOptionalU64_eq (value : Option UInt64) :
    putOptionalU64 buf value = buf ++ optionalU64Bytes value := by
  cases value <;> simp [putOptionalU64, optionalU64Bytes, push, putU64]

@[simp]
theorem getOptionalU64_eq_ok {value : Option UInt64} :
    getOptionalU64 input = .ok (value, rest) ↔ input = optionalU64Bytes value ++ rest := by
  simp only [getOptionalU64, bind_eq_ok, getBool_eq_ok]
  constructor
  · rintro ⟨present, _, rfl, continued⟩
    cases present
    · simp at continued
      rcases continued with ⟨rfl, rfl⟩
      simp [optionalU64Bytes]
    · simp at continued
      rcases continued with ⟨number, rfl, rfl⟩
      simp [optionalU64Bytes]
  · rintro rfl
    cases value with
    | none => exact ⟨false, rest, by simp [optionalU64Bytes], by simp⟩
    | some number => exact ⟨true, u64Bytes number ++ rest, by simp [optionalU64Bytes], by simp⟩

theorem toNat_ofNat_u16 (short : length ≤ 0xffff) : (ofNat length).toNat = length := by
  simp only [toNat_ofNat']
  omega

@[simp]
theorem takeString_eq_ok :
    takeString length malformed input = .ok (text, rest) ↔
      (utf8 text).length = length ∧ input = utf8 text ++ rest := by
  simp only [takeString, bind_eq_ok, take_eq_ok]
  constructor
  · rintro ⟨bytes, _, ⟨sized, rfl⟩, decoded⟩
    rcases valid : fromUtf8? bytes with _ | _
    · simp [valid] at decoded
    · rw [valid, pure_eq_ok] at decoded
      rcases decoded with ⟨rfl, rfl⟩
      rw [fromUtf8?_eq_some] at valid
      subst valid
      exact ⟨sized, rfl⟩
  · rintro ⟨sized, rfl⟩
    exact ⟨utf8 text, rest, ⟨sized, rfl⟩, by simp⟩

def textBytes (text : String) : Bytes :=
  u16Bytes (UInt16.ofNat (utf8 text).length) ++ utf8 text

@[simp]
theorem putText_eq (text : String) : putText buf text = buf ++ textBytes text := by
  simp [putText, extendFromSlice, putU16, textBytes]

theorem exists_length_iff (accepts : ℕ → Prop) :
    (∃ length : UInt16, ∃ middle, input = u16Bytes length ++ middle ∧ accepts length.toNat ∧
        (utf8 text).length = length.toNat ∧ middle = utf8 text ++ rest) ↔
      (utf8 text).length ≤ 0xffff ∧ accepts (utf8 text).length ∧
        input = textBytes text ++ rest := by
  constructor
  · rintro ⟨length, _, rfl, accepted, sized, rfl⟩
    have bounded := length.toNat_lt
    refine ⟨by omega, sized ▸ accepted, ?_⟩
    simp [textBytes, sized]
  · rintro ⟨short, _, rfl⟩
    refine ⟨ofNat (utf8 text).length, utf8 text ++ rest, ?_, ?_, ?_, rfl⟩
    · simp [textBytes]
    · rwa [toNat_ofNat_u16 short]
    · rw [toNat_ofNat_u16 short]

@[simp]
theorem getText_eq_ok {invalid : ℕ → Bool} {refused : ℕ → ProtocolError} :
    getText invalid refused malformed input = .ok (text, rest) ↔
      (utf8 text).length ≤ 0xffff ∧ invalid (utf8 text).length = false ∧
        input = textBytes text ++ rest := by
  rw [← exists_length_iff (fun length => invalid length = false)]
  simp [getText]

/-- An optional string as it fits the wire: absent, or non-empty with a 16-bit length. -/
def OptionalStringFits (value : Option String) : Prop :=
  ∀ text, value = some text → 0 < (utf8 text).length ∧ (utf8 text).length ≤ 0xffff

/-- The bytes of an optional string: a zero length when absent, else its text. -/
def optionalStringBytes (value : Option String) : Bytes :=
  value.elim (u16Bytes 0) textBytes

@[simp]
theorem putOptionalString_eq_ok {buf image : Bytes} {value : Option String} :
    putOptionalString buf value = .ok image ↔
      OptionalStringFits value ∧ buf ++ optionalStringBytes value = image := by
  cases value with
  | none => simp [putOptionalString, OptionalStringFits, optionalStringBytes, putU16]
  | some text =>
    simp only [putOptionalString, OptionalStringFits, optionalStringBytes, putText_eq,
      Option.some.injEq, forall_eq', Option.elim_some]
    split
    · rename_i misfit
      simp only [Bool.or_eq_true, List.isEmpty_iff, decide_eq_true_eq] at misfit
      constructor
      · intro impossible
        cases impossible
      · rintro ⟨fits, -⟩
        rcases misfit with empty | _
        · simp [empty] at fits
        · omega
    · rename_i fits
      simp only [Bool.or_eq_true, List.isEmpty_iff, decide_eq_true_eq, not_or] at fits
      have nonempty : 0 < (utf8 text).length := List.length_pos_iff.mpr fits.1
      have short : (utf8 text).length ≤ 0xffff := by omega
      simp [nonempty, short]

@[simp]
theorem getOptionalString_eq_ok {value : Option String} :
    getOptionalString input = .ok (value, rest) ↔
      OptionalStringFits value ∧ input = optionalStringBytes value ++ rest := by
  simp only [getOptionalString, bind_eq_ok, getU16_eq_ok]
  constructor
  · rintro ⟨length, _, rfl, continued⟩
    split at continued
    · rename_i absent
      rcases continued with ⟨rfl, rfl⟩
      have : length = 0 := UInt16.toNat_inj.mp (by simpa using absent)
      subst this
      simp [OptionalStringFits, optionalStringBytes]
    · rename_i present
      simp only [bind_eq_ok, takeString_eq_ok, pure_eq_ok] at continued
      rcases continued with ⟨text, _, ⟨sized, rfl⟩, rfl, rfl⟩
      have bounded := length.toNat_lt
      refine ⟨?_, ?_⟩
      · rintro _ same
        cases same
        omega
      · simp [optionalStringBytes, textBytes, sized]
  · rintro ⟨fits, rfl⟩
    cases value with
    | none => exact ⟨0, rest, rfl, by simp⟩
    | some text =>
      rcases fits text rfl with ⟨_, short⟩
      refine ⟨ofNat (utf8 text).length, utf8 text ++ rest, ?_, ?_⟩
      · simp [optionalStringBytes, textBytes]
      · rw [toNat_ofNat_u16 short, if_neg (by omega)]
        simp

@[simp]
theorem takeArray_eq_ok {size : ℕ} {value : ByteVec size} :
    takeArray size input = .ok (value, rest) ↔ input = value.toList ++ rest := by
  unfold takeArray
  split
  · rename_i sized
    constructor
    · intro accepted
      cases accepted
      exact (List.take_append_drop size input).symm
    · rintro rfl
      simp
  · rename_i short
    constructor
    · intro impossible
      cases impossible
    · rintro rfl
      simp at short

end Syntra.Proto
