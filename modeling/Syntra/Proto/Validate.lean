import Syntra.Proto.Wire

/-!
# Validity rules of the codec

The checks that `encode` and `decode` make on names, paths, ranges and counts. Rust strings are
inspected by their UTF-8 bytes: every character the rules look for is ASCII, apart from the
superscript digits, which are named by their own bytes.
-/

namespace Syntra.Proto

open ByteFormat

def isAsciiControl (byte : UInt8) : Bool :=
  byte < 0x20 || byte = 0x7f

def toAsciiLowercase (byte : UInt8) : UInt8 :=
  if 0x41 ≤ byte ∧ byte ≤ 0x5a then byte + 0x20 else byte

def eqIgnoreAsciiCase (left right : Bytes) : Bool :=
  left.map toAsciiLowercase = right.map toAsciiLowercase

/-- `str::is_char_boundary`. -/
def isCharBoundary (text : Bytes) (index : ℕ) : Bool :=
  index = 0 || match text[index]? with
    | some byte => byte < 0x80 || 0xc0 ≤ byte
    | none => index = text.length

/-- `str::get(..index)`. -/
def getTo (text : Bytes) (index : ℕ) : Option Bytes :=
  if isCharBoundary text index then some (text.take index) else none

/-- `str::get(index..)`. -/
def getFrom (text : Bytes) (index : ℕ) : Option Bytes :=
  if isCharBoundary text index then some (text.drop index) else none

/-- `str::trim_end_matches(' ')`. -/
def trimEndSpaces (text : Bytes) : Bytes :=
  (text.reverse.dropWhile (· = 0x20)).reverse

def reservedNames : List Bytes :=
  ["CON", "PRN", "AUX", "NUL"].map utf8

def reservedPortSuffixes : List Bytes :=
  ["1", "2", "3", "4", "5", "6", "7", "8", "9", "¹", "²", "³"].map utf8

/-- Whether a name up to its first dot is a Windows device name. -/
def isReservedStem (stem : Bytes) : Bool :=
  reservedNames.any (eqIgnoreAsciiCase stem) ||
    ((getTo stem 3).any (fun start =>
        eqIgnoreAsciiCase start (utf8 "COM") || eqIgnoreAsciiCase start (utf8 "LPT")) &&
      (getFrom stem 3).any (fun suffix => suffix ∈ reservedPortSuffixes))

def validateManualFileName (name : String) : Except ProtocolError Unit :=
  let bytes := utf8 name
  if bytes.isEmpty || bytes.length > maxManualFileNameSize || bytes = utf8 "." ||
      bytes = utf8 ".." || bytes.head? = some 0x2f || bytes.contains 0x2f ||
      bytes.contains 0x5c || bytes.getLast? = some 0x2e || bytes.getLast? = some 0x20 ||
      bytes.any (fun byte => byte = 0 || isAsciiControl byte) ||
      bytes.any (fun byte => byte ∈ [0x3c, 0x3e, 0x3a, 0x22, 0x7c, 0x3f, 0x2a]) then
    .error (.invalidPath name)
  else
    let stem := trimEndSpaces (bytes.takeWhile (· ≠ 0x2e))
    if isReservedStem stem then .error (.invalidPath name) else .ok ()

def validatePath (path : String) : Except ProtocolError Unit :=
  let bytes := utf8 path
  if bytes.length > maxClipboardPathSize then
    .error (.tooLarge bytes.length maxClipboardPathSize)
  else if bytes.isEmpty || bytes.head? = some 0x2f || bytes.getLast? = some 0x2f ||
      bytes.any (fun byte => byte = 0x5c || byte = 0x3a || byte = 0) then
    .error (.invalidPath path)
  else if (bytes.splitOn 0x2f).any (fun part =>
      part.isEmpty || part = utf8 "." || part = utf8 "..") then
    .error (.invalidPath path)
  else
    .ok ()

/-- `u64::checked_add`. -/
def checkedAdd (left right : UInt64) : Option UInt64 :=
  if left.toNat + right.toNat ≤ u64Max then some (left + right) else none

theorem checkedAdd_eq_some {left right sum : UInt64} :
    checkedAdd left right = some sum ↔ left.toNat + right.toNat ≤ u64Max ∧ sum = left + right := by
  unfold checkedAdd
  split
  · rename_i fits
    simp [fits, eq_comm]
  · rename_i overflows
    simp [overflows]

theorem toNat_add_of_le {left right : UInt64} (fits : left.toNat + right.toNat ≤ u64Max) :
    (left + right).toNat = left.toNat + right.toNat := by
  apply Nat.mod_eq_of_lt
  exact lt_of_le_of_lt fits (by decide)

/-- `usize::checked_mul`. -/
def checkedMul (left right : ℕ) : Option ℕ :=
  if left * right ≤ usizeMax then some (left * right) else none

theorem checkedMul_eq_some {left right product : ℕ} :
    checkedMul left right = some product ↔ left * right ≤ usizeMax ∧ left * right = product := by
  simp [checkedMul]

/-- `div_ceil`. -/
def divCeil (value divisor : ℕ) : ℕ :=
  (value + divisor - 1) / divisor

def validateFilePosition (value : UInt64) : Except ProtocolError Unit :=
  if value.toNat > maxClipboardSize then
    .error (.tooLarge value.toNat maxClipboardSize)
  else
    .ok ()

def validateFileChunk (offset : UInt64) (dataLen : ℕ) : Except ProtocolError Unit := do
  if dataLen = 0 then
    throw (.invalidFileChunk "empty chunk")
  if dataLen > maxClipboardFileChunkSize then
    throw (.tooLarge dataLen maxClipboardFileChunkSize)
  validateFilePosition offset
  let finish ← okOr (checkedAdd offset (UInt64.ofNat dataLen)) .lengthOverflow
  validateFilePosition finish

def validateProgress (completed total : UInt64) : Except ProtocolError Unit := do
  validateFilePosition total
  if completed > total then
    throw (.invalidProgress completed total)

def validateIds (fileId requestId : UInt64) : Except ProtocolError Unit := do
  if fileId = 0 then
    throw (.invalidFileChunk "zero file id")
  if requestId = 0 then
    throw (.invalidFileChunk "zero request id")

def validateRequest (offset length : UInt64) : Except ProtocolError Unit := do
  validateFilePosition offset
  if length = 0 ∨ length.toNat > maxClipboardFileChunkSize then
    throw (.invalidFileChunk "invalid request length")
  let finish ← okOr (checkedAdd offset length) .lengthOverflow
  validateFilePosition finish

def validateHistoryStart (totalLen chunks : UInt32) : Except ProtocolError Unit := do
  if totalLen.toNat = 0 ∨ totalLen.toNat > maxHistoryRecordSize then
    throw (.tooLarge totalLen.toNat maxHistoryRecordSize)
  let expected := UInt32.ofNat (divCeil totalLen.toNat maxHistoryChunkSize)
  if chunks ≠ expected then
    throw (.invalidChunkCount expected chunks)

def validateClipboardStart (totalLen chunks : UInt32) : Except ProtocolError Unit := do
  if totalLen.toNat > maxClipboardSize then
    throw (.tooLarge totalLen.toNat maxClipboardSize)
  let expected :=
    if totalLen = 0 then 0 else UInt32.ofNat (divCeil totalLen.toNat maxClipboardChunkSize)
  if chunks ≠ expected then
    throw (.invalidChunkCount expected chunks)

def validateClipboardImage (width height totalLen chunks : UInt32) : Except ProtocolError Unit := do
  let expectedLen ← okOr ((checkedMul width.toNat height.toNat).bind (checkedMul · 4))
    (.tooLarge usizeMax maxClipboardSize)
  if expectedLen ≠ totalLen.toNat then
    throw (.tooLarge totalLen.toNat expectedLen)
  validateClipboardStart totalLen chunks

/-- The metadata check that both sides of `ProfileStart` make. -/
def invalidProfileMetadata (nameLen : ℕ) (width height totalLen chunks : UInt32) : Bool :=
  let empty := width = 0 && height = 0 && totalLen = 0 && chunks = 0
  let pixels := (checkedMul width.toNat height.toNat).bind (checkedMul · 4)
  nameLen > maxProfileNameSize || width > 128 || height > 128 || totalLen.toNat > maxProfileSize ||
    (!empty && (chunks = 0 || pixels ≠ some totalLen.toNat)) ||
    (empty && pixels ≠ some 0)

end Syntra.Proto
