import Mathlib.Data.Prod.Lex
import Mathlib.Data.String.Basic
import Syntra.Proto.Validate
import Syntra.Tables.Association

/-!
# Events of the clipboard history

The values that the history store keeps and the columns it keeps them in (`syntra-store`): the
check of an event, its row, and the way back from the row. The JSON that some columns hold is a
parameter, as is the `LIKE` of the database. An `INTEGER` column is a `ℤ`.
-/

namespace Syntra.Store

open ByteFormat Proto

def maxTextBytes : ℕ := 1024 * 1024

def maxImageBytes : ℕ := 32 * 1024 * 1024

def maxFiles : ℕ := 1024

def maxMetadataBytes : ℕ := 16 * 1024

def maxDeviceIdBytes : ℕ := 1024

def maxOriginLabelBytes : ℕ := 16 * 1024

def maxOperationIdBytes : ℕ := 1024

def maxUnpinnedRecords : ℕ := 1000

def i64Max : ℕ := 2 ^ 63 - 1

/-- Inclusive maximum observed sequence for each event origin. -/
abbrev ClearBoundary := Std.ExtTreeMap String UInt64

/-- Which copy of which device. -/
structure HistoryEventId where
  originDeviceId : String
  originSequence : UInt64
  deriving DecidableEq, Repr

/-- The device of a copy, and how many it had made. -/
structure HistoryOrigin where
  deviceId : String
  sequence : UInt64
  label : Option String
  deriving DecidableEq, Repr

def HistoryOrigin.eventId (origin : HistoryOrigin) : HistoryEventId :=
  ⟨origin.deviceId, origin.sequence⟩

/-- The kinds of content. -/
inductive HistoryKind where
  | text
  | image
  | files
  deriving DecidableEq, Repr

/-- What is kept of a copied file. -/
structure FileMetadata where
  name : String
  sizeBytes : UInt64
  mediaType : Option String
  deriving DecidableEq, Repr

/-- What was copied. -/
inductive HistoryContent where
  | text (value : String)
  | image (bytes : Option Bytes) (mediaType : Option String) (width height : Option UInt32)
  | files (files : List FileMetadata)
  deriving DecidableEq, Repr

def HistoryContent.kind : HistoryContent → HistoryKind
  | .text _ => .text
  | .image .. => .image
  | .files _ => .files

/-- A copy as users see it. -/
structure HistoryRecord where
  eventId : HistoryEventId
  createdAtMs : ℤ
  originLabel : Option String
  pinned : Bool
  content : HistoryContent
  deriving DecidableEq, Repr

/-- A copy as devices exchange it. -/
structure ImportedHistoryEvent where
  eventId : HistoryEventId
  createdAtMs : ℤ
  originLabel : Option String
  content : HistoryContent
  deriving DecidableEq, Repr

/-- What has become of a merged event. -/
inductive MergeOutcome where
  | inserted
  | alreadyPresent
  | suppressed
  deriving DecidableEq, Repr

/-- Why a call of the store fails. -/
inductive HistoryError where
  | database (conversion : HistoryError)
  | invalidPayload (reason : String)
  | corruptData (reason : String)
  | eventConflict (eventId : HistoryEventId)
  | clearOperationConflict (operationId : String)
  | invalidClock
  deriving DecidableEq, Repr

def validateString (label value : String) (maximum : ℕ) : Except HistoryError Unit := do
  if (utf8 value).isEmpty then
    throw (.invalidPayload s!"{label} must not be empty")
  if (utf8 value).length > maximum then
    throw (.invalidPayload s!"{label} exceeds {maximum} bytes")

def validateOptional (label : String) (value : Option String) (maximum : ℕ) :
    Except HistoryError Unit :=
  match value with
  | some value => validateString label value maximum
  | none => pure ()

def sequenceToSql (sequence : UInt64) : Except HistoryError ℤ :=
  if sequence.toNat ≤ i64Max then
    .ok sequence.toNat
  else
    .error (.invalidPayload "origin sequence exceeds SQLite INTEGER")

def validateImage (bytes : Option Bytes) (mediaType : Option String)
    (width height : Option UInt32) : Except HistoryError Unit := do
  if bytes.any (fun value => value.length > maxImageBytes) then
    throw (.invalidPayload s!"image exceeds {maxImageBytes} bytes")
  if bytes.any (·.isEmpty) then
    throw (.invalidPayload "image bytes must not be empty")
  validateOptional "image media type" mediaType maxMetadataBytes
  if width.isSome ≠ height.isSome then
    throw (.invalidPayload "image width and height must be supplied together")
  if width = some 0 ∨ height = some 0 then
    throw (.invalidPayload "image dimensions must be positive")
  if mediaType = some "image/x-rgba8" then
    let expected ← okOr
      (width.bind fun width => height.bind fun height =>
        (checkedMul width.toNat height.toNat).bind (checkedMul · 4))
      (HistoryError.invalidPayload "RGBA image requires valid width and height")
    if bytes.all (fun bytes => bytes.length ≠ expected) then
      throw (.invalidPayload "RGBA image byte length does not match width * height * 4")
  if bytes.isNone ∧ mediaType.isNone then
    throw (.invalidPayload "image requires bytes or a media type")

def validateFile (file : FileMetadata) : Except HistoryError Unit := do
  validateString "file name" file.name maxMetadataBytes
  validateOptional "file media type" file.mediaType maxMetadataBytes

def validateContent : HistoryContent → Except HistoryError Unit
  | .text value => validateString "text" value maxTextBytes
  | .image bytes mediaType width height => validateImage bytes mediaType width height
  | .files files => do
    if files.isEmpty ∨ files.length > maxFiles then
      throw (.invalidPayload s!"file metadata must contain 1 to {maxFiles} entries")
    files.forM validateFile

def validateEvent (event : ImportedHistoryEvent) : Except HistoryError Unit := do
  validateString "origin device id" event.eventId.originDeviceId maxDeviceIdBytes
  validateOptional "origin label" event.originLabel maxOriginLabelBytes
  let _ ← sequenceToSql event.eventId.originSequence
  validateContent event.content

/-- The primary key `(origin_device_id, origin_sequence)`. -/
abbrev EventKey := String × ℤ

/-- The other columns of `history_events`. -/
structure EventRow where
  kind : String
  createdAtMs : ℤ
  originLabel : Option String
  textPayload : Option String
  imagePayload : Option Bytes
  mediaType : Option String
  imageWidth : Option UInt32
  imageHeight : Option UInt32
  filesJson : Option String
  deriving DecidableEq, Repr

/-- As `{:?}` prints it. -/
def HistoryKind.debug : HistoryKind → String
  | .text => "Text"
  | .image => "Image"
  | .files => "Files"

def HistoryKind.asStr : HistoryKind → String
  | .text => "text"
  | .image => "image"
  | .files => "files"

/-- A character of a string as `{:?}` prints it. From U+00A0 on it stands as it is here, though
`{:?}` also escapes those of these characters that do not print. -/
def debugChar (character : Char) : List Char :=
  match character with
  | '\x00' => ['\\', '0']
  | '\t' => ['\\', 't']
  | '\n' => ['\\', 'n']
  | '\r' => ['\\', 'r']
  | '"' => ['\\', '"']
  | '\\' => ['\\', '\\']
  | _ =>
    if character.toNat < 0x20 ∨ 0x7f ≤ character.toNat ∧ character.toNat < 0xa0 then
      ['\\', 'u', '\x7b'] ++ Nat.toDigits 16 character.toNat ++ ['\x7d']
    else
      [character]

def debugString (value : String) : String :=
  String.ofList (['"'] ++ value.toList.flatMap debugChar ++ ['"'])

def HistoryKind.parse (value : String) : Except HistoryError HistoryKind :=
  if value = "text" then .ok .text
  else if value = "image" then .ok .image
  else if value = "files" then .ok .files
  else .error (.corruptData s!"unknown kind {debugString value}")

@[simp]
theorem HistoryKind.parse_asStr (kind : HistoryKind) : parse kind.asStr = .ok kind := by
  cases kind <;> rfl

/-- What lies outside the crate: `serde_json` for the columns that hold JSON, and `LIKE` with a
pattern. `LIKE` is taken as it is documented: a field is not cut at a `U+0000`, and no pattern is
refused for its length (SQLite refuses one of more than 50,000 bytes). -/
structure Environment where
  filesToJson : List FileMetadata → String
  filesFromJson : String → Except String (List FileMetadata)
  boundaryToJson : ClearBoundary → String
  like : String → String → Bool

/-- File metadata comes back from its JSON. -/
def Environment.RoundTrips (env : Environment) : Prop :=
  ∀ files, env.filesFromJson (env.filesToJson files) = .ok files

variable (env : Environment)

/-- The row of an event: the columns of `encode_content` beside the others. -/
def encodeEvent (event : ImportedHistoryEvent) : EventRow where
  kind := event.content.kind.asStr
  createdAtMs := event.createdAtMs
  originLabel := event.originLabel
  textPayload := match event.content with
    | .text value => some value
    | _ => none
  imagePayload := match event.content with
    | .image bytes _ _ _ => bytes
    | _ => none
  mediaType := match event.content with
    | .image _ mediaType _ _ => mediaType
    | _ => none
  imageWidth := match event.content with
    | .image _ _ width _ => width
    | _ => none
  imageHeight := match event.content with
    | .image _ _ _ height => height
    | _ => none
  filesJson := match event.content with
    | .files files => some (env.filesToJson files)
    | _ => none

/-- `conversion_error` of corrupt data. -/
def corrupt (reason : String) : HistoryError :=
  .database (.corruptData reason)

def decodeContent (row : EventRow) : HistoryKind → Except HistoryError HistoryContent
  | .text => (okOr row.textPayload (corrupt "text payload missing")).map .text
  | .image => .ok (.image row.imagePayload row.mediaType row.imageWidth row.imageHeight)
  | .files => do
    let json ← okOr row.filesJson (corrupt "file metadata missing")
    ((env.filesFromJson json).mapError corrupt).map .files

def decodeRecord (key : EventKey) (row : EventRow) (pinned : Bool) :
    Except HistoryError HistoryRecord := do
  let kind ← (HistoryKind.parse row.kind).mapError .database
  let content ← decodeContent env row kind
  if key.2 < 0 then
    throw (corrupt "negative origin sequence")
  pure
    { eventId := ⟨key.1, UInt64.ofNat key.2.toNat⟩
      createdAtMs := row.createdAtMs
      originLabel := row.originLabel
      pinned
      content }

def immutableEvent (record : HistoryRecord) : ImportedHistoryEvent where
  eventId := record.eventId
  createdAtMs := record.createdAtMs
  originLabel := record.originLabel
  content := record.content

def ImportedHistoryEvent.record (event : ImportedHistoryEvent) (pinned : Bool) : HistoryRecord where
  eventId := event.eventId
  createdAtMs := event.createdAtMs
  originLabel := event.originLabel
  pinned
  content := event.content

@[simp]
theorem immutableEvent_record (event : ImportedHistoryEvent) (pinned : Bool) :
    immutableEvent (event.record pinned) = event := rfl

def HistoryEventId.key (eventId : HistoryEventId) : EventKey :=
  (eventId.originDeviceId, eventId.originSequence.toNat)

theorem HistoryEventId.key_injective : Function.Injective key := by
  rintro ⟨_, _⟩ ⟨_, _⟩ same
  simp only [key, Prod.mk.injEq, Nat.cast_inj, UInt64.toNat_inj] at same
  rw [same.1, same.2]

@[simp]
theorem sequenceToSql_eq_ok {sequence : UInt64} {value : ℤ} :
    sequenceToSql sequence = .ok value ↔ sequence.toNat ≤ i64Max ∧ value = sequence.toNat := by
  unfold sequenceToSql
  split
  · rename_i fits
    simp [fits, eq_comm]
  · rename_i large
    simp [large]

theorem decodeRecord_encodeEvent {env : Environment} (roundTrips : env.RoundTrips)
    (event : ImportedHistoryEvent) (pinned : Bool) :
    decodeRecord env event.eventId.key (encodeEvent env event) pinned =
      .ok (event.record pinned) := by
  have content : decodeContent env (encodeEvent env event) event.content.kind =
      .ok event.content := by
    cases found : event.content with
    | text => simp [decodeContent, encodeEvent, found, HistoryContent.kind, okOr, Except.map]
    | image =>
      simp [decodeContent, encodeEvent, found, HistoryContent.kind]
    | files files =>
      simp [decodeContent, encodeEvent, found, HistoryContent.kind, okOr, roundTrips files,
        Except.map, Except.mapError]
  have kind : HistoryKind.parse (encodeEvent env event).kind = .ok event.content.kind :=
    HistoryKind.parse_asStr _
  have natural : ¬((event.eventId.originSequence.toNat : ℤ) < 0) := by omega
  simp only [decodeRecord, bind_ok, guard_bind_ok, pure_ok]
  refine ⟨event.content.kind, ?_, event.content, content, natural, ?_⟩
  · simp [kind, Except.mapError]
  · simp [HistoryEventId.key, encodeEvent, ImportedHistoryEvent.record]

end Syntra.Store
