import Syntra.ByteFormat.Sections
import Syntra.Plugins.Manifest
import Syntra.StateMachine.Handler

/-!
# The digest of a package

What is fed to the hasher when a package is approved or checked (`package.rs`). What the file system
answers is an oracle, and so are the hash function and the JSON text of a setting. File names are
UTF-8.
-/

namespace Syntra.Plugins

open ByteFormat StateMachine
open Files (IoError Metadata PathBuf)

def maxFileBytes : ℕ := 512 * 1024 * 1024

/-- Most files of one package. -/
def maxFiles : ℕ := 4096

/-- Deepest nesting of directories. -/
def maxDepth : ℕ := 16

def readBuffer : ℕ := 64 * 1024

/-- The longest string or vector that memory can hold. -/
def maxCapacity : ℕ := 2 ^ 63 - 1

/-- Why a package has no digest. -/
inductive PackageError where
  | io (path : String) (source : IoError)
  | escapes (label : String)
  | tooLarge (reason : String)
  | notRegular (label : String)
  | unstable (label : String)
  deriving DecidableEq, Repr

/-- Why a digest is not finished: the package is refused, or a string outgrows the memory and the
program panics. -/
inductive Interruption where
  | refused (error : PackageError)
  | capacityOverflow
  deriving DecidableEq, Repr

/-- The answers to the calls on an open file. -/
structure OpenFile where
  opened : Except IoError Metadata
  read : ℕ → ℕ → Except IoError Bytes
  after : Except IoError Metadata
  bounded : ∀ offset wanted bytes, read offset wanted = .ok bytes → bytes.length ≤ wanted

/-- What the file system answers while a package is digested. -/
structure FileSystem where
  canonicalize : PathBuf → Except IoError PathBuf
  metadata : PathBuf → Except IoError Metadata
  readDir : PathBuf → Except IoError (List String)
  symlinkMetadata : PathBuf → Except IoError Metadata
  openRead : PathBuf → Except IoError OpenFile

/-- `serde_json::to_vec` of a setting. -/
structure SettingJson where
  toVec : SettingDecl → Option Bytes
  held : ∀ setting text, toVec setting = some text → text.length ≤ maxCapacity

def SettingJson.text (json : SettingJson) (setting : SettingDecl) : Bytes :=
  (json.toVec setting).getD []

/-- A file that went into the digest, and what was read of it. -/
structure HashedFile where
  path : PathBuf
  label : String
  content : Bytes
  deriving DecidableEq, Repr

/-- What was fed to the hasher so far, and the files of it. -/
structure Fed where
  stream : Bytes
  hashed : List HashedFile
  deriving DecidableEq, Repr

abbrev Feeding (α : Type) : Type := Handler Fed Interruption α

namespace Feeding

def refuse {α : Type} (error : PackageError) : Feeding α := .stop (.refused error)

def answered {α : Type} (path : String) (answer : Except IoError α) : Feeding α :=
  match answer with
  | .ok value => pure value
  | .error source => refuse (.io path source)

def require (condition : Prop) [Decidable condition] (error : PackageError) : Feeding Unit :=
  if condition then pure () else refuse error

/-- `hasher.update`. -/
def update (bytes : Bytes) : Feeding Unit :=
  .change fun fed => { fed with stream := fed.stream ++ bytes }

end Feeding

open Feeding

/-- Length-prefixed, tagged input. -/
def feedSection (tag : String) (bytes : Bytes) : Feeding Unit := do
  update (toLeBytes 8 (utf8 tag).length)
  update (utf8 tag)
  update (toLeBytes 8 bytes.length)
  update bytes

def hashContent (file : OpenFile) (label : String) (offset remaining : ℕ) : Feeding Bytes :=
  if 0 < remaining then
    match file.read offset (min readBuffer remaining) with
    | .error source => refuse (.io label source)
    | .ok bytes =>
      -- the file shrank while it was being read
      if bytes.length = 0 then
        refuse (.unstable label)
      else do
        update bytes
        let rest ← hashContent file label (offset + bytes.length) (remaining - bytes.length)
        pure (bytes ++ rest)
  else
    pure []
termination_by remaining
decreasing_by omega

/-- Hashes one regular file, refusing anything that is not stable. -/
def hashFile (system : FileSystem) (kind : String) (path : PathBuf) (label : String) :
    Feeding Unit := do
  let fed ← Handler.read
  require (fed.hashed.length < maxFiles) (.tooLarge s!"more than {maxFiles} files")
  let before ← answered label (system.symlinkMetadata path)
  require before.isFile (.notRegular label)
  let file ← answered label (system.openRead path)
  let opened ← answered label file.opened
  require opened.isFile (.notRegular label)
  require ((before.dev, before.ino) = (opened.dev, opened.ino)) (.unstable label)
  let length := opened.len.toNat
  require (length ≤ maxFileBytes) (.tooLarge s!"{label} is larger than {maxFileBytes} bytes")
  feedSection kind (utf8 label)
  update (toLeBytes 8 length)
  let content ← hashContent file label 0 length
  -- any byte past the stated length means the file grew
  let extra ← answered label (file.read length 1)
  require (extra = []) (.unstable label)
  let after ← answered label file.after
  require (after.len = opened.len ∧ after.modified = opened.modified) (.unstable label)
  .change fun fed => { fed with hashed := fed.hashed ++ [⟨path, label, content⟩] }

def childLabel (label name : String) : Feeding String :=
  let child := s!"{label}/{name}"
  if (utf8 child).length ≤ maxCapacity then pure child else .stop .capacityOverflow

def sortTexts (texts : List String) : List String := texts.mergeSort (· ≤ ·)

/-- The files of a resource, those of a directory in the order of their names. The levels count how
much deeper the nesting may still be. -/
def walk (system : FileSystem) (root : PathBuf) (label : String) (path : PathBuf) : ℕ → Feeding Unit
  | 0 => refuse (.tooLarge s!"{label} is nested too deeply")
  | levels + 1 => do
    let metadata ← answered label (system.metadata path)
    if metadata.isDir then
      let entries ← answered label (system.readDir path)
      .each (sortTexts entries) fun name => do
        let label' ← childLabel label name
        let child ← answered label' (system.canonicalize (path.join (.ofText name)))
        require (child.startsWith root) (.escapes label')
        walk system root label' child levels
    else
      hashFile system "resource" path label

/-- A package as it is digested. -/
structure Package where
  manifest : PluginManifest
  manifestPath : PathBuf
  executable : String
  system : FileSystem
  /-- A string is never longer than the memory holds. -/
  held : ∀ text ∈ executable :: manifest.texts, (utf8 text).length ≤ maxCapacity

def flag (value : Bool) : UInt8 := if value then 1 else 0

def Capabilities.flags (capabilities : Capabilities) : Bytes :=
  [flag capabilities.clipboardRead, flag capabilities.paste, flag capabilities.cancel,
    flag capabilities.requiresLiveMount, flag capabilities.pointerEvents]

/-- What is fed to the hasher of a manifest. -/
def feedManifest (json : SettingJson) (manifest : PluginManifest) : Feeding Unit := do
  feedSection "identity" (utf8 manifest.id)
  feedSection "version" (utf8 manifest.version)
  feedSection "protocol" (toLeBytes 4 manifest.protocolVersion.toNat)
  feedSection "flags" [flag manifest.onDemand, flag manifest.ownsSettings]
  .each manifest.argv fun argument => feedSection "arg" (utf8 argument)
  feedSection "capabilities" manifest.capabilities.flags
  .each (sortTexts manifest.capabilities.mimeTypes) fun mime => feedSection "mime" (utf8 mime)
  .each manifest.settings fun setting => feedSection "setting" (json.text setting)
  .each manifest.handshakeIds fun handshakeId => feedSection "handshake_id" (utf8 handshakeId)

/-- `Path::display`. -/
def display (path : PathBuf) : String :=
  let names := path.components.map fun component =>
    match component with
    | .curDir => "."
    | .parentDir => ".."
    | .normal name => (fromUtf8? name).getD ""
  (if path.absolute then "/" else "") ++ "/".intercalate names

/-- What is fed to the hasher of the resources. -/
def feedResources (package : Package) : Feeding Unit := do
  let root := package.manifestPath.parent.getD (.ofText ".")
  let rootReal ← answered (display root) (package.system.canonicalize root)
  .each package.manifest.resources fun resource => do
    let real ← answered resource (package.system.canonicalize (root.join (.ofText resource)))
    require (real.startsWith rootReal) (.escapes resource)
    walk package.system rootReal resource real (maxDepth + 1)

/-- Everything that is fed to the hasher, in a fixed order. -/
def feedPackage (json : SettingJson) (package : Package) : Feeding Unit := do
  feedManifest json package.manifest
  hashFile package.system "executable" (.ofText package.executable) package.executable
  feedResources package

/-- The digest with the files and names that it covers. -/
structure PackageDigest where
  digest : String
  files : List PathBuf
  labels : List String
  deriving DecidableEq, Repr

def hexDigit (digit : ℕ) : Char := ("0123456789abcdef".toList.getD digit '0')

def hex (bytes : Bytes) : String :=
  String.ofList (bytes.flatMap fun byte => [hexDigit (byte.toNat / 16), hexDigit (byte.toNat % 16)])

def digestPackage (sha256 : Bytes → Bytes) (json : SettingJson) (package : Package) :
    Except Interruption PackageDigest :=
  match feedPackage json package ⟨[], []⟩ with
  | (.ok (), fed) =>
    .ok ⟨hex (sha256 fed.stream), fed.hashed.map HashedFile.path, fed.hashed.map HashedFile.label⟩
  | (.error interruption, _) => .error interruption

end Syntra.Plugins
