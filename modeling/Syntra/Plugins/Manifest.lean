import Syntra.Plugins.Protocol

/-!
# Plugin manifests

What a manifest declares about a plugin (`manifest.rs`): how it is started, what it claims to be
able to do and what the user can set. The texts that are only shown are left out.
-/

namespace Syntra.Plugins

structure ChoiceDecl where
  value : String
  label : String
  deriving DecidableEq, Repr

/-- One setting as a manifest declares it. -/
structure SettingDecl where
  key : String
  label : String
  kind : String
  default : String
  options : List ChoiceDecl
  min : Option Int64
  max : Option Int64
  deriving DecidableEq

/-- `str::parse::<i64>`. -/
def parseI64 (text : String) : Option ℤ :=
  let (negative, digits) := match text.toList with
    | '-' :: digits => (true, digits)
    | '+' :: digits => (false, digits)
    | digits => (false, digits)
  if digits.isEmpty || !digits.all Char.isDigit then none
  else
    let size : ℤ := digits.foldl (fun number digit => 10 * number + (digit.toNat - 0x30)) 0
    let number := if negative then -size else size
    if Int64.minValue.toInt ≤ number ∧ number ≤ Int64.maxValue.toInt then some number else none

def isHexDigit (byte : UInt8) : Bool :=
  (0x30 ≤ byte && byte ≤ 0x39) || (0x41 ≤ byte && byte ≤ 0x46) || (0x61 ≤ byte && byte ≤ 0x66)

namespace SettingDecl

/-- The inclusive range of a `number` setting; an omitted bound is the extreme. -/
def range (setting : SettingDecl) : ℤ × ℤ :=
  ((setting.min.getD Int64.minValue).toInt, (setting.max.getD Int64.maxValue).toInt)

def accepts (setting : SettingDecl) (value : String) : Bool :=
  match setting.kind with
  | "toggle" => value = "true" || value = "false"
  | "choice" => setting.options.any (·.value = value)
  | "number" => (parseI64 value).any fun number =>
    setting.range.1 ≤ number && number ≤ setting.range.2
  | "color" => value.isEmpty ||
    ((ByteFormat.utf8 value).length = 7 && (ByteFormat.utf8 value).head? = some 0x23 &&
      ((ByteFormat.utf8 value).drop 1).all isHexDigit)
  | _ => false

/-- The value in force: the choice of the user if it is acceptable, else the default. -/
def effective (setting : SettingDecl) (chosen : Option String) : String :=
  (chosen.filter setting.accepts).getD setting.default

end SettingDecl

/-- What a plugin says of itself. -/
structure PluginManifest where
  protocolVersion : UInt32
  id : String
  version : String
  args : List String
  /-- Started only while something needs it. -/
  onDemand : Bool
  ownsSettings : Bool
  capabilities : Capabilities
  settings : List SettingDecl
  /-- What the handshake may announce besides the id. -/
  handshakeIds : List String
  /-- The files and directories beside the manifest that belong to the plugin. -/
  resources : List String
  deriving DecidableEq

namespace PluginManifest

/-- Exact argument vector passed to the executable. -/
def argv (manifest : PluginManifest) : List String := manifest.args

def texts (manifest : PluginManifest) : List String :=
  manifest.id :: manifest.version :: manifest.argv ++ manifest.capabilities.mimeTypes ++
    manifest.handshakeIds ++ manifest.resources

end PluginManifest

end Syntra.Plugins
