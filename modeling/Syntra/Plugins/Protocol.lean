import Syntra.Clipboard.Transfer

/-!
# The plugin protocol

What a plugin can do, the roles that follow from it, and the messages between a plugin and the
daemon (`syntra-plugin-api`). What a message only carries to be shown, or to be scanned off the
event loop, is left out.
-/

namespace Syntra.Plugins

open Clipboard Proto

def protocolVersion : UInt32 := 1

def uriListMime : String := "text/uri-list"

def gnomeCopiedFilesMime : String := "x-special/gnome-copied-files"

/-- What a plugin is able, or allowed, to do. -/
structure Capabilities where
  clipboardRead : Bool
  paste : Bool
  cancel : Bool
  requiresLiveMount : Bool
  pointerEvents : Bool
  mimeTypes : List String
  deriving DecidableEq, Repr

/-- What a plugin can be for. -/
inductive PluginRole where
  | fileClipboard
  | mountedFileReceive
  | pointer
  deriving DecidableEq, Repr

/-- `ALL`, in the order a deterministic default is chosen. -/
def PluginRole.all : List PluginRole := [.fileClipboard, .mountedFileReceive, .pointer]

theorem PluginRole.mem_all (role : PluginRole) : role ∈ PluginRole.all := by
  cases role <;> decide

namespace Capabilities

def lists (capabilities : Capabilities) (wanted : String) : Bool :=
  capabilities.mimeTypes.any (· = wanted)

def fills (capabilities : Capabilities) : PluginRole → Bool
  | .fileClipboard =>
    capabilities.clipboardRead && capabilities.paste && capabilities.cancel &&
      capabilities.lists uriListMime && capabilities.lists gnomeCopiedFilesMime
  -- a clipboard reader needs a mount published to it; it does not serve one itself
  | .mountedFileReceive =>
    !capabilities.clipboardRead && capabilities.paste && capabilities.cancel &&
      capabilities.requiresLiveMount && capabilities.lists uriListMime
  | .pointer => capabilities.pointerEvents

def roles (capabilities : Capabilities) : List PluginRole :=
  PluginRole.all.filter capabilities.fills

/-- The part of the capabilities that `approved` also grants. -/
def intersect (capabilities approved : Capabilities) : Capabilities where
  clipboardRead := capabilities.clipboardRead && approved.clipboardRead
  paste := capabilities.paste && approved.paste
  cancel := capabilities.cancel && approved.cancel
  requiresLiveMount := capabilities.requiresLiveMount && approved.requiresLiveMount
  pointerEvents := capabilities.pointerEvents && approved.pointerEvents
  mimeTypes := capabilities.mimeTypes.filter (· ∈ approved.mimeTypes)

end Capabilities

structure SettingOption where
  value : String
  label : String
  deriving DecidableEq, Repr

/-- How a setting is shown. -/
inductive SettingControlKind where
  | toggle
  | color
  | choice (options : List SettingOption)
  | number (min max : ℤ)
  deriving DecidableEq, Repr

/-- A setting as a window is told of it. -/
structure SettingControl where
  key : String
  label : String
  kind : SettingControlKind
  value : String
  default : String
  deriving DecidableEq, Repr

/-- What a plugin is told of the pointer. -/
inductive PointerEvent where
  | entered (edge : Position) (along : Option F32) (peer : String)
  | left (edge : Position) (along : Option F32) (peer : String)
  | pressure (edge : Position) (along : Option F32) (amount : F32)
  deriving DecidableEq, Repr

/-- The messages between the service and its plugins. -/
inductive Message where
  | hello (protocolVersion : UInt32) (adapterId name : String) (capabilities : Capabilities)
  | copyManifest (manifest : CopyManifest)
  | pasteDestination (transferId : String)
  | progress (progress : AdapterProgress)
  | remoteManifest (transferId : String) (operation : Operation) (entries : List RemoteEntry)
  | rangeRequest (request : RangeRequest)
  | rangeResponse (response : RangeResponse)
  | mountReady (mountUri : String) (ready : MountReady)
  | publishFileClipboard (transferId : String) (operation : Operation) (uris : List String)
  | released (transferId : String)
  | unmounted (unmounted : Unmounted)
  | completed (completion : Completion)
  | cancelled (transferId : String)
  | cancel (transferId : String)
  | error (message : String)
  | clipboardData (transferId mimeType value : String)
  | settings (values : List (String × String))
  | declareSettings (settings : List SettingControl)
  | changeSetting (key value : String)
  | openSettings (theme : List (String × String))
  | pointer (event : PointerEvent)
  deriving DecidableEq, Repr

def messageTransferId : Message → Option String
  | .copyManifest manifest => some manifest.transferId
  | .pasteDestination transferId => some transferId
  | .progress progress => some progress.transferId
  | .remoteManifest transferId .. => some transferId
  | .rangeRequest request => some request.transferId
  | .rangeResponse response => some response.transferId
  | .mountReady _ ready => some ready.transferId
  | .publishFileClipboard transferId .. => some transferId
  | .released transferId => some transferId
  | .unmounted unmounted => some unmounted.transferId
  | .completed completion => some completion.transferId
  | .cancelled transferId => some transferId
  | .cancel transferId => some transferId
  | .clipboardData transferId .. => some transferId
  | .hello .. | .error _ | .settings _ | .declareSettings _ | .changeSetting .. | .openSettings _
  | .pointer _ => none

end Syntra.Plugins
