import Syntra.Clients.Config
import Syntra.Store.Schema

/-!
# The copies that the service shares

How the service takes up what peers have copied and what is copied here (`service/input.rs`,
`service/mod.rs`). A value from a peer is written to a clipboard of this device and expected to be
observed there again; until then it is kept in a short queue, and an observation that is in the
queue is no copy of the user.

Of the history only what is recorded is modelled, not how it is stored.
-/

namespace Syntra.ClipboardSync

open ByteFormat
open Clients (ClipboardSettings)
open ClipboardStream (ClipboardContent)
open Service (ClientHandle)
open Store (HistoryContent)

/-- The part of the service that shares copies. -/
structure ClipboardService where
  clipboardSettings : ClipboardSettings
  /-- Values just written from the network and expected to echo through an observer. -/
  pendingRemoteHistoryEchoes : List HistoryContent
  /-- The desktop clipboard is used and not that of the emulation backend. -/
  legacyClipboard : Bool
  nextClipboardTransfer : UInt64
  /-- What is on the clipboard is a selection of files. -/
  nativeFileSelection : Bool
  clipboardClients : List ClientHandle

/-- What the service does with a content. -/
inductive Effect
  | publishFileClipboard (contents : List (String × Bytes)) (fallback : ClipboardContent)
  | write (content : ClipboardContent)
  | record (content : HistoryContent)
  | sendClipboard (handle : ClientHandle) (transferId : UInt64) (data : Bytes)
      (imageDimensions : Option (UInt32 × UInt32))
  deriving DecidableEq

/-- What the service takes in about the clipboard. -/
inductive Input
  /-- A value from a peer. -/
  | clipboard (content : ClipboardContent)
  /-- The clipboard of the emulation backend has another content. -/
  | nativeClipboard (content : ClipboardContent)
  /-- The reader of the desktop clipboard reports a copy. -/
  | read (content : ClipboardContent)
  | fileClipboard
  /-- The emulation backend could not publish a value. -/
  | clipboardFallback (content : ClipboardContent)
  | setClipboardSettings (settings : ClipboardSettings)
  | setBackend (legacy : Bool)
  | setClients (clients : List ClientHandle)

def historyContent : ClipboardContent → HistoryContent
  | .text text => .text text
  | .image width height rgba => .image (some rgba) (some "image/x-rgba8") (some width) (some height)

def payload : ClipboardContent → Bytes × Option (UInt32 × UInt32)
  | .text text => (utf8 text, none)
  | .image width height rgba => (rgba, some (width, height))

namespace ClipboardService

variable (service : ClipboardService)

def shares : ClipboardContent → Bool
  | .text _ => service.clipboardSettings.text
  | .image .. => service.clipboardSettings.image

/-- The queue keeps the latest eight. -/
def expectEcho (content : HistoryContent) : ClipboardService :=
  let queue := service.pendingRemoteHistoryEchoes ++ [content]
  { service with
    pendingRemoteHistoryEchoes := if 8 < queue.length then queue.tail else queue }

def publication : ClipboardContent → Effect
  | .text text =>
    if service.clipboardSettings.text then
      .publishFileClipboard [("text/plain;charset=utf-8", utf8 text), ("text/plain", utf8 text)]
        (.text text)
    else .write (.text text)
  | content => .write content

def sendAll (content : ClipboardContent) : List ClientHandle → UInt64 → UInt64 × List Effect
  | [], last => (last, [])
  | handle :: clients, last =>
    let rest := sendAll content clients (last + 1)
    (rest.1, .sendClipboard handle (last + 1) (payload content).1 (payload content).2 :: rest.2)

def share (content : ClipboardContent) : ClipboardService × List Effect :=
  let sent := sendAll content service.clipboardClients service.nextClipboardTransfer
  ({ service with nextClipboardTransfer := sent.1 }, .record (historyContent content) :: sent.2)

def observe (content : ClipboardContent) : ClipboardService × List Effect :=
  let noted := { service with nativeFileSelection := false }
  if service.shares content then
    if historyContent content ∈ service.pendingRemoteHistoryEchoes then
      ({ noted with
        pendingRemoteHistoryEchoes :=
          service.pendingRemoteHistoryEchoes.erase (historyContent content) }, [])
    else noted.share content
  else (noted, [])

def step : Input → ClipboardService × List Effect
  | .clipboard content =>
    (service.expectEcho (historyContent content), [service.publication content])
  | .nativeClipboard content => service.observe content
  | .read content =>
    if service.shares content && !service.nativeFileSelection then service.share content
    else (service, [])
  | .fileClipboard => ({ service with nativeFileSelection := true }, [])
  | .clipboardFallback content => (service, [.write content])
  | .setClipboardSettings settings => ({ service with clipboardSettings := settings }, [])
  | .setBackend legacy => ({ service with legacyClipboard := legacy }, [])
  | .setClients clients => ({ service with clipboardClients := clients }, [])

end ClipboardService

/-- Where a content is observed. -/
inductive Channel
  | native
  /-- The reader of the desktop clipboard. -/
  | reader
  deriving DecidableEq

def Channel.input (content : ClipboardContent) : Channel → Input
  | .native => .nativeClipboard content
  | .reader => .read content

/-- The service, and the values it has published that were not observed yet, in this order. -/
structure Device where
  service : ClipboardService
  outstanding : List ClipboardContent

/-- What happens around a device. -/
inductive Action
  /-- A peer has copied. -/
  | deliver (content : ClipboardContent)
  /-- A published value is observed; those that were published before it never will be. -/
  | echo (skipped : ℕ) (content : ClipboardContent) (channel : Channel)
  /-- The user has copied. -/
  | copy (content : ClipboardContent) (channel : Channel)
  /-- Something else happens at the service. -/
  | turn (input : Input)

namespace Device

def input : Action → Input
  | .deliver content => .clipboard content
  | .echo _ content channel | .copy content channel => channel.input content
  | .turn input => input

variable (device : Device)

def effects (action : Action) : List Effect :=
  (device.service.step (input action)).2

def next (action : Action) : Device where
  service := (device.service.step (input action)).1
  outstanding :=
    match action with
    | .deliver content => device.outstanding ++ [content]
    | .echo skipped .. => device.outstanding.drop (skipped + 1)
    | _ => device.outstanding

/-- Results of the reader are taken while the desktop clipboard is used. -/
def Takes : Channel → Prop
  | .native => True
  | .reader => device.service.legacyClipboard = true

/-- The action can happen now. -/
def Enabled : Action → Prop
  | .deliver _ => True
  | .echo skipped content channel =>
    device.outstanding[skipped]? = some content ∧ device.Takes channel
  | .copy _ channel => device.Takes channel
  | .turn (.clipboard _) | .turn (.nativeClipboard _) | .turn (.read _) => False
  | .turn _ => True

def step (action : Action) : Device × List Effect :=
  (device.next action, device.effects action)

def start (settings : ClipboardSettings) (legacy : Bool) (transfer : UInt64) : Device where
  service := ⟨settings, [], legacy, transfer, false, []⟩
  outstanding := []

end Device

end Syntra.ClipboardSync
