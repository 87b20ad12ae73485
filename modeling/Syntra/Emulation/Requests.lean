import Syntra.ClipboardStream.Buffers
import Syntra.Clipboard.Transfer

/-!
# Requests and events of the emulation side

What the service asks of the emulation side, what its listening task asks of the task that drives
the backend, and what they report.
-/

namespace Syntra.Emulation

open ByteFormat Proto
open ClipboardStream (ClipboardContent)
open Tables

/-- The address of a peer. -/
structure SocketAddr (Ip : Type) where
  ip : Ip
  port : UInt16
  deriving DecidableEq, Repr

/-- A desktop edge an independent pointer was pushed against. -/
inductive PointerEdge
  | left
  | right
  | top
  | bottom
  deriving DecidableEq, Repr

def PointerEdge.ofSide : Position → PointerEdge
  | .left => .left
  | .right => .right
  | .top => .top
  | .bottom => .bottom

def PointerEdge.side : PointerEdge → Position
  | .left => .left
  | .right => .right
  | .top => .top
  | .bottom => .bottom

/-- Where a pointer has left the desktop. -/
structure PointerExit where
  edge : PointerEdge
  along : Option F32
  deriving DecidableEq, Repr

/-- Where a clipboard goes when the emulation backend cannot publish it. -/
inductive ClipboardFallback
  | adapter (transferId : String) (operation : Clipboard.Operation) (uris : List String)
  | local (content : ClipboardContent)

/-- What the service hears of the two tasks. -/
inductive EmulationEvent (Address : Type)
  | noLongerControlled
  | left (addr : Address) (side : Option Position) (along : Option F32)
  | connected (addr : Address) (fingerprint : String)
  | connectionAttempt (fingerprint : String)
  | entered (addr : Address) (pos : Position) (fingerprint : String) (first relayed : Bool)
      (along : Option F32)
  | disconnected (addr : Address)
  | portChanged (result : Except String UInt16)
  | emulationDisabled
  | emulationEnabled (backend : String)
  | releaseNotify
  | pointerEdge (addr : Address) (edge : PointerEdge) (along : Option F32)
  | peerHello (addr : Address) (commit : ByteVec 8)
  | clipboard (content : ClipboardContent)
  | fileClipboard (mimeType value : String)
  | clipboardFallback (fallback : ClipboardFallback)
  | nativeClipboard (content : ClipboardContent)
  | clipboardProtocol (addr : Address) (event : ProtoEvent)

/-- The events among them that the task that drives the backend sends. -/
inductive BackendEvent (Address : Type)
  | emulationDisabled
  | emulationEnabled (backend : String)
  | pointerEdge (addr : Address) (edge : PointerEdge) (along : Option F32)
  | fileClipboard (mimeType value : String)
  | nativeClipboard (content : ClipboardContent)

def BackendEvent.emulationEvent {Address : Type} : BackendEvent Address → EmulationEvent Address
  | .emulationDisabled => .emulationDisabled
  | .emulationEnabled backend => .emulationEnabled backend
  | .pointerEdge addr edge along => .pointerEdge addr edge along
  | .fileClipboard mimeType value => .fileClipboard mimeType value
  | .nativeClipboard content => .nativeClipboard content

/-- What the task that drives the backend is asked. -/
inductive ProxyRequest (Address Backend : Type)
  | input (event : InputEvent) (addr : Address)
  | placePointer (side : Position) (along : Option F32)
  | hidePointer
  | stepInside (edge : PointerEdge)
  | remove (addr : Address)
  | terminate
  | reenable
  | setBackend (backend : Option Backend)
  | setInputSharing (enabled : Bool)
  | setIndependentPointers (enabled : Bool)
  | publishFileClipboard (contents : List (String × Bytes))

/-- What the listening task is asked by the service. -/
inductive EmulationRequest (Ip Backend : Type)
  | reenable
  | setBackend (backend : Option Backend)
  | release (addr : SocketAddr Ip) (along : Option F32)
  | changePort (port : UInt16)
  | captureReady (ready : Bool)
  | setInputSharing (enabled : Bool)
  | setIndependentPointers (enabled : Bool)
  | setHopBypass (enabled : Bool)
  | setMultiHop (enabled : Bool)
  | stepInside (edge : Position)
  | placePointer (edge : Position)
  | hidePointer
  | setPeerSides (sides : Table Ip Position) (beyond : Table Position String)
  | setUnavailablePeers (unavailable : List String)
  | sendProto (addr : SocketAddr Ip) (event : ProtoEvent)
  | publishFileClipboard (contents : List (String × Bytes)) (fallback : ClipboardFallback)
  | terminate

end Syntra.Emulation
