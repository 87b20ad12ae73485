import Syntra.Proto.Event

/-!
# Requests and events of the capture side

What the capture backend delivers, what the service asks of the task that sends this device's input
to its peers, and what that task does.
-/

namespace Syntra.Capture

open ByteFormat Proto

abbrev CaptureHandle := UInt64

/-- The backends by which input is captured. -/
inductive CaptureBackend
  | inputCapturePortal
  | layerShell
  | x11
  | windows
  | macOs
  | touchpad
  | dummy
  deriving DecidableEq, Repr

def CaptureBackend.display : CaptureBackend → String
  | .inputCapturePortal => "input-capture-portal"
  | .layerShell => "layer-shell"
  | .x11 => "X11"
  | .windows => "windows"
  | .macOs => "MacOS"
  | .touchpad => "touchpad"
  | .dummy => "dummy"

/-- What a backend captures. -/
inductive CaptureEvent
  /-- Capture on this handle is now active. -/
  | begin
  /-- Where along the edge the pointer was when capture began. -/
  | entry (along : F32)
  | input (event : InputEvent)
  | clipboard (mimeType : String) (data : Bytes)
  deriving DecidableEq

/-- What a capture is for. -/
inductive CaptureType
  /-- A normal input capture. -/
  | default
  /-- A capture only interested in the beginning. -/
  | enterOnly
  deriving DecidableEq, Repr

def opposite : Position → Position
  | .left => .right
  | .right => .left
  | .top => .bottom
  | .bottom => .top

/-- What the service hears of the task. -/
inductive ICaptureEvent
  | stepInside (edge : Position)
  | placePointer (edge : Position)
  | handOn (controller target : String) (side : Position) (along : Option F32)
  | clipboard (handle : CaptureHandle) (fingerprint : String) (event : ProtoEvent)
  | peerAuthenticated (handle : CaptureHandle) (fingerprint : String)
  | fileClipboard (handle : CaptureHandle) (mimeType value : String)
  | peerLost (handle : CaptureHandle)
  | peerStateChanged (handle : CaptureHandle)
  | captureBegin (handle : CaptureHandle) (along : Option F32)
  | captureDisabled
  | captureEnabled (backend : String)
  | clientEntered (handle : CaptureHandle)
  | pointerLeft (edge : Position) (along : Option F32)
  | pointerReturned (edge : Position) (along : Option F32)
  | edgePressure (edge : Position) (amount : F32) (along : Option F32)
  deriving DecidableEq

/-- What the task is asked by the service. -/
inductive CaptureRequest
  | release
  /-- The device controlling this one and the edge its pointer entered through, if any. -/
  | setController (controller : Option (String × Position))
  | setMultiHop (enabled : Bool)
  | setSeparatePeerPointers (enabled : Bool)
  | setEdgePressure (amount : F64)
  | create (handle : CaptureHandle) (pos : Position) (captureType : CaptureType)
  | destroy (handle : CaptureHandle)
  | reenable
  | setBackend (backend : Option CaptureBackend)
  | setInputSharing (enabled : Bool)
  | setReleaseBind (bind : List UInt32)
  | sendProto (handle : CaptureHandle) (event : ProtoEvent)
  | sendClipboard (handle : CaptureHandle) (transferId : UInt64) (data : Bytes)
      (imageDimensions : Option (UInt32 × UInt32))
  deriving DecidableEq

/-- What the task does to the peers and the backend, and what it reports. -/
inductive CaptureEffect
  | send (handle : CaptureHandle) (event : ProtoEvent)
  | connect (handle : CaptureHandle)
  | streamClipboard (handle : CaptureHandle) (transferId : UInt64) (data : Bytes)
      (imageDimensions : Option (UInt32 × UInt32))
  | report (event : ICaptureEvent)
  | create (handle : CaptureHandle) (pos : Position)
  | destroy (handle : CaptureHandle)
  | release
  | releaseAt (landing : Position) (along : Option F32)
  | terminate
  /-- A peer has not taken what ends the control of it in time. -/
  | cleanupTimedOut (handle : CaptureHandle)
  deriving DecidableEq

/-- A call of the backend. A release that ends the control of a peer is told from one that only
lets go of what a touch of an edge has captured. -/
inductive BackendCall
  | create (handle : CaptureHandle)
  | destroy (handle : CaptureHandle)
  | letGo
  | release
  deriving DecidableEq

end Syntra.Capture
