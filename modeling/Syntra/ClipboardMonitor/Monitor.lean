import Syntra.ClipboardStream.Buffers
import Syntra.StateMachine.Run

/-!
# The clipboard monitor of a device

One worker reads the system clipboard on request, another writes to it what a peer has copied. A
tracker remembers the content last seen or written, so that a read tells a copy of the user from
content that is known already. Requests and results pass through channels that hold one item. A
mutex over the desktop orders the reads and writes of the workers against each other, but neither
the user's copies nor the requests of the service.

A write that fails leaves the clipboard as it is or empties it.
-/

namespace Syntra.ClipboardMonitor

open ClipboardStream

/-- What the reader makes of the content that it finds. -/
inductive Observation
  /-- New content the user copied here: share it. -/
  | localCopy
  /-- Content that arrived from a peer: never send it back. -/
  | remote
  /-- The same content as last time. -/
  | unchanged
  deriving DecidableEq

/-- What was last seen on the clipboard, and whether it came from the network. -/
structure ClipboardState where
  last : Option ClipboardContent
  remoteOrigin : Bool
  deriving DecidableEq

/-- A write that waits for the worker, with what was last seen when it was queued. -/
structure QueuedRemote where
  baseline : Option ClipboardContent
  content : ClipboardContent
  deriving DecidableEq

namespace ClipboardState

def default : ClipboardState where
  last := none
  remoteOrigin := false

def observe (state : ClipboardState) (content : ClipboardContent) : ClipboardState × Observation :=
  if state.last = some content then
    (state, if state.remoteOrigin then .remote else .unchanged)
  else
    (⟨some content, false⟩, .localCopy)

def queueRemote (state : ClipboardState) (content : ClipboardContent) : QueuedRemote where
  baseline := state.last
  content := content

def commitRemote (state : ClipboardState) (queued : QueuedRemote)
    (current : Option ClipboardContent) : ClipboardState × Bool :=
  if queued.baseline.isSome ∧ queued.baseline ≠ current then
    -- the user copied something newer meanwhile
    (state, false)
  else
    (⟨some queued.content, true⟩, true)

end ClipboardState

/-- Who has put a content on the clipboard. -/
inductive Origin
  | user
  | peer
  deriving DecidableEq

/-- Why a content cannot be read. -/
inductive ClipboardError
  | contentNotAvailable
  | failed (reason : String)
  deriving DecidableEq

/-- The text or image that the system clipboard holds, with where it came from. A selection of
files counts as nothing. -/
abbrev Selection := Option (ClipboardContent × Origin)

/-- Reading fails for a reason of the system's own, or because there is nothing to read. -/
def readClipboard (clipboard : Selection) (failure : Option ClipboardError) :
    Except ClipboardError ClipboardContent :=
  match failure, clipboard with
  | some error, _ => .error error
  | none, none => .error .contentNotAvailable
  | none, some (content, _) => .ok content

/-- What is done under the lock of the desktop. Where a write has read the clipboard, `held` is
what the clipboard held then. -/
inductive Desktop
  | free
  | reading
  | observing (result : Except ClipboardError ClipboardContent)
  | opened (queued : QueuedRemote)
  | deciding (queued : QueuedRemote) (current held : Option ClipboardContent)
  | setting (content : ClipboardContent) (current held : Option ClipboardContent)
  | restoring (current : Option ClipboardContent)

/-- How far the reader is with a content. -/
inductive Reader
  | idle
  | received
  | atDesktop
  | sending (result : Except ClipboardError ClipboardContent)

/-- How far the worker is with a write. -/
inductive Writer
  | idle
  | received (queued : QueuedRemote)
  | atDesktop

/-- The monitor between the desktop clipboard and the service. -/
structure Device where
  clipboard : Selection
  state : ClipboardState
  desktop : Desktop
  reader : Reader
  writer : Writer
  readRequest : Bool
  /-- A write whose baseline is taken and that is not yet sent to the worker. -/
  queueing : Option QueuedRemote
  writeRequest : Option QueuedRemote
  result : Option (Except ClipboardError ClipboardContent)

/-- How a write ends, and whether a failed one has emptied the clipboard. -/
inductive SetOutcome
  | done
  | failed (emptied : Bool)

/-- What happens at the clipboard and in the three tasks. -/
inductive Event
  | copy (content : ClipboardContent)
  /-- The user copies something that is neither text nor an image, or empties the clipboard. -/
  | vacate
  | readOnce
  | write (content : ClipboardContent)
  | sendWrite
  | nextRead
  | receiveRead
  | lockRead
  | read (failure : Option ClipboardError)
  | observe
  | sendResult
  | receiveWrite
  | openWrite (opened : Bool)
  | readCurrent (failure : Option ClipboardError)
  | commit
  | set (outcome : SetOutcome)
  | restore

/-- What is said of a content. -/
inductive Effect
  /-- The reader has found a local copy. -/
  | reported (content : ClipboardContent)
  /-- The service shares a local copy with the peers. -/
  | shared (content : ClipboardContent)
  deriving DecidableEq

namespace Device

/-- A device whose clipboard holds what the user copied before the monitor started, if anything. -/
def new (content : Option ClipboardContent) : Device where
  clipboard := content.map fun content => (content, .user)
  state := .default
  desktop := .free
  reader := .idle
  writer := .idle
  readRequest := false
  queueing := none
  writeRequest := none
  result := none

variable (device : Device)

def content : Option ClipboardContent :=
  device.clipboard.map Prod.fst

/-- A request on top of one that waits already is dropped. -/
def readOnce : Device :=
  { device with readRequest := true }

def write (content : ClipboardContent) : Device :=
  match device.queueing with
  | none => { device with queueing := some (device.state.queueRemote content) }
  | some _ => device

/-- A write on top of one that waits already is dropped. -/
def sendWrite : Device :=
  match device.queueing with
  | none => device
  | some queued =>
    { device with
      queueing := none
      writeRequest := device.writeRequest <|> some queued }

def nextRead : Device × List Effect :=
  match device.result with
  | none => (device, [])
  | some (.error _) => ({ device with result := none }, [])
  | some (.ok content) => ({ device with result := none }, [.shared content])

def receiveRead : Device :=
  match device.reader, device.readRequest with
  | .idle, true => { device with reader := .received, readRequest := false }
  | _, _ => device

def lockRead : Device :=
  match device.reader, device.desktop with
  | .received, .free => { device with reader := .atDesktop, desktop := .reading }
  | _, _ => device

def read (failure : Option ClipboardError) : Device :=
  match device.desktop with
  | .reading => { device with desktop := .observing (readClipboard device.clipboard failure) }
  | _ => device

def observe : Device × List Effect :=
  match device.desktop with
  | .observing (.error error) =>
    ({ device with desktop := .free, reader := .sending (.error error) }, [])
  | .observing (.ok content) =>
    match device.state.observe content with
    | (state, .localCopy) =>
      ({ device with state := state, desktop := .free, reader := .sending (.ok content) },
        [.reported content])
    | (state, _) =>
      ({ device with
         state := state
         desktop := .free
         reader := .sending (.error .contentNotAvailable) }, [])
  | _ => (device, [])

/-- The worker waits until the result before this one is taken. -/
def sendResult : Device :=
  match device.reader, device.result with
  | .sending result, none => { device with reader := .idle, result := some result }
  | _, _ => device

def receiveWrite : Device :=
  match device.writer, device.writeRequest with
  | .idle, some queued => { device with writer := .received queued, writeRequest := none }
  | _, _ => device

def openWrite (opened : Bool) : Device :=
  match device.writer, device.desktop with
  | .received queued, .free =>
    if opened then
      { device with writer := .atDesktop, desktop := .opened queued }
    else
      { device with writer := .idle }
  | _, _ => device

def readCurrent (failure : Option ClipboardError) : Device :=
  match device.desktop with
  | .opened queued =>
    -- an error of any kind counts as an empty clipboard
    { device with
      desktop :=
        .deciding queued (readClipboard device.clipboard failure).toOption device.content }
  | _ => device

def commit : Device :=
  match device.desktop with
  | .deciding queued current held =>
    match device.state.commitRemote queued current with
    | (state, true) =>
      { device with state := state, desktop := .setting queued.content current held }
    | (_, false) => { device with desktop := .free, writer := .idle }
  | _ => device

def set (outcome : SetOutcome) : Device :=
  match device.desktop, outcome with
  | .setting content _ _, .done =>
    { device with clipboard := some (content, .peer), desktop := .free, writer := .idle }
  | .setting _ current _, .failed emptied =>
    { device with
      clipboard := if emptied then none else device.clipboard
      desktop := .restoring current }
  | _, _ => device

def restore : Device :=
  match device.desktop with
  | .restoring current =>
    { device with state := ⟨current, false⟩, desktop := .free, writer := .idle }
  | _ => device

end Device

def step (device : Device) : Event → Device × List Effect
  | .copy content => ({ device with clipboard := some (content, .user) }, [])
  | .vacate => ({ device with clipboard := none }, [])
  | .readOnce => (device.readOnce, [])
  | .write content => (device.write content, [])
  | .sendWrite => (device.sendWrite, [])
  | .nextRead => device.nextRead
  | .receiveRead => (device.receiveRead, [])
  | .lockRead => (device.lockRead, [])
  | .read failure => (device.read failure, [])
  | .observe => device.observe
  | .sendResult => (device.sendResult, [])
  | .receiveWrite => (device.receiveWrite, [])
  | .openWrite opened => (device.openWrite opened, [])
  | .readCurrent failure => (device.readCurrent failure, [])
  | .commit => (device.commit, [])
  | .set outcome => (device.set outcome, [])
  | .restore => (device.restore, [])

end Syntra.ClipboardMonitor
