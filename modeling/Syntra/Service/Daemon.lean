import Syntra.Plugins.Service
import Syntra.Service.Events

/-!
# The daemon

The service with its transfers and its plugins (`handle_adapter_event` in `service/transfers.rs`):
what the supervisor reports is taken up by the registry and by the transfer state in one step.
Beside the daemon it is recorded which processes have ended, as far as the service was told.
-/

namespace Syntra

open ByteFormat Proto Clipboard StateMachine
open Plugins (Codecs ManagerEvent Message Outside Registry SystemInput)

namespace Service

/-- The key that the transfer state knows a process under. -/
def transferKey : Plugins.AdapterId → AdapterId
  | .transfer _ transferId => transferId
  | .resident plugin | .settings plugin => plugin

def adapterWord : Message → AdapterWord
  | .rangeRequest request => .rangeRequest request
  | .remoteManifest .. => .remoteManifest
  | .mountReady _ ready => .mountReady ready
  | .progress progress => .progress progress
  | .completed completion => .completed completion
  | .cancelled transferId => .cancelled transferId
  | .released transferId => .released transferId
  | .unmounted unmounted => .unmounted unmounted
  | .copyManifest manifest => .copyManifest manifest
  | .hello .. | .error _ | .settings _ | .declareSettings _ | .changeSetting .. | .openSettings _
  | .pointer _ | .pasteDestination _ | .rangeResponse _ | .publishFileClipboard .. | .cancel _
  | .clipboardData .. => .other

variable {Address : Type}

/-- What an event of the supervisor is to the transfers. A settings window is a side process; a
start, a readiness and a deliberate stop only change what is shown of the plugin. -/
def adapterEvent : ManagerEvent → Event Address
  | .message (.settings _) _ | .cancelled (.settings _) _ | .exited (.settings _) _ => .other
  | .message adapter message => .adapterMessage (transferKey adapter) (adapterWord message)
  | .cancelled adapter transferId => .adapterCancelled (transferKey adapter) transferId
  | .exited adapter _ => .adapterExited (transferKey adapter)
  | .started .. | .stopped _ | .ready .. | .rejected .. | .diagnostics .. => .other

def Event.isAdapters : Event Address → Bool
  | .adapterMessage .. | .adapterCancelled .. | .adapterExited _ => true
  | _ => false

end Service

/-- The plugins with the part of the service that serves them. -/
structure Daemon (Address : Type) where
  plugins : Plugins.System
  service : Service Address

/-- What one of the tasks of the daemon takes up next: something about plugins, the events of the
supervisor among it, or another event of the service. -/
inductive DaemonInput (Address : Type) where
  | plugins (input : SystemInput)
  | service (event : Service.Event Address)

namespace Daemon

variable {Address : Type} [DecidableEq Address] (codecs : Codecs) (sha256 : Bytes → Digest)
  (base64 : Bytes → String)

omit [DecidableEq Address] in
def taken (daemon : Daemon Address) : DaemonInput Address → Option ManagerEvent
  | .plugins .event => daemon.plugins.events.head?
  | _ => none

def step (daemon : Daemon Address) (around : Service.Surroundings Address) :
    DaemonInput Address → Daemon Address
  | .plugins input =>
    { plugins := (daemon.plugins.step codecs input).1
      service := (daemon.taken (.plugins input)).elim daemon.service fun event =>
        daemon.service.handle sha256 base64 around (Service.adapterEvent event) }
  | .service event =>
    if event.isAdapters then daemon
    else { daemon with service := daemon.service.handle sha256 base64 around event }

omit [DecidableEq Address] in
/-- The daemon has started, and the first offer is numbered by the clock. -/
def start (outside : Outside) (registry : Registry) (startedAt : UInt64) : Daemon Address where
  plugins := (Plugins.System.start outside registry).1
  service := .new startedAt

end Daemon

def Service.endedBy : ManagerEvent → Option AdapterId
  | .stopped (.settings _) | .exited (.settings _) _ => none
  | .stopped adapter | .exited adapter _ => some (transferKey adapter)
  | _ => none

def Service.startedBy : ManagerEvent → Option AdapterId
  | .started (.settings _) _ => none
  | .started adapter _ => some (transferKey adapter)
  | _ => none

/-- The daemon, and the keys of the processes that the service knows to have ended and not to have
started again. -/
structure Watch (Address : Type) extends Daemon Address where
  ended : List AdapterId

namespace Watch

variable {Address : Type} [DecidableEq Address] (codecs : Codecs) (sha256 : Bytes → Digest)
  (base64 : Bytes → String)

def step (watch : Watch Address) (action : Service.Surroundings Address × DaemonInput Address) :
    Watch Address where
  toDaemon := watch.toDaemon.step codecs sha256 base64 action.1 action.2
  ended :=
    match watch.taken action.2 with
    | none => watch.ended
    | some event =>
      match Service.endedBy event, Service.startedBy event with
      | some key, _ => watch.ended.insert key
      | none, some key => watch.ended.filter (· ≠ key)
      | none, none => watch.ended

/-- The runs of the daemon; `permits` says which steps are taken. -/
def machine (outside : Outside) (registry : Registry) (startedAt : UInt64)
    (permits : Watch Address → Service.Surroundings Address × DaemonInput Address → Prop) :
    Machine (Watch Address) (Service.Surroundings Address × DaemonInput Address) where
  initial := { toDaemon := .start outside registry startedAt, ended := [] }
  enabled := permits
  next := step codecs sha256 base64

end Watch

end Syntra
