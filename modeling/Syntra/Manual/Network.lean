import Syntra.Manual.Bookkeeping

/-!
# Two devices and a channel

Two devices run `ManualTransfers` and exchange messages over a channel that may lose, repeat and
reorder them. Everything else acts on either side at any moment. The system also keeps what
happened.
-/

namespace Syntra.Manual

open ByteFormat Proto Files

/-- The two devices. -/
inductive Party where
  | first
  | second
  deriving DecidableEq, Repr

namespace Party

def other : Party → Party
  | .first => .second
  | .second => .first

@[simp]
theorem other_other (party : Party) : party.other.other = party := by
  cases party <;> rfl

@[simp]
theorem other_ne (party : Party) : party.other ≠ party := by
  cases party <;> simp [other]

theorem eq_or_eq_other (party another : Party) : another = party ∨ another = party.other := by
  cases party <;> cases another <;> simp [other]

end Party

/-- The fingerprints of the two devices, the device that a peer handle reaches, and the hash. -/
structure Network (P : Type) where
  fingerprint : Party → String
  distinct : fingerprint .first ≠ fingerprint .second
  owner : P → String
  sha256 : Bytes → Digest

/-- A message on its way to one of the devices, from the other. -/
structure Packet where
  target : Party
  event : ProtoEvent

/-- An offer that a device made to the owner of a fingerprint. -/
structure Issue where
  party : Party
  fingerprint : String
  id : UInt64
  name : String
  size : UInt64
  deriving DecidableEq, Repr

/-- Two devices and the messages between them, with what has happened. -/
structure System (P : Type) where
  node : Party → ManualTransfers P
  wire : List Packet
  sent : List Packet
  duplicated : List Packet
  retried : List Packet
  issued : List Issue
  files : List (Party × RecordKey × FileEvent)

variable {P : Type}

def System.initial : System P where
  node _ := .new
  wire := []
  sent := []
  duplicated := []
  retried := []
  issued := []
  files := []

/-- Why a device acts: the offers of `send_files` and the repetitions of `tick` are counted. -/
inductive Cause where
  | offer
  | timer
  | other
  deriving DecidableEq

def Operation.cause : Operation P → Cause
  | .sendFiles .. => .offer
  | .tick .. => .timer
  | _ => .other

def isCancel : ProtoEvent → Bool
  | .manualFileCancel _ => true
  | _ => false

/-- A device operates, or a message arrives, is lost or comes twice. -/
inductive Action (P : Type) where
  | operate (party : Party) (operation : Operation P)
  | deliver (index : ℕ) (io : Io) (peer : P) (settings : FileReceiveSettings) (now : ℕ)
  | lose (index : ℕ)
  | duplicate (index : ℕ)

namespace Network

variable (network : Network P)

def packet (party : Party) : ManualAction P → Option Packet
  | .send peer event =>
    if network.owner peer = network.fingerprint party.other then
      some { target := party.other, event }
    else
      none
  | .notify _ => none

def packets (party : Party) (actions : List (ManualAction P)) : List Packet :=
  actions.filterMap (network.packet party)

def issue (party : Party) : ManualAction P → Option Issue
  | .send peer (.manualFileOffer id name size) =>
    some { party, fingerprint := network.owner peer, id, name, size }
  | _ => none

def perform (party : Party) (cause : Cause) (output : Output P) (system : System P) : System P where
  node := Function.update system.node party output.state
  wire := system.wire ++ network.packets party output.actions
  sent := system.sent ++ network.packets party output.actions
  duplicated := system.duplicated
  retried := system.retried ++
    if cause = .timer then
      (network.packets party output.actions).filter (fun packet => !isCancel packet.event)
    else
      []
  issued := system.issued ++
    if cause = .offer then output.actions.filterMap (network.issue party) else []
  files := system.files ++ output.files.map (party, ·)

def next (system : System P) : Action P → System P
  | .operate party operation =>
    network.perform party operation.cause
      (operation.output network.sha256 (system.node party)) system
  | .deliver index io peer settings now =>
    match system.wire[index]? with
    | none => system
    | some packet =>
      let output := (system.node packet.target).handleProtocol network.sha256 io peer
        (network.fingerprint packet.target.other) packet.event settings now
      network.perform packet.target .other output { system with wire := system.wire.eraseIdx index }
  | .lose index => { system with wire := system.wire.eraseIdx index }
  | .duplicate index =>
    match system.wire[index]? with
    | none => system
    | some packet =>
      { system with
        wire := packet :: system.wire, duplicated := packet :: system.duplicated }

/-- Handles and fingerprints belong together. What a device does on its own account is about
any peer; the messages it handles otherwise than from the channel are from other devices. -/
def Routed : Operation P → Prop
  | .sendFiles peer fingerprint _ _ => network.owner peer = fingerprint
  | .handleProtocol _ peer fingerprint _ _ _ =>
    network.owner peer = fingerprint ∧ ∀ party, fingerprint ≠ network.fingerprint party
  | .refreshRoutes routes _ _ =>
    ∀ fingerprint peer, routes.lookup fingerprint = some peer → network.owner peer = fingerprint
  | _ => True

def Enabled (system : System P) : Action P → Prop
  | .operate _ operation => network.Routed operation
  | .deliver index _ peer _ _ => ∀ packet, system.wire[index]? = some packet →
    network.owner peer = network.fingerprint packet.target.other
  | .lose _ | .duplicate _ => True

/-- The two devices and the channel, with the steps that `allowed` lets through. -/
def machine (allowed : System P → Action P → Prop) :
    StateMachine.Machine (System P) (Action P) where
  initial := .initial
  enabled system action := network.Enabled system action ∧ allowed system action
  next := network.next

def everything : StateMachine.Machine (System P) (Action P) :=
  network.machine (fun _ _ => True)

/-- A check that an action may be taken, for actions of the user, the timer and the channel. -/
def admits (system : System P) : Action P → Bool
  | .operate _ (.sendFiles peer fingerprint _ _) => network.owner peer = fingerprint
  | .operate _ (.handleProtocol ..) | .operate _ (.refreshRoutes ..) => false
  | .operate .. => true
  | .deliver index _ peer _ _ => (system.wire[index]?).all fun packet =>
    network.owner peer = network.fingerprint packet.target.other
  | .lose _ | .duplicate _ => true

theorem enabled_of_admits {system : System P} {action : Action P}
    (admitted : network.admits system action = true) : network.Enabled system action := by
  cases action with
  | operate _ operation =>
    cases operation with
    | sendFiles =>
      simp only [admits, decide_eq_true_eq] at admitted
      exact admitted
    | handleProtocol | refreshRoutes => cases admitted
    | _ => trivial
  | deliver =>
    intro _ found
    simp only [admits, found, Option.all_some, decide_eq_true_eq] at admitted
    exact admitted
  | lose | duplicate => trivial

end Network

end Syntra.Manual
