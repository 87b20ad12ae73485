import Syntra.Capture.Invariants
import Syntra.Emulation.Acks

/-!
# A device and the peer it enters

One capturing device and one of its peers exchange messages over a channel that may lose and reorder
them. Everything else acts on either side at any moment. The traffic also keeps what happened.
-/

namespace Syntra.Entry

open Proto Capture
open Emulation (ListenTask ListenSurroundings ListenInput ListenEffect AsksAck SocketAddr
  crosses isAck)
open StateMachine

/-- A message to the peer, with the number of those before it. -/
structure Sent where
  number : ℕ
  event : ProtoEvent
  deriving DecidableEq

/-- A message of the peer, with the message that it answers, if it answers one. -/
structure Answer where
  about : Option Sent
  event : ProtoEvent
  deriving DecidableEq

/-- The messages between the device and the peer that it controls. -/
structure Traffic where
  outward : List Sent
  homeward : List Answer
  /-- How many messages have been sent to the peer. -/
  count : ℕ
  /-- How many of them had been when its last entry began. -/
  since : ℕ
  /-- The entries and leaves that were in flight then, or the acknowledgement of which was. -/
  pending : List Sent
  /-- The messages that the peer has acknowledged. -/
  handled : List Sent

namespace Traffic

def none : Traffic where
  outward := []
  homeward := []
  count := 0
  since := 0
  pending := []
  handled := []

def inFlight (traffic : Traffic) : List Sent :=
  (traffic.outward.filter fun sent => crosses sent.event) ++
    (traffic.homeward.filter fun answer => isAck answer.event).filterMap Answer.about

def carry (client : CaptureHandle) (traffic : Traffic) : CaptureEffect → Traffic
  | .send handle event =>
    if handle = client then
      { traffic with
        outward := traffic.outward ++ [⟨traffic.count, event⟩], count := traffic.count + 1 }
    else
      traffic
  | .report (.clientEntered handle) =>
    if handle = client then
      { traffic with since := traffic.count, pending := traffic.inFlight }
    else
      traffic
  | _ => traffic

def answer {Ip Backend : Type} [DecidableEq Ip] (addr : SocketAddr Ip) (about : Option Sent)
    (traffic : Traffic) : ListenEffect Ip Backend → Traffic
  | .reply other event =>
    if other = addr then
      { traffic with
        homeward := traffic.homeward ++ [⟨about, event⟩]
        handled := if isAck event then traffic.handled ++ about.toList else traffic.handled }
    else
      traffic
  | _ => traffic

end Traffic

/-- The capturing device, its peer, and the channel. -/
structure Exchange (Ip : Type) where
  capture : CaptureTask
  listen : ListenTask Ip
  traffic : Traffic

/-- A task takes an input, or a message arrives or is lost. -/
inductive Action (Ip Backend : Type)
  | capture (around : Surroundings) (input : CaptureInput)
  | listen (around : ListenSurroundings Ip) (input : ListenInput Ip Backend)
  | deliver (sent : Sent) (around : ListenSurroundings Ip)
  | bring (answer : Answer) (fingerprint : String) (around : Surroundings)
  | loseSent (sent : Sent)
  | loseAnswer (answer : Answer)

/-- An input with which the rest of the capturing device takes no part in entering the peer: it
brings no acknowledgement of the peer, and the service has nothing said to it that is an entry or a
leave. -/
def Apart (client : CaptureHandle) : CaptureInput → Prop
  | .message handle _ event => handle = client → isAck event = false
  | .request (.sendProto handle event) => handle = client → crosses event = false
  | _ => True

variable {Ip Backend : Type} [DecidableEq Ip] [FloatOps]

namespace Exchange

def captures (client : CaptureHandle) (exchange : Exchange Ip) (around : Surroundings)
    (input : CaptureInput) : Exchange Ip :=
  let stepped := exchange.capture.step (around, input)
  { exchange with
    capture := stepped.1
    traffic := stepped.2.foldl (Traffic.carry client) exchange.traffic }

def listens (addr : SocketAddr Ip) (about : Option Sent) (exchange : Exchange Ip)
    (around : ListenSurroundings Ip) (input : ListenInput Ip Backend) : Exchange Ip :=
  let stepped := exchange.listen.step (around, input)
  { exchange with
    listen := stepped.1
    traffic := stepped.2.foldl (Traffic.answer addr about) exchange.traffic }

def dropSent (exchange : Exchange Ip) (sent : Sent) : Exchange Ip :=
  { exchange with
    traffic := { exchange.traffic with outward := exchange.traffic.outward.erase sent } }

def dropAnswer (exchange : Exchange Ip) (answer : Answer) : Exchange Ip :=
  { exchange with
    traffic := { exchange.traffic with homeward := exchange.traffic.homeward.erase answer } }

end Exchange

/-- The device that captures input, and the peer that it knows as `client` and that knows it by
`addr`. -/
def machine (client : CaptureHandle) (addr : SocketAddr Ip) (backend : Option CaptureBackend)
    (releaseBind : List UInt32) : Machine (Exchange Ip) (Action Ip Backend) where
  initial := ⟨.new backend releaseBind, .new, .none⟩
  enabled exchange
    | .capture _ input => Apart client input
    | .listen _ input => ¬AsksAck addr input
    | .deliver sent _ | .loseSent sent => sent ∈ exchange.traffic.outward
    | .bring answer _ _ | .loseAnswer answer => answer ∈ exchange.traffic.homeward
  next exchange
    | .capture around input => exchange.captures client around input
    | .listen around input => exchange.listens addr none around input
    | .deliver sent around =>
      (exchange.listens addr (some sent) around
        (.message addr sent.event : ListenInput Ip Backend)).dropSent sent
    | .bring answer fingerprint around =>
      (exchange.captures client around (.message client fingerprint answer.event)).dropAnswer answer
    | .loseSent sent => exchange.dropSent sent
    | .loseAnswer answer => exchange.dropAnswer answer

end Syntra.Entry
