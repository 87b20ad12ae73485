import Syntra.Emulation.Listen

/-!
# The listener

How peers connect to this device (`listen.rs`): the certificate of a peer is verified during its
handshake, a connection that stands is read until it ends, and what happens is handed to the
listening task. The DTLS library is not part of it.
-/

namespace Syntra.Emulation

open ByteFormat Proto Tables List

/-- A connection, told apart by its number from others of the same address. -/
structure Connection (Ip : Type) where
  number : ℕ
  addr : SocketAddr Ip
  fingerprint : String
  deriving DecidableEq

/-- The task is told the address of a message and not its connection. -/
inductive ListenEvent (Ip : Type)
  | msg (conn : Connection Ip) (event : ProtoEvent)
  | accept (addr : SocketAddr Ip) (fingerprint : String)
  | rejected (fingerprint : String)

def ListenEvent.input {Ip Backend : Type} : ListenEvent Ip → ListenInput Ip Backend
  | .msg conn event => .message conn.addr event
  | .accept addr fingerprint => .accept addr fingerprint
  | .rejected fingerprint => .rejected fingerprint

/-- The listener with its handshakes, connections and events. -/
structure SyntraListener (Ip : Type) where
  /-- The handshakes that go on after their certificate was verified. -/
  verified : List (Connection Ip)
  connectionAttempts : List String
  conns : List (Connection Ip)
  /-- The connections that are read. -/
  readers : List (Connection Ip)
  /-- What the listening task has not taken yet. -/
  events : List (ListenEvent Ip)
  nextNumber : ℕ

namespace SyntraListener

variable {Ip : Type} [DecidableEq Ip]

def new : SyntraListener Ip := ⟨[], [], [], [], [], 0⟩

def verifyPeerCertificate (authorized : Table String String) (addr : SocketAddr Ip)
    (fingerprint : String) (listener : SyntraListener Ip) : SyntraListener Ip :=
  if fingerprint ∈ authorized then
    { listener with
      verified := ⟨listener.nextNumber, addr, fingerprint⟩ :: listener.verified
      nextNumber := listener.nextNumber + 1 }
  else
    { listener with connectionAttempts := listener.connectionAttempts ++ [fingerprint] }

variable (conn : Connection Ip)

def accept (listener : SyntraListener Ip) : SyntraListener Ip :=
  { listener with
    verified := listener.verified.erase conn
    conns := listener.conns ++ [conn]
    readers := conn :: listener.readers
    events := listener.events ++ [.accept conn.addr conn.fingerprint] }

def reject (listener : SyntraListener Ip) : SyntraListener Ip :=
  match listener.connectionAttempts with
  | [] => listener
  | fingerprint :: attempts =>
    { listener with
      connectionAttempts := attempts
      events := listener.events ++ [.rejected fingerprint] }

/-- A handshake is given up, for example when accepting is interrupted. -/
def abandon (listener : SyntraListener Ip) : SyntraListener Ip :=
  { listener with verified := listener.verified.erase conn }

/-- What cannot be decoded is skipped. -/
def receive (datagram : Bytes) (listener : SyntraListener Ip) : SyntraListener Ip :=
  match decode datagram with
  | .ok event => { listener with events := listener.events ++ [.msg conn event] }
  | .error _ => listener

/-- The end of `read_loop`. -/
def disconnect (listener : SyntraListener Ip) : SyntraListener Ip :=
  { listener with
    readers := listener.readers.erase conn
    conns := listener.conns.eraseP fun other => other.addr = conn.addr }

def certificateFingerprint (listener : SyntraListener Ip) (addr : SocketAddr Ip) : Option String :=
  (listener.conns.find? fun conn => conn.addr = addr).map (·.fingerprint)

def next (listener : SyntraListener Ip) : Option (ListenEvent Ip) := listener.events.head?

def take (listener : SyntraListener Ip) : SyntraListener Ip :=
  { listener with events := listener.events.tail }

/-- The connection was verified, or is read. -/
def Knows (listener : SyntraListener Ip) (conn : Connection Ip) : Prop :=
  conn ∈ listener.verified ∨ conn ∈ listener.readers

/-- All connections of a certificate, and all messages on them that the task has not taken yet, are
those that there were before. -/
structure Foreclosed (before : SyntraListener Ip) (fingerprint : String)
    (listener : SyntraListener Ip) : Prop where
  knows : ∀ conn, listener.Knows conn → conn.fingerprint = fingerprint → before.Knows conn
  events : ∀ conn event, .msg conn event ∈ listener.events → conn.fingerprint = fingerprint →
    .msg conn event ∈ before.events ∨ before.Knows conn

section Foreclosed

variable {before listener : SyntraListener Ip} {fingerprint : String}

namespace Foreclosed

omit [DecidableEq Ip] in
protected theorem refl (listener : SyntraListener Ip) (fingerprint : String) :
    Foreclosed listener fingerprint listener :=
  ⟨fun _ known _ => known, fun _ _ waits _ => .inl waits⟩

variable (foreclosed : Foreclosed before fingerprint listener)
include foreclosed

omit [DecidableEq Ip] in
theorem of_less {later : SyntraListener Ip} (knows : ∀ conn, later.Knows conn → listener.Knows conn)
    (events : ∀ conn event, .msg conn event ∈ later.events → .msg conn event ∈ listener.events) :
    Foreclosed before fingerprint later :=
  ⟨fun conn known => foreclosed.knows conn (knows conn known),
    fun conn event waits => foreclosed.events conn event (events conn event waits)⟩

omit [DecidableEq Ip] in
theorem verifyPeerCertificate {authorized : Table String String}
    (unauthorized : fingerprint ∉ authorized) (addr : SocketAddr Ip) (other : String) :
    Foreclosed before fingerprint (listener.verifyPeerCertificate authorized addr other) := by
  unfold SyntraListener.verifyPeerCertificate
  split
  · rename_i authorizes
    refine ⟨fun conn known same => ?_, foreclosed.events⟩
    rcases known with verified | reads
    · rcases mem_cons.mp verified with rfl | earlier
      · exact absurd (same ▸ authorizes) unauthorized
      · exact foreclosed.knows conn (.inl earlier) same
    · exact foreclosed.knows conn (.inr reads) same
  · exact foreclosed.of_less (fun _ known => known) fun _ _ waits => waits

theorem accept {conn : Connection Ip} (verified : conn ∈ listener.verified) :
    Foreclosed before fingerprint (listener.accept conn) := by
  refine foreclosed.of_less (fun other known => ?_) fun _ _ waits => ?_
  · rcases known with verified | reads
    · exact .inl (mem_of_mem_erase verified)
    · rcases mem_cons.mp reads with rfl | reads
      · exact .inl verified
      · exact .inr reads
  · simpa [SyntraListener.accept] using waits

omit [DecidableEq Ip] in
theorem reject : Foreclosed before fingerprint listener.reject := by
  unfold SyntraListener.reject
  split
  · exact foreclosed
  · refine foreclosed.of_less (fun _ known => known) fun _ _ waits => ?_
    simpa using waits

theorem abandon (conn : Connection Ip) : Foreclosed before fingerprint (listener.abandon conn) :=
  foreclosed.of_less (fun _ known => known.imp_left mem_of_mem_erase) fun _ _ waits => waits

omit [DecidableEq Ip] in
theorem receive {conn : Connection Ip} (reads : conn ∈ listener.readers) (datagram : Bytes) :
    Foreclosed before fingerprint (listener.receive conn datagram) := by
  unfold SyntraListener.receive
  split
  · refine ⟨foreclosed.knows, fun other event waits same => ?_⟩
    rcases mem_append.mp waits with earlier | new
    · exact foreclosed.events other event earlier same
    · rw [mem_singleton, ListenEvent.msg.injEq] at new
      rw [new.1] at same ⊢
      exact .inr (foreclosed.knows conn (.inr reads) same)
  · exact foreclosed

theorem disconnect (conn : Connection Ip) :
    Foreclosed before fingerprint (listener.disconnect conn) :=
  foreclosed.of_less (fun _ known => known.imp_right mem_of_mem_erase) fun _ _ waits => waits

omit [DecidableEq Ip] in
theorem take : Foreclosed before fingerprint listener.take :=
  foreclosed.of_less (fun _ known => known) fun _ _ waits => mem_of_mem_tail waits

end Foreclosed

end Foreclosed

end SyntraListener

end Syntra.Emulation
