import Syntra.Clients.Ownership
import Syntra.Emulation.Listener

/-!
# Keys that are removed

A certificate is compared with the authorized keys while its peer connects, and never again. Once a
key is removed no connection of it is admitted, until it is authorized again; the connections that
there are already go on.
-/

namespace Syntra.Clients

open StateMachine ByteFormat Emulation Proto Tables

/-- The service with the listener and the listening task. -/
structure Listening (Ip : Type) where
  service : Service Ip
  listener : SyntraListener Ip
  task : ListenTask Ip

/-- What happens to the service and its listener. -/
inductive ListeningAction (Ip Backend : Type)
  | serve (input : ServiceInput Ip)
  /-- A peer connects, and the certificate it shows. -/
  | handshake (addr : SocketAddr Ip) (fingerprint : String)
  | accepted (conn : Connection Ip)
  | refused
  | abandoned (conn : Connection Ip)
  | datagram (conn : Connection Ip) (datagram : Bytes)
  | disconnected (conn : Connection Ip)
  /-- The task takes the next event of the listener. -/
  | take (around : ListenSurroundings Ip)
  /-- Something else happens at the task. -/
  | turn (around : ListenSurroundings Ip) (input : ListenInput Ip Backend)

/-- The authorized keys matter to it. -/
def ListeningAction.Authorizes {Ip Backend : Type} : ListeningAction Ip Backend → Prop
  | .serve _ | .handshake .. => True
  | _ => False

namespace Listening

section Actions

variable {Ip Backend : Type} [DecidableEq Ip]

def surroundings (state : Listening Ip) (around : ListenSurroundings Ip) : ListenSurroundings Ip :=
  { around with certificateFingerprint := state.listener.certificateFingerprint }

def taskStep (state : Listening Ip) :
    ListeningAction Ip Backend → ListenTask Ip × List (ListenEffect Ip Backend)
  | .take around =>
    match state.listener.next with
    | some event => state.task.step (state.surroundings around, event.input)
    | none => (state.task, [])
  | .turn around input => state.task.step (state.surroundings around, input)
  | _ => (state.task, [])

def listenerStep (state : Listening Ip) : ListeningAction Ip Backend → SyntraListener Ip
  | .serve _ | .turn .. => state.listener
  | .handshake addr fingerprint =>
    state.listener.verifyPeerCertificate state.service.authorizedKeys addr fingerprint
  | .accepted conn => state.listener.accept conn
  | .refused => state.listener.reject
  | .abandoned conn => state.listener.abandon conn
  | .datagram conn datagram => state.listener.receive conn datagram
  | .disconnected conn => state.listener.disconnect conn
  | .take _ => state.listener.take

def taken (state : Listening Ip) : ListeningAction Ip Backend → Option (Connection Ip × ProtoEvent)
  | .take _ =>
    match state.listener.next with
    | some (.msg conn event) => some (conn, event)
    | _ => none
  | _ => none

def withKeys (state : Listening Ip) (keys : Table String String) : Listening Ip :=
  { state with service := { state.service with authorizedKeys := keys } }

end Actions

variable {Ip Backend : Type} [LinearOrder Ip]

def serviceStep (host : Host Ip) (state : Listening Ip) : ListeningAction Ip Backend → Service Ip
  | .serve input => (Handler.handle host input state.service).2
  | _ => state.service

/-- A connection is handed over after its certificate was verified, and read as long as it stands.
The events of the listener are taken in order. -/
def Enabled (host : Host Ip) (state : Listening Ip) : ListeningAction Ip Backend → Prop
  | .serve input => (Handler.handle host input state.service).1 = .ok ()
  | .accepted conn | .abandoned conn => conn ∈ state.listener.verified
  | .datagram conn _ | .disconnected conn => conn ∈ state.listener.readers
  | .turn _ (.message ..) | .turn _ (.accept ..) | .turn _ (.rejected _) => False
  | _ => True

def machine (host : Host Ip) (service : Service Ip) :
    Machine (Listening Ip) (ListeningAction Ip Backend) where
  initial := ⟨service, .new, .new⟩
  enabled := Enabled host
  next := fun state action =>
    ⟨serviceStep host state action, listenerStep state action, (taskStep state action).1⟩

variable {host : Host Ip} {service : Service Ip} {before state : Listening Ip}
  {fingerprint : String}

variable {action : ListeningAction Ip Backend}

theorem foreclosed_listenerStep (foreclosed : before.listener.Foreclosed fingerprint state.listener)
    (enabled : Enabled host state action)
    (unauthorized : fingerprint ∉ state.service.authorizedKeys) :
    before.listener.Foreclosed fingerprint (listenerStep state action) := by
  cases action with
  | serve | turn => exact foreclosed
  | handshake addr other => exact foreclosed.verifyPeerCertificate unauthorized addr other
  | accepted => exact foreclosed.accept enabled
  | refused => exact foreclosed.reject
  | abandoned conn => exact foreclosed.abandon conn
  | datagram _ datagram => exact foreclosed.receive enabled datagram
  | disconnected conn => exact foreclosed.disconnect conn
  | take => exact foreclosed.take

theorem foreclosed_after {actions : List (ListeningAction Ip Backend)}
    (foreclosed : before.listener.Foreclosed fingerprint state.listener)
    (follows : (machine host service).Follows state actions)
    (unauthorized : ∀ earlier, earlier <+: actions →
      fingerprint ∉ ((machine host service).after state earlier).service.authorizedKeys) :
    before.listener.Foreclosed fingerprint
      ((machine host service).after state actions).listener := by
  induction actions generalizing state with
  | nil => exact foreclosed
  | cons action _ ih =>
    refine ih ?_ follows.2 fun earlier shorter => ?_
    · exact foreclosed_listenerStep foreclosed follows.1 (unauthorized [] List.nil_prefix)
    · exact unauthorized (action :: earlier) (List.prefix_cons_iff.mpr (.inr ⟨_, rfl, shorter⟩))

theorem next_withKeys (apart : ¬action.Authorizes) (state : Listening Ip)
    (keys : Table String String) :
    (machine host service).next (state.withKeys keys) action =
        ((machine host service).next state action).withKeys keys ∧
      taskStep (state.withKeys keys) action = taskStep state action := by
  cases action with
  | serve | handshake => exact absurd trivial apart
  | _ => exact ⟨rfl, rfl⟩

omit [LinearOrder Ip] in
theorem mem_events_of_taken [DecidableEq Ip] {conn : Connection Ip} {event : ProtoEvent}
    (takes : state.taken action = some (conn, event)) :
    .msg conn event ∈ state.listener.events := by
  cases action with
  | take =>
    unfold taken SyntraListener.next at takes
    cases events : state.listener.events with
    | nil => simp [events] at takes
    | cons first =>
      simp only [events, List.head?_cons] at takes
      cases first with
      | msg =>
        cases takes
        exact .head _
      | accept | rejected => cases takes
  | _ => cases takes

/-- Once a key is removed, and until it is authorized again, a message is only acted on that was
there before or that comes on a connection whose certificate was verified before. Such a connection
is not affected: keys matter only when a peer connects. -/
theorem taken_of_removed {actions earlier later : List (ListeningAction Ip Backend)}
    {action : ListeningAction Ip Backend} {removed : Listening Ip} {conn : Connection Ip}
    {event : ProtoEvent} (removes : (machine host service).next before
      (.serve (.request (.removeAuthorizedKey fingerprint)) : ListeningAction Ip Backend) = removed)
    (follows : (machine host service).Follows removed actions)
    (unauthorized : ∀ earlier, earlier <+: actions →
      fingerprint ∉ ((machine host service).after removed earlier).service.authorizedKeys)
    (split : actions = earlier ++ action :: later)
    (takes : taken ((machine host service).after removed earlier) action = some (conn, event))
    (authenticated : conn.fingerprint = fingerprint) :
    (.msg conn event ∈ before.listener.events ∨ before.listener.Knows conn) ∧
      ∀ (state : Listening Ip) (keys : Table String String)
        (action : ListeningAction Ip Backend), ¬action.Authorizes →
        (machine host service).next (state.withKeys keys) action =
            ((machine host service).next state action).withKeys keys ∧
          taskStep (state.withKeys keys) action = taskStep state action := by
  refine ⟨?_, fun state keys _ apart => next_withKeys apart state keys⟩
  have start : before.listener.Foreclosed fingerprint removed.listener := by
    rw [← removes]
    exact .refl _ _
  rw [split] at follows unauthorized
  have foreclosed := foreclosed_after start (Machine.follows_append.mp follows).1
    fun first shorter => unauthorized first (shorter.trans (List.prefix_append _ _))
  exact foreclosed.events conn event (mem_events_of_taken takes) authenticated

end Listening

namespace Sample

open Listening

def around : ListenSurroundings ℕ where
  android := false
  now := 0
  emulationReady := true
  proxySharing := true
  certificateFingerprint := fun _ => none
  touchpadActive := false
  localCommit := ⟨List.replicate 8 0, rfl⟩
  portChanged := .ok 4242
  published := .ok ()
  sides := .asStored Position
  peers := .asStored (SocketAddr ℕ)

def connection : Connection ℕ := ⟨0, peer, "fp"⟩

def key : InputEvent := .keyboard (.key 0 30 1)

def sent (event : ProtoEvent) : Bytes := (encode event).toOption.getD []

def arrival : List (ListeningAction ℕ Unit) :=
  [.serve (.request (.authorizeKey "laptop" "fp")), .handshake peer "fp", .accepted connection,
    .take around, .turn around (.emulation (.emulationEnabled "x11")),
    .turn around (.request (.captureReady true)), .datagram connection (sent (.enter .left)),
    .take around]

def typing : List (ListeningAction ℕ Unit) :=
  [.datagram connection (sent (.input key)), .take around]

abbrev system : Machine (Listening ℕ) (ListeningAction ℕ Unit) := machine host service

def arrived : Listening ℕ := system.after ⟨service, .new, .new⟩ arrival

def removed : Listening ℕ :=
  system.next arrived (.serve (.request (.removeAuthorizedKey "fp")))

def mayHappen (state : Listening ℕ) : ListeningAction ℕ Unit → Bool
  | .serve input => (Handler.handle host input state.service).1.isOk
  | .accepted conn => conn ∈ state.listener.verified
  | .datagram conn _ => conn ∈ state.listener.readers
  | .handshake .. | .take _ | .turn _ (.emulation _) | .turn _ (.request _) => true
  | _ => false

theorem enabled_of_mayHappen (state : Listening ℕ) (action : ListeningAction ℕ Unit)
    (fine : mayHappen state action = true) : system.enabled state action := by
  cases action with
  | serve => exact enabled_of_isOk fine
  | accepted conn =>
    change conn ∈ state.listener.verified
    simpa [mayHappen] using fine
  | datagram conn =>
    change conn ∈ state.listener.readers
    simpa [mayHappen] using fine
  | handshake | take => trivial
  | turn _ input =>
    cases input with
    | emulation | request => trivial
    | message | accept | rejected | closed | tick => cases fine
  | refused | abandoned | disconnected => cases fine

theorem follows_of_mayHappen {state : Listening ℕ} {actions : List (ListeningAction ℕ Unit)}
    (fine : system.passes id mayHappen state actions = true) :
    system.Follows state actions := by
  rw [← List.map_id actions]
  exact Machine.Follows.of_passes enabled_of_mayHappen fine

theorem follows_arrival : system.Follows ⟨service, .new, .new⟩ arrival :=
  follows_of_mayHappen (by decide +kernel)

theorem follows_typing : system.Follows removed typing :=
  follows_of_mayHappen (by decide +kernel)

theorem unauthorized_typing (earlier : List (ListeningAction ℕ Unit))
    (shorter : earlier <+: typing) :
    "fp" ∉ (system.after removed earlier).service.authorizedKeys := by
  have along : ∀ earlier ∈ typing.inits,
      "fp" ∉ (system.after removed earlier).service.authorizedKeys := by
    decide +kernel
  exact along earlier ((List.mem_inits _ _).mpr shorter)

def replayed (input : InputEvent) (addr : SocketAddr ℕ) : ListenEffect ℕ Unit → Bool
  | .proxy (.input other sender) => other = input ∧ sender = addr
  | _ => false

end Sample

open Sample Listening in
/-- A peer goes on typing. -/
theorem replays_removed :
    ¬∀ (before removed : Listening ℕ) (history : List (Listening ℕ)) (fingerprint : String)
      (actions earlier later : List (ListeningAction ℕ Unit)) (action : ListeningAction ℕ Unit)
      (conn : Connection ℕ) (event : ProtoEvent),
      Run system (before :: history) →
      system.next before (.serve (.request (.removeAuthorizedKey fingerprint))) = removed →
      system.Follows removed actions →
      (∀ earlier, earlier <+: actions →
        fingerprint ∉ (system.after removed earlier).service.authorizedKeys) →
      actions = earlier ++ action :: later →
      taken (system.after removed earlier) action = some (conn, event) →
      .msg conn event ∉ before.listener.events → conn.fingerprint = fingerprint →
      ∀ input, .proxy (.input input conn.addr) ∉
        (taskStep (system.after removed earlier) action).2 := by
  intro ignored
  have takes : taken (system.after Sample.removed [.datagram connection (sent (.input key))])
      (.take around : ListeningAction ℕ Unit) = some (connection, .input key) := by
    decide +kernel
  have replays : (taskStep (system.after Sample.removed [.datagram connection (sent (.input key))])
      (.take around : ListeningAction ℕ Unit)).2.any (replayed key peer) = true := by
    decide +kernel
  have unheard : .msg connection (.input key) ∉ arrived.listener.events := by
    exact List.not_mem_nil
  rcases Run.of_follows follows_arrival with ⟨history, run⟩
  have effects := ignored arrived Sample.removed history "fp" typing _ [] _ connection _ run rfl
    follows_typing unauthorized_typing rfl takes unheard rfl key
  rcases List.any_eq_true.mp replays with ⟨effect, member, replays⟩
  have same : effect = .proxy (.input key peer) := by
    unfold replayed at replays
    split at replays
    · rw [(of_decide_eq_true replays).1, (of_decide_eq_true replays).2]
    · cases replays
  exact effects (same ▸ member)

open Sample Listening in
/-- The peer that goes on typing had connected before. -/
theorem Listening.taken_of_removed_typing : arrived.listener.Knows connection := by
  have takes : taken (system.after Sample.removed [.datagram connection (sent (.input key))])
      (.take around : ListeningAction ℕ Unit) = some (connection, .input key) := by
    decide +kernel
  have removes : system.next arrived (.serve (.request (.removeAuthorizedKey "fp"))) =
      Sample.removed := rfl
  have known := taken_of_removed removes follows_typing unauthorized_typing rfl takes rfl
  exact known.1.resolve_left List.not_mem_nil

end Syntra.Clients
