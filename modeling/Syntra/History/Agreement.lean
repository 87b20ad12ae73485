import Syntra.History.ClearSteps
import Syntra.Store.Rows

/-!
# Agreement on a clear

Any number of devices exchange the messages of global clears over channels that lose, repeat and
reorder them, while routes come and go and devices restart. When a coordinator reports a clear
without an error, all participants have applied it with the boundary that the coordinator took
from its own snapshot and theirs.
-/

namespace Syntra.History

open ByteFormat Proto Store ClearCoordinator List Option Finset Function
open Service (Peer ClientHandle)
open StateMachine Tables

variable {Address : Type} {coordinator : String} {log more : List (String × Effect Address)}
  {begun clear : ClearCoordinator String}

/-- The boundary joins that of the coordinator with the snapshots of these peers. -/
def Gathered (log : List (String × Effect Address)) (begun : ClearCoordinator String)
    (peers : Finset String) (boundary : ClearBoundary) : Prop :=
  ∃ snapshots : String → ClearBoundary,
    (∀ peer ∈ peers, (peer, .snapshot begun.operationId (snapshots peer)) ∈ log) ∧
      ∀ origin, lastOf boundary origin =
        lastOf begun.boundary origin ⊔ peers.sup fun peer => lastOf (snapshots peer) origin

/-- All have applied the clear, with the boundary gathered from their snapshots. -/
def Agreed (coordinator : String) (log : List (String × Effect Address))
    (begun : ClearCoordinator String) : Prop :=
  ∃ boundary, Gathered log begun begun.participants boundary ∧
    (coordinator, .snapshot begun.operationId begun.boundary) ∈ log ∧
    (coordinator, .cleared (hexOperation begun.operationId) boundary) ∈ log ∧
    ∀ peer ∈ begun.participants, (peer, .cleared (hexOperation begun.operationId) boundary) ∈ log

/-- A clear that runs has come from the one that began, by what the peers have done. -/
structure Descends (coordinator : String) (log : List (String × Effect Address))
    (begun clear : ClearCoordinator String) : Prop where
  operationId : clear.operationId = begun.operationId
  participants : clear.participants = begun.participants
  waiting : clear.awaitingBoundaries ⊆ begun.participants
  idle : clear.applying = false → clear.awaitingAcks = ∅
  gathered : clear.errors = [] →
    Gathered log begun (begun.participants \ clear.awaitingBoundaries) clear.boundary
  decided : clear.applying = true → clear.awaitingBoundaries = ∅ ∧
    (coordinator, .cleared (hexOperation begun.operationId) clear.boundary) ∈ log
  applied : clear.applying = true → clear.errors = [] →
    ∀ peer ∈ begun.participants \ clear.awaitingAcks,
      (peer, .cleared (hexOperation begun.operationId) clear.boundary) ∈ log

theorem Gathered.mono {peers : Finset String} {boundary : ClearBoundary}
    (gathered : Gathered log begun peers boundary) :
    Gathered (log ++ more) begun peers boundary := by
  rcases gathered with ⟨snapshots, taken, greatest⟩
  exact ⟨snapshots, fun peer member => mem_append_left _ (taken peer member), greatest⟩

theorem Agreed.mono (agreed : Agreed coordinator log begun) :
    Agreed coordinator (log ++ more) begun := by
  rcases agreed with ⟨boundary, gathered, own, here, there⟩
  exact ⟨boundary, gathered.mono, mem_append_left _ own, mem_append_left _ here,
    fun peer member => mem_append_left _ (there peer member)⟩

namespace Descends

variable (descends : Descends coordinator log begun clear)
include descends

theorem mono : Descends coordinator (log ++ more) begun clear where
  operationId := descends.operationId
  participants := descends.participants
  waiting := descends.waiting
  idle := descends.idle
  gathered clean := (descends.gathered clean).mono
  decided applying := by
    have decided := descends.decided applying
    exact ⟨decided.1, mem_append_left _ decided.2⟩
  applied applying clean peer member :=
    mem_append_left _ (descends.applied applying clean peer member)

omit descends in
theorem start (now : ℕ) (operationId : OperationId) (peers : Finset String)
    (boundary : ClearBoundary) :
    Descends coordinator log (.new now operationId peers boundary)
      (.new now operationId peers boundary) where
  operationId := rfl
  participants := rfl
  waiting := subset_rfl
  idle _ := rfl
  gathered _ := by
    refine ⟨fun _ => ∅, ?_, ?_⟩
    · simp [new]
    · simp [new]
  decided applying := by cases applying
  applied applying := by cases applying

theorem addBoundary {identity : String} {boundary : ClearBoundary}
    (taken : (identity, .snapshot begun.operationId boundary) ∈ log) :
    Descends coordinator log begun (clear.addBoundary identity boundary).1 := by
  unfold ClearCoordinator.addBoundary
  split
  · rename_i awaited
    refine ⟨descends.operationId, descends.participants,
      (erase_subset _ _).trans descends.waiting, descends.idle, ?_, ?_, ?_⟩
    · intro clean
      rcases descends.gathered clean with ⟨snapshots, known, greatest⟩
      have one : begun.participants \ clear.awaitingBoundaries.erase identity =
          insert identity (begun.participants \ clear.awaitingBoundaries) := by
        rw [sdiff_erase (descends.waiting awaited)]
      have others : ∀ peer ∈ begun.participants \ clear.awaitingBoundaries, peer ≠ identity := by
        rintro peer inside rfl
        exact (mem_sdiff.mp inside).2 awaited
      refine ⟨update snapshots identity boundary, ?_, ?_⟩
      · intro peer inside
        rw [one, mem_insert] at inside
        rcases inside with rfl | inside
        · simpa using taken
        · simpa [others peer inside] using known peer inside
      · intro origin
        have same : (begun.participants \ clear.awaitingBoundaries).sup (fun peer =>
              lastOf (update snapshots identity boundary peer) origin) =
            (begun.participants \ clear.awaitingBoundaries).sup fun peer =>
              lastOf (snapshots peer) origin := by
          apply sup_congr rfl
          intro peer inside
          simp [others peer inside]
        rw [one, sup_insert, same, lastOf_unionBoundary, greatest origin,
          update_self, sup_assoc, sup_comm (lastOf boundary origin)]
    · intro applying
      rw [(descends.decided applying).1] at awaited
      cases awaited
    · intro applying
      rw [(descends.decided applying).1] at awaited
      cases awaited
  · exact descends

theorem beginApply (all : clear.awaitingBoundaries = ∅) (now affected : ℕ)
    (here : (coordinator, .cleared (hexOperation begun.operationId) clear.boundary) ∈ log) :
    Descends coordinator log begun (clear.beginApply now clear.participants affected) where
  operationId := descends.operationId
  participants := descends.participants
  waiting := descends.waiting
  idle applying := by cases applying
  gathered := descends.gathered
  decided _ := ⟨all, here⟩
  applied _ _ peer member := by
    simp [ClearCoordinator.beginApply, descends.participants] at member

theorem addAck (applying : clear.applying = true) {identity : String} {affected : UInt64}
    {error : Option String} (there : error = none →
      (identity, .cleared (hexOperation begun.operationId) clear.boundary) ∈ log) :
    Descends coordinator log begun (clear.addAck identity affected error).1 := by
  unfold ClearCoordinator.addAck
  split
  · refine ⟨descends.operationId, descends.participants, descends.waiting, ?_, ?_,
      descends.decided, ?_⟩
    · intro idle
      rw [show clear.applying = false from idle] at applying
      cases applying
    · intro clean
      exact descends.gathered (append_eq_nil_iff.mp clean).1
    · intro _ clean peer member
      have parts := append_eq_nil_iff.mp clean
      have none : error = none := by simpa using parts.2
      by_cases same : peer = identity
      · rw [same]
        exact there none
      · apply descends.applied applying parts.1
        simp only [mem_sdiff, mem_erase, not_and] at member ⊢
        exact ⟨member.1, member.2 same⟩
  · exact descends

theorem peerLost (identity : String) :
    Descends coordinator log begun (clear.peerLost identity) := by
  unfold ClearCoordinator.peerLost
  split
  · rename_i awaited
    refine ⟨descends.operationId, descends.participants,
      (erase_subset _ _).trans descends.waiting, descends.idle, by simp, ?_, ?_⟩
    · intro applying
      rw [(descends.decided applying).1] at awaited
      cases awaited
    · intro applying
      rw [(descends.decided applying).1] at awaited
      cases awaited
  split
  · refine ⟨descends.operationId, descends.participants, descends.waiting, ?_, by simp,
      descends.decided, by simp⟩
    intro idle
    have none : clear.awaitingAcks = ∅ := descends.idle idle
    simp [none]
  · exact descends

end Descends

section Coordinator

open Reconciler

variable [DecidableEq Address] {around : Surroundings Address}
  {was started : Option (ClearCoordinator String)} {heard : Option (String × ProtoEvent)}
  {outcome : Reconciler Address × List (Effect Address)}
  {earlier : List (String × ClearCoordinator String)}

omit [DecidableEq Address] in
theorem Descends.acknowledged (descends : Descends coordinator log begun clear)
    (applying : clear.applying = true) {identity : String} {affected : UInt64}
    {error : Option String}
    (said : heard = some (identity, .historyClearAck clear.operationId affected error))
    (acks : ∀ identity affected,
      heard = some (identity, .historyClearAck clear.operationId affected none) →
        (identity, .cleared (hexOperation clear.operationId) clear.boundary) ∈ log) :
    Descends coordinator log begun (clear.addAck identity affected error).1 := by
  apply descends.addAck applying
  rintro rfl
  rw [← descends.operationId]
  exact acks identity affected said

theorem descends_of_step (step : ClearStep around was heard started outcome)
    (current : ∀ clear, was = some clear → ∃ begun, (coordinator, begun) ∈ earlier ∧
      Descends coordinator log begun clear) (boundaries : ∀ identity operationId entries,
      heard = some (identity, .historyClearBoundary operationId entries) →
        (identity, .snapshot operationId (boundaryFromWire entries)) ∈ log)
    (acks : ∀ clear, was = some clear → clear.applying = true → ∀ identity affected,
      heard = some (identity, .historyClearAck clear.operationId affected none) →
        (identity, .cleared (hexOperation clear.operationId) clear.boundary) ∈ log)
    (fresh : ∀ clear, started = some clear →
      ∃ now operationId peers boundary, clear = .new now operationId peers boundary)
    (later : outcome.1.historyClear = some clear) :
    ∃ begun, (coordinator, begun) ∈ earlier ++ (started.map (coordinator, ·)).toList ∧
      Descends coordinator (log ++ outcome.2.map (coordinator, ·)) begun clear := by
  have kept : was = some clear →
      ∃ begun, (coordinator, begun) ∈ earlier ++ (started.map (coordinator, ·)).toList ∧
        Descends coordinator (log ++ outcome.2.map (coordinator, ·)) begun clear := by
    intro same
    rcases current clear same with ⟨begun, listed, descends⟩
    exact ⟨begun, mem_append_left _ listed, descends.mono⟩
  cases step with
  | bystander same bystander => exact kept (same.symm.trans (bystander.kept.symm.trans later))
  | answers same | refuses same | applies same | clearsAlone same | failsAlone same =>
    exact kept (same.symm.trans later)
  | @starts after first new now effects others =>
    cases some.inj (now.symm.trans later)
    rcases fresh clear new with ⟨start, operationId, _, boundary, rfl⟩
    exact ⟨_, mem_append_right _ (by simp [new]), .start ..⟩
  | @gathers after before identity entries same said now =>
    cases some.inj (now.symm.trans later)
    rcases current before same with ⟨begun, listed, descends⟩
    have taken := boundaries _ _ _ said
    rw [descends.operationId] at taken
    exact ⟨begun, mem_append_left _ listed, (descends.addBoundary taken).mono⟩
  | @decides after before identity entries same said all ready affected now effects sends =>
    cases some.inj (now.symm.trans later)
    rcases current before same with ⟨begun, listed, descends⟩
    have taken := boundaries _ _ _ said
    rw [descends.operationId] at taken
    have gathered : Descends coordinator
        (log ++ (.cleared (hexOperation all.operationId) all.boundary :: effects).map
          (coordinator, ·)) begun (before.addBoundary identity (boundaryFromWire entries)).1 :=
      (descends.addBoundary taken).mono
    rw [ready] at gathered
    refine ⟨begun, mem_append_left _ listed, gathered.beginApply ?_ _ _ ?_⟩
    · exact (addBoundary_ready ready).2.1
    · rw [← gathered.operationId]
      exact mem_append_right _ (by simp)
  | givesUp gone => cases gone.symm.trans later
  | @counts after before identity affected error same said applying now =>
    cases some.inj (now.symm.trans later)
    rcases current before same with ⟨begun, listed, descends⟩
    have counted := descends.acknowledged applying said (acks before same applying)
    exact ⟨begun, mem_append_left _ listed, counted.mono⟩
  | finishes _ _ _ _ gone => cases gone.symm.trans later
  | @loses after before same identity now =>
    cases some.inj (now.symm.trans later)
    rcases current before same with ⟨begun, listed, descends⟩
    exact ⟨begun, mem_append_left _ listed, (descends.peerLost identity).mono⟩
  | repeats same now => exact kept (same.trans (now.symm.trans later))

theorem agreed_of_step (step : ClearStep around was heard started outcome)
    (current : ∀ clear, was = some clear → ∃ begun, (coordinator, begun) ∈ earlier ∧
      Descends coordinator log begun clear)
    (acks : ∀ clear, was = some clear → clear.applying = true → ∀ identity affected,
      heard = some (identity, .historyClearAck clear.operationId affected none) →
        (identity, .cleared (hexOperation clear.operationId) clear.boundary) ∈ log)
    (snapshots : ∀ begun,
      (coordinator, begun) ∈ earlier ++ (started.map (coordinator, ·)).toList →
        (coordinator, .snapshot begun.operationId begun.boundary) ∈
          log ++ outcome.2.map (coordinator, ·))
    {operation : String} {total : UInt64} {count : UInt32}
    (said : .notified (.historyClearResult operation total count none) ∈ outcome.2) :
    ∃ begun, (coordinator, begun) ∈ earlier ++ (started.map (coordinator, ·)).toList ∧
      operation = hexOperation begun.operationId ∧
      Agreed coordinator (log ++ outcome.2.map (coordinator, ·)) begun := by
  rcases step.succeeded said with ⟨begun, new, rfl, alone, cleared⟩ |
    ⟨clear, identity, affected, error, last, same, rfl, heardAck, applying, done, clean⟩
  · have listed : (coordinator, begun) ∈ earlier ++ (started.map (coordinator, ·)).toList :=
      mem_append_right _ (by simp [new])
    refine ⟨begun, listed, rfl, begun.boundary, ⟨fun _ => ∅, ?_, ?_⟩, snapshots begun listed, ?_,
      ?_⟩
    · simp [alone]
    · simp [alone]
    · exact mem_append_right _ (mem_map_of_mem cleared)
    · simp [alone]
  · rcases current clear same with ⟨begun, listed, descends⟩
    have ended := descends.acknowledged applying heardAck (acks clear same applying)
    rw [done] at ended
    rcases addAck_done done with ⟨all, same⟩
    have decided := ended.decided (same.trans applying)
    have gathered := ended.gathered clean
    have applied := ended.applied (same.trans applying) clean
    rw [decided.1, sdiff_empty] at gathered
    rw [all, sdiff_empty] at applied
    have listed : (coordinator, begun) ∈ earlier ++ (started.map (coordinator, ·)).toList :=
      mem_append_left _ listed
    refine ⟨begun, listed, by rw [descends.operationId], last.boundary, gathered.mono,
      snapshots begun listed, mem_append_left _ decided.2, ?_⟩
    intro peer member
    exact mem_append_left _ (applied peer member)

end Coordinator

/-- A message from one device to another, named by their fingerprints. -/
structure Envelope where
  source : String
  target : String
  event : ProtoEvent
  deriving DecidableEq

def isHistoryClear : ProtoEvent → Bool
  | .historyClearBoundaryRequest .. => true
  | .historyClearBoundary .. => true
  | .historyClearApply .. => true
  | .historyClearAck .. => true
  | _ => false

/-- The devices, the messages sent so far, what each device has done, and the clears that they have
started. -/
structure System (Address : Type) where
  device : String → Reconciler Address
  wire : List Envelope
  log : List (String × Effect Address)
  started : List (String × ClearCoordinator String)

/-- A device takes an event, or starts anew. -/
inductive Action (Address : Type) where
  | handles (name : String) (around : Surroundings Address) (event : Event Address)
  | restarts (name : String) (startedAt : UInt64)

variable [DecidableEq Address]

namespace System

def initial : System Address := ⟨fun _ => .new 0, [], [], []⟩

variable (hosts : String → Host) (state : System Address)

/-- Where a message goes is known from the route it is sent by. -/
def envelope (name : String) (service : Reconciler Address) : Effect Address → Option Envelope
  | .sent peer event => (service.identityOf peer).map fun target => ⟨name, target, event⟩
  | _ => none

def handle (name : String) (around : Surroundings Address) (event : Event Address) :
    System Address :=
  let outcome := (state.device name).handle (hosts name) around event
  { device := Function.update state.device name outcome.1
    wire := state.wire ++ outcome.2.filterMap (envelope name outcome.1)
    log := state.log ++ outcome.2.map (name, ·)
    started := state.started ++
      ((event.begins (hosts name) around (state.device name)).map (name, ·)).toList }

/-- The store is what a restart leaves. -/
def restart (name : String) (startedAt : UInt64) : System Address :=
  { state with
    device := Function.update state.device name
      { Reconciler.new startedAt with history := (state.device name).history } }

end System

def Permits (state : System Address) : Action Address → Prop
  | .handles name _ event => ∀ source message,
    event.heard (state.device name) = some (source, message) →
      isHistoryClear message = true → ⟨source, name, message⟩ ∈ state.wire
  | .restarts _ _ => True

def network (hosts : String → Host) : Machine (System Address) (Action Address) where
  initial := .initial
  enabled := Permits
  next state action :=
    match action with
    | .handles name around event => state.handle hosts name around event
    | .restarts name startedAt => state.restart name startedAt

namespace System

/-- No two clears of a device have the same number. -/
def Distinct (coordinator : String) (state : System Address) : Prop :=
  ((state.started.filter (·.1 = coordinator)).map (·.2.operationId)).Nodup

/-- Every message of a clear that is under way has its cause in the log. -/
structure Sound (coordinator : String) (state : System Address) : Prop where
  acks : ∀ peer operationId affected,
    ⟨peer, coordinator, .historyClearAck operationId affected none⟩ ∈ state.wire →
      ∃ entries, ⟨coordinator, peer, .historyClearApply operationId entries⟩ ∈ state.wire ∧
        (peer, .cleared (hexOperation operationId) (boundaryFromWire entries)) ∈ state.log
  boundaries : ∀ peer operationId entries,
    ⟨peer, coordinator, .historyClearBoundary operationId entries⟩ ∈ state.wire →
      (peer, .snapshot operationId (boundaryFromWire entries)) ∈ state.log
  orders : ∀ peer operationId entries,
    ⟨coordinator, peer, .historyClearApply operationId entries⟩ ∈ state.wire →
      (∃ begun, (coordinator, begun) ∈ state.started ∧ begun.operationId = operationId) ∧
        ∀ clear, (state.device coordinator).historyClear = some clear →
          clear.operationId = operationId →
            clear.applying = true ∧ entries = boundaryToWire clear.boundary
  current : ∀ clear, (state.device coordinator).historyClear = some clear →
    ∃ begun, (coordinator, begun) ∈ state.started ∧ Descends coordinator state.log begun clear
  snapshots : ∀ begun, (coordinator, begun) ∈ state.started →
    (coordinator, .snapshot begun.operationId begun.boundary) ∈ state.log
  results : ∀ operation affected count,
    (coordinator, .notified (.historyClearResult operation affected count none)) ∈ state.log →
      ∃ begun, (coordinator, begun) ∈ state.started ∧
        operation = hexOperation begun.operationId ∧ Agreed coordinator state.log begun

variable {hosts : String → Host} {state : System Address} {name : String}
  {around : Surroundings Address} {event : Event Address}

omit [DecidableEq Address] in
theorem Distinct.unique (distinct : Distinct coordinator state)
    {first second : ClearCoordinator String} (one : (coordinator, first) ∈ state.started)
    (other : (coordinator, second) ∈ state.started)
    (same : first.operationId = second.operationId) : first = second := by
  have listed : ∀ {begun : ClearCoordinator String}, (coordinator, begun) ∈ state.started →
      (coordinator, begun) ∈ state.started.filter (·.1 = coordinator) := by
    intro _ member
    simpa using member
  have equal := inj_on_of_nodup_map distinct (listed one) (listed other) same
  exact (Prod.mk.inj equal).2

theorem Distinct.of_handle
    (distinct : Distinct coordinator (state.handle hosts name around event)) :
    Distinct coordinator state := by
  apply Nodup.sublist _ distinct
  apply Sublist.map
  apply Sublist.filter
  exact sublist_append_left _ _

theorem Distinct.fresh
    (distinct : Distinct coordinator (state.handle hosts coordinator around event))
    (begins : event.begins (hosts coordinator) around (state.device coordinator) = some clear)
    (started : (coordinator, begun) ∈ state.started) : begun.operationId ≠ clear.operationId := by
  intro same
  simp only [Distinct, handle, begins, filter_append, map_append, nodup_append,
    map_some, toList_some] at distinct
  apply distinct.2.2 begun.operationId _ clear.operationId _ same
  · exact mem_map.mpr ⟨(coordinator, begun), by simpa using started, rfl⟩
  · simp

variable {service : Reconciler Address}

theorem mem_envelopes {effects : List (Effect Address)} {source target : String}
    {event : ProtoEvent} :
    ⟨source, target, event⟩ ∈ effects.filterMap (envelope name service) ↔
      source = name ∧ ∃ peer, .sent peer event ∈ effects ∧
        service.identityOf peer = some target := by
  simp only [List.mem_filterMap]
  constructor
  · rintro ⟨effect, member, sent⟩
    cases effect with
    | sent peer =>
      simp only [envelope, map_eq_some_iff, Envelope.mk.injEq] at sent
      rcases sent with ⟨_, known, rfl, rfl, rfl⟩
      exact ⟨rfl, peer, member, known⟩
    | _ => cases sent
  · rintro ⟨rfl, _, member, known⟩
    exact ⟨_, member, by simp [envelope, known]⟩

theorem mem_log_handle {effect : Effect Address}
    (done : effect ∈ ((state.device name).handle (hosts name) around event).2) :
    (name, effect) ∈ (state.handle hosts name around event).log :=
  mem_append_right _ (mem_map.mpr ⟨effect, done, rfl⟩)

variable (sound : Sound coordinator state)
include sound

theorem acks_handle (permitted : Permits state (.handles name around event)) (peer : String)
    (operationId : OperationId) (affected : UInt64)
    (sent : ⟨peer, coordinator, .historyClearAck operationId affected none⟩ ∈
      (state.handle hosts name around event).wire) :
    ∃ entries, ⟨coordinator, peer, .historyClearApply operationId entries⟩ ∈
        (state.handle hosts name around event).wire ∧
      (peer, .cleared (hexOperation operationId) (boundaryFromWire entries)) ∈
        (state.handle hosts name around event).log := by
  rcases mem_append.mp sent with old | new
  · rcases sound.acks peer operationId affected old with ⟨entries, ordered, done⟩
    exact ⟨entries, mem_append_left _ ordered, mem_append_left _ done⟩
  · rcases mem_envelopes.mp new with ⟨rfl, _, said, target⟩
    have step := Reconciler.clearStep_handle (hosts peer) around (state.device peer) event
    rcases step.acknowledged said with ⟨_, entries, heard, identified, done⟩
    cases some.inj (identified.symm.trans target)
    exact ⟨entries, mem_append_left _ (permitted _ _ heard rfl), mem_log_handle done⟩

theorem boundaries_handle (peer : String) (operationId : OperationId)
    (entries : List (String × UInt64))
    (sent : ⟨peer, coordinator, .historyClearBoundary operationId entries⟩ ∈
      (state.handle hosts name around event).wire) :
    (peer, .snapshot operationId (boundaryFromWire entries)) ∈
      (state.handle hosts name around event).log := by
  rcases mem_append.mp sent with old | new
  · exact mem_append_left _ (sound.boundaries peer operationId entries old)
  · rcases mem_envelopes.mp new with ⟨rfl, _, said, -⟩
    have step := Reconciler.clearStep_handle (hosts peer) around (state.device peer) event
    rcases step.reported said with ⟨_, rfl, taken⟩
    rw [boundaryFromWire_boundaryToWire]
    exact mem_log_handle taken

theorem snapshots_handle (begun : ClearCoordinator String)
    (started : (coordinator, begun) ∈ (state.handle hosts name around event).started) :
    (coordinator, .snapshot begun.operationId begun.boundary) ∈
      (state.handle hosts name around event).log := by
  rcases mem_append.mp started with old | new
  · exact mem_append_left _ (sound.snapshots begun old)
  · simp only [Option.mem_toList, Option.map_eq_some_iff, Prod.mk.injEq] at new
    rcases new with ⟨_, begins, rfl, rfl⟩
    exact mem_log_handle (Reconciler.snapshot_of_begins begins)

omit sound in
theorem device_handle (other : String) :
    (state.handle hosts name around event).device other =
      if other = name then ((state.device name).handle (hosts name) around event).1
      else state.device other := by
  simp only [handle, update_apply]

omit sound in
theorem new_of_begins {host : Host} (begins : event.begins host around service = some clear) :
    ∃ now operationId peers boundary, clear = .new now operationId peers boundary := by
  cases event with
  | clearGlobalHistory =>
    simp only [Event.begins, Reconciler.newClear] at begins
    split at begins
    · cases begins
    split at begins
    · cases begins
    · cases begins
      exact ⟨_, _, _, _, rfl⟩
  | _ => cases begins

theorem Sound.hears_acks (permitted : Permits state (.handles coordinator around event))
    (clear : ClearCoordinator String)
    (current : (state.device coordinator).historyClear = some clear) (identity : String)
    (affected : UInt64) (heard : event.heard (state.device coordinator) =
      some (identity, .historyClearAck clear.operationId affected none)) :
    (identity, .cleared (hexOperation clear.operationId) clear.boundary) ∈ state.log := by
  rcases sound.acks _ _ _ (permitted _ _ heard rfl) with ⟨_, ordered, done⟩
  rw [((sound.orders _ _ _ ordered).2 clear current rfl).2, boundaryFromWire_boundaryToWire] at done
  exact done

theorem current_handle (permitted : Permits state (.handles name around event))
    (clear : ClearCoordinator String)
    (later : ((state.handle hosts name around event).device coordinator).historyClear = some clear)
    :
    ∃ begun, (coordinator, begun) ∈ (state.handle hosts name around event).started ∧
      Descends coordinator (state.handle hosts name around event).log begun clear := by
  rw [device_handle] at later
  split at later
  · rename_i same
    subst same
    apply descends_of_step (Reconciler.clearStep_handle (hosts coordinator) around
      (state.device coordinator) event) sound.current _ _ _ later
    · intro identity _ _ heard
      exact sound.boundaries _ _ _ (permitted _ _ heard rfl)
    · intro clear current _ identity affected heard
      exact sound.hears_acks permitted clear current identity affected heard
    · intro clear begins
      exact new_of_begins begins
  · rcases sound.current clear later with ⟨begun, listed, descends⟩
    exact ⟨begun, mem_append_left _ listed, descends.mono⟩

theorem results_handle (permitted : Permits state (.handles name around event))
    (operation : String) (affected : UInt64) (count : UInt32)
    (reported : (coordinator, .notified (.historyClearResult operation affected count none)) ∈
      (state.handle hosts name around event).log) :
    ∃ begun, (coordinator, begun) ∈ (state.handle hosts name around event).started ∧
      operation = hexOperation begun.operationId ∧
      Agreed coordinator (state.handle hosts name around event).log begun := by
  rcases mem_append.mp reported with old | new
  · rcases sound.results _ _ _ old with ⟨begun, listed, same, agreed⟩
    exact ⟨begun, mem_append_left _ listed, same, agreed.mono⟩
  · rcases mem_map.mp new with ⟨_, said, equal⟩
    rcases Prod.mk.inj equal with ⟨rfl, rfl⟩
    apply agreed_of_step (Reconciler.clearStep_handle (hosts name) around (state.device name)
      event) sound.current _ _ said
    · intro clear current _ identity affected heard
      exact sound.hears_acks permitted clear current identity affected heard
    · exact snapshots_handle sound

omit sound in
theorem orders_handle (distinct : Distinct coordinator (state.handle hosts name around event))
    (sound : Sound coordinator state) (permitted : Permits state (.handles name around event))
    (peer : String) (operationId : OperationId) (entries : List (String × UInt64))
    (sent : ⟨coordinator, peer, .historyClearApply operationId entries⟩ ∈
      (state.handle hosts name around event).wire) :
    (∃ begun, (coordinator, begun) ∈ (state.handle hosts name around event).started ∧
      begun.operationId = operationId) ∧
    ∀ clear, ((state.handle hosts name around event).device coordinator).historyClear =
      some clear → clear.operationId = operationId →
        clear.applying = true ∧ entries = boundaryToWire clear.boundary := by
  rcases mem_append.mp sent with old | new
  · rcases sound.orders _ _ _ old with ⟨⟨begun, listed, numbered⟩, known⟩
    refine ⟨⟨begun, mem_append_left _ listed, numbered⟩, ?_⟩
    intro clear later same
    rw [device_handle] at later
    split at later
    · rename_i equal
      subst equal
      have step := Reconciler.clearStep_handle (hosts coordinator) around
        (state.device coordinator) event
      rcases step.evolves later with kept | new | ⟨earlier, current, operation, stays⟩
      · exact known clear kept same
      · exact absurd (numbered.trans same.symm) (distinct.fresh new listed)
      · rcases known earlier current (operation.symm.trans same) with ⟨applying, rfl⟩
        rcases sound.current earlier current with ⟨_, _, descends⟩
        rcases stays (descends.decided applying).1 applying with ⟨still, boundary⟩
        exact ⟨still, by rw [boundary]⟩
    · exact known clear later same
  · rcases mem_envelopes.mp new with ⟨rfl, _, said, -⟩
    have step := Reconciler.clearStep_handle (hosts coordinator) around
      (state.device coordinator) event
    rcases step.ordered said with ⟨clear, current, rfl, rfl, reason⟩
    have later : ((state.handle hosts coordinator around event).device coordinator).historyClear =
        some clear := by
      rw [device_handle, if_pos rfl]
      exact current
    refine ⟨?_, ?_⟩
    · rcases current_handle sound permitted clear later with ⟨begun, listed, descends⟩
      exact ⟨begun, listed, descends.operationId.symm⟩
    · intro _ also _
      cases some.inj (later.symm.trans also)
      refine ⟨?_, rfl⟩
      rcases reason with applying | ⟨before, awaited⟩
      · exact applying
      · rcases sound.current clear before with ⟨_, _, descends⟩
        by_contra idle
        exact awaited (descends.idle (by simpa using idle))

omit sound in
theorem Sound.handle (distinct : Distinct coordinator (state.handle hosts name around event))
    (sound : Sound coordinator state) (permitted : Permits state (.handles name around event)) :
    Sound coordinator (state.handle hosts name around event) where
  acks := acks_handle sound permitted
  boundaries := boundaries_handle sound
  orders := orders_handle distinct sound permitted
  current := current_handle sound permitted
  snapshots := snapshots_handle sound
  results := results_handle sound permitted

omit [DecidableEq Address] in
theorem Sound.restart (startedAt : UInt64) : Sound coordinator (state.restart name startedAt) := by
  have gone : ∀ clear,
      ((state.restart name startedAt).device coordinator).historyClear = some clear →
        (state.device coordinator).historyClear = some clear := by
    intro clear later
    simp only [System.restart, update_apply] at later
    split at later
    · cases later
    · exact later
  refine ⟨sound.acks, sound.boundaries, ?_, ?_, sound.snapshots, sound.results⟩
  · intro peer operationId entries sent
    rcases sound.orders peer operationId entries sent with ⟨begun, known⟩
    exact ⟨begun, fun clear later => known clear (gone clear later)⟩
  · intro clear later
    exact sound.current clear (gone clear later)

omit sound

omit [DecidableEq Address] in
theorem sound_initial : Sound coordinator (initial : System Address) := by
  constructor <;> simp [initial, Reconciler.new]

end System

/-- The clears of a run are agreed when they are reported without an error. -/
theorem agreed_of_result {hosts : String → Host} {state : System Address}
    {history : List (System Address)} (run : Run (network hosts) (state :: history))
    (distinct : state.Distinct coordinator) (begun : ClearCoordinator String)
    (started : (coordinator, begun) ∈ state.started) {affected : UInt64} {count : UInt32}
    (reported : (coordinator, .notified (.historyClearResult (hexOperation begun.operationId)
      affected count none)) ∈ state.log) :
    Agreed coordinator state.log begun := by
  have invariant : (network hosts).Invariant fun state : System Address =>
      state.Distinct coordinator → state.Sound coordinator := by
    refine ⟨fun _ => System.sound_initial, ?_⟩
    intro state action sound permitted later
    cases action with
    | handles => exact (sound later.of_handle).handle later permitted
    | restarts _ startedAt => exact (sound later).restart startedAt
  have sound := run.invariant invariant state (.head _) distinct
  rcases sound.results _ _ _ reported with ⟨_, listed, same, agreed⟩
  rw [distinct.unique started listed (hexOperation_injective same)]
  exact agreed

def pairOperation : OperationId :=
  ⟨[87, 94, 193, 117, 45, 67, 128, 248, 39, 239, 210, 159, 161, 72, 39, 108], rfl⟩

def pairHosts (name : String) : Host where
  env := HistoryStore.unaryEnvironment
  codec := ⟨fun _ => .error "not sent", fun _ => none⟩
  describe _ := "error"
  publicKeyFingerprint := name
  localDeviceId := name
  localLabel := none
  operationDigest _ _ _ := pairOperation

def pairAround : Surroundings ℕ := ⟨0, 0, .asStored _, .asStored _, .asStored _⟩

def pairSteps : List (String × Event ℕ) :=
  [("c", .connected 0 "p"), ("p", .connected 0 "c"),
    ("p", .recordLocalHistory (.ok 5) (.text "abc")), ("c", .clearGlobalHistory),
    ("p", .clipboardProtocol 0 (.historyClearBoundaryRequest pairOperation)),
    ("c", .clipboardProtocol 0 (.historyClearBoundary pairOperation [("p", 1)])),
    ("p", .clipboardProtocol 0 (.historyClearApply pairOperation [("p", 1)])),
    ("c", .clipboardProtocol 0 (.historyClearAck pairOperation 1 none))]

def pairAct (step : String × Event ℕ) : Action ℕ := .handles step.1 pairAround step.2

def pairCheck (state : System ℕ) (step : String × Event ℕ) : Bool :=
  match step.2.heard (state.device step.1) with
  | some (source, message) => !isHistoryClear message || ⟨source, step.1, message⟩ ∈ state.wire
  | none => true

theorem pairCheck_sound (state : System ℕ) (step : String × Event ℕ)
    (checked : pairCheck state step = true) : Permits state (pairAct step) := by
  intro _ _ heard isClear
  simpa [pairCheck, heard, isClear] using checked

def pairEnd : System ℕ := (network pairHosts).after .initial (pairSteps.map pairAct)

def pairSucceeds : String × Effect ℕ → Bool
  | (name, .notified (.historyClearResult operation _ _ none)) =>
    name = "c" && operation = hexOperation pairOperation
  | _ => false

theorem pairSucceeds_eq {entry : String × Effect ℕ} (succeeds : pairSucceeds entry = true) :
    ∃ affected count, entry =
      ("c", .notified (.historyClearResult (hexOperation pairOperation) affected count none)) := by
  unfold pairSucceeds at succeeds
  split at succeeds
  · simp only [Bool.and_eq_true, decide_eq_true_eq] at succeeds
    rcases succeeds with ⟨rfl, rfl⟩
    exact ⟨_, _, rfl⟩
  · cases succeeds

theorem agreed_of_result_pair :
    ∃ begun, ("c", begun) ∈ pairEnd.started ∧ begun.participants = {"p"} ∧
      Agreed "c" pairEnd.log begun := by
  have passes : (network pairHosts).passes pairAct pairCheck .initial pairSteps = true := by
    decide +kernel
  rcases Run.of_follows (Machine.Follows.of_passes pairCheck_sound passes) with ⟨_, run⟩
  have fields : pairEnd.started.map (fun entry =>
      (entry.1, entry.2.operationId, entry.2.participants)) = [("c", pairOperation, {"p"})] := by
    decide +kernel
  have reports : pairEnd.log.any pairSucceeds = true := by decide +kernel
  have distinct : pairEnd.Distinct "c" := by
    unfold System.Distinct
    decide +kernel
  rcases List.map_eq_singleton_iff.mp fields with ⟨⟨_, begun⟩, all, equal⟩
  simp only [Prod.mk.injEq] at equal
  rcases equal with ⟨rfl, numbered, peers⟩
  have started : ("c", begun) ∈ pairEnd.started := by
    rw [all]
    exact List.mem_singleton_self _
  rcases List.any_eq_true.mp reports with ⟨_, listed, succeeds⟩
  rcases pairSucceeds_eq succeeds with ⟨_, _, rfl⟩
  rw [← numbered] at listed
  exact ⟨begun, started, peers, agreed_of_result run distinct begun started listed⟩

end Syntra.History
