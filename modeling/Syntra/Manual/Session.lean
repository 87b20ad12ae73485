import Syntra.Manual.ReceiverSide

/-!
# The session of a transfer

The state of one transfer in the abstract protocol, read off the two devices, the channel and the
log, and the invariant under which that reading is faithful: the records and the messages of the
transfer are those of a sender and a receiver.
-/

namespace Syntra.Manual

open Proto PullTransfer Party List Function Issue

variable {P : Type}

namespace Issue

variable (issue : Issue)

/-- A message about the transfer, or about another with its number. -/
def owns (packet : Packet) : Bool :=
  transferId? packet.event = some issue.id

def forReceiver (packets : List Packet) : List (ToReceiver UInt8 Digest) :=
  packets.filterMap fun packet =>
    if packet.target = issue.party.other ∧ issue.owns packet then toReceiver? packet.event else none

def forSender (packets : List Packet) : List ToSender :=
  packets.filterMap fun packet =>
    if packet.target = issue.party ∧ issue.owns packet then toSender? packet.event else none

variable {issue}

theorem forReceiver_append (first second : List Packet) :
    issue.forReceiver (first ++ second) = issue.forReceiver first ++ issue.forReceiver second :=
  filterMap_append

theorem forSender_append (first second : List Packet) :
    issue.forSender (first ++ second) = issue.forSender first ++ issue.forSender second :=
  filterMap_append

variable {packets : List Packet} {events : List ProtoEvent}

theorem forReceiver_eq_nil
    (foreign : ∀ packet ∈ packets, packet.target = issue.party ∨ issue.owns packet = false) :
    issue.forReceiver packets = [] := by
  apply filterMap_eq_nil_iff.mpr
  intro packet member
  apply if_neg
  rintro ⟨target, owned⟩
  rcases foreign packet member with back | other
  · rw [back] at target
    exact absurd target.symm (other_ne issue.party)
  · rw [other] at owned
    cases owned

theorem forSender_eq_nil
    (foreign : ∀ packet ∈ packets, packet.target = issue.party.other ∨ issue.owns packet = false) :
    issue.forSender packets = [] := by
  apply filterMap_eq_nil_iff.mpr
  intro packet member
  apply if_neg
  rintro ⟨target, owned⟩
  rcases foreign packet member with back | other
  · rw [back] at target
    exact absurd target (other_ne issue.party)
  · rw [other] at owned
    cases owned

theorem filterMap_sends {M : Type} {read : ProtoEvent → Option M} {answer : List M} (target : Party)
    (owned : ∀ event ∈ events, transferId? event = some issue.id)
    (said : events.map read = answer.map some) :
    (events.map (Packet.mk target)).filterMap (fun packet =>
      if packet.target = target ∧ issue.owns packet then read packet.event else none) = answer := by
  have all := congrArg (filterMap fun message => message) said
  rw [filterMap_map, filterMap_map] at all
  rw [filterMap_map]
  refine (filterMap_congr fun event member => ?_).trans (all.trans (by simp))
  exact if_pos ⟨rfl, by simp [owns, owned event member]⟩

theorem forReceiver_sends {answer : List (ToReceiver UInt8 Digest)}
    (owned : ∀ event ∈ events, transferId? event = some issue.id)
    (said : events.map toReceiver? = answer.map some) :
    issue.forReceiver (events.map (Packet.mk issue.party.other)) = answer :=
  filterMap_sends _ owned said

theorem forSender_sends {answer : List ToSender}
    (owned : ∀ event ∈ events, transferId? event = some issue.id)
    (said : events.map toSender? = answer.map some) :
    issue.forSender (events.map (Packet.mk issue.party)) = answer :=
  filterMap_sends _ owned said

theorem isSome_of_said {M : Type} {read : ProtoEvent → Option M} {answer : List M}
    (said : events.map read = answer.map some) {event : ProtoEvent} (member : event ∈ events) :
    (read event).isSome = true := by
  have some := mem_map_of_mem member (f := read)
  rw [said] at some
  rcases mem_map.mp some with ⟨_, _, same⟩
  rw [← same]
  rfl

end Issue

/-- What was done to the files of one transfer of a device. -/
def System.filesAt (system : System P) (party : Party) (key : RecordKey) : List FileEvent :=
  (system.files.filter fun entry => entry.1 = party ∧ entry.2.1 = key).map (·.2.2)

namespace Network

variable (network : Network P) (issue : Issue)

def key (party : Party) : RecordKey :=
  (network.fingerprint party.other, issue.id)

def recordAt (system : System P) (party : Party) : Option (Record P) :=
  (system.node party).records.lookup (network.key issue party)

def session (system : System P) : Session UInt8 Digest where
  sender := (network.recordAt issue system issue.party).map Record.asSender
  receiver := (network.recordAt issue system issue.party.other).map Record.asReceiver
  toReceiver := issue.forReceiver system.wire
  toSender := issue.forSender system.wire
  issued := issue ∈ system.issued
  yielded := yields (system.filesAt issue.party (network.key issue issue.party))
  published := publications (system.filesAt issue.party.other (network.key issue issue.party.other))
  sent := chunks (issue.forReceiver system.sent)
  duplicated := (system.duplicated.filter issue.owns).length
  retried := (system.retried.filter issue.owns).length

/-- Both devices are in order, and the records and messages of the transfer are of its two
sides. -/
structure Faithful (system : System P) : Prop where
  book : ∀ party, (system.node party).Bookkeeping
  routed : ∀ party key record, (system.node party).records.lookup key = some record →
    network.owner record.peer = key.1
  sending : ∀ record, network.recordAt issue system issue.party = some record → record.Sending issue
  receiving : ∀ record, network.recordAt issue system issue.party.other = some record →
    record.Receiving issue
  toReceiver : ∀ packet ∈ system.wire, packet.target = issue.party.other →
    issue.owns packet = true →
      (toReceiver? packet.event).isSome = true ∧ issue.Describes packet.event
  toSender : ∀ packet ∈ system.wire, packet.target = issue.party → issue.owns packet = true →
    (toSender? packet.event).isSome = true

theorem Faithful.initial : network.Faithful issue .initial where
  book _ := .new
  routed _ _ _ found := by cases found
  sending _ found := by cases found
  receiving _ found := by cases found
  toReceiver _ member := by cases member
  toSender _ member := by cases member

variable {network issue} {system : System P} {party : Party} {cause : Cause} {output : Output P}

variable {actions : List (ManualAction P)}

theorem mem_packets {packet : Packet} :
    packet ∈ network.packets party actions ↔ packet.target = party.other ∧
      ∃ peer, .send peer packet.event ∈ actions ∧
        network.owner peer = network.fingerprint party.other := by
  unfold packets
  rw [mem_filterMap]
  refine ⟨?_, ?_⟩
  · rintro ⟨action, member, shown⟩
    cases action with
    | send peer =>
      simp only [Network.packet] at shown
      split at shown
      · rename_i routed
        cases shown
        exact ⟨rfl, peer, member, routed⟩
      · cases shown
    | notify => cases shown
  · rintro ⟨target, _, member, routed⟩
    refine ⟨_, member, ?_⟩
    simp only [Network.packet]
    rw [if_pos routed, ← target]

theorem packets_of_routed (routed : ∀ peer event, .send peer event ∈ actions →
      network.owner peer = network.fingerprint party.other) :
    network.packets party actions = (sends actions).map (Packet.mk party.other) := by
  unfold packets sends
  induction actions with
  | nil => rfl
  | cons action _ ih =>
    have rest := ih (fun peer event member => routed peer event (.tail _ member))
    cases action with
    | send peer event =>
      have this := routed peer event (.head _)
      rw [filterMap_cons, filterMap_cons, packet, if_pos this]
      exact congrArg _ rest
    | notify =>
      exact rest

theorem perform_node_same : (network.perform party cause output system).node party = output.state :=
  update_self ..

theorem perform_node_other : (network.perform party.other cause output system).node party =
    system.node party :=
  update_of_ne (other_ne party).symm ..

theorem perform_node_party : (network.perform party cause output system).node party.other =
    system.node party.other :=
  update_of_ne (other_ne party) ..

theorem Faithful.perform (faithful : network.Faithful issue system)
    (book : output.state.Bookkeeping)
    (routed : ∀ key record, output.state.records.lookup key = some record →
      network.owner record.peer = key.1) (sending : party = issue.party → ∀ record,
      output.state.records.lookup (network.key issue party) = some record → record.Sending issue)
    (receiving : party = issue.party.other → ∀ record,
      output.state.records.lookup (network.key issue party) = some record → record.Receiving issue)
    (told : ∀ packet ∈ network.packets party output.actions, issue.owns packet = true →
      (party = issue.party →
        (toReceiver? packet.event).isSome = true ∧ issue.Describes packet.event) ∧
      (party = issue.party.other → (toSender? packet.event).isSome = true)) :
    network.Faithful issue (network.perform party cause output system) := by
  refine ⟨?_, ?_, ?_, ?_, ?_, ?_⟩
  · intro another
    by_cases same : another = party
    · rw [same, perform_node_same]
      exact book
    · rw [show (network.perform party cause output system).node another = system.node another
        from update_of_ne same ..]
      exact faithful.book another
  · intro another
    by_cases same : another = party
    · rw [same, perform_node_same]
      exact routed
    · rw [show (network.perform party cause output system).node another = system.node another
        from update_of_ne same ..]
      exact faithful.routed another
  · intro record found
    rcases eq_or_eq_other issue.party party with rfl | rfl
    · rw [recordAt, perform_node_same] at found
      exact sending rfl record found
    · rw [recordAt, perform_node_other] at found
      exact faithful.sending record found
  · intro record found
    rcases eq_or_eq_other issue.party party with rfl | rfl
    · rw [recordAt, perform_node_party] at found
      exact faithful.receiving record found
    · rw [recordAt, perform_node_same] at found
      exact receiving rfl record found
  · intro packet member target owned
    rcases mem_append.mp member with earlier | new
    · exact faithful.toReceiver packet earlier target owned
    · apply (told packet new owned).1
      have sent := (mem_packets.mp new).1
      rw [target] at sent
      rw [← other_other party, ← sent, other_other]
  · intro packet member target owned
    rcases mem_append.mp member with earlier | new
    · exact faithful.toSender packet earlier target owned
    · apply (told packet new owned).2
      have sent := (mem_packets.mp new).1
      rw [target] at sent
      rw [sent, other_other]

def filesOf (output : Output P) (key : RecordKey) : List FileEvent :=
  (output.files.filter fun entry => entry.1 = key).map (·.2)

theorem filesAt_perform (key : RecordKey) :
    (network.perform party cause output system).filesAt party key =
      system.filesAt party key ++ filesOf output key := by
  unfold System.filesAt filesOf perform
  rw [filter_append, map_append, filter_map, map_map]
  simp [comp_def]

theorem filesAt_perform_other {another : Party} (different : another ≠ party) (key : RecordKey) :
    (network.perform party cause output system).filesAt another key =
      system.filesAt another key := by
  unfold System.filesAt perform
  rw [filter_append, map_append, filter_map]
  simp [comp_def, different.symm]

/-- How many messages of the transfer the timer repeats. -/
def repeated (network : Network P) (issue : Issue) (party : Party) (cause : Cause)
    (output : Output P) : ℕ :=
  if cause = .timer then
    (((network.packets party output.actions).filter (fun packet => !isCancel packet.event)).filter
      issue.owns).length
  else 0

theorem session_perform_sender :
    network.session issue (network.perform issue.party cause output system) =
      { network.session issue system with
        sender := (output.state.records.lookup (network.key issue issue.party)).map Record.asSender
        toReceiver := (network.session issue system).toReceiver +
          Multiset.ofList (issue.forReceiver (network.packets issue.party output.actions))
        issued := issue ∈ (network.perform issue.party cause output system).issued
        yielded := (network.session issue system).yielded ++
          yields (filesOf output (network.key issue issue.party))
        sent := (network.session issue system).sent +
          chunks (issue.forReceiver (network.packets issue.party output.actions))
        retried := (network.session issue system).retried +
          repeated network issue issue.party cause output } := by
  have back : issue.forSender (network.packets issue.party output.actions) = [] := by
    apply forSender_eq_nil
    intro _ member
    exact .inl (mem_packets.mp member).1
  unfold session recordAt
  rw [perform_node_same, perform_node_party, filesAt_perform,
    filesAt_perform_other (other_ne issue.party)]
  congr 1
  · rw [show (network.perform issue.party cause output system).wire =
      system.wire ++ network.packets issue.party output.actions from rfl, forReceiver_append]
    rfl
  · rw [show (network.perform issue.party cause output system).wire =
      system.wire ++ network.packets issue.party output.actions from rfl, forSender_append,
      back, append_nil]
  · exact flatMap_append
  · rw [show (network.perform issue.party cause output system).sent =
      system.sent ++ network.packets issue.party output.actions from rfl, forReceiver_append,
      chunks_append]
  · unfold perform repeated
    rw [filter_append, length_append]
    split
    · rfl
    · rfl

theorem session_perform_receiver :
    network.session issue (network.perform issue.party.other cause output system) =
      { network.session issue system with
        receiver := (output.state.records.lookup (network.key issue issue.party.other)).map
          Record.asReceiver
        toSender := (network.session issue system).toSender +
          Multiset.ofList (issue.forSender (network.packets issue.party.other output.actions))
        issued := issue ∈ (network.perform issue.party.other cause output system).issued
        published := (network.session issue system).published ++
          publications (filesOf output (network.key issue issue.party.other))
        retried := (network.session issue system).retried +
          repeated network issue issue.party.other cause output } := by
  have back : issue.forReceiver (network.packets issue.party.other output.actions) = [] := by
    apply forReceiver_eq_nil
    intro _ member
    exact .inl ((mem_packets.mp member).1.trans (other_other issue.party))
  unfold session recordAt
  rw [perform_node_same, perform_node_other, filesAt_perform,
    filesAt_perform_other (other_ne issue.party).symm]
  congr 1
  · rw [show (network.perform issue.party.other cause output system).wire =
      system.wire ++ network.packets issue.party.other output.actions from rfl,
      forReceiver_append, back, append_nil]
  · rw [show (network.perform issue.party.other cause output system).wire =
      system.wire ++ network.packets issue.party.other output.actions from rfl,
      forSender_append]
    rfl
  · exact filterMap_append
  · rw [show (network.perform issue.party.other cause output system).sent =
      system.sent ++ network.packets issue.party.other output.actions from rfl,
      forReceiver_append, chunks_append, back]
    rfl
  · unfold perform repeated
    rw [filter_append, length_append]
    split
    · rfl
    · rfl

end Network

end Syntra.Manual
