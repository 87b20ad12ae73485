import Syntra.Manual.Session

/-!
# The devices keep to the protocol

Every step of the two devices and the channel is matched by steps of the abstract protocol, for any
transfer whose number is drawn once. What is done to another transfer is invisible, unless it makes
a device forget the record of this one.
-/

namespace Syntra.Manual

open ByteFormat Proto Files PullTransfer ManualTransfers Record List Party Issue

variable {P : Type}

namespace Network

variable (network : Network P) (issue : Issue) (disturbed : Prop)

/-- The transfer moves on in the abstract protocol, and publishes nothing. -/
structure Advances (system later : System P) : Prop where
  faithful : network.Faithful issue later
  unpublished : (network.session issue later).published = (network.session issue system).published
  steps : Relation.ReflTransGen (Step (issue.protocol network.sha256) disturbed)
    (network.session issue system) (network.session issue later)

/-- The transfer moves on in the abstract protocol, and publishes only on completion. -/
structure Proceeds (system later : System P) : Prop where
  faithful : network.Faithful issue later
  published : (network.session issue later).published = (network.session issue system).published ∨
    ∃ receiver, (network.session issue later).receiver = some receiver ∧ receiver.phase = .completed
  steps : Relation.ReflTransGen (Step (issue.protocol network.sha256) disturbed)
    (network.session issue system) (network.session issue later)

/-- What a handler does to a record as far as the channel is concerned. -/
structure Conducts (record : Record P) (reply : Reply P) : Prop where
  evolves : record.Evolves reply.record
  labelled : reply.record.Labelled
  routed : network.owner reply.record.peer = record.fingerprint
  addressed : ∀ peer event, .send peer event ∈ reply.actions →
    network.owner peer = record.fingerprint ∧ transferId? event = some record.id

variable {network issue disturbed} {system : System P} {party : Party} {cause : Cause}
  {record : Record P}

theorem Advances.trans {middle later : System P}
    (first : network.Advances issue disturbed system middle)
    (second : network.Advances issue disturbed middle later) :
    network.Advances issue disturbed system later :=
  ⟨second.faithful, second.unpublished.trans first.unpublished, first.steps.trans second.steps⟩

theorem Advances.single {later : System P} {next : Session UInt8 Digest}
    (faithful : network.Faithful issue later) (view : network.session issue later = next)
    (unpublished : next.published = (network.session issue system).published)
    (step : Step (issue.protocol network.sha256) disturbed (network.session issue system) next) :
    network.Advances issue disturbed system later := by
  subst view
  exact ⟨faithful, unpublished, .single step⟩

theorem Proceeds.single {later : System P} {next : Session UInt8 Digest}
    (faithful : network.Faithful issue later) (view : network.session issue later = next)
    (published : next.published = (network.session issue system).published ∨
      ∃ receiver, next.receiver = some receiver ∧ receiver.phase = .completed)
    (step : Step (issue.protocol network.sha256) disturbed (network.session issue system) next) :
    network.Proceeds issue disturbed system later := by
  subst view
  exact ⟨faithful, published, .single step⟩

theorem Advances.proceeds {later : System P}
    (advances : network.Advances issue disturbed system later) :
    network.Proceeds issue disturbed system later :=
  ⟨advances.faithful, .inl advances.unpublished, advances.steps⟩

theorem Conducts.of_proper {reply : Reply P} {peer : P}
    (routed : network.owner peer = record.fingerprint)
    (proper : (record.reroute peer).Proper now reply) : network.Conducts record reply := by
  refine ⟨proper.evolves.of_reroute, proper.labelled, ?_, ?_⟩
  · rw [proper.peer]
    exact routed
  · intro _ _ member
    rcases proper.addressed _ member with ⟨same, about⟩
    rw [same]
    exact ⟨routed, about⟩

section Foreign

variable {output : Output P}

/-- Nothing about the transfer is said, read or offered. -/
structure Silent (network : Network P) (issue : Issue) (party : Party) (cause : Cause)
    (output : Output P) : Prop where
  messages : ∀ packet ∈ network.packets party output.actions, issue.owns packet = false
  files : filesOf output (network.key issue party) = []
  offers : cause = .offer → ∀ action ∈ output.actions, network.issue party action ≠ some issue

theorem Silent.repeated (silent : network.Silent issue party cause output) :
    repeated network issue party cause output = 0 := by
  unfold Network.repeated
  split
  · apply length_eq_zero_iff.mpr
    apply filter_eq_nil_iff.mpr
    intro packet member
    rw [silent.messages packet (mem_of_mem_filter member)]
    simp
  · rfl

theorem Silent.issued (silent : network.Silent issue party cause output) :
    (issue ∈ (network.perform party cause output system).issued) = (issue ∈ system.issued) := by
  apply propext
  unfold Network.perform
  rw [mem_append]
  refine ⟨?_, .inl⟩
  rintro (earlier | new)
  · exact earlier
  · split at new
    · rename_i offers
      rcases mem_filterMap.mp new with ⟨action, member, same⟩
      exact absurd same (silent.offers offers action member)
    · cases new

theorem Silent.session_sender (silent : network.Silent issue issue.party cause output) :
    network.session issue (network.perform issue.party cause output system) =
      { network.session issue system with
        sender := (output.state.records.lookup (network.key issue issue.party)).map asSender } := by
  have quiet : issue.forReceiver (network.packets issue.party output.actions) = [] := by
    apply forReceiver_eq_nil
    intro packet member
    exact .inr (silent.messages packet member)
  rw [session_perform_sender, silent.repeated, quiet, silent.files]
  simp only [silent.issued]
  simp [PullTransfer.chunks, yields, session]

theorem Silent.session_receiver (silent : network.Silent issue issue.party.other cause output) :
    network.session issue (network.perform issue.party.other cause output system) =
      { network.session issue system with
        receiver := (output.state.records.lookup (network.key issue issue.party.other)).map
          asReceiver } := by
  have quiet : issue.forSender (network.packets issue.party.other output.actions) = [] := by
    apply forSender_eq_nil
    intro packet member
    exact .inr (silent.messages packet member)
  rw [session_perform_receiver, silent.repeated, quiet, silent.files]
  simp only [silent.issued]
  simp [publications, session]

theorem Faithful.foreign (faithful : network.Faithful issue system)
    (book : output.state.Bookkeeping)
    (routed : ∀ key record, output.state.records.lookup key = some record →
      network.owner record.peer = key.1) (silent : network.Silent issue party cause output)
    (own : output.state.records.lookup (network.key issue party) =
        network.recordAt issue system party ∨
      output.state.records.lookup (network.key issue party) = none ∧ disturbed ∧
        ∃ record, network.recordAt issue system party = some record ∧
          isTerminal record.state = true) :
    network.Advances issue disturbed system (network.perform party cause output system) := by
  have told : ∀ packet ∈ network.packets party output.actions, issue.owns packet = true →
      (party = issue.party →
        (toReceiver? packet.event).isSome = true ∧ issue.Describes packet.event) ∧
      (party = issue.party.other → (toSender? packet.event).isSome = true) := by
    intro packet member owned
    rw [silent.messages packet member] at owned
    cases owned
  have kept : ∀ record, output.state.records.lookup (network.key issue party) = some record →
      network.recordAt issue system party = some record := by
    intro record found
    rcases own with same | ⟨gone, _⟩
    · exact same.symm.trans found
    · rw [gone] at found
      cases found
  refine ⟨faithful.perform book routed ?_ ?_ told, ?_, ?_⟩
  · rintro rfl record found
    exact faithful.sending record (kept record found)
  · rintro rfl record found
    exact faithful.receiving record (kept record found)
  · rcases eq_or_eq_other issue.party party with rfl | rfl
    · rw [silent.session_sender]
    · rw [silent.session_receiver]
  · rcases eq_or_eq_other issue.party party with rfl | rfl
    · rw [silent.session_sender]
      rcases own with same | ⟨gone, allowed, record, found, ended⟩
      · rw [same]
        exact .refl
      · rw [gone]
        apply Relation.ReflTransGen.single
        have isOver : ¬record.asSender.phase.Active := by
          intro active
          rw [phase_active.mp active] at ended
          cases ended
        have step :
            Step (issue.protocol network.sha256) disturbed (network.session issue system) _ :=
          .senderActs (congrArg (Option.map asSender) found) (.forget allowed isOver)
        simpa [PullTransfer.chunks] using step
    · rw [silent.session_receiver]
      rcases own with same | ⟨gone, allowed, record, found, ended⟩
      · rw [same]
        exact .refl
      · rw [gone]
        apply Relation.ReflTransGen.single
        have isOver : ¬record.asReceiver.phase.Active := by
          intro active
          rw [asReceiver_phase] at active
          rw [phase_active.mp active] at ended
          cases ended
        have step :
            Step (issue.protocol network.sha256) disturbed (network.session issue system) _ :=
          .receiverActs (congrArg (Option.map asReceiver) found) (.forget allowed isOver)
        simpa using step

end Foreign

/-- What taking out, handling and storing a record leaves in the table. -/
structure Stores (network : Network P) (transfers : ManualTransfers P) (key : RecordKey)
    (reply : Reply P) (output : Output P) : Prop where
  book : output.state.Bookkeeping
  routed : ∀ key record, output.state.records.lookup key = some record →
    network.owner record.peer = key.1
  stored : output.state.records.lookup key = some reply.record
  others : ∀ other, other ≠ key →
    output.state.records.lookup other = transfers.records.lookup other ∨
      output.state.records.lookup other = none ∧
        ∃ record, transfers.records.lookup other = some record ∧ isTerminal record.state = true
  actions : output.actions = reply.actions
  files : output.files = reply.files.map (key, ·)

variable {transfers : ManualTransfers P} {key : RecordKey}

theorem Stores.of_store {reply : Reply P} {output : Output P} (book : output.state.Bookkeeping)
    (earlier : ∀ key record, transfers.records.lookup key = some record →
      network.owner record.peer = key.1) (routed : network.owner reply.record.peer = key.1)
    (stored : output.state.records.lookup key = some reply.record)
    (others : ∀ other, other ≠ key →
      output.state.records.lookup other = transfers.records.lookup other ∨
        output.state.records.lookup other = none ∧
          ∃ record, transfers.records.lookup other = some record ∧ isTerminal record.state = true)
    (actions : output.actions = reply.actions) (files : output.files = reply.files.map (key, ·)) :
    network.Stores transfers key reply output := by
  refine ⟨book, ?_, stored, others, actions, files⟩
  intro other record found
  by_cases same : other = key
  · rw [same, stored] at found
    cases found
    rw [same]
    exact routed
  · rcases others other same with kept | ⟨gone, _⟩
    · exact earlier other record (kept ▸ found)
    · rw [gone] at found
      cases found

theorem Stores.update {handle : Record P → Reply P} {missing : List (ManualAction P)}
    (book : transfers.Bookkeeping)
    (earlier : ∀ key record, transfers.records.lookup key = some record →
      network.owner record.peer = key.1) (found : transfers.records.lookup key = some record)
    (conducts : network.Conducts record (handle record)) :
    network.Stores transfers key (handle record) (transfers.update key handle missing) := by
  have identity := book.keyed key record found
  have same := book.key_of_evolves found conducts.evolves
  have updated : transfers.update key handle missing =
      { state := { transfers with records := transfers.records.erase key }.store
          (handle record).record
        actions := (handle record).actions
        files := (handle record).files.map (key, ·) } := by
    unfold ManualTransfers.update
    rw [found]
  rw [updated]
  apply Stores.of_store
  · exact (book.replace found conducts.evolves conducts.labelled).1
  · exact earlier
  · rw [conducts.routed, ← identity]
    rfl
  · rw [← same]
    apply store_lookup
    exact book.bounded
  · intro other different
    have apart : other ≠ (handle record).record.key := fun equal => different (equal.trans same)
    rcases store_lookup_ne
      { transfers with records := transfers.records.erase key } (handle record).record apart with
      kept | ⟨queued, gone⟩
    · left
      rw [kept, AList.lookup_erase_ne different]
    · exact .inr ⟨gone, (book.queued other).mp queued⟩
  · rfl
  · rfl

section Own

variable {reply : Reply P} {output : Output P}

variable {files : List FileEvent} {transfers : ManualTransfers P}

theorem filesOf_own (own : output.files = files.map (key, ·)) : filesOf output key = files := by
  unfold filesOf
  rw [own, List.filter_map, List.map_map]
  simp [Function.comp_def]

theorem filesOf_other {other : RecordKey} (different : other ≠ key)
    (own : output.files = files.map (other, ·)) : filesOf output key = [] := by
  unfold filesOf
  rw [own, List.filter_map]
  simp [Function.comp_def, different]

theorem sends_of_mem {actions : List (ManualAction P)} {event : ProtoEvent} :
    event ∈ sends actions ↔ ∃ peer, .send peer event ∈ actions := by
  unfold sends
  rw [mem_filterMap]
  refine ⟨?_, ?_⟩
  · rintro ⟨action, member, shown⟩
    cases action with
    | send peer =>
      cases shown
      exact ⟨peer, member⟩
    | notify => cases shown
  · rintro ⟨_, member⟩
    exact ⟨_, member, rfl⟩

theorem packets_own (key : record.key = network.key issue party)
    (addressed : ∀ peer event, .send peer event ∈ reply.actions →
      network.owner peer = record.fingerprint ∧ transferId? event = some record.id) :
    network.packets party reply.actions = (sends reply.actions).map (Packet.mk party.other) ∧
      ∀ event ∈ sends reply.actions, transferId? event = some issue.id := by
  refine ⟨?_, ?_⟩
  · apply packets_of_routed
    intro peer event member
    rw [(addressed peer event member).1]
    exact congrArg Prod.fst key
  · intro event member
    rcases sends_of_mem.mp member with ⟨peer, there⟩
    rw [(addressed peer event there).2]
    exact congrArg some (congrArg Prod.snd key)

theorem repeated_own (key : record.key = network.key issue party)
    (addressed : ∀ peer event, .send peer event ∈ reply.actions →
      network.owner peer = record.fingerprint ∧ transferId? event = some record.id)
    (same : output.actions = reply.actions) :
    repeated network issue party cause output =
      if cause = .timer then
        ((sends reply.actions).filter (fun event => !isCancel event)).length else 0 := by
  rcases packets_own key addressed with ⟨packets, owned⟩
  unfold repeated
  rw [same, packets, List.filter_map, List.filter_map, List.length_map]
  split
  · congr 1
    apply List.filter_eq_self.mpr
    intro event member
    simp only [Issue.owns, Function.comp_apply, decide_eq_true_eq]
    exact owned event (List.mem_of_mem_filter member)
  · rfl

theorem issued_of_not_offer (other : cause ≠ .offer) :
    (network.perform party cause output system).issued = system.issued := by
  unfold Network.perform
  rw [if_neg other, append_nil]

theorem Faithful.ownSender {answer : List (ToReceiver UInt8 Digest)} {data : Bytes}
    (faithful : network.Faithful issue system) (cause : Cause)
    (stores : network.Stores transfers (network.key issue issue.party) reply output)
    (key : record.key = network.key issue issue.party)
    (addressed : ∀ peer event, .send peer event ∈ reply.actions →
      network.owner peer = record.fingerprint ∧ transferId? event = some record.id)
    (shown : SenderReply issue reply answer data) (other : cause ≠ .offer) :
    network.Faithful issue (network.perform issue.party cause output system) ∧
    network.session issue (network.perform issue.party cause output system) =
      { network.session issue system with
        sender := some reply.record.asSender
        toReceiver := (network.session issue system).toReceiver + Multiset.ofList answer
        yielded := (network.session issue system).yielded ++ data
        sent := (network.session issue system).sent + chunks answer
        retried := (network.session issue system).retried + if cause = .timer then
          ((sends reply.actions).filter (fun event => !isCancel event)).length else 0 } := by
  rcases packets_own key addressed with ⟨packets, owned⟩
  have view : issue.forReceiver (network.packets issue.party output.actions) = answer := by
    rw [stores.actions, packets]
    exact forReceiver_sends owned shown.said
  refine ⟨?_, ?_⟩
  · apply faithful.perform stores.book stores.routed
    · intro _ _ there
      rw [stores.stored] at there
      cases there
      exact shown.sending
    · intro impossible
      exact absurd impossible.symm (other_ne issue.party)
    · intro _ member _
      rw [stores.actions, packets] at member
      rcases mem_map.mp member with ⟨event, there, rfl⟩
      exact ⟨fun _ => ⟨isSome_of_said shown.said there, shown.described event there⟩,
        fun impossible => absurd impossible.symm (other_ne issue.party)⟩
  · rw [session_perform_sender, view, stores.stored, filesOf_own stores.files,
      repeated_own key addressed stores.actions, shown.yielded, issued_of_not_offer other]
    rfl

theorem Faithful.ownReceiver {answer : List ToSender} {files : List Bytes}
    (faithful : network.Faithful issue system) (cause : Cause)
    (stores : network.Stores transfers (network.key issue issue.party.other) reply output)
    (key : record.key = network.key issue issue.party.other)
    (addressed : ∀ peer event, .send peer event ∈ reply.actions →
      network.owner peer = record.fingerprint ∧ transferId? event = some record.id)
    (shown : ReceiverReply issue reply answer files) (other : cause ≠ .offer) :
    network.Faithful issue (network.perform issue.party.other cause output system) ∧
    network.session issue (network.perform issue.party.other cause output system) =
      { network.session issue system with
        receiver := some reply.record.asReceiver
        toSender := (network.session issue system).toSender + Multiset.ofList answer
        published := (network.session issue system).published ++ files
        retried := (network.session issue system).retried + if cause = .timer then
          ((sends reply.actions).filter (fun event => !isCancel event)).length else 0 } := by
  rcases packets_own key addressed with ⟨packets, owned⟩
  rw [other_other] at packets
  have view : issue.forSender (network.packets issue.party.other output.actions) = answer := by
    rw [stores.actions, packets]
    exact forSender_sends owned shown.said
  refine ⟨?_, ?_⟩
  · apply faithful.perform stores.book stores.routed
    · intro impossible
      exact absurd impossible (other_ne issue.party)
    · intro _ _ there
      rw [stores.stored] at there
      cases there
      exact shown.receiving
    · intro _ member _
      rw [stores.actions, packets] at member
      rcases mem_map.mp member with ⟨_, there, rfl⟩
      exact ⟨fun impossible => absurd impossible (other_ne issue.party),
        fun _ => isSome_of_said shown.said there⟩
  · rw [session_perform_receiver, view, stores.stored, filesOf_own stores.files,
      repeated_own key addressed stores.actions, shown.published, issued_of_not_offer other]
    rfl

end Own

/-- What a device does to the record of the transfer is a move of its side. -/
def Moves (issue : Issue) (disturbed : Prop) (party : Party) (cause : Cause) (record : Record P)
    (reply : Reply P) : Prop :=
  (party = issue.party → Record.SenderMove issue disturbed cause record reply) ∧
    (party = issue.party.other → Record.ReceiverMove issue disturbed cause record reply)

section Moves

variable {reply : Reply P} {output : Output P}

theorem packets_foreign (different : record.key ≠ network.key issue party)
    (addressed : ∀ peer event, .send peer event ∈ reply.actions →
      network.owner peer = record.fingerprint ∧ transferId? event = some record.id) :
    ∀ packet ∈ network.packets party reply.actions, issue.owns packet = false := by
  intro packet member
  rcases mem_packets.mp member with ⟨_, peer, sent, routed⟩
  rcases addressed peer packet.event sent with ⟨owner, about⟩
  apply decide_eq_false
  intro same
  apply different
  rw [about] at same
  exact Prod.ext (owner.symm.trans routed) (Option.some.inj same)

variable (faithful : network.Faithful issue system)
include faithful

theorem Faithful.senderMoves (found : network.recordAt issue system issue.party = some record)
    (stores : network.Stores (system.node issue.party) (network.key issue issue.party) reply output)
    (conducts : network.Conducts record reply)
    (move : SenderMove issue disturbed cause record reply) (other : cause ≠ .offer) :
    network.Advances issue disturbed system (network.perform issue.party cause output system) := by
  have key := (faithful.book issue.party).keyed _ record found
  have present : (network.session issue system).sender = some record.asSender :=
    congrArg (Option.map asSender) found
  rcases move with ⟨same, shown⟩ | ⟨said, _, acts, shown, counted⟩
  · rcases faithful.ownSender _ stores key conducts.addressed shown other with ⟨kept, view⟩
    refine ⟨kept, by rw [view], ?_⟩
    have quiet : sends reply.actions = [] := List.map_eq_nil_iff.mp shown.said
    rw [view, same, ← present, quiet]
    simp only [List.filter_nil, List.length_nil, ite_self, PullTransfer.chunks, List.append_nil,
      Multiset.coe_nil, Multiset.add_zero]
    exact .refl
  · rcases faithful.ownSender _ stores key conducts.addressed shown other with ⟨kept, view⟩
    rw [← counted, List.append_nil] at view
    exact .single kept view rfl (.senderActs present acts)

theorem Faithful.receiverMoves
    (found : network.recordAt issue system issue.party.other = some record)
    (stores : network.Stores (system.node issue.party.other)
      (network.key issue issue.party.other) reply output) (conducts : network.Conducts record reply)
    (move : ReceiverMove issue disturbed cause record reply) (other : cause ≠ .offer) :
    network.Advances issue disturbed system
      (network.perform issue.party.other cause output system) := by
  have key := (faithful.book issue.party.other).keyed _ record found
  have present : (network.session issue system).receiver = some record.asReceiver :=
    congrArg (Option.map asReceiver) found
  rcases move with ⟨same, shown⟩ | ⟨said, _, acts, shown, counted⟩
  · rcases faithful.ownReceiver _ stores key conducts.addressed shown other with ⟨kept, view⟩
    refine ⟨kept, by rw [view, List.append_nil], ?_⟩
    have quiet : sends reply.actions = [] := List.map_eq_nil_iff.mp shown.said
    rw [view, same, ← present, quiet]
    simp only [List.filter_nil, List.length_nil, ite_self, List.append_nil,
      Multiset.coe_nil, Multiset.add_zero]
    exact .refl
  · rcases faithful.ownReceiver _ stores key conducts.addressed shown other with ⟨kept, view⟩
    rw [← counted, List.append_nil] at view
    exact .single kept view rfl (.receiverActs present acts)

variable {key : RecordKey} {handle : Record P → Reply P}

theorem Faithful.storesOther (stores : network.Stores (system.node party) key reply output)
    (different : key ≠ network.key issue party)
    (messages : ∀ packet ∈ network.packets party reply.actions, issue.owns packet = false)
    (gone : network.recordAt issue system party ≠ none →
      output.state.records.lookup (network.key issue party) = none → disturbed)
    (other : cause ≠ .offer) :
    network.Advances issue disturbed system (network.perform party cause output system) := by
  apply faithful.foreign stores.book stores.routed
  · refine ⟨?_, filesOf_other different stores.files, fun offers => absurd offers other⟩
    rw [stores.actions]
    exact messages
  · rcases stores.others _ different.symm with kept | ⟨absent, record, found, ended⟩
    · exact .inl kept
    · refine .inr ⟨absent, gone ?_ absent, record, found, ended⟩
      rw [show network.recordAt issue system party = some record from found]
      simp

theorem Faithful.unchanged (other : cause ≠ .offer) {actions : List (ManualAction P)}
    (messages : ∀ packet ∈ network.packets party actions, issue.owns packet = false) :
    network.Advances issue disturbed system
      (network.perform party cause ⟨system.node party, actions, []⟩ system) := by
  apply faithful.foreign (faithful.book party) (faithful.routed party)
  · exact ⟨messages, rfl, fun offers => absurd offers other⟩
  · exact .inl rfl

theorem Faithful.update (conducts : ∀ record, (system.node party).records.lookup key = some record →
      network.Conducts record (handle record)) (moves : key = network.key issue party → ∀ record,
      network.recordAt issue system party = some record →
        Moves issue disturbed party cause record (handle record))
    (gone : network.recordAt issue system party ≠ none →
      ((system.node party).update key handle []).state.records.lookup (network.key issue party) =
        none → disturbed) (other : cause ≠ .offer) :
    network.Advances issue disturbed system
      (network.perform party cause ((system.node party).update key handle []) system) := by
  cases found : (system.node party).records.lookup key with
  | none =>
    rw [update_absent found]
    exact faithful.unchanged other (forall_mem_nil _)
  | some record =>
    have stores : network.Stores (system.node party) key (handle record)
        ((system.node party).update key handle []) :=
      .update (faithful.book party) (faithful.routed party) found (conducts record found)
    by_cases own : key = network.key issue party
    · subst own
      rcases eq_or_eq_other issue.party party with rfl | rfl
      · exact faithful.senderMoves found stores (conducts record found)
          ((moves rfl record found).1 rfl) other
      · exact faithful.receiverMoves found stores (conducts record found)
          ((moves rfl record found).2 rfl) other
    · apply faithful.storesOther stores own _ gone other
      apply @packets_foreign _ _ _ _ record
      · rw [(faithful.book party).keyed key record found]
        exact own
      · exact (conducts record found).addressed

omit faithful in
theorem perform_append (first second : Output P) :
    network.perform party cause
        ⟨second.state, first.actions ++ second.actions, first.files ++ second.files⟩ system =
      network.perform party cause second (network.perform party cause first system) := by
  unfold Network.perform packets
  split <;> split <;> simp

theorem Faithful.fingerprint (found : (system.node party).records.lookup key = some record) :
    network.owner record.peer = record.fingerprint := by
  rw [faithful.routed party key record found, ← (faithful.book party).keyed key record found]
  rfl

omit faithful

theorem Faithful.sweep (evolves : ∀ record, record.Labelled →
      record.Evolves (handle record).record ∧ (handle record).record.Labelled)
    (conducts : ∀ record, record.Labelled → network.owner record.peer = record.fingerprint →
      network.Conducts record (handle record)) (other : cause ≠ .offer) (keys : List RecordKey)
    (nodup : keys.Nodup) (faithful : network.Faithful issue system)
    (moves : network.key issue party ∈ keys → ∀ record,
      network.recordAt issue system party = some record →
        Moves issue disturbed party cause record (handle record))
    (gone : network.recordAt issue system party ≠ none →
      ((system.node party).sweep handle keys).state.records.lookup (network.key issue party) =
        none → disturbed) :
    network.Advances issue disturbed system
      (network.perform party cause ((system.node party).sweep handle keys) system) := by
  induction keys generalizing system with
  | nil =>
    exact faithful.unchanged other (forall_mem_nil _)
  | cons first keys ih =>
    have book := faithful.book party
    have proper : ∀ record, (system.node party).records.lookup first = some record →
        network.Conducts record (handle record) := fun record found =>
      conducts record (book.labelled first record found) (faithful.fingerprint found)
    have onto : ∀ record, (system.node party).records.lookup first = some record →
        record.Evolves (handle record).record ∧ (handle record).record.Labelled :=
      fun record found => ⟨(proper record found).evolves, (proper record found).labelled⟩
    have updated : ((system.node party).update first handle []).state.Bookkeeping :=
      (book.update onto).1
    have once : network.Advances issue disturbed system
        (network.perform party cause ((system.node party).update first handle []) system) := by
      apply faithful.update proper
      · intro own
        exact moves (own ▸ (.head _))
      · intro there absent
        apply gone there
        exact sweep_lookup_none evolves keys updated absent
      · exact other
    have reached : (network.perform party cause ((system.node party).update first handle [])
        system).node party = ((system.node party).update first handle []).state :=
      perform_node_same
    have rest := ih (nodup_cons.mp nodup).2 once.faithful
    rw [reached] at rest
    unfold ManualTransfers.sweep
    rw [perform_append]
    apply once.trans
    apply rest
    · intro later record found
      have different : network.key issue party ≠ first := by
        intro same
        exact (nodup_cons.mp nodup).1 (same ▸ later)
      apply moves (mem_cons_of_mem first later)
      rw [recordAt, reached] at found
      cases there : (system.node party).records.lookup first with
      | none =>
        rwa [update_absent there] at found
      | some held =>
        have stores : network.Stores (system.node party) first (handle held)
            ((system.node party).update first handle []) :=
          .update book (faithful.routed party) there (proper held there)
        rcases stores.others _ different with kept | ⟨absent, _⟩
        · exact kept.symm.trans found
        · rw [absent] at found
          cases found
    · intro there absent
      apply gone _ absent
      intro missing
      apply there
      rw [recordAt, reached]
      exact update_lookup_none book (fun record found => (onto record found).1) missing

end Moves

end Network

end Syntra.Manual
