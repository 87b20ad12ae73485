import Syntra.Manual.Simulation

/-!
# Messages keep to the protocol

What the channel does to a message, and what a device does when it gets one, as steps of the
abstract protocol. A message about another transfer, or from another device, is not seen.
-/

namespace Syntra.Manual

open ByteFormat Proto Files PullTransfer Multiset Issue ManualTransfers Record
open List OfferedFile Party

variable {P : Type}

theorem OfferedFile.reply_speaks (io : Io) (offer : OfferedFile P) (settings : FileReceiveSettings)
    (now : ℕ) : (offer.reply io settings now).actions.isEmpty = false := by
  unfold reply
  split
  · unfold prepareReceiver
    rw [if_neg (by simp [record]), if_neg (by simp [record, approvalTimeout])]
    split
    · rfl
    · dsimp only
      split
      · rfl
      · rfl
  · rfl

namespace Network

variable {network : Network P} {issue : Issue} {disturbed : Prop} {system : System P}
  {party : Party} {cause : Cause}

theorem Conducts.of_routed {record : Record P} {reply : Reply P}
    (routed : network.owner record.peer = record.fingerprint) (proper : record.Proper now reply) :
    network.Conducts record reply :=
  .of_proper routed proper

/-- What `receive_offer` does: it refuses, answers again, or opens a record. -/
inductive OfferOutcome (network : Network P) (io : Io) (transfers : ManualTransfers P)
    (offer : OfferedFile P) (settings : FileReceiveSettings) (now : ℕ) : Output P → Prop
  | refuses (message : String)
      (reason : offer.id = 0 ∨ validateManualFileName offer.name ≠ .ok () ∨
        (∃ record, transfers.records.lookup (offer.fingerprint, offer.id) = some record ∧
          (record.direction ≠ .receiving ∨ record.name ≠ offer.name ∨ record.size ≠ offer.size)) ∨
        transfers.records.lookup (offer.fingerprint, offer.id) = none ∧
          maxRecords ≤ transfers.activeCount) :
      OfferOutcome network io transfers offer settings now
        ⟨transfers, [peerFailure offer.peer offer.id message], []⟩
  | answers {output : Output P} {record : Record P}
      (found : transfers.records.lookup (offer.fingerprint, offer.id) = some record)
      (stores : network.Stores transfers (offer.fingerprint, offer.id)
        ⟨record.reroute offer.peer, [.send offer.peer record.offerResponse], []⟩ output) :
      OfferOutcome network io transfers offer settings now output
  | opens {output : Output P}
      (absent : transfers.records.lookup (offer.fingerprint, offer.id) = none)
      (valid : validateManualFileName offer.name = .ok ())
      (stores : network.Stores transfers (offer.fingerprint, offer.id)
        (offer.reply io settings now) output) :
      OfferOutcome network io transfers offer settings now output

theorem receiveOffer_outcome {transfers : ManualTransfers P} (book : transfers.Bookkeeping)
    (earlier : ∀ key record, transfers.records.lookup key = some record →
      network.owner record.peer = key.1)
    (io : Io) (offer : OfferedFile P) (routed : network.owner offer.peer = offer.fingerprint)
    (settings : FileReceiveSettings) (now : ℕ) :
    network.OfferOutcome io transfers offer settings now
      (transfers.receiveOffer io offer settings now) := by
  unfold receiveOffer
  dsimp only
  split
  · rename_i invalid
    refine .refuses _ ?_
    rcases invalid with zero | invalid
    · exact .inl zero
    · exact .inr (.inl invalid)
  · rename_i wellFormed
    simp only [not_or, not_not] at wellFormed
    split
    · rename_i record found
      split
      · rename_i conflict
        exact .refuses _ (.inr (.inr (.inl ⟨record, found, conflict⟩)))
      · have evolves := Evolves.reroute record offer.peer
        have same := book.key_of_evolves found evolves
        have replaced := book.replace found evolves
          ((book.labelled _ record found).reroute offer.peer)
        rw [book.store_eq_insert found same rfl] at replaced
        refine .answers found (.of_store replaced.1 earlier routed ?_ ?_ rfl rfl)
        · exact AList.lookup_insert _
        · intro other different
          exact .inl (AList.lookup_insert_ne different)
    · rename_i absent
      split
      · rename_i full
        exact .refuses _ (.inr (.inr (.inr ⟨absent, full⟩)))
      · rename_i room
        have proper := offer.reply_proper io settings now
        have key : (offer.reply io settings now).record.key = (offer.fingerprint, offer.id) := by
          rw [Record.key, proper.evolves.fingerprint, proper.evolves.id]
          rfl
        have added := book.add (key ▸ absent) (Nat.lt_of_not_le room) proper.labelled
          (proper.evolves.released rfl)
        refine .opens absent wellFormed.2 (.of_store added.1 earlier ?_ ?_ ?_ ?_ rfl)
        · rw [proper.peer]
          exact routed
        · rw [← key]
          exact store_lookup book.bounded
        · intro other different
          rcases transfers.store_lookup_ne (offer.reply io settings now).record
            (key ▸ different) with kept | ⟨queued, gone⟩
          · exact .inl kept
          · exact .inr ⟨gone, (book.queued other).mp queued⟩
        · change (if (offer.reply io settings now).actions.isEmpty = true then _ else _) = _
          rw [if_neg (by simp [offer.reply_speaks io settings now])]
          rfl

section Foreign

variable {io : Io} {peer : P} {fingerprint : String} {settings : FileReceiveSettings} {now : ℕ}

variable {id : UInt64} {sha256 : Bytes → Digest} {transfers : ManualTransfers P}
  {event : ProtoEvent}

theorem packets_other {actions : List (ManualAction P)} (routed : network.owner peer = fingerprint)
    (different : (fingerprint, id) ≠ network.key issue party)
    (addressed : ∀ action ∈ actions, action.Addressed peer id) :
    ∀ packet ∈ network.packets party actions, issue.owns packet = false := by
  intro _ member
  rcases mem_packets.mp member with ⟨_, _, sent, owner⟩
  rcases addressed _ sent with ⟨same, about⟩
  apply decide_eq_false
  intro this
  apply different
  rw [about] at this
  rw [← routed, ← same, owner]
  exact Prod.ext rfl (Option.some.inj this)

theorem unknownTransfer_addressed (event : ProtoEvent) :
    ∀ action ∈ unknownTransfer peer id event, action.Addressed peer id := by
  intro _ member
  unfold unknownTransfer at member
  split at member
  · rw [List.mem_singleton.mp member]
    exact ⟨rfl, rfl⟩
  · rw [List.mem_singleton.mp member]
    exact ⟨rfl, rfl⟩
  · rw [List.mem_singleton.mp member]
    exact ⟨rfl, rfl⟩
  · rw [List.mem_singleton.mp member]
    exact ⟨rfl, rfl⟩
  · cases member

theorem Faithful.receiveOtherOffer {offer : OfferedFile P}
    (faithful : network.Faithful issue system)
    (routed : network.owner offer.peer = offer.fingerprint)
    (different : (offer.fingerprint, offer.id) ≠ network.key issue party)
    (gone : network.recordAt issue system party ≠ none →
      ((system.node party).receiveOffer io offer settings now).state.records.lookup
        (network.key issue party) = none → disturbed) :
    network.Advances issue disturbed system
      (network.perform party .other ((system.node party).receiveOffer io offer settings now)
        system) := by
  have outcome := receiveOffer_outcome (faithful.book party) (faithful.routed party) io offer routed
    settings now
  generalize received : (system.node party).receiveOffer io offer settings now = output
    at outcome gone
  cases outcome with
  | refuses =>
    apply faithful.unchanged (by simp)
    exact packets_other routed different (forall_mem_singleton.mpr ⟨rfl, rfl⟩)
  | @answers _ record found stores =>
    apply faithful.storesOther stores different _ gone (by simp)
    apply packets_other routed different
    intro _ member
    rw [List.mem_singleton.mp member]
    have key := (faithful.book party).keyed _ record found
    refine ⟨rfl, ?_⟩
    rw [transferId?_offerResponse]
    exact congrArg some (congrArg Prod.snd key)
  | opens _ _ stores =>
    apply faithful.storesOther stores different _ gone (by simp)
    exact packets_other routed different (offer.reply_proper io settings now).addressed

def isOffer : ProtoEvent → Bool
  | .manualFileOffer _ _ _ => true
  | _ => false

theorem handleProtocol_of_about (about : transferId? event = some id)
    (other : isOffer event = false) :
    transfers.handleProtocol sha256 io peer fingerprint event settings now =
      transfers.update (fingerprint, id)
        (fun record => (record.reroute peer).handle sha256 io event now)
        (unknownTransfer peer id event) := by
  unfold handleProtocol
  split
  · cases other
  · rw [about]

theorem handleProtocol_of_none (about : transferId? event = none) :
    transfers.handleProtocol sha256 io peer fingerprint event settings now =
      ⟨transfers, [], []⟩ := by
  unfold handleProtocol
  split
  · cases about
  · rw [about]

theorem Faithful.handles {record : Record P} {key : RecordKey}
    (faithful : network.Faithful issue system)
      (found : (system.node party).records.lookup key = some record)
    (routed : network.owner peer = key.1) :
    network.Conducts record ((record.reroute peer).handle network.sha256 io event now) := by
  have labelled := ((faithful.book party).labelled _ record found).reroute peer
  have proper : (record.reroute peer).Proper now
      ((record.reroute peer).handle network.sha256 io event now) := .handle labelled event
  apply Conducts.of_proper _ proper
  rw [routed, ← (faithful.book party).keyed _ record found]
  rfl

theorem Faithful.handleOther (faithful : network.Faithful issue system)
    (routed : network.owner peer = fingerprint)
    (different : ∀ id, transferId? event = some id → (fingerprint, id) ≠ network.key issue party)
    (gone : network.recordAt issue system party ≠ none →
      ((system.node party).handleProtocol network.sha256 io peer fingerprint event settings
        now).state.records.lookup (network.key issue party) = none → disturbed) :
    network.Advances issue disturbed system
      (network.perform party .other ((system.node party).handleProtocol network.sha256 io peer
        fingerprint event settings now) system) := by
  cases about : transferId? event with
  | none =>
    rw [handleProtocol_of_none about]
    exact faithful.unchanged (by simp) (forall_mem_nil _)
  | some id =>
    cases offered : isOffer event with
    | true =>
      cases event with
      | manualFileOffer =>
        exact faithful.receiveOtherOffer routed (different _ rfl) gone
      | _ => cases offered
    | false =>
      rw [handleProtocol_of_about about offered] at gone ⊢
      cases found : (system.node party).records.lookup (fingerprint, id) with
      | none =>
        rw [update_absent found]
        exact faithful.unchanged (by simp)
          (packets_other routed (different id about) (unknownTransfer_addressed event))
      | some record =>
        have conducts : network.Conducts record
            ((record.reroute peer).handle network.sha256 io event now) :=
          faithful.handles found routed
        apply faithful.storesOther
          (.update (faithful.book party) (faithful.routed party) found conducts)
          (different id about) _ gone (by simp)
        apply packets_foreign _ conducts.addressed
        rw [(faithful.book party).keyed _ record found]
        exact different id about

end Foreign

section Channel

variable {index : ℕ} {packet : Packet}

def taken (system : System P) (index : ℕ) : System P :=
  { system with wire := system.wire.eraseIdx index }

theorem wire_perm (found : system.wire[index]? = some packet) :
    system.wire.Perm (packet :: (taken system index).wire) := by
  rcases List.getElem?_eq_some_iff.mp found with ⟨bound, rfl⟩
  exact (getElem_cons_eraseIdx_perm bound).symm

theorem Faithful.withoutOne (faithful : network.Faithful issue system) :
    network.Faithful issue (taken system index) where
  book := faithful.book
  routed := faithful.routed
  sending := faithful.sending
  receiving := faithful.receiving
  toReceiver packet member := faithful.toReceiver packet (mem_of_mem_eraseIdx member)
  toSender packet member := faithful.toSender packet (mem_of_mem_eraseIdx member)

theorem session_toReceiver (found : system.wire[index]? = some packet) :
    (network.session issue system).toReceiver = (issue.forReceiver [packet] : Multiset _) +
        (network.session issue (taken system index)).toReceiver :=
  coe_eq_coe.mpr ((wire_perm found).filterMap _ |>.trans
    (Perm.of_eq (@Issue.forReceiver_append issue [packet] _)))

theorem session_toSender (found : system.wire[index]? = some packet) :
    (network.session issue system).toSender = (issue.forSender [packet] : Multiset _) +
        (network.session issue (taken system index)).toSender :=
  coe_eq_coe.mpr ((wire_perm found).filterMap _ |>.trans
    (Perm.of_eq (@Issue.forSender_append issue [packet] _)))

theorem session_taken_receiver (found : system.wire[index]? = some packet)
    (target : packet.target = issue.party.other) (owned : issue.owns packet = true)
    {message : ToReceiver UInt8 Digest} (shown : toReceiver? packet.event = some message) :
    network.session issue system =
      { network.session issue (taken system index) with
        toReceiver := message ::ₘ (network.session issue (taken system index)).toReceiver } := by
  have one : issue.forReceiver [packet] = [message] := by
    simp [forReceiver, target, owned, shown]
  have none : issue.forSender [packet] = [] := by
    apply forSender_eq_nil
    exact forall_mem_singleton.mpr (.inl target)
  have first := @session_toReceiver _ network issue _ _ _ found
  have second := @session_toSender _ network issue _ _ _ found
  rw [one, coe_singleton, singleton_add] at first
  rw [none, Multiset.coe_nil, Multiset.zero_add] at second
  unfold session at first second ⊢
  dsimp only at first second ⊢
  rw [first, second]
  rfl

theorem session_taken_sender (found : system.wire[index]? = some packet)
    (target : packet.target = issue.party) (owned : issue.owns packet = true)
    {message : ToSender} (shown : toSender? packet.event = some message) :
    network.session issue system =
      { network.session issue (taken system index) with
        toSender := message ::ₘ (network.session issue (taken system index)).toSender } := by
  have one : issue.forSender [packet] = [message] := by
    simp [forSender, target, owned, shown]
  have none : issue.forReceiver [packet] = [] := by
    apply forReceiver_eq_nil
    exact forall_mem_singleton.mpr (.inl target)
  have first := @session_toReceiver _ network issue _ _ _ found
  have second := @session_toSender _ network issue _ _ _ found
  rw [none, Multiset.coe_nil, Multiset.zero_add] at first
  rw [one, coe_singleton, singleton_add] at second
  unfold session at first second ⊢
  dsimp only at first second ⊢
  rw [first, second]
  rfl

theorem session_taken_other (found : system.wire[index]? = some packet)
    (foreign : issue.owns packet = false) :
    network.session issue system = network.session issue (taken system index) := by
  have first := @session_toReceiver _ network issue _ _ _ found
  have second := @session_toSender _ network issue _ _ _ found
  rw [forReceiver_eq_nil (by simp [foreign]), Multiset.coe_nil, Multiset.zero_add] at first
  rw [forSender_eq_nil (by simp [foreign]), Multiset.coe_nil, Multiset.zero_add] at second
  unfold session at first second ⊢
  dsimp only at first second ⊢
  rw [first, second]
  rfl

theorem Faithful.shown (faithful : network.Faithful issue system)
    (found : system.wire[index]? = some packet) (owned : issue.owns packet = true) :
    packet.target = issue.party ∧ (∃ message, toSender? packet.event = some message) ∨
      packet.target = issue.party.other ∧ issue.Describes packet.event ∧
        ∃ message, toReceiver? packet.event = some message := by
  have member := mem_of_getElem? found
  rcases eq_or_eq_other issue.party packet.target with back | forth
  · exact .inl ⟨back, Option.isSome_iff_exists.mp (faithful.toSender packet member back owned)⟩
  · rcases faithful.toReceiver packet member forth owned with ⟨some, described⟩
    exact .inr ⟨forth, described, Option.isSome_iff_exists.mp some⟩

theorem Faithful.lose (faithful : network.Faithful issue system) :
    network.Advances issue disturbed system (taken system index) := by
  refine ⟨faithful.withoutOne, rfl, ?_⟩
  cases found : system.wire[index]? with
  | none =>
    have same : taken system index = system := by
      unfold taken
      rw [eraseIdx_of_length_le (getElem?_eq_none_iff.mp found)]
    rw [same]
  | some packet =>
    cases owned : issue.owns packet with
    | false => rw [session_taken_other found owned]
    | true =>
      rcases faithful.shown found owned with ⟨target, message, shown⟩ | ⟨target, _, message, shown⟩
      · rw [session_taken_sender found target owned shown]
        exact .single (.loseToSender rfl)
      · rw [session_taken_receiver found target owned shown]
        exact .single (.loseToReceiver rfl)

theorem Faithful.duplicate (faithful : network.Faithful issue system)
    (found : system.wire[index]? = some packet) :
    network.Advances issue disturbed system
      { system with
        wire := packet :: system.wire, duplicated := packet :: system.duplicated } := by
  have member := mem_of_getElem? found
  refine ⟨⟨faithful.book, faithful.routed, faithful.sending, faithful.receiving, ?_, ?_⟩, rfl, ?_⟩
  · intro other there
    rcases mem_cons.mp there with rfl | earlier
    · exact faithful.toReceiver other member
    · exact faithful.toReceiver other earlier
  · intro other there
    rcases mem_cons.mp there with rfl | earlier
    · exact faithful.toSender other member
    · exact faithful.toSender other earlier
  · cases owned : issue.owns packet with
    | false =>
      have same : network.session issue { system with
          wire := packet :: system.wire, duplicated := packet :: system.duplicated } =
          network.session issue system := by
        simp [session, recordAt, System.filesAt, forReceiver, forSender, owned]
      rw [same]
    | true =>
      rcases faithful.shown found owned with ⟨target, message, shown⟩ | ⟨target, _, message, shown⟩
      · have more : network.session issue { system with
            wire := packet :: system.wire, duplicated := packet :: system.duplicated } =
            { network.session issue system with
              toSender := message ::ₘ (network.session issue system).toSender
              duplicated := (network.session issue system).duplicated + 1 } := by
          simp [session, recordAt, System.filesAt, forReceiver, forSender,
            owned, target, shown, (other_ne issue.party).symm]
        rw [more]
        apply Relation.ReflTransGen.single
        apply Step.duplicateToSender
        rw [session_taken_sender found target owned shown]
        dsimp only
        exact mem_cons_self _ _
      · have more : network.session issue { system with
            wire := packet :: system.wire, duplicated := packet :: system.duplicated } =
            { network.session issue system with
              toReceiver := message ::ₘ (network.session issue system).toReceiver
              duplicated := (network.session issue system).duplicated + 1 } := by
          simp [session, recordAt, System.filesAt, forReceiver, forSender, owned, target, shown]
        rw [more]
        apply Relation.ReflTransGen.single
        apply Step.duplicateToReceiver
        rw [session_taken_receiver found target owned shown]
        dsimp only
        exact mem_cons_self _ _

theorem unknownTransfer_sends (peer : P) (id : UInt64) (event : ProtoEvent) :
    ∃ answer : List (ToReceiver UInt8 Digest), ∃ reply : List ToSender,
      (sends (unknownTransfer peer id event)).map toReceiver? = answer.map some ∧
      (sends (unknownTransfer peer id event)).map toSender? = reply.map some ∧
      (answer = [] ∨ answer = [.result false] ∨ answer = [.cancel]) ∧
      (reply = [] ∨ reply = [.result false] ∨ reply = [.cancel]) := by
  unfold unknownTransfer
  split
  · exact ⟨[.result false], [.result false], rfl, rfl, .inr (.inl rfl), .inr (.inl rfl)⟩
  · exact ⟨[.result false], [.result false], rfl, rfl, .inr (.inl rfl), .inr (.inl rfl)⟩
  · exact ⟨[.result false], [.result false], rfl, rfl, .inr (.inl rfl), .inr (.inl rfl)⟩
  · exact ⟨[.cancel], [.cancel], rfl, rfl, .inr (.inr rfl), .inr (.inr rfl)⟩
  · exact ⟨[], [], rfl, rfl, .inl rfl, .inl rfl⟩

variable {io : Io} {peer : P} {settings : FileReceiveSettings} {now : ℕ}

variable {actions : List (ManualAction P)}

theorem packets_answer (routed : network.owner peer = network.fingerprint party.other)
    (addressed : ∀ action ∈ actions, action.Addressed peer issue.id) :
    network.packets party actions = (sends actions).map (Packet.mk party.other) ∧
      ∀ event ∈ sends actions, transferId? event = some issue.id := by
  refine ⟨?_, ?_⟩
  · apply packets_of_routed
    intro _ event member
    rw [(addressed _ member).1]
    exact routed
  · intro _ member
    rcases sends_of_mem.mp member with ⟨_, there⟩
    exact (addressed _ there).2

variable (faithful : network.Faithful issue system)
include faithful

theorem Faithful.senderAnswers {answer : List (ToReceiver UInt8 Digest)}
    (routed : network.owner peer = network.fingerprint issue.party.other)
    (addressed : ∀ action ∈ actions, action.Addressed peer issue.id)
    (said : (sends actions).map toReceiver? = answer.map some)
    (described : ∀ event ∈ sends actions, issue.Describes event) (brief : chunks answer = 0) :
    network.Faithful issue (network.perform issue.party .other
        ⟨system.node issue.party, actions, []⟩ system) ∧
      network.session issue (network.perform issue.party .other
        ⟨system.node issue.party, actions, []⟩ system) =
        { network.session issue system with
          toReceiver := (network.session issue system).toReceiver + ofList answer } := by
  rcases packets_answer routed addressed with ⟨packets, owned⟩
  refine ⟨?_, ?_⟩
  · apply faithful.perform (faithful.book _) (faithful.routed _)
    · intro _
      exact faithful.sending
    · intro impossible
      exact absurd impossible.symm (other_ne issue.party)
    · intro _ member _
      rw [packets] at member
      rcases mem_map.mp member with ⟨event, there, rfl⟩
      exact ⟨fun _ => ⟨isSome_of_said said there, described event there⟩,
        fun impossible => absurd impossible.symm (other_ne issue.party)⟩
  · rw [session_perform_sender, packets, forReceiver_sends owned said, brief,
      issued_of_not_offer (by simp)]
    simp [repeated, filesOf, yields, session, recordAt]

theorem Faithful.receiverAnswers {answer : List ToSender}
    (routed : network.owner peer = network.fingerprint issue.party)
    (addressed : ∀ action ∈ actions, action.Addressed peer issue.id)
    (said : (sends actions).map toSender? = answer.map some) :
    network.Faithful issue (network.perform issue.party.other .other
        ⟨system.node issue.party.other, actions, []⟩ system) ∧
      network.session issue (network.perform issue.party.other .other
        ⟨system.node issue.party.other, actions, []⟩ system) =
        { network.session issue system with
          toSender := (network.session issue system).toSender + ofList answer } := by
  have back : network.owner peer = network.fingerprint issue.party.other.other := by
    rw [other_other]
    exact routed
  rcases packets_answer back addressed with ⟨packets, owned⟩
  rw [other_other] at packets
  refine ⟨?_, ?_⟩
  · apply faithful.perform (faithful.book _) (faithful.routed _)
    · intro impossible
      exact absurd impossible (other_ne issue.party)
    · intro _
      exact faithful.receiving
    · intro _ member _
      rw [packets] at member
      rcases mem_map.mp member with ⟨_, there, rfl⟩
      exact ⟨fun impossible => absurd impossible (other_ne issue.party),
        fun _ => isSome_of_said said there⟩
  · rw [session_perform_receiver, packets, forSender_sends owned said,
      issued_of_not_offer (by simp)]
    simp [repeated, filesOf, publications, session, recordAt]

variable {event : ProtoEvent} {message : ToSender}

omit faithful in
theorem not_offer_of_toSender (shown : toSender? event = some message) : isOffer event = false := by
  cases event with
  | manualFileOffer => cases shown
  | _ => rfl

omit faithful in
theorem not_offer_of_toReceiver {message : ToReceiver UInt8 Digest}
    (shown : toReceiver? event = some message) (other : isOffer event = false) :
    message ≠ .offer := by
  rintro rfl
  cases event with
  | manualFileOffer => cases other
  | manualFileDecision id answer => cases answer <;> cases shown
  | _ => cases shown

theorem Faithful.deliverSender (found : system.wire[index]? = some packet)
    (target : packet.target = issue.party) (owned : issue.owns packet = true)
    (shown : toSender? packet.event = some message)
    (routed : network.owner peer = network.fingerprint issue.party.other)
    (late : ∀ record, network.recordAt issue system issue.party = some record →
      record.Overdue now → disturbed)
    (broken : ∀ record identity, network.recordAt issue system issue.party = some record →
      record.Sourced identity → ¬io.Serves identity → disturbed) :
    network.Advances issue disturbed system (network.perform issue.party .other
        ((system.node issue.party).handleProtocol network.sha256 io peer
          (network.fingerprint issue.party.other) packet.event settings now)
        (taken system index)) := by
  have kept : network.Faithful issue (taken system index) := faithful.withoutOne
  have view := @session_taken_sender _ network _ _ _ _ found target owned _ shown
  have about : transferId? packet.event = some issue.id := of_decide_eq_true owned
  rw [handleProtocol_of_about about (not_offer_of_toSender shown)]
  cases there : network.recordAt issue system issue.party with
  | none =>
    rcases unknownTransfer_sends peer issue.id packet.event with ⟨answer, _, said, _, brief, _⟩
    have described : ∀ event ∈ sends (unknownTransfer peer issue.id packet.event),
        issue.Describes event := by
      intro event member
      unfold unknownTransfer at member
      split at member <;> simp_all [peerFailure, Describes]
    have short : chunks answer = 0 := by
      rcases brief with rfl | rfl | rfl <;> rfl
    have answered := kept.senderAnswers routed (unknownTransfer_addressed packet.event) said
      described short
    rw [update_absent (by exact there)]
    refine .single answered.1 answered.2 rfl ?_
    rw [view]
    exact .senderMissing (congrArg (Option.map asSender) there) rfl brief
  | some record =>
    have conducts : network.Conducts record
        ((record.reroute peer).handle network.sha256 io packet.event now) :=
      kept.handles there routed
    have stores : network.Stores (system.node issue.party) (network.key issue issue.party) _
        ((system.node issue.party).update (network.key issue issue.party)
          (fun record => (record.reroute peer).handle network.sha256 io packet.event now)
          (unknownTransfer peer issue.id packet.event)) :=
      .update (faithful.book _) (faithful.routed _) there conducts
    have reaction : SenderReaction issue network.sha256 disturbed (record.reroute peer)
        message ((record.reroute peer).handle network.sha256 io packet.event now) := by
      apply ((faithful.sending record there).reroute peer).handle shown
      · exact late record there
      · intro identity sourced
        exact broken record identity there { sourced with }
    rcases reaction with ⟨_, _, reacts, reply⟩
    rcases kept.ownSender .other stores ((faithful.book _).keyed _ record there)
      conducts.addressed reply (by simp) with ⟨after, session⟩
    refine .single after session rfl ?_
    rw [view]
    exact .senderReacts (congrArg (Option.map asSender) there) rfl reacts

omit faithful

theorem published_of_reacts {receiver next : Receiver UInt8 Digest}
    {message : ToReceiver UInt8 Digest} {answer : List ToSender} {published files : List Bytes}
    (reacts : ReceiverReacts (issue.protocol network.sha256) disturbed receiver message next answer
      files) :
    published ++ files = published ∨ ∃ receiver, some next = some receiver ∧
      receiver.phase = .completed := by
  rcases reacts.publishes with rfl | completed
  · exact .inl (append_nil _)
  · exact .inr ⟨next, rfl, completed⟩

theorem Faithful.deliverReceiver (faithful : network.Faithful issue system)
    (found : system.wire[index]? = some packet) (target : packet.target = issue.party.other)
    (owned : issue.owns packet = true) {message : ToReceiver UInt8 Digest}
    (shown : toReceiver? packet.event = some message) (other : isOffer packet.event = false)
    (routed : network.owner peer = network.fingerprint issue.party)
    (broken : ¬io.Stores → disturbed) :
    network.Proceeds issue disturbed system (network.perform issue.party.other .other
        ((system.node issue.party.other).handleProtocol network.sha256 io peer
          (network.fingerprint issue.party.other.other) packet.event settings now)
        (taken system index)) := by
  have kept : network.Faithful issue (taken system index) := faithful.withoutOne
  have view := @session_taken_receiver _ network _ _ _ _ found target owned _ shown
  have about : transferId? packet.event = some issue.id := of_decide_eq_true owned
  have notOffer := not_offer_of_toReceiver shown other
  rw [handleProtocol_of_about about other]
  cases there : network.recordAt issue system issue.party.other with
  | none =>
    rcases unknownTransfer_sends peer issue.id packet.event with ⟨_, answer, _, said, _, brief⟩
    have answered := kept.receiverAnswers routed (unknownTransfer_addressed packet.event) said
    rw [update_absent (by exact there)]
    refine .single answered.1 answered.2 (.inl rfl) ?_
    rw [view]
    exact .receiverMissing (congrArg (Option.map asReceiver) there) rfl notOffer brief
  | some record =>
    have conducts : network.Conducts record
        ((record.reroute peer).handle network.sha256 io packet.event now) := by
      apply kept.handles there
      rw [routed, key, other_other]
    have stores : network.Stores (system.node issue.party.other)
        (network.key issue issue.party.other) _
        ((system.node issue.party.other).update (network.key issue issue.party.other)
          (fun record => (record.reroute peer).handle network.sha256 io packet.event now)
          (unknownTransfer peer issue.id packet.event)) :=
      .update (faithful.book _) (faithful.routed _) there conducts
    have reaction : ReceiverReaction issue network.sha256 disturbed (record.reroute peer)
        message ((record.reroute peer).handle network.sha256 io packet.event now) :=
      ((faithful.receiving record there).reroute peer).handle shown notOffer broken
    rcases reaction with ⟨_, _, reacts, reply⟩
    rcases kept.ownReceiver .other stores ((faithful.book _).keyed _ record there)
      conducts.addressed reply (by simp) with ⟨after, session⟩
    refine .single after session (published_of_reacts reacts) ?_
    rw [view]
    exact .receiverReacts (congrArg (Option.map asReceiver) there) rfl reacts

theorem step_refused {protocol : Protocol UInt8 Digest} {session : Session UInt8 Digest}
    (absent : session.receiver = none) (allowed : disturbed) :
    Step protocol disturbed { session with toReceiver := .offer ::ₘ session.toReceiver }
      { session with toSender := session.toSender + ofList [.result false] } := by
  have step : Step protocol disturbed { session with toReceiver := .offer ::ₘ session.toReceiver }
      { session with
        receiver := none
        toSender := session.toSender + ofList [.result false] } := by
    refine Step.receiverOpens ?_ rfl (.refuse allowed ?_)
    · exact absent
    · intro _ impossible
      cases impossible
  rw [← absent] at step
  exact step

theorem Faithful.receiveOffer {offer : OfferedFile P} (faithful : network.Faithful issue system)
    (view : network.session issue system =
      { network.session issue (taken system index) with
        toReceiver := .offer ::ₘ (network.session issue (taken system index)).toReceiver })
    (key : (offer.fingerprint, offer.id) = network.key issue issue.party.other)
    (name : offer.name = issue.name) (size : offer.size = issue.size) (nonzero : offer.id ≠ 0)
    (valid : validateManualFileName offer.name = .ok ())
    (routed : network.owner offer.peer = offer.fingerprint)
    (full : network.recordAt issue system issue.party.other = none →
      maxRecords ≤ (system.node issue.party.other).activeCount → disturbed)
    (blocked : network.recordAt issue system issue.party.other = none →
      settings.autoAccept = true →
        ¬(io.Creates ∧ settings.downloadDirectory.isAbsolute = true) → disturbed) :
    network.Proceeds issue disturbed system
      (network.perform issue.party.other .other
        ((system.node issue.party.other).receiveOffer io offer settings now)
        (taken system index)) := by
  have kept : network.Faithful issue (taken system index) := faithful.withoutOne
  have outcome := receiveOffer_outcome (faithful.book issue.party.other)
    (faithful.routed issue.party.other) io offer routed settings now
  have number : offer.id = issue.id := congrArg Prod.snd key
  have fingerprint : offer.fingerprint = network.fingerprint issue.party := by
    rw [← other_other issue.party]
    exact congrArg Prod.fst key
  generalize (system.node issue.party.other).receiveOffer io offer settings now = output at outcome
  cases outcome with
  | refuses message reason =>
    rw [key] at reason
    have refused : network.recordAt issue system issue.party.other = none ∧ disturbed := by
      rcases reason with zero | invalid | ⟨record, there, conflict⟩ | ⟨absent, many⟩
      · exact absurd zero nonzero
      · exact absurd valid invalid
      · have receiving := faithful.receiving record there
        rcases conflict with direction | name' | size'
        · exact absurd receiving.direction direction
        · exact absurd (receiving.name.trans name.symm) name'
        · exact absurd (receiving.size.trans size.symm) size'
      · exact ⟨absent, full absent many⟩
    have addressed : ∀ action ∈ [peerFailure offer.peer offer.id message],
        action.Addressed offer.peer issue.id :=
      forall_mem_singleton.mpr ⟨rfl, congrArg some number⟩
    have said : (sends [peerFailure offer.peer offer.id message]).map toSender? =
        [ToSender.result false].map some := rfl
    have answered := kept.receiverAnswers (routed.trans fingerprint) addressed said
    refine .single answered.1 answered.2 (.inl rfl) ?_
    rw [view]
    exact step_refused (congrArg (Option.map asReceiver) refused.1) refused.2
  | @answers _ record there stores =>
    rw [key] at there stores
    have reaction : ReceiverReaction issue network.sha256 disturbed (record.reroute offer.peer)
        .offer ⟨record.reroute offer.peer, [.send offer.peer record.offerResponse], []⟩ :=
      ((faithful.receiving record there).reroute offer.peer).answersOffer
    rcases reaction with ⟨answer, _, reacts, reply⟩
    have identity := (faithful.book _).keyed _ record there
    have addressed : ∀ target event,
        ManualAction.send target event ∈ [.send offer.peer record.offerResponse] →
        network.owner target = record.fingerprint ∧ transferId? event = some record.id := by
      intro target event member
      cases List.mem_singleton.mp member
      refine ⟨routed.trans ?_, transferId?_offerResponse record⟩
      exact (congrArg Prod.fst key).trans (congrArg Prod.fst identity).symm
    rcases kept.ownReceiver .other stores identity addressed reply (by simp) with ⟨after, session⟩
    refine .single after session (published_of_reacts reacts) ?_
    rw [view]
    exact .receiverReacts (congrArg (Option.map asReceiver) there) rfl reacts
  | opens absent _ stores =>
    rw [key] at absent stores
    have opening : ReceiverOpening issue disturbed (offer.reply io settings now) :=
      opens valid name size (blocked absent)
    rcases opening with ⟨_, opens, reply⟩
    have proper := offer.reply_proper io settings now
    have addressed : ∀ target event,
        ManualAction.send target event ∈ (offer.reply io settings now).actions →
        network.owner target = (offer.record settings now).fingerprint ∧
          transferId? event = some (offer.record settings now).id := by
      intro _ _ member
      rcases proper.addressed _ member with ⟨same, about⟩
      rw [same]
      exact ⟨routed, about⟩
    have identity : (offer.record settings now).key = network.key issue issue.party.other := key
    rcases kept.ownReceiver .other stores identity addressed reply (by simp) with ⟨after, session⟩
    rw [append_nil] at session
    refine .single after session (.inl rfl) ?_
    rw [view]
    exact .receiverOpens (congrArg (Option.map asReceiver) absent) rfl opens

end Channel

end Network

end Syntra.Manual
