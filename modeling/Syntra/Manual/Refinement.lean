import Syntra.Manual.Messages

/-!
# Runs keep to the protocol

Offers, user actions, timers and routes as steps of the abstract protocol, and from them every run
of the two devices and the channel. A step that is calm needs no disturbance of the protocol.
-/

namespace Syntra.Manual

open ByteFormat Proto Files PullTransfer ManualTransfers Network List

variable {P : Type}

namespace Network

variable (network : Network P) (issue : Issue)

/-- An offer between the two devices with the number of the transfer. -/
def isNamesake (other : Issue) : Bool :=
  other.id = issue.id ∧ other.fingerprint = network.fingerprint other.party.other

/-- The number is drawn for this transfer only, if it has been drawn. -/
def Single (system : System P) : Prop :=
  system.issued.filter (network.isNamesake issue) <+: [issue]

variable {network issue} {disturbed : Prop} {system later : System P} {party : Party}
  {cause : Cause}

theorem Single.earlier (single : network.Single issue later)
    (grows : system.issued <+: later.issued) : network.Single issue system :=
  (grows.filter _).trans single

theorem perform_issued (output : Output P) :
    system.issued <+: (network.perform party cause output system).issued :=
  prefix_append _ _

section Offers

variable {peer : P} {fingerprint : String} {id : UInt64} {offer : FileOffer}
  {entry : ClipboardManifestEntry} {now : ℕ}

variable {path : PathBuf} {io : Io}

theorem sending_newOffering (name : entry.path = issue.name) (size : entry.size = issue.size)
    (nonzero : id ≠ 0) (made : FileOffer.fromRegularFile io id path = .ok offer)
    (first : offer.entries.head? = some entry) :
    (Record.newOffering peer fingerprint id offer entry now).Sending issue := by
  rcases FileOffer.fromRegularFile_ok made with ⟨_, identity, entries, number, kind, valid, source⟩
  rw [entries, head?_cons] at first
  cases first
  refine ⟨rfl, name, size, ?_, ?_, ?_⟩
  · intro event due
    cases due
    exact ⟨rfl, name, size, nonzero, valid⟩
  · intro _ due
    cases due
  · intro _
    refine ⟨rfl, identity, ⟨offer, entry, path, rfl, entries, number, kind, rfl, source⟩, ?_, ?_,
      ?_⟩
    · exact UInt64.le_iff_toNat_le.mpr (Nat.zero_le _)
    · intro _
      rfl
    · intro _ impossible
      cases impossible

theorem Stores.newOffering {transfers : ManualTransfers P} (book : transfers.Bookkeeping)
    (earlier : ∀ key record, transfers.records.lookup key = some record →
      network.owner record.peer = key.1) (routed : network.owner peer = fingerprint)
    (absent : transfers.records.lookup (fingerprint, id) = none)
    (room : transfers.activeCount < maxRecords) (offer : FileOffer) (entry : ClipboardManifestEntry)
    (now : ℕ) :
    network.Stores transfers (fingerprint, id)
      ⟨Record.newOffering peer fingerprint id offer entry now,
        [.send peer (.manualFileOffer id entry.path entry.size),
          (Record.newOffering peer fingerprint id offer entry now).notify], []⟩
      ⟨transfers.store (Record.newOffering peer fingerprint id offer entry now),
        [.send peer (.manualFileOffer id entry.path entry.size),
          (Record.newOffering peer fingerprint id offer entry now).notify], []⟩ := by
  have labelled : (Record.newOffering peer fingerprint id offer entry now).Labelled := by
    refine ⟨?_, ?_⟩
    · intro event due
      cases due
      rfl
    · intro _ due
      cases due
  have added := @ManualTransfers.Bookkeeping.add _ _
    (Record.newOffering peer fingerprint id offer entry now) book absent room labelled
    (by intro ended; cases ended)
  refine .of_store added.1 earlier routed ?_ ?_ rfl rfl
  · exact @ManualTransfers.store_lookup _ _
      (Record.newOffering peer fingerprint id offer entry now) book.bounded
  · intro other different
    rcases transfers.store_lookup_ne (Record.newOffering peer fingerprint id offer entry now)
      different with kept | ⟨queued, gone⟩
    · exact .inl kept
    · exact .inr ⟨gone, (book.queued other).mp queued⟩

theorem packets_notes (notes : List FrontendEvent) :
    network.packets party (notes.map .notify) = [] := by
  apply filterMap_eq_nil_iff.mpr
  intro _ member
  rcases mem_map.mp member with ⟨_, _, rfl⟩
  rfl

theorem Faithful.issues (faithful : network.Faithful issue system)
    (addressed : issue.fingerprint = network.fingerprint issue.party.other)
    (same : issue = ⟨issue.party, fingerprint, id, entry.path, entry.size⟩)
    (fresh : issue ∉ system.issued) (routed : network.owner peer = fingerprint) (nonzero : id ≠ 0)
    (made : FileOffer.fromRegularFile io id path = .ok offer)
    (first : offer.entries.head? = some entry)
    (absent : (system.node issue.party).records.lookup (fingerprint, id) = none)
    (room : (system.node issue.party).activeCount < maxRecords) :
    network.Advances issue disturbed system (network.perform issue.party .offer
        ⟨(system.node issue.party).store (Record.newOffering peer fingerprint id offer entry now),
          [.send peer (.manualFileOffer id entry.path entry.size),
            (Record.newOffering peer fingerprint id offer entry now).notify], []⟩ system) := by
  have number : id = issue.id := (congrArg Issue.id same).symm
  have name : entry.path = issue.name := (congrArg Issue.name same).symm
  have size : entry.size = issue.size := (congrArg Issue.size same).symm
  have route : fingerprint = network.fingerprint issue.party.other :=
    (congrArg Issue.fingerprint same).symm.trans addressed
  have key : (fingerprint, id) = network.key issue issue.party := Prod.ext route number
  have stores := Stores.newOffering (faithful.book issue.party) (faithful.routed issue.party)
    routed absent room offer entry now
  have sending : (Record.newOffering peer fingerprint id offer entry now).Sending issue :=
    sending_newOffering name size nonzero made first
  have valid : issue.Describes (.manualFileOffer id entry.path entry.size) :=
    (sending.retry _ rfl).2
  rw [key] at stores
  have target : ∀ action ∈ [ManualAction.send peer (.manualFileOffer id entry.path entry.size),
      (Record.newOffering peer fingerprint id offer entry now).notify],
      action.Addressed peer issue.id := by
    intro _ member
    simp only [mem_cons, not_mem_nil, or_false] at member
    rcases member with rfl | rfl
    · exact ⟨rfl, congrArg some number⟩
    · trivial
  rcases packets_answer (routed.trans route) target with ⟨packets, owned⟩
  have view : issue.forReceiver (network.packets issue.party
      [.send peer (.manualFileOffer id entry.path entry.size),
        (Record.newOffering peer fingerprint id offer entry now).notify]) = [.offer] := by
    rw [packets]
    exact Issue.forReceiver_sends owned rfl
  refine ⟨?_, ?_, ?_⟩
  · apply faithful.perform stores.book stores.routed
    · intro _ _ found
      rw [stores.stored] at found
      cases found
      exact sending
    · intro impossible
      exact absurd impossible.symm (Party.other_ne issue.party)
    · intro _ member _
      rw [packets] at member
      rcases mem_map.mp member with ⟨_, there, rfl⟩
      cases mem_singleton.mp there
      refine ⟨fun _ => ⟨rfl, valid⟩, ?_⟩
      intro impossible
      exact absurd impossible.symm (Party.other_ne issue.party)
  · rw [session_perform_sender]
  · have issued : issue ∈ (network.perform issue.party .offer
        ⟨(system.node issue.party).store (Record.newOffering peer fingerprint id offer entry now),
          [.send peer (.manualFileOffer id entry.path entry.size),
            (Record.newOffering peer fingerprint id offer entry now).notify], []⟩
        system).issued := by
      apply mem_append_right
      apply mem_filterMap.mpr
      refine ⟨_, .head _, ?_⟩
      simp only [Network.issue]
      rw [routed, ← same]
    rw [session_perform_sender, view, stores.stored]
    simp only [issued, decide_true]
    apply Relation.ReflTransGen.single
    have step : Step (issue.protocol network.sha256) disturbed (network.session issue system) _ :=
      .issue (decide_eq_false fresh)
    convert step using 1
    congr 1
    · rw [Multiset.coe_singleton, Multiset.add_comm, Multiset.singleton_add]
    · simp [filesOf, yields]

theorem Faithful.sendFile {source : Source} (faithful : network.Faithful issue system)
    (addressed : issue.fingerprint = network.fingerprint issue.party.other)
    (routed : network.owner peer = fingerprint)
    (single : network.Single issue (network.perform party .offer
      ((system.node party).sendFile peer fingerprint source now).1 system)) :
    network.Advances issue disturbed system
      (network.perform party .offer ((system.node party).sendFile peer fingerprint source now).1
        system) := by
  have book := faithful.book party
  rcases (system.node party).sendFile_cases peer fingerprint source now with ⟨_, same⟩ |
    ⟨id, offer, entry, nonzero, absent, room, made, first, stored⟩
  · rw [same]
    apply faithful.foreign book (faithful.routed party)
    · refine ⟨?_, rfl, ?_⟩
      · rw [packets_notes]
        exact forall_mem_nil _
      · intro _ action member
        rcases mem_map.mp member with ⟨_, _, rfl⟩
        simp [Network.issue]
    · exact .inl rfl
  · have kept : ∀ record, network.recordAt issue system party = some record →
        ((system.node party).sendFile peer fingerprint source now).1.state.records.lookup
          (network.key issue party) ≠ none := by
      intro record found gone
      exact sendFile_lookup_none book found gone
    rw [stored] at single kept ⊢
    have stores :=
      Stores.newOffering book (faithful.routed party) routed absent room offer entry now
    have offered : (network.perform party .offer
        ⟨(system.node party).store (Record.newOffering peer fingerprint id offer entry now),
          [.send peer (.manualFileOffer id entry.path entry.size),
            (Record.newOffering peer fingerprint id offer entry now).notify], []⟩ system).issued =
        system.issued ++ [⟨party, fingerprint, id, entry.path, entry.size⟩] := by
      rw [← routed]
      rfl
    by_cases own : (fingerprint, id) = network.key issue party
    · have namesake : network.isNamesake issue
          ⟨party, fingerprint, id, entry.path, entry.size⟩ = true := by
        apply decide_eq_true
        exact ⟨congrArg Prod.snd own, congrArg Prod.fst own⟩
      unfold Single at single
      rw [offered, filter_append, filter_cons_of_pos namesake, filter_nil] at single
      have alone : system.issued.filter (network.isNamesake issue) = [] ∧
          (⟨party, fingerprint, id, entry.path, entry.size⟩ : Issue) = issue := by
        cases earlier : system.issued.filter (network.isNamesake issue) with
        | nil =>
          rw [earlier, nil_append] at single
          exact ⟨rfl, (cons_prefix_cons.mp single).1⟩
        | cons =>
          rw [earlier] at single
          have length := single.length_le
          simp at length
      have fresh : issue ∉ system.issued := by
        intro member
        rw [alone.2] at namesake
        have there := mem_filter.mpr ⟨member, namesake⟩
        rw [alone.1] at there
        cases there
      have which : party = issue.party := congrArg Issue.party alone.2
      subst which
      exact faithful.issues addressed alone.2.symm fresh routed nonzero made first absent room
    · apply faithful.foreign stores.book stores.routed
      · refine ⟨?_, rfl, ?_⟩
        · apply packets_other routed own
          intro action member
          simp only [mem_cons, not_mem_nil, or_false] at member
          rcases member with rfl | rfl
          · exact ⟨rfl, rfl⟩
          · trivial
        · intro _ _ member
          simp only [mem_cons, not_mem_nil, or_false] at member
          rcases member with rfl | rfl
          · intro same
            apply own
            rw [Network.issue, routed] at same
            have this := Option.some.inj same
            have which : party = issue.party := congrArg Issue.party this
            rw [which]
            exact Prod.ext ((congrArg Issue.fingerprint this).trans addressed)
              (congrArg Issue.id this)
          · simp [Record.notify, Network.issue]
      · left
        rcases stores.others _ (Ne.symm own) with kept' | ⟨gone, record, found, _⟩
        · exact kept'
        · exact absurd gone (kept record found)

theorem Faithful.sendFiles (addressed : issue.fingerprint = network.fingerprint issue.party.other)
    (routed : network.owner peer = fingerprint) (sources : List Source)
    (faithful : network.Faithful issue system)
    (single : network.Single issue (network.perform party .offer
      ((system.node party).sendFiles peer fingerprint now sources) system)) :
    network.Advances issue disturbed system (network.perform party .offer
        ((system.node party).sendFiles peer fingerprint now sources) system) := by
  induction sources generalizing system with
  | nil =>
    apply faithful.foreign (faithful.book party) (faithful.routed party)
    · refine ⟨?_, rfl, ?_⟩
      · exact forall_mem_nil _
      · intro _ _ member
        cases member
    · exact .inl rfl
  | cons source _ ih =>
    unfold ManualTransfers.sendFiles at single ⊢
    dsimp only at single ⊢
    split at single
    · rename_i goesOn
      rw [if_pos goesOn]
      rw [perform_append] at single ⊢
      have turn : network.Advances issue disturbed system _ :=
        faithful.sendFile addressed routed (single.earlier (perform_issued _))
      have reached : (network.perform party .offer
          ((system.node party).sendFile peer fingerprint source now).1 system).node party =
          ((system.node party).sendFile peer fingerprint source now).1.state := perform_node_same
      have rest := ih turn.faithful
      rw [reached] at rest
      exact turn.trans (rest single)
    · rename_i stops
      rw [if_neg stops]
      exact faithful.sendFile addressed routed single

end Offers

section Steps

variable (network issue)

/-- Nobody gives the transfer up and no deadline has passed. -/
def UnspoiledOperation (system : System P) (party : Party) : Operation P → Prop
  | .sendFiles .. | .handleProtocol .. | .refreshRoutes .. => True
  | .accept _ fingerprint id _ now | .overwrite _ fingerprint id _ now =>
    (fingerprint, id) = network.key issue party →
      ∀ record, network.recordAt issue system party = some record → ¬record.Overdue now
  | .decline fingerprint id _ | .cancel fingerprint id _ =>
    (fingerprint, id) ≠ network.key issue party
  | .tick now _ =>
    ∀ record, network.recordAt issue system party = some record → ¬record.Expires now

/-- The files of the transfer can be read and written, and the offer can still be accepted. -/
def UnspoiledMessage (system : System P) (packet : Packet) (io : Io)
    (settings : FileReceiveSettings) (now : ℕ) : Prop :=
  (packet.target = issue.party →
    ∀ record, network.recordAt issue system issue.party = some record →
      ¬record.Overdue now ∧ ∀ identity, record.Sourced identity → io.Serves identity) ∧
  (packet.target = issue.party.other → io.Stores ∧
    (network.recordAt issue system issue.party.other = none → settings.autoAccept = true →
      io.Creates ∧ settings.downloadDirectory.isAbsolute = true))

/-- A step without a timeout, a decision against the transfer, a file error or a forgotten
record. -/
def Unspoiled (system : System P) (action : Action P) : Prop :=
  (∀ party, network.recordAt issue system party ≠ none →
    network.recordAt issue (network.next system action) party ≠ none) ∧
  match action with
  | .operate party operation => network.UnspoiledOperation issue system party operation
  | .deliver index io _ settings now => ∀ packet, system.wire[index]? = some packet →
    issue.owns packet = true → network.UnspoiledMessage issue system packet io settings now
  | .lose _ | .duplicate _ => True

/-- The peer stays reachable, and an offer of the transfer finds room at the receiver. -/
def Accommodated (system : System P) : Action P → Prop
  | .operate party (.refreshRoutes routes _ _) =>
    network.recordAt issue system party ≠ none →
      routes.lookup (network.fingerprint party.other) ≠ none
  | .deliver index _ _ _ _ => ∀ packet, system.wire[index]? = some packet →
    issue.owns packet = true → packet.target = issue.party.other →
      network.recordAt issue system issue.party.other = none →
        (system.node issue.party.other).activeCount < maxRecords
  | _ => True

/-- Nothing but the channel disturbs the transfer in a step. -/
def Calm (system : System P) (action : Action P) : Prop :=
  network.Unspoiled issue system action ∧ network.Accommodated issue system action

variable {network issue}

variable {action : Action P} {now : ℕ}

theorem gone_of_excuse (excuse : network.Calm issue system action ∨ disturbed) (party : Party)
    (there : network.recordAt issue system party ≠ none)
    (gone : network.recordAt issue (network.next system action) party = none) : disturbed := by
  rcases excuse with calm | allowed
  · exact absurd gone (calm.1.1 party there)
  · exact allowed

variable (faithful : network.Faithful issue system)
include faithful

theorem Faithful.operateOne {handle : Record P → Reply P} {key : RecordKey}
    (proper : ∀ record : Record P, record.Labelled → ∃ now, record.Proper now (handle record))
    (sender : key = network.key issue party → ∀ record, record.Sending issue →
      network.recordAt issue system party = some record →
        Record.SenderMove issue disturbed .other record (handle record))
    (receiver : key = network.key issue party → ∀ record, record.Receiving issue →
      network.recordAt issue system party = some record →
        Record.ReceiverMove issue disturbed .other record (handle record))
    (gone : network.recordAt issue system party ≠ none →
      ((system.node party).update key handle []).state.records.lookup (network.key issue party) =
        none → disturbed) :
    network.Advances issue disturbed system
      (network.perform party .other ((system.node party).update key handle []) system) := by
  apply faithful.update _ _ gone (by simp)
  · intro record found
    rcases proper record ((faithful.book party).labelled key record found) with ⟨_, proper⟩
    exact .of_routed (faithful.fingerprint found) proper
  · intro own record found
    refine ⟨?_, ?_⟩
    · rintro rfl
      exact sender own record (faithful.sending record found) found
    · rintro rfl
      exact receiver own record (faithful.receiving record found) found

omit faithful in
theorem Conducts.refresh {record : Record P} {routes : AList (fun _ : String => P)}
    (labelled : record.Labelled) (routed : network.owner record.peer = record.fingerprint)
    (reaches : ∀ fingerprint peer, routes.lookup fingerprint = some peer →
      network.owner peer = fingerprint) :
    network.Conducts record (record.refresh (routes.lookup record.fingerprint) now) := by
  rcases Record.refresh_evolves labelled (routes.lookup record.fingerprint) with
    ⟨evolves, kept, route⟩
  refine ⟨evolves, kept, ?_, ?_⟩
  · rw [route]
    cases there : routes.lookup record.fingerprint with
    | some peer => exact reaches _ peer there
    | none => exact routed
  · intro _ _ member
    unfold Record.refresh at member
    split at member
    · cases member
    · split at member
      · cases mem_singleton.mp member
      · cases member

theorem Faithful.operate {operation : Operation P}
    (addressed : issue.fingerprint = network.fingerprint issue.party.other)
    (routed : network.Routed operation)
    (single : network.Single issue (network.next system (.operate party operation)))
    (excuse : network.Calm issue system (.operate party operation) ∨ disturbed) :
    network.Advances issue disturbed system (network.next system (.operate party operation)) := by
  have gone := gone_of_excuse excuse party
  simp only [recordAt, next, perform_node_same] at gone
  have blamed : ∀ {bad : Prop}, (network.UnspoiledOperation issue system party operation → ¬bad) →
      bad → disturbed := by
    intro _ calm wrong
    rcases excuse with quiet | allowed
    · exact absurd wrong (calm quiet.1.2)
    · exact allowed
  cases operation with
  | sendFiles _ _ sources =>
    exact faithful.sendFiles addressed routed sources single
  | handleProtocol =>
    apply faithful.handleOther routed.1 _ gone
    intro _ _ same
    exact routed.2 party.other (congrArg Prod.fst same)
  | accept =>
    apply faithful.operateOne _ _ _ gone
    · intro record labelled
      exact ⟨_, .prepareReceiver labelled _ _⟩
    · intro _ record sending _
      exact sending.prepareReceiver _ _
    · intro own record receiving found
      apply receiving.prepareReceiver
      exact blamed fun calm => calm own record found
  | overwrite =>
    apply faithful.operateOne _ _ _ gone
    · intro record labelled
      exact ⟨_, .overwrite labelled _⟩
    · intro _ record sending _
      exact sending.overwrite _
    · intro own record receiving found
      apply receiving.overwrite
      exact blamed fun calm => calm own record found
  | decline =>
    apply faithful.operateOne _ _ _ gone
    · intro record labelled
      exact ⟨_, .decline labelled⟩
    · intro _ record sending _
      exact sending.decline
    · intro own record receiving _
      apply receiving.decline
      intro _
      exact blamed (fun calm => absurd own calm) own
  | cancel =>
    apply faithful.operateOne _ _ _ gone
    · intro record labelled
      exact ⟨_, .cancel labelled⟩
    · intro own record sending _
      apply sending.cancel
      intro _
      exact blamed (fun calm => absurd own calm) own
    · intro own record receiving _
      apply receiving.cancel
      intro _
      exact blamed (fun calm => absurd own calm) own
  | tick now order =>
    apply Faithful.sweep _ _ _ _ _ faithful _ gone
    · exact Record.tick_evolves
    · intro record labelled routed
      exact .of_routed routed (.tick labelled)
    · simp [Operation.cause]
    · exact (order.perm _).nodup_iff.mpr (system.node party).records.keys_nodup
    · intro _ record found
      refine ⟨?_, ?_⟩
      · rintro rfl
        apply (faithful.sending record found).tick
        exact blamed fun calm => calm record found
      · rintro rfl
        apply (faithful.receiving record found).tick
        exact blamed fun calm => calm record found
  | refreshRoutes routes _ order =>
    have lost : ∀ record, network.recordAt issue system party = some record →
        routes.lookup record.fingerprint = none → isTerminal record.state = false → disturbed := by
      intro record found missing _
      have key := (faithful.book party).keyed _ record found
      rcases excuse with quiet | allowed
      · exfalso
        apply quiet.2
        · rw [found]
          simp
        · rw [show network.fingerprint party.other = record.fingerprint from
            (congrArg Prod.fst key).symm]
          exact missing
      · exact allowed
    apply Faithful.sweep _ _ _ _ _ faithful _ gone
    · intro record labelled
      exact ⟨(Record.refresh_evolves labelled _).1, (Record.refresh_evolves labelled _).2.1⟩
    · intro record labelled reached
      exact .refresh labelled reached routed
    · simp [Operation.cause]
    · exact (order.perm _).nodup_iff.mpr (system.node party).records.keys_nodup
    · intro _ record found
      refine ⟨?_, ?_⟩
      · rintro rfl
        apply (faithful.sending record found).refresh
        exact lost record found
      · rintro rfl
        apply (faithful.receiving record found).refresh
        exact lost record found

theorem Faithful.deliver {index : ℕ} {packet : Packet} {io : Io} {peer : P}
    {settings : FileReceiveSettings} (found : system.wire[index]? = some packet)
    (routed : network.owner peer = network.fingerprint packet.target.other)
    (excuse : network.Calm issue system (.deliver index io peer settings now) ∨ disturbed) :
    network.Proceeds issue disturbed system
      (network.next system (.deliver index io peer settings now)) := by
  have after : network.next system (.deliver index io peer settings now) =
      network.perform packet.target .other
        ((system.node packet.target).handleProtocol network.sha256 io peer
          (network.fingerprint packet.target.other) packet.event settings now)
        (taken system index) := by
    simp only [next, found]
    rfl
  have gone := gone_of_excuse excuse packet.target
  rw [after] at gone ⊢
  simp only [recordAt, perform_node_same] at gone
  cases owned : issue.owns packet with
  | false =>
    have lost : network.Advances issue disturbed system (taken system index) := faithful.lose
    apply Advances.proceeds
    apply lost.trans
    have kept : network.Faithful issue (taken system index) := lost.faithful
    apply @Faithful.handleOther _ _ _ _ (taken system index) _ _ _ _ _ _ _ kept routed _ gone
    intro id about same
    have number : id = issue.id := congrArg Prod.snd same
    have this : issue.owns packet = true := decide_eq_true (about.trans (congrArg some number))
    rw [owned] at this
    cases this
  | true =>
    have blamed : ∀ {bad : Prop},
        (network.UnspoiledMessage issue system packet io settings now → ¬bad) → bad →
          disturbed := by
      intro _ calm wrong
      rcases excuse with quiet | allowed
      · exact absurd wrong (calm (quiet.1.2 packet found owned))
      · exact allowed
    rcases faithful.shown found owned with ⟨target, message, shown⟩ |
      ⟨target, described, message, shown⟩
    · rw [target] at routed ⊢
      apply Advances.proceeds
      apply faithful.deliverSender found target owned shown routed
      · intro record there
        exact blamed fun calm => (calm.1 target record there).1
      · intro record identity there sourced
        exact blamed fun calm broken => broken ((calm.1 target record there).2 identity sourced)
    · rw [target, Party.other_other] at routed
      rw [target]
      cases offered : isOffer packet.event with
      | true =>
        cases event : packet.event with
        | manualFileOffer =>
          have about : transferId? packet.event = some issue.id := of_decide_eq_true owned
          rw [event] at about described shown
          cases shown
          apply faithful.receiveOffer
            (session_taken_receiver found target owned (by rw [event]; rfl))
          · exact Prod.ext rfl (Option.some.inj about)
          · exact described.1
          · exact described.2.1
          · exact described.2.2.1
          · exact described.2.2.2
          · rw [Party.other_other]
            exact routed
          · intro absent many
            rcases excuse with quiet | allowed
            · have room := quiet.2 packet found owned target absent
              exact absurd many (Nat.not_le.mpr room)
            · exact allowed
          · intro absent automatic
            exact blamed fun calm blocked => blocked ((calm.2 target).2 absent automatic)
        | _ =>
          rw [event] at offered
          cases offered
      | false =>
        apply faithful.deliverReceiver found target owned shown offered routed
        exact blamed fun calm broken => broken (calm.2 target).1

/-- Every step of the two devices and the channel is matched by steps of the protocol. -/
theorem Faithful.next (addressed : issue.fingerprint = network.fingerprint issue.party.other)
    (enabled : network.Enabled system action)
    (single : network.Single issue (network.next system action))
    (excuse : network.Calm issue system action ∨ disturbed) :
    network.Proceeds issue disturbed system (network.next system action) := by
  cases action with
  | operate => exact (faithful.operate addressed enabled single excuse).proceeds
  | deliver index =>
    cases found : system.wire[index]? with
    | none =>
      simp only [next, found]
      exact ⟨faithful, .inl rfl, .refl⟩
    | some packet => exact faithful.deliver found (enabled packet found) excuse
  | lose => exact faithful.lose.proceeds
  | duplicate index =>
    cases found : system.wire[index]? with
    | none =>
      simp only [next, found]
      exact ⟨faithful, .inl rfl, .refl⟩
    | some =>
      simp only [next, found]
      exact (faithful.duplicate found).proceeds

omit faithful

theorem next_issued (action : Action P) :
    system.issued <+: (network.next system action).issued := by
  cases action with
  | operate => exact perform_issued _
  | deliver =>
    unfold next
    dsimp only
    split
    · exact prefix_refl _
    · exact perform_issued _
  | lose => exact prefix_refl _
  | duplicate =>
    unfold next
    dsimp only
    split
    · exact prefix_refl _
    · exact prefix_refl _

end Steps

/-- Every run is a run of the protocol, as far as one transfer is concerned. -/
theorem run_session {allowed : System P → Action P → Prop}
    (excuse : ∀ system action, allowed system action → network.Calm issue system action ∨ disturbed)
    (addressed : issue.fingerprint = network.fingerprint issue.party.other)
    {history : List (System P)}
    (run : StateMachine.Run (network.machine allowed) (system :: history))
    (single : network.Single issue system) :
    network.Faithful issue system ∧
      Relation.ReflTransGen (Step (issue.protocol network.sha256) disturbed) .initial
        (network.session issue system) := by
  let shows (system : System P) (session : Session UInt8 Digest) : Prop :=
    network.Single issue system →
      network.Faithful issue system ∧ session = network.session issue system
  have initial : shows (network.machine allowed).initial .initial := by
    intro _
    exact ⟨.initial network issue, rfl⟩
  have matched : ∀ system action session, shows system session →
      (network.machine allowed).enabled system action →
        ∃ later, Relation.ReflTransGen (Step (issue.protocol network.sha256) disturbed) session
          later ∧ shows ((network.machine allowed).next system action) later := by
    intro system action session shown enabled
    by_cases alone : network.Single issue (network.next system action)
    · rcases shown (alone.earlier (next_issued action)) with ⟨faithful, rfl⟩
      have proceeds : network.Proceeds issue disturbed system (network.next system action) :=
        faithful.next addressed enabled.1 alone (excuse system action enabled.2)
      exact ⟨_, proceeds.steps, fun _ => ⟨proceeds.faithful, rfl⟩⟩
    · exact ⟨session, .refl, fun impossible => absurd impossible alone⟩
  rcases run.simulates initial matched with ⟨_, reached, shown⟩
  rcases shown single with ⟨faithful, rfl⟩
  exact ⟨faithful, reached⟩

end Network

end Syntra.Manual
