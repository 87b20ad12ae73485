import Syntra.Manual.Refinement
import Syntra.PullTransfer.Quiet
import Syntra.PullTransfer.Traffic

/-!
# What two devices can rely on

The guarantees of a manual file transfer between two devices, over every run: what is published is
what was read, the channel alone does not fail a transfer, and how many chunks are sent.
-/

namespace Syntra.Manual

open ByteFormat Proto Files PullTransfer StateMachine Option List PullTransfer

variable {P : Type} {network : Network P} {issue : Issue} {system : System P}
  {history : List (System P)}

namespace Network

theorem single_of_once (once : system.issued.filter (network.isNamesake issue) = [issue]) :
    network.Single issue system ∧ issue.fingerprint = network.fingerprint issue.party.other := by
  refine ⟨?_, ?_⟩
  · unfold Single
    rw [once]
  have member : issue ∈ system.issued.filter (network.isNamesake issue) := by
    rw [once]
    exact mem_singleton_self issue
  have namesake := of_decide_eq_true (mem_filter.mp member).2
  exact namesake.2

theorem run_delivery {allowed : System P → Action P → Prop}
    (addressed : issue.fingerprint = network.fingerprint issue.party.other)
    (run : Run (network.machine allowed) (system :: history))
    (single : network.Single issue system) :
    network.Faithful issue system ∧
      Delivery (issue.protocol network.sha256) (network.session issue system) := by
  have excuse : ∀ system action, allowed system action →
      network.Calm issue system action ∨ True := fun _ _ _ => .inr trivial
  rcases run_session excuse addressed run single with ⟨faithful, steps⟩
  exact ⟨faithful, invariant_of_steps
    (fun _ _ before step => Delivery.step before step) steps .initial⟩

variable {record : Record P} {data : Bytes} {happening : Happening}

theorem completed_of_asReceiver (completed : record.asReceiver.phase = .completed) :
    record.state = .completed := by
  rw [Record.asReceiver_phase] at completed
  cases state : record.state <;> rw [state] at completed <;> first | rfl | cases completed

theorem completed_of_published
    (addressed : issue.fingerprint = network.fingerprint issue.party.other)
    (run : Run network.everything (system :: history)) (single : network.Single issue system)
    (published : (network.session issue system).published ≠ []) :
    ∃ earlier ∈ system :: history, ∃ record,
      network.recordAt issue earlier issue.party.other = some record ∧
        record.state = .completed := by
  generalize states : system :: history = path at run
  induction run generalizing system history with
  | start =>
    cases states
    exact absurd rfl published
  | @step before older action run enabled ih =>
    cases states
    have alone : network.Single issue before := single.earlier (next_issued action)
    have faithful := (run_delivery addressed run alone).1
    have proceeds : network.Proceeds issue True before (network.next before action) :=
      faithful.next addressed enabled.1 single (.inr trivial)
    rcases proceeds.published with same | ⟨_, found, completed⟩
    · rcases ih alone (same ▸ published) rfl with ⟨earlier, member, there⟩
      exact ⟨earlier, .tail _ member, there⟩
    · rcases map_eq_some_iff.mp found with ⟨record, there, rfl⟩
      exact ⟨_, .head _, record, there, completed_of_asReceiver completed⟩

/-- In every run, a receiver that has completed a transfer has published exactly the bytes that the
sender's source handle yielded, and a sender that has completed it has a receiver that has completed
it, now or at some earlier moment. -/
theorem transfer_correct (run : StateMachine.Run network.everything (system :: history))
    (once : system.issued.filter (network.isNamesake issue) = [issue]) :
    (∀ record, network.recordAt issue system issue.party.other = some record →
      record.state = .completed →
        publications (system.filesAt issue.party.other (network.key issue issue.party.other)) ≠ [] ∧
        ∀ content ∈ publications
            (system.filesAt issue.party.other (network.key issue issue.party.other)),
          content = yields (system.filesAt issue.party (network.key issue issue.party))) ∧
    (∀ record, network.recordAt issue system issue.party = some record →
      record.state = .completed →
        ∃ earlier ∈ system :: history, ∃ record,
          network.recordAt issue earlier issue.party.other = some record ∧
            record.state = .completed) := by
  rcases single_of_once once with ⟨single, addressed⟩
  rcases run_delivery addressed run single with ⟨_, delivery⟩
  refine ⟨?_, ?_⟩
  · intro record found completed
    have present : (network.session issue system).receiver = some record.asReceiver :=
      congrArg (Option.map Record.asReceiver) found
    have phase : record.asReceiver.phase = .completed := by
      rw [Record.asReceiver_phase, completed]
      rfl
    refine ⟨delivery.completed record.asReceiver present (.inl phase), ?_⟩
    intro content member
    exact (delivery.published content member).1
  · intro record found completed
    have present : (network.session issue system).sender = some record.asSender :=
      congrArg (Option.map Record.asSender) found
    have phase : record.asSender.phase = .completed := by
      change record.state.phase = .completed
      rw [completed]
      rfl
    exact completed_of_published addressed run single (delivery.believed _ present phase)

/-- Two devices whose handles are fingerprints; the digest is that of the text that is sent. -/
def pair : Network String where
  fingerprint
    | .first => "aa"
    | .second => "bb"
  distinct := by decide
  owner := id
  sha256 _ := abcDigest

/-- What happens in the runs below: the second device offers files to a third one, the first device
offers a file to the second, the oldest message arrives, or the channel repeats it. -/
inductive Happening where
  | busy (count : ℕ)
  | offers
  | arrives (sender : String)
  | repeats

def Happening.action (data : Bytes) : Happening → Action String
  | .busy count => .operate .second (.sendFiles "cc" "cc" ((List.range count).map fun index =>
    ⟨.ofText "/other", .obliging 1 [0], fun _ => some (UInt64.ofNat (index + 100))⟩) 0)
  | .offers => .operate .first (.sendFiles "bb" "bb"
    [⟨.ofText "/abc", .obliging (UInt64.ofNat data.length) data, fun _ => some 7⟩] 0)
  | .arrives sender =>
    .deliver 0 (.obliging (UInt64.ofNat data.length) data) sender ⟨true, .ofText "/downloads"⟩ 1
  | .repeats => .duplicate 0

def pairAfter (data : Bytes) (happenings : List Happening) : System String :=
  pair.everything.after .initial (happenings.map (Happening.action data))

theorem pair_runs {happenings : List Happening}
    (passed : pair.everything.passes (Happening.action data)
      (fun system happening => pair.admits system (happening.action data)) .initial happenings =
        true) :
    ∃ history, Run pair.everything (pairAfter data happenings :: history) := by
  apply Run.of_follows
  apply Machine.Follows.of_passes _ passed
  intro _ _ admitted
  exact ⟨pair.enabled_of_admits admitted, trivial⟩

def issueAbc : Issue := ⟨.first, "bb", 7, "abc", 3⟩

def sendingAbc : List Happening :=
  .offers :: ["aa", "bb", "aa", "bb", "aa", "bb", "aa", "bb"].map .arrives

theorem transfer_correct_abc :
    (∀ content ∈ publications ((pairAfter (utf8 "abc") sendingAbc).filesAt .second ("aa", 7)),
      content = yields ((pairAfter (utf8 "abc") sendingAbc).filesAt .first ("bb", 7))) ∧
    yields ((pairAfter (utf8 "abc") sendingAbc).filesAt .first ("bb", 7)) = utf8 "abc" := by
  refine ⟨?_, by decide +kernel⟩
  rcases @pair_runs (utf8 "abc") sendingAbc (by decide +kernel) with ⟨_, run⟩
  have ended : (pair.recordAt issueAbc (pairAfter (utf8 "abc") sendingAbc) .second).map
      (·.state) = some .completed := by decide +kernel
  rcases Option.map_eq_some_iff.mp ended with ⟨record, found, completed⟩
  have once : (pairAfter (utf8 "abc") sendingAbc).issued.filter (pair.isNamesake issueAbc) =
      [issueAbc] := by decide +kernel
  exact ((transfer_correct run once).1 record found completed).2

theorem run_quiet (addressed : issue.fingerprint = network.fingerprint issue.party.other)
    (run : Run (network.machine (network.Calm issue)) (system :: history))
    (single : network.Single issue system) :
    network.Faithful issue system ∧
      Quiet (issue.protocol network.sha256) (network.session issue system) := by
  have excuse : ∀ system action, network.Calm issue system action →
      network.Calm issue system action ∨ False := fun _ _ calm => .inl calm
  rcases run_session excuse addressed run single with ⟨faithful, steps⟩
  let holds (session : Session UInt8 Digest) : Prop :=
    Delivery (issue.protocol network.sha256) session ∧ Quiet (issue.protocol network.sha256) session
  have keeps : ∀ session later, holds session →
      Step (issue.protocol network.sha256) False session later → holds later :=
    fun _ _ before step => ⟨before.1.step step, before.2.step before.1 step⟩
  exact ⟨faithful, (invariant_of_steps keeps steps ⟨.initial, .initial⟩).2⟩

theorem cached_of_asSender {offset : UInt64} (labelled : record.Labelled)
    (cached : record.asSender.cache = some (offset.toNat, maxManualFileChunkSize,
      .chunk offset.toNat data)) :
    record.cachedRequest = some (offset, UInt32.ofNat maxManualFileChunkSize) ∧
      record.cachedResponse = some (.manualFileChunk record.id offset data) := by
  simp only [Record.asSender, Option.bind_eq_bind, Option.bind_eq_some_iff, Option.pure_def,
    Option.some.injEq, Prod.mk.injEq] at cached
  rcases cached with ⟨⟨start, length⟩, asked, _, ⟨response, kept, shown⟩, same, limit, rfl⟩
  have first : start = offset := UInt64.toNat_inj.mp same
  have second : length = UInt32.ofNat maxManualFileChunkSize := UInt32.toNat_inj.mp limit
  refine ⟨?_, ?_⟩
  · rw [asked, first, second]
  · have about := labelled.cached response kept
    rw [kept]
    unfold toReceiver? at shown
    split at shown <;> simp only [Option.some.injEq, reduceCtorEq] at shown
    simp only [ToReceiver.chunk.injEq] at shown
    rw [← shown.2, UInt64.toNat_inj.mp shown.1, Option.some.inj about]

/-- In every run in which no timeout, decision, file error or eviction interferes with a transfer,
its peer stays reachable and its offer finds room, neither record fails, is cancelled or declined,
and the sender is level with the receiver or ahead by the chunk that it keeps for the request at the
receiver's position. -/
theorem undisturbed_transfer
    (run : StateMachine.Run (network.machine (network.Calm issue)) (system :: history))
    (once : system.issued.filter (network.isNamesake issue) = [issue]) :
    (∀ party record, network.recordAt issue system party = some record →
      record.state ≠ .failed ∧ record.state ≠ .cancelled ∧ record.state ≠ .declined) ∧
    ∀ sender receiver, network.recordAt issue system issue.party = some sender →
      network.recordAt issue system issue.party.other = some receiver →
        sender.transferred = receiver.transferred ∨
        ∃ data, sender.cachedRequest =
            some (receiver.transferred, UInt32.ofNat maxManualFileChunkSize) ∧
          sender.cachedResponse = some (.manualFileChunk issue.id receiver.transferred data) ∧
          sender.transferred.toNat = receiver.transferred.toNat + data.length := by
  rcases single_of_once once with ⟨single, addressed⟩
  rcases run_quiet addressed run single with ⟨faithful, quiet⟩
  have issued : (network.session issue system).issued = true := by
    apply decide_eq_true
    have member : issue ∈ system.issued.filter (network.isNamesake issue) := by
      rw [once]
      exact List.mem_singleton_self issue
    exact (List.mem_filter.mp member).1
  rcases quiet.running issued with ⟨sender, agreement⟩
  have receiving : ∀ record, network.recordAt issue system issue.party.other = some record →
      record.asReceiver.Keeping (issue.protocol network.sha256) := fun record found =>
    agreement.receiverKeeping _ (congrArg (Option.map Record.asReceiver) found)
  have sending : ∀ record, network.recordAt issue system issue.party = some record →
      record.asSender = sender := fun record found =>
    Option.some.inj ((congrArg (Option.map Record.asSender) found).symm.trans agreement.present)
  have alive : ∀ {record : Record P}, record.state.phase ≠ .ended →
      record.state ≠ .failed ∧ record.state ≠ .cancelled ∧ record.state ≠ .declined := by
    intro record phase
    refine ⟨?_, ?_, ?_⟩ <;> intro state <;> rw [state] at phase <;> exact phase rfl
  refine ⟨?_, ?_⟩
  · intro party record found
    apply alive
    rcases Party.eq_or_eq_other issue.party party with rfl | rfl
    · have going := agreement.sender_alive
      rw [← sending record found] at going
      exact going
    · have going := (receiving record found).alive
      rw [Record.asReceiver_phase] at going
      exact going
  · intro source target found there
    have same := sending source found
    subst same
    have keeping := receiving target there
    have live : target.state.phase ≠ .ended := by
      rw [← Record.asReceiver_phase]
      exact keeping.alive
    have place : target.asReceiver.position = target.transferred.toNat := by
      rw [Record.asReceiver_of_live live]
    have present : (network.session issue system).receiver = some target.asReceiver :=
      congrArg (Option.map Record.asReceiver) there
    have lag := agreement.lag present
    rw [Lag, place] at lag
    rcases lag with level | ⟨data, cached, ahead⟩
    · exact .inl (UInt64.toNat_inj.mp level)
    · right
      have labelled := (faithful.book issue.party).labelled _ source found
      have number : source.id = issue.id :=
        congrArg Prod.snd ((faithful.book issue.party).keyed _ source found)
      rcases cached_of_asSender labelled cached with ⟨asked, answered⟩
      rw [number] at answered
      exact ⟨data, asked, answered, ahead⟩

section Orderly

variable {P : Type} {network : Network P} {issue : Issue} {system : System P}

instance (record : Record P) (now : ℕ) : Decidable (record.Overdue now) :=
  inferInstanceAs (Decidable (_ ∧ _))

/-- Whether both devices still know the transfer after an action, if they did before. -/
def remembers (network : Network P) (issue : Issue) (system : System P) (action : Action P) :
    Bool :=
  [.first, .second].all fun party => (network.recordAt issue system party).isNone ||
    (network.recordAt issue (network.next system action) party).isSome

def showsSource (io : Io) (record : Record P) : Bool :=
  record.offer.all fun offer => (offer.sources.lookup 1).all fun source =>
    (io.metadata 0).toOption.all source.2.matchesMetadata

theorem kept_of_remembers {action : Action P}
    (remembered : remembers network issue system action = true) :
    ∀ party, network.recordAt issue system party ≠ none →
      network.recordAt issue (network.next system action) party ≠ none := by
  intro party there
  simp only [remembers, all_cons, all_nil, Bool.and_true, Bool.and_eq_true,
    Bool.or_eq_true, isNone_iff_eq_none, isSome_iff_ne_none] at remembered
  cases party with
  | first => exact remembered.1.resolve_left there
  | second => exact remembered.2.resolve_left there

theorem unspoiled_arrival {len : UInt64} {next : Bytes} {index : ℕ} {peer : P}
    {settings : FileReceiveSettings} {now : ℕ} (full : next ≠ [])
    (absolute : settings.downloadDirectory.isAbsolute = true)
    (remembered : remembers network issue system
      (.deliver index (.obliging len next) peer settings now) = true)
    (timely : (network.recordAt issue system issue.party).all (fun record =>
      !decide (record.Overdue now) && showsSource (.obliging len next) record) = true) :
    network.Unspoiled issue system (.deliver index (.obliging len next) peer settings now) := by
  refine ⟨kept_of_remembers remembered, ?_⟩
  intro _ _ _
  refine ⟨?_, ?_⟩
  · intro _ _ found
    simp only [found, all_some, Bool.and_eq_true, Bool.not_eq_true',
      decide_eq_false_iff_not] at timely
    refine ⟨timely.1, ?_⟩
    intro _ held
    rcases held.offered with ⟨_, _, _, present, _, _, _, _, source⟩
    apply Io.Serves.obliging full
    have shown := timely.2
    simp only [showsSource, present, all_some, source] at shown
    exact shown
  · intro _
    exact ⟨.obliging len next, fun _ _ => ⟨.obliging len next, absolute⟩⟩

end Orderly

def orderly (issue : Issue) (data : Bytes) (system : System String) (happening : Happening) :
    Bool :=
  pair.admits system (happening.action data) &&
    remembers pair issue system (happening.action data) &&
    (pair.recordAt issue system issue.party).all fun record =>
      !decide (record.Overdue 1) && showsSource (.obliging (UInt64.ofNat data.length) data) record

theorem unspoiled_of_orderly {system : System String} (full : data ≠ [])
    (checked : orderly issue data system happening = true) :
    pair.Enabled system (happening.action data) ∧
      pair.Unspoiled issue system (happening.action data) := by
  simp only [orderly, Bool.and_eq_true] at checked
  rcases checked with ⟨⟨admitted, remembered⟩, timely⟩
  refine ⟨pair.enabled_of_admits admitted, ?_⟩
  cases happening with
  | busy | offers => exact ⟨kept_of_remembers remembered, trivial⟩
  | arrives => exact unspoiled_arrival full (by decide) remembered timely
  | repeats => exact ⟨kept_of_remembers remembered, trivial⟩

def roomy (issue : Issue) (system : System String) : Bool :=
  (pair.recordAt issue system issue.party.other).isSome ||
    decide ((system.node issue.party.other).activeCount < maxRecords)

theorem accommodated_of_roomy {system : System String} (checked : roomy issue system = true) :
    pair.Accommodated issue system (happening.action data) := by
  cases happening with
  | arrives =>
    intro _ _ _ _ absent
    simp only [roomy, absent, isSome_none, Bool.false_or, decide_eq_true_eq] at checked
    exact checked
  | busy | offers | repeats => trivial

def servingAbc : List Happening := .offers :: ["aa", "bb", "aa", "bb"].map .arrives

theorem undisturbed_transfer_abc :
    ∃ sender receiver,
      pair.recordAt issueAbc (pairAfter (utf8 "abc") servingAbc) .first = some sender ∧
      pair.recordAt issueAbc (pairAfter (utf8 "abc") servingAbc) .second = some receiver ∧
      sender.transferred = 3 ∧ receiver.transferred = 0 ∧ sender.state ≠ .failed ∧
      ∃ data, sender.cachedResponse = some (.manualFileChunk 7 0 data) := by
  have passed : (pair.machine (pair.Calm issueAbc)).passes (Happening.action (utf8 "abc"))
      (fun system happening => orderly issueAbc (utf8 "abc") system happening &&
        roomy issueAbc system) .initial servingAbc = true := by decide +kernel
  have follows := StateMachine.Machine.Follows.of_passes (by
    intro _ _ checked
    simp only [Bool.and_eq_true] at checked
    have unspoiled := unspoiled_of_orderly (by decide) checked.1
    exact ⟨unspoiled.1, unspoiled.2, accommodated_of_roomy checked.2⟩) passed
  rcases StateMachine.Run.of_follows follows with ⟨_, run⟩
  have once : (pairAfter (utf8 "abc") servingAbc).issued.filter (pair.isNamesake issueAbc) =
      [issueAbc] := by decide +kernel
  have holds := undisturbed_transfer run once
  have first : (pair.recordAt issueAbc (pairAfter (utf8 "abc") servingAbc) .first).map
      (·.transferred) = some 3 := by decide +kernel
  have second : (pair.recordAt issueAbc (pairAfter (utf8 "abc") servingAbc) .second).map
      (·.transferred) = some 0 := by decide +kernel
  rcases Option.map_eq_some_iff.mp first with ⟨sender, found, ahead⟩
  rcases Option.map_eq_some_iff.mp second with ⟨receiver, there, behind⟩
  refine ⟨sender, receiver, found, there, ahead, behind, (holds.1 .first sender found).1, ?_⟩
  rcases holds.2 sender receiver found there with level | ⟨data, _, cached, _⟩
  · rw [ahead, behind] at level
    cases level
  · exact ⟨data, behind ▸ cached⟩

def refusingAbc : List Happening := [.busy 32, .offers, .arrives "aa", .arrives "bb"]

/-- No timeout, decision, file error or eviction interferes, and still the transfer fails: the
receiver has no room for it, and says so. -/
theorem transfer_refused :
    ∃ history, StateMachine.Run (pair.machine (pair.Unspoiled issueAbc))
        (pairAfter (utf8 "abc") refusingAbc :: history) ∧
      (pairAfter (utf8 "abc") refusingAbc).issued.filter (pair.isNamesake issueAbc) = [issueAbc] ∧
      (pair.recordAt issueAbc (pairAfter (utf8 "abc") refusingAbc) .first).map (·.state) =
        some .failed := by
  have passed : (pair.machine (pair.Unspoiled issueAbc)).passes (Happening.action (utf8 "abc"))
      (orderly issueAbc (utf8 "abc")) .initial refusingAbc = true := by decide +kernel
  have follows := StateMachine.Machine.Follows.of_passes
    (fun _ _ checked => unspoiled_of_orderly (by decide) checked) passed
  rcases StateMachine.Run.of_follows follows with ⟨history, run⟩
  exact ⟨history, run, by decide +kernel, by decide +kernel⟩

def isChunk : ProtoEvent → Bool
  | .manualFileChunk _ _ _ => true
  | _ => false

def chunksSent (issue : Issue) (system : System P) : List Packet :=
  system.sent.filter fun packet =>
    packet.target = issue.party.other ∧ issue.owns packet ∧ isChunk packet.event

theorem chunks_forReceiver (packets : List Packet) :
    chunks (issue.forReceiver packets) = (packets.filter fun packet =>
      packet.target = issue.party.other ∧ issue.owns packet ∧ isChunk packet.event).length := by
  induction packets with
  | nil => rfl
  | cons packet _ ih =>
    have one : chunks (issue.forReceiver [packet]) = ([packet].filter fun packet =>
        packet.target = issue.party.other ∧ issue.owns packet ∧ isChunk packet.event).length := by
      by_cases ours : packet.target = issue.party.other ∧ issue.owns packet = true
      · simp only [Issue.forReceiver, filterMap_cons, filterMap_nil,
          filter_cons, ours.1, ours.2, filter_nil]
        cases event : packet.event with
        | manualFileDecision id answer =>
          cases answer <;> simp [toReceiver?, isChunk, PullTransfer.chunks]
        | _ => simp [toReceiver?, isChunk, PullTransfer.chunks]
      · simp only [Issue.forReceiver, filterMap_cons, if_neg ours, filterMap_nil,
          PullTransfer.chunks]
        rw [filter_cons_of_neg, filter_nil, length_nil]
        simp only [decide_eq_true_eq]
        exact fun all => ours ⟨all.1, all.2.1⟩
    rw [← singleton_append, Issue.forReceiver_append, chunks_append, filter_append,
      length_append, one, ih]

def chunkCount (issue : Issue) : ℕ :=
  (issue.size.toNat + maxManualFileChunkSize - 1) / maxManualFileChunkSize

/-- In every run, the sender puts at most one round of the file's chunks on the channel for the
transfer itself, and one more for each message of the transfer that the channel duplicates or a
timer repeats. -/
theorem traffic_bounded (run : StateMachine.Run network.everything (system :: history))
    (once : system.issued.filter (network.isNamesake issue) = [issue]) :
    (chunksSent issue system).length ≤ chunkCount issue *
      (1 + (system.duplicated.filter issue.owns).length +
        (system.retried.filter issue.owns).length) := by
  rcases single_of_once once with ⟨single, addressed⟩
  have excuse : ∀ system action, True → network.Calm issue system action ∨ True :=
    fun _ _ _ => .inr trivial
  have steps := (run_session excuse addressed run single).2
  have traffic : Traffic (issue.protocol network.sha256) (network.session issue system) :=
    StateMachine.invariant_of_steps (fun _ _ before step => Traffic.step before step) steps .initial
  have spent := traffic.spent
  rw [show (network.session issue system).sent = (chunksSent issue system).length from
    chunks_forReceiver system.sent] at spent
  exact spent

def issueZeros : Issue := ⟨.first, "bb", 7, "abc", 1184⟩

def repeatingZeros : List Happening :=
  .offers :: ["aa", "bb"].map .arrives ++
    .repeats :: ["aa", "aa", "bb", "bb", "aa", "aa", "bb", "bb"].map .arrives

theorem traffic_bounded_zeros :
    (chunksSent issueZeros (pairAfter (List.replicate 1184 0) repeatingZeros)).length ≤ 4 := by
  rcases @pair_runs (List.replicate 1184 0) repeatingZeros (by decide +kernel) with ⟨_, run⟩
  have once : (pairAfter (List.replicate 1184 0) repeatingZeros).issued.filter
      (pair.isNamesake issueZeros) = [issueZeros] := by decide +kernel
  have bounded := traffic_bounded run once
  have duplicated : ((pairAfter (List.replicate 1184 0) repeatingZeros).duplicated.filter
      issueZeros.owns).length = 1 := by decide +kernel
  have retried : ((pairAfter (List.replicate 1184 0) repeatingZeros).retried.filter
      issueZeros.owns).length = 0 := by decide +kernel
  rw [duplicated, retried, show chunkCount issueZeros = 2 by decide] at bounded
  exact bounded

/-- One repeated message doubles the chunks: each of the two is sent twice, while the file has two
chunks, the channel repeats one message and no timer fires. -/
theorem traffic_doubles :
    ∃ history, StateMachine.Run pair.everything
        (pairAfter (List.replicate 1184 0) repeatingZeros :: history) ∧
      (pairAfter (List.replicate 1184 0) repeatingZeros).issued.filter
        (pair.isNamesake issueZeros) = [issueZeros] ∧
      chunkCount issueZeros + (pairAfter (List.replicate 1184 0) repeatingZeros).duplicated.length +
          (pairAfter (List.replicate 1184 0) repeatingZeros).retried.length <
        (chunksSent issueZeros (pairAfter (List.replicate 1184 0) repeatingZeros)).length := by
  rcases @pair_runs (List.replicate 1184 0) repeatingZeros (by decide +kernel) with ⟨history, run⟩
  exact ⟨history, run, by decide +kernel, by decide +kernel⟩

end Network

end Syntra.Manual
