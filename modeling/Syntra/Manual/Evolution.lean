import Syntra.Manual.Transfers

/-!
# What can happen to a record

Every handler keeps the identity of the transfer and its route, leaves an ended transfer as it is
but for the retry clock, drops the files of a transfer that it ends, starts a transfer only before
its deadline, and sends at most one message, about the transfer and to its peer.
-/

namespace Syntra.Manual

open ByteFormat Proto Files List

variable {P : Type} {record later : Record P} {sha256 : Bytes → Digest} {io : Io} {now : ℕ}

def ManualAction.Addressed (peer : P) (id : UInt64) : ManualAction P → Prop
  | .send target event => target = peer ∧ transferId? event = some id
  | .notify _ => True

def sends (actions : List (ManualAction P)) : List ProtoEvent :=
  actions.filterMap fun action =>
    match action with
    | .send _ event => some event
    | .notify _ => none

@[simp]
theorem sends_nil : sends ([] : List (ManualAction P)) = [] :=
  rfl

@[simp]
theorem sends_append (first second : List (ManualAction P)) :
    sends (first ++ second) = sends first ++ sends second :=
  filterMap_append

@[simp]
theorem sends_send (peer : P) (event : ProtoEvent) (actions : List (ManualAction P)) :
    sends (.send peer event :: actions) = event :: sends actions :=
  rfl

@[simp]
theorem sends_notify (event : FrontendEvent) (actions : List (ManualAction P)) :
    sends (.notify event :: actions) = sends actions :=
  rfl

def Brief (actions : List (ManualAction P)) : Prop :=
  (sends actions).length ≤ 1

@[simp]
theorem brief_nil : Brief ([] : List (ManualAction P)) :=
  Nat.zero_le 1

@[simp]
theorem brief_append_notify {actions : List (ManualAction P)} (event : FrontendEvent) :
    Brief (actions ++ [.notify event]) ↔ Brief actions := by
  simp [Brief]

@[simp]
theorem brief_notify_cons {actions : List (ManualAction P)} (event : FrontendEvent) :
    Brief (.notify event :: actions) ↔ Brief actions :=
  Iff.rfl

@[simp]
theorem brief_send {actions : List (ManualAction P)} (peer : P) (event : ProtoEvent) :
    Brief (.send peer event :: actions) ↔ sends actions = [] := by
  simp [Brief]

namespace Record

/-- No handle is left open and no partial file is kept. -/
structure Released (record : Record P) : Prop where
  offer : record.offer = none
  outgoing : record.outgoing = none
  incoming : record.incoming = none
  replacement : record.replacement = none

/-- What a record sends again names its transfer. -/
structure Labelled (record : Record P) : Prop where
  retry : ∀ event, record.retryEvent = some event → transferId? event = some record.id
  cached : ∀ event, record.cachedResponse = some event → transferId? event = some record.id

/-- What no operation changes, and what none changes after the end. -/
structure Evolves (record later : Record P) : Prop where
  fingerprint : later.fingerprint = record.fingerprint
  id : later.id = record.id
  name : later.name = record.name
  size : later.size = record.size
  direction : later.direction = record.direction
  approvalDeadline : later.approvalDeadline = record.approvalDeadline
  settled : isTerminal record.state = true → later =
    { record with
      peer := later.peer, retries := later.retries, lastActivity := later.lastActivity }
  released : isTerminal record.state = false → isTerminal later.state = true → later.Released

/-- A transfer starts only while its deadline lies ahead. -/
def StartsInTime (now : ℕ) (record later : Record P) : Prop :=
  later.state = .transferring → record.state ≠ .transferring → now < record.approvalDeadline

theorem StartsInTime.of_state (same : later.state = record.state) :
    record.StartsInTime now later :=
  fun transferring idle => absurd (same ▸ transferring) idle

theorem StartsInTime.of_ended (ended : isTerminal later.state = true) :
    record.StartsInTime now later := by
  intro transferring
  rw [transferring] at ended
  cases ended

/-- A record is active at the time of an operation, or was before. -/
def Active (now : ℕ) (record later : Record P) : Prop :=
  later.lastActivity = record.lastActivity ∨ later.lastActivity = now

/-- The common contract of the handlers. -/
structure Proper (now : ℕ) (record : Record P) (reply : Reply P) : Prop where
  evolves : record.Evolves reply.record
  peer : reply.record.peer = record.peer
  labelled : reply.record.Labelled
  addressed : ∀ action ∈ reply.actions, action.Addressed record.peer record.id
  brief : Brief reply.actions
  inTime : record.StartsInTime now reply.record
  active : record.Active now reply.record

@[simp]
theorem transferId?_offerResponse (record : Record P) :
    transferId? record.offerResponse = some record.id := by
  unfold offerResponse
  split <;> rfl

theorem addressed_notify (peer : P) (id : UInt64) (record : Record P) :
    record.notify.Addressed peer id :=
  trivial

namespace Evolves

theorem refl (record : Record P) : record.Evolves record :=
  ⟨rfl, rfl, rfl, rfl, rfl, rfl, fun _ => rfl, fun live ended => by simp [live] at ended⟩

variable (live : isTerminal record.state = false)
include live

theorem of_live (alive : isTerminal later.state = false)
    (fingerprint : later.fingerprint = record.fingerprint) (id : later.id = record.id)
    (name : later.name = record.name) (size : later.size = record.size)
    (direction : later.direction = record.direction)
    (approvalDeadline : later.approvalDeadline = record.approvalDeadline) : record.Evolves later :=
  ⟨fingerprint, id, name, size, direction, approvalDeadline,
    fun ended => by simp [live] at ended, fun _ ended => by simp [alive] at ended⟩

theorem terminal (state : ManualTransferState) (error : Option String) :
    record.Evolves (record.terminal state error now) :=
  ⟨rfl, rfl, rfl, rfl, rfl, rfl, fun ended => by simp [live] at ended,
    fun _ _ => ⟨rfl, rfl, rfl, rfl⟩⟩

theorem settle (state : ManualTransferState) (error : Option String)
    (finalResult : Option (Bool × Option String)) :
    record.Evolves (record.settle state error finalResult now) :=
  ⟨rfl, rfl, rfl, rfl, rfl, rfl, fun ended => by simp [live] at ended,
    fun _ _ => ⟨rfl, rfl, rfl, rfl⟩⟩

omit live

theorem trans_live {middle : Record P} (first : record.Evolves middle)
    (alive : isTerminal middle.state = false) (second : middle.Evolves later)
    (live : isTerminal record.state = false) : record.Evolves later :=
  ⟨second.fingerprint.trans first.fingerprint, second.id.trans first.id,
    second.name.trans first.name, second.size.trans first.size,
    second.direction.trans first.direction,
    second.approvalDeadline.trans first.approvalDeadline,
    fun ended => by simp [live] at ended, fun _ => second.released alive⟩

end Evolves

theorem Labelled.reroute (labelled : record.Labelled) (peer : P) : (record.reroute peer).Labelled :=
  ⟨labelled.retry, labelled.cached⟩

theorem Evolves.reroute (record : Record P) (peer : P) : record.Evolves (record.reroute peer) :=
  ⟨rfl, rfl, rfl, rfl, rfl, rfl, fun _ => rfl, fun live ended => by
    simp [Record.reroute, live] at ended⟩

theorem Evolves.of_reroute {peer : P} (evolves : (record.reroute peer).Evolves later) :
    record.Evolves later :=
  ⟨evolves.fingerprint, evolves.id, evolves.name, evolves.size, evolves.direction,
    evolves.approvalDeadline, evolves.settled, evolves.released⟩

theorem Labelled.of_none (retry : record.retryEvent = none)
    (cached : record.cachedResponse = none) : record.Labelled :=
  ⟨by simp [retry], by simp [cached]⟩

theorem Labelled.of_settle (record : Record P) (state : ManualTransferState)
    (error : Option String) (finalResult : Option (Bool × Option String)) :
    (record.settle state error finalResult now).Labelled := by
  refine ⟨?_, by simp [settle, terminal]⟩
  intro _ due
  cases due
  rw [transferId?_offerResponse]
  rfl

theorem Labelled.of_terminal (record : Record P) (state : ManualTransferState)
    (error : Option String) : (record.terminal state error now).Labelled := by
  refine ⟨?_, by simp [terminal]⟩
  intro _ due
  cases state with
  | declined | cancelled =>
    cases due
    rfl
  | _ => cases due

namespace Proper

theorem same (labelled : record.Labelled) : record.Proper now ⟨record, [], []⟩ :=
  ⟨.refl record, rfl, labelled, by simp, brief_nil, .of_state rfl, .inl rfl⟩

theorem tells {event : ProtoEvent} (labelled : record.Labelled)
    (about : transferId? event = some record.id) :
    record.Proper now ⟨record, [.send record.peer event], []⟩ := by
  refine ⟨.refl record, rfl, labelled, ?_, le_rfl, .of_state rfl, .inl rfl⟩
  exact forall_mem_singleton.mpr ⟨rfl, about⟩

variable {actions : List (ManualAction P)} {files : List FileEvent}

variable (live : isTerminal record.state = false)
include live

theorem ends {state : ManualTransferState} (error : Option String) (ended : isTerminal state = true)
    (addressed : ∀ action ∈ actions, action.Addressed record.peer record.id)
    (brief : Brief actions) :
    record.Proper now ⟨record.terminal state error now, actions, files⟩ :=
  ⟨.terminal live state error, rfl, .of_terminal record state error, addressed, brief,
    .of_ended ended, .inr rfl⟩

theorem settles {state : ManualTransferState} (error : Option String)
    (finalResult : Option (Bool × Option String)) (ended : isTerminal state = true)
    (addressed : ∀ action ∈ actions, action.Addressed record.peer record.id)
    (brief : Brief actions) :
    record.Proper now ⟨record.settle state error finalResult now, actions, files⟩ :=
  ⟨.settle live state error finalResult, rfl, .of_settle record state error finalResult, addressed,
    brief, .of_ended ended, .inr rfl⟩

omit live in
theorem addressed_pair {first second : ManualAction P} (one : first.Addressed record.peer record.id)
    (other : second.Addressed record.peer record.id) :
    ∀ action ∈ [first, second], action.Addressed record.peer record.id := by
  intro _ member
  rcases mem_pair.mp member with rfl | rfl
  · exact one
  · exact other

theorem fail (error : String) (files : List FileEvent) :
    record.Proper now (record.fail error now files) := by
  exact settles live _ _ rfl (addressed_pair trivial ⟨rfl, rfl⟩) le_rfl

omit live in
theorem trans_live {middle : Record P} {reply : Reply P} (second : middle.Proper now reply)
    (live : isTerminal record.state = false) (first : record.Evolves middle)
    (same : middle.peer = record.peer) (state : middle.state = record.state)
    (active : record.Active now middle) : record.Proper now reply := by
  have alive : isTerminal middle.state = false := state ▸ live
  refine ⟨first.trans_live alive second.evolves live, second.peer.trans same, second.labelled, ?_,
    second.brief, ?_, ?_⟩
  · rw [← same, ← first.id]
    exact second.addressed
  · rw [StartsInTime, ← state, ← first.approvalDeadline]
    exact second.inTime
  · rcases second.active with kept | new
    · exact active.imp kept.trans kept.trans
    · exact .inr new

omit live in
theorem progress (proper : record.Proper now ⟨later, actions, files⟩)
    (live : isTerminal record.state = false) (alive : isTerminal later.state = false) :
    record.Proper now (later.progress now actions files) := by
  unfold Record.progress
  split
  · refine ⟨proper.evolves.trans_live alive (.of_live alive alive rfl rfl rfl rfl rfl rfl) live,
      proper.peer, ⟨proper.labelled.retry, proper.labelled.cached⟩, ?_,
      (brief_append_notify _).mpr proper.brief, proper.inTime, proper.active⟩
    intro action member
    rcases mem_append.mp member with earlier | last
    · exact proper.addressed action earlier
    · rw [mem_singleton.mp last]
      trivial
  · exact proper

omit live in
theorem decision (answer : ManualDecision) (labelled : record.Labelled) :
    record.Proper now (record.decision answer now) := by
  unfold Record.decision
  split
  · exact same labelled
  · rename_i live
    simp only [Bool.not_eq_true] at live
    split
    · split
      · exact same labelled
      · exact ⟨.of_live live rfl rfl rfl rfl rfl rfl rfl, rfl, ⟨by simp, labelled.cached⟩,
          by simp [addressed_notify], Nat.zero_le 1, nofun, .inl rfl⟩
    · split
      · exact fail live _ _
      · rename_i timely
        dsimp only
        split
        · refine ⟨.of_live live rfl rfl rfl rfl rfl rfl rfl, rfl, ⟨by simp, labelled.cached⟩,
            addressed_pair ⟨rfl, rfl⟩ trivial, le_rfl, fun _ idle => ?_, .inr rfl⟩
          exact Nat.lt_of_not_le fun late => timely ⟨late, idle⟩
        · exact tells labelled rfl
    · split
      · refine ⟨.of_live live live rfl rfl rfl rfl rfl rfl, rfl, ⟨?_, labelled.cached⟩,
          forall_mem_singleton.mpr ⟨rfl, rfl⟩, le_rfl, .of_state rfl, ?_⟩
        · intro _ due
          cases due
          rfl
        · unfold Active
          dsimp only
          split
          · exact .inr rfl
          · exact .inl rfl
      · exact same labelled
    · exact ends live _ rfl (by simp [addressed_notify]) (Nat.zero_le 1)
    · exact same labelled
    · exact same labelled

theorem of_readSource {source : OutgoingFile} {offset : UInt64} {length : UInt32}
    {response : ProtoEvent}
    (read : record.readSource sha256 io source offset length = (.ok (response, later), files)) :
    record.Evolves later ∧ later.peer = record.peer ∧ later.state = record.state ∧
      transferId? response = some record.id := by
  unfold readSource at read
  split at read
  · split at read
    · cases read
      exact ⟨.of_live live live rfl rfl rfl rfl rfl rfl, rfl, rfl, rfl⟩
    · cases read
  · split at read
    · split at read
      · cases read
        exact ⟨.of_live live live rfl rfl rfl rfl rfl rfl, rfl, rfl, rfl⟩
      · cases read
    · cases read
    · cases read

theorem answerRequest (source : OutgoingFile) (offset : UInt64) (length : UInt32) :
    record.Proper now (record.answerRequest sha256 io source offset length now) := by
  unfold Record.answerRequest
  split
  · exact fail live _ _
  · rename_i response later files read
    rcases of_readSource live read with ⟨evolves, peer, state, about⟩
    have alive : isTerminal later.state = false := by
      rw [state]
      exact live
    apply progress _ live
    · exact alive
    · refine ⟨evolves.trans_live alive (.of_live alive alive rfl rfl rfl rfl rfl rfl) live, peer,
        ⟨?_, ?_⟩, forall_mem_singleton.mpr ⟨peer, about⟩, le_rfl, .of_state state, .inr rfl⟩
      · intro event due
        unfold cacheResponse at due
        split at due
        · cases due
          exact about.trans (congrArg some evolves.id.symm)
        · cases due
      · intro _ due
        cases due
        exact about.trans (congrArg some evolves.id.symm)

theorem serve (offset : UInt64) (length : UInt32) :
    record.Proper now (record.serve sha256 io offset length now) := by
  unfold Record.serve
  split
  · exact fail live _ _
  · refine trans_live (answerRequest ?_ _ offset length) live
      (.of_live live live rfl rfl rfl rfl rfl rfl) rfl rfl (.inl rfl)
    exact live

omit live

variable (labelled : record.Labelled)
include labelled

theorem sendChunk (offset : UInt64) (length : UInt32) :
    record.Proper now (record.sendChunk sha256 io offset length now) := by
  unfold Record.sendChunk
  split
  · exact same labelled
  · rename_i live
    simp only [Bool.not_eq_true] at live
    split
    · exact tells labelled rfl
    · split
      · exact fail live _ _
      · dsimp only
        split
        · rename_i response cached
          refine ⟨.of_live live live rfl rfl rfl rfl rfl rfl, rfl,
            ⟨labelled.retry, labelled.cached⟩, ?_, le_rfl, .of_state rfl, .inr rfl⟩
          intro _ member
          rw [mem_singleton.mp member]
          refine ⟨rfl, labelled.cached response ?_⟩
          split at cached
          · exact cached
          · cases cached
        · split
          · exact same labelled
          · split
            · exact fail live _ _
            · exact serve live offset length

theorem askUser : record.Proper now record.askUser := by
  refine ⟨.refl record, rfl, labelled, ?_, le_rfl, .of_state rfl, .inl rfl⟩
  simp [Record.askUser, ManualAction.Addressed, Record.send, Record.notify, transferId?]

theorem prepareReceiver (directory : PathBuf) (automatic : Bool) :
    record.Proper now (record.prepareReceiver io directory now automatic) := by
  unfold Record.prepareReceiver
  split
  · exact same labelled
  · rename_i waiting
    have live : isTerminal record.state = false := by
      simp only [not_or, not_not] at waiting
      simp [waiting.2, isTerminal]
    split
    · exact fail live _ _
    · rename_i timely
      split
      · refine ⟨.of_live live rfl rfl rfl rfl rfl rfl rfl, rfl, ⟨?_, labelled.cached⟩,
          addressed_pair ⟨rfl, rfl⟩ trivial, le_rfl, fun _ _ => Nat.lt_of_not_le timely, .inr rfl⟩
        intro _ due
        cases due
        rfl
      · dsimp only
        split
        · refine trans_live (askUser ?_) live (.of_live live live rfl rfl rfl rfl rfl rfl)
            rfl rfl (.inl rfl)
          exact ⟨labelled.retry, labelled.cached⟩
        · split
          · exact settles live _ _ rfl (addressed_pair ⟨rfl, rfl⟩ trivial) le_rfl
          · exact ⟨.of_live live live rfl rfl rfl rfl rfl rfl, rfl,
              ⟨labelled.retry, labelled.cached⟩, by simp [addressed_notify], Nat.zero_le 1,
              .of_state rfl, .inl rfl⟩

omit labelled in
theorem redirect (peer : P) (id : UInt64) (directory : PathBuf) (action : ManualAction P) :
    (redirect directory action).Addressed peer id ↔ action.Addressed peer id := by
  unfold Record.redirect
  split
  · exact Iff.rfl
  · exact Iff.rfl

omit labelled in
theorem sends_redirect (directory : PathBuf) (actions : List (ManualAction P)) :
    sends (actions.map (Record.redirect directory)) = sends actions := by
  rw [sends, filterMap_map]
  congr 1
  funext action
  cases action with
  | send => rfl
  | notify event => cases event <;> rfl

theorem overwrite (directory : PathBuf) :
    record.Proper now (record.overwrite io directory now) := by
  unfold Record.overwrite
  split
  · exact same labelled
  · rename_i waiting
    have live : isTerminal record.state = false := by
      simp only [not_or, not_not] at waiting
      simp [waiting.2, isTerminal]
    dsimp only
    split
    · rename_i staging made
      have prepared : record.Proper now (record.prepareReceiver io staging now false) :=
        prepareReceiver labelled staging false
      split
      · rename_i transferring
        have alive :
            isTerminal (record.prepareReceiver io staging now false).record.state = false := by
          rw [transferring]
          rfl
        refine ⟨prepared.evolves.trans_live alive
            (.of_live alive alive rfl rfl rfl rfl rfl rfl) live,
          prepared.peer, ⟨prepared.labelled.retry, prepared.labelled.cached⟩, ?_, ?_,
          prepared.inTime, prepared.active⟩
        · intro _ member
          rcases mem_map.mp member with ⟨original, listed, rfl⟩
          exact (redirect _ _ _ _).mpr (prepared.addressed original listed)
        · rw [Brief, sends_redirect]
          exact prepared.brief
      · exact prepared
    · exact ⟨.of_live live live rfl rfl rfl rfl rfl rfl, rfl, ⟨labelled.retry, labelled.cached⟩,
        by simp [addressed_notify], Nat.zero_le 1, .of_state rfl, .inl rfl⟩

omit labelled in
theorem finishReceiver (live : isTerminal record.state = false) (incoming : IncomingTransfer)
    (digest : Digest) :
    record.Proper now (record.finishReceiver sha256 io incoming digest now) := by
  unfold Record.finishReceiver
  dsimp only
  split
  · exact fail live _ _
  · split
    · exact fail live _ _
    · exact settles live _ _ rfl (addressed_pair ⟨rfl, rfl⟩ trivial) le_rfl

omit labelled in
theorem chunkWritten (live : isTerminal record.state = false) (labelled : record.Labelled)
    (incoming : IncomingTransfer) :
    record.Proper now (record.chunkWritten sha256 io incoming now) := by
  unfold Record.chunkWritten
  split
  · refine trans_live (finishReceiver ?_ _ _) live
      (.of_live live live rfl rfl rfl rfl rfl rfl) rfl rfl (.inl rfl)
    exact live
  · apply progress _ live
    · exact live
    · refine ⟨.of_live live live rfl rfl rfl rfl rfl rfl, rfl, ⟨?_, labelled.cached⟩,
        forall_mem_singleton.mpr ⟨rfl, rfl⟩, le_rfl, .of_state rfl, .inl rfl⟩
      intro _ due
      cases due
      rfl

theorem writeChunk (offset : UInt64) (data : Bytes) :
    record.Proper now (record.writeChunk sha256 io offset data now) := by
  unfold Record.writeChunk
  split
  · exact same labelled
  · split
    · split
      · exact tells labelled (transferId?_offerResponse record)
      · exact same labelled
    · rename_i live
      simp only [Bool.not_eq_true] at live
      split
      · split
        · exact fail live _ _
        · split
          · exact fail live _ _
          · split
            · split
              · exact fail live _ _
              · exact tells labelled rfl
            · split
              · exact fail live _ _
              · refine trans_live (chunkWritten ?_ ?_ _) live
                  (.of_live live live rfl rfl rfl rfl rfl rfl) rfl rfl (.inr rfl)
                · exact live
                · exact ⟨labelled.retry, labelled.cached⟩
      · exact tells labelled rfl

theorem completeReceiver (digest : Digest) :
    record.Proper now (record.completeReceiver sha256 io digest now) := by
  unfold Record.completeReceiver
  split
  · exact same labelled
  · split
    · exact tells labelled (transferId?_offerResponse record)
    · rename_i live
      simp only [Bool.not_eq_true] at live
      split
      · split
        · split
          · exact fail live _ _
          · exact ⟨.of_live live live rfl rfl rfl rfl rfl rfl, rfl,
              ⟨labelled.retry, labelled.cached⟩, forall_mem_singleton.mpr ⟨rfl, rfl⟩, le_rfl,
              .of_state rfl, .inl rfl⟩
        · exact finishReceiver live _ _
      · exact tells labelled rfl

theorem receiveResult (success : Bool) (error : Option String) :
    record.Proper now (record.receiveResult success error now) := by
  unfold Record.receiveResult
  split
  · exact same labelled
  · rename_i live
    simp only [Bool.not_eq_true] at live
    split
    · exact settles live _ _ rfl (by simp [addressed_notify]) (Nat.zero_le 1)
    · split
      · exact settles live _ _ rfl (by simp [addressed_notify]) (Nat.zero_le 1)
      · exact same labelled

theorem receiveCancel : record.Proper now (record.receiveCancel now) := by
  unfold Record.receiveCancel
  split
  · exact same labelled
  · rename_i live
    simp only [Bool.not_eq_true] at live
    exact ends live _ rfl (by simp [addressed_notify]) (Nat.zero_le 1)

theorem handle (event : ProtoEvent) : record.Proper now (record.handle sha256 io event now) := by
  unfold Record.handle
  split
  · exact decision _ labelled
  · exact sendChunk labelled _ _
  · exact writeChunk labelled _ _
  · exact completeReceiver labelled _
  · exact receiveResult labelled _ _
  · exact receiveCancel labelled
  · exact same labelled

theorem decline : record.Proper now (record.decline now) := by
  unfold Record.decline
  split
  · rename_i waiting
    have live : isTerminal record.state = false := by simp [waiting.2, isTerminal]
    exact ends live _ rfl (addressed_pair ⟨rfl, rfl⟩ trivial) le_rfl
  · exact same labelled

theorem cancel : record.Proper now (record.cancel now) := by
  unfold Record.cancel
  split
  · rename_i live
    simp only [Bool.not_eq_true] at live
    exact ends live _ rfl (addressed_pair ⟨rfl, rfl⟩ trivial) le_rfl
  · exact same labelled

omit labelled

theorem retry (labelled : record.Labelled) : record.Proper now (record.retry now) := by
  refine ⟨?_, rfl, ⟨labelled.retry, labelled.cached⟩, ?_, ?_, .of_state rfl, .inr rfl⟩
  · exact ⟨rfl, rfl, rfl, rfl, rfl, rfl, fun _ => rfl, fun live ended => by
      simp [Record.retry, live] at ended⟩
  · intro _ member
    simp only [Record.retry, Option.mem_toList, Option.map_eq_some_iff] at member
    rcases member with ⟨event, due, rfl⟩
    exact ⟨rfl, labelled.retry event due⟩
  · unfold Record.retry
    dsimp only
    cases record.retryEvent with
    | none => exact brief_nil
    | some => exact le_rfl

theorem expire (live : isTerminal record.state = false) (error : String) :
    record.Proper now (record.expire error now) :=
  ends live _ rfl (addressed_pair ⟨rfl, rfl⟩ trivial) le_rfl

theorem tick (labelled : record.Labelled) : record.Proper now (record.tick now) := by
  unfold Record.tick
  split
  · split
    · exact retry labelled
    · exact same labelled
  · rename_i live
    simp only [Bool.not_eq_true] at live
    split
    · exact expire live _
    · split
      · split
        · exact expire live _
        · exact retry labelled
      · exact same labelled

end Proper

theorem tick_evolves (record : Record P) (labelled : record.Labelled) :
    record.Evolves (record.tick now).record ∧ (record.tick now).record.Labelled := by
  have kept : record.Proper now (record.tick now) := .tick labelled
  exact ⟨kept.evolves, kept.labelled⟩

theorem refresh_evolves (labelled : record.Labelled) (route : Option P) :
    record.Evolves (record.refresh route now).record ∧
      (record.refresh route now).record.Labelled ∧
      (record.refresh route now).record.peer = route.getD record.peer := by
  unfold refresh
  split
  · exact ⟨.reroute record _, labelled.reroute _, rfl⟩
  · split
    · rename_i live
      simp only [Bool.not_eq_true] at live
      exact ⟨.terminal live _ _, .of_terminal _ _ _, rfl⟩
    · exact ⟨.refl record, labelled, rfl⟩

end Record

def OfferedFile.reply (io : Io) (offer : OfferedFile P) (settings : FileReceiveSettings)
    (now : ℕ) : Reply P :=
  if settings.autoAccept then
    (offer.record settings now).prepareReceiver io settings.downloadDirectory now true
  else
    (offer.record settings now).askUser

theorem OfferedFile.reply_proper (io : Io) (offer : OfferedFile P) (settings : FileReceiveSettings)
    (now : ℕ) : (offer.record settings now).Proper now (offer.reply io settings now) := by
  have labelled : (offer.record settings now).Labelled := .of_none rfl rfl
  unfold OfferedFile.reply
  split
  · exact .prepareReceiver labelled _ _
  · exact .askUser labelled

end Syntra.Manual
