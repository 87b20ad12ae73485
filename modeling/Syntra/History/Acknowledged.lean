import Syntra.History.Agreement

/-!
# How many have acknowledged a clear

The result of a clear names a number of peers that have acknowledged it. The coordinator does not
count them: it takes the number of participants, less those that are missing. Beside a service, a
`Tally` keeps the acknowledgements that were recorded and the participants that were given up.
-/

namespace Syntra.History

open ByteFormat Proto Store Reconciler ClearCoordinator Finset
open Service (Peer ClientHandle)
open Tables StateMachine

def acknowledgedBy : ProtoEvent → Option OperationId
  | .historyClearAck operationId _ _ => some operationId
  | _ => none

variable {operationId : OperationId}

theorem acknowledgedBy_eq_some {message : ProtoEvent} :
    acknowledgedBy message = some operationId ↔
      ∃ affected error, message = .historyClearAck operationId affected error := by
  cases message <;> simp [acknowledgedBy]

def recordedIn (was : Option (ClearCoordinator String)) (heard : Option (String × ProtoEvent)) :
    Option (OperationId × String) := do
  let (identity, message) ← heard
  let operationId ← acknowledgedBy message
  let clear ← was
  if clear.operationId = operationId ∧ clear.applying = true ∧ identity ∈ clear.awaitingAcks then
    some (operationId, identity)
  else
    none

theorem recordedIn_eq_some {was : Option (ClearCoordinator String)}
    {heard : Option (String × ProtoEvent)} {identity : String} :
    recordedIn was heard = some (operationId, identity) ↔
      ∃ clear affected error, was = some clear ∧
        heard = some (identity, .historyClearAck operationId affected error) ∧
          clear.operationId = operationId ∧ clear.applying = true ∧
            identity ∈ clear.awaitingAcks := by
  simp only [recordedIn, Option.bind_eq_bind, Option.bind_eq_some_iff,
    Option.ite_none_right_eq_some, Option.some.injEq, Prod.mk.injEq]
  constructor
  · rintro ⟨⟨_, _⟩, rfl, _, acknowledged, clear, rfl, conditions, rfl, rfl⟩
    rcases acknowledgedBy_eq_some.mp acknowledged with ⟨affected, error, rfl⟩
    exact ⟨clear, affected, error, rfl, rfl, conditions⟩
  · rintro ⟨clear, _, _, rfl, rfl, conditions⟩
    exact ⟨_, rfl, operationId, rfl, clear, rfl, conditions, rfl, rfl⟩

variable {Address : Type} [DecidableEq Address]

def Event.recorded (service : Reconciler Address) (event : Event Address) :
    Option (OperationId × String) :=
  recordedIn service.historyClear (event.heard service)

/-- A service with the acknowledgements recorded so far and the participants of the current clear
that are no longer waited for although they have not acknowledged it. -/
structure Tally (Address : Type) where
  service : Reconciler Address
  acks : List (OperationId × String)
  lost : Finset String

namespace Tally

def new (startedAt : UInt64) : Tally Address := ⟨.new startedAt, [], ∅⟩

variable (host : Host) (tally : Tally Address) (step : Surroundings Address × Event Address)

def effects : List (Effect Address) := (tally.service.handle host step.1 step.2).2

def lostAfter (later : Reconciler Address) : Finset String :=
  match tally.service.historyClear, later.historyClear with
  | some clear, some after =>
    if clear.applying then
      tally.lost ∪ ((clear.awaitingAcks \ after.awaitingAcks) \
        ((step.2.recorded tally.service).toList.map (·.2)).toFinset)
    else ∅
  | _, _ => ∅

def next : Tally Address where
  service := (tally.service.handle host step.1 step.2).1
  acks := tally.acks ++ (step.2.recorded tally.service).toList
  lost := tally.lostAfter step (tally.service.handle host step.1 step.2).1

def acknowledgers (operationId : OperationId) : Finset String :=
  ((tally.acks.filter (·.1 = operationId)).map (·.2)).toFinset

/-- Every result that a step reports counts no more peers than have acknowledged. -/
def Honest : Prop :=
  ∀ operationId affected acknowledged error,
    .notified (.historyClearResult (hexOperation operationId) affected acknowledged error) ∈
        tally.effects host step →
      acknowledged.toNat ≤ ((tally.next host step).acknowledgers operationId).card

def expires (clear : ClearCoordinator String) : Bool :=
  match step.2 with
  | .clearDeadline => clear.deadline ≤ step.1.now
  | _ => false

/-- When a clear ends, nobody has been given up while it was applied, or enough errors make up for
them; and when it ends before it was applied, either nobody had answered or everybody was lost. -/
def Meets : Prop :=
  ∀ clear ∈ tally.service.historyClear,
    (∀ ack ∈ step.2.recorded tally.service, clear.awaitingAcks = {ack.2} → tally.lost = ∅) ∧
      (expires step clear = true →
        if clear.applying = true then
          tally.lost = ∅ ∨ clear.awaitingAcks.card + tally.lost.card ≤ clear.errors.length
        else
          clear.awaitingBoundaries = clear.participants ∨ clear.peerCount ≤ clear.errors.length)

instance : Decidable (tally.Meets step) := by
  unfold Meets
  infer_instance

/-- A coordinator that handles any events, as long as the condition is met. -/
def coordinator (startedAt : UInt64) :
    Machine (Tally Address) (Surroundings Address × Event Address) where
  initial := .new startedAt
  enabled := Meets
  next := Tally.next host

end Tally

/-- A clear goes on as the one that it was. -/
structure Continues (earlier later : ClearCoordinator String) : Prop where
  operationId : later.operationId = earlier.operationId
  participants : later.participants = earlier.participants
  peerCount : later.peerCount = earlier.peerCount
  applying : later.applying = earlier.applying ∨ later.awaitingAcks = later.participants

variable (clear : ClearCoordinator String)
include clear

theorem Continues.refl : Continues clear clear :=
  ⟨rfl, rfl, rfl, .inl rfl⟩

variable (identity : String)

theorem continues_addBoundary (boundary : ClearBoundary) :
    Continues clear (clear.addBoundary identity boundary).1 := by
  unfold addBoundary
  split <;> exact ⟨rfl, rfl, rfl, .inl rfl⟩

theorem continues_addAck (affected : UInt64) (error : Option String) :
    Continues clear (clear.addAck identity affected error).1 := by
  unfold addAck
  split <;> exact ⟨rfl, rfl, rfl, .inl rfl⟩

theorem continues_peerLost : Continues clear (clear.peerLost identity) := by
  unfold peerLost
  split
  · exact ⟨rfl, rfl, rfl, .inl rfl⟩
  · split <;> exact ⟨rfl, rfl, rfl, .inl rfl⟩

omit clear

variable {around : Surroundings Address} {was begun : Option (ClearCoordinator String)}
  {heard : Option (String × ProtoEvent)}
  {outcome : Reconciler Address × List (Effect Address)}

theorem Reconciler.ClearStep.continues (step : ClearStep around was heard begun outcome)
    {clear : ClearCoordinator String} (later : outcome.1.historyClear = some clear) :
    begun = some clear ∨ ∃ earlier, was = some earlier ∧ Continues earlier clear := by
  cases step with
  | bystander same bystander =>
    exact .inr ⟨clear, same.symm.trans (bystander.kept.symm.trans later), .refl _⟩
  | answers kept | refuses kept | applies kept | clearsAlone kept | failsAlone kept =>
    exact .inr ⟨clear, kept.symm.trans later, .refl _⟩
  | starts new current => exact .inl (new.trans (current.symm.trans later))
  | @gathers after earlier identity entries current said now =>
    cases Option.some.inj (now.symm.trans later)
    exact .inr ⟨earlier, current, continues_addBoundary _ _ _⟩
  | @decides after earlier identity entries current said all ready affected now effects sends =>
    cases Option.some.inj (now.symm.trans later)
    have gathered := continues_addBoundary earlier identity (boundaryFromWire entries)
    rw [ready] at gathered
    exact .inr ⟨earlier, current, gathered.operationId, gathered.participants,
      gathered.peerCount, .inr rfl⟩
  | givesUp gone => cases gone.symm.trans later
  | @counts after earlier identity affected error current said applying now =>
    cases Option.some.inj (now.symm.trans later)
    exact .inr ⟨earlier, current, continues_addAck _ _ _ _⟩
  | finishes _ _ _ _ gone => cases gone.symm.trans later
  | @loses after earlier current identity now =>
    cases Option.some.inj (now.symm.trans later)
    exact .inr ⟨earlier, current, continues_peerLost _ _⟩
  | repeats current now => exact .inr ⟨clear, current.trans (now.symm.trans later), .refl _⟩

/-- Where the number in a result comes from. -/
inductive Counted (was : Option (ClearCoordinator String)) (heard : Option (String × ProtoEvent))
    (expired : ClearCoordinator String → Prop) : String → UInt32 → Prop
  | nobody (operation : String) : Counted was heard expired operation 0
  | everybody {clear : ClearCoordinator String} {identity : String} (current : was = some clear)
      (recorded : recordedIn was heard = some (clear.operationId, identity))
      (last : clear.awaitingAcks = {identity}) :
      Counted was heard expired (hexOperation clear.operationId) (UInt32.ofNat clear.peerCount)
  | others {clear : ClearCoordinator String} (current : was = some clear) (ended : expired clear) :
      Counted was heard expired (hexOperation clear.operationId)
        (UInt32.ofNat (clear.peerCount - max (if clear.applying then clear.awaitingAcks.card
          else clear.awaitingBoundaries.card) clear.errors.length))

def Counts (was : Option (ClearCoordinator String)) (heard : Option (String × ProtoEvent))
    (expired : ClearCoordinator String → Prop) (effects : List (Effect Address)) : Prop :=
  ∀ operation affected acknowledged error,
    .notified (.historyClearResult operation affected acknowledged error) ∈ effects →
      Counted was heard expired operation acknowledged

namespace Reconciler

variable {host : Host} {service : Reconciler Address} {expired : ClearCoordinator String → Prop}

section

omit [DecidableEq Address]

theorem counts_nil : Counts was heard expired ([] : List (Effect Address)) := by
  intro _ _ _ _ said
  cases said

theorem counts_of_others {effects : List (Effect Address)}
    (others : ∀ effect ∈ effects, ¬effect.OfClear) : Counts was heard expired effects :=
  fun _ _ _ _ said => absurd trivial (others _ said)

theorem counts_of_sent {effects : List (Effect Address)}
    (sent : ∀ effect ∈ effects, ∃ peer event, effect = .sent peer event) :
    Counts was heard expired effects := by
  intro _ _ _ _ said
  rcases sent _ said with ⟨_, _, same⟩
  cases same

theorem counts_of_nobody {operation : String} {affected : UInt64} {error : Option String} :
    Counts was heard expired
      [(.notified (.historyClearResult operation affected 0 error) : Effect Address)] := by
  intro _ _ _ _ said
  simp only [List.mem_singleton, Effect.notified.injEq,
    FrontendEvent.historyClearResult.injEq] at said
  rcases said with ⟨rfl, -, rfl, -⟩
  exact .nobody _

end

variable {identity : String} {affected : UInt64} {error : Option String} {operationId : OperationId}

theorem addAck_last {clear last : ClearCoordinator String}
    (done : clear.addAck identity affected error = (last, true)) :
    clear.awaitingAcks = {identity} ∧ last.peerCount = clear.peerCount := by
  unfold addAck at done
  split at done
  · rename_i awaited
    simp only [Prod.mk.injEq, decide_eq_true_eq] at done
    rcases done with ⟨rfl, none⟩
    refine ⟨?_, rfl⟩
    rw [← insert_erase awaited, none]
    rfl
  · cases done

omit [DecidableEq Address] in
theorem counts_receiveAck (same : service.historyClear = was)
    (said : heard = some (identity, .historyClearAck operationId affected error)) :
    Counts was heard expired (service.receiveAck identity operationId affected error).2 := by
  unfold receiveAck
  rw [same]
  cases current : was with
  | none => exact counts_nil
  | some clear =>
    dsimp only
    split
    · rename_i matching
      rcases matching with ⟨rfl, applying⟩
      cases added : clear.addAck identity affected error with
      | mk _ done =>
        cases done with
        | false => exact counts_nil
        | true =>
          rcases addAck_last added with ⟨only, counted⟩
          have awaited : identity ∈ clear.awaitingAcks := by
            rw [only]
            exact Finset.mem_singleton_self identity
          have recorded : recordedIn (some clear) heard = some (clear.operationId, identity) :=
            recordedIn_eq_some.mpr ⟨clear, affected, error, rfl, said, rfl, applying, awaited⟩
          intro _ _ _ _ reported
          simp only [if_true, List.mem_singleton, Effect.notified.injEq,
            FrontendEvent.historyClearResult.injEq] at reported
          rcases reported with ⟨rfl, -, rfl, -⟩
          rw [counted]
          exact .everybody rfl recorded only
    · exact counts_nil

theorem counts_applyEverywhere (clear : ClearCoordinator String) :
    Counts was heard expired (service.applyEverywhere host around clear).2 := by
  simp only [applyEverywhere, applyClear]
  cases service.history.clearUnpinnedThrough host.env (hexOperation clear.operationId)
      clear.boundary with
  | ok =>
    intro _ _ _ error said
    simp at said
  | error => exact counts_of_nobody

theorem counts_receiveBoundary {entries : List (String × UInt64)} :
    Counts was heard expired
      (service.receiveBoundary host around identity operationId entries).2 := by
  unfold receiveBoundary
  split
  · exact counts_nil
  dsimp only
  split
  · split
    · exact counts_applyEverywhere _
    · exact counts_nil
  · exact counts_nil

theorem counts_historyPeerLost (peer : Peer Address) :
    Counts was heard expired (service.historyPeerLost around peer).2 := by
  unfold historyPeerLost
  dsimp only
  split
  · split
    · apply counts_of_sent
      intro _ member
      simp only [Option.mem_toList, Option.map_eq_some_iff] at member
      rcases member with ⟨_, -, rfl⟩
      exact ⟨_, _, rfl⟩
    · exact counts_nil
  · exact counts_nil

theorem counts_startGlobalHistoryClear :
    Counts was heard expired (service.startGlobalHistoryClear host around).2 := by
  unfold startGlobalHistoryClear
  cases service.newClear host around with
  | error => exact counts_of_others (by simp [Effect.OfClear])
  | ok clear =>
    dsimp only
    split
    · simp only [finishLocalOnlyClear, applyClear]
      cases service.history.clearUnpinnedThrough host.env (hexOperation clear.operationId)
          clear.boundary with
      | ok | error error =>
        intro operation affected acknowledged error said
        simp only [List.mem_cons, reduceCtorEq, List.not_mem_nil, false_or, or_false] at said
        exact counts_of_nobody operation affected acknowledged error (List.mem_singleton.mpr said)
    · intro _ _ _ _ said
      simp at said

omit [DecidableEq Address] in
theorem counts_expireClear (same : service.historyClear = was)
    (expires : ∀ clear, was = some clear → clear.deadline ≤ around.now → expired clear) :
    Counts was heard expired (service.expireClear around).2 := by
  unfold expireClear
  rw [same]
  cases current : was with
  | none => exact counts_nil
  | some clear =>
    dsimp only
    split
    · rename_i ended
      intro _ _ _ _ said
      simp only [List.mem_singleton, Effect.notified.injEq,
        FrontendEvent.historyClearResult.injEq] at said
      rcases said with ⟨rfl, -, rfl, -⟩
      exact .others rfl (expires clear current ended)
    · exact counts_nil

theorem counts_handlePeerProtocol (same : service.historyClear = was) {peer : Peer Address}
    {event : ProtoEvent} (said : heard = (service.identityOf peer).map (·, event)) :
    Counts was heard expired (service.handlePeerProtocol host around peer event).2 := by
  unfold handlePeerProtocol
  split
  · exact counts_nil
  rename_i identity identified
  rw [identified, Option.map_some] at said
  split
  · exact counts_of_others (bystander_sendHistoryPage rfl _ _ _).others
  · exact counts_nil
  · exact counts_of_others (bystander_receiveChunk rfl _ _ _ _ _).others
  · exact counts_of_others (bystander_receivePageEnd rfl _ _ _).others
  · unfold answerBoundaryRequest
    split
    · intro operation affected acknowledged error reported
      simp at reported
    · exact counts_of_sent (by simp)
  · exact counts_receiveBoundary
  · simp only [receiveApply, applyClear]
    split
    · intro _ _ _ _ reported
      simp at reported
    · exact counts_of_sent (by simp)
  · exact counts_receiveAck same said
  · exact counts_nil

theorem counts_handle (host : Host) (service : Reconciler Address) (around : Surroundings Address)
    (event : Event Address) :
    Counts service.historyClear (event.heard service)
      (fun clear => Tally.expires (around, event) clear = true)
      (service.handle host around event).2 := by
  cases event with
  | connected => exact counts_of_sent (by simp [handle, requestHistorySync, requestPage])
  | disconnected => exact counts_historyPeerLost _
  | clipboardProtocol => exact counts_handlePeerProtocol rfl rfl
  | clipboard handle fingerprint =>
    have identified : ({ service with
        authenticatedCaptureFingerprints :=
          service.authenticatedCaptureFingerprints.insert handle fingerprint
        }).identityOf (.capture handle) = some fingerprint := AList.lookup_insert _
    apply counts_handlePeerProtocol
    · rfl
    · rw [identified]
      rfl
  | peerLost => exact counts_historyPeerLost _
  | peerStateChanged =>
    unfold handle
    dsimp only
    split
    · split
      · exact counts_nil
      · exact counts_of_sent (by simp [requestHistorySync, requestPage])
    · exact counts_historyPeerLost _
  | removeClient => exact counts_historyPeerLost _
  | recordLocalHistory =>
    unfold handle
    dsimp only
    split
    · exact counts_of_others (bystander_broadcastHistoryRecord _).others
    · exact counts_nil
  | clearGlobalHistory => exact counts_startGlobalHistoryClear
  | clearDeadline =>
    apply counts_expireClear rfl
    intro _ _ ended
    simpa [Tally.expires] using ended
  | _ => exact counts_nil

end Reconciler

namespace Tally

/-- Each participant of a clear that is being applied is waited for, has acknowledged it or was
given up. -/
structure Sound (tally : Tally Address) : Prop where
  counted : ∀ clear, tally.service.historyClear = some clear →
    clear.peerCount = clear.participants.card
  accounted : ∀ clear, tally.service.historyClear = some clear → clear.applying = true →
    ∀ identity ∈ clear.participants, identity ∈ clear.awaitingAcks ∨
      (clear.operationId, identity) ∈ tally.acks ∨ identity ∈ tally.lost

omit [DecidableEq Address] in
theorem sound_new (startedAt : UInt64) : (new startedAt : Tally Address).Sound := by
  constructor
  · intro clear current
    cases current
  · intro _ current
    cases current

variable {host : Host} {tally : Tally Address} {step : Surroundings Address × Event Address}
  {earlier clear : ClearCoordinator String} {identity : String}

theorem lost_next (current : tally.service.historyClear = some earlier)
    (later : (tally.next host step).service.historyClear = some clear)
    (applying : earlier.applying = true) :
    (tally.next host step).lost = tally.lost ∪ ((earlier.awaitingAcks \ clear.awaitingAcks) \
      ((step.2.recorded tally.service).toList.map (·.2)).toFinset) := by
  change tally.lostAfter step (tally.next host step).service = _
  rw [lostAfter, current, later]
  simp [applying]

theorem acknowledged_or_lost (current : tally.service.historyClear = some earlier)
    (later : (tally.next host step).service.historyClear = some clear)
    (applying : earlier.applying = true) (waited : identity ∈ earlier.awaitingAcks)
    (ended : identity ∉ clear.awaitingAcks) :
    (earlier.operationId, identity) ∈ (tally.next host step).acks ∨
      identity ∈ (tally.next host step).lost := by
  by_cases recorded : step.2.recorded tally.service = some (earlier.operationId, identity)
  · left
    change _ ∈ tally.acks ++ _
    simp [recorded]
  · right
    have silent : identity ∉ ((step.2.recorded tally.service).toList.map (·.2)).toFinset := by
      intro member
      simp only [List.mem_toFinset, List.mem_map, Option.mem_toList] at member
      rcases member with ⟨⟨_, _⟩, found, rfl⟩
      rcases recordedIn_eq_some.mp found with ⟨_, _, _, same, -, rfl, -⟩
      cases Option.some.inj (current.symm.trans same)
      exact recorded found
    rw [lost_next current later applying]
    simp [waited, ended, silent]

theorem Sound.next (sound : tally.Sound) : (tally.next host step).Sound := by
  have stepped := clearStep_handle host step.1 tally.service step.2
  refine ⟨?_, ?_⟩
  · intro clear later
    rcases stepped.continues later with begun | ⟨earlier, current, same⟩
    · rcases System.new_of_begins begun with ⟨now, operationId, peers, boundary, rfl⟩
      rfl
    · rw [same.peerCount, same.participants]
      exact sound.counted earlier current
  · intro clear later applying identity participant
    rcases stepped.continues later with begun | ⟨earlier, current, same⟩
    · rcases System.new_of_begins begun with ⟨_, operationId, _, _, rfl⟩
      cases applying
    rcases same.applying with kept | all
    · rw [kept] at applying
      rw [same.participants] at participant
      rw [same.operationId]
      rcases sound.accounted earlier current applying identity participant with
        waiting | acknowledged | gone
      · by_cases awaited : identity ∈ clear.awaitingAcks
        · exact .inl awaited
        · exact .inr (acknowledged_or_lost current later applying waiting awaited)
      · exact .inr (.inl (List.mem_append_left _ acknowledged))
      · refine .inr (.inr ?_)
        rw [lost_next current later applying]
        exact mem_union_left _ gone
    · rw [all]
      exact .inl participant

section

omit [DecidableEq Address]

theorem mem_acknowledgers :
    identity ∈ tally.acknowledgers operationId ↔ (operationId, identity) ∈ tally.acks := by
  simp [acknowledgers]

theorem Sound.card_le (sound : tally.Sound) (current : tally.service.historyClear = some clear)
    (applying : clear.applying = true) :
    clear.peerCount ≤ clear.awaitingAcks.card +
      (tally.acknowledgers clear.operationId).card + tally.lost.card := by
  rw [sound.counted clear current]
  have covered : clear.participants ⊆
      clear.awaitingAcks ∪ tally.acknowledgers clear.operationId ∪ tally.lost := by
    intro identity participant
    rw [mem_union, mem_union, mem_acknowledgers, or_assoc]
    exact sound.accounted clear current applying identity participant
  calc clear.participants.card
      ≤ (clear.awaitingAcks ∪ tally.acknowledgers clear.operationId ∪ tally.lost).card :=
        card_le_card covered
    _ ≤ (clear.awaitingAcks ∪ tally.acknowledgers clear.operationId).card + tally.lost.card :=
        card_union_le _ _
    _ ≤ _ := Nat.add_le_add_right (card_union_le _ _) _

end

theorem acknowledgers_mono (operationId : OperationId) :
    tally.acknowledgers operationId ⊆ (tally.next host step).acknowledgers operationId := by
  intro _ member
  rw [mem_acknowledgers] at member ⊢
  exact List.mem_append_left _ member

theorem Sound.card_le_of_last (sound : tally.Sound)
    (current : tally.service.historyClear = some clear)
    (recorded : step.2.recorded tally.service = some (clear.operationId, identity))
    (last : clear.awaitingAcks = {identity}) (none : tally.lost = ∅) :
    clear.peerCount ≤ ((tally.next host step).acknowledgers clear.operationId).card := by
  rcases recordedIn_eq_some.mp recorded with ⟨_, _, _, same, -, -, applying, -⟩
  cases Option.some.inj (current.symm.trans same)
  rw [sound.counted clear current]
  apply card_le_card
  intro participant member
  rcases sound.accounted clear current applying participant member with
    waiting | acknowledged | gone
  · rw [last, Finset.mem_singleton] at waiting
    rw [mem_acknowledgers, waiting]
    change _ ∈ tally.acks ++ _
    simp [recorded]
  · exact acknowledgers_mono _ (mem_acknowledgers.mpr acknowledged)
  · rw [none] at gone
    cases gone

theorem toNat_ofNat_le (count : ℕ) : (UInt32.ofNat count).toNat ≤ count := by
  exact Nat.mod_le _ _

theorem Sound.honest (sound : tally.Sound) (meets : tally.Meets step) : tally.Honest host step := by
  intro operationId _ _ _ said
  have counted := counts_handle host tally.service step.1 step.2 _ _ _ _ said
  generalize operation : hexOperation operationId = text at counted
  cases counted with
  | nobody => simp
  | @everybody clear identity current recorded last =>
    cases hexOperation_injective operation
    have none := (meets clear current).1 _ recorded last
    exact (toNat_ofNat_le _).trans (sound.card_le_of_last current recorded last none)
  | @others clear current ended =>
    cases hexOperation_injective operation
    have condition := (meets clear current).2 ended
    have more := card_le_card (@acknowledgers_mono _ _ host tally step clear.operationId)
    refine (toNat_ofNat_le _).trans (le_trans ?_ more)
    by_cases applying : clear.applying = true
    · rw [if_pos applying] at condition ⊢
      have bound := sound.card_le current applying
      rcases condition with none | enough
      · rw [none, card_empty] at bound
        omega
      · omega
    · rw [if_neg applying] at condition ⊢
      have counted := sound.counted clear current
      rcases condition with all | _
      · rw [all]
        omega
      · omega

end Tally

/-- In a run whose steps all meet the condition, every result counts no more peers than have
acknowledged the clear. -/
theorem acknowledged_of_meets {host : Host} {startedAt : UInt64}
    {before rest : List (Surroundings Address × Event Address)}
    {step : Surroundings Address × Event Address}
    (permitted : (Tally.coordinator host startedAt).Follows (.new startedAt)
      (before ++ step :: rest)) :
    ((Tally.coordinator host startedAt).after (.new startedAt) before).Honest host step := by
  have sound : ((Tally.coordinator host startedAt).after (.new startedAt) before).Sound :=
    Machine.after_keeps (fun _ _ sound => sound.next) (Tally.sound_new startedAt) before
  exact sound.honest (Machine.follows_append.mp permitted).2.1

def gatherSteps : List (Event ℕ) :=
  [.connected 0 "p", .connected 1 "q", .clearGlobalHistory,
    .clipboardProtocol 0 (.historyClearBoundary pairOperation []),
    .clipboardProtocol 1 (.historyClearBoundary pairOperation [])]

def ackOf (addr : ℕ) : Event ℕ := .clipboardProtocol addr (.historyClearAck pairOperation 0 none)

def coordinatorAfter (events : List (Event ℕ)) : Tally ℕ :=
  (Tally.coordinator (pairHosts "c") 0).after (.new 0) (events.map (pairAround, ·))

def resultOf : Effect ℕ → Option (String × UInt64 × UInt32 × Option String)
  | .notified (.historyClearResult operation affected acknowledged error) =>
    some (operation, affected, acknowledged, error)
  | _ => none

theorem resultOf_eq_some {effect : Effect ℕ} {operation : String} {affected : UInt64}
    {acknowledged : UInt32} {error : Option String}
    (result : resultOf effect = some (operation, affected, acknowledged, error)) :
    effect = .notified (.historyClearResult operation affected acknowledged error) := by
  unfold resultOf at result
  split at result
  · cases result
    rfl
  · cases result

theorem acknowledged_of_meets_pair :
    ((coordinatorAfter (gatherSteps ++ [ackOf 0])).effects (pairHosts "c")
        (pairAround, ackOf 1)).filterMap resultOf = [(hexOperation pairOperation, 0, 2, none)] ∧
      (coordinatorAfter (gatherSteps ++ [ackOf 0])).Honest (pairHosts "c")
        (pairAround, ackOf 1) := by
  have passes : (Tally.coordinator (pairHosts "c") 0).passes (pairAround, ·)
      (fun tally event => decide (tally.Meets (pairAround, event))) (.new 0)
      (gatherSteps ++ [ackOf 0] ++ [ackOf 1]) = true := by decide +kernel
  have checks : ∀ (tally : Tally ℕ) (event : Event ℕ),
      decide (tally.Meets (pairAround, event)) = true → tally.Meets (pairAround, event) :=
    fun _ _ => of_decide_eq_true
  have follows : (Tally.coordinator (pairHosts "c") 0).Follows (.new 0)
      ((gatherSteps ++ [ackOf 0] ++ [ackOf 1]).map (pairAround, ·)) := .of_passes checks passes
  exact ⟨by decide +kernel, acknowledged_of_meets follows⟩

/-- When `p` is lost and `q` acknowledges, two are counted. -/
theorem lost_is_counted :
    ¬(coordinatorAfter (gatherSteps ++ [.disconnected 0])).Honest (pairHosts "c")
      (pairAround, ackOf 1) := by
  intro honest
  have listed : (hexOperation pairOperation, 0, 2, some "peer disconnected during global clear") ∈
      ((coordinatorAfter (gatherSteps ++ [.disconnected 0])).effects (pairHosts "c")
        (pairAround, ackOf 1)).filterMap resultOf := by
    exact List.mem_singleton_self _
  rcases List.mem_filterMap.mp listed with ⟨_, member, result⟩
  rw [resultOf_eq_some result] at member
  have counted := honest _ _ _ _ member
  exact absurd counted (by decide)

end Syntra.History
