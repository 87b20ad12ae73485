import Syntra.Manual.Bookkeeping

/-!
# Approval in time

The deadline of an offer is fixed when its record is made, and a record starts to transfer only
while the deadline lies ahead of the clock of the operation: of the three places that look at the
deadline only two start a transfer, and neither the timer nor any other message does.
-/

namespace Syntra.Manual

open ByteFormat Proto Files Record

variable {P : Type} {record later : Record P} {sha256 : Bytes → Digest} {io : Io} {now : ℕ}

namespace ManualTransfers

variable {transfers after : ManualTransfers P} {key : RecordKey}

/-- What an operation at `now` leaves of a record that was there. -/
structure Continues (now : ℕ) (record later : Record P) : Prop where
  approvalDeadline : later.approvalDeadline = record.approvalDeadline
  inTime : record.StartsInTime now later
  active : record.Active now later

/-- A record that an operation has made at `now`. -/
structure Begins (now : ℕ) (record : Record P) : Prop where
  approvalDeadline : record.approvalDeadline = now + approvalTimeout
  active : record.lastActivity = now

/-- What an operation at `now` makes of the records: it goes on with one or begins it. -/
def OnTime (now : ℕ) (transfers after : ManualTransfers P) : Prop :=
  ∀ key later, after.records.lookup key = some later →
    (∃ record, transfers.records.lookup key = some record ∧ Continues now record later) ∨
      transfers.records.lookup key = none ∧ Begins now later

theorem Continues.refl (now : ℕ) (record : Record P) : Continues now record record :=
  ⟨rfl, .of_state rfl, .inl rfl⟩

theorem Continues.of_proper {reply : Reply P} (proper : record.Proper now reply) :
    Continues now record reply.record :=
  ⟨proper.evolves.approvalDeadline, proper.inTime, proper.active⟩

theorem Continues.refresh (record : Record P) (route : Option P) :
    Continues now record (record.refresh route now).record := by
  unfold Record.refresh
  split
  · exact ⟨rfl, .of_state rfl, .inl rfl⟩
  · split
    · exact ⟨rfl, .of_ended rfl, .inr rfl⟩
    · exact .refl now record

theorem Continues.trans {middle last : Record P} (first : Continues now record middle)
    (second : Continues now middle last) : Continues now record last := by
  refine ⟨second.approvalDeadline.trans first.approvalDeadline, fun transferring idle => ?_, ?_⟩
  · by_cases started : middle.state = .transferring
    · exact first.inTime started idle
    · rw [← first.approvalDeadline]
      exact second.inTime transferring started
  · rcases second.active with kept | new
    · exact first.active.imp kept.trans kept.trans
    · exact .inr new

theorem Begins.continues {last : Record P} (begins : Begins now record)
    (continues : Continues now record last) : Begins now last :=
  ⟨continues.approvalDeadline.trans begins.approvalDeadline,
    continues.active.elim (·.trans begins.active) id⟩

theorem OnTime.refl (now : ℕ) (transfers : ManualTransfers P) : OnTime now transfers transfers :=
  fun _ later found => .inl ⟨later, found, .refl now later⟩

theorem OnTime.trans {middle last : ManualTransfers P} (first : OnTime now transfers middle)
    (second : OnTime now middle last) (apart : ∀ key, middle.records.lookup key = none →
      transfers.records.lookup key = none ∨ last.records.lookup key = none) :
    OnTime now transfers last := by
  intro key later found
  rcases second key later found with ⟨record, there, continues⟩ | ⟨absent, begins⟩
  · rcases first key record there with ⟨start, before, started⟩ | ⟨absent, begins⟩
    · exact .inl ⟨start, before, started.trans continues⟩
    · exact .inr ⟨absent, begins.continues continues⟩
  · rcases apart key absent with absent | gone
    · exact .inr ⟨absent, begins⟩
    · rw [found] at gone
      cases gone

theorem onTime_store (table : ManualTransfers P) (record : Record P)
    (bounded : table.terminal.length ≤ maxTerminal)
    (others : ∀ key held, key ≠ record.key → table.records.lookup key = some held →
      transfers.records.lookup key = some held)
    (own : (∃ before, transfers.records.lookup record.key = some before ∧
        Continues now before record) ∨
      transfers.records.lookup record.key = none ∧ Begins now record) :
    OnTime now transfers (table.store record) := by
  intro key later found
  by_cases same : key = record.key
  · subst same
    rw [store_lookup bounded, Option.some.injEq] at found
    exact found ▸ own
  · rcases store_lookup_ne table record same with kept | ⟨-, gone⟩
    · rw [kept] at found
      exact .inl ⟨later, others key later same found, .refl now later⟩
    · rw [found] at gone
      cases gone

variable {handle : Record P → Reply P} {settings : FileReceiveSettings}

theorem Bookkeeping.onTime_update {missing : List (ManualAction P)} (book : transfers.Bookkeeping)
    (evolves : ∀ record, transfers.records.lookup key = some record →
      record.Evolves (handle record).record ∧ Continues now record (handle record).record) :
    OnTime now transfers (transfers.update key handle missing).state := by
  unfold ManualTransfers.update
  split
  · exact .refl now transfers
  · rename_i record found
    have same := book.key_of_evolves found (evolves record found).1
    refine onTime_store { transfers with records := transfers.records.erase key }
      (handle record).record book.bounded ?_ ?_
    · intro _ _ differ there
      rw [same] at differ
      rwa [AList.lookup_erase_ne differ] at there
    · exact .inl ⟨record, same ▸ found, (evolves record found).2⟩

theorem Bookkeeping.onTime_sweep (handles : ∀ record, record.Labelled →
      record.Evolves (handle record).record ∧ (handle record).record.Labelled)
    (continues : ∀ record, record.Labelled → Continues now record (handle record).record)
    (keys : List RecordKey) (book : transfers.Bookkeeping) :
    OnTime now transfers (transfers.sweep handle keys).state := by
  induction keys generalizing transfers with
  | nil => exact .refl now transfers
  | cons first keys ih =>
    have proper := book.handled handles first
    have updated : (transfers.update first handle []).state.Bookkeeping := (book.update proper).1
    have turn : OnTime now transfers (transfers.update first handle []).state :=
      book.onTime_update fun record found =>
        ⟨(proper record found).1, continues record (book.labelled _ record found)⟩
    refine turn.trans (ih updated) fun _ gone => .inr ?_
    exact sweep_lookup_none handles keys updated gone

theorem Bookkeeping.onTime_sendFile (book : transfers.Bookkeeping) (peer : P)
    (fingerprint : String) (source : Source) :
    OnTime now transfers (transfers.sendFile peer fingerprint source now).1.state := by
  rcases transfers.sendFile_cases peer fingerprint source now with
    ⟨_, same⟩ | ⟨_, _, _, _, absent, _, _, _, stored⟩
  · rw [same]
    exact .refl now transfers
  · rw [stored]
    apply onTime_store _ _ book.bounded
    · exact fun _ _ _ there => there
    · exact .inr ⟨absent, rfl, rfl⟩

theorem Bookkeeping.onTime_sendFiles (peer : P) (fingerprint : String) (sources : List Source)
    (book : transfers.Bookkeeping) :
    OnTime now transfers (transfers.sendFiles peer fingerprint now sources).state := by
  induction sources generalizing transfers with
  | nil => exact .refl now transfers
  | cons source _ ih =>
    have turn : OnTime now transfers (transfers.sendFile peer fingerprint source now).1.state :=
      book.onTime_sendFile peer fingerprint source
    unfold ManualTransfers.sendFiles
    dsimp only
    split
    · refine turn.trans (ih (book.sendFile peer fingerprint source now).1) fun key gone => .inl ?_
      cases found : transfers.records.lookup key with
      | none => rfl
      | some => exact (sendFile_lookup_none book found gone).elim
    · exact turn

theorem Bookkeeping.onTime_receiveOffer {offer : OfferedFile P} (book : transfers.Bookkeeping) :
    OnTime now transfers (transfers.receiveOffer io offer settings now).state := by
  unfold ManualTransfers.receiveOffer
  dsimp only
  split
  · exact .refl now transfers
  · split
    · rename_i record found
      split
      · exact .refl now transfers
      · intro key later there
        by_cases same : key = (offer.fingerprint, offer.id)
        · subst same
          rw [AList.lookup_insert] at there
          cases there
          exact .inl ⟨record, found, rfl, .of_state rfl, .inl rfl⟩
        · rw [AList.lookup_insert_ne same] at there
          exact .inl ⟨later, there, .refl now later⟩
    · rename_i absent
      split
      · exact .refl now transfers
      · have proper := offer.reply_proper io settings now
        have begins : Begins now (offer.record settings now) := ⟨rfl, rfl⟩
        refine onTime_store transfers (offer.reply io settings now).record book.bounded
          (fun _ _ _ there => there) (.inr ⟨?_, begins.continues (.of_proper proper)⟩)
        rw [key, proper.evolves.fingerprint, proper.evolves.id]
        exact absent

theorem Bookkeeping.onTime_handleProtocol {peer : P} {fingerprint : String} {event : ProtoEvent}
    (book : transfers.Bookkeeping) :
    OnTime now transfers
      (transfers.handleProtocol sha256 io peer fingerprint event settings now).state := by
  unfold ManualTransfers.handleProtocol
  split
  · exact book.onTime_receiveOffer
  · split
    · exact .refl now transfers
    · refine book.onTime_update fun record found => ?_
      have labelled := (book.labelled _ record found).reroute peer
      have handled : (record.reroute peer).Proper now
          ((record.reroute peer).handle sha256 io event now) := .handle labelled event
      have continues := Continues.of_proper handled
      exact ⟨handled.evolves.of_reroute, continues.approvalDeadline, continues.inTime,
        continues.active⟩

end ManualTransfers

def Operation.clock : Operation P → ℕ
  | .sendFiles _ _ _ now | .handleProtocol _ _ _ _ _ now | .accept _ _ _ _ now
  | .overwrite _ _ _ _ now | .decline _ _ now | .cancel _ _ now | .tick now _
  | .refreshRoutes _ now _ => now

theorem ManualTransfers.Bookkeeping.onTime {transfers : ManualTransfers P}
    (book : transfers.Bookkeeping) (operation : Operation P) :
    OnTime operation.clock transfers (operation.output sha256 transfers).state := by
  have proper : ∀ {handle : Record P → Reply P} {key : RecordKey} {now : ℕ},
      (∀ record : Record P, record.Labelled → record.Proper now (handle record)) →
      ∀ record, transfers.records.lookup key = some record →
        record.Evolves (handle record).record ∧ Continues now record (handle record).record := by
    intro _ key _ keeps record found
    have kept := keeps record (book.labelled key record found)
    exact ⟨kept.evolves, .of_proper kept⟩
  cases operation with
  | sendFiles peer fingerprint sources => exact book.onTime_sendFiles peer fingerprint sources
  | handleProtocol => exact book.onTime_handleProtocol
  | accept => exact book.onTime_update (proper fun _ labelled => .prepareReceiver labelled _ _)
  | overwrite => exact book.onTime_update (proper fun _ labelled => .overwrite labelled _)
  | decline => exact book.onTime_update (proper fun _ labelled => .decline labelled)
  | cancel => exact book.onTime_update (proper fun _ labelled => .cancel labelled)
  | tick =>
    exact book.onTime_sweep tick_evolves (fun _ labelled => .of_proper (.tick labelled)) _
  | refreshRoutes =>
    refine book.onTime_sweep (fun record labelled => ?_) (fun record _ => .refresh record _) _
    exact ⟨(refresh_evolves labelled _).1, (refresh_evolves labelled _).2.1⟩

/-- In every run of any operations in any order, every operation leaves each record with the
deadline it had, or with one counted from now if it is new, and a record that is transferring
afterwards was transferring before or has its deadline ahead. -/
theorem device_approval {transfers : ManualTransfers P} {history : List (ManualTransfers P)}
    (run : StateMachine.Run (device P sha256) (transfers :: history)) (operation : Operation P) :
    ∀ key later,
      ((device P sha256).next transfers operation).records.lookup key = some later →
        match transfers.records.lookup key with
        | some record => later.approvalDeadline = record.approvalDeadline ∧
          (later.state = .transferring → record.state = .transferring ∨
            operation.clock < later.approvalDeadline)
        | none => later.approvalDeadline = operation.clock + approvalTimeout ∧
          operation.clock < later.approvalDeadline := by
  intro key later found
  have book := run.invariant device_invariant transfers (.head _)
  rcases book.onTime operation key later found with ⟨record, there, continues⟩ | ⟨absent, begins⟩
  · rw [there]
    refine ⟨continues.approvalDeadline, fun transferring => ?_⟩
    by_cases started : record.state = .transferring
    · exact .inl started
    · rw [continues.approvalDeadline]
      exact .inr (continues.inTime transferring started)
  · rw [absent]
    refine ⟨begins.approvalDeadline, ?_⟩
    rw [begins.approvalDeadline]
    exact Nat.lt_add_of_pos_right (by decide)

def offered : List (Operation Unit) :=
  [.handleProtocol (.obliging 0 []) () "peer" (.manualFileOffer 7 "a.txt" 3) ⟨false, .empty⟩ 10]

def accepted : Operation Unit :=
  .accept (.obliging 0 []) "peer" 7 (.ofText "/home") 20

theorem device_approval_accepted :
    let device := device Unit (fun _ => .replicate 32 0)
    ∃ later, (device.next (device.after .new offered) accepted).records.lookup ("peer", 7) =
      some later ∧ later.state = .transferring ∧ 20 < later.approvalDeadline := by
  intro device
  have waits : ((device.after .new offered).records.lookup ("peer", 7)).map (·.state) =
      some .awaitingAcceptance := by
    decide +kernel
  have starts : ((device.next (device.after .new offered) accepted).records.lookup
      ("peer", 7)).map (·.state) = some .transferring := by
    decide +kernel
  rcases Option.map_eq_some_iff.mp waits with ⟨record, there, waiting⟩
  rcases Option.map_eq_some_iff.mp starts with ⟨later, found, transferring⟩
  rcases @StateMachine.Run.of_follows _ _ device offered ⟨trivial, trivial⟩ with ⟨_, run⟩
  have step := device_approval run accepted ("peer", 7) later found
  rw [show (device.after device.initial offered).records.lookup ("peer", 7) = some record from
    there] at step
  refine ⟨later, found, transferring, (step.2 transferring).resolve_left ?_⟩
  simp [waiting]

end Syntra.Manual
