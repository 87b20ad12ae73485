import Mathlib.Data.List.Induction
import Syntra.Manual.Serving

/-!
# The transfers of a device apart

A device keeps its transfers in one table, forgets ended ones and sweeps over all of them. The
record of a file that it sends is nevertheless what the inputs for this record have made of its
offer, whatever happens to the others (`sending_offered`).
-/

namespace Syntra.Manual

open ByteFormat StateMachine Proto Files Record ManualTransfers List

variable {P : Type} {sha256 : Bytes → Digest} {key : RecordKey} {record later : Record P}

/-- The inputs of an operation that are for the record of this key. An offer changes no record
that is sent. -/
def Operation.addressed (key : RecordKey) : Operation P → List (RecordInput P × ℕ)
  | .sendFiles .. | .handleProtocol _ _ _ (.manualFileOffer ..) _ _ => []
  | .handleProtocol io peer fingerprint event _ now =>
    if (transferId? event).map (Prod.mk fingerprint) = some key then
      [(.message io peer event, now)]
    else []
  | .accept io fingerprint transfer directory now =>
    if (fingerprint, transfer) = key then [(.prepare io directory false, now)] else []
  | .overwrite io fingerprint transfer directory now =>
    if (fingerprint, transfer) = key then [(.overwrite io directory, now)] else []
  | .decline fingerprint transfer now =>
    if (fingerprint, transfer) = key then [(.decline, now)] else []
  | .cancel fingerprint transfer now =>
    if (fingerprint, transfer) = key then [(.cancel, now)] else []
  | .tick now _ => [(.tick, now)]
  | .refreshRoutes routes now _ => [(.refresh (routes.lookup key.1), now)]

/-- The operation offers a file of its own under this key, with a record like this one. -/
def Operation.Offers (operation : Operation P) (key : RecordKey) (fresh : Record P) : Prop :=
  ∃ peer sources now source offer entry, operation = .sendFiles peer key.1 sources now ∧
    source ∈ sources ∧ FileOffer.fromRegularFile source.io key.2 source.path = .ok offer ∧
    offer.entries.head? = some entry ∧ fresh = .newOffering peer key.1 key.2 offer entry now

/-- What the inputs for this key have made of the record since one of the operations offered it. -/
def Record.Offered (sha256 : Bytes → Digest) (operations : List (Operation P)) (key : RecordKey)
    (record : Record P) : Prop :=
  ∃ earlier offering later fresh, operations = earlier ++ offering :: later ∧
    offering.Offers key fresh ∧
    record = (outcome (serveStep sha256) fresh (later.flatMap (·.addressed key))).1

/-- Every record of a file that is sent comes from its offer and its own inputs. -/
def ManualTransfers.Accounted (sha256 : Bytes → Digest) (operations : List (Operation P))
    (transfers : ManualTransfers P) : Prop :=
  ∀ key record, transfers.records.lookup key = some record → record.direction = .sending →
    record.Offered sha256 operations key

theorem RecordInput.evolves (labelled : record.Labelled) (input : RecordInput P) (now : ℕ) :
    record.Evolves (input.reply sha256 record now).record ∧
      (input.reply sha256 record now).record.Labelled := by
  have proper : ∀ {reply : Reply P}, record.Proper now reply →
      record.Evolves reply.record ∧ reply.record.Labelled :=
    fun kept => ⟨kept.evolves, kept.labelled⟩
  cases input with
  | message io peer event =>
    have kept : (record.reroute peer).Proper now
        ((record.reroute peer).handle sha256 io event now) :=
      .handle (labelled.reroute peer) event
    exact ⟨kept.evolves.of_reroute, kept.labelled⟩
  | prepare => exact proper (.prepareReceiver labelled _ _)
  | overwrite => exact proper (.overwrite labelled _)
  | decline => exact proper (.decline labelled)
  | cancel => exact proper (.cancel labelled)
  | tick => exact proper (.tick labelled)
  | refresh => exact ⟨(refresh_evolves labelled _).1, (refresh_evolves labelled _).2.1⟩

theorem Record.Labelled.direction_outcome (labelled : record.Labelled)
    (inputs : List (RecordInput P × ℕ)) :
    (outcome (serveStep sha256) record inputs).1.direction = record.direction := by
  induction inputs generalizing record with
  | nil => rfl
  | cons input inputs ih =>
    rcases RecordInput.evolves labelled input.1 input.2 with ⟨evolves, kept⟩
    exact (ih kept).trans evolves.direction

namespace ManualTransfers

variable {transfers : ManualTransfers P} {handle : Record P → Reply P}
  {missing : List (ManualAction P)} {target : RecordKey}

theorem Bookkeeping.of_update_lookup (book : transfers.Bookkeeping)
    (handles : ∀ record, transfers.records.lookup target = some record →
      record.Evolves (handle record).record)
    (found : (transfers.update target handle missing).state.records.lookup key = some later) :
    ∃ record, transfers.records.lookup key = some record ∧
      later = if target = key then (handle record).record else record := by
  by_cases same : target = key
  · subst same
    cases held : transfers.records.lookup target with
    | none =>
      rw [update_absent held, held] at found
      cases found
    | some record =>
      have kept := book.key_of_evolves held (handles record held)
      have stored := @store_lookup P { transfers with records := transfers.records.erase target }
        (handle record).record book.bounded
      rw [kept] at stored
      unfold ManualTransfers.update at found
      rw [held] at found
      exact ⟨record, rfl, by simpa using Option.some.inj (found.symm.trans stored)⟩
  · rcases update_lookup_other book (Ne.symm same) handles with kept | gone
    · exact ⟨later, kept.symm.trans found, by rw [if_neg same]⟩
    · cases gone.symm.trans found

/-- A sweep handles every record of its keys once. -/
theorem Bookkeeping.of_sweep_lookup (handles : ∀ record, record.Labelled →
      record.Evolves (handle record).record ∧ (handle record).record.Labelled)
    {keys : List RecordKey} (once : keys.Nodup) (book : transfers.Bookkeeping)
    (found : (transfers.sweep handle keys).state.records.lookup key = some later) :
    ∃ record, transfers.records.lookup key = some record ∧
      later = if key ∈ keys then (handle record).record else record := by
  induction keys generalizing transfers with
  | nil => exact ⟨later, found, rfl⟩
  | cons first keys ih =>
    have proper := book.handled handles first
    rcases ih (nodup_cons.mp once).2 (book.update proper).1 found with ⟨middle, held, outcome⟩
    rcases book.of_update_lookup (fun record there => (proper record there).1) held with
      ⟨record, there, handled⟩
    refine ⟨record, there, ?_⟩
    by_cases same : first = key
    · subst same
      rw [outcome, handled, if_neg (nodup_cons.mp once).1, if_pos rfl, if_pos (.head _)]
    · rw [outcome, handled, if_neg same]
      simp [Ne.symm same]

theorem Bookkeeping.of_sweep (handles : ∀ record, record.Labelled →
      record.Evolves (handle record).record ∧ (handle record).record.Labelled)
    (book : transfers.Bookkeeping) (order : IterOrder) (found : (transfers.sweep handle
      (order.arrange transfers.records.keys)).state.records.lookup key = some later) :
    ∃ record, transfers.records.lookup key = some record ∧ later = (handle record).record := by
  have once := (order.perm _).nodup_iff.mpr transfers.records.keys_nodup
  rcases book.of_sweep_lookup handles once found with ⟨record, held, handled⟩
  have listed : key ∈ order.arrange transfers.records.keys :=
    (order.perm _).mem_iff.mpr (AList.lookup_isSome.mp (by rw [held]; rfl))
  exact ⟨record, held, handled.trans (if_pos listed)⟩

theorem Bookkeeping.of_sendFiles_lookup {peer : P} {fingerprint : String} {now : ℕ}
    {sources : List Source} (book : transfers.Bookkeeping)
    (found : (transfers.sendFiles peer fingerprint now sources).state.records.lookup key =
      some later) :
    transfers.records.lookup key = some later ∨
      (Operation.sendFiles peer fingerprint sources now).Offers key later := by
  induction sources generalizing transfers with
  | nil => exact .inl found
  | cons source sources ih =>
    have turn : ∀ record,
        (transfers.sendFile peer fingerprint source now).1.state.records.lookup key = some record →
          transfers.records.lookup key = some record ∨
            (Operation.sendFiles peer fingerprint (source :: sources) now).Offers key record := by
      intro record found
      rcases transfers.sendFile_cases peer fingerprint source now with
        ⟨_, same⟩ | ⟨id, offer, entry, _, _, _, opened, first, stored⟩
      · rw [same] at found
        exact .inl found
      · rw [stored] at found
        by_cases same : key = (fingerprint, id)
        · subst same
          cases found.symm.trans (@store_lookup P transfers
            (newOffering peer fingerprint id offer entry now) book.bounded)
          exact .inr ⟨peer, _, now, source, offer, entry, rfl, .head _, opened, first, rfl⟩
        · rcases transfers.store_lookup_ne (newOffering peer fingerprint id offer entry now) same
            with kept | ⟨-, gone⟩
          · exact .inl (kept.symm.trans found)
          · cases gone.symm.trans found
    unfold ManualTransfers.sendFiles at found
    dsimp only at found
    split at found
    · rcases ih (book.sendFile peer fingerprint source now).1 found with held | offers
      · exact turn later held
      · rcases offers with ⟨_, _, _, other, offer, entry, same, member, opened⟩
        cases same
        exact .inr ⟨_, _, _, other, offer, entry, rfl, .tail _ member, opened⟩
    · exact turn later found

theorem Bookkeeping.of_receiveOffer_lookup {offer : OfferedFile P} {settings : FileReceiveSettings}
    {io : Io} {now : ℕ} (book : transfers.Bookkeeping) (sending : later.direction = .sending)
    (found : (transfers.receiveOffer io offer settings now).state.records.lookup key = some later) :
    transfers.records.lookup key = some later := by
  unfold ManualTransfers.receiveOffer at found
  dsimp only at found
  split at found
  · exact found
  · split at found
    · rename_i record held
      split at found
      · exact found
      · rename_i fits
        by_cases same : key = (offer.fingerprint, offer.id)
        · subst same
          cases (AList.lookup_insert _).symm.trans found
          exact absurd (.inl (by rw [show record.direction = .sending from sending]; nofun)) fits
        · exact (AList.lookup_insert_ne same).symm.trans found
    · split at found
      · exact found
      · have proper := offer.reply_proper io settings now
        change (transfers.store (offer.reply io settings now).record).records.lookup key =
          some later at found
        generalize offer.reply io settings now = reply at found proper
        by_cases same : key = reply.record.key
        · subst same
          cases found.symm.trans (store_lookup book.bounded)
          cases proper.evolves.direction.symm.trans sending
        · rcases transfers.store_lookup_ne reply.record same with kept | ⟨-, gone⟩
          · exact kept.symm.trans found
          · cases gone.symm.trans found

theorem Bookkeeping.of_handled_lookup (book : transfers.Bookkeeping) (input : RecordInput P)
    (now : ℕ) (found : (transfers.update target (input.reply sha256 · now)
      missing).state.records.lookup key = some later) :
    ∃ record, transfers.records.lookup key = some record ∧ later =
      (outcome (serveStep sha256) record (if target = key then [(input, now)] else [])).1 := by
  rcases book.of_update_lookup (fun record held =>
    (input.evolves (book.labelled target record held) now).1) found with ⟨record, held, handled⟩
  refine ⟨record, held, handled.trans ?_⟩
  split <;> rfl

/-- A record that is sent after an operation has been offered by it, or was there and has got the
inputs for it. -/
theorem Bookkeeping.of_output_lookup (book : transfers.Bookkeeping) (operation : Operation P)
    (sending : later.direction = .sending)
    (found : (operation.output sha256 transfers).state.records.lookup key = some later) :
    operation.Offers key later ∨ ∃ record, transfers.records.lookup key = some record ∧
      later = (outcome (serveStep sha256) record (operation.addressed key)).1 := by
  cases operation with
  | sendFiles =>
    exact (book.of_sendFiles_lookup found).symm.imp_right fun held => ⟨later, held, rfl⟩
  | handleProtocol io peer fingerprint event settings now =>
    right
    change (transfers.handleProtocol sha256 io peer fingerprint event settings
      now).state.records.lookup key = some later at found
    unfold ManualTransfers.handleProtocol at found
    split at found
    · exact ⟨later, book.of_receiveOffer_lookup sending found, rfl⟩
    · rename_i other
      have addressed : (Operation.handleProtocol io peer fingerprint event settings now).addressed
          key = if (transferId? event).map (Prod.mk fingerprint) = some key then
            [(.message io peer event, now)] else [] := by
        cases event with
        | manualFileOffer => exact (other _ _ _ rfl).elim
        | _ => rfl
      rw [addressed]
      split at found
      · rename_i unnamed
        rw [unnamed, if_neg (by simp)]
        exact ⟨later, found, rfl⟩
      · rename_i transfer named
        simp only [named, Option.map_some, Option.some.injEq]
        exact book.of_handled_lookup (.message io peer event) now found
  | accept io fingerprint transfer directory now =>
    exact .inr (book.of_handled_lookup (.prepare io directory false) now found)
  | overwrite io fingerprint transfer directory now =>
    exact .inr (book.of_handled_lookup (.overwrite io directory) now found)
  | decline fingerprint transfer now => exact .inr (book.of_handled_lookup .decline now found)
  | cancel fingerprint transfer now => exact .inr (book.of_handled_lookup .cancel now found)
  | tick now order =>
    exact .inr (book.of_sweep Record.tick_evolves order found)
  | refreshRoutes routes now order =>
    rcases book.of_sweep (fun record labelled => RecordInput.evolves labelled
      (.refresh (routes.lookup record.fingerprint)) now) order found with ⟨record, held, handled⟩
    refine .inr ⟨record, held, handled.trans ?_⟩
    rw [← book.keyed key record held]
    rfl

/-- Whatever a device does, each file that it sends is where the inputs for it have brought its
offer. -/
theorem sending_offered (sha256 : Bytes → Digest) (operations : List (Operation P)) :
    Accounted sha256 operations ((device P sha256).after (device P sha256).initial operations) := by
  have both : ((device P sha256).after (device P sha256).initial operations).Bookkeeping ∧
      Accounted sha256 operations
        ((device P sha256).after (device P sha256).initial operations) := by
    induction operations using reverseRecOn with
    | nil => exact ⟨.new, fun _ _ found => by cases found⟩
    | append_singleton operations operation ih =>
      rw [Machine.after_append]
      refine ⟨(ih.1.output operation).1, fun key record found sending => ?_⟩
      rcases ih.1.of_output_lookup operation sending found with offers | ⟨before, held, handled⟩
      · exact ⟨operations, operation, [], record, rfl, offers, rfl⟩
      · have direction : (outcome (serveStep sha256) before
            (operation.addressed key)).1.direction = before.direction :=
          (ih.1.labelled key before held).direction_outcome _
        rw [← handled, sending] at direction
        rcases ih.2 key before held direction.symm with
          ⟨earlier, offering, later, fresh, rfl, offers, rfl⟩
        refine ⟨earlier, offering, later ++ [operation], fresh, by simp, offers, ?_⟩
        rw [handled, flatMap_append, outcome_append, flatMap_singleton]
  exact both.2

end ManualTransfers

end Syntra.Manual
