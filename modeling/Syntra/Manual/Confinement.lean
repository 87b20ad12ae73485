import Syntra.Manual.Messages

/-!
# Confinement of messages

A message from a peer is answered by at most one message, to this peer, and leaves the transfers
with other devices as they are. Only the oldest ended transfer may be forgotten, for one that the
message ends.
-/

namespace Syntra.Manual

open ByteFormat Proto Files AList List

variable {P : Type} {record : Record P} {sha256 : Bytes → Digest} {io : Io} {now : ℕ}

theorem brief_unknownTransfer (peer : P) (id : UInt64) (event : ProtoEvent) :
    Brief (unknownTransfer peer id event) := by
  unfold unknownTransfer
  split <;> simp [peerFailure]

namespace ManualTransfers

variable {transfers : ManualTransfers P} {key : RecordKey}

/-- A record that has just ended takes the place of the oldest one in a full queue. -/
structure Forgotten (transfers later : ManualTransfers P) (fingerprint : String)
    (key : RecordKey) : Prop where
  gone : later.records.lookup key = none
  oldest : transfers.terminal.head? = some key
  full : transfers.terminal.length = maxTerminal
  ended : ∃ finished, finished.1 = fingerprint ∧ finished ∉ transfers.terminal ∧
    finished ∈ later.terminal

def SparesOthers (transfers later : ManualTransfers P) (fingerprint : String) : Prop :=
  ∀ key : RecordKey, key.1 ≠ fingerprint →
    later.records.lookup key = transfers.records.lookup key ∨
      transfers.Forgotten later fingerprint key

theorem SparesOthers.refl (transfers : ManualTransfers P) (fingerprint : String) :
    transfers.SparesOthers transfers fingerprint :=
  fun _ _ => .inl rfl

theorem store_forgets (transfers : ManualTransfers P)
    (bounded : transfers.terminal.length ≤ maxTerminal) (other : key ≠ record.key) :
    (transfers.store record).records.lookup key = transfers.records.lookup key ∨
      transfers.Forgotten (transfers.store record) record.fingerprint key := by
  unfold store
  split
  · rename_i new
    by_cases room : (transfers.terminal ++ [record.key]).length ≤ maxTerminal
    · rw [evict_of_le room, lookup_insert_ne other]
      exact .inl rfl
    · have full : transfers.terminal.length = maxTerminal := by
        rw [length_append, length_singleton] at room
        omega
      cases queue : transfers.terminal with
      | nil => simp [queue, maxTerminal] at full
      | cons oldest =>
        rw [queue] at room full new
        rw [cons_append] at room ⊢
        rw [evict, if_pos (Nat.lt_of_not_le room), evict_of_le (by simpa using full.le)]
        by_cases first : key = oldest
        · subst first
          refine .inr ⟨lookup_erase _ _, by rw [queue]; rfl, by rw [queue]; exact full, ?_⟩
          exact ⟨record.key, rfl, queue ▸ new.2, by simp⟩
        · rw [lookup_erase_ne first, lookup_insert_ne other]
          exact .inl rfl
  · rw [evict_of_le bounded, lookup_insert_ne other]
    exact .inl rfl

theorem sparesOthers_store (bounded : transfers.terminal.length ≤ maxTerminal) :
    transfers.SparesOthers (transfers.store record) record.fingerprint :=
  fun _ foreign => store_forgets transfers bounded fun same => foreign (congrArg Prod.fst same)

theorem sparesOthers_update {handle : Record P → Reply P} {missing : List (ManualAction P)}
    (book : transfers.Bookkeeping) (evolves : ∀ record, transfers.records.lookup key = some record →
      record.Evolves (handle record).record) :
    transfers.SparesOthers (transfers.update key handle missing).state key.1 := by
  unfold update
  split
  · exact .refl transfers key.1
  · rename_i record found
    have same := book.key_of_evolves found (evolves record found)
    intro other foreign
    have different : other ≠ key := fun equal => foreign (congrArg Prod.fst equal)
    have named : (handle record).record.fingerprint = key.1 := congrArg Prod.fst same
    rcases store_forgets { transfers with records := transfers.records.erase key }
      book.bounded (same ▸ different) with kept | forgotten
    · left
      rw [kept, lookup_erase_ne different]
    · right
      rw [← named]
      exact ⟨forgotten.gone, forgotten.oldest, forgotten.full, forgotten.ended⟩

/-- A message changes no transfer of others and is answered to its sender alone. -/
structure Confined (transfers : ManualTransfers P) (peer : P) (fingerprint : String)
    (output : Output P) : Prop where
  brief : Brief output.actions
  returned : ∀ target message, .send target message ∈ output.actions → target = peer
  others : transfers.SparesOthers output.state fingerprint

theorem Confined.refused {peer : P} {fingerprint : String} (id : UInt64) (message : String) :
    transfers.Confined peer fingerprint ⟨transfers, [peerFailure peer id message], []⟩ := by
  refine ⟨(brief_send _ _).mpr rfl, ?_, .refl transfers fingerprint⟩
  intro _ _ member
  cases mem_singleton.mp member
  rfl

theorem confined_receiveOffer (book : transfers.Bookkeeping) (offer : OfferedFile P)
    (settings : FileReceiveSettings) :
    transfers.Confined offer.peer offer.fingerprint
      (transfers.receiveOffer io offer settings now) := by
  unfold receiveOffer
  dsimp only
  split
  · exact .refused _ _
  · split
    · rename_i record found
      split
      · exact .refused _ _
      · refine ⟨(brief_send _ _).mpr rfl, ?_, ?_⟩
        · intro target event member
          cases mem_singleton.mp member
          rfl
        · intro _ foreign
          left
          exact lookup_insert_ne fun same => foreign (congrArg Prod.fst same)
    · split
      · exact .refused _ _
      · have proper := offer.reply_proper io settings now
        change transfers.Confined offer.peer offer.fingerprint
          ⟨transfers.store (offer.reply io settings now).record,
            if (offer.reply io settings now).actions.isEmpty = true then _ else _, _⟩
        rw [if_neg (by simp [offer.reply_speaks io settings now])]
        refine ⟨proper.brief, ?_, ?_⟩
        · intro _ _ member
          exact (proper.addressed _ member).1
        · have named : (offer.reply io settings now).record.fingerprint = offer.fingerprint :=
            proper.evolves.fingerprint
          rw [← named]
          exact sparesOthers_store book.bounded

theorem confined_handleProtocol (book : transfers.Bookkeeping) (peer : P) (fingerprint : String)
    (event : ProtoEvent) (settings : FileReceiveSettings) :
    transfers.Confined peer fingerprint
      (transfers.handleProtocol sha256 io peer fingerprint event settings now) := by
  unfold handleProtocol
  split
  · rename_i id name size
    exact confined_receiveOffer book ⟨peer, fingerprint, id, name, size⟩ settings
  · split
    · exact ⟨brief_nil, fun _ _ member => (not_mem_nil member).elim, .refl transfers fingerprint⟩
    · rename_i id about
      have handled : ∀ record, transfers.records.lookup (fingerprint, id) = some record →
          (record.reroute peer).Proper now ((record.reroute peer).handle sha256 io event now) :=
        fun record found => .handle ((book.labelled _ record found).reroute peer) event
      refine ⟨?_, ?_, ?_⟩
      · unfold update
        split
        · exact brief_unknownTransfer peer id event
        · rename_i record found
          exact (handled record found).brief
      · intro _ _ member
        unfold update at member
        split at member
        · exact (Network.unknownTransfer_addressed event _ member).1
        · rename_i record found
          exact ((handled record found).addressed _ member).1
      · exact sparesOthers_update book fun record found => (handled record found).evolves.of_reroute

end ManualTransfers

/-- In every state that a device can reach, a message from any peer is answered by at most one
message, which goes to this peer, and the records of all others stay as they are, but that the
oldest of the ended ones is forgotten when the queue is full and the message ends a transfer. -/
theorem device_confines {transfers : ManualTransfers P} {history : List (ManualTransfers P)}
    (run : StateMachine.Run (device P sha256) (transfers :: history)) (io : Io) (peer : P)
    (fingerprint : String) (event : ProtoEvent) (settings : FileReceiveSettings) (now : ℕ) :
    let output := transfers.handleProtocol sha256 io peer fingerprint event settings now
    (sends output.actions).length ≤ 1 ∧
    (∀ target message, .send target message ∈ output.actions → target = peer) ∧
    ∀ key : RecordKey, key.1 ≠ fingerprint →
      output.state.records.lookup key = transfers.records.lookup key ∨
        transfers.Forgotten output.state fingerprint key := by
  have book := run.invariant device_invariant transfers (.head _)
  intro output
  have confined : transfers.Confined peer fingerprint output :=
    ManualTransfers.confined_handleProtocol book peer fingerprint event settings
  exact ⟨confined.brief, confined.returned, confined.others⟩

/-- Another device asks for the transfer that was declined, and is told that it is not accepted. -/
theorem device_confines_declined :
    let device := device Unit fun _ => .replicate 32 0
    let transfers := device.after .new declining
    let output := transfers.handleProtocol (fun _ => .replicate 32 0) (.obliging 0 []) () "other"
      (.manualFileRequest 7 0 1) ⟨false, .empty⟩ 2
    (sends output.actions).length = 1 ∧
      output.state.records.lookup ("peer", 7) = transfers.records.lookup ("peer", 7) := by
  intro device transfers _
  rcases @StateMachine.Run.of_follows _ _ device declining ⟨trivial, trivial, trivial⟩ with ⟨_, run⟩
  have confined := device_confines run (.obliging 0 []) () "other" (.manualFileRequest 7 0 1)
    ⟨false, .empty⟩ 2
  refine ⟨le_antisymm confined.1 ?_, ?_⟩
  · decide +kernel
  · refine (confined.2.2 ("peer", 7) (by decide)).resolve_right fun forgotten => ?_
    have few : transfers.terminal.length = 1 := by decide +kernel
    exact absurd (few.symm.trans forgotten.full) (by decide)

end Syntra.Manual
