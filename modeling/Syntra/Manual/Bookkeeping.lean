import Syntra.Manual.Evolution
import Syntra.StateMachine.Run
import Syntra.Tables.Association

/-!
# The bookkeeping of the transfers

The queue of ended transfers names exactly the ended records and stays short, few records are
alive, and ended records hold no file. Every operation of `ManualTransfers` keeps this, and none
revives an ended record.
-/

namespace Syntra.Manual

open ByteFormat Proto Files ManualTransfers AList Record

variable {P : Type}

namespace ManualTransfers

variable {transfers : ManualTransfers P} {key : RecordKey} {record : Record P}

/-- What relates the records and the queue, however long the queue is. -/
structure Ledger (transfers : ManualTransfers P) : Prop where
  keyed : ∀ key record, transfers.records.lookup key = some record → record.key = key
  labelled : ∀ key record, transfers.records.lookup key = some record → record.Labelled
  queued : ∀ key, key ∈ transfers.terminal ↔
    ∃ record, transfers.records.lookup key = some record ∧ isTerminal record.state = true
  nodup : transfers.terminal.Nodup
  active : transfers.activeCount ≤ maxRecords
  released : ∀ key record, transfers.records.lookup key = some record →
    isTerminal record.state = true → record.Released

/-- The tables agree, and few ended transfers are kept. -/
structure Bookkeeping (transfers : ManualTransfers P) : Prop extends Ledger transfers where
  bounded : transfers.terminal.length ≤ maxTerminal

theorem Bookkeeping.new : (new : ManualTransfers P).Bookkeeping where
  keyed := by simp [ManualTransfers.new]
  labelled := by simp [ManualTransfers.new]
  queued := by simp [ManualTransfers.new]
  nodup := List.nodup_nil
  active := Nat.zero_le _
  released := by simp [ManualTransfers.new]
  bounded := Nat.zero_le _

theorem activeCount_of_lookup (found : transfers.records.lookup key = some record) :
    transfers.activeCount = { transfers with records := transfers.records.erase key }.activeCount +
        if isTerminal record.state then 0 else 1 := by
  have split := count_of_lookup
    (fun entry : Sigma fun _ : RecordKey => Record P => !isTerminal entry.2.state) found
  rw [activeCount, activeCount]
  simp only [count] at split
  rw [split]
  cases isTerminal record.state <;> rfl

theorem activeCount_insert (absent : transfers.records.lookup key = none) (record : Record P)
    (terminal : List RecordKey) :
    ({ records := transfers.records.insert key record, terminal } : ManualTransfers P).activeCount =
      transfers.activeCount + if isTerminal record.state then 0 else 1 := by
  have split := count_insert
    (fun entry : Sigma fun _ : RecordKey => Record P => !isTerminal entry.2.state)
    transfers.records key record
  rw [erase_of_lookup_none absent] at split
  rw [activeCount, activeCount]
  simp only [count] at split
  rw [split]
  cases isTerminal record.state <;> rfl

variable {terminal : List RecordKey}

variable {records : AList (fun _ : RecordKey => Record P)} {missing : List (ManualAction P)}
  {peer : P} {fingerprint : String} {now : ℕ} {io : Io} {settings : FileReceiveSettings}

theorem Ledger.forget {oldest : RecordKey} (ledger : Ledger ⟨records, oldest :: terminal⟩) :
    Ledger ⟨records.erase oldest, terminal⟩ := by
  have found : ∀ {key record}, (records.erase oldest).lookup key = some record →
      key ≠ oldest ∧ records.lookup key = some record := by
    intro key record there
    by_cases same : key = oldest
    · rw [same, lookup_erase] at there
      cases there
    · rw [lookup_erase_ne same] at there
      exact ⟨same, there⟩
  have distinct := List.nodup_cons.mp ledger.nodup
  refine ⟨?_, ?_, ?_, distinct.2, ?_, ?_⟩
  · intro key record there
    exact ledger.keyed key record (found there).2
  · intro key record there
    exact ledger.labelled key record (found there).2
  · intro key
    refine ⟨fun member => ?_, fun ended => ?_⟩
    · rcases (ledger.queued key).mp (List.mem_cons_of_mem oldest member) with ⟨record, there, ended⟩
      refine ⟨record, ?_, ended⟩
      have other : key ≠ oldest := fun same => distinct.1 (same ▸ member)
      rw [lookup_erase_ne other]
      exact there
    · rcases ended with ⟨record, there, ended⟩
      rcases List.mem_cons.mp ((ledger.queued key).mpr ⟨record, (found there).2, ended⟩) with
        same | later
      · exact absurd same (found there).1
      · exact later
  · exact (count_erase_le _ records oldest).trans ledger.active
  · intro key record there
    exact ledger.released key record (found there).2

theorem Ledger.evict (ledger : Ledger ⟨records, terminal⟩) :
    (evict records terminal).Bookkeeping := by
  induction terminal generalizing records with
  | nil => exact ⟨ledger, Nat.zero_le _⟩
  | cons _ _ ih =>
    rw [evict]
    split
    · exact ih ledger.forget
    · rename_i short
      exact ⟨ledger, Nat.le_of_not_lt short⟩

/-- The bookkeeping of the others while one record is out; `ended` says whether it was in the
queue. -/
structure Open (transfers : ManualTransfers P) (key : RecordKey) (ended : Bool) : Prop where
  absent : transfers.records.lookup key = none
  keyed : ∀ other record, transfers.records.lookup other = some record → record.key = other
  labelled : ∀ other record, transfers.records.lookup other = some record → record.Labelled
  queued : ∀ other, other ∈ transfers.terminal ↔ other = key ∧ ended = true ∨
    ∃ record, transfers.records.lookup other = some record ∧ isTerminal record.state = true
  nodup : transfers.terminal.Nodup
  active : transfers.activeCount + (if ended then 0 else 1) ≤ maxRecords
  released : ∀ other record, transfers.records.lookup other = some record →
    isTerminal record.state = true → record.Released

theorem Ledger.take (ledger : Ledger transfers)
    (found : transfers.records.lookup key = some record) :
    Open { transfers with records := transfers.records.erase key } key
      (isTerminal record.state) := by
  have other : ∀ {other record}, (transfers.records.erase key).lookup other = some record →
      other ≠ key ∧ transfers.records.lookup other = some record := by
    intro other record there
    by_cases same : other = key
    · rw [same, lookup_erase] at there
      cases there
    · rw [lookup_erase_ne same] at there
      exact ⟨same, there⟩
  refine ⟨lookup_erase _ _, ?_, ?_, ?_, ledger.nodup, ?_, ?_⟩
  · intro another record there
    exact ledger.keyed another record (other there).2
  · intro another record there
    exact ledger.labelled another record (other there).2
  · intro another
    rw [ledger.queued another]
    refine ⟨?_, ?_⟩
    · intro ended
      rcases ended with ⟨held, there, ended⟩
      by_cases same : another = key
      · rw [same, found] at there
        cases there
        exact .inl ⟨same, ended⟩
      · refine .inr ⟨held, ?_, ended⟩
        rw [lookup_erase_ne same]
        exact there
    · intro ended
      rcases ended with ⟨same, ended⟩ | ⟨held, there, ended⟩
      · exact ⟨record, same ▸ found, ended⟩
      · exact ⟨held, (other there).2, ended⟩
  · have total := ledger.active
    rw [activeCount_of_lookup found] at total
    exact total
  · intro another record there
    exact ledger.released another record (other there).2

theorem Ledger.vacant (ledger : Ledger transfers)
    (absent : transfers.records.lookup key = none) (room : transfers.activeCount < maxRecords) :
    Open transfers key false := by
  refine ⟨absent, ledger.keyed, ledger.labelled, ?_, ledger.nodup, room, ledger.released⟩
  intro other
  rw [ledger.queued other]
  simp

theorem Open.store {ended : Bool} (others : Open transfers record.key ended)
    (labelled : record.Labelled) (stays : ended = true → isTerminal record.state = true)
    (released : isTerminal record.state = true → record.Released) :
    (transfers.store record).Bookkeeping := by
  apply Ledger.evict
  have found : ∀ {key held}, (transfers.records.insert record.key record).lookup key = some held →
      key = record.key ∧ held = record ∨
        key ≠ record.key ∧ transfers.records.lookup key = some held := by
    intro key held there
    by_cases same : key = record.key
    · rw [same, lookup_insert] at there
      cases there
      exact .inl ⟨same, rfl⟩
    · rw [lookup_insert_ne same] at there
      exact .inr ⟨same, there⟩
  have listed : record.key ∈ transfers.terminal ↔ ended = true := by
    rw [others.queued]
    simp [others.absent]
  refine ⟨?_, ?_, ?_, ?_, ?_, ?_⟩
  · intro key held there
    rcases found there with ⟨rfl, rfl⟩ | ⟨_, there⟩
    · rfl
    · exact others.keyed key held there
  · intro key held there
    rcases found there with ⟨rfl, rfl⟩ | ⟨_, there⟩
    · exact labelled
    · exact others.labelled key held there
  · intro key
    have elsewhere : key ≠ record.key → (key ∈ transfers.terminal ↔
        ∃ held, (transfers.records.insert record.key record).lookup key = some held ∧
          isTerminal held.state = true) := by
      intro other
      rw [others.queued, lookup_insert_ne other]
      simp [other]
    by_cases same : key = record.key
    · rw [same, lookup_insert]
      simp only [Option.some.injEq, exists_eq_left']
      split
      · rename_i new
        simp [new.1]
      · rename_i kept
        rw [listed]
        refine ⟨stays, fun terminal => ?_⟩
        by_contra unlisted
        exact kept ⟨terminal, fun member => unlisted (listed.mp member)⟩
    · rw [← elsewhere same]
      split
      · simp [same]
      · rfl
  · dsimp only
    split
    · rename_i new
      apply List.Nodup.append others.nodup (List.nodup_singleton _)
      simpa using new.2
    · exact others.nodup
  · have room := others.active
    rw [activeCount_insert others.absent]
    cases terminal : isTerminal record.state with
    | true =>
      simp only [if_true]
      omega
    | false =>
      have live : ended = false := by
        cases ended with
        | true => simp [stays rfl] at terminal
        | false => rfl
      rw [live] at room
      exact room
  · intro key held there
    rcases found there with ⟨rfl, rfl⟩ | ⟨_, there⟩
    · exact released
    · exact others.released key held there

theorem evict_of_le (short : terminal.length ≤ maxTerminal) :
    evict records terminal = ⟨records, terminal⟩ := by
  cases terminal with
  | nil => rfl
  | cons => rw [evict, if_neg (Nat.not_lt.mpr short)]

theorem evict_lookup (records : AList (fun _ : RecordKey => Record P))
    (terminal : List RecordKey) (key : RecordKey) :
    (evict records terminal).records.lookup key = records.lookup key ∨
      key ∈ terminal ∧ (evict records terminal).records.lookup key = none := by
  induction terminal generalizing records with
  | nil => exact .inl rfl
  | cons oldest _ ih =>
    rw [evict]
    split
    · rcases ih (records.erase oldest) with same | ⟨member, gone⟩
      · by_cases first : key = oldest
        · refine .inr ⟨first ▸ (.head _), ?_⟩
          rw [same, first, lookup_erase]
        · refine .inl ?_
          rw [same, lookup_erase_ne first]
      · exact .inr ⟨List.mem_cons_of_mem oldest member, gone⟩
    · exact .inl rfl

theorem store_lookup_ne (transfers : ManualTransfers P) (record : Record P)
    (other : key ≠ record.key) :
    (transfers.store record).records.lookup key = transfers.records.lookup key ∨
      key ∈ transfers.terminal ∧ (transfers.store record).records.lookup key = none := by
  unfold store
  rcases evict_lookup (transfers.records.insert record.key record) _ key with same | ⟨member, gone⟩
  · left
    rw [same, lookup_insert_ne other]
  · right
    refine ⟨?_, gone⟩
    split at member
    · rcases List.mem_append.mp member with earlier | last
      · exact earlier
      · exact absurd (List.mem_singleton.mp last) other
    · exact member

theorem store_lookup (bounded : transfers.terminal.length ≤ maxTerminal) :
    (transfers.store record).records.lookup record.key = some record := by
  unfold store
  split
  · rename_i new
    by_cases room : (transfers.terminal ++ [record.key]).length ≤ maxTerminal
    · rw [evict_of_le room, lookup_insert]
    · cases queue : transfers.terminal with
      | nil => simp [queue, maxTerminal] at room
      | cons oldest =>
        rw [queue] at room bounded new
        rw [List.cons_append] at room ⊢
        have other : record.key ≠ oldest := fun same => new.2 (same ▸ (.head _))
        rw [evict, if_pos (Nat.lt_of_not_le room), evict_of_le]
        · rw [lookup_erase_ne other, lookup_insert]
        · simpa using bounded
  · rw [evict_of_le bounded, lookup_insert]

/-- Ended records end where they are until they are forgotten. -/
def Persists (transfers later : ManualTransfers P) : Prop :=
  ∀ key record, transfers.records.lookup key = some record → isTerminal record.state = true →
    later.records.lookup key = none ∨
      ∃ after, later.records.lookup key = some after ∧ after.state = record.state

theorem Persists.refl (transfers : ManualTransfers P) : transfers.Persists transfers :=
  fun _ record found _ => .inr ⟨record, found, rfl⟩

theorem store_persists (transfers : ManualTransfers P) (record : Record P)
    (absent : transfers.records.lookup record.key = none) :
    transfers.Persists (transfers.store record) := by
  intro key held found _
  have other : key ≠ record.key := by
    intro same
    rw [same, absent] at found
    cases found
  rcases transfers.store_lookup_ne record other with same | ⟨_, gone⟩
  · exact .inr ⟨held, same.trans found, rfl⟩
  · exact .inl gone

theorem Bookkeeping.add (book : transfers.Bookkeeping)
    (absent : transfers.records.lookup record.key = none)
    (room : transfers.activeCount < maxRecords) (labelled : record.Labelled)
    (released : isTerminal record.state = true → record.Released) :
    (transfers.store record).Bookkeeping ∧ transfers.Persists (transfers.store record) :=
  ⟨(book.vacant absent room).store labelled (fun impossible => by cases impossible) released,
    transfers.store_persists record absent⟩

variable {later : Record P}

theorem Bookkeeping.key_of_evolves (book : transfers.Bookkeeping)
    (found : transfers.records.lookup key = some record) (evolves : record.Evolves later) :
    later.key = key := by
  rw [← book.keyed key record found, Record.key, Record.key, evolves.fingerprint, evolves.id]

theorem state_of_evolves (evolves : record.Evolves later)
    (ended : isTerminal record.state = true) : later.state = record.state := by
  rw [evolves.settled ended]

theorem Bookkeeping.replace (book : transfers.Bookkeeping)
    (found : transfers.records.lookup key = some record) (evolves : record.Evolves later)
    (labelled : later.Labelled) :
    ({ transfers with records := transfers.records.erase key }.store later).Bookkeeping ∧
      transfers.Persists
        ({ transfers with records := transfers.records.erase key }.store later) := by
  have same := book.key_of_evolves found evolves
  have others := book.take found
  rw [← same] at others
  refine ⟨?_, ?_⟩
  · rw [← same]
    apply others.store labelled
    · intro ended
      rw [state_of_evolves evolves ended]
      exact ended
    · intro terminal
      cases ended : isTerminal record.state with
      | true =>
        have kept := book.released key record found ended
        rw [evolves.settled ended]
        exact ⟨kept.offer, kept.outgoing, kept.incoming, kept.replacement⟩
      | false => exact evolves.released ended terminal
  · intro other held there terminal
    by_cases this : other = key
    · rw [this, found] at there
      cases there
      right
      refine ⟨later, ?_, state_of_evolves evolves terminal⟩
      rw [this, ← same]
      exact store_lookup book.bounded
    · have apart : other ≠ later.key := fun equal => this (equal.trans same)
      rcases store_lookup_ne { transfers with records := transfers.records.erase key } later apart
        with kept | ⟨_, gone⟩
      · refine .inr ⟨held, ?_, rfl⟩
        rw [kept, lookup_erase_ne this]
        exact there
      · exact .inl gone

variable {handle : Record P → Reply P}

theorem Bookkeeping.update (book : transfers.Bookkeeping)
    (handles : ∀ record, transfers.records.lookup key = some record →
      record.Evolves (handle record).record ∧ (handle record).record.Labelled) :
    (transfers.update key handle missing).state.Bookkeeping ∧
      transfers.Persists (transfers.update key handle missing).state := by
  unfold ManualTransfers.update
  split
  · exact ⟨book, .refl transfers⟩
  · rename_i record found
    rcases handles record found with ⟨evolves, labelled⟩
    exact book.replace found evolves labelled

theorem Persists.trans {middle last : ManualTransfers P} (first : transfers.Persists middle)
    (second : middle.Persists last)
    (gone : ∀ key, middle.records.lookup key = none → last.records.lookup key = none) :
    transfers.Persists last := by
  intro key record found ended
  rcases first key record found ended with absent | ⟨held, there, same⟩
  · exact .inl (gone key absent)
  · rcases second key held there (same ▸ ended) with absent | ⟨after, last, kept⟩
    · exact .inl absent
    · exact .inr ⟨after, last, kept.trans same⟩

theorem update_lookup_other (book : transfers.Bookkeeping) {other : RecordKey}
    (different : other ≠ key) (evolves : ∀ record, transfers.records.lookup key = some record →
      record.Evolves (handle record).record) :
    (transfers.update key handle missing).state.records.lookup other =
        transfers.records.lookup other ∨
      (transfers.update key handle missing).state.records.lookup other = none := by
  unfold update
  split
  · exact .inl rfl
  · rename_i record found
    have same := book.key_of_evolves found (evolves record found)
    rcases store_lookup_ne { transfers with records := transfers.records.erase key }
      (handle record).record (fun equal => different (equal.trans same)) with kept | ⟨_, gone⟩
    · rw [kept, lookup_erase_ne different]
      exact .inl rfl
    · exact .inr gone

theorem update_lookup_none {other : RecordKey} (book : transfers.Bookkeeping)
    (handles : ∀ record, transfers.records.lookup key = some record →
      record.Evolves (handle record).record) (absent : transfers.records.lookup other = none) :
    (transfers.update key handle missing).state.records.lookup other = none := by
  by_cases same : other = key
  · rwa [update_absent (same ▸ absent)]
  · rcases update_lookup_other book same handles with kept | gone
    · exact kept.trans absent
    · exact gone

theorem Bookkeeping.handled (book : transfers.Bookkeeping) (handles : ∀ record, record.Labelled →
      record.Evolves (handle record).record ∧ (handle record).record.Labelled) (key : RecordKey) :
    ∀ record, transfers.records.lookup key = some record →
      record.Evolves (handle record).record ∧ (handle record).record.Labelled :=
  fun record found => handles record (book.labelled key record found)

theorem sweep_lookup_none (handles : ∀ record, record.Labelled →
      record.Evolves (handle record).record ∧ (handle record).record.Labelled)
    (keys : List RecordKey) (book : transfers.Bookkeeping)
    (absent : transfers.records.lookup key = none) :
    (transfers.sweep handle keys).state.records.lookup key = none := by
  induction keys generalizing transfers with
  | nil => exact absent
  | cons first _ ih =>
    have proper := book.handled handles first
    exact ih (book.update proper).1
      (update_lookup_none book (fun record found => (proper record found).1) absent)

theorem Bookkeeping.sweep (handles : ∀ record, record.Labelled →
      record.Evolves (handle record).record ∧ (handle record).record.Labelled)
    (keys : List RecordKey) (book : transfers.Bookkeeping) :
    (transfers.sweep handle keys).state.Bookkeeping ∧
      transfers.Persists (transfers.sweep handle keys).state := by
  induction keys generalizing transfers with
  | nil => exact ⟨book, .refl transfers⟩
  | cons first keys ih =>
    have proper := book.handled handles first
    have updated : (transfers.update first handle []).state.Bookkeeping ∧
        transfers.Persists (transfers.update first handle []).state := book.update proper
    have rest := ih updated.1
    refine ⟨rest.1, updated.2.trans rest.2 ?_⟩
    intro _ absent
    exact sweep_lookup_none handles keys updated.1 absent

theorem drawTransferId_fresh {draws : ℕ → Option UInt64} {attempts attempt : ℕ} {id : UInt64}
    (drawn : transfers.drawTransferId draws attempts attempt = some id) :
    id ≠ 0 ∧ ∀ fingerprint, transfers.records.lookup (fingerprint, id) = none := by
  induction attempts generalizing attempt with
  | zero => cases drawn
  | succ _ ih =>
    rw [drawTransferId] at drawn
    split at drawn
    · cases drawn
    · split at drawn
      · rename_i number _ fresh
        cases drawn
        refine ⟨fresh.1, fun _ => ?_⟩
        apply lookup_eq_none.mpr
        intro member
        apply fresh.2
        exact List.any_eq_true.mpr ⟨_, mem_keys.mp member, by simp⟩
      · exact ih drawn

theorem sendFile_cases (transfers : ManualTransfers P) (peer : P) (fingerprint : String)
    (source : Source) (now : ℕ) :
    (∃ notes : List FrontendEvent, (transfers.sendFile peer fingerprint source now).1 =
        ⟨transfers, notes.map .notify, []⟩) ∨
      ∃ id offer entry, id ≠ 0 ∧ transfers.records.lookup (fingerprint, id) = none ∧
        transfers.activeCount < maxRecords ∧
        FileOffer.fromRegularFile source.io id source.path = .ok offer ∧
        offer.entries.head? = some entry ∧
        (transfers.sendFile peer fingerprint source now).1 =
          ⟨transfers.store (newOffering peer fingerprint id offer entry now),
            [.send peer (.manualFileOffer id entry.path entry.size),
              (newOffering peer fingerprint id offer entry now).notify], []⟩ := by
  unfold sendFile
  split
  · exact .inl ⟨[_], rfl⟩
  · rename_i room
    split
    · exact .inl ⟨[_], rfl⟩
    · rename_i id drawn
      split
      · exact .inl ⟨[_], rfl⟩
      · split
        · exact .inl ⟨[_], rfl⟩
        · rename_i offer opened
          split
          · exact .inl ⟨[], rfl⟩
          · rename_i entry others entries
            rcases drawTransferId_fresh drawn with ⟨nonzero, fresh⟩
            refine .inr ⟨id, offer, entry, nonzero, fresh fingerprint, Nat.lt_of_not_le room,
              opened,
              ?_, rfl⟩
            rw [entries, List.head?_cons]

theorem Bookkeeping.sendFile (book : transfers.Bookkeeping) (peer : P) (fingerprint : String)
    (source : Source) (now : ℕ) :
    (transfers.sendFile peer fingerprint source now).1.state.Bookkeeping ∧
      transfers.Persists (transfers.sendFile peer fingerprint source now).1.state := by
  rcases transfers.sendFile_cases peer fingerprint source now with
    ⟨_, same⟩ | ⟨_, _, _, _, absent, room, _, _, stored⟩
  · rw [same]
    exact ⟨book, .refl transfers⟩
  · rw [stored]
    apply book.add
    · exact absent
    · exact room
    · refine ⟨?_, ?_⟩
      · intro event due
        cases due
        rfl
      · intro _ due
        cases due
    · intro ended
      cases ended

theorem sendFile_lookup_none {source : Source}
    (book : transfers.Bookkeeping) (found : transfers.records.lookup key = some record)
    (gone : (transfers.sendFile peer fingerprint source now).1.state.records.lookup key = none) :
    False := by
  rcases transfers.sendFile_cases peer fingerprint source now with
    ⟨_, same⟩ | ⟨id, offer, entry, _, absent, _, _, _, stored⟩
  · rw [same, found] at gone
    cases gone
  · rw [stored] at gone
    change (evict _ _).records.lookup key = none at gone
    have quiet : isTerminal (newOffering peer fingerprint id offer entry now).state = false :=
      rfl
    rw [quiet, if_neg (by simp), evict_of_le book.bounded] at gone
    have other : key ≠ (newOffering peer fingerprint id offer entry now).key := by
      intro same
      rw [same] at found
      rw [show (newOffering peer fingerprint id offer entry now).key = (fingerprint, id)
        from rfl, absent] at found
      cases found
    rw [lookup_insert_ne other, found] at gone
    cases gone

theorem Bookkeeping.sendFiles (peer : P) (fingerprint : String) (now : ℕ) (sources : List Source)
    (book : transfers.Bookkeeping) :
    (transfers.sendFiles peer fingerprint now sources).state.Bookkeeping ∧
      transfers.Persists (transfers.sendFiles peer fingerprint now sources).state := by
  induction sources generalizing transfers with
  | nil => exact ⟨book, .refl transfers⟩
  | cons source _ ih =>
    have turn := book.sendFile peer fingerprint source now
    unfold ManualTransfers.sendFiles
    dsimp only
    split
    · have rest := ih turn.1
      refine ⟨rest.1, ?_⟩
      intro key record found ended
      rcases turn.2 key record found ended with gone | ⟨held, there, same⟩
      · exact (sendFile_lookup_none book found gone).elim
      · rcases rest.2 key held there (same ▸ ended) with gone | ⟨after, last, kept⟩
        · exact .inl gone
        · exact .inr ⟨after, last, kept.trans same⟩
    · exact turn

theorem Bookkeeping.store_eq_insert (book : transfers.Bookkeeping)
    (found : transfers.records.lookup key = some record) (same : later.key = key)
    (state : later.state = record.state) :
    { transfers with records := transfers.records.erase key }.store later =
      { transfers with records := transfers.records.insert key later } := by
  have queued : ¬(isTerminal later.state = true ∧ later.key ∉ transfers.terminal) := by
    intro new
    apply new.2
    rw [same, book.queued key]
    exact ⟨record, found, state ▸ new.1⟩
  have reinserted : (transfers.records.erase key).insert later.key later =
      transfers.records.insert key later := by
    subst same
    apply ext
    rw [entries_insert, entries_insert]
    congr 1
    exact List.kerase_of_notMem_keys (List.notMem_keys_kerase _ transfers.records.nodupKeys)
  unfold store
  rw [if_neg queued, evict_of_le book.bounded, reinserted]

theorem Bookkeeping.receiveOffer {offer : OfferedFile P} (book : transfers.Bookkeeping) :
    (transfers.receiveOffer io offer settings now).state.Bookkeeping ∧
      transfers.Persists (transfers.receiveOffer io offer settings now).state := by
  unfold ManualTransfers.receiveOffer
  dsimp only
  split
  · exact ⟨book, .refl transfers⟩
  · split
    · rename_i record found
      split
      · exact ⟨book, .refl transfers⟩
      · have labelled := book.labelled _ record found
        have evolves := Evolves.reroute record offer.peer
        have replaced := book.replace found evolves (labelled.reroute offer.peer)
        rw [book.store_eq_insert found (book.key_of_evolves found evolves) rfl] at replaced
        exact replaced
    · rename_i absent
      split
      · exact ⟨book, .refl transfers⟩
      · rename_i room
        have proper := offer.reply_proper io settings now
        have key : (offer.reply io settings now).record.key = (offer.fingerprint, offer.id) := by
          rw [key, proper.evolves.fingerprint, proper.evolves.id]
          rfl
        apply book.add
        · exact key ▸ absent
        · exact Nat.lt_of_not_le room
        · exact proper.labelled
        · exact proper.evolves.released rfl

theorem Bookkeeping.handleProtocol {sha256 : Bytes → Digest} {event : ProtoEvent}
    (book : transfers.Bookkeeping) :
    (transfers.handleProtocol sha256 io peer fingerprint event settings now).state.Bookkeeping ∧
      transfers.Persists
        (transfers.handleProtocol sha256 io peer fingerprint event settings now).state := by
  unfold ManualTransfers.handleProtocol
  split
  · exact book.receiveOffer
  · split
    · exact ⟨book, .refl transfers⟩
    · apply book.update
      intro record found
      have labelled := (book.labelled _ record found).reroute peer
      have handled : (record.reroute peer).Proper now
          ((record.reroute peer).handle sha256 io event now) := .handle labelled event
      exact ⟨handled.evolves.of_reroute, handled.labelled⟩

end ManualTransfers

/-- The operations of a device, with what they are told from outside. -/
inductive Operation (P : Type) where
  | sendFiles (peer : P) (fingerprint : String) (sources : List ManualTransfers.Source) (now : ℕ)
  | handleProtocol (io : Io) (peer : P) (fingerprint : String) (event : ProtoEvent)
      (settings : FileReceiveSettings) (now : ℕ)
  | accept (io : Io) (fingerprint : String) (transferId : UInt64) (directory : PathBuf) (now : ℕ)
  | overwrite (io : Io) (fingerprint : String) (transferId : UInt64) (directory : PathBuf) (now : ℕ)
  | decline (fingerprint : String) (transferId : UInt64) (now : ℕ)
  | cancel (fingerprint : String) (transferId : UInt64) (now : ℕ)
  | tick (now : ℕ) (order : IterOrder)
  | refreshRoutes (routes : AList (fun _ : String => P)) (now : ℕ) (order : IterOrder)

def Operation.output (sha256 : Bytes → Digest) (transfers : ManualTransfers P) :
    Operation P → Output P
  | .sendFiles peer fingerprint sources now => transfers.sendFiles peer fingerprint now sources
  | .handleProtocol io peer fingerprint event settings now =>
    transfers.handleProtocol sha256 io peer fingerprint event settings now
  | .accept io fingerprint transferId directory now =>
    transfers.accept io fingerprint transferId directory now
  | .overwrite io fingerprint transferId directory now =>
    transfers.overwrite io fingerprint transferId directory now
  | .decline fingerprint transferId now => transfers.decline fingerprint transferId now
  | .cancel fingerprint transferId now => transfers.cancel fingerprint transferId now
  | .tick now order => transfers.tick now order
  | .refreshRoutes routes now order => transfers.refreshRoutes routes now order

def device (P : Type) (sha256 : Bytes → Digest) :
    StateMachine.Machine (ManualTransfers P) (Operation P) where
  initial := .new
  enabled _ _ := True
  next transfers operation := (operation.output sha256 transfers).state

variable {sha256 : Bytes → Digest}

theorem ManualTransfers.Bookkeeping.output {transfers : ManualTransfers P}
    (book : transfers.Bookkeeping) (operation : Operation P) :
    (operation.output sha256 transfers).state.Bookkeeping ∧
      transfers.Persists (operation.output sha256 transfers).state := by
  have proper : ∀ {handle : Record P → Reply P} {key : RecordKey} {now : ℕ},
      (∀ record : Record P, record.Labelled → record.Proper now (handle record)) →
      ∀ record, transfers.records.lookup key = some record →
        record.Evolves (handle record).record ∧ (handle record).record.Labelled := by
    intro _ key _ keeps record found
    have kept := keeps record (book.labelled key record found)
    exact ⟨kept.evolves, kept.labelled⟩
  cases operation with
  | sendFiles peer fingerprint sources now => exact book.sendFiles peer fingerprint now sources
  | handleProtocol => exact book.handleProtocol
  | accept => exact book.update (proper fun _ labelled => .prepareReceiver labelled _ _)
  | overwrite => exact book.update (proper fun _ labelled => .overwrite labelled _)
  | decline => exact book.update (proper fun _ labelled => .decline labelled)
  | cancel => exact book.update (proper fun _ labelled => .cancel labelled)
  | tick now =>
    exact Bookkeeping.sweep tick_evolves _ book
  | refreshRoutes =>
    apply Bookkeeping.sweep _ _ book
    intro _ labelled
    exact ⟨(refresh_evolves labelled _).1, (refresh_evolves labelled _).2.1⟩

theorem device_invariant :
    (device P sha256).Invariant Bookkeeping where
  initial := .new
  next _ operation book _ := (book.output operation).1

/-- In every state a device can reach, the queue of ended transfers is exact, free of duplicates
and short, at most 32 transfers are alive, ended transfers hold no file, and no operation changes
the state of an ended transfer that it does not forget. -/
theorem device_bookkeeping {sha256 : Bytes → Digest} {transfers : ManualTransfers P}
    {history : List (ManualTransfers P)}
    (run : StateMachine.Run (device P sha256) (transfers :: history)) :
    (∀ key, key ∈ transfers.terminal ↔
      ∃ record, transfers.records.lookup key = some record ∧ isTerminal record.state = true) ∧
    transfers.terminal.Nodup ∧ transfers.terminal.length ≤ maxTerminal ∧
    transfers.activeCount ≤ maxRecords ∧
    (∀ key record, transfers.records.lookup key = some record →
      isTerminal record.state = true →
        record.outgoing = none ∧ record.incoming = none ∧ record.offer = none) ∧
    ∀ operation : Operation P, transfers.Persists ((device P sha256).next transfers operation) := by
  have book := run.invariant device_invariant transfers (.head _)
  refine ⟨book.queued, book.nodup, book.bounded, book.active, ?_, ?_⟩
  · intro key record found ended
    have released := book.released key record found ended
    exact ⟨released.outgoing, released.incoming, released.offer⟩
  · intro operation
    exact (book.output operation).2

def declining : List (Operation Unit) :=
  [.handleProtocol (.obliging 0 []) () "peer" (.manualFileOffer 7 "a.txt" 3) ⟨false, .empty⟩ 0,
    .decline "peer" 7 1]

theorem device_bookkeeping_declining :
    ((device Unit (fun _ => .replicate 32 0)).after .new declining).terminal = [("peer", 7)] ∧
      ((device Unit (fun _ => .replicate 32 0)).after .new declining).activeCount ≤ maxRecords := by
  refine ⟨by decide +kernel, ?_⟩
  rcases @StateMachine.Run.of_follows _ _ (device Unit (fun _ => .replicate 32 0)) declining
    ⟨trivial, trivial, trivial⟩ with ⟨history, run⟩
  exact (device_bookkeeping run).2.2.2.1

end Syntra.Manual
