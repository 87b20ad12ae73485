import Syntra.Manual.Approval
import Syntra.Manual.Confinement

/-!
# Silence ends transfers

When no message and no user acts on a transfer, only the timer does. A record that the timer
repeats for often enough is given up: after its deadline while it waits for approval, else when its
retries are used up. An ended record is told to the peer a few more times.
-/

namespace Syntra.Manual

open ByteFormat Proto Files ManualTransfers Record List StateMachine

variable {P : Type} {record : Record P} {sha256 : Bytes → Digest} {io : Io} {now limit : ℕ}

def Record.ActiveBy (limit : ℕ) (record : Record P) : Prop :=
  record.lastActivity ≤ limit

namespace ManualTransfers

variable {transfers : ManualTransfers P} {key : RecordKey}

def All (holds : Record P → Prop) (transfers : ManualTransfers P) : Prop :=
  ∀ key record, transfers.records.lookup key = some record → holds record

theorem activeBy_output (book : transfers.Bookkeeping) (operation : Operation P)
    (inTime : operation.clock ≤ limit) (active : transfers.All (·.ActiveBy limit)) :
    (operation.output sha256 transfers).state.All (·.ActiveBy limit) := by
  intro key later found
  rcases book.onTime operation key later found with ⟨record, there, continues⟩ | ⟨_, begins⟩
  · rcases continues.active with kept | new
    · exact kept.trans_le (active key record there)
    · exact new.trans_le inTime
  · exact begins.active.trans_le inTime

theorem activeBy_after {operations : List (Operation P)} (book : transfers.Bookkeeping)
    (past : ∀ operation ∈ operations, operation.clock ≤ limit)
    (active : transfers.All (·.ActiveBy limit)) :
    ((device P sha256).after transfers operations).All (·.ActiveBy limit) := by
  induction operations generalizing transfers with
  | nil => exact active
  | cons operation _ ih =>
    have now := past operation (.head _)
    exact ih (book.output operation).1 (fun later member => past later (mem_cons_of_mem _ member))
      (activeBy_output book operation now active)

end ManualTransfers

namespace Record

def silent (record : Record P) (times : List ℕ) : Record P :=
  times.foldl (fun record now => (record.tick now).record) record

/-- The times are apart by at least the time after which a silent record is retried. -/
def Spaced (times : List ℕ) : Prop :=
  times.Pairwise fun earlier later => earlier + retryTimeout ≤ later

theorem tick_ended (ended : isTerminal record.state = true) :
    isTerminal (record.tick now).record.state = true := by
  unfold tick
  rw [if_pos ended]
  split
  · exact ended
  · exact ended

variable {times : List ℕ}

theorem silent_ended (ended : isTerminal record.state = true) :
    isTerminal (record.silent times).state = true := by
  induction times generalizing record with
  | nil => exact ended
  | cons _ _ ih => exact ih (tick_ended ended)

theorem tick_waiting (now : ℕ) (live : isTerminal record.state = false)
    (waiting : record.state = .awaitingAcceptance ∨ now < record.lastActivity + retryTimeout) :
    isTerminal (record.tick now).record.state = true ∨ (record.tick now).record = record := by
  have early : ¬(record.state ≠ .awaitingAcceptance ∧
      retryTimeout ≤ now - record.lastActivity) := by
    rintro ⟨other, _⟩
    rcases waiting with awaiting | _
    · exact other awaiting
    · have positive : 0 < retryTimeout := by decide
      omega
  unfold tick
  rw [if_neg (by simp [live]), if_neg early]
  split
  · exact .inl rfl
  · exact .inr rfl

theorem tick_expired (awaiting : record.state = .awaitingAcceptance)
    (late : record.approvalDeadline ≤ now) :
    isTerminal (record.tick now).record.state = true := by
  unfold tick
  rw [if_neg (by simp [awaiting, isTerminal]), if_pos ⟨.inr awaiting, late⟩]
  rfl

theorem tick_due (live : isTerminal record.state = false)
    (other : record.state ≠ .awaitingAcceptance) (due : record.lastActivity + retryTimeout ≤ now) :
    isTerminal (record.tick now).record.state = true ∨ record.retries < maxRetries ∧
      (record.tick now).record = (record.retry now).record := by
  unfold tick
  rw [if_neg (by simp [live])]
  split
  · exact .inl rfl
  · rw [if_pos ⟨other, Nat.le_sub_of_add_le' due⟩]
    split
    · exact .inl rfl
    · rename_i left
      exact .inr ⟨Nat.lt_of_not_le left, rfl⟩

theorem tick_retries (record : Record P) (now : ℕ) :
    isTerminal (record.tick now).record.state = isTerminal record.state ∧
        ((record.tick now).record.retries = record.retries ∨ record.retries < maxRetries ∧
          (record.tick now).record.retries = record.retries + 1) ∨
      isTerminal record.state = false ∧ isTerminal (record.tick now).record.state = true ∧
        (record.tick now).record.retries = 0 := by
  unfold tick
  split
  · split
    · rename_i due
      exact .inl ⟨rfl, .inr ⟨due.1, rfl⟩⟩
    · exact .inl ⟨rfl, .inl rfl⟩
  · rename_i live
    rw [Bool.not_eq_true] at live
    split
    · exact .inr ⟨live, rfl, rfl⟩
    · split
      · split
        · exact .inr ⟨live, rfl, rfl⟩
        · rename_i left
          exact .inl ⟨rfl, .inr ⟨Nat.lt_of_not_le left, rfl⟩⟩
      · exact .inl ⟨rfl, .inl rfl⟩

theorem tick_tells (record : Record P) (now : ℕ) :
    Brief (record.tick now).actions ∧ (sends (record.tick now).actions ≠ [] →
      (record.tick now).record.retries = record.retries + 1 ∨
        isTerminal record.state = false ∧ isTerminal (record.tick now).record.state = true) := by
  have retried : Brief (record.retry now).actions := by
    unfold retry
    cases record.retryEvent with
    | none => exact brief_nil
    | some => exact (brief_send _ _).mpr rfl
  unfold tick
  split
  · split
    · exact ⟨retried, fun _ => .inl rfl⟩
    · exact ⟨brief_nil, fun told => absurd rfl told⟩
  · rename_i live
    rw [Bool.not_eq_true] at live
    split
    · exact ⟨by simp [expire, send, notify], fun _ => .inr ⟨live, rfl⟩⟩
    · split
      · split
        · exact ⟨by simp [expire, send, notify], fun _ => .inr ⟨live, rfl⟩⟩
        · exact ⟨retried, fun _ => .inl rfl⟩
      · exact ⟨brief_nil, fun told => absurd rfl told⟩

theorem silent_cons (record : Record P) (now : ℕ) (times : List ℕ) :
    record.silent (now :: times) = (record.tick now).record.silent times :=
  rfl

theorem silent_due (spaced : Spaced times) (other : record.state ≠ .awaitingAcceptance)
    (due : ∀ now ∈ times, record.lastActivity + retryTimeout ≤ now) (nonempty : times ≠ [])
    (enough : maxRetries < record.retries + times.length) :
    isTerminal (record.silent times).state = true := by
  induction times generalizing record with
  | nil => exact absurd rfl nonempty
  | cons now times ih =>
    rw [silent_cons]
    rcases pairwise_cons.mp spaced with ⟨later, spaced⟩
    cases live : isTerminal record.state with
    | true => exact silent_ended (tick_ended live)
    | false =>
      rcases tick_due live other (due now (.head _)) with ended | ⟨_, retried⟩
      · exact silent_ended ended
      · rw [length_cons] at enough
        rw [retried]
        refine ih spaced ?_ ?_ ?_ ?_
        · exact other
        · exact later
        · rintro rfl
          rw [length_nil] at enough
          omega
        · change maxRetries < record.retries + 1 + times.length
          omega

theorem silent_awaiting (awaiting : record.state = .awaitingAcceptance)
    (past : ∃ now ∈ times, record.approvalDeadline ≤ now) :
    isTerminal (record.silent times).state = true := by
  induction times with
  | nil => simp at past
  | cons now _ ih =>
    rw [silent_cons]
    have live : isTerminal record.state = false := by simp [awaiting, isTerminal]
    rcases tick_waiting now live (.inl awaiting) with ended | same
    · exact silent_ended ended
    · rcases past with ⟨next, member, late⟩
      rcases mem_cons.mp member with rfl | later
      · exact silent_ended (tick_expired awaiting late)
      · rw [same]
        exact ih ⟨next, later, late⟩

theorem silent_terminal (active : record.ActiveBy limit) (spaced : Spaced times)
    (onward : ∀ now ∈ times, limit ≤ now) (enough : maxRetries + 2 ≤ times.length)
    (past : record.state = .awaitingAcceptance → ∃ now ∈ times, record.approvalDeadline ≤ now) :
    isTerminal (record.silent times).state = true := by
  cases times with
  | nil => cases enough
  | cons now times =>
    rw [length_cons] at enough
    have nonempty : times ≠ [] := by
      rintro rfl
      cases Nat.le_of_succ_le_succ enough
    have started : record.lastActivity ≤ now := active.trans (onward now (.head _))
    rcases pairwise_cons.mp spaced with ⟨later, spaced⟩
    by_cases awaiting : record.state = .awaitingAcceptance
    · exact silent_awaiting awaiting (past awaiting)
    · rw [silent_cons]
      cases live : isTerminal record.state with
      | true => exact silent_ended (tick_ended live)
      | false =>
        by_cases due : record.lastActivity + retryTimeout ≤ now
        · rcases tick_due live awaiting due with ended | ⟨_, retried⟩
          · exact silent_ended ended
          · rw [retried]
            refine silent_due spaced ?_ ?_ nonempty ?_
            · exact awaiting
            · exact later
            · change maxRetries < record.retries + 1 + times.length
              omega
        · rcases tick_waiting now live (.inr (Nat.lt_of_not_le due)) with ended | same
          · exact silent_ended ended
          · rw [same]
            apply silent_due spaced awaiting _ nonempty
            · omega
            · intro next member
              have apart := later next member
              omega

end Record

/-- What one operation does to one record. -/
structure Turn (P : Type) where
  key : RecordKey
  record : Record P
  reply : Reply P

def Turn.isRetry (turn : Turn P) : Bool :=
  turn.reply.record.retries = turn.record.retries + 1

namespace ManualTransfers

variable {transfers : ManualTransfers P} {key : RecordKey} {handle : Record P → Reply P}

def turns (handle : Record P → Reply P) (transfers : ManualTransfers P) :
    List RecordKey → List (Turn P)
  | [] => []
  | key :: keys =>
    ((transfers.records.lookup key).map fun record => ⟨key, record, handle record⟩).toList ++
      (transfers.update key handle []).state.turns handle keys

theorem reply_of_turns {turn : Turn P} {keys : List RecordKey}
    (member : turn ∈ transfers.turns handle keys) : turn.reply = handle turn.record := by
  induction keys generalizing transfers with
  | nil => cases member
  | cons _ _ ih =>
    rcases mem_append.mp member with own | later
    · rw [Option.mem_toList, Option.map_eq_some_iff] at own
      rcases own with ⟨_, _, rfl⟩
      rfl
    · exact ih later

/-- How a sweep comes to a record: its turn is on what it was before and makes what it is
afterwards, unless it is forgotten. -/
inductive TurnEffect (key : RecordKey) (handle : Record P → Reply P)
    (before later : Option (Record P)) : List (Turn P) → Prop
  | missed (gone : later = none) : TurnEffect key handle before later []
  | taken (record : Record P) (found : before = some record)
      (after : later = some (handle record).record ∨ later = none) :
      TurnEffect key handle before later [⟨key, record, handle record⟩]

theorem update_lookup_self (book : transfers.Bookkeeping)
    (found : transfers.records.lookup key = some record)
    (evolves : record.Evolves (handle record).record) :
    (transfers.update key handle []).state.records.lookup key = some (handle record).record := by
  have same := book.key_of_evolves found evolves
  simp only [update, found]
  rw [← same]
  exact store_lookup book.bounded

section Sweep

variable (handles : ∀ record, record.Labelled →
  record.Evolves (handle record).record ∧ (handle record).record.Labelled)

include handles

theorem sweep_skips {keys : List RecordKey} (book : transfers.Bookkeeping) (unlisted : key ∉ keys) :
    (transfers.turns handle keys).filter (·.key = key) = [] ∧
      ((transfers.sweep handle keys).state.records.lookup key = transfers.records.lookup key ∨
        (transfers.sweep handle keys).state.records.lookup key = none) := by
  induction keys generalizing transfers with
  | nil => exact ⟨rfl, .inl rfl⟩
  | cons first _ ih =>
    rw [mem_cons, not_or] at unlisted
    have proper := book.handled handles first
    have updated : (transfers.update first handle []).state.Bookkeeping := (book.update proper).1
    rcases ih updated unlisted.2 with ⟨none, rest⟩
    refine ⟨?_, ?_⟩
    · rw [turns, filter_append, none, append_nil]
      cases transfers.records.lookup first with
      | none => rfl
      | some => simp [Ne.symm unlisted.1]
    · rcases rest with same | gone
      · rcases update_lookup_other book unlisted.1
          (fun record found => (proper record found).1) with kept | gone
        · exact .inl (same.trans kept)
        · exact .inr (same.trans gone)
      · exact .inr gone

theorem sweep_turn {keys : List RecordKey} (book : transfers.Bookkeeping) (nodup : keys.Nodup)
    (listed : key ∈ keys) :
    TurnEffect key handle (transfers.records.lookup key)
      ((transfers.sweep handle keys).state.records.lookup key)
      ((transfers.turns handle keys).filter (·.key = key)) := by
  induction keys generalizing transfers with
  | nil => cases listed
  | cons first keys ih =>
    have proper := book.handled handles first
    have updated : (transfers.update first handle []).state.Bookkeeping := (book.update proper).1
    rcases nodup_cons.mp nodup with ⟨once, nodup⟩
    rw [turns, filter_append]
    by_cases same : key = first
    · subst same
      rcases sweep_skips handles updated once with ⟨none, rest⟩
      rw [none, append_nil]
      cases found : transfers.records.lookup key with
      | none =>
        refine .missed ?_
        have absent : (transfers.update key handle []).state.records.lookup key = Option.none :=
          by simp only [update, found]
        rw [absent] at rest
        exact rest.elim id id
      | some record =>
        have stored := update_lookup_self book found (proper record found).1
        rw [stored] at rest
        have turn : filter (·.key = key)
            (Option.map (fun record => (⟨key, record, handle record⟩ : Turn P))
              (some record)).toList = [⟨key, record, handle record⟩] := by simp
        rw [turn]
        exact .taken record rfl rest
    · have later := ih updated nodup ((mem_cons.mp listed).resolve_left same)
      have others : filter (·.key = key) ((transfers.records.lookup first).map
          fun record => (⟨first, record, handle record⟩ : Turn P)).toList = [] := by
        cases transfers.records.lookup first with
        | none => rfl
        | some => simp [Ne.symm same]
      rw [others, nil_append]
      rcases update_lookup_other book same
        (fun record found => (proper record found).1) with kept | gone
      · rw [kept] at later
        exact later
      · rw [gone] at later
        generalize ((transfers.update first handle []).state.turns handle keys).filter
          (·.key = key) = own at later ⊢
        cases later with
        | missed gone => exact .missed gone
        | taken _ found => cases found

end Sweep

def tickTurns (transfers : ManualTransfers P) (tick : ℕ × IterOrder) :
    ManualTransfers P × List (Turn P) :=
  ((transfers.tick tick.1 tick.2).state,
    transfers.turns (·.tick tick.1) (tick.2.arrange transfers.records.keys))

theorem ticks_of_turns (ticks : List (ℕ × IterOrder)) :
    ∀ turn ∈ (outcome tickTurns transfers ticks).2, ∃ now, turn.reply = turn.record.tick now := by
  apply outcome_accounts fun (_ : ManualTransfers P) (turns : List (Turn P)) =>
    ∀ turn ∈ turns, ∃ now, turn.reply = turn.record.tick now
  · intro _ _ tick before turn member
    rcases mem_append.mp member with earlier | new
    · exact before turn earlier
    · exact ⟨tick.1, reply_of_turns new⟩
  · exact fun _ member => nomatch member

theorem tick_turn (book : transfers.Bookkeeping) (tick : ℕ × IterOrder) (key : RecordKey) :
    TurnEffect key (·.tick tick.1) (transfers.records.lookup key)
      ((transfers.tickTurns tick).1.records.lookup key)
      ((transfers.tickTurns tick).2.filter (·.key = key)) := by
  have order := tick.2.perm transfers.records.keys
  by_cases listed : key ∈ transfers.records.keys
  · have nodup : (tick.2.arrange transfers.records.keys).Nodup :=
      order.nodup_iff.mpr transfers.records.keys_nodup
    exact sweep_turn tick_evolves book nodup (order.mem_iff.mpr listed)
  · have absent : transfers.records.lookup key = none :=
      AList.lookup_eq_none.mpr fun member => listed (AList.mem_keys.mpr member)
    have unlisted : key ∉ tick.2.arrange transfers.records.keys :=
      fun member => listed (order.mem_iff.mp member)
    rcases sweep_skips tick_evolves book unlisted with ⟨none, rest⟩
    rw [absent, or_self] at rest
    change TurnEffect key _ _ _ (filter _ (transfers.turns _ _))
    rw [none]
    exact .missed rest

theorem Bookkeeping.tickTurns (book : transfers.Bookkeeping) (tick : ℕ × IterOrder) :
    (transfers.tickTurns tick).1.Bookkeeping :=
  (Bookkeeping.sweep tick_evolves _ book).1

theorem silent_of_ticks {ticks : List (ℕ × IterOrder)} (book : transfers.Bookkeeping)
    {held : Record P} (there : (outcome tickTurns transfers ticks).1.records.lookup key =
      some held) :
    ∃ record, transfers.records.lookup key = some record ∧
      held = record.silent (ticks.map (·.1)) := by
  induction ticks generalizing transfers with
  | nil => exact ⟨held, there, rfl⟩
  | cons tick _ ih =>
    rcases ih (book.tickTurns tick) there with ⟨_, found, same⟩
    have turn := transfers.tick_turn book tick key
    generalize (transfers.tickTurns tick).2.filter (·.key = key) = own at turn
    cases turn with
    | missed gone => cases gone.symm.trans found
    | taken record before after =>
      rcases after with after | gone
      · cases after.symm.trans found
        exact ⟨record, before, same⟩
      · cases gone.symm.trans found

/-- The turns so far in which a live record, or an ended one, was told again. -/
def retriesOf (key : RecordKey) (ended : Bool) (turns : List (Turn P)) : ℕ :=
  (turns.filter (·.key = key)).countP fun turn =>
    turn.isRetry && isTerminal turn.record.state == ended

/-- The retries of a record since the ticks began are within what was left of its budget. -/
structure WithinBudget (key : RecordKey) (start : Record P) (transfers : ManualTransfers P)
    (turns : List (Turn P)) : Prop where
  book : transfers.Bookkeeping
  live : retriesOf key false turns ≤ maxRetries - start.retries
  ended : retriesOf key true turns ≤
    maxRetries - if isTerminal start.state then start.retries else 0
  running : ∀ record, transfers.records.lookup key = some record →
    isTerminal record.state = false → isTerminal start.state = false ∧
      retriesOf key false turns + start.retries ≤ record.retries ∧ retriesOf key true turns = 0
  telling : ∀ record, transfers.records.lookup key = some record →
    isTerminal record.state = true →
      (retriesOf key true turns + if isTerminal start.state then start.retries else 0) ≤
        record.retries

theorem retriesOf_append (key : RecordKey) (ended : Bool) (first second : List (Turn P)) :
    retriesOf key ended (first ++ second) =
      retriesOf key ended first + retriesOf key ended second := by
  rw [retriesOf, filter_append, countP_append]
  rfl

variable {start : Record P} {log : List (Turn P)}

theorem withinBudget_start (book : transfers.Bookkeeping)
    (found : transfers.records.lookup key = some start) :
    WithinBudget key start transfers [] := by
  refine ⟨book, Nat.zero_le _, Nat.zero_le _, ?_, ?_⟩
  · intro record there live
    cases found.symm.trans there
    exact ⟨live, (Nat.zero_add _).le, rfl⟩
  · intro _ there ended
    cases found.symm.trans there
    rw [if_pos ended]
    exact (Nat.zero_add _).le

theorem retriesOf_turn (key : RecordKey) (ended : Bool) (record : Record P) (now : ℕ) :
    retriesOf key ended [⟨key, record, record.tick now⟩] =
      if (record.tick now).record.retries = record.retries + 1 ∧
        isTerminal record.state = ended then 1 else 0 := by
  simp [retriesOf, Turn.isRetry, countP_singleton]

theorem retriesOf_filter (key : RecordKey) (ended : Bool) (turns : List (Turn P)) :
    retriesOf key ended (turns.filter (·.key = key)) = retriesOf key ended turns := by
  simp [retriesOf]

theorem WithinBudget.tick (budget : WithinBudget key start transfers log) (tick : ℕ × IterOrder) :
    WithinBudget key start (transfers.tickTurns tick).1 (log ++ (transfers.tickTurns tick).2) := by
  have turn := transfers.tick_turn budget.book tick key
  have book := budget.book.tickTurns tick
  have counts : ∀ ended, retriesOf key ended (log ++ (transfers.tickTurns tick).2) =
      retriesOf key ended log +
        retriesOf key ended ((transfers.tickTurns tick).2.filter (·.key = key)) := by
    intro ended
    rw [retriesOf_append, retriesOf_filter]
  generalize (transfers.tickTurns tick).2.filter (·.key = key) = own at turn counts
  cases turn with
  | missed gone =>
    refine ⟨book, ?_, ?_, fun record there => ?_, fun record there => ?_⟩
    · rw [counts]
      exact budget.live
    · rw [counts]
      exact budget.ended
    · cases gone.symm.trans there
    · cases gone.symm.trans there
  | taken record found after =>
    have here : ∀ held, (transfers.tickTurns tick).1.records.lookup key = some held →
        held = (record.tick tick.1).record := by
      intro held there
      rcases after with after | gone
      · exact Option.some.inj (there.symm.trans after)
      · cases gone.symm.trans there
    simp only [retriesOf_turn] at counts
    have step := record.tick_retries tick.1
    have live := budget.live
    have told := budget.ended
    cases ended : isTerminal record.state with
    | true =>
      have telling := budget.telling record found ended
      simp only [ended, Bool.true_eq_false, false_and, or_false] at step counts
      refine ⟨book, ?_, ?_, fun held there alive => ?_, fun held there _ => ?_⟩
      · rw [counts]
        simpa using live
      · rw [counts]
        split <;> omega
      · rw [here held there, step.1] at alive
        cases alive
      · rw [here held there, counts]
        split <;> omega
    | false =>
      rcases budget.running record found ended with ⟨began, _, untold⟩
      simp only [ended] at step counts
      have unchanged : retriesOf key true (log ++ (transfers.tickTurns tick).2) = 0 := by
        rw [counts]
        simp [untold]
      refine ⟨book, ?_, ?_, fun held there alive => ⟨began, ?_, unchanged⟩,
        fun held there _ => ?_⟩
      · rw [counts]
        split <;> omega
      · rw [unchanged]
        exact Nat.zero_le _
      · rw [here held there] at alive ⊢
        rw [counts]
        rcases step with ⟨_, _⟩ | ⟨_, isOver, _⟩
        · split <;> omega
        · rw [alive] at isOver
          cases isOver
      · rw [unchanged, began]
        exact Nat.zero_le _

end ManualTransfers

/-- From every state that a device can reach, ticks that are apart by the retry time, of which there
are five and one past the deadline of each live record, end all records, in every order of the
records at each tick. A record is retried no more often than it has retries left while it is
alive, and no more than three times from its end, and its peer is told something only when it is
retried or ended. -/
theorem silence_ends_transfers {operations : List (Operation P)}
    (past : ∀ operation ∈ operations, operation.clock ≤ limit) {ticks : List (ℕ × IterOrder)}
    (spaced : Record.Spaced (ticks.map (·.1))) (onward : ∀ tick ∈ ticks, limit ≤ tick.1) :
    let transfers := (device P sha256).after .new operations
    let silence := StateMachine.outcome ManualTransfers.tickTurns transfers ticks
    (maxRetries + 2 ≤ ticks.length →
      (∀ key record, transfers.records.lookup key = some record →
        isTerminal record.state = false → ∃ tick ∈ ticks, record.approvalDeadline ≤ tick.1) →
      ∀ key record, silence.1.records.lookup key = some record → isTerminal record.state = true) ∧
    (∀ key record, transfers.records.lookup key = some record →
      ManualTransfers.retriesOf key false silence.2 ≤ maxRetries - record.retries ∧
      ManualTransfers.retriesOf key true silence.2 ≤
        maxRetries - if isTerminal record.state then record.retries else 0) ∧
    ∀ turn ∈ silence.2, (sends turn.reply.actions).length ≤ 1 ∧
      (sends turn.reply.actions ≠ [] → turn.isRetry = true ∨
        isTerminal turn.record.state = false ∧ isTerminal turn.reply.record.state = true) := by
  intro transfers silence
  have book : transfers.Bookkeeping := StateMachine.Machine.after_keeps
    (fun transfers operation before => (before.output operation).1) .new operations
  refine ⟨?_, ?_, ?_⟩
  · intro enough deadlines key _ there
    rcases ManualTransfers.silent_of_ticks book there with ⟨record, found, rfl⟩
    have active : transfers.All (·.ActiveBy limit) :=
      ManualTransfers.activeBy_after .new past (by simp [ManualTransfers.All, ManualTransfers.new])
    apply Record.silent_terminal (active key record found) spaced
    · intro now member
      rcases List.mem_map.mp member with ⟨tick, listed, rfl⟩
      exact onward tick listed
    · rw [List.length_map]
      exact enough
    · intro awaiting
      rcases deadlines key record found (by simp [awaiting, isTerminal]) with ⟨tick, listed, late⟩
      exact ⟨tick.1, List.mem_map_of_mem listed, late⟩
  · intro key record found
    have budget : ManualTransfers.WithinBudget key record silence.1 silence.2 :=
      StateMachine.outcome_accounts (ManualTransfers.WithinBudget key record)
        (fun _ _ tick before => before.tick tick) (ManualTransfers.withinBudget_start book found)
        ticks
    exact ⟨budget.live, budget.ended⟩
  · intro turn member
    rcases ManualTransfers.ticks_of_turns ticks turn member with ⟨now, same⟩
    have tells := turn.record.tick_tells now
    rw [← same] at tells
    exact ⟨tells.1, fun told => (tells.2 told).imp_left decide_eq_true⟩

def silentTicks : List (ℕ × IterOrder) :=
  [10, 5010, 10010, 15010, 600010].map fun now => (now, ⟨id, fun _ => .refl _⟩)

def offeredInSilence : ManualTransfers Unit :=
  (StateMachine.outcome ManualTransfers.tickTurns
    ((device Unit fun _ => .replicate 32 0).after .new offered) silentTicks).1

theorem silence_ends_transfers_offered :
    offeredInSilence.records.keys = [("peer", 7)] ∧
      ∀ key record, offeredInSilence.records.lookup key = some record →
        isTerminal record.state = true := by
  have past : ∀ operation ∈ offered, operation.clock ≤ 10 := by
    intro _ member
    rw [List.mem_singleton.mp member]
    rfl
  have spaced : Record.Spaced (silentTicks.map (·.1)) := by
    unfold Record.Spaced
    decide
  have onward : ∀ tick ∈ silentTicks, 10 ≤ tick.1 := by
    simp [silentTicks]
  have enough : maxRetries + 2 ≤ silentTicks.length := by decide
  have deadlines : ((device Unit fun _ => .replicate 32 0).after .new offered).records.entries.all
      (·.2.approvalDeadline ≤ 600010) = true := by
    decide +kernel
  refine ⟨by decide +kernel, (silence_ends_transfers past spaced onward).1 enough ?_⟩
  intro _ _ found _
  have deadline := List.all_eq_true.mp deadlines _ (AList.mem_lookup_iff.mp found)
  exact ⟨_, List.mem_map_of_mem (by simp), of_decide_eq_true deadline⟩

end Syntra.Manual
