import Syntra.ClipboardMonitor.Monitor

/-!
# The last write

The writes that are in flight on a device, the newest first, and what a step does to them: the
oldest is written or given up, or the newest is dropped because the channel to the worker is full.
What was delivered last ends on the clipboard, unless a step gives up the newest write in flight.
-/

namespace Syntra.ClipboardMonitor

open ClipboardStream StateMachine Device List ClipboardState Option

def Desktop.writes : Desktop → Bool
  | .free => false
  | .reading => false
  | .observing _ => false
  | .opened _ => true
  | .deciding .. => true
  | .setting .. => true
  | .restoring _ => true

def Desktop.inHand : Desktop → Option ClipboardContent
  | .opened queued => some queued.content
  | .deciding queued _ _ => some queued.content
  | .setting content _ _ => some content
  | _ => none

namespace Device

variable (device : Device)

def inHand : Option ClipboardContent :=
  match device.writer with
  | .idle => none
  | .received queued => some queued.content
  | .atDesktop => device.desktop.inHand

def inFlight : List ClipboardContent :=
  (device.queueing.map (·.content)).toList ++
    ((device.writeRequest.map (·.content)).toList ++ device.inHand.toList)

/-- No write is queued. -/
def NothingWaits : Prop :=
  device.queueing = none ∧ device.writeRequest = none

def Consistent : Prop :=
  device.writer = .atDesktop ↔ device.desktop.writes = true

end Device

def Event.internal : Event → Bool
  | .copy _ => false
  | .vacate => false
  | .write _ => false
  | _ => true

/-- A step gives up the newest write in flight: another one still waits in the channel, or no other
waits and the clipboard cannot be opened, is not what it was when the write was queued, or cannot
be set. -/
def Loses (device : Device) : Event → Prop
  | .sendWrite => device.queueing.isSome ∧ device.writeRequest.isSome
  | .openWrite opened =>
    opened = false ∧ (∃ queued, device.writer = .received queued ∧ device.desktop = .free) ∧
      device.NothingWaits
  | .commit =>
    (∃ queued current held, device.desktop = .deciding queued current held ∧
      queued.baseline.isSome ∧ queued.baseline ≠ current) ∧ device.NothingWaits
  | .set outcome =>
    (∃ content current held emptied, device.desktop = .setting content current held ∧
      outcome = .failed emptied) ∧ device.NothingWaits
  | _ => False

/-- What an event does to the writes under way and to the clipboard. -/
inductive Moves (device : Device) (event : Event) (later : Device) : Prop
  | same (flight : later.inFlight = device.inFlight) (content : later.content = device.content)
      (keeps : ¬Loses device event)
  | full (newest : ClipboardContent) (flight : device.inFlight = newest :: later.inFlight)
      (content : later.content = device.content) (waits : later.inFlight ≠ [])
      (loses : Loses device event)
  | written (content : ClipboardContent) (flight : device.inFlight = later.inFlight ++ [content])
      (placed : later.content = some content) (keeps : ¬Loses device event)
  | givenUp (content : ClipboardContent) (flight : device.inFlight = later.inFlight ++ [content])
      (left : later.content = device.content ∨ later.content = none)
      (loses : Loses device event ↔ later.inFlight = [])

variable {device : Device} {event : Event}

theorem consistent_new (content : Option ClipboardContent) : (new content).Consistent := by
  simp [Consistent, new, Desktop.writes]

theorem Device.Consistent.step (consistent : device.Consistent) (event : Event) :
    (step device event).1.Consistent := by
  cases event with
  | lockRead | read | observe | receiveWrite | openWrite | readCurrent | commit | set | restore =>
    simp only [ClipboardMonitor.step, lockRead, read, observe, receiveWrite, openWrite,
      readCurrent, commit, set, restore]
    repeat' split
    all_goals simp_all [Consistent, Desktop.writes]
  -- the rest touches neither the write worker nor the desktop
  | copy | vacate | readOnce => exact consistent
  | write | sendWrite | nextRead | receiveRead | sendResult =>
    simp only [ClipboardMonitor.step, write, sendWrite, nextRead, receiveRead, sendResult]
    split <;> exact consistent

theorem Device.Consistent.inHand_eq (consistent : device.Consistent)
    (reads : device.desktop.writes = false) (desktop : Desktop) :
    { device with desktop := desktop }.inHand = device.inHand := by
  cases writer : device.writer with
  | idle | received => simp [inHand, writer]
  | atDesktop =>
    have writes : device.desktop.writes = true := consistent.mp writer
    rw [reads] at writes
    cases writes

theorem Moves.of_same {later : Device} (queueing : later.queueing = device.queueing)
    (request : later.writeRequest = device.writeRequest) (hand : later.inHand = device.inHand)
    (clipboard : later.clipboard = device.clipboard) (keeps : ¬Loses device event) :
    Moves device event later := by
  refine .same ?_ ?_ keeps
  · rw [inFlight, queueing, request, hand, inFlight]
  · rw [content, clipboard, content]

variable (content : ClipboardContent)

theorem Moves.of_givenUp {later : Device} (queueing : later.queueing = device.queueing)
    (request : later.writeRequest = device.writeRequest) (hand : device.inHand = some content)
    (empty : later.inHand = none) (left : later.content = device.content ∨ later.content = none)
    (loses : Loses device event ↔ device.NothingWaits) : Moves device event later := by
  refine .givenUp content ?_ left ?_
  · rw [inFlight, hand, inFlight, queueing, request, empty]
    simp
  · rw [loses, NothingWaits, inFlight, empty, queueing, request]
    simp

theorem moves_step (consistent : device.Consistent) (internal : event.internal = true) :
    Moves device event (step device event).1 := by
  cases event with
  | copy | vacate | write => cases internal
  | readOnce => exact .of_same rfl rfl rfl rfl not_false
  | nextRead | receiveRead | sendResult =>
    simp only [step, Device.nextRead, Device.receiveRead, Device.sendResult]
    split <;> exact .of_same rfl rfl rfl rfl not_false
  | lockRead | read =>
    simp only [step, Device.lockRead, Device.read]
    split
    · rename_i reads
      exact .of_same rfl rfl (consistent.inHand_eq (by rw [reads]; rfl) _) rfl not_false
    · exact .of_same rfl rfl rfl rfl not_false
  | observe =>
    simp only [step, Device.observe]
    split
    · rename_i observing
      exact .of_same rfl rfl (consistent.inHand_eq (by rw [observing]; rfl) _) rfl not_false
    · rename_i observing
      split <;>
        exact .of_same rfl rfl (consistent.inHand_eq (by rw [observing]; rfl) _) rfl not_false
    · exact .of_same rfl rfl rfl rfl not_false
  | sendWrite =>
    simp only [step, Device.sendWrite]
    split
    · rename_i none
      exact .of_same rfl rfl rfl rfl (by simp [Loses, none])
    · rename_i queued queueing
      cases waiting : device.writeRequest with
      | none =>
        refine .same ?_ rfl (by simp [Loses, waiting])
        simp [Device.inFlight, Device.inHand, queueing, waiting]
      | some =>
        refine .full queued.content ?_ rfl ?_ ⟨by simp [queueing], by simp [waiting]⟩
        · simp [Device.inFlight, Device.inHand, queueing, waiting]
        · simp [Device.inFlight]
  | receiveWrite =>
    simp only [step, Device.receiveWrite]
    split
    · rename_i queued idle waiting
      refine .same ?_ rfl not_false
      simp [Device.inFlight, Device.inHand, idle, waiting]
    · exact .of_same rfl rfl rfl rfl not_false
  | openWrite opened =>
    simp only [step, Device.openWrite]
    split
    · rename_i queued received free
      cases opened with
      | true =>
        refine .of_same rfl rfl ?_ rfl (by simp [Loses])
        simp [Device.inHand, Desktop.inHand, received]
      | false =>
        refine .of_givenUp queued.content rfl rfl ?_ rfl (.inl rfl) ?_
        · simp [Device.inHand, received]
        · simp [Loses, received, free]
    · rename_i busy
      refine .of_same rfl rfl rfl rfl ?_
      rintro ⟨-, ⟨queued, received, free⟩, -⟩
      exact busy queued received free
  | readCurrent =>
    simp only [step, Device.readCurrent]
    split
    · rename_i queued opened
      have atDesktop := consistent.mpr (by rw [opened]; rfl)
      refine .of_same rfl rfl ?_ rfl not_false
      simp [Device.inHand, Desktop.inHand, atDesktop, opened]
    · exact .of_same rfl rfl rfl rfl not_false
  | commit =>
    simp only [step, Device.commit]
    split
    · rename_i queued current held deciding
      have atDesktop := consistent.mpr (by rw [deciding]; rfl)
      by_cases stale : queued.baseline.isSome ∧ queued.baseline ≠ current
      · rw [commitRemote, if_pos stale]
        refine .of_givenUp queued.content rfl rfl ?_ rfl (.inl rfl) ?_
        · simp [Device.inHand, Desktop.inHand, atDesktop, deciding]
        · simp [Loses, deciding, stale]
      · rw [commitRemote, if_neg stale]
        refine .of_same rfl rfl ?_ rfl ?_
        · simp [Device.inHand, Desktop.inHand, atDesktop, deciding]
        · rintro ⟨⟨other, _, _, also, refused⟩, -⟩
          cases deciding.symm.trans also
          exact stale refused
    · rename_i other
      refine .of_same rfl rfl rfl rfl ?_
      rintro ⟨⟨queued, current, held, deciding, -⟩, -⟩
      exact other queued current held deciding
  | set =>
    simp only [step, Device.set]
    split
    · rename_i content current held setting
      have atDesktop := consistent.mpr (by rw [setting]; rfl)
      refine .written content ?_ rfl (by simp [Loses])
      simp [Device.inFlight, Device.inHand, Desktop.inHand, atDesktop, setting]
    · rename_i content current held emptied setting
      have atDesktop := consistent.mpr (by rw [setting]; rfl)
      refine .of_givenUp content rfl rfl ?_ ?_ ?_ ?_
      · simp [Device.inHand, Desktop.inHand, atDesktop, setting]
      · simp [Device.inHand, Desktop.inHand, atDesktop]
      · cases emptied with
        | false => exact .inl rfl
        | true => exact .inr rfl
      · simp [Loses, setting]
    · rename_i other failed
      refine .of_same rfl rfl rfl rfl ?_
      rintro ⟨⟨content, current, held, emptied, setting, rfl⟩, -⟩
      exact failed content current held emptied setting rfl
  | restore =>
    simp only [step, Device.restore]
    split
    · rename_i current restoring
      have atDesktop := consistent.mpr (by rw [restoring]; rfl)
      refine .of_same rfl rfl ?_ rfl not_false
      simp [Device.inHand, Desktop.inHand, atDesktop, restoring]
    · exact .of_same rfl rfl rfl rfl not_false

section Runs

variable {later : Device} {content : ClipboardContent} {events : List Event}

def Heads (content : ClipboardContent) (device : Device) : Prop :=
  device.inFlight.head? = some content ∨ device.inFlight = [] ∧ device.content = some content

/-- A content is the newest in flight and nowhere else, or on the clipboard when nothing is in
flight. -/
def HeadsAlone (content : ClipboardContent) (device : Device) : Prop :=
  (∃ rest, device.inFlight = content :: rest ∧ content ∉ rest ∧ device.content ≠ some content) ∨
    device.inFlight = [] ∧ device.content = some content

/-- The content is neither written nor on the clipboard. -/
def Absent (content : ClipboardContent) (device : Device) : Prop :=
  content ∉ device.inFlight ∧ device.content ≠ some content

theorem Heads.moves (heads : Heads content device) (moves : Moves device event later)
    (keeps : ¬Loses device event) : Heads content later := by
  cases moves with
  | same flight left => rwa [Heads, flight, left]
  | full _ _ _ _ loses => exact absurd loses keeps
  | written _ flight placed =>
    rcases heads with newest | ⟨none, -⟩
    · rw [flight] at newest
      cases remaining : later.inFlight with
      | nil =>
        rw [remaining] at newest
        cases newest
        exact .inr ⟨remaining, placed⟩
      | cons =>
        rw [remaining] at newest
        exact .inl (by rw [remaining]; exact newest)
    · exact absurd (flight.symm.trans none) (by simp)
  | givenUp _ flight _ loses =>
    rcases heads with newest | ⟨none, -⟩
    · rw [flight] at newest
      cases remaining : later.inFlight with
      | nil => exact absurd (loses.mpr remaining) keeps
      | cons =>
        rw [remaining] at newest
        exact .inl (by rw [remaining]; exact newest)
    · exact absurd (flight.symm.trans none) (by simp)

theorem HeadsAlone.moves (heads : HeadsAlone content device) (moves : Moves device event later)
    (keeps : ¬Loses device event) : HeadsAlone content later := by
  cases moves with
  | same flight left => rwa [HeadsAlone, flight, left]
  | full _ _ _ _ loses => exact absurd loses keeps
  | written _ flight placed =>
    rcases heads with ⟨rest, newest, alone, elsewhere⟩ | ⟨none, -⟩
    · rw [flight] at newest
      cases remaining : later.inFlight with
      | nil =>
        rw [remaining] at newest
        cases newest
        exact .inr ⟨remaining, placed⟩
      | cons _ others =>
        rw [remaining, cons_append] at newest
        injection newest with same split
        subst split
        rw [mem_append, mem_singleton, not_or] at alone
        refine .inl ⟨others, by rw [remaining, same], alone.1, ?_⟩
        rw [placed, Ne, some_inj]
        exact Ne.symm alone.2
    · exact absurd (flight.symm.trans none) (by simp)
  | givenUp _ flight left loses =>
    rcases heads with ⟨_, newest, alone, _⟩ | ⟨none, -⟩
    · rw [flight] at newest
      cases remaining : later.inFlight with
      | nil => exact absurd (loses.mpr remaining) keeps
      | cons _ others =>
        rw [remaining, cons_append] at newest
        injection newest with same split
        subst split
        rw [mem_append, not_or] at alone
        refine .inl ⟨others, by rw [remaining, same], alone.1, ?_⟩
        rcases left with left | left
        · rwa [left]
        · rw [left]
          exact (some_ne_none content).symm
    · exact absurd (flight.symm.trans none) (by simp)

theorem HeadsAlone.lost (heads : HeadsAlone content device) (moves : Moves device event later)
    (loses : Loses device event) : Absent content later := by
  cases moves with
  | same _ _ keeps | written _ _ _ keeps => exact absurd loses keeps
  | full _ flight left =>
    rcases heads with ⟨rest, same, alone, elsewhere⟩ | ⟨none, -⟩
    · rw [flight] at same
      injection same with _ split
      rw [Absent, split, left]
      exact ⟨alone, elsewhere⟩
    · rw [flight] at none
      cases none
  | givenUp _ flight left lost =>
    rcases heads with ⟨_, _, _, _⟩ | ⟨none, -⟩
    · refine ⟨by simp [lost.mp loses], ?_⟩
      rcases left with left | left
      · rwa [left]
      · rw [left]
        exact (some_ne_none content).symm
    · exact absurd (flight.symm.trans none) (by simp)

theorem Absent.moves (absent : Absent content device) (moves : Moves device event later) :
    Absent content later := by
  rcases absent with ⟨nowhere, _⟩
  cases moves with
  | same flight left => exact ⟨by rwa [flight], by rwa [left]⟩
  | full _ flight left =>
    rw [flight, mem_cons, not_or] at nowhere
    exact ⟨nowhere.2, by rwa [left]⟩
  | written _ flight placed =>
    rw [flight, mem_append, mem_singleton, not_or] at nowhere
    refine ⟨nowhere.1, ?_⟩
    rw [placed, Ne, some_inj]
    exact Ne.symm nowhere.2
  | givenUp _ flight left =>
    rw [flight, mem_append, not_or] at nowhere
    refine ⟨nowhere.1, ?_⟩
    rcases left with left | left
    · rwa [left]
    · rw [left]
      exact (some_ne_none content).symm

theorem Heads.run (heads : Heads content device) (consistent : device.Consistent)
    (internal : ∀ event ∈ events, event.internal = true)
    (keeps : ∀ state event, Meets step device events state event → ¬Loses state event) :
    Heads content (outcome step device events).1 := by
  induction events generalizing device with
  | nil => exact heads
  | cons event _ ih =>
    rw [forall_mem_cons] at internal
    have moves := moves_step consistent internal.1
    have next := heads.moves moves (keeps device event .here)
    exact ih next (consistent.step event) internal.2 fun state other met =>
      keeps state other met.later

theorem Absent.run (absent : Absent content device) (consistent : device.Consistent)
    (internal : ∀ event ∈ events, event.internal = true) :
    Absent content (outcome step device events).1 := by
  induction events generalizing device with
  | nil => exact absent
  | cons event _ ih =>
    rw [forall_mem_cons] at internal
    exact ih (absent.moves (moves_step consistent internal.1)) (consistent.step event) internal.2

theorem HeadsAlone.run (heads : HeadsAlone content device) (consistent : device.Consistent)
    (internal : ∀ event ∈ events, event.internal = true)
    (placed : (outcome step device events).1.content = some content) (state : Device)
    (event : Event) (met : Meets step device events state event) : ¬Loses state event := by
  induction events generalizing device with
  | nil => exact absurd met not_meets_nil
  | cons first _ ih =>
    rw [forall_mem_cons] at internal
    have moves := moves_step consistent internal.1
    by_cases loses : Loses device first
    · have absent := (heads.lost moves loses).run (consistent.step first) internal.2
      exact absurd placed absent.2
    · rcases meets_cons.mp met with ⟨rfl, rfl⟩ | met
      · exact loses
      · exact ih (heads.moves moves loses) (consistent.step first) internal.2 placed met

end Runs

theorem inFlight_write (ready : device.queueing = none) (content : ClipboardContent) :
    (device.write content).inFlight = content :: device.inFlight := by
  simp [inFlight, write, inHand, ready, queueRemote]

theorem content_write : (device.write content).content = device.content := by
  unfold write
  split <;> rfl

theorem consistent_outcome (start : Option ClipboardContent) (events : List Event) :
    (outcome step (.new start) events).1.Consistent :=
  outcome_keeps (fun _ event consistent (_ : True) => consistent.step event)
    (fun _ _ _ => trivial) (consistent_new start)

/-- What was delivered last is on the clipboard when nothing is in flight any more, if no step gives
up the newest write; and only then, if it was not on the clipboard or in flight before. -/
theorem lastWrite_wins (start : Option ClipboardContent) (earlier later : List Event)
    (content : ClipboardContent) (ready : (outcome step (.new start) earlier).1.queueing = none)
    (internal : ∀ event ∈ later, event.internal = true)
    (settled : (outcome step (.new start) (earlier ++ .write content :: later)).1.inFlight = []) :
    let before := (outcome step (.new start) earlier).1
    let final := (outcome step (.new start) (earlier ++ .write content :: later)).1
    ((∀ device event, Meets step (before.write content) later device event →
        ¬Loses device event) → final.content = some content) ∧
      (Absent content before → final.content = some content →
        ∀ device event, Meets step (before.write content) later device event →
          ¬Loses device event) := by
  have consistent : ((outcome step (.new start) earlier).1.write content).Consistent :=
    (consistent_outcome start earlier).step (.write content)
  have flight := inFlight_write ready content
  rw [outcome_append] at settled
  rw [outcome_append]
  refine ⟨?_, ?_⟩
  · intro keeps
    have heads : Heads content ((outcome step (.new start) earlier).1.write content) :=
      .inl (by rw [flight, List.head?_cons])
    rcases heads.run consistent internal keeps with newest | ⟨-, placed⟩
    · have none : (outcome step ((outcome step (.new start) earlier).1.write content)
          later).1.inFlight = [] := settled
      rw [none] at newest
      cases newest
    · exact placed
  · intro absent placed
    have heads : HeadsAlone content ((outcome step (.new start) earlier).1.write content) := by
      refine .inl ⟨_, flight, absent.1, ?_⟩
      rw [content_write]
      exact absent.2
    exact heads.run consistent internal placed

/-- One delivery, and a read of the monitor while the worker writes. -/
theorem lastWrite_wins_alone :
    (outcome step (.new (some (.text "old"))) [.write (.text "new"), .sendWrite, .readOnce,
      .receiveWrite, .receiveRead, .openWrite true, .readCurrent none, .commit, .set .done,
      .lockRead, .read none, .observe]).1.content = some (.text "new") := by
  refine (lastWrite_wins (some (.text "old")) [] [.sendWrite, .readOnce, .receiveWrite,
    .receiveRead, .openWrite true, .readCurrent none, .commit, .set .done, .lockRead, .read none,
    .observe] (.text "new") rfl (by decide) rfl).1 ?_
  intro _ _ met
  simp only [meets_cons, not_meets_nil, or_false] at met
  rcases met with ⟨rfl, rfl⟩ | ⟨rfl, rfl⟩ | ⟨rfl, rfl⟩ | ⟨rfl, rfl⟩ | ⟨rfl, rfl⟩ | ⟨rfl, rfl⟩ |
    ⟨rfl, rfl⟩ | ⟨rfl, rfl⟩ | ⟨rfl, rfl⟩ | ⟨rfl, rfl⟩ | ⟨rfl, rfl⟩
  case inl =>
    rintro ⟨-, waiting⟩
    cases waiting
  case inr.inr.inr.inr.inr.inr.inl =>
    rintro ⟨⟨_, _, _, deciding, known, -⟩, -⟩
    cases deciding
    cases known
  all_goals simp [Loses]

/-- The tracker knows a copy of the user when two contents are delivered, the second one while the
first is being written. -/
def overtaking : List Event :=
  [.copy (.text "copy"), .readOnce, .receiveRead, .lockRead, .read none, .observe,
    .write (.text "first"), .sendWrite, .receiveWrite, .write (.text "second"), .sendWrite,
    .openWrite true, .readCurrent none, .commit, .set .done,
    .receiveWrite, .openWrite true, .readCurrent none, .commit]

/-- The second content is given up because the first has changed the clipboard, and the first stays
there, though nothing has failed and the user has copied nothing in between. -/
theorem lastWrite_overtaken :
    (outcome step (.new none) overtaking).1.inFlight = [] ∧
      (outcome step (.new none) overtaking).1.content = some (.text "first") ∧
      ∀ event ∈ overtaking.drop 6, event ≠ .vacate ∧ ∀ content, event ≠ .copy content := by
  refine ⟨by decide, by decide, ?_⟩
  simp [overtaking]

end Syntra.ClipboardMonitor
