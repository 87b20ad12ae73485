import Mathlib.Data.List.Induction
import Syntra.ClipboardMonitor.Monitor

/-!
# No clipboard echo

What a device may still report is paid for by the copies the user has made on it: a content is
reported only when the tracker does not know it, and content of a peer is on the clipboard only
while the tracker knows it. The exception is a write that fails after the clipboard could not be
read: the tracker then takes the clipboard to have been empty, and forgets what is still there.
-/

namespace Syntra.ClipboardMonitor

open ClipboardStream StateMachine Device Reader List

def copies (events : List Event) : ℕ :=
  events.countP fun event => match event with
    | .copy _ => true
    | _ => false

def reports (effects : List Effect) : ℕ :=
  effects.countP fun effect => match effect with
    | .reported _ => true
    | .shared _ => false

def shares (effects : List Effect) : ℕ :=
  effects.countP fun effect => match effect with
    | .reported _ => false
    | .shared _ => true

variable (content : Option ClipboardContent)

def copied : ℕ :=
  content.toList.length

/-- A write fails and leaves on the clipboard what it held when it could not be read. -/
def Forgets (device : Device) (event : Event) : Prop :=
  ∃ content current held, device.desktop = .setting content current held ∧
    event = .set (.failed false) ∧ held ≠ current ∧ device.content = held

variable (known : Option ClipboardContent)

/-- The reports that a clipboard causes when the tracker knows `known`. -/
def due (known : Option ClipboardContent) : Option ClipboardContent → ℕ
  | none => 0
  | some content => if known = some content then 0 else 1

@[simp]
theorem due_none : due known none = 0 :=
  rfl

@[simp]
theorem due_self : due known known = 0 := by
  cases known <;> simp [due]

theorem due_le (known content : Option ClipboardContent) : due known content ≤ copied content := by
  cases content with
  | none => simp
  | some =>
    simp only [due, copied, Option.toList_some, length_singleton]
    split <;> omega

/-- What is reported already, and what is due with a tracker that knows `known`, is paid for, and
content of a peer is known. -/
structure Accounts (paid told : ℕ) (clipboard : Selection) (known : Option ClipboardContent) :
    Prop where
  balance : told + due known (clipboard.map Prod.fst) ≤ paid
  peer : ∀ content, clipboard = some (content, .peer) → known = some content

/-- What has been read and is not yet observed may be reported beside what the clipboard holds. -/
structure Observes (paid told : ℕ) (clipboard : Selection) (known : Option ClipboardContent)
    (content : ClipboardContent) : Prop where
  balance : told + due known (some content) + due (some content) (clipboard.map Prod.fst) ≤ paid
  peer : ∀ other, clipboard = some (other, .peer) → known = some other ∧ content = other

/-- The accounts of a device. A write that fails sets the tracker back to what it has read, so
that too must account for the clipboard. -/
def Accounted (paid told : ℕ) (device : Device) : Prop :=
  match device.desktop with
  | .observing (.ok content) =>
    Observes paid told device.clipboard device.state.last content
  | .deciding _ current held =>
    Accounts paid told device.clipboard device.state.last ∧
      (held = current ∨ device.content ≠ held → Accounts paid told device.clipboard current)
  | .setting content current held =>
    told ≤ paid ∧ device.state.last = some content ∧
      (held = current ∨ device.content ≠ held → Accounts paid told device.clipboard current)
  | .restoring current => Accounts paid told device.clipboard current
  | _ => Accounts paid told device.clipboard device.state.last

variable {paid told : ℕ} {device : Device}

theorem accounted_new : Accounted (copied content) 0 (.new content) := by
  refine ⟨?_, ?_⟩
  · cases content <;> simp [new, copied, due, ClipboardState.default]
  · cases content <;> simp [new]

variable (accounted : Accounted paid told device)
include accounted

theorem Accounted.told_le : told ≤ paid := by
  unfold Accounted at accounted
  split at accounted
  · exact (Nat.le_add_right _ _).trans ((Nat.le_add_right _ _).trans accounted.balance)
  · exact (Nat.le_add_right _ _).trans accounted.1.balance
  · exact accounted.1
  · exact (Nat.le_add_right _ _).trans accounted.balance
  · exact (Nat.le_add_right _ _).trans accounted.balance

omit accounted in
@[simp]
theorem content_user :
    (content.map fun content => (content, Origin.user)).map Prod.fst = content := by
  cases content <;> rfl

omit accounted in
theorem Accounts.replaced (within : told ≤ paid) (known content : Option ClipboardContent) :
    Accounts (paid + copied content) told (content.map fun content => (content, .user)) known := by
  refine ⟨?_, ?_⟩
  · have least := due_le known content
    rw [content_user]
    omega
  · cases content <;> simp

theorem Accounted.replaced :
    Accounted (paid + copied content) told
      { device with clipboard := content.map fun content => (content, .user) } := by
  have within := accounted.told_le
  have any := fun known => Accounts.replaced within known content
  unfold Accounted at accounted ⊢
  split at accounted <;> rename_i doing <;> simp only [doing]
  · refine ⟨?_, ?_⟩
    · have paying := due_le (some ‹ClipboardContent›) content
      have earlier := accounted.balance
      rw [content_user]
      omega
    · cases content <;> simp
  · exact ⟨any _, fun _ => any _⟩
  · exact ⟨by omega, accounted.2.1, fun _ => any _⟩
  · exact any _
  · exact any _

theorem Accounted.read (failure : Option ClipboardError) :
    Accounted paid told (device.read failure) := by
  unfold Device.read
  split
  · rename_i reading
    have before : Accounts paid told device.clipboard device.state.last := by
      simpa [Accounted, reading] using accounted
    cases failure with
    | some => exact before
    | none =>
      cases holding : device.clipboard with
      | none => simpa [Accounted, readClipboard, holding] using before
      | some selection =>
        rw [holding] at before
        refine ⟨?_, ?_⟩
        · simpa [holding] using before.balance
        · intro other (same : some selection = some (other, .peer))
          have selected : selection = (other, .peer) := Option.some.inj same
          exact ⟨before.peer other (congrArg some selected), congrArg Prod.fst selected⟩
  · exact accounted

theorem Accounted.observe :
    Accounted paid (told + reports device.observe.2) device.observe.1 ∧
      ∀ content, .reported content ∈ device.observe.2 →
        device.clipboard ≠ some (content, .peer) := by
  unfold Device.observe
  split
  · rename_i error observing
    have before : Accounts paid told device.clipboard device.state.last := by
      simpa [Accounted, observing] using accounted
    exact ⟨before, by simp⟩
  · rename_i content observing
    have before : Observes paid told device.clipboard device.state.last content := by
      simpa [Accounted, observing] using accounted
    by_cases known : device.state.last = some content
    · have after : Accounts paid told device.clipboard device.state.last := by
        refine ⟨?_, fun other same => (before.peer other same).1⟩
        simpa [known] using before.balance
      cases origin : device.state.remoteOrigin <;>
        simpa [ClipboardState.observe, known, origin, Accounted, reports] using after
    · have after : Accounts paid (told + 1) device.clipboard (some content) := by
        refine ⟨?_, fun other same => congrArg some (before.peer other same).2⟩
        simpa [due, known] using before.balance
      refine ⟨?_, ?_⟩
      · simpa [ClipboardState.observe, known, Accounted, reports] using after
      · intro reported _ held
        have own := before.peer reported held
        exact known (own.1.trans (congrArg some own.2.symm))
  · exact ⟨accounted, by simp⟩

theorem Accounted.readCurrent (failure : Option ClipboardError) :
    Accounted paid told (device.readCurrent failure) := by
  unfold Device.readCurrent
  split
  · rename_i queued opened
    have before : Accounts paid told device.clipboard device.state.last := by
      simpa [Accounted, opened] using accounted
    refine ⟨before, ?_⟩
    rintro (read | changed)
    · refine ⟨?_, ?_⟩
      · have balance := before.balance
        rw [← read]
        simp only [content, due_self]
        omega
      · intro content (selected : device.clipboard = some (content, .peer))
        rw [← read]
        simp [Device.content, selected]
    · exact absurd rfl changed
  · exact accounted

theorem Accounted.commit : Accounted paid told device.commit := by
  unfold Device.commit
  split
  · rename_i queued current held deciding
    have within := accounted.told_le
    simp only [Accounted, deciding] at accounted
    by_cases stale : queued.baseline.isSome ∧ queued.baseline ≠ current
    · simp only [ClipboardState.commitRemote, if_pos stale]
      exact accounted.1
    · simp only [ClipboardState.commitRemote, if_neg stale]
      exact ⟨within, rfl, accounted.2⟩
  · exact accounted

theorem Accounted.set {outcome : SetOutcome} (remembers : ¬Forgets device (.set outcome)) :
    Accounted paid told (device.set outcome) := by
  have within := accounted.told_le
  unfold Device.set
  split
  · rename_i content current held setting
    simp only [Accounted, setting] at accounted
    refine ⟨?_, ?_⟩
    · simpa [accounted.2.1] using within
    · intro other (same : some (content, Origin.peer) = some (other, .peer))
      cases same
      exact accounted.2.1
  · rename_i content current held emptied setting
    simp only [Accounted, setting] at accounted
    cases emptied with
    | false =>
      refine accounted.2.2 (or_iff_not_imp_left.mpr fun differs same => remembers ?_)
      exact ⟨content, current, held, setting, rfl, differs, same⟩
    | true => exact ⟨by simpa using within, by simp⟩
  · exact accounted

theorem Accounted.restore : Accounted paid told device.restore := by
  unfold Device.restore
  split
  · rename_i current restoring
    simpa [Accounted, restoring] using accounted
  · exact accounted

omit accounted in
theorem Accounted.step (accounted : Accounted paid told device) (event : Event)
    (remembers : ¬Forgets device event) :
    Accounted (paid + copies [event]) (told + reports (step device event).2)
      (step device event).1 := by
  cases event with
  | copy content => exact accounted.replaced (some content)
  | vacate => exact accounted.replaced none
  | read failure => exact accounted.read failure
  | observe => exact accounted.observe.1
  | readCurrent failure => exact accounted.readCurrent failure
  | commit => exact accounted.commit
  | set => exact accounted.set remembers
  | restore => exact accounted.restore
  | readOnce => exact accounted
  | lockRead =>
    simp only [ClipboardMonitor.step, lockRead]
    split
    · rename_i free
      simpa [Accounted, free, copies, reports] using accounted
    · exact accounted
  | openWrite opened =>
    simp only [ClipboardMonitor.step, openWrite]
    split
    · rename_i free
      cases opened <;> simpa [Accounted, free, copies, reports] using accounted
    · exact accounted
  -- the service and the channels touch neither the clipboard nor the tracker
  | write | sendWrite | nextRead | receiveRead | sendResult | receiveWrite =>
    simp only [ClipboardMonitor.step, write, sendWrite, nextRead, receiveRead, sendResult,
      receiveWrite]
    split <;> exact accounted

theorem Accounted.own {event : Event} {content : ClipboardContent}
    (reported : .reported content ∈ (ClipboardMonitor.step device event).2) :
    device.clipboard ≠ some (content, .peer) := by
  cases event with
  | observe => exact accounted.observe.2 content reported
  | nextRead =>
    simp only [ClipboardMonitor.step, nextRead] at reported
    split at reported <;> simp at reported
  | _ => simp [ClipboardMonitor.step] at reported

omit accounted

def carries : Option (Except ClipboardError ClipboardContent) → ℕ
  | some (.ok _) => 1
  | _ => 0

def Reader.carried : Reader → Option (Except ClipboardError ClipboardContent)
  | .sending result => some result
  | _ => none

def pending (device : Device) : ℕ :=
  carries device.result + carries device.reader.carried

theorem shares_step (device : Device) (event : Event) :
    shares (step device event).2 + pending (step device event).1 ≤
      pending device + reports (step device event).2 := by
  cases event with
  | observe =>
    simp only [step, Device.observe]
    split
    · simp [shares, reports, pending, carried, carries]
    · split <;> simp [shares, reports, pending, carried, carries]
    · simp [shares, reports]
  | nextRead =>
    simp only [step, Device.nextRead]
    split <;> rename_i waiting <;> simp [shares, reports, pending, waiting, carries]
  | sendResult =>
    simp only [step, Device.sendResult]
    split
    · rename_i sending taken
      simp [shares, reports, pending, sending, taken, carried, carries]
    · simp [shares, reports]
  | receiveRead | lockRead =>
    simp only [step, Device.receiveRead, Device.lockRead]
    split
    · simp [shares, reports, pending, carried, carries]
    · simp [shares, reports]
  | copy | vacate | readOnce => simp [step, shares, reports, pending, Device.readOnce]
  -- the rest touches neither the reader nor its results
  | write | sendWrite | read | receiveWrite | readCurrent | set | restore =>
    simp only [step, Device.write, Device.sendWrite, Device.read, Device.receiveWrite,
      Device.readCurrent, Device.set, Device.restore]
    split <;> simp [shares, reports, pending]
  | openWrite opened =>
    simp only [step, Device.openWrite]
    split
    · cases opened <;> simp [shares, reports, pending]
    · simp [shares, reports]
  | commit =>
    simp only [step, Device.commit]
    split
    · split <;> simp [shares, reports, pending]
    · simp [shares, reports]

theorem copies_append (first second : List Event) :
    copies (first ++ second) = copies first + copies second :=
  countP_append ..

theorem reports_append (first second : List Effect) :
    reports (first ++ second) = reports first + reports second :=
  countP_append ..

theorem shares_append (first second : List Effect) :
    shares (first ++ second) = shares first + shares second :=
  countP_append ..

theorem accounted_outcome (events : List Event)
    (remembers : ∀ device event, Meets step (.new content) events device event →
        ¬Forgets device event) :
    Accounted (copied content + copies events) (reports (outcome step (.new content) events).2)
      (outcome step (.new content) events).1 := by
  induction events using reverseRecOn with
  | nil => exact accounted_new content
  | append_singleton events event ih =>
    have before := ih fun device event meets => remembers device event (meets.append [_])
    have last := remembers _ event (Meets.last _ events event)
    rw [outcome_concat, copies_append, reports_append, ← Nat.add_assoc]
    exact before.step event last

theorem shares_outcome (events : List Event) :
    shares (outcome step (.new content) events).2 + pending (outcome step (.new content) events).1 ≤
      reports (outcome step (.new content) events).2 := by
  induction events using reverseRecOn with
  | nil => simp [outcome, shares, reports, pending, new, carries, carried]
  | append_singleton events event =>
    have last := shares_step (outcome step (.new content) events).1 event
    rw [outcome_concat, shares_append, reports_append]
    simp only
    omega

/-- Devices that run the monitor, each with what its clipboard held before. -/
def devices {Name : Type*} (contents : Name → Option ClipboardContent) (name : Name) : Device :=
  .new (contents name)

variable {Name : Type*} [DecidableEq Name]

/-- What a device reports is not content of a peer that its clipboard still holds, and a device
shares at most as often as its user has copied, when no write forgets what was on the clipboard. -/
theorem echoes_nothing (contents : Name → Option ClipboardContent) (events : List (Name × Event))
    (remembers : ∀ states name event,
      Meets (sideBySide step) (devices contents) events states (name, event) →
        ¬Forgets (states name) event) :
    (∀ states name event content,
      Meets (sideBySide step) (devices contents) events states (name, event) →
        .reported content ∈ (step (states name) event).2 →
          (states name).clipboard ≠ some (content, .peer)) ∧
    ∀ name,
      shares (ofIndex name (outcome (sideBySide step) (devices contents) events).2) ≤
        copied (contents name) + copies (ofIndex name events) := by
  have alone : ∀ name device event,
      Meets step (.new (contents name)) (ofIndex name events) device event →
        ¬Forgets device event := by
    intro name device event meets
    have beside : ∃ states, states name = device ∧
        Meets (sideBySide step) (devices contents) events states (name, event) := Meets.beside meets
    rcases beside with ⟨states, rfl, among⟩
    exact remembers states name event among
  refine ⟨?_, ?_⟩
  · intro _ name event _ meets reported
    rcases meets.alone with ⟨earlier, _, split, reached⟩
    have accounted := accounted_outcome (contents name) earlier fun device event meets =>
      alone name device event (split ▸ meets.append _)
    rw [reached] at reported ⊢
    exact accounted.own reported
  · intro name
    rw [(outcome_sideBySide (devices contents) events name).2]
    have accounted := accounted_outcome (contents name) (ofIndex name events) (alone name)
    have reported := accounted.told_le
    have shared := shares_outcome (contents name) (ofIndex name events)
    simp only [devices]
    omega

def reading : List Event :=
  [.readOnce, .receiveRead, .lockRead, .read none, .observe, .sendResult, .nextRead]

def writing (content : ClipboardContent) : List Event :=
  [.write content, .sendWrite, .receiveWrite, .openWrite true, .readCurrent none, .commit,
    .set .done]

def relaying : List (Bool × Event) :=
  (Event.copy (.text "note") :: reading).map (Prod.mk true) ++
    (writing (.text "note") ++ reading).map (Prod.mk false)

theorem echoes_nothing_relaying :
    shares (ofIndex false (outcome (sideBySide step) (devices fun _ => none) relaying).2) ≤ 0 := by
  refine (echoes_nothing (fun _ => none) relaying ?_).2 false
  rintro _ name _ ⟨_, _, split, -⟩ ⟨-, -, -, -, rfl, -⟩
  have member : (name, Event.set (.failed false)) ∈ relaying := by
    rw [split]
    exact List.mem_append_right _ (.head _)
  simp [relaying, reading, writing] at member

/-- Two writes are queued before the tracker knows any content. The first succeeds; for the second
the clipboard can be neither read nor written. -/
def forgetting : List Event :=
  [.write (.text "first"), .sendWrite, .receiveWrite, .write (.text "second"), .sendWrite,
    .openWrite true, .readCurrent none, .commit, .set .done,
    .receiveWrite, .openWrite true, .readCurrent (some (.failed "occupied")), .commit,
    .set (.failed false), .restore]

/-- Content of a peer is reported while the clipboard holds it, and shared without a copy. -/
theorem echoes_forgotten :
    let events := (forgetting ++ reading).map (Prod.mk ())
    (∃ states content,
      Meets (sideBySide step) (devices fun _ => none) events states ((), .observe) ∧
        .reported content ∈ (step (states ()) .observe).2 ∧
          (states ()).clipboard = some (content, .peer)) ∧
    copied none + copies (ofIndex () events) <
      shares (ofIndex () (outcome (sideBySide step) (devices fun _ => none) events).2) := by
  refine ⟨⟨_, .text "first", ⟨(forgetting ++ reading.take 4).map (Prod.mk ()), _, rfl, rfl⟩,
    ?_, ?_⟩, ?_⟩
  · decide
  · decide
  · decide

end Syntra.ClipboardMonitor
