import Syntra.ClipboardSync.Filter

/-!
# Which copies are shared

What is recorded and sent are the copies of the user, as long as every value that is still to be
observed is in the queue and no copy is.
-/

namespace Syntra.ClipboardSync

open ByteFormat StateMachine ClipboardService List Effect
open Clients (ClipboardSettings)
open ClipboardStream (ClipboardContent)
open Service (ClientHandle)
open Store (HistoryContent)

/-- What others learn of a copy. -/
inductive Outbound
  | recorded (content : HistoryContent)
  | sent (handle : ClientHandle) (data : Bytes) (imageDimensions : Option (UInt32 × UInt32))
  deriving DecidableEq

def Effect.outbound : Effect → Option Outbound
  | .record content => some (.recorded content)
  | .sendClipboard handle _ data imageDimensions => some (.sent handle data imageDimensions)
  | .publishFileClipboard .. | .write _ => none

def copied (clients : List ClientHandle) (content : ClipboardContent) : List Outbound :=
  .recorded (historyContent content) ::
    clients.map fun handle => .sent handle (payload content).1 (payload content).2

namespace Device

/-- What is to be recorded and sent: copies of the user and nothing else. -/
def genuine (device : Device) : Action → List Outbound
  | .copy content _ => copied device.service.clipboardClients content
  | _ => []

/-- Exactly the copies of the user are recorded and sent. -/
def Exact (device : Device) (action : Action) : Prop :=
  (device.effects action).filterMap Effect.outbound = device.genuine action

/-- Of each content as many values are expected as are still to be observed. -/
def Awaited (device : Device) : Prop :=
  ∀ content, (device.outstanding.map historyContent).count content ≤
    device.service.pendingRemoteHistoryEchoes.count content

/-- One more value fits the queue, or the first one is not waited for. -/
def Room (device : Device) : Prop :=
  ∀ first rest, device.service.pendingRemoteHistoryEchoes = first :: rest → 7 ≤ rest.length →
    (device.outstanding.map historyContent).count first ≤ rest.count first

/-- A value of a peer finds room in the queue; the user copies what is shared and not expected from
a peer; the reader of the desktop clipboard reports nothing of a peer that is shared. -/
def Clear (device : Device) : Action → Prop
  | .deliver _ => device.Room
  | .copy content .native =>
    device.service.shares content = true ∧
      historyContent content ∉ device.service.pendingRemoteHistoryEchoes
  | .copy content .reader =>
    device.service.shares content = true ∧ device.service.nativeFileSelection = false
  | .echo _ content .reader =>
    device.service.shares content = false ∨ device.service.nativeFileSelection = true
  | _ => True

end Device

namespace ClipboardService

variable {service : ClipboardService}

variable (content : ClipboardContent)
include content

theorem outbound_sendAll (clients : List ClientHandle) (last : UInt64) :
    (sendAll content clients last).2.filterMap outbound =
      clients.map fun handle => .sent handle (payload content).1 (payload content).2 := by
  induction clients generalizing last with
  | nil => rfl
  | cons _ _ ih =>
    rw [map_cons, ← ih (last + 1)]
    rfl

theorem outbound_share :
    (service.share content).2.filterMap outbound = copied service.clipboardClients content := by
  rw [copied, ← outbound_sendAll content service.clipboardClients service.nextClipboardTransfer]
  rfl

omit content in
theorem copied_ne_nil (clients : List ClientHandle) (content : ClipboardContent) :
    copied clients content ≠ [] :=
  cons_ne_nil _ _

theorem outbound_publication : (service.publication content).outbound = none := by
  unfold publication
  split
  · split <;> rfl
  · rfl

theorem outbound_observe :
    (service.observe content).2.filterMap outbound =
      if service.shares content ∧
          historyContent content ∉ service.pendingRemoteHistoryEchoes then
        copied service.clipboardClients content
      else [] := by
  unfold observe
  by_cases shared : service.shares content = true
  · by_cases expected : historyContent content ∈ service.pendingRemoteHistoryEchoes
    · simp [shared, expected]
    · simp only [shared, expected, if_true, if_false, not_false_eq_true, and_self]
      exact outbound_share content
  · simp [shared]

theorem pending_observe :
    (service.observe content).1.pendingRemoteHistoryEchoes =
      if service.shares content then
        service.pendingRemoteHistoryEchoes.erase (historyContent content)
      else service.pendingRemoteHistoryEchoes := by
  unfold observe
  by_cases shared : service.shares content = true
  · by_cases expected : historyContent content ∈ service.pendingRemoteHistoryEchoes
    · simp [shared, expected]
    · rw [erase_of_not_mem expected]
      simp [shared, expected, share]
  · simp [shared]

omit content in
theorem shares_observe (content other : ClipboardContent) :
    (service.observe content).1.shares other = service.shares other := by
  have same : (service.observe content).1.clipboardSettings = service.clipboardSettings := by
    unfold observe
    split
    · split <;> rfl
    · rfl
  cases other with
  | text => exact congrArg ClipboardSettings.text same
  | image => exact congrArg ClipboardSettings.image same

theorem outbound_read :
    (service.step (.read content)).2.filterMap outbound =
      if service.shares content ∧ service.nativeFileSelection = false then
        copied service.clipboardClients content
      else [] := by
  unfold step
  by_cases shared : service.shares content = true
  · cases files : service.nativeFileSelection
    · simpa [shared] using outbound_share content
    · simp
  · simp [shared]

theorem pending_read :
    (service.step (.read content)).1.pendingRemoteHistoryEchoes =
      service.pendingRemoteHistoryEchoes := by
  rw [step]
  split <;> rfl

end ClipboardService

namespace Device

variable {device : Device} {action : Action}

variable {content : ClipboardContent}

theorem exact_copy_native :
    device.Exact (.copy content .native) ↔ device.Clear (.copy content .native) := by
  change (device.service.observe content).2.filterMap _ = _ ↔ _
  rw [outbound_observe]
  split
  · rename_i clear
    exact ⟨fun _ => clear, fun _ => rfl⟩
  · rename_i unclear
    exact ⟨fun nothing => absurd nothing.symm (copied_ne_nil _ _),
      fun clear => absurd clear unclear⟩

theorem exact_copy_reader :
    device.Exact (.copy content .reader) ↔ device.Clear (.copy content .reader) := by
  change (device.service.step (.read content)).2.filterMap _ = _ ↔ _
  rw [outbound_read]
  split
  · rename_i clear
    exact ⟨fun _ => clear, fun _ => rfl⟩
  · rename_i unclear
    exact ⟨fun nothing => absurd nothing.symm (copied_ne_nil _ _),
      fun clear => absurd clear unclear⟩

variable {skipped : ℕ}

theorem exact_echo_reader :
    device.Exact (.echo skipped content .reader) ↔
      device.Clear (.echo skipped content .reader) := by
  change (device.service.step (.read content)).2.filterMap _ = _ ↔ _
  rw [outbound_read]
  split
  · rename_i reports
    refine ⟨fun something => absurd something (copied_ne_nil _ _), ?_⟩
    rintro (unshared | files)
    · rw [reports.1] at unshared
      cases unshared
    · rw [reports.2] at files
      cases files
  · rename_i silent
    refine ⟨fun _ => ?_, fun _ => rfl⟩
    cases shared : device.service.shares content with
    | false => exact .inl shared
    | true => exact .inr (by simpa [shared] using silent)

theorem exact_echo_native :
    device.Exact (.echo skipped content .native) ↔
      (device.service.shares content = true →
        historyContent content ∈ device.service.pendingRemoteHistoryEchoes) := by
  change (device.service.observe content).2.filterMap _ = _ ↔ _
  rw [outbound_observe]
  split
  · rename_i echoes
    exact ⟨fun something => absurd something (copied_ne_nil _ _),
      fun expected => absurd (expected echoes.1) echoes.2⟩
  · rename_i silent
    exact ⟨fun _ shared => by_contra fun missing => silent ⟨shared, missing⟩, fun _ => rfl⟩

theorem exact_deliver (content : ClipboardContent) : device.Exact (.deliver content) := by
  change [device.service.publication content].filterMap outbound = []
  simp [outbound_publication]

theorem exact_turn {input : Input} (enabled : device.Enabled (.turn input)) :
    device.Exact (.turn input) := by
  cases input with
  | clipboard | nativeClipboard | read => exact enabled.elim
  | _ => rfl

theorem count_drop_lt {list : List HistoryContent} {index : ℕ} {content : HistoryContent}
    (there : list[index]? = some content) :
    (list.drop (index + 1)).count content < list.count content := by
  rcases List.getElem?_eq_some_iff.mp there with ⟨inside, here⟩
  have counted : list.count content = (list.take index).count content +
      ((list.drop (index + 1)).count content + 1) := by
    conv_lhs => rw [← take_append_drop index list, drop_eq_getElem_cons inside, here]
    rw [count_append, count_cons_self]
  omega

variable (awaited : device.Awaited)
include awaited

theorem awaited_deliver (room : device.Room) (content : ClipboardContent) :
    (device.next (.deliver content)).Awaited := by
  intro other
  change ((device.outstanding ++ [content]).map historyContent).count other ≤
    (device.service.expectEcho (historyContent content)).pendingRemoteHistoryEchoes.count other
  have before := awaited other
  rw [map_append, map_singleton, count_append]
  unfold expectEcho
  dsimp only
  split
  · rename_i full
    cases queue : device.service.pendingRemoteHistoryEchoes with
    | nil => simp [queue] at full
    | cons first rest =>
      rw [queue] at before full
      rw [cons_append, tail_cons, count_append]
      have kept : (device.outstanding.map historyContent).count other ≤ rest.count other := by
        by_cases same : first = other
        · rw [← same]
          refine room first rest queue ?_
          simp at full
          omega
        · rwa [count_cons_of_ne same] at before
      omega
  · rw [count_append]
    omega

theorem awaited_echo {queue : List HistoryContent}
    (there : device.outstanding[skipped]? = some content)
    (kept : queue = device.service.pendingRemoteHistoryEchoes ∨
      queue = device.service.pendingRemoteHistoryEchoes.erase (historyContent content))
    (other : HistoryContent) :
    ((device.outstanding.drop (skipped + 1)).map historyContent).count other ≤
      queue.count other := by
  have before := awaited other
  have fewer : ((device.outstanding.drop (skipped + 1)).map historyContent).count other ≤
      (device.outstanding.map historyContent).count other :=
    ((drop_sublist _ _).map _).count_le _
  rcases kept with rfl | rfl
  · omega
  · rw [count_erase]
    by_cases same : historyContent content = other
    · have less : ((device.outstanding.drop (skipped + 1)).map historyContent).count other <
          (device.outstanding.map historyContent).count other := by
        rw [map_drop]
        refine count_drop_lt ?_
        rw [getElem?_map, there, Option.map_some, same]
      rw [if_pos (beq_iff_eq.mpr same)]
      omega
    · rw [if_neg (mt beq_iff_eq.mp same)]
      omega

theorem awaited_next (enabled : device.Enabled action) (clear : device.Clear action) :
    (device.next action).Awaited := by
  cases action with
  | deliver content => exact awaited_deliver awaited clear content
  | echo _ content channel =>
    refine awaited_echo awaited enabled.1 ?_
    cases channel with
    | native =>
      have left := device.service.pending_observe content
      split at left
      · exact .inr left
      · exact .inl left
    | reader => exact .inl (pending_read content)
  | copy content channel =>
    intro other
    refine (awaited other).trans_eq (congrArg (count other) ?_)
    cases channel with
    | native =>
      change _ = (device.service.observe content).1.pendingRemoteHistoryEchoes
      rw [pending_observe, erase_of_not_mem clear.2, ite_self]
    | reader => exact (pending_read content).symm
  | turn input =>
    cases input with
    | clipboard | nativeClipboard | read => exact enabled.elim
    | _ => exact awaited

theorem exact_of_clear (enabled : device.Enabled action) (clear : device.Clear action) :
    device.Exact action := by
  cases action with
  | deliver content => exact exact_deliver content
  | echo _ content channel =>
    cases channel with
    | native =>
      refine exact_echo_native.mpr fun _ => ?_
      have there : historyContent content ∈ device.outstanding.map historyContent :=
        mem_map_of_mem (mem_of_getElem? enabled.1)
      exact count_pos_iff.mp ((count_pos_iff.mpr there).trans_le (awaited _))
    | reader => exact exact_echo_reader.mpr clear
  | copy _ channel =>
    cases channel with
    | native => exact exact_copy_native.mpr clear
    | reader => exact exact_copy_reader.mpr clear
  | turn => exact exact_turn enabled

omit awaited

/-- Every action can happen when it is its turn. -/
def Possible (device : Device) (actions : List Action) : Prop :=
  ∀ state action, Meets step device actions state action → state.Enabled action

/-- A run that goes on from a device with an observation that is taken for a copy, or the other way
round. -/
def Errs (device : Device) (actions : List Action) : Prop :=
  device.Possible actions ∧
    ∃ state action, Meets step device actions state action ∧ ¬state.Exact action

theorem Possible.nil : device.Possible [] := fun _ _ met => absurd met not_meets_nil

theorem Possible.cons {actions : List Action} (enabled : device.Enabled action)
    (possible : (device.next action).Possible actions) : device.Possible (action :: actions) := by
  intro state other met
  rcases meets_cons.mp met with ⟨rfl, rfl⟩ | later
  · exact enabled
  · exact possible state other later

theorem Errs.cons {actions : List Action} (enabled : device.Enabled action)
    (errs : (device.next action).Errs actions) : device.Errs (action :: actions) := by
  rcases errs with ⟨possible, state, other, met, wrong⟩
  exact ⟨.cons enabled possible, state, other, met.later, wrong⟩

theorem errs_here (enabled : device.Enabled action) (wrong : ¬device.Exact action) :
    device.Errs [action] := by
  refine ⟨fun _ _ met => ?_, device, action, .here, wrong⟩
  rcases meets_singleton.mp met with ⟨rfl, rfl⟩
  exact enabled

theorem errs_of_overdue (shared : ∀ content, device.service.shares content = true)
    (content : HistoryContent) (overdue : device.service.pendingRemoteHistoryEchoes.count content <
      (device.outstanding.map historyContent).count content) :
    ∃ actions, device.Errs actions := by
  rcases device with ⟨service, outstanding⟩
  induction outstanding generalizing service with
  | nil => simp at overdue
  | cons first rest ih =>
    have enabled : Enabled ⟨service, first :: rest⟩ (.echo 0 first .native) := ⟨rfl, trivial⟩
    by_cases expected : historyContent first ∈ service.pendingRemoteHistoryEchoes
    · have less : (service.observe first).1.pendingRemoteHistoryEchoes.count content <
          (rest.map historyContent).count content := by
        have there := count_pos_iff.mpr expected
        rw [pending_observe, if_pos (shared first), count_erase]
        rw [map_cons, count_cons] at overdue
        by_cases same : historyContent first = content
        · rw [same] at there
          rw [if_pos (beq_iff_eq.mpr same)] at overdue ⊢
          dsimp only at overdue
          omega
        · rw [if_neg (mt beq_iff_eq.mp same)] at overdue ⊢
          exact overdue
      have still : ∀ other, (service.observe first).1.shares other = true := fun other =>
        (shares_observe first other).trans (shared other)
      rcases ih (service.observe first).1 still less with ⟨_, errs⟩
      exact ⟨_, errs.cons enabled⟩
    · refine ⟨_, errs_here enabled fun exactly => ?_⟩
      exact expected (exact_echo_native.mp exactly (shared first))

theorem errs_of_full (full : ¬device.Room) :
    ∃ actions, device.Errs (.deliver content :: actions) := by
  unfold Room at full
  push Not at full
  rcases full with ⟨first, rest, queue, _, _⟩
  have left : (device.service.expectEcho (historyContent content)).pendingRemoteHistoryEchoes =
      rest ++ [historyContent content] := by
    unfold expectEcho
    dsimp only
    rw [queue, if_pos (by simp; omega)]
    rfl
  let shown : ClipboardSettings := ⟨true, true, true⟩
  have overdue : ∃ actions, Errs ⟨{ device.service.expectEcho (historyContent content) with
      clipboardSettings := shown }, device.outstanding ++ [content]⟩ actions := by
    refine errs_of_overdue (fun other => by cases other <;> rfl) first ?_
    rw [left, map_append, count_append, count_append, map_singleton]
    omega
  rcases overdue with ⟨_, errs⟩
  have allowed : (device.next (.deliver content)).Enabled
      (.turn (.setClipboardSettings shown)) := trivial
  exact ⟨_, .cons trivial (errs.cons allowed)⟩

theorem errs_of_not_clear (enabled : device.Enabled action) (unclear : ¬device.Clear action) :
    ∃ actions, device.Errs (action :: actions) := by
  cases action with
  | deliver => exact errs_of_full unclear
  | echo _ _ channel =>
    cases channel with
    | native => exact absurd trivial unclear
    | reader => exact ⟨[], errs_here enabled (mt exact_echo_reader.mp unclear)⟩
  | copy _ channel =>
    cases channel with
    | native => exact ⟨[], errs_here enabled (mt exact_copy_native.mp unclear)⟩
    | reader => exact ⟨[], errs_here enabled (mt exact_copy_reader.mp unclear)⟩
  | turn => exact absurd trivial unclear

/-- In a run all of whose steps are clear exactly the copies of the user are recorded and sent; a
step that is not clear can be followed by others such that they are not. -/
theorem exact_of_run (settings : ClipboardSettings) (legacy : Bool) (transfer : UInt64)
    (actions : List Action) (possible : (start settings legacy transfer).Possible actions) :
    ((∀ state action, Meets step (start settings legacy transfer) actions state action →
        state.Clear action) →
      ∀ state action, Meets step (start settings legacy transfer) actions state action →
        state.Exact action) ∧
    ∀ state action, Meets step (start settings legacy transfer) actions state action →
      ¬state.Clear action → ∃ later, state.Errs (action :: later) := by
  refine ⟨fun clear state action met => ?_, fun state action met unclear => ?_⟩
  · have keeps : ∀ (device : Device) (action : Action), device.Awaited →
        device.Enabled action ∧ device.Clear action → (step device action).1.Awaited :=
      fun device action awaited allowed => awaited_next awaited allowed.1 allowed.2
    rcases id met with ⟨_, _, split, reached⟩
    have awaited : state.Awaited := by
      rw [reached]
      refine outcome_keeps keeps (fun device other before => ?_) ?_
      · have among : Meets step (start settings legacy transfer) actions device other := by
          rw [split]
          exact before.append _
        exact ⟨possible _ _ among, clear _ _ among⟩
      · exact fun _ => Nat.zero_le _
    exact exact_of_clear awaited (possible state action met) (clear state action met)
  · exact errs_of_not_clear (possible state action met) unclear

def sharing : Device := start ⟨true, true, true⟩ false 0

/-- A peer has copied a note, and its value is not observed. The user copies the same note. -/
theorem not_exact_repeated :
    ¬∀ (settings : ClipboardSettings) (legacy : Bool) (transfer : UInt64) (actions : List Action),
      (start settings legacy transfer).Possible actions → ∀ state action,
        Meets step (start settings legacy transfer) actions state action → state.Exact action := by
  intro exactly
  have errs : sharing.Errs [.deliver (.text "note"), .copy (.text "note") .native] := by
    refine .cons trivial (errs_here trivial (mt exact_copy_native.mp fun clear => clear.2 ?_))
    exact .head _
  rcases errs with ⟨possible, state, action, met, wrong⟩
  exact wrong (exactly _ _ _ _ possible state action met)

/-- The value of a peer is observed before the user copies something else. -/
theorem exact_of_run_observed :
    (sharing.next (.deliver (.text "note")) |>.next (.echo 0 (.text "note") .native)).Exact
      (.copy (.text "draft") .native) := by
  have possible : sharing.Possible [.deliver (.text "note"), .echo 0 (.text "note") .native,
      .copy (.text "draft") .native] :=
    .cons trivial (.cons ⟨rfl, trivial⟩ (.cons trivial .nil))
  refine (exact_of_run _ _ _ _ possible).1 (fun _ _ met => ?_) _ _ ?_
  · rcases meets_cons.mp met with ⟨rfl, rfl⟩ | met
    · exact nofun
    · rcases meets_cons.mp met with ⟨rfl, rfl⟩ | met
      · trivial
      · rcases meets_singleton.mp met with ⟨rfl, rfl⟩
        exact ⟨rfl, by decide⟩
  · exact (Meets.here.later).later

end Device

end Syntra.ClipboardSync
