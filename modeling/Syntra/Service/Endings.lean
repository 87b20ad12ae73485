import Syntra.Clipboard.Manifest
import Syntra.Plugins.Convergence
import Syntra.Service.AdapterLoss
import Syntra.Service.Daemon

/-!
# Transfers after the end of their process

An exit ends the transfers of the process; a deliberate stop does not, and neither is looked at when
an offer is entered later.
-/

namespace Syntra

open ByteFormat Proto Files Clipboard StateMachine Service TransferState
open Plugins (Codecs ManagerEvent Outside Registry)

namespace Watch

variable {Address : Type} [DecidableEq Address] {codecs : Codecs} {sha256 : Bytes → Digest}
  {base64 : Bytes → String} {outside : Outside} {registry : Registry} {startedAt : UInt64}
  {history : List (Watch Address)} {watch : Watch Address}

/-- When an adapter ends its transfers end, and none begins before it runs again. -/
structure LeavesNothing (watch : Watch Address)
    (action : Service.Surroundings Address × DaemonInput Address) : Prop where
  stopped : ∀ adapter, watch.taken action.2 = some (.stopped adapter) →
    ∀ key, Service.endedBy (.stopped adapter) = some key → watch.service.transfers.FreeOfAdapter key
  exited : ∀ adapter status, watch.taken action.2 = some (.exited adapter status) →
    ∀ key, Service.endedBy (.exited adapter status) = some key → watch.service.transfers.Indexed key
  offered : ∀ event, action.2 = .service event →
    ∀ key ∈ watch.ended, event.registers action.1 watch.service ≠ some key

/-- What is shown of every state that is reached. -/
structure Sound (watch : Watch Address) : Prop where
  transfers : watch.service.transfers.Sound False
  free : ∀ key ∈ watch.ended, watch.service.transfers.FreeOfAdapter key

theorem sound_start :
    ({ toDaemon := .start outside registry startedAt, ended := [] } : Watch Address).Sound where
  transfers := new_sound
  free := by
    exact List.forall_mem_nil _

end Watch

namespace Service

variable {Address : Type} [DecidableEq Address] {sha256 : Bytes → Digest}
  {base64 : Bytes → String} {around : Surroundings Address} {service : Service Address}

theorem handle_free (sound : service.transfers.Sound False) {event : Event Address}
    {key : AdapterId} (free : service.transfers.FreeOfAdapter key)
    (elsewhere : event.registers around service ≠ some key) :
    (service.handle sha256 base64 around event).transfers.FreeOfAdapter key := by
  rw [freeOfAdapter_iff (handle_sound sound event)]
  rw [freeOfAdapter_iff sound] at free
  exact (handle_registers sound event).free free elsewhere

theorem registers_adapterEvent (event : ManagerEvent) :
    (adapterEvent event).registers around service = none := by
  unfold adapterEvent
  split <;> rfl

theorem ended_free_iff (sound : service.transfers.Sound False) {event : ManagerEvent}
    {key : AdapterId} (ended : endedBy event = some key) :
    (service.handle sha256 base64 around (adapterEvent event)).transfers.FreeOfAdapter key ↔
      ((∃ adapter, event = .stopped adapter) → service.transfers.FreeOfAdapter key) ∧
        ((∃ adapter status, event = .exited adapter status) → service.transfers.Indexed key) := by
  cases event with
  | stopped adapter =>
    have same : service.handle sha256 base64 around (adapterEvent (.stopped adapter)) = service :=
      rfl
    simp [same]
  | exited adapter status =>
    have exits : (adapterEvent (.exited adapter status) : Event Address) = .adapterExited key := by
      cases adapter with
      | settings => cases ended
      | resident | transfer =>
        cases ended
        rfl
    rw [exits, handle_exited_transfers, adapterLost_freeOfAdapter_iff sound]
    simp
  | _ => cases ended

end Service

namespace Watch

variable {Address : Type} [DecidableEq Address] {codecs : Codecs} {sha256 : Bytes → Digest}
  {base64 : Bytes → String} {outside : Outside} {registry : Registry} {startedAt : UInt64}
  {history : List (Watch Address)} {watch : Watch Address}
  {action : Service.Surroundings Address × DaemonInput Address}

theorem mem_step_ended {event : ManagerEvent} (taken : watch.taken action.2 = some event)
    {key : AdapterId} (ended : key ∈ (watch.step codecs sha256 base64 action).ended) :
    endedBy event = some key ∨ key ∈ watch.ended := by
  simp only [step, taken] at ended
  split at ended
  · rename_i own _ named
    rcases List.mem_insert_iff.mp ended with rfl | before
    · exact .inl named
    · exact .inr before
  · exact .inr (List.mem_of_mem_filter ended)
  · exact .inr ended

theorem Sound.taken (sound : watch.Sound) (leaves : watch.LeavesNothing action)
    {event : ManagerEvent} (taken : watch.taken action.2 = some event)
    (same : (watch.step codecs sha256 base64 action).service =
      watch.service.handle sha256 base64 action.1 (adapterEvent event)) :
    (watch.step codecs sha256 base64 action).Sound where
  transfers := by
    rw [same]
    exact handle_sound sound.transfers _
  free := by
    intro key member
    rw [same]
    rcases mem_step_ended taken member with ended | before
    · rw [ended_free_iff sound.transfers ended]
      refine ⟨?_, ?_⟩
      · rintro ⟨adapter, rfl⟩
        exact leaves.stopped adapter taken key ended
      · rintro ⟨adapter, status, rfl⟩
        exact leaves.exited adapter status taken key ended
    · apply handle_free sound.transfers (sound.free key before)
      rw [registers_adapterEvent]
      exact Option.some_ne_none key |>.symm

theorem Sound.step (sound : watch.Sound) (leaves : watch.LeavesNothing action) :
    (watch.step codecs sha256 base64 action).Sound := by
  rcases action with ⟨around, input⟩
  cases input with
  | plugins input =>
    cases taken : watch.taken (.plugins input) with
    | none =>
      have same : (watch.step codecs sha256 base64 (around, .plugins input)).service =
          watch.service := by
        simp [step, Daemon.step, taken]
      have ended : (watch.step codecs sha256 base64 (around, .plugins input)).ended =
          watch.ended := by
        simp [step, taken]
      exact ⟨same ▸ sound.transfers, fun key member => same ▸ sound.free key (ended ▸ member)⟩
    | some =>
      apply sound.taken leaves taken
      simp [step, Daemon.step, taken]
  | service event =>
    by_cases own : event.isAdapters = true
    · have same : (watch.step codecs sha256 base64 (around, .service event)).service =
          watch.service := by
        simp [step, Daemon.step, own]
      exact ⟨same ▸ sound.transfers, fun key member => same ▸ sound.free key member⟩
    · have same : (watch.step codecs sha256 base64 (around, .service event)).service =
          watch.service.handle sha256 base64 around event := by
        simp [step, Daemon.step, own]
      refine ⟨?_, ?_⟩
      · rw [same]
        exact handle_sound sound.transfers event
      · intro key member
        rw [same]
        exact handle_free sound.transfers (sound.free key member)
          (leaves.offered event rfl key member)

/-- In every run whose steps leave nothing behind, no transfer is under the key of a process that
the service knows to have ended, until it knows that one with the key has started. -/
theorem no_transfer_of_ended
    (run : Run (machine codecs sha256 base64 outside registry startedAt LeavesNothing) history)
    (member : watch ∈ history) {key : AdapterId} (ended : key ∈ watch.ended) :
    watch.service.transfers.FreeOfAdapter key := by
  have sound : watch.Sound := by
    apply run.invariant _ watch member
    refine ⟨sound_start, ?_⟩
    intro _ _ before leaves
    exact before.step leaves
  exact sound.free key ended

end Watch

namespace Watch.Selection

abbrev Action := Service.Surroundings String × DaemonInput String

def hello : String :=
  "\x7b\"type\":\"hello\",\"data\":\x7b\"protocol_version\":1,\"adapter_id\":\"a\",\"name\":\"A\","
    ++
    "\"capabilities\":\x7b\"clipboard_read\":true,\"paste\":true,\"cancel\":true,\"mime_types\":" ++
    "[\"text/uri-list\",\"x-special/gnome-copied-files\"]\x7d\x7d\x7d"

def selection : String :=
  "\x7b\"type\":\"copy_manifest\",\"data\":\x7b\"transfer_id\":\"t\",\"operation\":\"copy\"," ++
    "\"entries\":[\x7b\"uri\":\"file:///tmp/abc.txt\",\"kind\":\"file\",\"size\":3\x7d]\x7d\x7d"

def codecs : Codecs where
  decodeLine line :=
    if line = hello then
      .ok (.hello Plugins.protocolVersion "a" "A"
        (Plugins.Toggle.provider "a").manifest.capabilities)
    else if line = selection then .ok (.copyManifest ⟨"t", .copy⟩)
    else .error "malformed"
  decodeBase64 _ := none

def command : Action := (Service.calm, .plugins (.command Plugins.Window.around))

def event : Action := (Service.calm, .plugins .event)

def line (text : String) : Action :=
  (Service.calm, .plugins (.process Plugins.Window.around (.line (.resident "a") 1 text)))

def offered : List Action :=
  [command, line hello, line selection, event, event, event,
    (Service.calm, .service (.manifestOffer ⟨1, "a", ⟨"t", .copy⟩,
      FileOffer.fromUriList TransferState.everywhereAbc 1 "file:///tmp/abc.txt"⟩))]

def stopped : List Action :=
  offered ++ [(Service.calm, .plugins
    (.request Plugins.Toggle.outside (.setPluginEnabled "a" false))),
    command, event]

def crashed : List Action :=
  offered ++ [(Service.calm, .plugins (.process Plugins.Window.around
    (.exited (.resident "a") 1 "exit status: 1"))), event, event]

def daemon (permits : Watch String → Action → Prop) : Machine (Watch String) Action :=
  machine codecs (fun _ => TransferState.abcDigest) (fun _ => "YWJj") Plugins.Toggle.outside
    Plugins.Toggle.registry 41 permits

def quiet (watch : Watch String) (action : Action) : Bool :=
  watch.ended.isEmpty &&
    match watch.taken action.2 with
    | some (.stopped _) => false
    | some (.exited adapter _) =>
      decide (watch.service.transfers.Indexed (Service.transferKey adapter))
    | _ => true

theorem leavesNothing_of_quiet {watch : Watch String} {action : Action}
    (silent : quiet watch action = true) : watch.LeavesNothing action := by
  rw [quiet, Bool.and_eq_true, List.isEmpty_iff] at silent
  rcases silent with ⟨none, ending⟩
  refine ⟨?_, ?_, ?_⟩
  · intro adapter taken
    rw [taken] at ending
    cases ending
  · intro adapter _ taken key ended
    rw [taken] at ending
    have same : key = transferKey adapter := by
      cases adapter <;> cases ended <;> rfl
    rw [same]
    exact of_decide_eq_true ending
  · intro _ _ _ member
    rw [none] at member
    cases member

end Watch.Selection

namespace Watch

open Selection

/-- The plugin that crashed has ended, and its offer with it. -/
theorem no_transfer_of_ended_crashed :
    "a" ∈ ((daemon LeavesNothing).after (daemon LeavesNothing).initial crashed).ended ∧
      ((daemon LeavesNothing).after (daemon LeavesNothing).initial
        crashed).service.transfers.FreeOfAdapter "a" := by
  have passed : (daemon LeavesNothing).passes id quiet (daemon LeavesNothing).initial crashed =
      true := by
    decide +kernel
  have follows := Machine.Follows.of_passes (fun _ _ => leavesNothing_of_quiet) passed
  rcases Run.of_follows follows with ⟨_, run⟩
  have ended : "a" ∈ ((daemon LeavesNothing).after (daemon LeavesNothing).initial
    crashed).ended := by
    decide +kernel
  exact ⟨ended, no_transfer_of_ended run (.head _) ended⟩

/-- The plugin that was stopped has ended, and its offer is still there. -/
theorem transfer_left_of_stopped :
    ¬∀ (codecs : Codecs) (sha256 : Bytes → Digest) (base64 : Bytes → String) (outside : Outside)
      (registry : Registry) (startedAt : UInt64) (history : List (Watch String)),
      Run (machine codecs sha256 base64 outside registry startedAt fun _ _ => True) history →
      ∀ watch ∈ history, ∀ key ∈ watch.ended, watch.service.transfers.FreeOfAdapter key := by
  intro free
  have passed : (daemon fun _ _ => True).passes id (fun _ _ => true)
    (daemon fun _ _ => True).initial stopped = true := by
    decide +kernel
  have follows := Machine.Follows.of_passes (fun _ _ _ => trivial) passed
  rw [List.map_id] at follows
  rcases Run.of_follows follows with ⟨_, run⟩
  have ended : "a" ∈ ((daemon fun _ _ => True).after (daemon fun _ _ => True).initial
      stopped).ended := by
    decide +kernel
  have left : ("a", "t") ∈ ((daemon fun _ _ => True).after (daemon fun _ _ => True).initial
      stopped).service.transfers.adapterToOwner := by
    decide +kernel
  exact (free _ _ _ _ _ _ _ run _ (.head _) "a" ended).index _ left rfl

end Watch

end Syntra
