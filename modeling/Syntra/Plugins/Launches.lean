import Syntra.Plugins.Grants
import Syntra.Plugins.Permits
import Syntra.Plugins.Relaunches

/-!
# Only approved content runs

Every start of a process goes back to a launch that the registry allowed: the launch travels in a
command and is kept by the supervisor for relaunches, and neither changes it (`Vouched`). Right
before a start the digest of the package is computed again.
-/

namespace Syntra.Plugins

open StateMachine Tables Plugins.System List Registry

/-- The launch was allowed at some point of the run. -/
def Licensed (log : List SystemEffect) (id : String) (spec : LaunchSpec) : Prop :=
  ∃ permit, .permitted permit ∈ log ∧ permit.id = id ∧ permit.plan.spec = spec ∧ permit.Planned

theorem Licensed.mono {log later : List SystemEffect} {id : String} {spec : LaunchSpec}
    (licensed : Licensed log id spec) (more : log ⊆ later) : Licensed later id spec := by
  obtain ⟨permit, allowed, same, planned, plan⟩ := licensed
  exact ⟨permit, more allowed, same, planned, plan⟩

/-- The launch was allowed, for what the registry had cleared. -/
def Approved (log : List SystemEffect) (id : String) (plugin : Discovered) (spec : LaunchSpec) :
    Prop :=
  ∃ permit, .permitted permit ∈ log ∧ permit.id = id ∧ permit.plan.spec = spec ∧
    permit.registry.Cleared permit.outside id plugin spec

theorem Licensed.approved {log : List SystemEffect} {id : String} {spec : LaunchSpec}
    (licensed : Licensed log id spec) : ∃ plugin, Approved log id plugin spec := by
  obtain ⟨permit, allowed, rfl, rfl, planned⟩ := licensed
  obtain ⟨plugin, cleared⟩ := cleared_of_launchPlan planned
  exact ⟨plugin, permit, allowed, rfl, rfl, cleared⟩

section Supervisor

variable (licensed : String → LaunchSpec → Prop) {codecs : Codecs} {around : Surroundings}
  {input : SupervisorInput}

/-- A start of a licensed launch whose content was just checked, or a grant within one. -/
def Effect.Backed (around : Surroundings) : Effect → Prop
  | .spawned adapter _ spec args _ => licensed adapter.plugin spec ∧
    verifyContent around spec = .ok () ∧ args = Supervising.commandArgs adapter spec
  | .report (.ready adapter grant) => ∃ spec announced, licensed adapter.plugin spec ∧
    grant = .fromHandshake spec.approved announced
  | .report _ | .written .. | .ended .. => True

/-- Whatever runs or is to run is licensed. -/
structure Backed (state : State) : Prop where
  specs : ∀ id spec, state.specs.lookup id = some spec → licensed id spec
  live : ∀ adapter runtime, state.processes.lookup adapter = some runtime →
    licensed adapter.plugin runtime.spec ∧ ∀ grant, runtime.grant = some grant →
      ∃ announced, grant = .fromHandshake runtime.spec.approved announced

variable {licensed}

theorem Effect.Quiet.backed {effect : Effect} (quiet : effect.Quiet) :
    effect.Backed licensed around := by
  cases effect with
  | report event => cases event <;> trivial
  | spawned => exact quiet.elim
  | written | ended => trivial

variable {world later : World}

theorem Move.backed (move : Move codecs around input world later)
    (requests : ∀ id spec, input.Requests id spec → licensed id spec)
    (backed : Backed licensed world.1) : Backed licensed later.1 := by
  cases move with
  | note agrees =>
    refine ⟨?_, ?_⟩
    · rw [agrees.specs]
      exact backed.specs
    · rw [agrees.processes]
      exact backed.live
  | tell => exact backed
  | finish =>
    refine ⟨backed.specs, fun adapter runtime registered => ?_⟩
    rw [lookup_erase] at registered
    split at registered
    · cases registered
    · exact backed.live adapter runtime registered
  | accept found announced =>
    obtain ⟨allowed, -⟩ := backed.live _ _ found
    refine ⟨backed.specs, fun other entry registered => ?_⟩
    rw [State.admitted, lookup_insert] at registered
    split at registered
    · rename_i same
      cases registered
      subst same
      refine ⟨allowed, ?_⟩
      rintro _ ⟨⟩
      exact ⟨announced, rfl⟩
    · exact backed.live other entry registered
  | register asked =>
    refine ⟨fun id spec registered => ?_, backed.live⟩
    rw [lookup_insert] at registered
    split at registered
    · rename_i same
      cases registered
      subst same
      exact requests _ _ asked
    · exact backed.specs id spec registered
  | forget =>
    refine ⟨fun other spec registered => ?_, backed.live⟩
    rw [lookup_erase] at registered
    split at registered
    · cases registered
    · exact backed.specs other spec registered
  | count => exact ⟨backed.specs, backed.live⟩
  | start _ _ sourced =>
    refine ⟨backed.specs, fun other entry registered => ?_⟩
    rw [State.launched, lookup_insert] at registered
    split at registered
    · rename_i same
      cases registered
      subst same
      refine ⟨?_, by rintro _ ⟨⟩⟩
      rcases sourced with kept | ⟨_, rfl, asked⟩
      · exact backed.specs _ _ kept
      · exact requests _ _ asked
    · exact backed.live other entry registered
  | pass => exact backed

theorem backed_concat {log : List Effect} {effect : Effect}
    (done : ∀ other ∈ log, other.Backed licensed around) (new : effect.Backed licensed around) :
    ∀ other ∈ log ++ [effect], other.Backed licensed around :=
  forall_mem_append.mpr ⟨done, forall_mem_singleton.mpr new⟩

theorem Move.backed_effects (move : Move codecs around input world later)
    (requests : ∀ id spec, input.Requests id spec → licensed id spec)
    (backed : Backed licensed world.1) (done : ∀ effect ∈ world.2, effect.Backed licensed around) :
    ∀ effect ∈ later.2, effect.Backed licensed around := by
  cases move with
  | note => exact done
  | tell quiet => exact backed_concat done quiet.backed
  | finish => exact backed_concat done trivial
  | accept found announced =>
    exact backed_concat done ⟨_, announced, (backed.live _ _ found).1, rfl⟩
  | register | forget | count => exact done
  | start _ _ sourced verified =>
    refine backed_concat (backed_concat done ⟨?_, verified, rfl⟩) trivial
    rcases sourced with kept | ⟨_, rfl, asked⟩
    · exact backed.specs _ _ kept
    · exact requests _ _ asked
  | pass => exact backed_concat done trivial

theorem Runs.backed (runs : Runs codecs around input world later)
    (requests : ∀ id spec, input.Requests id spec → licensed id spec)
    (backed : Backed licensed world.1) (done : ∀ effect ∈ world.2, effect.Backed licensed around) :
    Backed licensed later.1 ∧ ∀ effect ∈ later.2, effect.Backed licensed around := by
  induction runs with
  | refl => exact ⟨backed, done⟩
  | tail _ move ih => exact ⟨move.backed requests ih.1, move.backed_effects requests ih.1 ih.2⟩

end Supervisor

/-- Every launch that travels or is kept was allowed. -/
structure Vouched (log : List SystemEffect) (system : System) : Prop where
  queued : ∀ command ∈ system.commands, ∀ id spec, command.Requests id spec → Licensed log id spec
  backed : Backed (Licensed log) system.supervisor

theorem Backed.mono {licensed wider : String → LaunchSpec → Prop} {state : State}
    (backed : Backed licensed state) (widens : ∀ id spec, licensed id spec → wider id spec) :
    Backed wider state where
  specs := fun id spec found => widens _ _ (backed.specs id spec found)
  live := fun adapter runtime found =>
    ⟨widens _ _ (backed.live adapter runtime found).1, (backed.live adapter runtime found).2⟩

theorem Serves.vouched {outside : Outside} {service : Service} {after : Service × List Permit}
    (serves : Serves outside (service, []) after) :
    (∀ permit ∈ after.2, permit.Planned) ∧ ∀ command ∈ after.1.commands,
      command ∈ service.commands ∨ ∀ id spec, command.Requests id spec →
        ∃ permit ∈ after.2, permit.id = id ∧ permit.plan.spec = spec := by
  induction serves with
  | refl => exact ⟨fun _ none => absurd none not_mem_nil, fun _ => .inl⟩
  | tail _ move ih =>
    obtain ⟨planned, queued⟩ := ih
    cases move with
    | know => exact ⟨planned, queued⟩
    | send mail =>
      refine ⟨planned, forall_mem_append.mpr ⟨queued, forall_mem_singleton.mpr ?_⟩⟩
      exact .inr fun id spec asks => absurd asks (not_requests_of_isMail mail id spec)
    | stop stopped =>
      refine ⟨planned, forall_mem_append.mpr ⟨queued, forall_mem_singleton.mpr ?_⟩⟩
      exact .inr fun id spec asks => absurd asks (not_requests_stopPlugin stopped id spec)
    | allow allowed =>
      refine ⟨forall_mem_append.mpr ⟨planned, forall_mem_singleton.mpr allowed⟩, ?_⟩
      refine fun command member => (queued command member).imp id fun only id spec asks => ?_
      obtain ⟨permit, held, same⟩ := only id spec asks
      exact ⟨permit, mem_append_left _ held, same⟩
    | start allowed requests =>
      refine ⟨planned, forall_mem_append.mpr ⟨queued, forall_mem_singleton.mpr ?_⟩⟩
      refine .inr fun _ _ asks => ?_
      obtain ⟨rfl, rfl⟩ := requests.unique asks
      exact ⟨_, allowed, rfl, rfl⟩

def SystemInput.around : SystemInput → Option Surroundings
  | .command around | .process around _ => some around
  | .request .. | .installed .. | .mountedReceive .. | .mail .. | .event => none

section Systems

variable {codecs : Codecs} {log : List SystemEffect} {system : System}

theorem Vouched.mono {later : List SystemEffect} (vouched : Vouched log system)
    (more : log ⊆ later) : Vouched later system where
  queued := fun command member id spec asks => (vouched.queued command member id spec asks).mono
    more
  backed := vouched.backed.mono fun _ _ licensed => licensed.mono more

theorem Vouched.serve (vouched : Vouched log system) {outside : Outside}
    {after : Service × List Permit} (serves : Serves outside (system.toService, []) after) :
    Vouched (log ++ after.2.map .permitted) { system with toService := after.1 } := by
  obtain ⟨planned, queued⟩ := serves.vouched
  have wider : Vouched (log ++ after.2.map .permitted) system :=
    vouched.mono (subset_append_left _ _)
  refine ⟨fun command member id spec asks => ?_, wider.backed⟩
  rcases queued command member with old | new
  · exact wider.queued command old id spec asks
  · obtain ⟨permit, allowed, same, plan⟩ := new id spec asks
    exact ⟨permit, mem_append_right _ (mem_map_of_mem allowed), same, plan, planned permit allowed⟩

theorem Vouched.supervised (vouched : Vouched log system) (codecs : Codecs)
    (around : Surroundings) (input : SupervisorInput)
    (requests : ∀ id spec, input.Requests id spec → Licensed log id spec) :
    Vouched (log ++ (system.supervised codecs around input).2)
        (system.supervised codecs around input).1 ∧
      ∀ effect, .acted effect ∈ (system.supervised codecs around input).2 →
        effect.Backed (Licensed log) around := by
  obtain ⟨backed, done⟩ := (supervise_runs codecs system.supervisor around input).backed requests
    vouched.backed fun _ none => absurd none not_mem_nil
  refine ⟨?_, fun effect acted => ?_⟩
  · have after : Vouched log (system.supervised codecs around input).1 := ⟨vouched.queued, backed⟩
    exact after.mono (subset_append_left _ _)
  · obtain ⟨_, did, same⟩ := mem_map.mp acted
    cases same
    exact done effect did

theorem Vouched.step (vouched : Vouched log system) (input : SystemInput) :
    Vouched (log ++ (system.step codecs input).2) (system.step codecs input).1 ∧
      ∀ effect, .acted effect ∈ (system.step codecs input).2 →
        ∃ around, input.around = some around ∧ effect.Backed (Licensed log) around := by
  have none {effect : Effect} : .acted effect ∉ ([] : List SystemEffect) := not_mem_nil
  have steps := stepped codecs system input
  generalize system.step codecs input = after at steps ⊢
  cases steps with
  | stay => exact ⟨by simpa using vouched, fun _ acted => absurd acted none⟩
  | serve serves =>
    refine ⟨vouched.serve serves, fun effect acted => ?_⟩
    obtain ⟨_, -, same⟩ := mem_map.mp acted
    cases same
  | observe first =>
    rename_i event events
    have after : Vouched log
        { system with registry := Serving.observe event system.registry, events } :=
      ⟨vouched.queued, vouched.backed⟩
    exact ⟨by simpa using after, fun _ acted => absurd acted none⟩
  | command named first running =>
    rename_i around command commands
    have rest : Vouched log { system with commands } := by
      refine ⟨fun other member => vouched.queued other ?_, vouched.backed⟩
      rw [first]
      exact .tail _ member
    have head : command ∈ system.commands := first ▸ (.head _)
    obtain ⟨after, done⟩ := rest.supervised codecs around (.command command)
      fun id spec asks => vouched.queued command head id spec asks
    subst named
    exact ⟨after, fun effect acted => ⟨around, rfl, done effect acted⟩⟩
  | process named =>
    rename_i around event
    obtain ⟨after, done⟩ := vouched.supervised codecs around (.process event)
      (by rintro id spec (⟨_, ⟨⟩⟩ | ⟨_, _, _, ⟨⟩⟩ | ⟨_, ⟨⟩⟩))
    subst named
    exact ⟨after, fun effect acted => ⟨around, rfl, done effect acted⟩⟩

theorem vouched_start (outside : Outside) (registry : Registry) :
    Vouched (start outside registry).2 (start outside registry).1 := by
  have nothing : Vouched [] (idle registry.unobserved) := by
    refine ⟨fun _ none => absurd none not_mem_nil, ⟨?_, ?_⟩⟩
    · rintro _ _ ⟨⟩
    · rintro _ _ ⟨⟩
  have along : (Serving.startResidents outside).Along (Serves outside) :=
    Serving.serves_startResidents
  have serves := Handler.Ensures.stateAfter (along ((idle registry.unobserved).toService, []))
  exact nothing.serve serves

theorem vouched_outcome (vouched : Vouched log system) (inputs : List SystemInput) :
    Vouched (log ++ (outcome (step codecs) system inputs).2)
      (outcome (step codecs) system inputs).1 := by
  induction inputs generalizing log system with
  | nil => simpa [outcome] using vouched
  | cons input _ ih => simpa [outcome] using ih (vouched.step input).1

theorem vouched_run (codecs : Codecs) (outside : Outside) (registry : Registry)
    (inputs : List SystemInput) :
    Vouched (run codecs outside registry inputs).2 (run codecs outside registry inputs).1 :=
  vouched_outcome (vouched_start outside registry) inputs

def startsOf (id : String) (effects : List SystemEffect) : ℕ :=
  residentStarts id (effects.filterMap fun effect => match effect with
    | .acted effect => some effect
    | .permitted _ => none)

/-- A command starts a process of the plugin. -/
def ExplicitStart (codecs : Codecs) (id : String) (system : System) (input : SystemInput) : Prop :=
  (∃ around, input = .command around) ∧ startsOf id (system.step codecs input).2 ≠ 0

theorem startsOf_append (id : String) (first second : List SystemEffect) :
    startsOf id (first ++ second) = startsOf id first + startsOf id second := by
  simp [startsOf]

theorem startsOf_supervised (id : String) (system : System) (around : Surroundings)
    (input : SupervisorInput) :
    startsOf id (system.supervised codecs around input).2 =
      residentStarts id (supervise codecs system.supervisor (around, input)).2 := by
  simp [startsOf, supervised, filterMap_map]

variable {id : String}

theorem step_spends (input : SystemInput) (system : System)
    (automatic : ¬ExplicitStart codecs id system input) :
    startsOf id (system.step codecs input).2 +
        (system.step codecs input).1.supervisor.relaunchesLeft id ≤
      system.supervisor.relaunchesLeft id := by
  have permits (list : List Permit) : startsOf id (list.map .permitted) = 0 := by
    simp [startsOf, filterMap_map, residentStarts]
  have steps := stepped codecs system input
  unfold ExplicitStart at automatic
  generalize system.step codecs input = after at steps automatic ⊢
  cases steps with
  | stay => simp [startsOf, residentStarts]
  | serve =>
    rw [permits]
    simp
  | observe => simp [startsOf, residentStarts]
  | command named first running =>
    rename_i around command commands
    have none : startsOf id
        (({ system with commands } : System).supervised codecs around (.command command)).2 =
          0 := by
      by_contra starts
      exact automatic ⟨⟨around, named⟩, starts⟩
    rw [none, Nat.zero_add]
    rw [startsOf_supervised] at none
    exact (idles_supervise codecs system.supervisor around command id).2 none
  | process named =>
    rename_i around event
    rw [startsOf_supervised]
    have spends := spends_supervise codecs system.supervisor around event id
    have none : residentStarts id (system.supervisor, ([] : List Effect)).2 = 0 := rfl
    rw [none, Nat.zero_add] at spends
    exact spends

theorem outcome_spends (inputs : List SystemInput) (system : System)
    (automatic : ∀ state input, Meets (step codecs) system inputs state input →
      ¬ExplicitStart codecs id state input) :
    startsOf id (outcome (step codecs) system inputs).2 +
        (outcome (step codecs) system inputs).1.supervisor.relaunchesLeft id ≤
      system.supervisor.relaunchesLeft id := by
  induction inputs generalizing system with
  | nil => simp [outcome, startsOf, residentStarts]
  | cons input _ ih =>
    have first := step_spends input system (automatic system input .here)
    have rest := ih (system.step codecs input).1 fun state other meets =>
      automatic state other meets.later
    simp only [outcome, startsOf_append]
    omega

/-- The content of a launch that was allowed for a plugin: whoever is not bundled had it approved,
and the digest is that of the package right now. -/
structure Genuine (log : List SystemEffect) (around : Surroundings) (id : String)
    (plugin : Discovered) (spec : LaunchSpec) : Prop where
  approved : Approved log id plugin spec
  unchanged : plugin.origin ≠ .bundled →
    around.digest plugin.integrity plugin.executable = .ok spec.digest

theorem genuine_of_licensed {around : Surroundings} {spec : LaunchSpec}
    (licensed : Licensed log id spec) (verified : verifyContent around spec = .ok ()) :
    ∃ plugin, Genuine log around id plugin spec := by
  obtain ⟨plugin, approved⟩ := licensed.approved
  refine ⟨plugin, approved, fun foreign => ?_⟩
  obtain ⟨_, -, -, -, cleared⟩ := approved
  obtain ⟨-, -, covers⟩ := cleared.approved foreign
  unfold verifyContent at verified
  rw [covers, cleared.executable] at verified
  dsimp only at verified
  split at verified
  · cases verified
  · rename_i current computed
    split at verified
    · rename_i same
      rw [computed, same]
    · cases verified

end Systems

/-- In every run: whatever is started was allowed for a plugin that was enabled and, unless it is
bundled, approved with the digest that its package has at that moment, and is given the arguments of
that manifest, a settings window one more; a grant stays within that manifest; and without an
explicit start there are only so many automatic ones. -/
theorem only_approved_content (codecs : Codecs) (outside : Outside) (registry : Registry)
    (inputs : List SystemInput) :
    let reached := run codecs outside registry inputs
    (∀ input adapter generation spec args theme,
      .acted (.spawned adapter generation spec args theme) ∈ (reached.1.step codecs input).2 →
      ∃ around plugin, input.around = some around ∧
        Genuine reached.2 around adapter.plugin plugin spec ∧
        args = plugin.manifest.argv ++
          if adapter = .settings adapter.plugin then ["--settings"] else []) ∧
    (∀ input adapter grant,
      .acted (.report (.ready adapter grant)) ∈ (reached.1.step codecs input).2 →
      ∃ plugin spec, Approved reached.2 adapter.plugin plugin spec ∧
        grant.capabilities ≤ plugin.manifest.capabilities ∧
        ∀ role, grant.allows role = true → plugin.manifest.capabilities.fills role = true) ∧
    (∀ adapter runtime, reached.1.supervisor.processes.lookup adapter = some runtime →
      ∃ plugin, Approved reached.2 adapter.plugin plugin runtime.spec ∧
        ∀ grant, runtime.grant = some grant →
          grant.capabilities ≤ plugin.manifest.capabilities ∧
          ∀ role, grant.allows role = true → plugin.manifest.capabilities.fills role = true) ∧
    ∀ id later, (∀ system input, Meets (System.step codecs) reached.1 later system input →
        ¬ExplicitStart codecs id system input) →
      startsOf id (outcome (System.step codecs) reached.1 later).2 ≤ maxRestarts := by
  intro reached
  have vouched : Vouched reached.2 reached.1 := vouched_run codecs outside registry inputs
  have within {id : String} {plugin : Discovered} {spec : LaunchSpec} {announced : Capabilities}
      (approved : Approved reached.2 id plugin spec) :
      (Grant.fromHandshake spec.approved announced).capabilities ≤ plugin.manifest.capabilities ∧
        ∀ role, (Grant.fromHandshake spec.approved announced).allows role = true →
          plugin.manifest.capabilities.fills role = true := by
    obtain ⟨permit, -, -, -, cleared⟩ := approved
    rw [← cleared.capabilities]
    obtain ⟨roles, part⟩ := Grant.narrows spec.approved announced
    exact ⟨part, fun role allowed => (roles role allowed).1⟩
  refine ⟨?_, ?_, ?_, ?_⟩
  · intro input adapter _ spec args _ spawned
    obtain ⟨around, met, licensed, verified, rfl⟩ := (vouched.step input).2 _ spawned
    obtain ⟨plugin, genuine⟩ := genuine_of_licensed licensed verified
    refine ⟨around, plugin, met, genuine, ?_⟩
    obtain ⟨_, -, -, -, cleared⟩ := genuine.approved
    rw [← cleared.args]
    cases adapter <;> simp [Supervising.commandArgs, AdapterId.plugin]
  · intro input adapter grant ready
    obtain ⟨_, _, spec, announced, licensed, rfl⟩ := (vouched.step input).2 _ ready
    obtain ⟨plugin, approved⟩ := licensed.approved
    exact ⟨plugin, spec, approved, within approved⟩
  · intro adapter runtime found
    obtain ⟨licensed, granted⟩ := vouched.backed.live adapter runtime found
    obtain ⟨plugin, approved⟩ := licensed.approved
    refine ⟨plugin, approved, fun grant holds => ?_⟩
    obtain ⟨_, rfl⟩ := granted grant holds
    exact within approved
  · intro id later automatic
    have spent := outcome_spends later reached.1 automatic
    have few := reached.1.supervisor.relaunchesLeft_le id
    omega

namespace Window

def manifest : PluginManifest where
  protocolVersion := protocolVersion
  id := "window"
  version := "1.0"
  args := []
  onDemand := false
  ownsSettings := true
  capabilities := {
    clipboardRead := false, paste := false, cancel := false, requiresLiveMount := false
    pointerEvents := false, mimeTypes := [] }
  settings := []
  handshakeIds := []
  resources := []

def plugin : Discovered := ⟨manifest, .installed, .ofText "plugin.json", "window"⟩

def registry : Registry where
  plugins := [plugin]
  unsupported := []
  trust := ⟨(∅ : Table String String).insert "window" "digest", ∅⟩
  enabled := (∅ : Table String Bool).insert "window" true
  running := ∅
  pids := ∅
  chosen := ∅
  owned := ∅
  store := none

def outside : Outside where
  digest _ _ := .ok "digest"
  shownDigest _ := .ok "digest"
  isFile _ := true
  discovered := ⟨[plugin], []⟩
  savedValues _ := ∅
  saves := .ok ()
  uninstalls _ := .ok ()
  makesRoom _ := false

def around : Surroundings where
  digest _ _ := .ok "digest"
  checkExecutable _ := .ok ()
  spawn _ _ := .ok 100
  trySend _ := .sent
  processOrder := .asStored _
  transferOrder := .asStored _

def codecs : Codecs := ⟨fun _ => .error "no message", fun _ => none⟩

def spec : LaunchSpec where
  executable := "window"
  args := []
  approved := manifest.capabilities
  handshakeIds := []
  role := none
  digest := "digest"
  integrity := some plugin.integrity

theorem start_eq : start outside registry = (idle registry, []) := by
  refine start_of_none ?_
  simp [residentPlugins, activeProvider, candidates, unobserved,
    registry, plugin, manifest, Capabilities.fills, selectProvider]

def asked : List SystemInput := [.request outside (.openPluginSettings "window" [])]

theorem spawned : .acted (.spawned (.settings "window") 1 spec ["--settings"] (some "")) ∈
    ((run codecs outside registry asked).1.step codecs (.command around)).2 := by
  rw [run, start_eq]
  exact .head _

end Window

/-- A settings window is given one argument more than its manifest has. -/
theorem unlisted_argument : ¬∀ codecs outside registry inputs input adapter generation spec args
    theme, .acted (.spawned adapter generation spec args theme) ∈
      ((run codecs outside registry inputs).1.step codecs input).2 →
      ∃ around plugin, input.around = some around ∧
        Genuine (run codecs outside registry inputs).2 around adapter.plugin plugin spec ∧
        args = plugin.manifest.argv := by
  intro listed
  obtain ⟨_, _, -, genuine, same⟩ := listed _ _ _ _ _ _ _ _ _ _ Window.spawned
  obtain ⟨_, -, -, -, cleared⟩ := genuine.approved
  rw [← cleared.args] at same
  cases same

end Syntra.Plugins
