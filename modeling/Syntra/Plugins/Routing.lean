import Syntra.Plugins.Protocol

/-!
# Routing

Which plugin provides a role, and which messages a plugin may send (`plugins/routing.rs`). Nothing
here looks at the name of a plugin.
-/

namespace Syntra.Plugins

/-- A plugin that could fill a role. -/
structure Candidate where
  id : String
  bundled : Bool
  enabled : Bool
  trusted : Bool
  launchable : Bool
  deriving DecidableEq, Repr

def Candidate.eligible (candidate : Candidate) : Bool :=
  candidate.enabled && candidate.trusted && candidate.launchable

/-- The order of the eligible candidates: bundled ones first, then by id. -/
def Candidate.precedes (candidate other : Candidate) : Bool :=
  if candidate.bundled = other.bundled then candidate.id ≤ other.id else candidate.bundled

def selectProvider (candidates : List Candidate) (preferred : Option String) : Option Candidate :=
  match preferred.bind fun wanted =>
      candidates.find? fun candidate => candidate.id = wanted && candidate.eligible with
  | some found => some found
  | none => ((candidates.filter Candidate.eligible).mergeSort Candidate.precedes).head?

/-- What a running plugin was approved to do. -/
structure Grant where
  capabilities : Capabilities
  /-- The roles held by both declarations. -/
  roles : List PluginRole
  deriving DecidableEq, Repr

namespace Grant

def fromHandshake (approved announced : Capabilities) : Grant where
  capabilities := announced.intersect approved
  roles := approved.roles.filter announced.fills

def allows (grant : Grant) (role : PluginRole) : Bool :=
  role ∈ grant.roles && grant.capabilities.fills role

/-- Whether the plugin may send a message at all. -/
def permits (grant : Grant) (message : Message) : Bool :=
  let clipboard := grant.allows .fileClipboard
  let receive := grant.allows .mountedFileReceive
  match message with
  | .error _ | .declareSettings _ => true
  | .copyManifest _ | .pasteDestination _ | .released _ | .clipboardData .. => clipboard
  | .progress _ | .completed _ | .cancelled _ => clipboard || receive
  | .rangeRequest _ | .mountReady .. | .unmounted _ => receive
  | .hello .. | .publishFileClipboard .. | .remoteManifest .. | .rangeResponse _ | .cancel _
  | .settings _ | .changeSetting .. | .openSettings _ | .pointer _ => false

end Grant

/-- The check of a handshake. What the process announces beyond the approval is narrowed away by
the grant. -/
def validateHandshake (acceptsId : String → Bool) (approved : Capabilities) (message : Message)
    (expectedRole : Option PluginRole) : Except String Grant :=
  match message with
  | .hello version adapterId _ capabilities =>
    if version ≠ protocolVersion then
      .error "the plugin speaks a different protocol version"
    else if !acceptsId adapterId then
      .error "the handshake names a different plugin than the one launched"
    else
      let grant := Grant.fromHandshake approved capabilities
      if !PluginRole.all.any grant.allows then
        .error "the plugin announced nothing it was approved to do"
      else if expectedRole.any (!grant.allows ·) then
        .error "the plugin does not provide the role it was started for"
      else
        .ok grant
  | _ => .error "the first message was not a handshake"

/-- The preferred candidate is chosen where it is eligible, else the first eligible one in the
order, however they are listed. -/
theorem selectProvider_chooses (candidates : List Candidate) (preferred : Option String) :
    match selectProvider candidates preferred with
    | some chosen => chosen ∈ candidates ∧ chosen.eligible ∧ (some chosen.id = preferred ∨
        ∀ other ∈ candidates, other.eligible → some other.id ≠ preferred ∧ chosen.precedes other)
    | none => ∀ candidate ∈ candidates, ¬candidate.eligible := by
  unfold selectProvider
  cases wanted : preferred.bind fun wanted =>
      candidates.find? fun candidate => candidate.id = wanted && candidate.eligible with
  | some found =>
    rcases Option.bind_eq_some_iff.mp wanted with ⟨_, rfl, chosen⟩
    have fits := List.find?_some chosen
    rw [Bool.and_eq_true, decide_eq_true_eq] at fits
    exact ⟨List.mem_of_find?_eq_some chosen, fits.2, .inl (congrArg some fits.1)⟩
  | none =>
    have sorted : ((candidates.filter Candidate.eligible).mergeSort Candidate.precedes).Pairwise
        (·.precedes ·) :=
      List.pairwise_mergeSort (by grind [Candidate.precedes]) (by grind [Candidate.precedes]) _
    have listed (candidate : Candidate) :
        candidate ∈ (candidates.filter Candidate.eligible).mergeSort Candidate.precedes ↔
          candidate ∈ candidates ∧ candidate.eligible := by
      rw [List.mem_mergeSort, List.mem_filter]
    cases ranked : (candidates.filter Candidate.eligible).mergeSort Candidate.precedes with
    | nil =>
      rw [ranked] at listed
      exact fun _ member eligible => List.not_mem_nil ((listed _).mpr ⟨member, eligible⟩)
    | cons first =>
      rw [ranked] at sorted listed
      have chosen := (listed first).mp (.head _)
      refine ⟨chosen.1, chosen.2, .inr fun other member eligible => ⟨?_, ?_⟩⟩
      · rintro rfl
        simpa [eligible] using List.find?_eq_none.mp wanted other member
      · rcases List.mem_cons.mp ((listed other).mpr ⟨member, eligible⟩) with rfl | later
        · simp [Candidate.precedes]
        · exact (List.pairwise_cons.mp sorted).1 other later

end Syntra.Plugins
