import Syntra.Plugins.Routing

/-!
# Grants and announcements

Capabilities are ordered by what they include. A grant never reaches beyond the approval, and two of
the three roles are kept by whoever announces more than was approved. The third is not: a process
that is approved for mounted receives and announces that it can also read the clipboard is refused
the role (`allows_approved_iff`).
-/

namespace Syntra.Plugins

open Capabilities

namespace Capabilities

/-- Capabilities with every flag and MIME type of the others. -/
instance : Preorder Capabilities where
  le less more :=
    less.clipboardRead ≤ more.clipboardRead ∧ less.paste ≤ more.paste ∧
      less.cancel ≤ more.cancel ∧ less.requiresLiveMount ≤ more.requiresLiveMount ∧
      less.pointerEvents ≤ more.pointerEvents ∧ less.mimeTypes ⊆ more.mimeTypes
  le_refl _ := ⟨le_rfl, le_rfl, le_rfl, le_rfl, le_rfl, List.Subset.refl _⟩
  le_trans _ _ _ first second :=
    ⟨first.1.trans second.1, first.2.1.trans second.2.1, first.2.2.1.trans second.2.2.1,
      first.2.2.2.1.trans second.2.2.2.1, first.2.2.2.2.1.trans second.2.2.2.2.1,
      List.Subset.trans first.2.2.2.2.2 second.2.2.2.2.2⟩

theorem le_iff {less more : Capabilities} :
    less ≤ more ↔ less.clipboardRead ≤ more.clipboardRead ∧ less.paste ≤ more.paste ∧
      less.cancel ≤ more.cancel ∧ less.requiresLiveMount ≤ more.requiresLiveMount ∧
      less.pointerEvents ≤ more.pointerEvents ∧ less.mimeTypes ⊆ more.mimeTypes :=
  Iff.rfl

theorem le_intersect_iff {part announced approved : Capabilities} :
    part ≤ announced.intersect approved ↔ part ≤ announced ∧ part ≤ approved := by
  simp only [le_iff, intersect, List.subset_def, List.mem_filter, decide_eq_true_eq,
    Bool.le_iff_imp, Bool.and_eq_true]
  grind

theorem intersect_le_right (announced approved : Capabilities) :
    announced.intersect approved ≤ approved :=
  (le_intersect_iff.mp le_rfl).2

variable {capabilities : Capabilities} {role : PluginRole}

theorem lists_iff {wanted : String} :
    capabilities.lists wanted = true ↔ wanted ∈ capabilities.mimeTypes := by
  simp [lists]

theorem fills_mono {less more : Capabilities} (le : less ≤ more)
    (excluded : role = .mountedFileReceive → more.clipboardRead = false)
    (fills : less.fills role = true) : more.fills role = true := by
  rcases le with ⟨clipboardRead, paste, cancel, mount, pointer, mimes⟩
  cases role with
  | fileClipboard =>
    simp only [Capabilities.fills, Bool.and_eq_true, lists_iff] at fills ⊢
    rcases fills with ⟨⟨⟨⟨reads, pastes⟩, cancels⟩, uris⟩, copied⟩
    exact ⟨⟨⟨⟨clipboardRead reads, paste pastes⟩, cancel cancels⟩, mimes uris⟩, mimes copied⟩
  | mountedFileReceive =>
    simp only [Capabilities.fills, Bool.and_eq_true, lists_iff, excluded rfl] at fills ⊢
    rcases fills with ⟨⟨⟨⟨_, pastes⟩, cancels⟩, mounts⟩, uris⟩
    exact ⟨⟨⟨⟨rfl, paste pastes⟩, cancel cancels⟩, mount mounts⟩, mimes uris⟩
  | pointer => exact pointer fills

theorem mem_roles : role ∈ capabilities.roles ↔ capabilities.fills role = true := by
  simp [roles, PluginRole.mem_all]

end Capabilities

namespace Grant

variable {approved announced : Capabilities} {role : PluginRole}

theorem allows_fromHandshake :
    (fromHandshake approved announced).allows role = true ↔
      approved.fills role = true ∧ announced.fills role = true ∧
        (announced.intersect approved).fills role = true := by
  simp [allows, fromHandshake, mem_roles, and_assoc]

theorem allows_of_covered (covered : approved ≤ announced) :
    (fromHandshake approved announced).allows role = true ↔
      approved.fills role = true ∧ announced.fills role = true := by
  rw [allows_fromHandshake]
  constructor
  · exact fun allowed => ⟨allowed.1, allowed.2.1⟩
  · rintro ⟨approves, announces⟩
    refine ⟨approves, announces, ?_⟩
    have part : approved ≤ announced.intersect approved :=
      le_intersect_iff.mpr ⟨covered, le_rfl⟩
    apply fills_mono part ?_ approves
    rintro rfl
    simp only [fills, Bool.and_eq_true, Bool.not_eq_true'] at approves
    simp [intersect, approves.1.1.1.1]

/-- What is announced beyond an approval is ignored: a process that would be taken if it announced
exactly what was approved is taken. -/
def IgnoresExtras (approved announced : Capabilities) : Prop :=
  approved ≤ announced →
    (∀ role, approved.fills role = true → (fromHandshake approved announced).allows role = true) ∧
    ∀ (acceptsId : String → Bool) (version : UInt32) (adapterId name : String)
      (expectedRole : Option PluginRole),
      (validateHandshake acceptsId approved (.hello version adapterId name approved)
        expectedRole).isOk →
      (validateHandshake acceptsId approved (.hello version adapterId name announced)
        expectedRole).isOk

/-- The roles that are allowed are filled by both sides, and no capability is wider than what was
approved. -/
def Narrows (approved announced : Capabilities) : Prop :=
  (∀ role, (fromHandshake approved announced).allows role = true →
    approved.fills role = true ∧ announced.fills role = true) ∧
  (fromHandshake approved announced).capabilities ≤ approved

theorem narrows (approved announced : Capabilities) : Narrows approved announced :=
  ⟨fun _ allowed => ⟨(allows_fromHandshake.mp allowed).1, (allows_fromHandshake.mp allowed).2.1⟩,
    intersect_le_right announced approved⟩

theorem validateHandshake_isOk {acceptsId : String → Bool} {version : UInt32}
    {adapterId name : String} {expectedRole : Option PluginRole} :
    (validateHandshake acceptsId approved (.hello version adapterId name announced)
      expectedRole).isOk ↔
      version = protocolVersion ∧ acceptsId adapterId = true ∧
        (∃ role, (fromHandshake approved announced).allows role = true) ∧
        ∀ role, expectedRole = some role →
          (fromHandshake approved announced).allows role = true := by
  simp only [validateHandshake]
  split
  · simp_all [Except.isOk, Except.toBool]
  · split
    · simp_all [Except.isOk, Except.toBool]
    · split
      · simp_all [Except.isOk, Except.toBool, PluginRole.mem_all]
      · cases expectedRole with
        | none => simp_all [Except.isOk, Except.toBool, PluginRole.mem_all]
        | some role =>
          cases allowed : (fromHandshake approved announced).allows role <;>
            simp_all [Except.isOk, Except.toBool, PluginRole.mem_all]

theorem ignoresExtras_of_fills
    (kept : ∀ role, approved.fills role = true → announced.fills role = true) :
    IgnoresExtras approved announced := by
  intro covered
  have allows (role : PluginRole) (approves : approved.fills role = true) :
      (fromHandshake approved announced).allows role = true :=
    (allows_of_covered covered).mpr ⟨approves, kept role approves⟩
  refine ⟨allows, ?_⟩
  intro _ _ _ _ _ taken
  rw [validateHandshake_isOk] at taken ⊢
  rcases taken with ⟨spoken, named, ⟨role, serves⟩, expected⟩
  refine ⟨spoken, named, ⟨role, allows role (allows_fromHandshake.mp serves).1⟩, ?_⟩
  exact fun wanted same => allows wanted (allows_fromHandshake.mp (expected wanted same)).1

/-- A grant is never wider than the approval, and no role is lost by announcing more, but where
mounted receives are approved and the process also announces that it reads the clipboard. -/
theorem allows_approved_iff (approved announced : Capabilities) :
    Narrows approved announced ∧ IgnoresExtras approved announced ↔
      ¬(approved ≤ announced ∧ approved.fills .mountedFileReceive = true ∧
        announced.clipboardRead = true) := by
  constructor
  · rintro ⟨-, ignores⟩ ⟨covered, mounts, reads⟩
    have allowed := (ignores covered).1 .mountedFileReceive mounts
    have announces := ((allows_of_covered covered).mp allowed).2
    simp [Capabilities.fills, reads] at announces
  · intro spared
    refine ⟨narrows approved announced, ?_⟩
    intro covered
    refine ignoresExtras_of_fills (fun _ approves => ?_) covered
    apply Capabilities.fills_mono covered ?_ approves
    rintro rfl
    by_contra reads
    exact spared ⟨covered, approves, by simpa using reads⟩

def fuseDescriptor : Capabilities where
  clipboardRead := false
  paste := true
  cancel := true
  requiresLiveMount := true
  pointerEvents := false
  mimeTypes := [uriListMime]

def fuseHello : Capabilities where
  clipboardRead := true
  paste := true
  cancel := true
  requiresLiveMount := true
  pointerEvents := false
  mimeTypes := [uriListMime, gnomeCopiedFilesMime]

/-- The FUSE plugin announces more than its descriptor, and is refused. -/
theorem fuse_refused :
    ¬(Narrows fuseDescriptor fuseHello ∧ IgnoresExtras fuseDescriptor fuseHello) ∧
      (validateHandshake (· = "fuse") fuseDescriptor
        (.hello protocolVersion "fuse" "Read-only Clipboard FUSE" fuseHello)
        (some .mountedFileReceive)).isOk = false := by
  refine ⟨?_, by decide⟩
  rintro ⟨-, ignores⟩
  have covered : fuseDescriptor ≤ fuseHello := by
    refine Capabilities.le_iff.mpr ⟨?_, ?_, ?_, ?_, ?_, ?_⟩ <;> decide
  exact absurd ((ignores covered).1 .mountedFileReceive (by decide)) (by decide)

end Grant

end Syntra.Plugins
