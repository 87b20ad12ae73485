import Syntra.Clipboard.Operations
import Syntra.StateMachine.Run

/-!
# The indices of the transfer state

The six tables of a `TransferState` describe one set of transfers. `Sound` says so, in two
strengths: in every state an index names only what is there, and as long as no adapter releases
a remote transfer every transfer is also found under its adapter. Both are kept by the few
changes that the operations are made of.
-/

namespace Syntra.Clipboard

open Proto Tables Option List

variable {P : Type} [DecidableEq P]

/-- A range that is collected agrees with its validator. -/
structure PendingRange.Consistent (range : PendingRange P) : Prop where
  transferId : range.validator.transferId = range.key.owner.wireId
  fileId : range.validator.fileId = range.key.fileId
  requestId : range.validator.requestId = range.key.requestId
  offset : range.validator.offset = range.key.offset
  length : range.validator.length = range.key.length
  requested : validateRequest range.key.offset range.key.length = .ok ()
  incomplete : range.validator.complete = false
  received : range.received.toNat = range.chunk.length
  fed : range.hasher = range.chunk
  single : range.validator.chunkReceived = true ↔ range.chunk ≠ []

namespace TransferState

/-- A range under way is one of a file in a manifest that is there. -/
structure Awaited (state : TransferState P) (key : RequestKey P) (range : PendingRange P) :
    Prop where
  owner : range.key.owner = key.1
  fileId : range.key.fileId = key.2.1
  requestId : range.key.requestId = key.2.2
  covered : ∃ transfer entry, state.remoteTransfers.lookup key.1 = some transfer ∧
    transfer.entries.lookup key.2.1 = some entry ∧ entry.kind = .file ∧
    range.key.offset.toNat + range.key.length.toNat ≤ entry.size.toNat
  consistent : range.Consistent

/-- The adapter knows the transfer by this number. -/
def IsRegistered (state : TransferState P) (owner : TransferOwner P) (pair : AdapterId × String) :
    Prop :=
  ∃ owners, state.adapterToOwner.lookup pair = some owners ∧ owner ∈ owners

/-- The tables agree; with `whole`, every transfer is also registered under its adapter. -/
structure Sound (whole : Prop) (state : TransferState P) : Prop where
  disjoint : ∀ owner transfer, state.localTransfers.lookup owner = some transfer →
    state.remoteTransfers.lookup owner = none
  inverse : ∀ uiId owner, state.uiToOwner.lookup uiId = some owner ↔
    state.transferUiId owner = some uiId
  counting : state.nextUiId ≠ 0
  nonzero : state.uiToOwner.lookup 0 = none
  registered : ∀ pair owners, state.adapterToOwner.lookup pair = some owners →
    owners ≠ [] ∧ owners.Nodup ∧ ∀ owner ∈ owners, state.adapterPair owner = some pair
  listed : whole → ∀ owner pair, state.adapterPair owner = some pair → state.IsRegistered owner pair
  awaited : ∀ key range, state.pending.lookup key = some range → state.Awaited key range
  reserved : ∀ key reservation, state.sourcePending.lookup key = some reservation →
    ∃ transfer, state.localTransfers.lookup key.1 = some transfer
  streaming : ∀ owner transfer key file, state.localTransfers.lookup owner = some transfer →
    transfer.outgoing.lookup key = some file →
    ∃ reservation, state.sourcePending.lookup (owner, key) = some reservation

variable {whole : Prop} {state later : TransferState P}

theorem new_sound : (new : TransferState P).Sound whole where
  disjoint := by simp [new]
  inverse := by simp [new, transferUiId]
  counting := by simp [new]
  nonzero := by simp [new]
  registered := by simp [new]
  listed := by simp [new, adapterPair]
  awaited := by simp [new]
  reserved := by simp [new]
  streaming := by simp [new]

def localIndex (transfer : LocalTransfer) : UiTransferId × AdapterId × String :=
  (transfer.uiId, transfer.adapterId, transfer.adapterTransferId)

/-- What of a remote transfer the indices and the range requests look at. -/
def remoteIndex (transfer : RemoteTransfer) :
    (UiTransferId × AdapterId × String) × Table UInt64 ClipboardManifestEntry :=
  ((transfer.uiId, transfer.adapterId, transfer.adapterTransferId), transfer.entries)

/-- The same transfers under the same indices. -/
structure Alike (state later : TransferState P) : Prop where
  localTransfers : ∀ owner, (later.localTransfers.lookup owner).map localIndex =
    (state.localTransfers.lookup owner).map localIndex
  remoteTransfers : ∀ owner, (later.remoteTransfers.lookup owner).map remoteIndex =
    (state.remoteTransfers.lookup owner).map remoteIndex
  nextUiId : later.nextUiId = state.nextUiId
  adapterToOwner : later.adapterToOwner = state.adapterToOwner
  uiToOwner : later.uiToOwner = state.uiToOwner

namespace Alike

theorem refl (state : TransferState P) : state.Alike state :=
  ⟨fun _ => rfl, fun _ => rfl, rfl, rfl, rfl⟩

variable (alike : state.Alike later)
include alike

theorem transferUiId (owner : TransferOwner P) :
    later.transferUiId owner = state.transferUiId owner := by
  have here := congrArg (Option.map Prod.fst) (alike.localTransfers owner)
  have there := congrArg (Option.map fun index => index.1.1) (alike.remoteTransfers owner)
  rw [Option.map_map, Option.map_map] at here there
  exact congrArg₂ Option.or here there

theorem adapterPair (owner : TransferOwner P) :
    later.adapterPair owner = state.adapterPair owner := by
  have here := congrArg (Option.map Prod.snd) (alike.localTransfers owner)
  have there := congrArg (Option.map fun index => index.1.2) (alike.remoteTransfers owner)
  rw [Option.map_map, Option.map_map] at here there
  exact congrArg₂ Option.or here there

variable {owner : TransferOwner P}

theorem isLocal :
    (∃ transfer, later.localTransfers.lookup owner = some transfer) ↔
      ∃ transfer, state.localTransfers.lookup owner = some transfer := by
  have same := congrArg isSome (alike.localTransfers owner)
  simp only [isSome_map] at same
  rw [← isSome_iff_exists, ← isSome_iff_exists, same]

theorem remote_none :
    later.remoteTransfers.lookup owner = none ↔ state.remoteTransfers.lookup owner = none := by
  have same := congrArg isNone (alike.remoteTransfers owner)
  simp only [isNone_map] at same
  rw [← isNone_iff_eq_none, ← isNone_iff_eq_none, same]

theorem remoteEntries {transfer : RemoteTransfer}
    (found : state.remoteTransfers.lookup owner = some transfer) :
    ∃ other, later.remoteTransfers.lookup owner = some other ∧
      other.entries = transfer.entries := by
  have same := alike.remoteTransfers owner
  rw [found, map_some, map_eq_some_iff] at same
  rcases same with ⟨other, there, index⟩
  exact ⟨other, there, congrArg Prod.snd index⟩

theorem awaited {key : RequestKey P} {range : PendingRange P} (awaited : state.Awaited key range) :
    later.Awaited key range := by
  rcases awaited.covered with ⟨_, entry, found, listed, isFile, within⟩
  rcases alike.remoteEntries found with ⟨other, there, entries⟩
  refine ⟨awaited.owner, awaited.fileId, awaited.requestId, ?_, awaited.consistent⟩
  exact ⟨other, entry, there, entries ▸ listed, isFile, within⟩

theorem sound (sound : state.Sound whole)
    (awaited : ∀ key range, later.pending.lookup key = some range → state.Awaited key range)
    (reserved : ∀ key reservation, later.sourcePending.lookup key = some reservation →
      ∃ transfer, state.localTransfers.lookup key.1 = some transfer)
    (streaming : ∀ owner transfer key file, later.localTransfers.lookup owner = some transfer →
      transfer.outgoing.lookup key = some file →
      ∃ reservation, later.sourcePending.lookup (owner, key) = some reservation) :
    later.Sound whole where
  disjoint := by
    intro owner transfer found
    rcases alike.isLocal.mp ⟨transfer, found⟩ with ⟨earlier, there⟩
    exact alike.remote_none.mpr (sound.disjoint owner earlier there)
  inverse := by
    intro uiId owner
    rw [alike.uiToOwner, alike.transferUiId]
    exact sound.inverse uiId owner
  counting := by
    rw [alike.nextUiId]
    exact sound.counting
  nonzero := by
    rw [alike.uiToOwner]
    exact sound.nonzero
  registered := by
    intro pair owners found
    rw [alike.adapterToOwner] at found
    simp only [alike.adapterPair]
    exact sound.registered pair owners found
  listed := by
    intro all owner pair carried
    rw [alike.adapterPair] at carried
    rw [IsRegistered, alike.adapterToOwner]
    exact sound.listed all owner pair carried
  awaited := fun key range found => alike.awaited (awaited key range found)
  reserved := fun key reservation found => alike.isLocal.mpr (reserved key reservation found)
  streaming := streaming

end Alike

section Removal

variable {owner : TransferOwner P}

theorem transferUiId_eq_none :
    state.transferUiId owner = none ↔ state.localTransfers.lookup owner = none ∧
      state.remoteTransfers.lookup owner = none := by
  simp [transferUiId]

theorem adapterPair_eq_none :
    state.adapterPair owner = none ↔ state.localTransfers.lookup owner = none ∧
      state.remoteTransfers.lookup owner = none := by
  simp [adapterPair]

theorem removeOwner_local (owner other : TransferOwner P) :
    (state.removeOwner owner).localTransfers.lookup other =
      if other = owner then none else state.localTransfers.lookup other :=
  lookup_erase _ _ _

theorem removeOwner_remote (sound : state.Sound whole) (owner other : TransferOwner P) :
    (state.removeOwner owner).remoteTransfers.lookup other =
      if other = owner then none else state.remoteTransfers.lookup other := by
  simp only [removeOwner]
  split
  · rename_i isLocal
    rcases isSome_iff_exists.mp isLocal with ⟨transfer, found⟩
    split
    · rename_i same
      rw [same]
      exact sound.disjoint owner transfer found
    · rfl
  · exact lookup_erase _ _ _

theorem removeOwner_transferUiId (sound : state.Sound whole) (owner other : TransferOwner P) :
    (state.removeOwner owner).transferUiId other =
      if other = owner then none else state.transferUiId other := by
  simp only [transferUiId, removeOwner_local, removeOwner_remote sound]
  split <;> rfl

theorem removeOwner_adapterPair (sound : state.Sound whole) (owner other : TransferOwner P) :
    (state.removeOwner owner).adapterPair other =
      if other = owner then none else state.adapterPair other := by
  simp only [adapterPair, removeOwner_local, removeOwner_remote sound]
  split <;> rfl

theorem removeOwner_adapterToOwner (pair : AdapterId × String) :
    (state.removeOwner owner).adapterToOwner.lookup pair =
      (state.adapterToOwner.lookup pair).bind fun owners =>
        if (owners.erase owner).isEmpty then none else some (owners.erase owner) := by
  simp only [removeOwner, AList.lookup_filterMap]

theorem removeOwner_uiToOwner {uiId : UiTransferId} :
    (state.removeOwner owner).uiToOwner.lookup uiId =
      if state.transferUiId owner = some uiId then none else state.uiToOwner.lookup uiId := by
  simp only [removeOwner]
  cases known : state.transferUiId owner with
  | none => simp
  | some =>
    rw [lookup_erase]
    simp only [some_inj, eq_comm]

theorem IsRegistered.removeOwner {other : TransferOwner P} {pair : AdapterId × String}
    (registered : state.IsRegistered other pair) (different : other ≠ owner) :
    (state.removeOwner owner).IsRegistered other pair := by
  rcases registered with ⟨owners, there, member⟩
  have kept : other ∈ owners.erase owner := (mem_erase_of_ne different).mpr member
  refine ⟨owners.erase owner, ?_, kept⟩
  rw [removeOwner_adapterToOwner, there, bind_some, if_neg]
  simpa using ne_nil_of_mem kept

theorem Sound.removeOwner (sound : state.Sound whole) (owner : TransferOwner P) :
    (state.removeOwner owner).Sound whole where
  disjoint := by
    intro other transfer found
    rw [removeOwner_local] at found
    rw [removeOwner_remote sound]
    split
    · rfl
    · rename_i different
      rw [if_neg different] at found
      exact sound.disjoint other transfer found
  inverse := by
    intro uiId other
    rw [removeOwner_uiToOwner, removeOwner_transferUiId sound]
    have here := sound.inverse uiId other
    have own := sound.inverse uiId owner
    grind
  counting := sound.counting
  nonzero := by
    rw [removeOwner_uiToOwner, sound.nonzero, ite_self]
  registered := by
    intro pair _ found
    rw [removeOwner_adapterToOwner, bind_eq_some_iff] at found
    rcases found with ⟨earlier, there, kept⟩
    rcases sound.registered pair earlier there with ⟨_, nodup, carried⟩
    split at kept
    · cases kept
    · rename_i nonempty
      cases kept
      refine ⟨?_, nodup.erase owner, ?_⟩
      · simpa using nonempty
      · intro other member
        rw [nodup.mem_erase_iff] at member
        rw [removeOwner_adapterPair sound, if_neg member.1]
        exact carried other member.2
  listed := by
    intro all other pair carried
    rw [removeOwner_adapterPair sound] at carried
    split at carried
    · cases carried
    · rename_i different
      exact (sound.listed all other pair carried).removeOwner different
  awaited := by
    intro key range found
    simp only [TransferState.removeOwner, AList.lookup_retain, Option.filter_eq_some_iff,
      decide_eq_true_eq] at found
    rcases found with ⟨there, different⟩
    have awaited := sound.awaited key range there
    refine ⟨awaited.owner, awaited.fileId, awaited.requestId, ?_, awaited.consistent⟩
    rw [removeOwner_remote sound, if_neg different]
    exact awaited.covered
  reserved := by
    intro key reservation found
    simp only [TransferState.removeOwner, AList.lookup_retain, Option.filter_eq_some_iff,
      decide_eq_true_eq] at found
    rw [removeOwner_local, if_neg found.2]
    exact sound.reserved key reservation found.1
  streaming := by
    intro other transfer key file found streamed
    rw [removeOwner_local] at found
    split at found
    · cases found
    · rename_i different
      rcases sound.streaming other transfer key file found streamed with ⟨reservation, there⟩
      refine ⟨reservation, ?_⟩
      simp only [TransferState.removeOwner, AList.lookup_retain, there]
      simp [different]

end Removal

def Shrinks : TransferState P → TransferState P → Prop :=
  Relation.ReflTransGen fun state later => ∃ owner, later = state.removeOwner owner

theorem Shrinks.removeOwner (state : TransferState P) (owner : TransferOwner P) :
    state.Shrinks (state.removeOwner owner) :=
  .single ⟨owner, rfl⟩

theorem Shrinks.preserves {holds : TransferState P → Prop} (shrinks : state.Shrinks later)
    (keeps : ∀ earlier owner, holds earlier → holds (earlier.removeOwner owner))
    (before : holds state) : holds later := by
  apply StateMachine.invariant_of_steps _ shrinks before
  rintro earlier _ held ⟨owner, rfl⟩
  exact keeps earlier owner held

theorem Shrinks.sound (shrinks : state.Shrinks later) (sound : state.Sound whole) :
    later.Sound whole :=
  shrinks.preserves (fun _ owner before => before.removeOwner owner) sound

/-- One more owner is entered in the indices. -/
structure Extends (state later : TransferState P) (owner : TransferOwner P) (uiId : UiTransferId)
    (pair : AdapterId × String) : Prop where
  transferUiId : ∀ other, later.transferUiId other =
    if other = owner then some uiId else state.transferUiId other
  adapterPair : ∀ other, later.adapterPair other =
    if other = owner then some pair else state.adapterPair other
  uiToOwner : later.uiToOwner = state.uiToOwner.insert uiId owner
  adapterToOwner : later.adapterToOwner = state.adapterToOwner.insert pair
    (((state.adapterToOwner.lookup pair).getD []).insert owner)

namespace Extends

variable {owner : TransferOwner P} {uiId : UiTransferId} {pair : AdapterId × String}

variable (extension : state.Extends later owner uiId pair)
include extension

theorem inverse (sound : state.Sound whole) (absent : state.transferUiId owner = none)
    (free : uiId ∉ state.uiToOwner) (id : UiTransferId) (other : TransferOwner P) :
    later.uiToOwner.lookup id = some other ↔ later.transferUiId other = some id := by
  rw [extension.uiToOwner, extension.transferUiId, lookup_insert]
  have here := sound.inverse id other
  have unused := AList.lookup_eq_none.mpr free
  grind

theorem registered (sound : state.Sound whole) (absent : state.adapterPair owner = none)
    (other : AdapterId × String) (owners : List (TransferOwner P))
    (found : later.adapterToOwner.lookup other = some owners) :
    owners ≠ [] ∧ owners.Nodup ∧ ∀ owner ∈ owners, later.adapterPair owner = some other := by
  have keeps : ∀ pair owners, state.adapterToOwner.lookup pair = some owners →
      ∀ owner ∈ owners, later.adapterPair owner = some pair := by
    intro pair owners there member within
    have carried := (sound.registered pair owners there).2.2 member within
    rw [extension.adapterPair, if_neg]
    · exact carried
    · rintro rfl
      rw [absent] at carried
      cases carried
  rw [extension.adapterToOwner, lookup_insert] at found
  split at found
  · rename_i same
    subst same
    cases found
    refine ⟨ne_nil_of_mem mem_insert_self, ?_, ?_⟩
    · apply Nodup.insert
      cases there : state.adapterToOwner.lookup other with
      | none => exact nodup_nil
      | some earlier => exact (sound.registered other earlier there).2.1
    · intro member within
      rcases mem_insert_iff.mp within with rfl | older
      · rw [extension.adapterPair, if_pos rfl]
      · cases there : state.adapterToOwner.lookup other with
        | none => simp [there] at older
        | some earlier =>
          rw [there] at older
          exact keeps other earlier there member older
  · exact ⟨(sound.registered other owners found).1, (sound.registered other owners found).2.1,
      keeps other owners found⟩

theorem listed (sound : state.Sound whole) (all : whole) (other : TransferOwner P)
    (carried : AdapterId × String) (carries : later.adapterPair other = some carried) :
    later.IsRegistered other carried := by
  rw [extension.adapterPair] at carries
  rw [IsRegistered, extension.adapterToOwner, lookup_insert]
  split at carries
  · rename_i same
    cases carries
    rw [if_pos rfl, same]
    exact ⟨_, rfl, mem_insert_self⟩
  · rcases sound.listed all other carried carries with ⟨owners, there, member⟩
    split
    · rename_i same
      subst same
      refine ⟨_, rfl, ?_⟩
      rw [there]
      exact mem_insert_of_mem member
    · exact ⟨owners, there, member⟩

end Extends

section Adding

variable {owner : TransferOwner P}

theorem extends_addLocal {transfer : LocalTransfer} :
    state.Extends (state.addLocal owner transfer) owner transfer.uiId
      (transfer.adapterId, transfer.adapterTransferId) where
  transferUiId := by
    intro other
    simp only [transferUiId, addLocal, insertMapping, lookup_insert]
    split <;> simp
  adapterPair := by
    intro _
    simp only [adapterPair, addLocal, insertMapping, lookup_insert]
    split <;> simp
  uiToOwner := rfl
  adapterToOwner := rfl

variable {transfer : RemoteTransfer}

theorem extends_addRemote (absent : state.localTransfers.lookup owner = none) :
    state.Extends (state.addRemote owner transfer) owner transfer.uiId
      (transfer.adapterId, transfer.adapterTransferId) where
  transferUiId := by
    intro other
    simp only [transferUiId, addRemote, insertMapping, lookup_insert]
    split
    · rename_i same
      rw [same, absent]
      rfl
    · rfl
  adapterPair := by
    intro _
    simp only [adapterPair, addRemote, insertMapping, lookup_insert]
    split
    · rename_i same
      rw [same, absent]
      rfl
    · rfl
  uiToOwner := rfl
  adapterToOwner := rfl

theorem Sound.addLocal (sound : state.Sound whole) {transfer : LocalTransfer}
    (noLocal : state.localTransfers.lookup owner = none)
    (noRemote : state.remoteTransfers.lookup owner = none) (free : transfer.uiId ∉ state.uiToOwner)
    (positive : transfer.uiId ≠ 0) (idle : transfer.outgoing = ∅) :
    (state.addLocal owner transfer).Sound whole where
  disjoint := by
    intro other found there
    change (state.localTransfers.insert owner transfer).lookup other = some found at there
    rw [lookup_insert] at there
    split at there
    · rename_i same
      rw [same]
      exact noRemote
    · exact sound.disjoint other found there
  inverse := extends_addLocal.inverse sound (transferUiId_eq_none.mpr ⟨noLocal, noRemote⟩) free
  counting := sound.counting
  nonzero := (AList.lookup_insert_ne positive.symm).trans sound.nonzero
  registered := extends_addLocal.registered sound (adapterPair_eq_none.mpr ⟨noLocal, noRemote⟩)
  listed := fun all => extends_addLocal.listed sound all
  awaited := by
    intro key range found
    have awaited := sound.awaited key range found
    exact ⟨awaited.owner, awaited.fileId, awaited.requestId, awaited.covered, awaited.consistent⟩
  reserved := by
    intro key reservation found
    rcases sound.reserved key reservation found with ⟨earlier, there⟩
    change ∃ found, (state.localTransfers.insert owner transfer).lookup key.1 = some found
    rw [lookup_insert]
    split
    · exact ⟨transfer, rfl⟩
    · exact ⟨earlier, there⟩
  streaming := by
    intro other found key file there streamed
    change (state.localTransfers.insert owner transfer).lookup other = some found at there
    rw [lookup_insert] at there
    split at there
    · cases there
      simp [idle] at streamed
    · exact sound.streaming other found key file there streamed

theorem Sound.addRemote (sound : state.Sound whole)
    (noLocal : state.localTransfers.lookup owner = none)
    (noRemote : state.remoteTransfers.lookup owner = none)
    (free : transfer.uiId ∉ state.uiToOwner) (positive : transfer.uiId ≠ 0) :
    (state.addRemote owner transfer).Sound whole where
  disjoint := by
    intro other found there
    change (state.remoteTransfers.insert owner transfer).lookup other = none
    rw [lookup_insert, if_neg]
    · exact sound.disjoint other found there
    · rintro rfl
      change state.localTransfers.lookup other = some found at there
      rw [noLocal] at there
      cases there
  inverse := (extends_addRemote noLocal).inverse sound
    (transferUiId_eq_none.mpr ⟨noLocal, noRemote⟩) free
  counting := sound.counting
  nonzero := (AList.lookup_insert_ne positive.symm).trans sound.nonzero
  registered := (extends_addRemote noLocal).registered sound
    (adapterPair_eq_none.mpr ⟨noLocal, noRemote⟩)
  listed := fun all => (extends_addRemote noLocal).listed sound all
  awaited := by
    intro key range found
    have awaited := sound.awaited key range found
    refine ⟨awaited.owner, awaited.fileId, awaited.requestId, ?_, awaited.consistent⟩
    rcases awaited.covered with ⟨earlier, entry, there, rest⟩
    refine ⟨earlier, entry, ?_, rest⟩
    change (state.remoteTransfers.insert owner transfer).lookup key.1 = some earlier
    rw [lookup_insert, if_neg]
    · exact there
    · intro same
      rw [same, noRemote] at there
      cases there
  reserved := sound.reserved
  streaming := sound.streaming

end Adding

end TransferState

end Syntra.Clipboard
