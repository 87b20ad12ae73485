import Syntra.Clipboard.Operations
import Syntra.Files.Offer
import Syntra.Proto.Encoding

/-!
# Announced manifests and the encoder

Three checks stand between a directory tree and the wire: that of relative paths when the offer is
built, that of the manifest when it is announced, and those of the encoder. This module says which
announced manifests the encoder takes.
-/

namespace Syntra.Clipboard

open ByteFormat Proto Files Tables List

variable {P : Type}

theorem validatePath_iff_noColon {path : String} (plain : IsPlain path) (nonempty : utf8 path ≠ [])
    (short : (utf8 path).length ≤ maxClipboardPathSize) (relative : (utf8 path).head? ≠ some 0x2f)
    (safe : ∀ part ∈ (utf8 path).splitOn 0x2f, isUnsafePart part = false) :
    validatePath path = .ok () ↔ 0x3a ∉ utf8 path := by
  have unslashed : (utf8 path).getLast? ≠ some 0x2f := by
    intro slashed
    rcases getLast?_eq_some_iff.mp slashed with ⟨_, ends⟩
    have emptyPart : [] ∈ (utf8 path).splitOn 0x2f := by
      rw [ends]
      simp [splitOn, splitOnP_append_cons]
    simpa [isUnsafePart] using safe _ emptyPart
  have parts : ((utf8 path).splitOn 0x2f).any (fun part =>
      part.isEmpty || part = utf8 "." || part = utf8 "..") = false := by
    apply any_eq_false.mpr
    intro part member
    simpa [isUnsafePart] using safe part member
  rcases plain with ⟨_, _⟩
  simp only [validatePath, parts]
  simp [nonempty, relative, unslashed, Nat.not_lt.mpr short]
  grind

theorem manifestValid_iff_noColon {entries : List ClipboardManifestEntry} {ids : List UInt64}
    {paths : List String} {previous total : UInt64}
    (valid : (validateEntries entries ids paths total : Except (TransferStateError P) Unit) =
      .ok ()) (increasing : (previous :: entries.map (·.fileId)).Pairwise (· < ·))
    (plain : ∀ entry ∈ entries, IsPlain entry.path) :
    ManifestValid previous total entries ↔ ∀ entry ∈ entries, 0x3a ∉ utf8 entry.path := by
  induction entries generalizing ids paths previous total with
  | nil => simp [ManifestValid]
  | cons entry _ ih =>
    simp only [validateEntries, guard_bind_ok, bind_ok, okOr_eq_ok, not_or, not_and, not_not,
      gt_iff_lt, List.isEmpty_iff, Bool.not_eq_true, List.any_eq_false] at valid
    rcases valid with ⟨⟨_, -⟩, ⟨nonempty, short, -⟩, ⟨relative, safe⟩, _, valid⟩
    rcases (exists_encodedTotal_iff _).mp valid with ⟨_, valid⟩
    have path := validatePath_iff_noColon (plain entry (.head _)) nonempty
      (Nat.not_lt.mp short) relative safe
    have others := ih valid (List.pairwise_cons.mp increasing).2
      (fun other member => plain other (.tail _ member))
    simp only [ManifestValid, path, others, List.forall_mem_cons]
    grind

theorem length_manifestEntryBytes (entry : ClipboardManifestEntry) :
    (manifestEntryBytes entry).length = 19 + (utf8 entry.path).length := by
  simp [manifestEntryBytes, textBytes, u64Bytes, u16Bytes]
  omega

/-- The bytes that a manifest takes on the wire: tag, transfer id and count, and for each entry its
id, kind, size and path. -/
def manifestSize (entries : List ClipboardManifestEntry) : ℕ :=
  13 + (entries.map fun entry => 19 + (utf8 entry.path).length).sum

theorem length_manifest (tag : UInt8) (transferId : UInt64)
    (entries : List ClipboardManifestEntry) :
    (tag :: payload (.clipboardManifest transferId entries)).length = manifestSize entries := by
  have lengths : (entries.flatMap manifestEntryBytes).length =
      (entries.map fun entry => 19 + (utf8 entry.path).length).sum := by
    simp only [length_flatMap, length_manifestEntryBytes]
  simp only [payload, length_cons, length_append, lengths, manifestSize]
  simp [u64Bytes, u32Bytes]
  omega

/-- Every manifest that is sent fits its datagram. -/
def ManifestsEncode (actions : List (TransferAction P)) : Prop :=
  ∀ peer transferId entries, .peer peer (.clipboardManifest transferId entries) ∈ actions →
    ∃ image, encode (.clipboardManifest transferId entries) = .ok image

/-- No path has a colon, and the entries fit a datagram. -/
def FitsWire (offer : FileOffer) : Prop :=
  (∀ entry ∈ offer.entries, 0x3a ∉ utf8 entry.path) ∧ manifestSize offer.entries ≤ maxDatagramSize

theorem encodes_iff_fitsWire {offer : FileOffer} (orderly : offer.Orderly) (transferId : UInt64)
    (valid : (validateWireManifest offer.entries : Except (TransferStateError P) Unit) = .ok ()) :
    (∃ image, encode (.clipboardManifest transferId offer.entries) = .ok image) ↔
      FitsWire offer := by
  simp only [validateWireManifest, guard_bind_ok, not_or, List.isEmpty_iff,
    gt_iff_lt, not_lt] at valid
  rcases valid with ⟨⟨nonempty, few⟩, valid⟩
  have paths := manifestValid_iff_noColon valid orderly.increasing orderly.plain
  simp only [encode_eq_ok, Sendable, paths, FitsWire]
  constructor
  · rintro ⟨_, ⟨-, -, noColons⟩, rfl, small⟩
    rw [length_manifest] at small
    exact ⟨noColons, small⟩
  · rintro ⟨noColons, small⟩
    refine ⟨_, ⟨nonempty, few, noColons⟩, rfl, ?_⟩
    rw [length_manifest]
    exact small

variable [DecidableEq P]

namespace TransferState

theorem cancelOwner_noManifest (state : TransferState P) (owner : TransferOwner P)
    (reason : ClipboardCancelReason) (notifyPeer : Bool) (peer : P) (transferId : UInt64)
    (entries : List ClipboardManifestEntry) :
    .peer peer (.clipboardManifest transferId entries) ∉
      (state.cancelOwner owner none reason notifyPeer).result.toOption.getD [] := by
  simp only [cancelOwner, attempt]
  split
  · simp [Except.toOption]
  · simp only [Except.toOption, Option.getD_some, cancelActions, mem_append]
    rintro ((member | member) | member) <;> grind

theorem cancelOwners_noManifest (reason : ClipboardCancelReason) (notifyPeer : Bool)
    (owners : List (TransferOwner P)) (state : TransferState P) (peer : P) (transferId : UInt64)
    (entries : List ClipboardManifestEntry) :
    .peer peer (.clipboardManifest transferId entries) ∉
      (cancelOwners reason notifyPeer state owners).2 := by
  induction owners generalizing state with
  | nil => simp [cancelOwners]
  | cons owner _ ih =>
    simp only [cancelOwners, mem_append, not_or]
    exact ⟨cancelOwner_noManifest state owner reason notifyPeer peer transferId entries, ih _⟩

theorem localCopyManifest_ok {state : TransferState P} {order : IterOrder (TransferOwner P)}
    {peer : P} {wireId : UInt64} {adapterId : AdapterId} {manifest : CopyManifest}
    {offer : FileOffer} {actions : List (TransferAction P)}
    (accepted : (state.localCopyManifest order peer wireId adapterId manifest offer).result =
      .ok actions) :
    (validateWireManifest offer.entries : Except (TransferStateError P) Unit) = .ok () ∧
      actions = (cancelOwners .user true state (order.arrange (state.supersededLocal peer))).2 ++
        [.peer peer (.clipboardManifest wireId offer.entries)] := by
  simp only [localCopyManifest, replaceOffers] at accepted
  split at accepted
  · cases accepted
  · rename_i checked
    simp only [bind_ok, guard_bind_ok] at checked
    rcases checked with ⟨_, -, -, _, valid, -⟩
    refine ⟨valid, ?_⟩
    simp only [enterNumbered] at accepted
    split at accepted
    · cases accepted
    · simpa using accepted.symm

/-- An accepted offer is announced by a manifest that the encoder takes if and only if no path has
a colon and the manifest fits a datagram. -/
theorem announced_encodes_iff {files : FileSystem} {offer : FileOffer} (built : offer.Built files)
    (state : TransferState P) (order : IterOrder (TransferOwner P)) (peer : P) (wireId : UInt64)
    (adapterId : AdapterId) (manifest : CopyManifest) (actions : List (TransferAction P))
    (accepted : (state.localCopyManifest order peer wireId adapterId manifest offer).result =
      .ok actions) :
    .peer peer (.clipboardManifest wireId offer.entries) ∈ actions ∧
      (ManifestsEncode actions ↔ FitsWire offer) := by
  rcases localCopyManifest_ok accepted with ⟨valid, rfl⟩
  have encodes := encodes_iff_fitsWire built.orderly wireId valid
  refine ⟨by simp, ?_⟩
  rw [← encodes]
  constructor
  · intro all
    exact all peer wireId offer.entries (by simp)
  · intro taken otherPeer transferId entries member
    rcases List.mem_append.mp member with member | member
    · exact absurd member (cancelOwners_noManifest .user true _ state otherPeer transferId entries)
    · cases List.mem_singleton.mp member
      exact taken

/-- A file system in which a regular file of three bytes stands at every path. -/
def everywhereAbc : FileSystem where
  find _ := .node
    { len := 3, modified := some 0, dev := 1, ino := 1, isFile := true, isDir := false,
      isSymlink := false } .done
  display _ := ""

def abcOffer (text : String) : FileOffer :=
  (FileOffer.fromUriList everywhereAbc 7 text).toOption.getD ⟨0, [], ∅⟩

def announceAbc (text : String) : Except (TransferStateError ℕ) (List (TransferAction ℕ)) :=
  (new.localCopyManifest (.asStored _) 1 7 "adapter" ⟨"7", .copy⟩ (abcOffer text)).result

theorem eq_ok_of_isSome_toOption {ε α : Type} {result : Except ε α}
    (succeeds : result.toOption.isSome) : ∃ value, result = .ok value := by
  cases result with
  | error => cases succeeds
  | ok value => exact ⟨value, rfl⟩

theorem built_abcOffer {text : String}
    (succeeds : (FileOffer.fromUriList everywhereAbc 7 text).toOption.isSome) :
    (abcOffer text).Built everywhereAbc := by
  rcases eq_ok_of_isSome_toOption succeeds with ⟨offer, built⟩
  have same : abcOffer text = offer := by simp [abcOffer, built, Except.toOption]
  rw [same]
  exact .uriList built

theorem announced_encodes_iff_abc :
    ∃ actions, announceAbc "file:///tmp/abc.txt" = .ok actions ∧ ManifestsEncode actions := by
  have succeeds :
      (FileOffer.fromUriList everywhereAbc 7 "file:///tmp/abc.txt").toOption.isSome := by
    decide +kernel
  have announced : (announceAbc "file:///tmp/abc.txt").toOption.isSome := by decide +kernel
  rcases eq_ok_of_isSome_toOption announced with ⟨actions, accepted⟩
  refine ⟨actions, accepted, ?_⟩
  have fits : FitsWire (abcOffer "file:///tmp/abc.txt") := by
    refine ⟨?_, ?_⟩ <;> decide +kernel
  exact (announced_encodes_iff (built_abcOffer succeeds) new (.asStored _) 1 7 "adapter"
    ⟨"7", .copy⟩ actions accepted).2.mpr fits

/-- A file whose name has a colon is offered and announced, and the announcement is not sent. -/
theorem colon_announced_not_encoded :
    ∃ offer : FileOffer, offer.Built everywhereAbc ∧ ∃ actions,
      (new.localCopyManifest (.asStored (TransferOwner ℕ)) 1 7 "adapter" ⟨"7", .copy⟩
        offer).result = .ok actions ∧ ¬ManifestsEncode actions := by
  have succeeds : (FileOffer.fromUriList everywhereAbc 7 "file:///tmp/a:b").toOption.isSome := by
    decide +kernel
  have announced : (announceAbc "file:///tmp/a:b").toOption.isSome := by decide +kernel
  rcases eq_ok_of_isSome_toOption announced with ⟨actions, accepted⟩
  have built := built_abcOffer succeeds
  refine ⟨abcOffer "file:///tmp/a:b", built, actions, accepted, ?_⟩
  rcases localCopyManifest_ok accepted with ⟨valid, rfl⟩
  intro encodes
  have fits := (encodes_iff_fitsWire built.orderly 7 valid).mp (encodes 1 7 _ (by simp))
  have entries : (abcOffer "file:///tmp/a:b").entries = [⟨1, "a:b", .file, 3⟩] := by decide +kernel
  have colon : ∃ entry ∈ (abcOffer "file:///tmp/a:b").entries, 0x3a ∈ utf8 entry.path := by
    refine ⟨⟨1, "a:b", .file, 3⟩, ?_, by decide⟩
    simp [entries]
  rcases colon with ⟨entry, member, colon⟩
  exact fits.1 entry member colon

end TransferState

end Syntra.Clipboard
