import Syntra.Files.Effects
import Syntra.Proto.Decoding

/-!
# Where received manifests point

What every manifest that a datagram can carry promises: increasing ids, sizes within the limit of a
transfer, and paths whose parts are plain names. Joined to a directory part by part, a path leads to
a place strictly below it, wherever the directory is.
-/

namespace Syntra.Proto

variable {entries : List ClipboardManifestEntry}

variable {previous total : UInt64} (valid : ManifestValid previous total entries)
include valid

theorem ManifestValid.increasing : (previous :: entries.map (·.fileId)).Pairwise (· < ·) := by
  rw [← List.isChain_iff_pairwise]
  induction entries generalizing previous total with
  | nil => simp
  | cons _ _ ih =>
    rcases valid with ⟨_, _, larger, _, _, others⟩
    exact List.isChain_cons_cons.mpr ⟨larger, ih others⟩

theorem ManifestValid.entry :
    ∀ entry ∈ entries, validatePath entry.path = .ok () ∧ entry.fileId ≠ 0 ∧
      (entry.kind = .directory → entry.size = 0) := by
  induction entries generalizing previous total with
  | nil => exact fun _ member => nomatch member
  | cons _ _ ih =>
    rcases valid with ⟨path, nonzero, _, _, directory, others⟩
    exact List.forall_mem_cons.mpr ⟨⟨path, nonzero, directory⟩, ih others⟩

theorem ManifestValid.sizes (small : total.toNat ≤ maxClipboardSize) :
    total.toNat + (entries.map (·.size.toNat)).sum ≤ maxClipboardSize ∧
      (entries.foldl (fun total entry => total + entry.size) total).toNat =
        total.toNat + (entries.map (·.size.toNat)).sum := by
  induction entries generalizing previous total with
  | nil => simpa using small
  | cons entry _ ih =>
    rcases valid with ⟨_, _, _, fits, _, others⟩
    have added : (total + entry.size).toNat = total.toNat + entry.size.toNat :=
      toNat_add_of_le (fits.trans (by decide))
    have rest := ih others (added ▸ fits)
    rw [added] at rest
    simpa only [List.map_cons, List.sum_cons, List.foldl_cons, Nat.add_assoc] using rest

end Syntra.Proto

namespace Syntra.Files

open ByteFormat Proto

namespace PathBuf

/-- The names from the root of the file system to where a path leads from a current directory, when
no name on the way is a link. -/
def place (current : List Bytes) (path : PathBuf) : List Bytes :=
  path.components.foldl
    (fun place component =>
      match component with
      | .curDir => place
      | .parentDir => place.dropLast
      | .normal name => place ++ [name])
    (if path.absolute then [] else current)

def joinParts (root : PathBuf) (parts : List Bytes) : PathBuf :=
  parts.foldl (fun path part => path.join (ofBytes part)) root

theorem joinParts_of_names (root : PathBuf) {parts : List Bytes}
    (names : ∀ part ∈ parts, IsName part) :
    root.joinParts parts = ⟨root.absolute, root.components ++ parts.map .normal⟩ := by
  induction parts generalizing root with
  | nil => simp [joinParts]
  | cons part _ ih =>
    have first : root.join (PathBuf.ofBytes part) =
        ⟨root.absolute, root.components ++ [.normal part]⟩ := by
      rw [(names part List.mem_cons_self).ofBytes, join_normal]
    have rest := ih ⟨root.absolute, root.components ++ [.normal part]⟩
      fun other member => names other (.tail _ member)
    rw [joinParts, List.foldl_cons, first]
    simpa [joinParts] using rest

theorem place_of_names (current : List Bytes) (root : PathBuf) (names : List Bytes) :
    place current ⟨root.absolute, root.components ++ names.map .normal⟩ =
      place current root ++ names := by
  unfold place
  rw [List.foldl_append]
  generalize root.components.foldl _ _ = reached
  induction names generalizing reached with
  | nil => simp
  | cons _ _ ih => simp [ih]

end PathBuf

theorem of_mem_splitOn {separator byte : UInt8} {text part : Bytes}
    (split : part ∈ text.splitOn separator) (member : byte ∈ part) :
    byte ∈ text ∧ byte ≠ separator := by
  rw [List.splitOn_eq_splitOnP] at split
  induction text generalizing part with
  | nil =>
    obtain rfl : part = [] := by simpa using split
    cases member
  | cons _ text ih =>
    rw [List.splitOnP_cons_eq_if_modifyHead] at split
    split at split
    · rcases List.mem_cons.mp split with rfl | later
      · cases member
      · exact ⟨.tail _ (ih later member).1, (ih later member).2⟩
    · rename_i other
      rcases parts : text.splitOnP (· == separator) with _ | ⟨head, tail⟩
      · exact absurd parts (List.splitOnP_ne_nil _ _)
      · rw [parts] at split ih
        rcases List.mem_cons.mp split with rfl | later
        · rcases List.mem_cons.mp member with rfl | rest
          · exact ⟨.head _, by simpa using other⟩
          · have found := ih (.head _) rest
            exact ⟨.tail _ found.1, found.2⟩
        · have found := ih (.tail _ later) member
          exact ⟨.tail _ found.1, found.2⟩

theorem parts_of_validatePath {path : String} (valid : validatePath path = .ok ()) :
    ∀ part ∈ (utf8 path).splitOn 0x2f,
      PathBuf.IsName part ∧ 0x5c ∉ part ∧ 0x3a ∉ part ∧ 0 ∉ part := by
  intro part split
  unfold validatePath at valid
  dsimp only at valid
  split_ifs at valid with tooLong hostile unsafe_
  simp only [Bool.or_eq_true, not_or, List.any_eq_true, decide_eq_true_eq, List.isEmpty_iff,
    not_exists, not_and] at hostile unsafe_
  have safe := unsafe_ part split
  have absent : ∀ byte, byte = 0x5c ∨ byte = 0x3a ∨ byte = 0 → byte ∉ part := by
    intro _ _ member
    have there := (of_mem_splitOn split member).1
    grind
  refine ⟨⟨safe.1.1, safe.1.2, safe.2, fun member => (of_mem_splitOn split member).2 rfl⟩,
    absent _ (.inl rfl), absent _ (.inr (.inl rfl)), absent _ (.inr (.inr rfl))⟩

/-- However it is spelled on the wire, a manifest that is decoded lists plain places below any
directory, by increasing ids, and no more bytes than one transfer may have. -/
theorem decoded_manifest_safe {input : Bytes} {transferId : UInt64}
    {entries : List ClipboardManifestEntry}
    (decoded : decode input = .ok (.clipboardManifest transferId entries)) :
    (∀ entry ∈ entries, entry.fileId ≠ 0) ∧
    (entries.map (·.fileId)).Pairwise (· < ·) ∧
    (∀ entry ∈ entries, entry.kind = .directory → entry.size = 0) ∧
    (entries.map fun entry => entry.size.toNat).sum ≤ maxClipboardSize ∧
    (entries.foldl (fun (total : UInt64) entry => total + entry.size) 0).toNat =
      (entries.map fun entry => entry.size.toNat).sum ∧
    ∀ entry ∈ entries,
      let parts := (utf8 entry.path).splitOn 0x2f
      (∀ part ∈ parts, part ≠ [] ∧ part ≠ utf8 "." ∧ part ≠ utf8 ".." ∧ 0x2f ∉ part ∧
        0x5c ∉ part ∧ 0x3a ∉ part ∧ 0 ∉ part) ∧
      parts ≠ [] ∧
      ∀ root : PathBuf,
        root.joinParts parts = ⟨root.absolute, root.components ++ parts.map .normal⟩ ∧
        ∀ current, (root.joinParts parts).place current = root.place current ++ parts := by
  rcases decode_eq_ok.mp decoded with ⟨_, ⟨⟨_, _, valid⟩, _⟩, _⟩
  have sizes := valid.sizes (by decide)
  simp only [UInt64.toNat_zero, zero_add] at sizes
  refine ⟨fun entry member => (valid.entry entry member).2.1, valid.increasing.of_cons,
    fun entry member => (valid.entry entry member).2.2, sizes.1, sizes.2, ?_⟩
  intro entry member parts
  have checked := parts_of_validatePath (valid.entry entry member).1
  refine ⟨fun part split => ?_, List.splitOnP_ne_nil _ _, fun root => ?_⟩
  · rcases checked part split with ⟨name, backslash, colon, nul⟩
    exact ⟨name.nonempty, name.notDot, name.notDots, name.unslashed, backslash, colon, nul⟩
  · have joined := root.joinParts_of_names fun part split => (checked part split).1
    refine ⟨joined, fun current => ?_⟩
    rw [joined]
    exact PathBuf.place_of_names current root parts

/-- The place of a file two levels down, seen from a directory that itself leads upwards. -/
theorem decoded_manifest_safe_nested :
    (PathBuf.joinParts ⟨false, [.parentDir, .normal (utf8 "in")]⟩
      ((utf8 "a/b").splitOn 0x2f)).place [utf8 "home", utf8 "me"] =
        [utf8 "home", utf8 "in", utf8 "a", utf8 "b"] := by
  have decoded : decode
      (EventType.toByte .clipboardManifest ::
        payload (.clipboardManifest 7 [⟨1, "a", .directory, 0⟩, ⟨2, "a/b", .file, 5⟩])) =
      .ok (.clipboardManifest 7 [⟨1, "a", .directory, 0⟩, ⟨2, "a/b", .file, 5⟩]) := by
    decide +kernel
  have safe := (decoded_manifest_safe decoded).2.2.2.2.2 ⟨2, "a/b", .file, 5⟩ (by simp)
  rw [(safe.2.2 _).2]
  decide +kernel

end Syntra.Files
