import Syntra.Profiles.Reassembly
import Syntra.Proto.Encoding

/-!
# Encoding of profiles

A profile that passes its own check is encoded under every request but zero, and its start carries
a header that the other side accepts.
-/

namespace Syntra.Profiles

open ByteFormat Proto

/-- An image that may be published. -/
structure PeerAvatar.WellSized (avatar : PeerAvatar) : Prop where
  width_pos : 0 < avatar.width.toNat
  width_le : avatar.width.toNat ≤ 128
  height_pos : 0 < avatar.height.toNat
  height_le : avatar.height.toNat ≤ 128
  length : avatar.rgba.length = avatar.width.toNat * avatar.height.toNat * 4

theorem PeerAvatar.wellSized_of_validate {avatar : PeerAvatar}
    (accepted : avatar.validate = .ok ()) : avatar.WellSized := by
  simp only [validate, guard_bind_ok, guard_ok, bind_ok, okOr_eq_ok, not_or,
    Option.bind_eq_some_iff, checkedMul_eq_some, pure_ok, not_not, ne_eq] at accepted
  rcases accepted with ⟨⟨wide, high, narrow, low⟩, _, ⟨_, ⟨-, rfl⟩, -, rfl⟩, length, -⟩
  refine ⟨?_, Nat.not_lt.mp narrow, ?_, Nat.not_lt.mp low, length⟩
  · exact Nat.pos_of_ne_zero fun zero => wide (UInt32.toNat_inj.mp zero)
  · exact Nat.pos_of_ne_zero fun zero => high (UInt32.toNat_inj.mp zero)

/-- The profile keeps to the limits of the wire. -/
structure DeviceProfile.WellSized (profile : DeviceProfile) : Prop where
  name : (utf8 profile.displayName).length ≤ 128
  avatar : ∀ avatar, profile.avatar = some avatar → avatar.WellSized

variable {profile : DeviceProfile} {requestId : UInt64}

theorem DeviceProfile.wellSized_of_validate (accepted : profile.validate = .ok ()) :
    profile.WellSized := by
  simp only [validate, guard_bind_ok, not_lt, gt_iff_lt] at accepted
  refine ⟨accepted.1, ?_⟩
  intro _ shown
  rw [shown] at accepted
  exact PeerAvatar.wellSized_of_validate accepted.2

namespace PeerAvatar.WellSized

variable {avatar : PeerAvatar} (sized : avatar.WellSized)

include sized

theorem length_pos : 0 < avatar.rgba.length := by
  rw [sized.length]
  exact Nat.mul_pos (Nat.mul_pos sized.width_pos sized.height_pos) (by decide)

theorem length_le : avatar.rgba.length ≤ maxProfileSize := by
  rw [sized.length]
  exact Nat.mul_le_mul_right 4 (Nat.mul_le_mul sized.width_le sized.height_le)

theorem chunkCount_le : chunkCount maxProfileChunkSize avatar.rgba ≤ maxProfileSize := by
  have short := sized.length_le
  have long := sized.length_pos
  simp only [chunkCount, maxProfileChunkSize, safeDatagramSize, profileChunkHeaderSize]
  omega

theorem toNat_length : (UInt32.ofNat avatar.rgba.length).toNat = avatar.rgba.length :=
  UInt32.toNat_ofNat_of_lt' (sized.length_le.trans_lt (by decide))

theorem toNat_index {index : ℕ} (within : index ≤ chunkCount maxProfileChunkSize avatar.rgba) :
    (UInt32.ofNat index).toNat = index :=
  UInt32.toNat_ofNat_of_lt' ((within.trans sized.chunkCount_le).trans_lt (by decide))

end PeerAvatar.WellSized

def PeerAvatar.header (avatar : PeerAvatar) (displayName : String) : ProfileHeader where
  width := avatar.width
  height := avatar.height
  totalLen := UInt32.ofNat avatar.rgba.length
  chunks := UInt32.ofNat (chunkCount maxProfileChunkSize avatar.rgba)
  displayName := displayName

theorem PeerAvatar.WellSized.pictured {avatar : PeerAvatar} (sized : avatar.WellSized)
    (displayName : String) : (avatar.header displayName).Pictured where
  width_pos := sized.width_pos
  width_le := sized.width_le
  height_pos := sized.height_pos
  height_le := sized.height_le
  totalLen := sized.toNat_length.trans sized.length
  chunks := by
    change (UInt32.ofNat (chunkCount maxProfileChunkSize avatar.rgba)).toNat =
      divCeil (UInt32.ofNat avatar.rgba.length).toNat maxProfileChunkSize
    rw [sized.toNat_index le_rfl, sized.toNat_length]
    rfl

theorem ProfileHeader.Pictured.metadata {header : ProfileHeader} (pictured : header.Pictured)
    {nameLen : ℕ} (short : nameLen ≤ 128) :
    invalidProfileMetadata nameLen header.width header.height header.totalLen header.chunks =
      false := by
  have area : header.width.toNat * header.height.toNat ≤ 128 * 128 :=
    Nat.mul_le_mul pictured.width_le pictured.height_le
  have size : header.totalLen.toNat ≤ maxProfileSize := by
    rw [pictured.totalLen]
    exact Nat.mul_le_mul_right 4 area
  have pixels : (checkedMul header.width.toNat header.height.toNat).bind (checkedMul · 4) =
      some header.totalLen.toNat := by
    have bound : maxProfileSize ≤ usizeMax := by decide
    rw [Option.bind_eq_some_iff]
    refine ⟨_, checkedMul_eq_some.mpr ⟨?_, rfl⟩, checkedMul_eq_some.mpr ⟨?_, ?_⟩⟩
    · exact (Nat.le_mul_of_pos_right _ (by decide : 0 < 4)).trans
        (pictured.totalLen ▸ size.trans bound)
    · exact pictured.totalLen ▸ size.trans bound
    · exact pictured.totalLen.symm
  have wide : header.width ≠ 0 := fun zero => absurd pictured.width_pos (by rw [zero]; decide)
  have some : header.chunks ≠ 0 := fun zero => absurd pictured.chunks_pos (by rw [zero]; decide)
  have narrow : ¬128 < header.width := not_lt.mpr pictured.width_le
  have low : ¬128 < header.height := not_lt.mpr pictured.height_le
  unfold invalidProfileMetadata
  rw [pixels]
  simp [wide, some, narrow, low, short, size, maxProfileNameSize]

theorem sendable_startEvent (sized : profile.WellSized) (numbered : requestId ≠ 0) :
    Sendable (startEvent requestId profile) := by
  refine ⟨numbered, ?_⟩
  cases shown : profile.avatar with
  | none =>
    have short := sized.name
    simp [invalidProfileMetadata, checkedMul, maxProfileNameSize, maxProfileSize, divCeil,
      maxProfileChunkSize, safeDatagramSize, profileChunkHeaderSize, usizeMax, short]
  | some avatar =>
    exact ((sized.avatar avatar shown).pictured profile.displayName).metadata sized.name

theorem encodeProfile_of_validate (accepted : profile.validate = .ok ())
    (numbered : requestId ≠ 0) :
    encodeProfile requestId profile =
      .ok (startEvent requestId profile :: chunkEvents requestId profile) := by
  have sized := DeviceProfile.wellSized_of_validate accepted
  have encoded : encode (startEvent requestId profile) =
      .ok ((startEvent requestId profile).eventType.toByte ::
        payload (startEvent requestId profile)) := by
    refine encode_eq_ok.mpr ⟨sendable_startEvent sized numbered, rfl, ?_⟩
    have short := sized.name
    simp only [startEvent, payload, List.length_cons, List.length_append, u32Bytes, u64Bytes,
      length_toBeBytes, maxDatagramSize]
    omega
  rw [encodeProfile, accepted, encoded]

end Syntra.Profiles
