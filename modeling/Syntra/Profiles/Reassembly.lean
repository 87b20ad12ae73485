import Syntra.Profiles.Profile

/-!
# Partial profiles

What is accepted as the start of a profile and what the reassembler holds of it: the sizes are those
of an image and fit, there are eight partial profiles at most, and of each a chunk is missing.
-/

namespace Syntra.Profiles

open ByteFormat Proto Tables List Nat ProfileHeader

theorem avatarSize_of_le {width height : UInt32} (narrow : width.toNat ≤ 128)
    (low : height.toNat ≤ 128) :
    ∃ size, avatarSize width height = some size ∧ size.toNat = width.toNat * height.toNat * 4 := by
  have pixels : width.toNat * height.toNat ≤ 128 * 128 := Nat.mul_le_mul narrow low
  have first : width.toNat * height.toNat < UInt32.size := lt_of_le_of_lt pixels (by decide)
  have product : (width * height).toNat = width.toNat * height.toNat := by
    rw [UInt32.toNat_mul, mod_eq_of_lt first]
  have four : (4 : UInt32).toNat = 4 := rfl
  have second : (width * height).toNat * (4 : UInt32).toNat < UInt32.size := by
    have bound : (width * height).toNat * (4 : UInt32).toNat ≤ 128 * 128 * 4 := by
      rw [product, four]
      exact mul_le_mul_right 4 pixels
    exact lt_of_le_of_lt bound (by decide)
  refine ⟨width * height * 4, ?_, ?_⟩
  · rw [avatarSize, productU32, if_pos first, Option.bind_some, productU32, if_pos second]
  · rw [UInt32.toNat_mul, mod_eq_of_lt second, product, four]

/-- A header that announces an image: the sizes it names are those of the image. -/
structure ProfileHeader.Pictured (header : ProfileHeader) : Prop where
  width_pos : 0 < header.width.toNat
  width_le : header.width.toNat ≤ 128
  height_pos : 0 < header.height.toNat
  height_le : header.height.toNat ≤ 128
  totalLen : header.totalLen.toNat = header.width.toNat * header.height.toNat * 4
  chunks : header.chunks.toNat = divCeil header.totalLen.toNat maxProfileChunkSize

/-- The start announces no picture. -/
structure ProfileHeader.Bare (header : ProfileHeader) : Prop where
  width : header.width = 0
  height : header.height = 0
  totalLen : header.totalLen = 0
  chunks : header.chunks = 0

/-- The start has a request and a name within the limit. -/
def ProfileHeader.Named (requestId : UInt64) (header : ProfileHeader) : Prop :=
  requestId ≠ 0 ∧ (utf8 header.displayName).length ≤ 128

namespace ProfileHeader

variable {requestId : UInt64} {header : ProfileHeader}

theorem check_eq_true :
    header.check requestId = .ok true ↔ header.Named requestId ∧ header.Pictured := by
  constructor
  · intro checked
    unfold check at checked
    split at checked
    · cases checked
    rename_i named
    simp only [not_or, gt_iff_lt, not_lt] at named
    split at checked
    · split at checked <;> cases checked
    split at checked
    · cases checked
    rename_i sized
    rw [not_or] at sized
    split at checked
    · cases checked
    rename_i size found
    split at checked
    · cases checked
    rename_i counted
    simp only [not_or, not_not] at counted
    have narrow : header.width.toNat ≤ 128 := not_lt.mp named.2.2.1
    have low : header.height.toNat ≤ 128 := not_lt.mp named.2.2.2
    rcases avatarSize_of_le narrow low with ⟨_, same, value⟩
    cases found.symm.trans same
    refine ⟨⟨named.1, named.2.1⟩, ⟨?_, narrow, ?_, low, ?_, counted.2⟩⟩
    · exact pos_of_ne_zero fun zero => sized.1 (UInt32.toNat_inj.mp zero)
    · exact pos_of_ne_zero fun zero => sized.2 (UInt32.toNat_inj.mp zero)
    · rw [← counted.1, value]
  · rintro ⟨⟨numbered, _⟩, pictured⟩
    rcases pictured with ⟨widthPos, widthLe, heightPos, heightLe, totalLen, count⟩
    rcases avatarSize_of_le widthLe heightLe with ⟨size, found, value⟩
    have accepted : ¬(requestId = 0 ∨ (utf8 header.displayName).length > 128 ∨
        128 < header.width ∨ 128 < header.height) := by
      rintro (zero | long | wide | high)
      · exact numbered zero
      · omega
      · exact absurd widthLe (not_le.mpr wide)
      · exact absurd heightLe (not_le.mpr high)
    have wide : header.width ≠ 0 := by
      intro zero
      rw [zero] at widthPos
      cases widthPos
    have high : header.height ≠ 0 := by
      intro zero
      rw [zero] at heightPos
      cases heightPos
    have some : header.totalLen ≠ 0 := by
      intro zero
      have positive := mul_pos (mul_pos widthPos heightPos) (by decide : 0 < 4)
      rw [← totalLen, zero] at positive
      cases positive
    have same : size = header.totalLen := by
      apply UInt32.toNat_inj.mp
      rw [value, totalLen]
    unfold check
    rw [if_neg accepted, if_neg some, if_neg (by simp [wide, high]), found]
    simp [same, count]

theorem check_eq_false :
    header.check requestId = .ok false ↔ header.Named requestId ∧ header.Bare := by
  constructor
  · intro checked
    unfold check at checked
    split at checked
    · cases checked
    rename_i named
    simp only [not_or, gt_iff_lt, not_lt] at named
    split at checked
    · rename_i none
      split at checked
      · cases checked
      rename_i empty
      simp only [not_or, not_not] at empty
      exact ⟨⟨named.1, named.2.1⟩, ⟨empty.1, empty.2.1, none, empty.2.2⟩⟩
    · split at checked
      · cases checked
      split at checked
      · cases checked
      · split at checked <;> cases checked
  · rintro ⟨⟨numbered, short⟩, ⟨width, height, totalLen, count⟩⟩
    simp [check, width, height, totalLen, count, numbered, short]

theorem check_ne_overflow : header.check requestId ≠ .error .overflow := by
  intro overflows
  unfold check at overflows
  split at overflows
  · cases overflows
  rename_i named
  simp only [not_or, gt_iff_lt, not_lt] at named
  split at overflows
  · split at overflows <;> cases overflows
  split at overflows
  · cases overflows
  rcases avatarSize_of_le (not_lt.mp named.2.2.1) (not_lt.mp named.2.2.2) with ⟨size, found, -⟩
  rw [found] at overflows
  dsimp only at overflows
  split at overflows <;> cases overflows

end ProfileHeader

def Partial.header (pending : Partial) : ProfileHeader where
  width := pending.width
  height := pending.height
  totalLen := UInt32.ofNat (pending.width.toNat * pending.height.toNat * 4)
  chunks := UInt32.ofNat pending.chunks.length
  displayName := pending.name

/-- A partial profile was begun with an acceptable header, and a chunk of it is missing. -/
structure Partial.Sound (pending : Partial) : Prop where
  pictured : pending.header.Pictured
  length : pending.header.chunks.toNat = pending.chunks.length
  incomplete : none ∈ pending.chunks

/-- The partial profiles are within the limit, and each can be completed. -/
structure Reassembler.Bounded (reassembler : Reassembler) : Prop where
  few : reassembler.peers.keys.length ≤ maxPartials
  sound : ∀ fingerprint pending, reassembler.peers.lookup fingerprint = some pending → pending.Sound

variable {header : ProfileHeader} (pictured : header.Pictured)
include pictured

theorem ProfileHeader.Pictured.chunks_pos : 0 < header.chunks.toNat := by
  have positive : 0 < header.totalLen.toNat := by
    rw [pictured.totalLen]
    exact mul_pos (mul_pos pictured.width_pos pictured.height_pos) (by decide)
  rw [pictured.chunks, divCeil]
  apply Nat.div_pos
  · omega
  · decide

def ProfileHeader.begun (header : ProfileHeader) (requestId : UInt64) (touched : ℕ) : Partial where
  requestId := requestId
  width := header.width
  height := header.height
  chunks := List.replicate header.chunks.toNat none
  name := header.displayName
  touched := touched

theorem ProfileHeader.Pictured.header_begun (requestId : UInt64) (touched : ℕ) :
    (header.begun requestId touched).header = header := by
  cases header with
  | mk =>
    simp only [begun, Partial.header, length_replicate, UInt32.ofNat_toNat, mk.injEq,
      true_and, and_true]
    apply UInt32.toNat_inj.mp
    rw [← pictured.totalLen, UInt32.ofNat_toNat]

theorem ProfileHeader.Pictured.sound_begun (requestId : UInt64) (touched : ℕ) :
    (header.begun requestId touched).Sound where
  pictured := by rwa [pictured.header_begun]
  length := by rw [pictured.header_begun, begun, length_replicate]
  incomplete := mem_replicate.mpr ⟨pictured.chunks_pos.ne', rfl⟩

theorem ProfileHeader.Pictured.eq_header {pending : Partial} (sound : pending.Sound)
    (width : pending.width = header.width) (height : pending.height = header.height)
    (name : pending.name = header.displayName) : header = pending.header := by
  have sizes : header.totalLen = pending.header.totalLen := by
    apply UInt32.toNat_inj.mp
    rw [pictured.totalLen, sound.pictured.totalLen, ← width, ← height]
    rfl
  have counts : header.chunks = pending.header.chunks := by
    apply UInt32.toNat_inj.mp
    rw [pictured.chunks, sound.pictured.chunks, sizes]
  cases header with
  | mk =>
    rw [mk.injEq]
    exact ⟨width.symm, height.symm, sizes, counts, name.symm⟩

omit pictured

theorem length_keys_insert (table : Table String Partial) (fingerprint : String)
    (pending : Partial) :
    (table.insert fingerprint pending).keys.length =
      if fingerprint ∈ table then table.keys.length else table.keys.length + 1 := by
  rw [AList.keys_insert, length_cons]
  split
  · rename_i there
    have positive := length_pos_of_mem (AList.mem_keys.mp there)
    rw [length_erase_of_mem (AList.mem_keys.mp there)]
    omega
  · rename_i absent
    rw [erase_of_not_mem absent]

namespace Reassembler

variable {self : Reassembler} {fingerprint : String} {pending : Partial}

theorem bounded_new : Bounded new where
  few := zero_le _
  sound := by
    intro _ _ found
    cases found

theorem lookup_expire (now : ℕ) :
    (self.expire now).peers.lookup fingerprint =
      (self.peers.lookup fingerprint).filter fun pending => now - pending.touched < ttl :=
  AList.lookup_retain ..

theorem Bounded.expire (bounded : self.Bounded) (now : ℕ) : (self.expire now).Bounded where
  few := by
    have kept : (self.expire now).peers.entries.length ≤ self.peers.entries.length := by
      rw [Reassembler.expire, AList.entries_retain]
      exact length_filter_le ..
    have few := bounded.few
    simp only [AList.keys, keys, length_map] at few ⊢
    exact kept.trans few
  sound := by
    intro fingerprint pending found
    rw [lookup_expire, Option.filter_eq_some_iff] at found
    exact bounded.sound fingerprint pending found.1

theorem Bounded.removePeer (bounded : self.Bounded) (fingerprint : String) :
    (self.removePeer fingerprint).Bounded where
  few := by
    rw [Reassembler.removePeer, AList.keys_erase]
    exact length_erase_le.trans bounded.few
  sound := by
    intro other pending found
    rw [Reassembler.removePeer, lookup_erase] at found
    split at found
    · cases found
    · exact bounded.sound other pending found

theorem Bounded.insert (bounded : self.Bounded) (sound : pending.Sound)
    (room : fingerprint ∈ self.peers ∨ self.peers.keys.length < maxPartials) :
    (Reassembler.mk (self.peers.insert fingerprint pending)).Bounded where
  few := by
    rw [length_keys_insert]
    split
    · exact bounded.few
    · rename_i absent
      exact room.resolve_left absent
  sound := by
    intro other found there
    rw [lookup_insert] at there
    split at there
    · cases there
      exact sound
    · exact bounded.sound other found there

theorem start_cases (self : Reassembler) (now touched : ℕ) (fingerprint : String)
    (requestId : UInt64) (header : ProfileHeader) :
    let current := self.expire now
    let outcome := self.start now touched fingerprint requestId header
    (outcome.1 = current ∧ ∃ reason, outcome.2 = .error (.refused reason)) ∨
    (outcome = (current.removePeer fingerprint, .ok (some ⟨header.displayName, none⟩)) ∧
      header.Named requestId ∧ header.Bare) ∨
    (outcome = (current, .ok none) ∧ header.Pictured ∧
      ∃ old, current.peers.lookup fingerprint = some old ∧ old.requestId = requestId ∧
        old.width = header.width ∧ old.height = header.height ∧ old.name = header.displayName) ∨
    (outcome = (⟨current.peers.insert fingerprint (header.begun requestId touched)⟩, .ok none) ∧
      header.Named requestId ∧ header.Pictured ∧
      (∀ old, current.peers.lookup fingerprint = some old → old.requestId ≠ requestId) ∧
      (fingerprint ∈ current.peers ∨ current.peers.keys.length < maxPartials)) := by
  unfold start
  split
  · rename_i failure checked
    left
    refine ⟨rfl, ?_⟩
    cases failure with
    | refused reason => exact ⟨reason, rfl⟩
    | overflow => exact absurd checked check_ne_overflow
  · rename_i checked
    exact .inr (.inl ⟨rfl, check_eq_false.mp checked⟩)
  · rename_i checked
    have accepted := check_eq_true.mp checked
    unfold accept
    dsimp only
    split
    · rename_i old found
      split
      · rename_i same
        split
        · rename_i known
          exact .inr (.inr (.inl ⟨rfl, accepted.2, old, found, same, known⟩))
        · exact .inl ⟨rfl, _, rfl⟩
      · rename_i different
        refine .inr (.inr (.inr ⟨rfl, accepted.1, accepted.2, ?_, .inl ?_⟩))
        · intro other there
          cases found.symm.trans there
          exact different
        · exact (mem_iff_lookup _ _).mpr ⟨old, found⟩
    · rename_i absent
      split
      · exact .inl ⟨rfl, _, rfl⟩
      · rename_i room
        refine .inr (.inr (.inr ⟨rfl, accepted.1, accepted.2, ?_, .inr (not_le.mp room)⟩))
        intro _ there
        cases absent.symm.trans there

end Reassembler

namespace Partial

variable {pending : Partial} {requestId : UInt64} {index : UInt32} {data : Bytes}

theorem Sound.avatarSize_eq (sound : pending.Sound) :
    ∃ size, avatarSize pending.width pending.height = some size ∧
      size.toNat = pending.width.toNat * pending.height.toNat * 4 :=
  avatarSize_of_le sound.pictured.width_le sound.pictured.height_le

theorem place_cases (sound : pending.Sound) (requestId : UInt64) (index : UInt32) (data : Bytes) :
    (∃ reason, pending.place requestId index data = .error (.refused reason)) ∨
    (pending.requestId = requestId ∧ pending.chunks[index.toNat]? = some (some data) ∧
      pending.place requestId index data = .ok none) ∨
    (pending.requestId = requestId ∧ pending.chunks[index.toNat]? = some none ∧
      pending.place requestId index data =
        .ok (some (pending.chunks.set index.toNat (some data)))) := by
  rcases sound.avatarSize_eq with ⟨_, found, -⟩
  unfold place
  rw [found]
  split
  · exact .inl ⟨_, rfl⟩
  rename_i same
  dsimp only
  split
  · exact .inl ⟨_, rfl⟩
  split
  · exact .inl ⟨_, rfl⟩
  split
  · exact .inl ⟨_, rfl⟩
  · rename_i existing held
    split
    · rename_i equal
      subst equal
      exact .inr (.inl ⟨not_not.mp same, held, rfl⟩)
    · exact .inl ⟨_, rfl⟩
  · rename_i empty
    exact .inr (.inr ⟨not_not.mp same, empty, rfl⟩)

theorem Sound.set (sound : pending.Sound) {slots : List (Option Bytes)}
    (length : slots.length = pending.chunks.length) (incomplete : none ∈ slots) :
    Sound { pending with chunks := slots } := by
  have same : Partial.header { pending with chunks := slots } = pending.header := by
    simp only [Partial.header, length]
  refine ⟨?_, ?_, incomplete⟩
  · rw [same]
    exact sound.pictured
  · rw [same, sound.length, length]

end Partial

namespace Reassembler

variable {self : Reassembler}

theorem chunk_cases (bounded : self.Bounded) (now : ℕ) (fingerprint : String) (requestId : UInt64)
    (index : UInt32) (data : Bytes) :
    let current := self.expire now
    let outcome := self.chunk now fingerprint requestId index data
    (outcome.1 = current ∧ ∃ reason, outcome.2 = .error (.refused reason)) ∨
    ∃ pending, current.peers.lookup fingerprint = some pending ∧ pending.requestId = requestId ∧
      ((outcome = (current, .ok none) ∧ pending.chunks[index.toNat]? = some (some data)) ∨
      ∃ filled : Partial, pending.chunks[index.toNat]? = some none ∧
        filled = { pending with chunks := pending.chunks.set index.toNat (some data) } ∧
        ((outcome = (⟨current.peers.insert fingerprint filled⟩, .ok none) ∧ filled.Sound) ∨
        (outcome = (current.removePeer fingerprint, .ok (some filled.profile)) ∧
          ∀ slot ∈ filled.chunks, slot.isSome))) := by
  unfold chunk
  dsimp only
  split
  · exact .inl ⟨rfl, _, rfl⟩
  · rename_i pending found
    have sound := (bounded.expire now).sound fingerprint pending found
    rcases Partial.place_cases sound requestId index data with
      ⟨reason, refused⟩ | ⟨same, held, known⟩ | ⟨same, empty, put⟩
    · rw [refused]
      exact .inl ⟨rfl, reason, rfl⟩
    · rw [known]
      exact .inr ⟨pending, found, same, .inl ⟨rfl, held⟩⟩
    · rw [put]
      refine .inr ⟨pending, found, same, .inr ⟨_, empty, rfl, ?_⟩⟩
      dsimp only
      split
      · rename_i more
        rcases any_eq_true.mp more with ⟨slot, member, missing⟩
        rw [Option.isNone_iff_eq_none] at missing
        exact .inl ⟨rfl, sound.set length_set (missing ▸ member)⟩
      · rename_i full
        refine .inr ⟨rfl, ?_⟩
        intro slot member
        by_contra missing
        exact full (any_eq_true.mpr ⟨slot, member, by simpa using missing⟩)

theorem Bounded.start (bounded : self.Bounded) (now touched : ℕ) (fingerprint : String)
    (requestId : UInt64) (header : ProfileHeader) :
    (self.start now touched fingerprint requestId header).1.Bounded := by
  rcases self.start_cases now touched fingerprint requestId header with
    ⟨same, -⟩ | ⟨same, -⟩ | ⟨same, -⟩ | ⟨same, -, pictured, -, room⟩
  · rw [same]
    exact bounded.expire now
  · rw [same]
    exact (bounded.expire now).removePeer fingerprint
  · rw [same]
    exact bounded.expire now
  · rw [same]
    exact (bounded.expire now).insert (pictured.sound_begun requestId touched) room

theorem Bounded.chunk (bounded : self.Bounded) (now : ℕ) (fingerprint : String)
    (requestId : UInt64) (index : UInt32) (data : Bytes) :
    (self.chunk now fingerprint requestId index data).1.Bounded := by
  rcases chunk_cases bounded now fingerprint requestId index data with
    ⟨same, -⟩ | ⟨pending, found, -, ⟨same, -⟩ | ⟨filled, -, -, ⟨same, sound⟩ | ⟨same, -⟩⟩⟩
  · rw [same]
    exact bounded.expire now
  · rw [same]
    exact bounded.expire now
  · rw [same]
    exact (bounded.expire now).insert sound (.inl ((mem_iff_lookup _ _).mpr ⟨pending, found⟩))
  · rw [same]
    exact (bounded.expire now).removePeer fingerprint

end Reassembler

end Syntra.Profiles
