import Syntra.Profiles.Encoding
import Syntra.StateMachine.Answers

/-!
# Transport of profiles

The calls that the reassembler answers, in any order. What contradicts a partial profile is refused
and leaves it as it is, unless it is a start that announces no image. A profile whose start has been
accepted is given back once, as soon as its chunks are there, however they are ordered and repeated
and whatever other peers send meanwhile.
-/

namespace Syntra.Profiles

open ByteFormat StateMachine Proto Tables Reassembler AList UInt32 List
open Reassembler (accept bounded_new lookup_expire new)

/-- What is asked of a reassembler, with the times where the clock is read. -/
inductive Call
  | start (now touched : ℕ) (fingerprint : String) (requestId : UInt64) (header : ProfileHeader)
  | chunk (now : ℕ) (fingerprint : String) (requestId : UInt64) (index : UInt32) (data : Bytes)
  | expire (now : ℕ)
  | removePeer (fingerprint : String)
  deriving DecidableEq

namespace Call

/-- The peer whose partial profile a call may change. -/
def peer? : Call → Option String
  | .start _ _ fingerprint _ _ => some fingerprint
  | .chunk _ fingerprint _ _ _ => some fingerprint
  | .expire _ => none
  | .removePeer fingerprint => some fingerprint

/-- The call comes before a profile that was begun at a time is too old. -/
def inTime (touched : ℕ) : Call → Bool
  | .start now _ _ _ _ => now - touched < ttl
  | .chunk now _ _ _ _ => now - touched < ttl
  | .expire now => now - touched < ttl
  | .removePeer _ => true

end Call

namespace Reassembler

variable (self : Reassembler)

def answer : Call → Reassembler × Except Failure (Option DeviceProfile)
  | .start now touched fingerprint requestId header =>
    self.start now touched fingerprint requestId header
  | .chunk now fingerprint requestId index data => self.chunk now fingerprint requestId index data
  | .expire now => (self.expire now, .ok none)
  | .removePeer fingerprint => (self.removePeer fingerprint, .ok none)

def before : Call → Reassembler
  | .start now _ _ _ _ => self.expire now
  | .chunk now _ _ _ _ => self.expire now
  | .expire now => self.expire now
  | .removePeer _ => self

end Reassembler

namespace Reassembler

theorem Bounded.answer {self : Reassembler} (bounded : self.Bounded) (call : Call) :
    (self.answer call).1.Bounded := by
  cases call with
  | start now touched fingerprint requestId header =>
    exact bounded.start now touched fingerprint requestId header
  | chunk now fingerprint requestId index data =>
    exact bounded.chunk now fingerprint requestId index data
  | expire now => exact bounded.expire now
  | removePeer fingerprint => exact bounded.removePeer fingerprint

theorem answer_ne_overflow {self : Reassembler} (bounded : self.Bounded) (call : Call) :
    (self.answer call).2 ≠ .error .overflow := by
  intro overflows
  cases call with
  | start now touched fingerprint requestId header =>
    change (self.start now touched fingerprint requestId header).2 = _ at overflows
    rcases self.start_cases now touched fingerprint requestId header with
      ⟨-, reason, refused⟩ | ⟨same, -⟩ | ⟨same, -⟩ | ⟨same, -⟩
    · rw [refused] at overflows
      cases overflows
    all_goals
      rw [same] at overflows
      cases overflows
  | chunk now fingerprint requestId index data =>
    change (self.chunk now fingerprint requestId index data).2 = _ at overflows
    rcases chunk_cases bounded now fingerprint requestId index data with
      ⟨-, reason, refused⟩ | ⟨_, -, -, ⟨same, -⟩ | ⟨_, -, -, ⟨same, -⟩ | ⟨same, -⟩⟩⟩
    · rw [refused] at overflows
      cases overflows
    all_goals
      rw [same] at overflows
      cases overflows
  | expire | removePeer => cases overflows

/-- The call contradicts what is held of the profile. -/
def Conflicts (self : Reassembler) : Call → Prop
  | .start now _ fingerprint requestId header =>
    ∃ pending, (self.expire now).peers.lookup fingerprint = some pending ∧
      pending.requestId = requestId ∧ header ≠ pending.header
  | .chunk now fingerprint requestId index data =>
    ∃ pending, (self.expire now).peers.lookup fingerprint = some pending ∧
      pending.requestId = requestId ∧
      ∃ held, pending.chunks[index.toNat]? = some (some held) ∧ data ≠ held
  | .expire _ => False
  | .removePeer _ => False

/-- The call is refused and changes nothing. -/
def Refuses (self : Reassembler) (call : Call) : Prop :=
  (∃ reason, (self.answer call).2 = .error (.refused reason)) ∧
    (self.answer call).1 = self.before call

end Reassembler

/-- An acceptable start of a profile without an image. -/
def Call.AnnouncesNothing : Call → Prop
  | .start _ _ _ requestId header => header.Named requestId ∧ header.Bare
  | _ => False

namespace Reassembler

/-- What contradicts a partial profile is refused and leaves it as it is, unless it announces that
there is no image. -/
theorem refuses_iff {self : Reassembler} (bounded : self.Bounded) {call : Call}
    (conflicts : self.Conflicts call) : self.Refuses call ↔ ¬call.AnnouncesNothing := by
  cases call with
  | start now touched fingerprint requestId header =>
    rcases conflicts with ⟨pending, found, same, different⟩
    constructor
    · rintro ⟨⟨_, refused⟩, -⟩ ⟨named, bare⟩
      have accepted := ProfileHeader.check_eq_false.mpr ⟨named, bare⟩
      change (self.start now touched fingerprint requestId header).2 = _ at refused
      simp only [start, accepted] at refused
      cases refused
    · intro pictured
      rcases self.start_cases now touched fingerprint requestId header with
        ⟨kept, refused⟩ | ⟨-, bare⟩ | ⟨-, shown, old, there, -, width, height, name⟩ |
        ⟨-, -, -, fresh, -⟩
      · exact ⟨refused, kept⟩
      · exact absurd bare pictured
      · cases found.symm.trans there
        exact absurd (shown.eq_header ((bounded.expire now).sound fingerprint pending found)
          width height name) different
      · exact absurd same (fresh pending found)
  | chunk now fingerprint requestId index data =>
    refine ⟨fun _ => not_false, fun _ => ?_⟩
    rcases conflicts with ⟨_, found, -, _, there, different⟩
    rcases chunk_cases bounded now fingerprint requestId index data with
      ⟨kept, refused⟩ | ⟨other, known, -, ⟨-, equal⟩ | ⟨_, empty, -⟩⟩
    · exact ⟨refused, kept⟩
    · cases found.symm.trans known
      cases there.symm.trans equal
      exact absurd rfl different
    · cases found.symm.trans known
      cases there.symm.trans empty
  | expire | removePeer => exact conflicts.elim

end Reassembler

def callOf (now touched : ℕ) (fingerprint : String) : ProtoEvent → Option Call
  | .profileStart requestId width height totalLen chunks displayName =>
    some (.start now touched fingerprint requestId ⟨width, height, totalLen, chunks, displayName⟩)
  | .profileChunk requestId index data => some (.chunk now fingerprint requestId index data)
  | _ => none

/-- A call brings an event of a peer, at whatever time. -/
def Feeds (fingerprint : String) (event : ProtoEvent) (call : Call) : Prop :=
  ∃ now touched, callOf now touched fingerprint event = some call

def givenTo (fingerprint : String) (log : List (Call × Except Failure (Option DeviceProfile))) :
    List DeviceProfile :=
  log.filterMap fun entry =>
    if entry.1.peer? = some fingerprint then entry.2.toOption.join else none

def Brings (fingerprint : String) (requestId : UInt64) (avatar : PeerAvatar) (index : ℕ)
    (call : Call) : Prop :=
  ∃ now, call = .chunk now fingerprint requestId (UInt32.ofNat index)
    (chunkAt maxProfileChunkSize avatar.rgba index)

/-- What has come in is part of this profile. -/
structure Partial.PartOf (pending : Partial) (requestId : UInt64) (displayName : String)
    (avatar : PeerAvatar) (touched : ℕ) : Prop where
  requestId : pending.requestId = requestId
  width : pending.width = avatar.width
  height : pending.height = avatar.height
  name : pending.name = displayName
  touched : pending.touched = touched
  holds : Holds maxProfileChunkSize avatar.rgba pending.chunks

section Pending

variable {self : Reassembler} {fingerprint displayName : String} {pending : Partial}
  {requestId : UInt64} {avatar : PeerAvatar} {touched : ℕ}

theorem maxProfileChunkSize_pos : 0 < maxProfileChunkSize := by decide

theorem Partial.PartOf.place (part : pending.PartOf requestId displayName avatar touched)
    (sized : avatar.WellSized) {index : ℕ}
    (within : index < chunkCount maxProfileChunkSize avatar.rgba) (failure : Failure) :
    pending.place requestId (ofNat index) (chunkAt maxProfileChunkSize avatar.rgba index) ≠
      .error failure := by
  have position := sized.toNat_index within.le
  have below := (lt_chunkCount maxProfileChunkSize_pos).mp within
  have offset : checkedMul index maxProfileChunkSize = some (index * maxProfileChunkSize) :=
    checkedMul_eq_some.mpr ⟨below.le.trans (sized.length_le.trans (by decide)), rfl⟩
  have bounded : index < pending.chunks.length := by rwa [part.holds.length]
  rcases avatarSize_of_le sized.width_le sized.height_le with ⟨size, found, value⟩
  rw [← sized.length] at value
  have fits : ¬(size.toNat ≤ index * maxProfileChunkSize ∨
      (chunkAt maxProfileChunkSize avatar.rgba index).length ≠
        min maxProfileChunkSize (size.toNat - index * maxProfileChunkSize)) := by
    rw [value, length_chunkAt_eq_min]
    simpa using below
  unfold Partial.place
  rw [if_neg (not_not.mpr part.requestId), part.width, part.height, found, position]
  rw [offset]
  dsimp only
  rw [if_neg fits, getElem?_eq_getElem bounded]
  cases slot : pending.chunks[index] with
  | none =>
    intro refused
    cases refused
  | some existing =>
    have same := part.holds.chunks index existing (by rw [getElem?_eq_getElem bounded, slot])
    dsimp only
    rw [if_pos same]
    intro refused
    cases refused

theorem chunk_own (bounded : self.Bounded) {now : ℕ}
    (found : (self.expire now).peers.lookup fingerprint = some pending)
    (part : pending.PartOf requestId displayName avatar touched) (sized : avatar.WellSized)
    {index : ℕ} (within : index < chunkCount maxProfileChunkSize avatar.rgba) :
    let outcome := self.chunk now fingerprint requestId (ofNat index)
      (chunkAt maxProfileChunkSize avatar.rgba index)
    (outcome.2 = .ok none ∧ ∃ kept, outcome.1.peers.lookup fingerprint = some kept ∧
      kept.PartOf requestId displayName avatar touched ∧
      ∀ slot, kept.chunks[slot]? = some none ↔ pending.chunks[slot]? = some none ∧ slot ≠ index) ∨
    (outcome.2 = .ok (some ⟨displayName, some avatar⟩) ∧
      outcome.1.peers.lookup fingerprint = none ∧
      ∀ slot, pending.chunks[slot]? = some none → slot = index) := by
  have position := sized.toNat_index within.le
  have known := chunk_cases bounded now fingerprint requestId (ofNat index)
    (chunkAt maxProfileChunkSize avatar.rgba index)
  rw [position] at known
  rcases known with ⟨-, _, refused⟩ |
    ⟨other, there, -, ⟨same, held⟩ | ⟨filled, empty, filled_eq, ⟨same, -⟩ | ⟨same, full⟩⟩⟩
  · exfalso
    unfold chunk at refused
    simp only [found] at refused
    cases placed : pending.place requestId (ofNat index)
        (chunkAt maxProfileChunkSize avatar.rgba index) with
    | error failure => exact part.place sized within failure placed
    | ok slots =>
      rw [placed] at refused
      cases slots with
      | none => cases refused
      | some =>
        dsimp only at refused
        split at refused <;> cases refused
  · cases found.symm.trans there
    left
    rw [same]
    refine ⟨rfl, pending, found, part, ?_⟩
    intro slot
    refine ⟨fun empty => ⟨empty, ?_⟩, And.left⟩
    rintro rfl
    cases held.symm.trans empty
  · cases found.symm.trans there
    left
    rw [same]
    subst filled_eq
    refine ⟨rfl, _, lookup_insert _, ?_, fun slot => getElem?_set_eq_none⟩
    exact ⟨part.requestId, part.width, part.height, part.name, part.touched, part.holds.set rfl⟩
  · cases found.symm.trans there
    right
    rw [same]
    subst filled_eq
    have whole := (part.holds.set rfl).flatMap_eq maxProfileChunkSize_pos full
    refine ⟨?_, lookup_erase _ _, ?_⟩
    · simp only [Partial.profile, whole, part.name, part.width, part.height]
    · intro _ missing
      by_contra different
      cases full none (mem_of_getElem? (getElem?_set_eq_none.mpr ⟨missing, different⟩))

theorem lookup_before (call : Call) :
    (self.before call).peers.lookup fingerprint =
      (self.peers.lookup fingerprint).filter fun pending => call.inTime pending.touched := by
  cases call with
  | start now | chunk now | expire now => exact lookup_expire now
  | removePeer =>
    change self.peers.lookup fingerprint = _
    cases self.peers.lookup fingerprint <;> rfl

theorem lookup_answer (bounded : self.Bounded) {call : Call}
    (foreign : call.peer? ≠ some fingerprint) :
    (self.answer call).1.peers.lookup fingerprint =
      (self.peers.lookup fingerprint).filter fun pending => call.inTime pending.touched := by
  rw [← lookup_before]
  cases call with
  | start now touched peer requestId header =>
    have different : fingerprint ≠ peer := fun same => foreign (congrArg some same.symm)
    change (self.start now touched peer requestId header).1.peers.lookup fingerprint = _
    rcases self.start_cases now touched peer requestId header with
      ⟨same, -⟩ | ⟨same, -⟩ | ⟨same, -⟩ | ⟨same, -⟩
    · rw [same]
      rfl
    · rw [same]
      exact lookup_erase_ne different
    · rw [same]
      rfl
    · rw [same]
      exact lookup_insert_ne different
  | chunk now peer requestId index data =>
    have different : fingerprint ≠ peer := fun same => foreign (congrArg some same.symm)
    change (self.chunk now peer requestId index data).1.peers.lookup fingerprint = _
    rcases chunk_cases bounded now peer requestId index data with
      ⟨same, -⟩ | ⟨pending, -, -, ⟨same, -⟩ | ⟨filled, -, -, ⟨same, -⟩ | ⟨same, -⟩⟩⟩
    · rw [same]
      rfl
    · rw [same]
      rfl
    · rw [same]
      exact lookup_insert_ne different
    · rw [same]
      exact lookup_erase_ne different
  | expire => rfl
  | removePeer =>
    exact lookup_erase_ne fun same => foreign (congrArg some same.symm)

variable {call : Call} {later : List Call}

theorem givenTo_cons_of_foreign (foreign : call.peer? ≠ some fingerprint) :
    givenTo fingerprint (answers answer self (call :: later)).2 =
      givenTo fingerprint (answers answer (self.answer call).1 later).2 := by
  simp [answers_cons, givenTo, foreign]

theorem givenTo_cons (own : call.peer? = some fingerprint) :
    givenTo fingerprint (answers answer self (call :: later)).2 =
      (self.answer call).2.toOption.join.toList ++
        givenTo fingerprint (answers answer (self.answer call).1 later).2 := by
  rw [answers_cons, givenTo, filterMap_cons, if_pos own]
  cases (self.answer call).2.toOption.join <;> rfl

def OnlyBrings (fingerprint : String) (requestId : UInt64) (avatar : PeerAvatar)
    (later : List Call) : Prop :=
  ∀ call ∈ later, call.peer? = some fingerprint →
    ∃ index < chunkCount maxProfileChunkSize avatar.rgba, Brings fingerprint requestId avatar index
      call

theorem answer_unknown {now : ℕ} (gone : (self.expire now).peers.lookup fingerprint = none)
    (index : UInt32) (data : Bytes) :
    self.answer (.chunk now fingerprint requestId index data) =
      (self.expire now, .error (.refused "unknown profile transfer")) := by
  simp only [answer, chunk, gone]

theorem givenTo_late (bounded : self.Bounded) (gone : self.peers.lookup fingerprint = none)
    (own : OnlyBrings fingerprint requestId avatar later) :
    givenTo fingerprint (answers answer self later).2 = [] := by
  induction later generalizing self with
  | nil => rfl
  | cons call later ih =>
    have onward : OnlyBrings fingerprint requestId avatar later :=
      fun other member => own other (.tail _ member)
    by_cases concerns : call.peer? = some fingerprint
    · rcases own call (.head _) concerns with ⟨_, -, now, rfl⟩
      have still : (self.expire now).peers.lookup fingerprint = none := by
        rw [lookup_expire, gone]
        rfl
      rw [givenTo_cons concerns, answer_unknown still]
      exact ih (bounded.expire now) still onward
    · rw [givenTo_cons_of_foreign concerns]
      apply ih (bounded.answer call) _ onward
      rw [lookup_answer bounded concerns, gone]
      rfl

def Brought (fingerprint : String) (requestId : UInt64) (avatar : PeerAvatar) (touched : ℕ)
    (slots : List (Option Bytes)) (later : List Call) : Prop :=
  ∀ slot, slots[slot]? = some none →
    ∃ call ∈ later.takeWhile (Call.inTime touched), Brings fingerprint requestId avatar slot call

theorem Brings.index_eq {first second : ℕ} (sized : avatar.WellSized)
    (brings : Brings fingerprint requestId avatar first call)
    (also : Brings fingerprint requestId avatar second call)
    (firstLt : first < chunkCount maxProfileChunkSize avatar.rgba)
    (secondLt : second < chunkCount maxProfileChunkSize avatar.rgba) : first = second := by
  rcases brings with ⟨_, rfl⟩
  rcases also with ⟨_, same⟩
  injection same with _ _ _ index
  rw [← sized.toNat_index firstLt.le, index, sized.toNat_index secondLt.le]

section Brought

variable {slots kept : List (Option Bytes)} {index : ℕ} (young : call.inTime touched = true)

include young

theorem takeWhile_inTime : (call :: later).takeWhile (Call.inTime touched) =
    call :: later.takeWhile (Call.inTime touched) :=
  takeWhile_cons_of_pos young

theorem brought_cons_of_foreign (foreign : call.peer? ≠ some fingerprint) :
    Brought fingerprint requestId avatar touched slots (call :: later) ↔
      Brought fingerprint requestId avatar touched slots later := by
  unfold Brought
  rw [takeWhile_inTime young]
  apply forall_congr'
  intro _
  apply imp_congr_right
  intro _
  constructor
  · rintro ⟨other, member, brings⟩
    rcases mem_cons.mp member with rfl | member
    · rcases brings with ⟨_, rfl⟩
      exact absurd rfl foreign
    · exact ⟨other, member, brings⟩
  · rintro ⟨other, member, brings⟩
    exact ⟨other, .tail _ member, brings⟩

theorem brought_cons (sized : avatar.WellSized)
    (brings : Brings fingerprint requestId avatar index call)
    (within : index < chunkCount maxProfileChunkSize avatar.rgba)
    (holds : Holds maxProfileChunkSize avatar.rgba kept)
    (missing : ∀ slot, kept[slot]? = some none ↔ slots[slot]? = some none ∧ slot ≠ index) :
    Brought fingerprint requestId avatar touched slots (call :: later) ↔
      Brought fingerprint requestId avatar touched kept later := by
  unfold Brought
  rw [takeWhile_inTime young]
  constructor
  · intro brought slot empty
    have before := (missing slot).mp empty
    have slotLt := (List.getElem?_eq_some_iff.mp empty).1
    rw [holds.length] at slotLt
    rcases brought slot before.1 with ⟨other, member, also⟩
    rcases mem_cons.mp member with rfl | member
    · exact absurd (also.index_eq sized brings slotLt within) before.2
    · exact ⟨other, member, also⟩
  · intro brought slot empty
    by_cases same : slot = index
    · exact ⟨call, .head _, same ▸ brings⟩
    · rcases brought slot ((missing slot).mpr ⟨empty, same⟩) with ⟨other, member, also⟩
      exact ⟨other, .tail _ member, also⟩

theorem brought_last (brings : Brings fingerprint requestId avatar index call)
    (last : ∀ slot, slots[slot]? = some none → slot = index) :
    Brought fingerprint requestId avatar touched slots (call :: later) := by
  unfold Brought
  rw [takeWhile_inTime young]
  intro slot empty
  exact ⟨call, .head _, last slot empty ▸ brings⟩

end Brought

theorem givenTo_pending (bounded : self.Bounded)
    (found : self.peers.lookup fingerprint = some pending)
    (part : pending.PartOf requestId displayName avatar touched) (sized : avatar.WellSized)
    (own : OnlyBrings fingerprint requestId avatar later) :
    (Brought fingerprint requestId avatar touched pending.chunks later →
      givenTo fingerprint (answers answer self later).2 = [⟨displayName, some avatar⟩]) ∧
    (¬Brought fingerprint requestId avatar touched pending.chunks later →
      givenTo fingerprint (answers answer self later).2 = []) := by
  induction later generalizing self pending with
  | nil =>
    refine ⟨?_, fun _ => rfl⟩
    intro brought
    have incomplete := (bounded.sound fingerprint pending found).incomplete
    rcases mem_iff_getElem?.mp incomplete with ⟨slot, missing⟩
    rcases brought slot missing with ⟨_, member, _⟩
    cases member
  | cons call later ih =>
    have onward : OnlyBrings fingerprint requestId avatar later :=
      fun other member => own other (.tail _ member)
    have current : (self.before call).peers.lookup fingerprint =
        if call.inTime touched then some pending else none := by
      rw [lookup_before, found, Option.filter_some, part.touched]
    cases young : call.inTime touched with
    | false =>
      rw [young] at current
      have silent : givenTo fingerprint (answers answer self (call :: later)).2 = [] := by
        by_cases concerns : call.peer? = some fingerprint
        · rcases own call (.head _) concerns with ⟨index, -, now, rfl⟩
          rw [givenTo_cons concerns, answer_unknown current]
          exact givenTo_late (bounded.expire now) current onward
        · rw [givenTo_cons_of_foreign concerns]
          apply givenTo_late (bounded.answer call) _ onward
          rw [lookup_answer bounded concerns, ← lookup_before]
          exact current
      refine ⟨?_, fun _ => silent⟩
      intro brought
      have incomplete := (bounded.sound fingerprint pending found).incomplete
      rcases mem_iff_getElem?.mp incomplete with ⟨slot, missing⟩
      rcases brought slot missing with ⟨_, member, _⟩
      rw [takeWhile_cons_of_neg (by rw [young]; decide)] at member
      cases member
    | true =>
      rw [young, if_pos rfl] at current
      by_cases concerns : call.peer? = some fingerprint
      · rcases own call (.head _) concerns with ⟨index, within, now, rfl⟩
        have brings : Brings fingerprint requestId avatar index (.chunk now fingerprint
            requestId (ofNat index) (chunkAt maxProfileChunkSize avatar.rgba index)) :=
          ⟨now, rfl⟩
        have onwardBounded := bounded.chunk now fingerprint requestId (ofNat index)
          (chunkAt maxProfileChunkSize avatar.rgba index)
        rw [givenTo_cons concerns]
        simp only [answer]
        rcases chunk_own bounded current part sized within with
          ⟨silent, _, there, still, missing⟩ | ⟨given, gone, last⟩
        · rw [brought_cons young sized brings within still.holds missing, silent]
          exact ih onwardBounded there still onward
        · rw [given, givenTo_late onwardBounded gone onward]
          exact ⟨fun _ => rfl, fun late => absurd (brought_last young brings last) late⟩
      · rw [givenTo_cons_of_foreign concerns, brought_cons_of_foreign young concerns]
        apply ih (bounded.answer call) _ part onward
        rw [lookup_answer bounded concerns, ← lookup_before, current]

end Pending

section Events

variable {displayName fingerprint : String} {requestId : UInt64} {avatar : PeerAvatar}

theorem mem_chunkEvents {event : ProtoEvent} :
    event ∈ chunkEvents requestId ⟨displayName, some avatar⟩ ↔
      ∃ index < chunkCount maxProfileChunkSize avatar.rgba, event =
        .profileChunk requestId (ofNat index) (chunkAt maxProfileChunkSize avatar.rgba index) := by
  simp only [chunkEvents, Option.getD_some, mem_map, mem_zipIdx_chunks]
  constructor
  · rintro ⟨⟨_, index⟩, ⟨within, same⟩, rfl⟩
    dsimp only at within same
    subst same
    exact ⟨index, within, rfl⟩
  · rintro ⟨index, within, rfl⟩
    exact ⟨⟨_, index⟩, ⟨within, rfl⟩, rfl⟩

theorem startEvent_bare : startEvent requestId ⟨displayName, none⟩ =
    .profileStart requestId 0 0 0 0 displayName := by
  have none : divCeil 0 maxProfileChunkSize = 0 := by decide
  simp [startEvent, none]

theorem chunkEvents_bare : chunkEvents requestId ⟨displayName, none⟩ = [] := by
  have none : chunks maxProfileChunkSize ([] : Bytes) = [] := by decide
  simp [chunkEvents, none]

theorem feeds_chunk {index : ℕ} {call : Call} :
    Feeds fingerprint (.profileChunk requestId (ofNat index)
      (chunkAt maxProfileChunkSize avatar.rgba index)) call ↔
      Brings fingerprint requestId avatar index call := by
  constructor
  · rintro ⟨now, _, same⟩
    cases same
    exact ⟨now, rfl⟩
  · rintro ⟨now, rfl⟩
    exact ⟨now, 0, rfl⟩

theorem brought_replicate {touched : ℕ} {later : List Call} :
    Brought fingerprint requestId avatar touched
        (replicate (chunkCount maxProfileChunkSize avatar.rgba) none) later ↔
      ∀ event ∈ chunkEvents requestId ⟨displayName, some avatar⟩,
        ∃ call ∈ later.takeWhile (Call.inTime touched), Feeds fingerprint event call := by
  constructor
  · intro brought _ member
    rcases mem_chunkEvents.mp member with ⟨index, within, rfl⟩
    rcases brought index (getElem?_replicate_of_lt within) with ⟨call, comes, brings⟩
    exact ⟨call, comes, feeds_chunk.mpr brings⟩
  · intro fed slot missing
    have within := (List.getElem?_eq_some_iff.mp missing).1
    rw [length_replicate] at within
    rcases fed _ (mem_chunkEvents.mpr ⟨slot, within, rfl⟩) with ⟨call, comes, feeds⟩
    exact ⟨call, comes, feeds_chunk.mp feeds⟩

end Events

/-- The profile is sent by this start, and the peer feeds nothing else after it. -/
structure Delivery (reassembler : Reassembler) (fingerprint : String) (requestId : UInt64)
    (profile : DeviceProfile) (now touched : ℕ) (first : Call) (later : List Call) : Prop where
  begins : callOf now touched fingerprint (startEvent requestId profile) = some first
  fresh : ∀ pending, (reassembler.expire now).peers.lookup fingerprint = some pending →
    pending.requestId ≠ requestId
  own : ∀ call ∈ later, call.peer? = some fingerprint →
    ∃ event ∈ chunkEvents requestId profile, Feeds fingerprint event call

/-- There is room for the profile, and each chunk comes before it expires. -/
structure InTime (reassembler : Reassembler) (fingerprint : String) (requestId : UInt64)
    (profile : DeviceProfile) (now touched : ℕ) (later : List Call) : Prop where
  room : fingerprint ∈ (reassembler.expire now).peers ∨
    (reassembler.expire now).peers.keys.length < maxPartials
  fed : ∀ event ∈ chunkEvents requestId profile,
    ∃ call ∈ later.takeWhile (Call.inTime touched), Feeds fingerprint event call

section Given

variable {self : Reassembler} {fingerprint displayName : String} {requestId : UInt64}
  {avatar : PeerAvatar} {now touched : ℕ} {first : Call} {later : List Call}

theorem Delivery.givenTo_bare
    (delivery : Delivery self fingerprint requestId ⟨displayName, none⟩ now touched first later)
    (bounded : self.Bounded) (short : (utf8 displayName).length ≤ 128) (numbered : requestId ≠ 0) :
    givenTo fingerprint (answers answer self (first :: later)).2 = [⟨displayName, none⟩] := by
  have begins : first = .start now touched fingerprint requestId ⟨0, 0, 0, 0, displayName⟩ := by
    have begins := delivery.begins
    rw [startEvent_bare] at begins
    exact (Option.some_inj.mp begins).symm
  have accepted : ProfileHeader.check requestId ⟨0, 0, 0, 0, displayName⟩ = .ok false :=
    ProfileHeader.check_eq_false.mpr ⟨⟨numbered, short⟩, ⟨rfl, rfl, rfl, rfl⟩⟩
  have outcome : self.answer first =
      ((self.expire now).removePeer fingerprint, .ok (some ⟨displayName, none⟩)) := by
    simp only [begins, answer, start, accepted]
  have silent : OnlyBrings fingerprint requestId ⟨0, 0, []⟩ later := by
    intro call member concerns
    rcases delivery.own call member concerns with ⟨_, sent, -⟩
    rw [chunkEvents_bare] at sent
    cases sent
  have gone : ((self.expire now).removePeer fingerprint).peers.lookup fingerprint = none :=
    lookup_erase ..
  have rest := givenTo_late ((bounded.expire now).removePeer fingerprint) gone silent
  rw [givenTo_cons (by rw [begins]; rfl), outcome, rest]
  rfl

theorem accept_eq (fresh : ∀ pending, self.peers.lookup fingerprint = some pending →
    pending.requestId ≠ requestId) (header : ProfileHeader) :
    self.accept touched fingerprint requestId header =
      if fingerprint ∈ self.peers ∨ self.peers.keys.length < maxPartials then
        (⟨self.peers.insert fingerprint (header.begun requestId touched)⟩, .ok none)
      else (self, .error (.refused "too many partial profiles")) := by
  unfold accept
  cases found : self.peers.lookup fingerprint with
  | some old =>
    have there : fingerprint ∈ self.peers := (mem_iff_lookup _ _).mpr ⟨old, found⟩
    rw [if_pos (.inl there)]
    exact if_neg (fresh old found)
  | none =>
    have absent : fingerprint ∉ self.peers := by
      intro there
      rw [mem_iff_lookup] at there
      rcases there with ⟨_, known⟩
      cases found.symm.trans known
    by_cases room : self.peers.keys.length < maxPartials
    · rw [if_pos (.inr room)]
      exact if_neg (not_le.mpr room)
    · rw [if_neg (not_or.mpr ⟨absent, room⟩)]
      exact if_pos (not_lt.mp room)

theorem Delivery.givenTo_pictured
    (delivery : Delivery self fingerprint requestId ⟨displayName, some avatar⟩ now touched first
      later) (bounded : self.Bounded) (short : (utf8 displayName).length ≤ 128)
    (sized : avatar.WellSized) (numbered : requestId ≠ 0) :
    givenTo fingerprint (answers answer self (first :: later)).2 = [⟨displayName, some avatar⟩] ↔
      InTime self fingerprint requestId ⟨displayName, some avatar⟩ now touched later := by
  have begins : first = .start now touched fingerprint requestId (avatar.header displayName) :=
    (Option.some_inj.mp delivery.begins).symm
  have pictured := sized.pictured displayName
  have accepted : (avatar.header displayName).check requestId = .ok true :=
    ProfileHeader.check_eq_true.mpr ⟨⟨numbered, short⟩, pictured⟩
  have admitted : self.answer first =
      (self.expire now).accept touched fingerprint requestId (avatar.header displayName) := by
    simp only [begins, answer, start, accepted]
  have own : OnlyBrings fingerprint requestId avatar later := by
    intro call member concerns
    rcases delivery.own call member concerns with ⟨_, sent, feeds⟩
    rcases mem_chunkEvents.mp sent with ⟨index, within, rfl⟩
    exact ⟨index, within, feeds_chunk.mp feeds⟩
  rw [givenTo_cons (by rw [begins]; rfl), admitted, accept_eq delivery.fresh]
  by_cases room : fingerprint ∈ (self.expire now).peers ∨
      (self.expire now).peers.keys.length < maxPartials
  · have slots : ((avatar.header displayName).begun requestId touched).chunks =
        replicate (chunkCount maxProfileChunkSize avatar.rgba) none := by
      rw [ProfileHeader.begun, PeerAvatar.header, sized.toNat_index le_rfl]
    have part : ((avatar.header displayName).begun requestId touched).PartOf requestId displayName
        avatar touched := ⟨rfl, rfl, rfl, rfl, rfl, slots ▸ holds_replicate⟩
    have onward := (bounded.expire now).insert (pictured.sound_begun requestId touched) room
    have rest := givenTo_pending onward (lookup_insert _) part sized own
    rw [slots, brought_replicate] at rest
    rw [if_pos room]
    constructor
    · intro given
      refine ⟨room, ?_⟩
      by_contra late
      cases given.symm.trans (rest.2 late)
    · intro inTime
      exact rest.1 inTime.fed
  · have gone : (self.expire now).peers.lookup fingerprint = none :=
      lookup_eq_none.mpr (not_or.mp room).1
    rw [if_neg room]
    constructor
    · intro given
      cases given.symm.trans (givenTo_late (bounded.expire now) gone own)
    · intro inTime
      exact absurd inTime.room room

end Given

/-- A profile without an image is given back once, and one with an image if there is room and its
chunks come in time. -/
theorem Delivery.givenTo_iff {self : Reassembler} {fingerprint : String} {requestId : UInt64}
    {profile : DeviceProfile} {now touched : ℕ} {first : Call} {later : List Call}
    (delivery : Delivery self fingerprint requestId profile now touched first later)
    (bounded : self.Bounded) (accepted : profile.validate = .ok ()) (numbered : requestId ≠ 0) :
    givenTo fingerprint (answers answer self (first :: later)).2 = [profile] ↔
      profile.avatar = none ∨ InTime self fingerprint requestId profile now touched later := by
  have sized := DeviceProfile.wellSized_of_validate accepted
  cases profile with
  | mk _ avatar =>
    cases avatar with
    | none =>
      exact ⟨fun _ => .inl rfl, fun _ => delivery.givenTo_bare bounded sized.name numbered⟩
    | some avatar =>
      have given := delivery.givenTo_pictured bounded sized.name (sized.avatar avatar rfl) numbered
      rw [given]
      exact ⟨.inr, fun either => either.resolve_left (Option.some_ne_none avatar)⟩

theorem bounded_answer (self : Reassembler) (call : Call) (bounded : self.Bounded) :
    (self.answer call).1.Bounded := bounded.answer call

theorem bounded_answers (calls : List Call) : (answers answer new calls).1.Bounded :=
  answers_keeps bounded_answer bounded_new calls

theorem ne_overflow_of_answers (calls : List Call) :
    ∀ entry ∈ (answers answer new calls).2, entry.2 ≠ .error .overflow := by
  apply @answers_forall _ _ _ answer Bounded
    (fun _ answer => answer ≠ .error .overflow) bounded_answer _ _ bounded_new
  intro _ call bounded
  exact answer_ne_overflow bounded call

/-- Whatever is asked of a reassembler, it holds eight partial profiles at most and computes no size
that overflows. What then contradicts a partial profile is refused and changes nothing, unless it
is a start that announces no image; and of every profile that may be published the events give back
this profile once, if it has no image or if there is room and the chunks come in time. -/
theorem transports_iff (calls : List Call) :
    let run := answers Reassembler.answer new calls
    run.1.peers.keys.length ≤ maxPartials ∧
    (∀ entry ∈ run.2, entry.2 ≠ .error .overflow) ∧
    (∀ call, run.1.Conflicts call → (run.1.Refuses call ↔ ¬call.AnnouncesNothing)) ∧
    ∀ profile requestId, profile.validate = .ok () → requestId ≠ 0 →
      encodeProfile requestId profile =
        .ok (startEvent requestId profile :: chunkEvents requestId profile) ∧
      ∀ fingerprint now touched first later,
        Delivery run.1 fingerprint requestId profile now touched first later →
        (givenTo fingerprint (answers Reassembler.answer run.1 (first :: later)).2 = [profile] ↔
          profile.avatar = none ∨
            InTime run.1 fingerprint requestId profile now touched later) := by
  have bounded := bounded_answers calls
  refine ⟨bounded.few, ne_overflow_of_answers calls, ?_, ?_⟩
  · intro _ conflicts
    exact Reassembler.refuses_iff bounded conflicts
  · intro _ _ accepted numbered
    refine ⟨encodeProfile_of_validate accepted numbered, ?_⟩
    intro _ _ _ _ _ delivery
    exact delivery.givenTo_iff bounded accepted numbered

/-- A profile with an image of two chunks. -/
def pictured : DeviceProfile := ⟨"HP", some ⟨20, 20, List.replicate 1600 9⟩⟩

def picturedHeader : ProfileHeader := ⟨20, 20, 1600, 2, "HP"⟩

/-- The chunks come in the wrong order, and the second one comes twice. -/
def picturedCalls : List Call :=
  [.chunk 9 "cert" 7 1 (chunkAt maxProfileChunkSize (List.replicate 1600 9) 1),
    .chunk 9 "cert" 7 1 (chunkAt maxProfileChunkSize (List.replicate 1600 9) 1),
    .chunk 9 "cert" 7 0 (chunkAt maxProfileChunkSize (List.replicate 1600 9) 0)]

theorem transports_iff_pictured :
    givenTo "cert" (answers Reassembler.answer new
      (.start 0 0 "cert" 7 picturedHeader :: picturedCalls)).2 = [pictured] := by
  have sent : chunkEvents 7 pictured =
      [.profileChunk 7 0 (chunkAt maxProfileChunkSize (List.replicate 1600 9) 0),
        .profileChunk 7 1 (chunkAt maxProfileChunkSize (List.replicate 1600 9) 1)] := by
    decide +kernel
  have delivery : Delivery new "cert" 7 pictured 0 0 (.start 0 0 "cert" 7 picturedHeader)
      picturedCalls := by
    refine ⟨by decide +kernel, ?_, ?_⟩
    · intro _ found
      cases found
    · intro call member _
      rw [sent]
      simp only [picturedCalls, List.mem_cons, List.not_mem_nil, or_false] at member
      rcases member with rfl | rfl | rfl
      · exact ⟨_, .tail _ (.head _), 9, 0, rfl⟩
      · exact ⟨_, .tail _ (.head _), 9, 0, rfl⟩
      · exact ⟨_, .head _, 9, 0, rfl⟩
  have inTime : InTime new "cert" 7 pictured 0 0 picturedCalls := by
    refine ⟨.inr (by decide +kernel), ?_⟩
    intro _ member
    rw [sent] at member
    rcases mem_pair.mp member with rfl | rfl
    · exact ⟨_, .tail _ (.tail _ (.head _)), 9, 0, rfl⟩
    · exact ⟨_, .head _, 9, 0, rfl⟩
  exact (((transports_iff []).2.2.2 pictured 7 (by decide +kernel) (by decide)).2 "cert" 0 0 _ _
    delivery).mpr (.inr inTime)

/-- A start without an image, under the request of a partial profile, is not refused: the profile
without the image is given back, and the partial profile is gone. -/
theorem emptyStart_not_refused :
    let run := answers Reassembler.answer new [.start 0 0 "cert" 7 ⟨1, 1, 4, 1, "HP"⟩]
    let call := Call.start 0 0 "cert" 7 ⟨0, 0, 0, 0, "HP"⟩
    run.1.Conflicts call ∧ ¬run.1.Refuses call ∧
      (run.1.answer call).2 = .ok (some ⟨"HP", none⟩) ∧
      (run.1.answer call).1.peers.lookup "cert" = none := by
  refine ⟨⟨⟨7, 1, 1, [none], "HP", 0⟩, by decide, by decide, by decide⟩, ?_, by decide, by decide⟩
  rintro ⟨⟨_, refused⟩, -⟩
  have given : ((answers Reassembler.answer new [.start 0 0 "cert" 7 ⟨1, 1, 4, 1, "HP"⟩]).1.answer
      (.start 0 0 "cert" 7 ⟨0, 0, 0, 0, "HP"⟩)).2 = .ok (some ⟨"HP", none⟩) := by
    decide
  cases given.symm.trans refused

end Syntra.Profiles
