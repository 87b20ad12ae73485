import Mathlib.Data.Nat.Digits.Defs
import Mathlib.Order.Lattice.Nat
import Syntra.History.Records

/-!
# The coordinator of a global clear

A boundary names the last event of each origin. The device that clears the histories gathers the
boundaries of the others, takes of every origin the last event that any of them has seen, has the
result applied everywhere and waits for the answers (`history_sync.rs`).
-/

namespace Syntra.History

open Proto Store List

abbrev OperationId := ByteVec 16

/-- `hex_operation`: two digits for each byte. -/
def hexOperation (operationId : OperationId) : String :=
  String.ofList (operationId.toList.flatMap fun byte =>
    [(byte.toNat / 16).digitChar, (byte.toNat % 16).digitChar])

variable (boundary : ClearBoundary)

/-- The last event of an origin is this one, unless a later one is known. -/
def noteOrigin (entry : String × UInt64) : ClearBoundary :=
  boundary.insert entry.1 (match boundary[entry.1]? with
    | some known => max known entry.2
    | none => entry.2)

def boundaryToWire : List (String × UInt64) := boundary.toList

def boundaryFromWire (entries : List (String × UInt64)) : ClearBoundary :=
  entries.foldl noteOrigin ∅

variable (target source : ClearBoundary)

def unionBoundary (target source : ClearBoundary) : ClearBoundary :=
  source.toList.foldl noteOrigin target

variable (origin : String)

def lastOf (origin : String) : WithBot ℕ :=
  match boundary[origin]? with
  | some sequence => WithBot.some sequence.toNat
  | none => ⊥

/-- A clear that this device leads, with the peers that it waits for. -/
structure ClearCoordinator (P : Type) where
  operationId : OperationId
  boundary : ClearBoundary
  awaitingBoundaries : Finset P
  peerCount : ℕ
  participants : Finset P
  awaitingAcks : Finset P
  affected : ℕ
  errors : List String
  deadline : ℕ
  applying : Bool

namespace ClearCoordinator

variable {P : Type} [DecidableEq P]

def new (now : ℕ) (operationId : OperationId) (peers : Finset P) (boundary : ClearBoundary) :
    ClearCoordinator P where
  operationId := operationId
  boundary := boundary
  awaitingBoundaries := peers
  peerCount := peers.card
  participants := peers
  awaitingAcks := ∅
  affected := 0
  errors := []
  deadline := now + clearTimeout
  applying := false

variable (clear : ClearCoordinator P)

def addBoundary (peer : P) (boundary : ClearBoundary) : ClearCoordinator P × Bool :=
  if peer ∈ clear.awaitingBoundaries then
    let clear :=
      { clear with
        awaitingBoundaries := clear.awaitingBoundaries.erase peer
        boundary := unionBoundary clear.boundary boundary }
    (clear, clear.awaitingBoundaries = ∅)
  else
    (clear, false)

def beginApply (now : ℕ) (peers : Finset P) (localAffected : ℕ) : ClearCoordinator P :=
  { clear with
    applying := true
    awaitingAcks := peers
    affected := localAffected
    deadline := now + clearTimeout }

def addAck (peer : P) (affected : UInt64) (error : Option String) : ClearCoordinator P × Bool :=
  if peer ∈ clear.awaitingAcks then
    let clear :=
      { clear with
        awaitingAcks := clear.awaitingAcks.erase peer
        affected := min (clear.affected + affected.toNat) usizeMax
        errors := clear.errors ++ error.toList }
    (clear, clear.awaitingAcks = ∅)
  else
    (clear, false)

/-- Either set may have the peer, and only the first one that does loses it. -/
def peerLost (peer : P) : ClearCoordinator P :=
  if peer ∈ clear.awaitingBoundaries then
    { clear with
      awaitingBoundaries := clear.awaitingBoundaries.erase peer
      errors := clear.errors ++ ["peer disconnected during global clear"] }
  else if peer ∈ clear.awaitingAcks then
    { clear with
      awaitingAcks := clear.awaitingAcks.erase peer
      errors := clear.errors ++ ["peer disconnected during global clear"] }
  else
    clear

variable {clear}

theorem addBoundary_ready {peer : P} {boundary : ClearBoundary} {all : ClearCoordinator P}
    (ready : clear.addBoundary peer boundary = (all, true)) :
    peer ∈ clear.awaitingBoundaries ∧ all.awaitingBoundaries = ∅ ∧
      all.operationId = clear.operationId := by
  unfold addBoundary at ready
  split at ready
  · rename_i awaited
    simp only [Prod.mk.injEq, decide_eq_true_eq] at ready
    rcases ready with ⟨rfl, none⟩
    exact ⟨awaited, none, rfl⟩
  · cases ready

theorem addAck_done {peer : P} {affected : UInt64} {error : Option String}
    {last : ClearCoordinator P} (done : clear.addAck peer affected error = (last, true)) :
    last.awaitingAcks = ∅ ∧ last.applying = clear.applying := by
  unfold addAck at done
  split at done
  · simp only [Prod.mk.injEq, decide_eq_true_eq] at done
    rcases done with ⟨rfl, none⟩
    exact ⟨none, rfl⟩
  · cases done

end ClearCoordinator

theorem toNat_max (left right : UInt64) : (max left right).toNat = max left.toNat right.toNat := by
  change (if left ≤ right then right else left).toNat = _
  split
  · rename_i below
    rw [max_eq_right (UInt64.le_iff_toNat_le.mp below)]
  · rename_i above
    rw [max_eq_left (le_of_not_ge fun below => above (UInt64.le_iff_toNat_le.mpr below))]

theorem lastOf_noteOrigin (entry : String × UInt64) (origin : String) :
    lastOf (noteOrigin boundary entry) origin =
      lastOf boundary origin ⊔ if entry.1 = origin then WithBot.some entry.2.toNat else ⊥ := by
  rw [lastOf, noteOrigin, Std.ExtTreeMap.getElem?_insert]
  by_cases same : entry.1 = origin
  · subst same
    rw [if_pos (compare_eq_iff_eq.mpr rfl), if_pos rfl, lastOf]
    cases boundary[entry.1]? with
    | none => exact (bot_sup_eq _).symm
    | some known =>
      change WithBot.some (max known entry.2).toNat = WithBot.some known.toNat ⊔ _
      rw [toNat_max, WithBot.coe_max]
  · rw [if_neg (by simpa using same), if_neg same, sup_bot_eq, lastOf]

theorem lastOf_foldl (entries : List (String × UInt64)) (origin : String) (bound : WithBot ℕ) :
    lastOf (entries.foldl noteOrigin boundary) origin ≤ bound ↔
      lastOf boundary origin ≤ bound ∧
        ∀ sequence, (origin, sequence) ∈ entries → WithBot.some sequence.toNat ≤ bound := by
  induction entries generalizing boundary with
  | nil => simp
  | cons entry _ ih =>
    rw [foldl_cons, ih, lastOf_noteOrigin, sup_le_iff, and_assoc]
    refine and_congr_right fun _ => ?_
    constructor
    · rintro ⟨first, later⟩ sequence member
      rcases mem_cons.mp member with rfl | member
      · simpa using first
      · exact later sequence member
    · intro all
      refine ⟨?_, fun sequence member => all sequence (.tail _ member)⟩
      split
      · rename_i same
        exact all entry.2 (mem_cons.mpr (.inl (Prod.ext same.symm rfl)))
      · exact bot_le

theorem lastOf_le_iff (bound : WithBot ℕ) :
    lastOf boundary origin ≤ bound ↔
      ∀ sequence, (origin, sequence) ∈ boundary.toList → WithBot.some sequence.toNat ≤ bound := by
  simp only [Std.ExtTreeMap.mem_toList_iff_getElem?_eq_some, lastOf]
  cases boundary[origin]? with
  | none | some => simp

theorem lastOf_unionBoundary :
    lastOf (unionBoundary target source) origin = lastOf target origin ⊔ lastOf source origin := by
  apply eq_of_forall_ge_iff
  intro _
  rw [unionBoundary, lastOf_foldl, ← lastOf_le_iff, sup_le_iff]

theorem lastOf_injective {left right : ClearBoundary}
    (same : ∀ origin, lastOf left origin = lastOf right origin) : left = right := by
  apply Std.ExtTreeMap.ext_getElem?
  intro origin
  have equal := same origin
  unfold lastOf at equal
  cases first : left[origin]? with
  | none =>
    cases second : right[origin]? with
    | none => rfl
    | some => simp [first, second] at equal
  | some =>
    cases second : right[origin]? with
    | none => simp [first, second] at equal
    | some =>
      simp only [first, second, WithBot.coe_inj] at equal
      rw [UInt64.toNat_inj.mp equal]

@[simp]
theorem boundaryFromWire_boundaryToWire :
    boundaryFromWire (boundaryToWire boundary) = boundary := by
  apply lastOf_injective
  intro origin
  apply eq_of_forall_ge_iff
  intro _
  have none : lastOf ∅ origin = ⊥ := by simp [lastOf]
  rw [boundaryFromWire, boundaryToWire, lastOf_foldl, ← lastOf_le_iff, none]
  simp

theorem getElem?_unionBoundary :
    (unionBoundary target source)[origin]? = target[origin]?.merge max source[origin]? := by
  have joined := lastOf_unionBoundary target source origin
  unfold lastOf at joined
  generalize (unionBoundary target source)[origin]? = union, target[origin]? = first,
    source[origin]? = second at joined ⊢
  cases union <;> cases first <;> cases second <;>
    simp_all [-WithBot.coe_sup, ← WithBot.coe_max, ← toNat_max, UInt64.toNat_inj]

/-- The boundaries are a join semilattice, in which a list from the wire stands for the join of its
entries. -/
theorem unionBoundary_join :
    (∀ first second, unionBoundary first second = unionBoundary second first) ∧
      (∀ first second third, unionBoundary (unionBoundary first second) third =
        unionBoundary first (unionBoundary second third)) ∧
      (∀ boundary, unionBoundary boundary boundary = boundary) ∧
      (∀ (first second : ClearBoundary) (origin : String),
        (unionBoundary first second)[origin]? = first[origin]?.merge max second[origin]?) ∧
      (∀ boundary, boundaryFromWire (boundaryToWire boundary) = boundary) ∧
      ∀ first second, boundaryFromWire (first ++ second) =
        unionBoundary (boundaryFromWire first) (boundaryFromWire second) := by
  refine ⟨fun first second => ?_, fun first second _ => ?_, fun _ => ?_,
    getElem?_unionBoundary, boundaryFromWire_boundaryToWire, fun _ _ => ?_⟩ <;>
    refine lastOf_injective fun origin => ?_ <;> simp only [lastOf_unionBoundary]
  · exact sup_comm _ _
  · exact sup_assoc _ _ _
  · exact sup_idem _
  · apply eq_of_forall_ge_iff
    intro _
    have none : lastOf ∅ origin = ⊥ := by simp [lastOf]
    simp only [boundaryFromWire, List.foldl_append, sup_le_iff, lastOf_foldl, none]
    simp
theorem digitChar_injective {left right : ℕ} (first : left < 16) (second : right < 16)
    (same : left.digitChar = right.digitChar) : left = right := by
  have all : ∀ left < 16, ∀ right < 16,
      Nat.digitChar left = Nat.digitChar right → left = right := by decide
  exact all left first right second same

theorem hexOperation_injective : Function.Injective hexOperation := by
  intro left right same
  apply Vector.toList_injective
  have digits := String.ofList_injective same
  generalize left.toList = first at digits
  generalize right.toList = second at digits
  induction first generalizing second with
  | nil =>
    cases second with
    | nil => rfl
    | cons => cases digits
  | cons byte _ ih =>
    cases second with
    | nil => cases digits
    | cons other second =>
      simp only [flatMap_cons, cons_append, nil_append, cons.injEq] at digits
      have high := digitChar_injective (by have := byte.toNat_lt; omega)
        (by have := other.toNat_lt; omega) digits.1
      have low := digitChar_injective (Nat.mod_lt _ (by decide)) (Nat.mod_lt _ (by decide))
        digits.2.1
      have bytes : byte = other := UInt8.toNat_inj.mp (by omega)
      rw [bytes, ih second digits.2.2]

end Syntra.History
