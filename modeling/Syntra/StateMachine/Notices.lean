import Mathlib.Data.List.Basic

/-!
# Notices

Members come and go, and a notice is given of each of them. Who is there is read off the notices
about each member. Someone who keeps one flag for a whole group of members, which follows the last
notice about any of them, is right as long as a departure from the group leaves nobody behind.
-/

namespace Notices

variable {Member : Type*}

/-- Somebody has come, or has gone. -/
abbrev Notice (Member : Type*) := Member × Bool

def lastly (about : Member → Bool) (before : Bool) (notices : List (Notice Member)) : Bool :=
  notices.foldl (fun said notice => if about notice.1 then notice.2 else said) before

variable {about : Member → Bool} {before : Bool}

@[simp]
theorem lastly_nil : lastly about before [] = before :=
  rfl

@[simp]
theorem lastly_singleton (notice : Notice Member) :
    lastly about before [notice] = if about notice.1 then notice.2 else before :=
  rfl

theorem lastly_append (first second : List (Notice Member)) :
    lastly about before (first ++ second) = lastly about (lastly about before first) second :=
  List.foldl_append

variable {notices : List (Notice Member)}

theorem lastly_of_unmentioned (unmentioned : ∀ notice ∈ notices, about notice.1 = false) :
    lastly about before notices = before := by
  induction notices generalizing before with
  | nil => rfl
  | cons notice _ ih =>
    rw [lastly, List.foldl_cons, unmentioned notice List.mem_cons_self]
    exact ih fun other member => unmentioned other (.tail _ member)

theorem lastly_cases (about : Member → Bool) (notices : List (Notice Member)) :
    (∀ notice ∈ notices, about notice.1 = false) ∨
      ∃ notice ∈ notices, about notice.1 = true ∧
        ∀ (other : Member → Bool) (before : Bool), other notice.1 = true →
          (∀ member, other member = true → about member = true) →
            lastly other before notices = notice.2 := by
  induction notices with
  | nil => exact .inl fun _ member => nomatch member
  | cons notice _ ih =>
    rcases ih with unmentioned | ⟨last, listed, named, tells⟩
    · cases named : about notice.1 with
      | false =>
        left
        intro other member
        rcases List.mem_cons.mp member with rfl | later
        · exact named
        · exact unmentioned other later
      | true =>
        refine .inr ⟨notice, .head _, named, fun other before here within => ?_⟩
        rw [lastly, List.foldl_cons, if_pos here]
        apply lastly_of_unmentioned
        intro later member
        by_contra mentioned
        rw [Bool.not_eq_false] at mentioned
        exact absurd (within _ mentioned) (by simp [unmentioned later member])
    · exact .inr ⟨last, .tail _ listed, named, fun other _ here within =>
        tells other _ here within⟩

theorem lastly_of_only [DecidableEq Member] {only : Member} (grouped : about only = true)
    (alone : ∀ notice ∈ notices, notice.1 = only)
    (came : lastly (fun other => decide (other = only)) false notices = true) :
    lastly about before notices = true := by
  rcases lastly_cases about notices with unmentioned | ⟨last, listed, named, tells⟩
  · have none : lastly (fun other => decide (other = only)) false notices = false := by
      apply lastly_of_unmentioned
      intro notice given
      have silent := unmentioned notice given
      rw [alone notice given, grouped] at silent
      cases silent
    rw [none] at came
    cases came
  · have single : lastly (fun other => decide (other = only)) false notices = last.2 := by
      refine tells _ _ (decide_eq_true (alone last listed)) fun _ same => ?_
      rw [of_decide_eq_true same]
      exact grouped
    rw [tells about before named fun _ => id, ← single]
    exact came

theorem lastly_agrees [DecidableEq Member] {present later : Member → Bool}
    (told : ∀ member, about member = true → later member =
      lastly (fun other => decide (other = member)) (present member) notices)
    (right : before = true ↔ ∃ member, about member = true ∧ present member = true)
    (vacated : ∀ member, (member, false) ∈ notices → about member = true →
      ∀ other, about other = true → later other = true → other = member) :
    lastly about before notices = true ↔ ∃ member, about member = true ∧ later member = true := by
  rcases lastly_cases about notices with unmentioned | ⟨⟨last, came⟩, listed, named, tells⟩
  · have kept : ∀ member, about member = true → later member = present member := by
      intro member grouped
      rw [told member grouped]
      apply lastly_of_unmentioned
      intro notice given
      rw [decide_eq_false_iff_not]
      rintro rfl
      exact absurd grouped (by simp [unmentioned notice given])
    rw [lastly_of_unmentioned unmentioned, right]
    refine exists_congr fun member => and_congr_right fun grouped => ?_
    rw [kept member grouped]
  · have whole := tells about before named fun _ => id
    have single : later last = came := by
      rw [told last named]
      refine tells _ _ (decide_eq_true rfl) fun _ same => ?_
      rw [of_decide_eq_true same]
      exact named
    rw [whole]
    cases came with
    | true => exact iff_of_true rfl ⟨last, named, single⟩
    | false =>
      refine iff_of_false Bool.false_ne_true ?_
      rintro ⟨other, grouped, present⟩
      rw [vacated last listed named other grouped present, single] at present
      cases present

end Notices
