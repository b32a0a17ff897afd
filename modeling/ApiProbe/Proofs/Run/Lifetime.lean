import Mathlib.Logic.Relation
import ApiProbe.Proofs.Number.Difference
import ApiProbe.Run.Lifetime

/-!
# The end of a lifetime

A lifetime is looked at in three ways: whether it has ended, which problem its end is, and how much time
is left of it. The first two agree at every time. The third agrees with them as long as only the deadline
ends the lifetime, unless the deadline is a NaN: that one is never reached though no time is ever left up
to it. A lifetime that has ended stays so as the clock goes on.
-/

namespace ApiProbe

namespace Lifetime

variable {l : Lifetime} {now : Binary64}

theorem expired_iff : l.expired now = true ↔ ∃ deadline ∈ l.deadline, deadline.AtMost now := by
  unfold expired
  cases l.deadline with
  | none => simp
  | some deadline => simp [Binary64.atMost_iff_swap]

theorem ended_iff : l.ended now = true ↔ l.cancelReason ≠ none ∨ l.expired now = true := by
  rw [ended, Bool.or_eq_true, Option.isSome_iff_ne_none]

theorem exists_problem_of_ended (h : l.ended now = true) :
    ∃ reason, l.problem? now = some (.cancelled reason) := by
  rw [problem?]
  cases hcancel : l.cancelReason with
  | some reason => exact ⟨reason, rfl⟩
  | none =>
      have hexpired := (ended_iff.mp h).resolve_left (not_not_intro hcancel)
      exact ⟨_, if_pos hexpired⟩

theorem problem?_eq_none (h : ¬ l.ended now = true) : l.problem? now = none := by
  rw [ended_iff, not_or, not_not] at h
  rw [problem?, h.1]
  exact if_neg h.2

/-- There is a deadline, and no time is left up to it. -/
def NothingLeft (l : Lifetime) (now : Binary64) : Prop :=
  ∃ left ∈ l.remaining now, left.same (.zero false) = true

/-- No time is left once the deadline is reached and not before, except where it is a NaN. -/
theorem nothingLeft_iff (hdeadline : ∀ deadline ∈ l.deadline, deadline.InFormat)
    (hnow : now.IsProper) :
    l.NothingLeft now ↔ l.expired now = true ∨ l.deadline = some .nan := by
  rw [NothingLeft, remaining, expired_iff]
  cases hd : l.deadline with
  | none => simp
  | some deadline =>
      have hsign := Binary64.compare?_sub_zero (hdeadline deadline hd) hnow
      simp only [Option.map_some, Option.mem_def, Option.some.injEq, exists_eq_left', beq_iff_eq]
      split
      · rename_i hgt
        have hnot : ¬ deadline.AtMost now := by
          rw [Binary64.AtMost, ← hsign, hgt]
          simp
        have hnan : deadline ≠ .nan := by
          rintro rfl
          rw [hsign] at hgt
          cases hgt
        simp [Binary64.same, hgt, hnot, hnan]
      · rename_i hgt
        refine iff_of_true rfl ?_
        by_cases hnan : deadline = .nan
        · exact Or.inr hnan
        · exact Or.inl (Binary64.atMost_of_ne_gt hnan hnow.ne_nan (hsign ▸ hgt))

end Lifetime

/-- A lifetime at a time of the clock. -/
structure Moment where
  lifetime : Lifetime
  now : Binary64

namespace Moment

/-- The beginning of a lifetime that may have a limit. -/
def start (now : Binary64) (limit : Option Binary64) : Moment :=
  ⟨.start now limit, now⟩

def Ended (m : Moment) : Prop :=
  m.lifetime.ended m.now = true

/-- What comes next: the clock goes on, or the run is cancelled. -/
inductive Next (m : Moment) : Moment → Prop
  | tick {later : Binary64} (hclock : later.IsProper) (hlater : m.now.AtMost later) :
      Next m { m with now := later }
  | cancel (reason : String) : Next m { m with lifetime := m.lifetime.cancel reason }

abbrev Later : Moment → Moment → Prop :=
  Relation.ReflTransGen Next

variable {m n : Moment}

theorem Next.ended (h : m.Next n) (hended : m.Ended) : n.Ended := by
  cases h with
  | cancel reason => rfl
  | tick _ hlater =>
      refine Lifetime.ended_iff.mpr ((Lifetime.ended_iff.mp hended).imp_right fun hexpired => ?_)
      obtain ⟨deadline, hdeadline, hreached⟩ := Lifetime.expired_iff.mp hexpired
      exact Lifetime.expired_iff.mpr ⟨deadline, hdeadline, hreached.trans hlater⟩

/-- A lifetime that has ended stays so. -/
theorem Later.ended (h : m.Later n) (hended : m.Ended) : n.Ended := by
  induction h with
  | refl => exact hended
  | tail _ hnext ih => exact hnext.ended ih

theorem Next.deadline_eq (h : m.Next n) : n.lifetime.deadline = m.lifetime.deadline := by
  cases h <;> rfl

theorem Later.deadline_eq (h : m.Later n) : n.lifetime.deadline = m.lifetime.deadline := by
  induction h with
  | refl => rfl
  | tail _ hnext ih => exact hnext.deadline_eq.trans ih

theorem Next.now_isProper (h : m.Next n) (hnow : m.now.IsProper) : n.now.IsProper := by
  cases h with
  | tick hclock _ => exact hclock
  | cancel reason => exact hnow

theorem Later.now_isProper (h : m.Later n) (hnow : m.now.IsProper) : n.now.IsProper := by
  induction h with
  | refl => exact hnow
  | tail _ hnext ih => exact hnext.now_isProper ih

/-- Unless the run is cancelled, no time is left just if its lifetime has ended or its limit is a NaN. -/
theorem nothingLeft_iff_of_later {begun : Binary64} {limit : Option Binary64} (hbegun : begun.IsProper)
    (h : (start begun limit).Later m) (hcancel : m.lifetime.cancelReason = none) :
    m.lifetime.NothingLeft m.now ↔ m.Ended ∨ limit = some .nan := by
  have hdeadline : m.lifetime.deadline = limit.map begun.add := h.deadline_eq
  have hformat : ∀ deadline ∈ m.lifetime.deadline, deadline.InFormat := by
    rw [hdeadline]
    rintro _ hmem
    obtain ⟨t, _, rfl⟩ := Option.map_eq_some_iff.mp hmem
    exact Binary64.add_inFormat begun t
  have hnan : m.lifetime.deadline = some .nan ↔ limit = some .nan := by
    rw [hdeadline, Option.map_eq_some_iff]
    constructor
    · rintro ⟨t, rfl, hsum⟩
      by_contra hlimit
      exact Binary64.add_ne_nan hbegun (fun ht => hlimit (congrArg some ht)) hsum
    · rintro rfl
      exact ⟨.nan, rfl, by cases begun <;> rfl⟩
  have hended : m.Ended ↔ m.lifetime.expired m.now = true := by
    rw [Ended, Lifetime.ended_iff, hcancel]
    simp
  rw [Lifetime.nothingLeft_iff hformat (h.now_isProper hbegun), hnan, hended]

end Moment

end ApiProbe
