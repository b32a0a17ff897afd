import ApiProbe.Proofs.Unify.Preservation
import ApiProbe.Proofs.Unify.Sketch

/-!
# The form of a merger

A constraint is the conjunction of its parts: its kind, and each of its bounds. The parts of a merger are
the kind of what is of all kinds that are merged, and then the bounds of both constraints, each where it
occurs first. Two constraints are refused only if no atom passes all their parts.
-/

namespace ApiProbe

/-- The kind of what is of all the kinds; what no kind is asked of has none. -/
def Kind.IsMeet (kinds : List Kind) : Option Kind → Prop
  | none => kinds = []
  | some met =>
    kinds ≠ [] ∧ ∀ k : AtomKind, met.accepts k = true ↔ ∀ kind ∈ kinds, kind.accepts k = true

/-- To keep what is not the same as anything kept is to erase what repeats something in front of it. -/
theorem distinctBy_eq_eraseDupsBy {α : Type} {same : α → α → Bool} (kept xs : List α) :
    distinctBy same kept xs = kept ++ (xs.filter fun x => !kept.any (same x)).eraseDupsBy same := by
  induction xs generalizing kept with
  | nil => simp [distinctBy, List.eraseDupsBy, List.eraseDupsBy.loop]
  | cons x xs ih =>
      rw [distinctBy, ih, List.filter_cons]
      cases hany : kept.any (same x) with
      | true => simp
      | false => simp [List.eraseDupsBy_cons, Bool.and_comm]

namespace Constraint

/-- The kind and the bounds, each as a value of its own. -/
def conjuncts (c : Constraint) : List Value :=
  (c.kind.map Value.ofKind).toList ++ c.bounds.map Value.ofBound

/-- The atom passes the check of every part. -/
def Passes (c : Constraint) (a : Atom) : Prop :=
  ∀ part ∈ c.conjuncts, part.checkAtom? a = some none

variable {c d merged : Constraint}

theorem passes_iff {a : Atom} : c.Passes a ↔ c.Holds a := by
  simp [Passes, conjuncts, Holds, or_imp, forall_and, Value.ofKind, Value.ofBound, Value.checkAtom?]

theorem conjuncts_eq_nil_iff : c.conjuncts = [] ↔ c.kind = none ∧ c.bounds = [] := by
  simp [conjuncts]

/-- A part stands for a constraint that has no other one. -/
theorem eq_of_conjuncts {part : Value} (h : c.conjuncts = [part]) : .constraint c = part := by
  obtain ⟨kind, bounds⟩ := c
  cases kind with
  | none =>
      obtain ⟨bound, rfl, rfl⟩ := List.map_eq_singleton_iff.mp h
      rfl
  | some kind =>
      obtain ⟨rfl, hbounds⟩ := List.cons_eq_cons.mp h
      obtain rfl := List.map_eq_nil_iff.mp hbounds
      rfl

theorem isMeet_of_mergeKinds {k l m : Option Kind} (h : mergeKinds k l = .ok m) :
    Kind.IsMeet (k.toList ++ l.toList) m := by
  cases k with
  | none =>
      obtain rfl : l = m := Except.ok.inj h
      cases l <;> simp [Kind.IsMeet]
  | some k =>
      cases l with
      | none =>
          obtain rfl : some k = m := Except.ok.inj h
          simp [Kind.IsMeet]
      | some l =>
          simp only [mergeKinds] at h
          split at h
          · rename_i met hmet
            obtain rfl : some met = m := Except.ok.inj h
            refine ⟨List.cons_ne_nil _ _, fun t => ?_⟩
            rw [accepts_meetKinds hmet]
            simp
          · cases h

/-- Of what is asked for something is left. -/
theorem conjuncts_merge_ne_nil (h : c.conjuncts ++ d.conjuncts ≠ [])
    (hmerge : c.merge d = .ok merged) : merged.conjuncts ≠ [] := by
  obtain ⟨hkind, hbounds, -⟩ := merge_eq_ok_iff.mp hmerge
  intro hnil
  obtain ⟨hnone, hempty⟩ := conjuncts_eq_nil_iff.mp hnil
  rw [hnone] at hkind
  obtain ⟨hk, hl⟩ := mergeKinds_eq_ok_none hkind
  rw [hempty, distinctBy_eq_eraseDupsBy] at hbounds
  have hall : c.bounds ++ d.bounds = [] := by
    cases hall : c.bounds ++ d.bounds with
    | nil => rfl
    | cons bound rest => simp [hall, List.eraseDupsBy_cons] at hbounds
  obtain ⟨hc, hd⟩ := List.append_eq_nil_iff.mp hall
  exact h (List.append_eq_nil_iff.mpr
    ⟨conjuncts_eq_nil_iff.mpr ⟨hk, hc⟩, conjuncts_eq_nil_iff.mpr ⟨hl, hd⟩⟩)

/-- **Mergers are in normal form.** Two constraints that ask for something are merged into a single part or
into a conjunction of several: the meet of the kinds, if there are any, and then the bounds without their
repetitions. An atom passes all parts of the merger just if it passes all parts of both constraints. If they
are refused, no atom does. -/
theorem merge_normal (c d : Constraint) (h : c.conjuncts ++ d.conjuncts ≠ []) :
    (∃ merged, c.merge d = .ok merged ∧
      ((∃ part, merged.conjuncts = [part] ∧ .constraint merged = part) ∨
        2 ≤ merged.conjuncts.length) ∧
      (∃ met, Kind.IsMeet (c.kind.toList ++ d.kind.toList) met ∧
        merged.conjuncts = (met.map Value.ofKind).toList ++
          ((c.bounds ++ d.bounds).eraseDupsBy Bound.same).map Value.ofBound) ∧
      (c.WellFormed → d.WellFormed → merged.WellFormed) ∧
      ∀ a, merged.Passes a ↔ c.Passes a ∧ d.Passes a) ∨
    ∃ reason, c.merge d = .error reason ∧ ∀ a, ¬ (c.Passes a ∧ d.Passes a) := by
  cases hmerge : c.merge d with
  | error reason =>
      refine Or.inr ⟨reason, rfl, fun a ⟨hc, hd⟩ => ?_⟩
      obtain ⟨merged, hok⟩ := exists_merge_of_covers (covers_of_holds (passes_iff.mp hc))
        (covers_of_holds (passes_iff.mp hd))
      rw [hmerge] at hok
      cases hok
  | ok merged =>
      obtain ⟨hkind, hbounds, -⟩ := merge_eq_ok_iff.mp hmerge
      refine Or.inl ⟨merged, rfl, ?_, ⟨merged.kind, isMeet_of_mergeKinds hkind, ?_⟩,
        fun hc hd => wellFormed_merge hc hd hmerge, fun a => ?_⟩
      · have hsome := conjuncts_merge_ne_nil h hmerge
        match hparts : merged.conjuncts with
        | [] => exact absurd hparts hsome
        | [part] => exact Or.inl ⟨part, rfl, eq_of_conjuncts hparts⟩
        | _ :: _ :: _ => exact Or.inr (by simp)
      · rw [conjuncts, hbounds, distinctBy_eq_eraseDupsBy]
        simp
      · rw [passes_iff, passes_iff, passes_iff]
        exact holds_merge hmerge a

/-- Numbers from zero on but not `3.0`, with whole numbers below `19/2` from zero on; and with texts. -/
theorem merge_normal_numbers :
    let c : Constraint := ⟨some .number, [.order .ge (.int 0), .ne (.float (.ofInt 3))]⟩
    let d : Constraint :=
      ⟨some .int, [.order .lt (.float (.ofQuotient false 19 2)), .order .ge (.int 0)]⟩
    let e : Constraint := ⟨none, [.pattern true "a+"]⟩
    c.conjuncts ++ d.conjuncts ≠ [] ∧ c.conjuncts ++ e.conjuncts ≠ [] ∧
      c.WellFormed ∧ d.WellFormed ∧
      (∃ merged, c.merge d = .ok merged ∧ merged.WellFormed ∧ merged.conjuncts =
          [.ofKind .int, .ofBound (.order .ge (.int 0)), .ofBound (.ne (.float (.ofInt 3))),
            .ofBound (.order .lt (.float (.ofQuotient false 19 2)))] ∧
        merged.Passes (.int 3) ∧ ¬ merged.Passes (.int 10)) ∧
      ∃ reason, c.merge e = .error reason ∧ ∀ a, ¬ (c.Passes a ∧ e.Passes a) := by
  intro c d e
  have hcd : c.conjuncts ++ d.conjuncts ≠ [] := List.cons_ne_nil _ _
  have hce : c.conjuncts ++ e.conjuncts ≠ [] := List.cons_ne_nil _ _
  have hthree : (Binary64.ofInt 3).IsProper := by decide +kernel
  have hlimit : (Binary64.ofQuotient false 19 2).IsProper := by decide +kernel
  have hc : c.WellFormed := by
    simp [c, wellFormed_iff, Bound.WellFormed, Atom.WellFormed, Atom.isNumber, Kind.Suits,
      Bound.same, hthree]
  have hd : d.WellFormed := by
    simp [d, wellFormed_iff, Bound.WellFormed, Atom.WellFormed, Atom.isNumber, Kind.Suits,
      Bound.same, hlimit]
  refine ⟨hcd, hce, hc, hd, ?_, ?_⟩
  · have hmerged : c.merge d = .ok ⟨some .int, [.order .ge (.int 0), .ne (.float (.ofInt 3)),
        .order .lt (.float (.ofQuotient false 19 2))]⟩ := by rfl
    rcases merge_normal c d hcd with ⟨merged, hok, -, -, hwellFormed, hpasses⟩ | ⟨reason, herror, -⟩
    · obtain rfl := Except.ok.inj (hmerged.symm.trans hok)
      refine ⟨_, hok, hwellFormed hc hd, rfl, ?_, ?_⟩
      · rw [hpasses, passes_iff, passes_iff, ← check_eq_none_iff, ← check_eq_none_iff]
        exact ⟨rfl, rfl⟩
      · rw [hpasses, passes_iff, passes_iff, ← check_eq_none_iff, ← check_eq_none_iff]
        exact fun h => absurd h.2 (by decide +kernel)
    · rw [hmerged] at herror
      cases herror
  · rcases merge_normal c e hce with ⟨merged, hok, -⟩ | hrefused
    · cases hok
    · exact hrefused

end Constraint

end ApiProbe
