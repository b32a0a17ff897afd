import ApiProbe.Proofs.Expr.Operation
import ApiProbe.Proofs.Unify.Parts

/-!
# Limits and comparisons

A sign in front of a limit asks of an atom what the comparison of the atom with the limit says. The two
part on equality alone: a comparison has a whole number equal to a float of its value, a limit tells
them apart by their kinds.
-/

namespace ApiProbe

open ApiProbe.Expr
open Value (ofBound unify Clashes)

/-- Numbers of one value and of different kinds. -/
def Atom.Twins (a b : Atom) : Prop :=
  a.isNumber = true ∧ b.isNumber = true ∧ a.kind ≠ b.kind ∧ a.compare? b = some .eq

namespace Expr

variable {test : Test} {x y : Atom} {bound : Bound}

theorem same_of_compare? (hx : x.isNumber = true) (hy : y.isNumber = true) (hkind : x.kind = y.kind)
    (h : x.compare? y = some .eq) : x.same y = true := by
  cases x <;> cases y <;> cases hkind <;> cases hx <;> cases hy
  case int m n =>
    obtain rfl : m = n := compare_eq_iff_eq.mp (Option.some.inj h)
    exact beq_self_eq_true m
  case float m n =>
    exact beq_iff_eq.mpr h

theorem equal_iff : equal x y = true ↔ x.same y = true ∨ x.Twins y := by
  rw [equal, Bool.or_eq_true, Bool.and_eq_true, Bool.and_eq_true, beq_iff_eq]
  constructor
  · rintro (hsame | ⟨⟨hx, hy⟩, hcompare⟩)
    · exact Or.inl hsame
    · by_cases hkind : x.kind = y.kind
      · exact Or.inl (same_of_compare? hx hy hkind hcompare)
      · exact Or.inr ⟨hx, hy, hkind, hcompare⟩
  · rintro (hsame | ⟨hx, hy, -, hcompare⟩)
    · exact Or.inl hsame
    · exact Or.inr ⟨⟨hx, hy⟩, hcompare⟩

theorem same_eq_false_iff : x.same y = false ↔ equal x y = false ∨ x.Twins y := by
  constructor
  · intro hsame
    by_cases hequal : equal x y = true
    · rcases equal_iff.mp hequal with h | htwins
      · rw [hsame] at h
        cases h
      · exact Or.inr htwins
    · exact Or.inl (Bool.eq_false_iff.mpr hequal)
  · rintro (hequal | htwins)
    · rw [Bool.eq_false_iff] at hequal ⊢
      exact fun hsame => hequal (equal_iff.mpr (Or.inl hsame))
    · rw [Bool.eq_false_iff]
      exact fun hsame => htwins.2.2.1 (Atom.kind_eq_of_same hsame)

/-- The bounds that limits are asked to keep. -/
theorem boundBy_eq_ok (h : boundBy test y = .ok bound) :
    (test = .ne ∧ bound = .ne y) ∨ (∃ o, test = .order o ∧ bound = .order o y) ∨
      ∃ wanted source, test = .pattern wanted ∧ y = .string source ∧
        checkPattern source = .ok () ∧ bound = .pattern wanted source := by
  cases test with
  | eq => exact absurd h refuse_ne_ok
  | ne => exact Or.inl ⟨rfl, (Except.ok.inj h).symm⟩
  | order o =>
      rw [boundBy] at h
      split at h
      · exact Or.inr (Or.inl ⟨o, rfl, (Except.ok.inj h).symm⟩)
      · exact absurd h refuse_ne_ok
  | pattern wanted =>
      cases y with
      | string source =>
          obtain ⟨_, hpattern, h⟩ := bind_eq_ok_iff.mp h
          exact Or.inr (Or.inr ⟨wanted, source, rfl, rfl, hpattern, (Except.ok.inj h).symm⟩)
      | _ => exact absurd h refuse_ne_ok

/-- An atom keeps a bound where the comparison says so, and where only its kind differs from a number
that it is not to be. -/
theorem check_eq_none_iff_of_testAtoms (h : boundBy test y = .ok bound) {truth : Bool}
    (htruth : testAtoms test x y = .ok truth) :
    bound.check x = none ↔ truth = true ∨ (test = .ne ∧ x.Twins y) := by
  rcases boundBy_eq_ok h with ⟨rfl, rfl⟩ | ⟨o, rfl, rfl⟩ | ⟨wanted, source, rfl, rfl, hpattern, rfl⟩
  · obtain rfl := Except.ok.inj htruth
    have hcheck : (Bound.ne y).check x = none ↔ x.same y = false := by
      rw [Bound.check]
      split <;> simp_all
    rw [hcheck, same_eq_false_iff]
    simp
  · rw [testAtoms] at htruth
    split at htruth
    · rename_i hcomparable
      obtain rfl := Except.ok.inj htruth
      rw [Bound.check, hcomparable]
      cases o.holds x y <;> simp
    · exact absurd htruth refuse_ne_ok
  · cases x with
    | string text =>
        rw [testAtoms, hpattern] at htruth
        obtain rfl := Except.ok.inj htruth
        rw [Bound.check]
        split <;> simp_all
    | _ => exact absurd htruth refuse_ne_ok

/-- An atom that a limit cannot be compared with is refused for its kind. -/
theorem check_of_refused (h : boundBy test y = .ok bound) {refusal : Refusal}
    (hrefused : testAtoms test x y = .error (.refused refusal)) :
    ∃ wanted, bound.check x = some (.incomparable x wanted) ∧ x.printable = true := by
  rcases boundBy_eq_ok h with ⟨rfl, rfl⟩ | ⟨o, rfl, rfl⟩ | ⟨wanted, source, rfl, rfl, hpattern, rfl⟩
  · cases hrefused
  · rw [testAtoms] at hrefused
    split at hrefused
    · cases hrefused
    · rename_i hcomparable
      have hwords := refuse_eq_refused hrefused
      rw [Refusal.printable, Bool.and_eq_true] at hwords
      refine ⟨y.kind, ?_, hwords.1⟩
      rw [Bound.check, if_pos (by simpa using hcomparable)]
  · cases x with
    | string text =>
        rw [testAtoms, hpattern] at hrefused
        cases hrefused
    | _ =>
        have hwords := refuse_eq_refused hrefused
        rw [Refusal.printable, Bool.and_eq_true] at hwords
        exact ⟨.string, rfl, hwords.1⟩

theorem compare_atoms (test : Test) (x y : Atom) :
    compare test (.atom x) (.atom y) = (testAtoms test x y).map fun truth => .atom (.bool truth) := by
  change testAtoms test x y >>= _ = _
  cases testAtoms test x y <;> rfl

theorem bound_eq_ok {limit : Value} (h : Expr.bound test (.atom y) = .ok limit) :
    ∃ bound, boundBy test y = .ok bound ∧ ofBound bound = limit := by
  unfold Expr.bound at h
  split at h
  · exact absurd h refuse_ne_ok
  · obtain ⟨a, ha, h⟩ := bind_eq_ok_iff.mp h
    obtain rfl : y = a := Except.ok.inj ha
    obtain ⟨bound, hbound, h⟩ := bind_eq_ok_iff.mp h
    exact ⟨bound, hbound, Except.ok.inj h⟩

theorem exists_unify_ofBound_iff :
    (∃ r, unify (.atom x) (ofBound bound) = .ok r) ↔ bound.check x = none := by
  rw [ofBound, Value.unify_atom_constraint]
  simp [Value.restrict_eq_ok_iff, Constraint.Holds]

theorem clashes_ofBound {wanted : AtomKind} (h : bound.check x = some (.incomparable x wanted))
    (hx : x.printable = true) : Clashes (.atom x) (ofBound bound) := by
  have hcheck : Constraint.check ⟨none, [bound]⟩ x = some (.incomparable x wanted) := by
    simp [Constraint.check, h]
  rw [Clashes, ofBound, Value.unify_atom_constraint, Value.restrict, hcheck]
  exact ⟨_, congrArg Except.error (if_pos hx)⟩

/-- **Limits and comparisons.** Where a comparison of an atom with a limit has a truth value, the atom
has a value in common with the limit just if it is true, or if the atom is not to be a number of its own
value and of another kind. Where the comparison is refused, so is the common value. -/
theorem unify_limit {limit : Value} (h : Expr.bound test (.atom y) = .ok limit) :
    (∀ truth, compare test (.atom x) (.atom y) = .ok (.atom (.bool truth)) →
      ((∃ r, unify (.atom x) limit = .ok r) ↔ truth = true ∨ (test = .ne ∧ x.Twins y))) ∧
      ∀ refusal, compare test (.atom x) (.atom y) = .error (.refused refusal) →
        Clashes (.atom x) limit := by
  obtain ⟨bound, hbound, rfl⟩ := bound_eq_ok h
  constructor
  · intro truth htruth
    rw [compare_atoms, map_eq_ok_iff] at htruth
    obtain ⟨truth', htest, heq⟩ := htruth
    obtain rfl : truth' = truth := by simpa using heq
    rw [exists_unify_ofBound_iff, check_eq_none_iff_of_testAtoms hbound htest]
  · intro refusal hrefusal
    rw [compare_atoms, map_eq_error_iff] at hrefusal
    obtain ⟨wanted, hcheck, hx⟩ := check_of_refused hbound hrefusal
    exact clashes_ofBound hcheck hx

/-- Prices of at most 2.5: a whole number and a float are compared by value, a string is refused. -/
theorem unify_limit_prices :
    let limit : Atom := .float (.finite false 5629499534213120 (-51))
    let bound := ofBound (.order .le limit)
    Expr.bound (.order .le) (.atom limit) = .ok bound ∧
      (∃ r, unify (.atom (.int 2)) bound = .ok r) ∧ (¬ ∃ r, unify (.atom (.int 3)) bound = .ok r) ∧
      Clashes (.atom (.string "2")) bound := by
  intro limit bound
  have hbound : Expr.bound (.order .le) (.atom limit) = .ok bound := rfl
  have htwo := (@unify_limit _ (.int 2) _ _ hbound).1 true rfl
  have hthree := (@unify_limit _ (.int 3) _ _ hbound).1 false rfl
  refine ⟨hbound, htwo.mpr (Or.inl rfl), ?_, (@unify_limit _ (.string "2") _ _ hbound).2 _ rfl⟩
  rw [hthree]
  simp

/-- The whole number 1 keeps the limit `!=1.0`, although `1 != 1.0` is false. -/
theorem unify_limit_twins :
    let one : Atom := .float (.finite false 4503599627370496 (-52))
    let limit := ofBound (.ne one)
    Expr.bound .ne (.atom one) = .ok limit ∧
      compare .ne (.atom (.int 1)) (.atom one) = .ok (.atom (.bool false)) ∧
      unify (.atom (.int 1)) limit = .ok (.atom (.int 1)) :=
  ⟨rfl, rfl, rfl⟩

end Expr

end ApiProbe
