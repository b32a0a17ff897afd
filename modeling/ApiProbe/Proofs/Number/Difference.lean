import ApiProbe.Proofs.Number.Rounding

/-!
# The sign of a difference

Every number of the format is a whole number of least units, and so is every sum of two of them. A
sum that is not zero is therefore not rounded to zero, and a difference has the sign that the order of
its terms tells.
-/

namespace ApiProbe.Binary64

section Sign

variable {negative : Bool} {numerator denominator mantissa magnitude : Nat} {exponent : Int}

theorem compare?_finite_zero (h : 0 < mantissa) :
    (finite negative mantissa exponent).compare? (zero false)
      = some (if negative then .lt else .gt) := by
  have hzero : exact false 0 minExponent = 0 := by simp [exact, signed]
  have hpos : (0 : ℚ) < mantissa * 2 ^ exponent := by positivity
  rw [compare?_eq, zero]
  simp only [magnitude?, Option.bind_some, Option.map_some, hzero, Magnitude.compare_ofRat]
  cases negative with
  | false =>
      refine congrArg some (compare_gt_iff_gt.mpr ?_)
      simpa [exact, signed] using hpos
  | true =>
      refine congrArg some (compare_lt_iff_lt.mpr ?_)
      simpa [exact, signed] using hpos

theorem compare?_infinite_zero :
    (infinite negative).compare? (zero false) = some (if negative then .lt else .gt) := rfl

/-- A quotient of at least the least unit is not rounded to zero. -/
theorem compare?_ofQuotient_zero (hd : 0 < denominator)
    (hle : (2 : ℚ) ^ minExponent ≤ numerator / denominator) :
    (ofQuotient negative numerator denominator).compare? (zero false)
      = some (if negative then .lt else .gt) := by
  have hn : numerator ≠ 0 := by
    rintro rfl
    rw [Nat.cast_zero, zero_div] at hle
    exact absurd hle (not_le.mpr (by positivity))
  have hspec := exponentFor_spec (Nat.pos_of_ne_zero hn) hd
  rw [ofQuotient, if_neg hn]
  generalize exponentFor numerator denominator = found at hspec ⊢
  have hunit : (2 : ℚ) ^ found ≤ numerator / denominator := by
    rcases hspec.above with rfl | habove
    · exact hle
    · exact (zpow_le_zpow_right₀ (by norm_num) (by omega)).trans habove
  have hfloor : 1 ≤ (scale numerator denominator found).1 / (scale numerator denominator found).2 := by
    by_contra hzero
    have hlt := (scale_floor_lt_iff (k := 1) hd).mp (not_le.mp hzero)
    rw [Nat.cast_one, one_mul] at hlt
    exact absurd hunit (not_le.mpr hlt)
  have hmantissa := hfloor.trans (div_le_roundDiv _ _)
  dsimp only
  split
  · split
    · exact compare?_finite_zero hmantissa
    · exact compare?_infinite_zero
  · rename_i hcarry
    split
    · refine compare?_finite_zero (Nat.div_pos ?_ two_pos)
      exact le_trans (by decide) (not_lt.mp hcarry)
    · exact compare?_infinite_zero

theorem compare?_ofScaled_zero (hm : 0 < magnitude) (he : minExponent ≤ exponent) :
    (ofScaled negative magnitude exponent).compare? (zero false)
      = some (if negative then .lt else .gt) := by
  have hone : (1 : ℚ) ≤ magnitude := by exact_mod_cast hm
  have hleast : (2 : ℚ) ^ minExponent ≤ 2 ^ exponent := zpow_le_zpow_right₀ (by norm_num) he
  have hunits : (2 : ℚ) ^ minExponent ≤ magnitude * 2 ^ exponent :=
    hleast.trans (le_mul_of_one_le_left (by positivity) hone)
  unfold ofScaled
  split
  · rename_i hnonneg
    refine compare?_ofQuotient_zero Nat.one_pos ?_
    rw [Nat.cast_mul, natCast_twoTo_toNat hnonneg, Nat.cast_one, div_one]
    exact hunits
  · rename_i hneg
    refine compare?_ofQuotient_zero (twoTo_pos _) ?_
    rw [natCast_twoTo_toNat (by omega), zpow_neg, div_inv_eq_mul]
    exact hunits

/-- A number of units keeps its sign when it is rounded. -/
theorem compare?_rounded_zero (sum : Int) (he : minExponent ≤ exponent) :
    (if sum = 0 then zero negative else ofScaled (sum < 0) sum.natAbs exponent).compare? (zero false)
      = some (compare sum 0) := by
  split
  · rename_i hzero
    rw [hzero]
    cases negative <;> rfl
  · rename_i hsum
    rw [compare?_ofScaled_zero (Int.natAbs_pos.mpr hsum) he]
    rcases lt_or_gt_of_ne hsum with hneg | hpos
    · simp [hneg, compare_lt_iff_lt.mpr hneg]
    · simp [hpos.not_gt, compare_gt_iff_gt.mpr hpos]

end Sign

theorem units_not (negative : Bool) (mantissa : Nat) (exponent unit : Int) :
    units (!negative) mantissa exponent unit = -units negative mantissa exponent unit := by
  cases negative <;> simp [units, signed]

/-- A difference is to zero as its terms are to each other. -/
theorem compare?_sub_zero {x y : Binary64} (hx : x.InFormat) (hy : y.IsProper) :
    (x.sub y).compare? (zero false) = x.compare? y := by
  cases y with
  | nan => cases hy
  | infinite t => cases hy
  | finite t n f =>
      cases x with
      | nan => rfl
      | infinite s => cases s <;> rfl
      | finite s m e =>
          have hunit : minExponent ≤ min e f := le_min (hx rfl).2.1 hy.2.1
          refine (compare?_rounded_zero _ hunit).trans (congrArg some ?_)
          rw [units_not]
          exact compare_eq_compare (by omega) (by omega)

theorem ofQuotient_ne_nan (negative : Bool) (numerator denominator : Nat) :
    ofQuotient negative numerator denominator ≠ .nan := by
  unfold ofQuotient
  split
  · nofun
  · dsimp only
    split <;> split <;> nofun

theorem add_ne_nan {x y : Binary64} (hx : x.IsProper) (hy : y ≠ .nan) : x.add y ≠ .nan := by
  cases x with
  | nan => cases hx
  | infinite s => cases hx
  | finite s m e =>
      cases y with
      | nan => exact absurd rfl hy
      | infinite t => nofun
      | finite t n f =>
          simp only [add, ofScaled]
          split
          · nofun
          · split <;> exact ofQuotient_ne_nan _ _ _

end ApiProbe.Binary64
