import Mathlib.Tactic.Ring
import ApiProbe.Proofs.Number.Rounding

/-!
# Rounding intervals

The quotients that are rounded to one number of the format: those at most half a unit away from it,
or at most a quarter of one below a power of two. The ends belong to the even mantissas.
-/

namespace ApiProbe.Binary64

/-- Where the interval of a number starts, in quarters of a unit below the number. -/
def gapBelow (mantissa : Nat) (exponent : Int) : Nat :=
  if mantissa == twoTo 52 && minExponent < exponent then 1 else 2

theorem gapBelow_le (mantissa : Nat) (exponent : Int) : gapBelow mantissa exponent ≤ 2 := by
  unfold gapBelow
  split <;> omega

theorem gapBelow_pos (mantissa : Nat) (exponent : Int) : 0 < gapBelow mantissa exponent := by
  unfold gapBelow
  split <;> omega

structure RoundsTo (q : ℚ) (mantissa : Nat) (exponent : Int) : Prop where
  lower : (4 * mantissa - gapBelow mantissa exponent : ℚ) * 2 ^ exponent ≤ 4 * q
  upper : 4 * q ≤ (4 * mantissa + 2) * 2 ^ exponent
  odd : mantissa % 2 = 1 →
    (4 * mantissa - gapBelow mantissa exponent : ℚ) * 2 ^ exponent < 4 * q ∧
      4 * q < (4 * mantissa + 2) * 2 ^ exponent

section

variable {numerator denominator mantissa : Nat} {exponent : Int}

/-- The mantissa of a quotient on a grid is the one at most half a unit from it. -/
theorem roundDiv_scale_eq {k : Nat} (hd : 0 < denominator)
    (hlow : (2 * k - 1 : ℚ) * 2 ^ exponent ≤ 2 * (numerator / denominator))
    (hhigh : 2 * (numerator / denominator : ℚ) ≤ (2 * k + 1) * 2 ^ exponent)
    (htie : k % 2 = 1 → (2 * k - 1 : ℚ) * 2 ^ exponent < 2 * (numerator / denominator) ∧
      2 * (numerator / denominator : ℚ) < (2 * k + 1) * 2 ^ exponent) :
    roundDiv (scale numerator denominator exponent).1 (scale numerator denominator exponent).2
      = k := by
  have hscale := @scale_div numerator denominator exponent
  have hpos := @scale_pos numerator denominator exponent hd
  generalize (scale numerator denominator exponent).1 = n at hscale ⊢
  generalize (scale numerator denominator exponent).2 = d at hscale hpos ⊢
  have hunit : (0 : ℚ) < 2 ^ exponent := by positivity
  have hdpos : (0 : ℚ) < d := by exact_mod_cast hpos
  have hq : (numerator / denominator : ℚ) = n / d * 2 ^ exponent := by
    rw [hscale, div_mul_cancel₀ _ hunit.ne']
  rw [hq, ← mul_assoc] at hlow hhigh htie
  rw [mul_le_mul_iff_left₀ hunit, ← mul_div_assoc, le_div_iff₀ hdpos] at hlow
  rw [mul_le_mul_iff_left₀ hunit, ← mul_div_assoc, div_le_iff₀ hdpos] at hhigh
  rw [mul_lt_mul_iff_left₀ hunit, mul_lt_mul_iff_left₀ hunit, ← mul_div_assoc, lt_div_iff₀ hdpos,
    div_lt_iff₀ hdpos] at htie
  refine roundDiv_eq hpos ?_ ?_ fun hend => ?_
  · have : (2 * (k * d) : ℚ) ≤ 2 * n + d := by linarith
    exact_mod_cast this
  · have : (2 * n : ℚ) ≤ 2 * (k * d) + d := by linarith
    exact_mod_cast this
  · by_contra hodd
    obtain ⟨hlt, hgt⟩ := htie (by omega)
    rcases hend with h | h
    · have : (2 * (k * d) : ℚ) = 2 * n + d := by exact_mod_cast h
      linarith
    · have : (2 * n : ℚ) = 2 * (k * d) + d := by exact_mod_cast h
      linarith

theorem two_zpow_add_natCast (exponent : Int) (k : Nat) :
    (2 : ℚ) ^ (exponent + k) = 2 ^ k * 2 ^ exponent := by
  rw [zpow_add₀ (by norm_num), mul_comm, zpow_natCast]

theorem RoundsTo.lt_two_zpow {q : ℚ} (h : RoundsTo q mantissa exponent)
    (hbound : mantissa < mantissaBound) : q < 2 ^ (exponent + 53) := by
  have hmantissa : (mantissa : ℚ) + 1 ≤ 2 ^ 53 := by exact_mod_cast hbound
  have hunit : (0 : ℚ) < 2 ^ exponent := by positivity
  have hpower := two_zpow_add_natCast exponent 53
  have hupper := h.upper
  rw [Nat.cast_ofNat] at hpower
  rw [hpower]
  nlinarith

/-- Only the interval of a power of two reaches below the quotients of its exponent, by a quarter of a
unit. -/
theorem RoundsTo.below_power {q : ℚ} (h : RoundsTo q mantissa exponent) (hge : 2 ^ 52 ≤ mantissa)
    (hmin : minExponent < exponent) (hlt : q < 2 ^ (exponent + 52)) :
    mantissa = 2 ^ 52 ∧ (4 * 2 ^ 52 - 1) * 2 ^ exponent ≤ 4 * q := by
  have hunit : (0 : ℚ) < 2 ^ exponent := by positivity
  have hgap : (gapBelow mantissa exponent : ℚ) ≤ 2 := by exact_mod_cast gapBelow_le ..
  have hpower := two_zpow_add_natCast exponent 52
  have hlower := h.lower
  rw [Nat.cast_ofNat] at hpower
  rw [hpower] at hlt
  obtain rfl : mantissa = 2 ^ 52 := by
    by_contra hmore
    have hmore' : 2 ^ 52 + 1 ≤ mantissa := by omega
    have hcast : (2 : ℚ) ^ 52 + 1 ≤ mantissa := by exact_mod_cast hmore'
    nlinarith
  have hone : gapBelow (2 ^ 52) exponent = 1 := by
    rw [gapBelow, if_pos]
    simp [hmin]
  rw [hone] at hlower
  push_cast at hlower
  exact ⟨rfl, hlower⟩

/-- Below a power of two the grid is twice as fine, and what is close to the power is rounded up to
it. -/
theorem ofQuotient_eq_power {negative : Bool} (hn : numerator ≠ 0) (hd : 0 < denominator)
    (hmin : minExponent < exponent) (hmax : exponent ≤ maxExponent)
    (hlow : (4 * 2 ^ 52 - 1) * 2 ^ exponent ≤ 4 * (numerator / denominator : ℚ))
    (hlt : (numerator / denominator : ℚ) < 2 ^ (exponent + 52)) :
    ofQuotient negative numerator denominator = .finite negative (2 ^ 52) exponent := by
  have hspec := exponentFor_spec (Nat.pos_of_ne_zero hn) hd
  rw [ofQuotient, if_neg hn]
  generalize exponentFor numerator denominator = found at hspec ⊢
  dsimp only
  have hhalf : (2 : ℚ) ^ exponent = 2 * 2 ^ (exponent - 1) := by
    rw [zpow_sub_one₀ (by norm_num)]
    ring
  have hhalfpos : (0 : ℚ) < 2 ^ (exponent - 1) := by positivity
  have hpower := two_zpow_add_natCast exponent 52
  rw [Nat.cast_ofNat] at hpower
  obtain rfl : found = exponent - 1 := by
    refine hspec.unique ⟨by omega, ?_, Or.inr ?_⟩
    · rw [show exponent - 1 + 53 = exponent + 52 by omega]
      exact hlt
    · rw [zpow_add₀ (by norm_num), show ((2 : ℚ) ^ (52 : Int)) = 2 ^ 52 by norm_num]
      rw [hhalf] at hlow
      nlinarith
  have hround : roundDiv (scale numerator denominator (exponent - 1)).1
      (scale numerator denominator (exponent - 1)).2 = mantissaBound := by
    have hcast : ((mantissaBound : Nat) : ℚ) = 2 ^ 53 := by norm_num [mantissaBound]
    rw [hpower, hhalf] at hlt
    rw [hhalf] at hlow
    refine roundDiv_scale_eq hd ?_ ?_ fun hodd => absurd hodd (by decide)
    · rw [hcast]
      nlinarith
    · rw [hcast]
      nlinarith
  rw [hround, if_neg (Nat.lt_irrefl _), Int.sub_add_cancel, if_pos hmax]
  rfl

/-- A quotient is rounded to the number in whose interval it lies. -/
theorem ofQuotient_eq {negative : Bool} (hn : numerator ≠ 0) (hd : 0 < denominator)
    (hproper : (finite negative mantissa exponent).IsProper)
    (h : RoundsTo (numerator / denominator) mantissa exponent) :
    ofQuotient negative numerator denominator = .finite negative mantissa exponent := by
  obtain ⟨hbound, hleast, hmax, hnormal⟩ := hproper
  by_cases habove : exponent = minExponent ∨ (2 : ℚ) ^ (exponent + 52) ≤ numerator / denominator
  · have hspec := exponentFor_spec (Nat.pos_of_ne_zero hn) hd
    rw [ofQuotient, if_neg hn]
    generalize exponentFor numerator denominator = found at hspec ⊢
    dsimp only
    have hbelow := h.lt_two_zpow hbound
    obtain rfl : found = exponent := hspec.unique ⟨hleast, hbelow, habove⟩
    have hunit : (0 : ℚ) < 2 ^ found := by positivity
    have hgap : (gapBelow mantissa found : ℚ) ≤ 2 := by exact_mod_cast gapBelow_le ..
    have hround : roundDiv (scale numerator denominator found).1
        (scale numerator denominator found).2 = mantissa := by
      refine roundDiv_scale_eq hd ?_ ?_ fun hodd => ⟨?_, ?_⟩
      · have := h.lower
        nlinarith
      · have := h.upper
        nlinarith
      · have := (h.odd hodd).1
        nlinarith
      · have := (h.odd hodd).2
        nlinarith
    rw [hround, if_pos hbound, if_pos hmax]
  · rw [not_or, not_le] at habove
    obtain ⟨hne, hlt⟩ := habove
    have hmin : minExponent < exponent := lt_of_le_of_ne hleast (Ne.symm hne)
    obtain ⟨rfl, hlow⟩ := h.below_power (hnormal.resolve_right hne) hmin hlt
    exact ofQuotient_eq_power hn hd hmin hmax hlow hlt

end

end ApiProbe.Binary64
