import ApiProbe.Number.Numeral
import ApiProbe.Proofs.Number.Comparison
import ApiProbe.Proofs.Number.Proper
import Mathlib.Tactic.FieldSimp
import Mathlib.Tactic.NormNum

/-!
# Rounding

A quotient is rounded on the grid whose exponent gives it a mantissa of 53 bits, or on the finest grid
there is. The exponent is determined by the binade the quotient lies in and the mantissa by the grid
point nearest to it, so a quotient is rounded to every number in whose rounding interval it lies.
-/

namespace ApiProbe.Binary64

theorem mantissaBound_eq : (mantissaBound : ℚ) = 2 ^ (53 : Int) := by
  norm_num [mantissaBound]

section Scale

variable {numerator denominator : Nat}

theorem scale_pos (exponent : Int) (hd : 0 < denominator) :
    0 < (scale numerator denominator exponent).2 := by
  unfold scale
  split
  · exact Nat.mul_pos hd (Nat.pow_pos (by norm_num))
  · exact hd

theorem natCast_twoTo_toNat {n : Int} (hn : 0 ≤ n) : ((twoTo n.toNat : Nat) : ℚ) = 2 ^ n := by
  rw [twoTo, Nat.pow_eq, Nat.cast_pow, Nat.cast_ofNat, ← zpow_natCast, Int.toNat_of_nonneg hn]

theorem scale_div (exponent : Int) :
    ((scale numerator denominator exponent).1 : ℚ) / (scale numerator denominator exponent).2
      = numerator / denominator / 2 ^ exponent := by
  unfold scale
  split
  · rename_i hexponent
    rw [Nat.cast_mul, natCast_twoTo_toNat hexponent, div_div]
  · rename_i hexponent
    rw [Nat.cast_mul, natCast_twoTo_toNat (by omega), zpow_neg]
    field_simp

/-- How large the whole part of a scaled quotient is. -/
theorem scale_floor_lt_iff {exponent : Int} {k : Nat} (hd : 0 < denominator) :
    (scale numerator denominator exponent).1 / (scale numerator denominator exponent).2 < k ↔
      (numerator / denominator : ℚ) < k * 2 ^ exponent := by
  have hpos : (0 : ℚ) < (scale numerator denominator exponent).2 := by
    exact_mod_cast scale_pos exponent hd
  rw [Nat.div_lt_iff_lt_mul (scale_pos exponent hd), ← div_lt_iff₀ (by positivity),
    ← scale_div, div_lt_iff₀ hpos]
  exact_mod_cast Iff.rfl

end Scale

section Exponent

variable {numerator denominator : Nat}

theorem two_zpow_log2_le (hn : 0 < numerator) : (2 : ℚ) ^ (Nat.log2 numerator : Int) ≤ numerator := by
  rw [zpow_natCast]
  exact_mod_cast Nat.log2_self_le hn.ne'

theorem lt_two_zpow_log2 (n : Nat) : (n : ℚ) < 2 ^ ((Nat.log2 n : Int) + 1) := by
  have hlt : n < 2 ^ (Nat.log2 n + 1) := Nat.lt_log2_self
  rw [show (Nat.log2 n : Int) + 1 = ((Nat.log2 n + 1 : Nat) : Int) by push_cast; rfl, zpow_natCast]
  exact_mod_cast hlt

/-- The binary logarithms of a quotient's terms tell its binade up to one. -/
theorem div_mem_binades (hn : 0 < numerator) (hd : 0 < denominator) :
    (2 : ℚ) ^ ((Nat.log2 numerator : Int) - Nat.log2 denominator - 1)
        ≤ numerator / denominator ∧
      (numerator / denominator : ℚ)
        < 2 ^ ((Nat.log2 numerator : Int) - Nat.log2 denominator + 1) := by
  have hpos : (0 : ℚ) < denominator := by exact_mod_cast hd
  constructor
  · rw [le_div_iff₀ hpos]
    calc (2 : ℚ) ^ ((Nat.log2 numerator : Int) - Nat.log2 denominator - 1) * denominator
        ≤ 2 ^ ((Nat.log2 numerator : Int) - Nat.log2 denominator - 1)
            * 2 ^ ((Nat.log2 denominator : Int) + 1) :=
          mul_le_mul_of_nonneg_left (lt_two_zpow_log2 denominator).le (by positivity)
      _ = 2 ^ (Nat.log2 numerator : Int) := by
          rw [← zpow_add₀ (by norm_num)]
          congr 1
          omega
      _ ≤ numerator := two_zpow_log2_le hn
  · rw [div_lt_iff₀ hpos]
    calc (numerator : ℚ) < 2 ^ ((Nat.log2 numerator : Int) + 1) := lt_two_zpow_log2 numerator
      _ = 2 ^ ((Nat.log2 numerator : Int) - Nat.log2 denominator + 1)
            * 2 ^ (Nat.log2 denominator : Int) := by
          rw [← zpow_add₀ (by norm_num)]
          congr 1
          omega
      _ ≤ 2 ^ ((Nat.log2 numerator : Int) - Nat.log2 denominator + 1) * denominator :=
          mul_le_mul_of_nonneg_left (two_zpow_log2_le hd) (by positivity)

/-- The exponent for a quotient is the least one, or the one of the quotient's binade. -/
structure IsExponentFor (q : ℚ) (exponent : Int) : Prop where
  least : minExponent ≤ exponent
  below : q < 2 ^ (exponent + 53)
  above : exponent = minExponent ∨ 2 ^ (exponent + 52) ≤ q

theorem exponentFor_spec (hn : 0 < numerator) (hd : 0 < denominator) :
    IsExponentFor (numerator / denominator) (exponentFor numerator denominator) := by
  obtain ⟨hlow, hhigh⟩ := div_mem_binades hn hd
  set q : ℚ := numerator / denominator with hq
  set guess : Int := (Nat.log2 numerator : Int) - Nat.log2 denominator - 53 with hguess
  have hfloor : (scale numerator denominator guess).1 / (scale numerator denominator guess).2
      < mantissaBound ↔ q < 2 ^ (guess + 53) := by
    rw [scale_floor_lt_iff hd, mantissaBound_eq, ← zpow_add₀ (by norm_num), add_comm]
  have hmono {a b : Int} (hab : a ≤ b) : (2 : ℚ) ^ a ≤ 2 ^ b := zpow_le_zpow_right₀ (by norm_num) hab
  obtain ⟨found, heq, hbelow, habove⟩ : ∃ found : Int,
      exponentFor numerator denominator = max minExponent found ∧
        q < 2 ^ (found + 53) ∧ 2 ^ (found + 52) ≤ q := by
    by_cases hlt : q < 2 ^ (guess + 53)
    · refine ⟨guess, ?_, hlt, (hmono (by omega)).trans hlow⟩
      rw [exponentFor, ← hguess]
      simp only [if_pos (hfloor.mpr hlt)]
    · refine ⟨guess + 1, ?_, hhigh.trans_le (hmono (by omega)), ?_⟩
      · rw [exponentFor, ← hguess]
        simp only [if_neg (mt hfloor.mp hlt)]
      · exact (hmono (by omega)).trans (not_lt.mp hlt)
  rw [heq]
  refine ⟨le_max_left _ _, hbelow.trans_le (hmono (by omega)), ?_⟩
  rcases le_total found minExponent with h | h
  · exact Or.inl (max_eq_left h)
  · exact Or.inr ((max_eq_right h).symm ▸ habove)

theorem IsExponentFor.unique {q : ℚ} {e f : Int} (he : IsExponentFor q e) (hf : IsExponentFor q f) :
    e = f := by
  have hle {a b : Int} (ha : IsExponentFor q a) (hb : IsExponentFor q b) : a ≤ b := by
    by_contra hlt
    rcases ha.above with hmin | habove
    · have := hb.least
      omega
    · have hpow : (2 : ℚ) ^ (b + 53) ≤ 2 ^ (a + 52) := zpow_le_zpow_right₀ (by norm_num) (by omega)
      exact absurd hb.below (not_lt.mpr (hpow.trans habove))
  exact le_antisymm (hle he hf) (hle hf he)

end Exponent

/-- A quotient is rounded to the whole number at most a half from it, an even one if just a half. -/
theorem roundDiv_eq {n d k : Nat} (hd : 0 < d) (hlow : 2 * (k * d) ≤ 2 * n + d)
    (hhigh : 2 * n ≤ 2 * (k * d) + d)
    (htie : 2 * (k * d) = 2 * n + d ∨ 2 * n = 2 * (k * d) + d → k % 2 = 0) : roundDiv n d = k := by
  have hdivision : n = n / d * d + n % d := by rw [Nat.div_add_mod']
  have hrest := Nat.mod_lt n hd
  unfold roundDiv
  generalize n / d = quotient at hdivision ⊢
  generalize n % d = rest at hdivision hrest ⊢
  have hle : quotient ≤ k := by
    by_contra hlt
    have hmul : (k + 1) * d ≤ quotient * d := Nat.mul_le_mul_right d (by omega)
    rw [Nat.succ_mul] at hmul
    omega
  have hge : k ≤ quotient + 1 := by
    by_contra hlt
    have hmul : (quotient + 2) * d ≤ k * d := Nat.mul_le_mul_right d (by omega)
    rw [Nat.add_mul] at hmul
    omega
  obtain rfl | rfl : k = quotient ∨ k = quotient + 1 := by omega
  · -- The whole part is nearest: the rest is at most half of the denominator.
    have hhalf : 2 * rest ≤ d := by omega
    rcases hhalf.lt_or_eq with hlt | heq
    · simp [hlt]
    · have heven : k % 2 = 0 := htie (Or.inr (by omega))
      simp [heq, heven]
  · rw [Nat.add_mul, Nat.one_mul] at hlow hhigh htie
    have hhalf : d ≤ 2 * rest := by omega
    rcases hhalf.lt_or_eq with hlt | heq
    · simp [hlt, hlt.not_gt]
    · have hodd : quotient % 2 = 1 := by
        have := htie (Or.inl (by omega))
        omega
      simp [← heq, hodd]

theorem div_le_roundDiv (n d : Nat) : n / d ≤ roundDiv n d := by
  rw [roundDiv]
  split
  · rfl
  · split
    · exact Nat.le_succ _
    · split
      · rfl
      · exact Nat.le_succ _

theorem roundDiv_le (n d : Nat) : roundDiv n d ≤ n / d + 1 := by
  rw [roundDiv]
  split
  · exact Nat.le_succ _
  · split
    · rfl
    · split
      · exact Nat.le_succ _
      · rfl

theorem ofQuotient_inFormat (negative : Bool) (numerator : Nat) {denominator : Nat}
    (hd : 0 < denominator) : (ofQuotient negative numerator denominator).InFormat := by
  unfold ofQuotient
  split
  · intro _
    exact zero_isProper negative
  · rename_i hzero
    have hn : 0 < numerator := Nat.pos_of_ne_zero hzero
    have hspec := exponentFor_spec hn hd
    generalize exponentFor numerator denominator = exponent at hspec ⊢
    have hbelow : (scale numerator denominator exponent).1
        / (scale numerator denominator exponent).2 < mantissaBound := by
      rw [scale_floor_lt_iff hd, mantissaBound_eq, ← zpow_add₀ (by norm_num), add_comm]
      exact hspec.below
    have habove : exponent = minExponent ∨ twoTo 52 ≤ (scale numerator denominator exponent).1
        / (scale numerator denominator exponent).2 := by
      refine hspec.above.imp_right fun h => not_lt.mp fun hlt => ?_
      rw [scale_floor_lt_iff hd] at hlt
      refine absurd hlt (not_lt.mpr ?_)
      calc ((twoTo 52 : Nat) : ℚ) * 2 ^ exponent = 2 ^ (exponent + 52) := by
            rw [zpow_add₀ (by norm_num)]
            norm_num [mul_comm]
        _ ≤ numerator / denominator := h
    have hround := div_le_roundDiv (scale numerator denominator exponent).1
      (scale numerator denominator exponent).2
    have hround' := roundDiv_le (scale numerator denominator exponent).1
      (scale numerator denominator exponent).2
    dsimp only
    split
    · rename_i hmantissa
      split
      · rename_i hmax
        refine fun _ => ⟨hmantissa, hspec.least, hmax, ?_⟩
        exact habove.symm.imp_left fun h => h.trans hround
      · exact nofun
    · rename_i hmantissa
      split
      · rename_i hmax
        have heq : roundDiv (scale numerator denominator exponent).1
            (scale numerator denominator exponent).2 = mantissaBound := by omega
        rw [heq]
        refine fun _ => ⟨by decide, ?_, hmax, Or.inl (by decide)⟩
        have := hspec.least
        omega
      · exact nofun

theorem twoTo_pos (n : Nat) : 0 < twoTo n :=
  Nat.pow_pos (by norm_num)

theorem tenTo_pos (n : Nat) : 0 < tenTo n :=
  Nat.pow_pos (by norm_num)

theorem ofScaled_inFormat (negative : Bool) (magnitude : Nat) (exponent : Int) :
    (ofScaled negative magnitude exponent).InFormat := by
  unfold ofScaled
  split
  · exact ofQuotient_inFormat negative _ Nat.one_pos
  · exact ofQuotient_inFormat negative _ (twoTo_pos _)

theorem neg_inFormat {x : Binary64} (h : x.InFormat) : x.neg.InFormat := by
  cases x with
  | finite negative mantissa exponent => exact fun _ => h rfl
  | infinite negative => exact nofun
  | nan => exact nofun

theorem add_inFormat (x y : Binary64) : (x.add y).InFormat := by
  rw [add.eq_def]
  split
  · dsimp only
    split
    · intro _
      exact zero_isProper _
    · exact ofScaled_inFormat _ _ _
  · split <;> exact nofun
  all_goals exact nofun

theorem sub_inFormat (x y : Binary64) : (x.sub y).InFormat :=
  add_inFormat x y.neg

theorem mul_inFormat (x y : Binary64) : (x.mul y).InFormat := by
  rw [mul.eq_def]
  split
  · exact ofScaled_inFormat _ _ _
  · exact nofun
  · split <;> exact nofun
  · split <;> exact nofun
  · exact nofun

theorem div_inFormat (x y : Binary64) : (x.div y).InFormat := by
  rw [div.eq_def]
  split
  · split
    · split <;> exact nofun
    · rename_i hzero
      exact ofQuotient_inFormat _ _ (scale_pos _ (Nat.pos_of_ne_zero hzero))
  · exact nofun
  · exact nofun
  · intro _
    exact zero_isProper _
  · exact nofun

end ApiProbe.Binary64

namespace ApiProbe.Numeral

open Binary64

/-- A numeral stands for a number of the format, or for one that is not finite. -/
theorem ofDecimal_inFormat (negative : Bool) (digits : List Char) (place : Int) :
    (ofDecimal negative digits place).InFormat := by
  unfold ofDecimal
  dsimp only
  split
  · intro _
    exact zero_isProper _
  · split
    · exact nofun
    · split
      · intro _
        exact zero_isProper _
      · split
        · exact ofQuotient_inFormat _ _ Nat.one_pos
        · exact ofQuotient_inFormat _ _ (tenTo_pos _)

theorem readDecimal?_inFormat {negative : Bool} {cs : List Char} {x : Binary64}
    (h : readDecimal? negative cs = some x) : x.InFormat := by
  unfold readDecimal? at h
  dsimp only at h
  split at h
  · split at h
    · cases h
    · obtain rfl := Option.some.inj h
      exact ofDecimal_inFormat _ _ _
  · cases h

theorem readBinary64?_inFormat {text : String} {x : Binary64} (h : readBinary64? text = some x) :
    x.InFormat := by
  unfold readBinary64? at h
  dsimp only at h
  split at h
  · obtain rfl := Option.some.inj h
    exact nofun
  · split at h
    · obtain rfl := Option.some.inj h
      exact nofun
    · exact readDecimal?_inFormat h

end ApiProbe.Numeral
