import Mathlib.Tactic.LinearCombination
import ApiProbe.Number.Shortest
import ApiProbe.Proofs.Number.Interval

/-!
# The shortest digits

The digits that a number is written with lie in its rounding interval, so they are read back as the
number. The search for them ends: a grid of 18 digits has a point in every interval.
-/

namespace ApiProbe.Shortest

open Binary64

theorem natCast_tenTo_toNat {n : Int} (hn : 0 ≤ n) : ((tenTo n.toNat : Nat) : ℚ) = 10 ^ n := by
  rw [tenTo, Nat.pow_eq, Nat.cast_pow, Nat.cast_ofNat, ← zpow_natCast, Int.toNat_of_nonneg hn]

/-! ### Points of a decimal grid

The search compares natural numbers, scaled so that all fractions are gone. These lemmas undo the scaling
once: afterwards the bounds of the interval and the points of a grid are rational numbers. -/

section Target

variable {mantissa : Nat} {exponent place : Int}

/-- The three numbers of a target are quarters of a unit over its denominator. -/
theorem exists_target_eq (mantissa : Nat) (exponent : Int) : ∃ factor denominator : Nat,
    0 < denominator ∧ Nat.log2 denominator ≤ (-exponent).toNat + 2 ∧
      4 * (factor : ℚ) = denominator * 2 ^ exponent ∧ Target.of mantissa exponent = {
        low := (4 * mantissa - gapBelow mantissa exponent) * factor
        value := 4 * mantissa * factor
        high := (4 * mantissa + 2) * factor
        denominator
        closed := mantissa % 2 == 0 } := by
  unfold Target.of
  by_cases hexponent : 0 ≤ exponent
  · refine ⟨twoTo exponent.toNat, 4, Nat.succ_pos 3, Nat.le_add_left _ _, ?_, ?_⟩
    · rw [natCast_twoTo_toNat hexponent, Nat.cast_ofNat]
    · rw [if_pos hexponent]
      rfl
  · have hpos : 0 < 4 * twoTo (-exponent).toNat := Nat.mul_pos (Nat.succ_pos 3) (twoTo_pos _)
    refine ⟨1, 4 * twoTo (-exponent).toNat, hpos, ?_, ?_, ?_⟩
    · have hlt : 4 * twoTo (-exponent).toNat < 2 ^ ((-exponent).toNat + 3) := by
        rw [Nat.pow_add, Nat.mul_comm]
        exact Nat.mul_lt_mul_of_pos_left (by decide) (twoTo_pos _)
      exact Nat.lt_succ_iff.mp ((Nat.log2_lt hpos.ne').mpr hlt)
    · rw [Nat.cast_mul, natCast_twoTo_toNat (by omega), zpow_neg, Nat.cast_one, Nat.cast_ofNat]
      field_simp
    · rw [if_neg hexponent]
      rfl

/-- A point of the grid is a fraction of the form that it is compared in. -/
theorem exists_point_eq (count : Nat) (place : Int) : ∃ num den : Nat,
    (if 0 ≤ place then (count * tenTo place.toNat, 1) else (count, tenTo (-place).toNat))
        = (num, den) ∧ 0 < den ∧ (num : ℚ) = count * 10 ^ place * den := by
  by_cases hplace : 0 ≤ place
  · refine ⟨_, _, if_pos hplace, Nat.one_pos, ?_⟩
    rw [Nat.cast_mul, natCast_tenTo_toNat hplace, Nat.cast_one, mul_one]
  · refine ⟨_, _, if_neg hplace, tenTo_pos _, ?_⟩
    rw [natCast_tenTo_toNat (by omega), mul_assoc, ← zpow_add₀ (by norm_num), Int.add_right_neg,
      zpow_zero, mul_one]

/-- Whole numbers that are quarters of two quantities in one scale are ordered as these. -/
theorem le_and_lt_iff_of_scale {m n : Nat} {x y scale : ℚ} (hscale : 0 < scale)
    (hm : 4 * (m : ℚ) = x * scale) (hn : 4 * (n : ℚ) = y * scale) :
    (m ≤ n ↔ x ≤ y) ∧ (m < n ↔ x < y) := by
  have hfour : (0 : ℚ) < 4 := by norm_num
  constructor
  · rw [← Nat.cast_le (α := ℚ), ← mul_le_mul_iff_right₀ hfour, hm, hn, mul_le_mul_iff_left₀ hscale]
  · rw [← Nat.cast_lt (α := ℚ), ← mul_lt_mul_iff_right₀ hfour, hm, hn, mul_lt_mul_iff_left₀ hscale]

/-- A point that is found to lie between the ends of a target is rounded to its number. -/
theorem holds_iff {count : Nat} (hm : 0 < mantissa) :
    (Target.of mantissa exponent).holds count place = true ↔
      RoundsTo (count * 10 ^ place) mantissa exponent := by
  obtain ⟨factor, denominator, hden, -, hfactor, htarget⟩ := exists_target_eq mantissa exponent
  obtain ⟨num, den, hpair, hdenpos, hpoint⟩ := exists_point_eq count place
  have hgap := gapBelow_le mantissa exponent
  rw [Target.holds, hpair, htarget]
  dsimp only
  have hscale : (0 : ℚ) < denominator * den := by exact_mod_cast Nat.mul_pos hden hdenpos
  have hleft : 4 * (((4 * mantissa - gapBelow mantissa exponent) * factor * den : Nat) : ℚ)
      = (4 * mantissa - gapBelow mantissa exponent) * 2 ^ exponent * (denominator * den) := by
    rw [Nat.cast_mul, Nat.cast_mul, Nat.cast_sub (by omega), Nat.cast_mul, Nat.cast_ofNat]
    linear_combination (4 * mantissa - gapBelow mantissa exponent : ℚ) * den * hfactor
  have hright : 4 * (((4 * mantissa + 2) * factor * den : Nat) : ℚ)
      = (4 * mantissa + 2) * 2 ^ exponent * (denominator * den) := by
    push_cast
    linear_combination (4 * mantissa + 2 : ℚ) * den * hfactor
  have hmiddle : 4 * ((num * denominator : Nat) : ℚ)
      = 4 * (count * 10 ^ place) * (denominator * den) := by
    rw [Nat.cast_mul, hpoint]
    ring
  obtain ⟨hlowerLe, hlowerLt⟩ := le_and_lt_iff_of_scale hscale hleft hmiddle
  obtain ⟨hupperLe, hupperLt⟩ := le_and_lt_iff_of_scale hscale hmiddle hright
  by_cases heven : mantissa % 2 = 0
  · rw [if_pos (by simp [heven]), Bool.and_eq_true, decide_eq_true_eq, decide_eq_true_eq, hlowerLe,
      hupperLe]
    exact ⟨fun h => ⟨h.1, h.2, fun hodd => by omega⟩, fun h => ⟨h.lower, h.upper⟩⟩
  · rw [if_neg (by simp [heven]), Bool.and_eq_true, decide_eq_true_eq, decide_eq_true_eq, hlowerLt,
      hupperLt]
    exact ⟨fun h => ⟨h.1.le, h.2.le, fun _ => h⟩, fun h => h.odd (by omega)⟩

/-- The number lies at or above its floor in the grid, and below the next point. -/
theorem floor_spec (mantissa : Nat) (exponent place : Int) :
    (((Target.of mantissa exponent).floor place).1 : ℚ) * 10 ^ place ≤ mantissa * 2 ^ exponent ∧
      (mantissa : ℚ) * 2 ^ exponent
        < (((Target.of mantissa exponent).floor place).1 + 1) * 10 ^ place := by
  obtain ⟨factor, denominator, hden, -, hfactor, htarget⟩ := exists_target_eq mantissa exponent
  have hten : (0 : ℚ) < 10 ^ place := by positivity
  have hdencast : (denominator : ℚ) ≠ 0 := by exact_mod_cast hden.ne'
  have hvalue : ((4 * mantissa * factor : Nat) : ℚ) / denominator = mantissa * 2 ^ exponent := by
    rw [div_eq_iff hdencast, Nat.cast_mul, Nat.cast_mul, Nat.cast_ofNat]
    linear_combination (mantissa : ℚ) * hfactor
  obtain ⟨num, den, hpair, hdenpos, hquotient⟩ : ∃ num den : Nat,
      (if 0 ≤ place then (4 * mantissa * factor, denominator * tenTo place.toNat)
          else (4 * mantissa * factor * tenTo (-place).toNat, denominator)) = (num, den) ∧
        0 < den ∧ (num : ℚ) / den * 10 ^ place = mantissa * 2 ^ exponent := by
    by_cases hplace : 0 ≤ place
    · refine ⟨_, _, if_pos hplace, Nat.mul_pos hden (tenTo_pos _), ?_⟩
      rw [Nat.cast_mul denominator, natCast_tenTo_toNat hplace, ← div_div,
        div_mul_cancel₀ _ hten.ne', hvalue]
    · refine ⟨_, _, if_neg hplace, hden, ?_⟩
      rw [Nat.cast_mul _ (tenTo _), natCast_tenTo_toNat (by omega), mul_div_right_comm, mul_assoc,
        ← zpow_add₀ (by norm_num), Int.add_left_neg, zpow_zero, mul_one, hvalue]
  have hfloor : ((Target.of mantissa exponent).floor place).1 = num / den := by
    rw [Target.floor, htarget]
    dsimp only
    rw [hpair]
  have hdenpos' : (0 : ℚ) < den := by exact_mod_cast hdenpos
  have hdown : ((num / den : Nat) : ℚ) * den ≤ num := by exact_mod_cast Nat.div_mul_le_self num den
  have hup : (num : ℚ) < ((num / den : Nat) + 1) * den := by
    exact_mod_cast Nat.lt_mul_of_div_lt (Nat.lt_succ_self _) hdenpos
  rw [← le_div_iff₀ hdenpos'] at hdown
  rw [← div_lt_iff₀ hdenpos'] at hup
  rw [hfloor, ← hquotient]
  exact ⟨mul_le_mul_of_nonneg_right hdown hten.le, mul_lt_mul_of_pos_right hup hten⟩

/-- The point above the number, on a grid finer than half a unit, is rounded to it. -/
theorem holds_up (hm : 0 < mantissa) (hfine : 2 * (10 : ℚ) ^ place < 2 ^ exponent) :
    (Target.of mantissa exponent).holds (((Target.of mantissa exponent).floor place).1 + 1) place
      = true := by
  rw [holds_iff hm]
  obtain ⟨hdown, hup⟩ := floor_spec mantissa exponent place
  generalize ((Target.of mantissa exponent).floor place).1 = down at hdown hup ⊢
  have hgap : (0 : ℚ) < gapBelow mantissa exponent := by exact_mod_cast gapBelow_pos ..
  have hunit : (0 : ℚ) < 2 ^ exponent := by positivity
  rw [Nat.cast_add, Nat.cast_one]
  have hlower : (4 * mantissa - gapBelow mantissa exponent : ℚ) * 2 ^ exponent
      < 4 * ((down + 1) * 10 ^ place) := by
    nlinarith
  have hupper : 4 * ((down + 1) * 10 ^ place : ℚ) < (4 * mantissa + 2) * 2 ^ exponent := by
    nlinarith
  exact ⟨hlower.le, hupper.le, fun _ => ⟨hlower, hupper⟩⟩

theorem holds_of_pick?_eq_some {target : Target} {count : Nat}
    (h : target.pick? place = some count) : target.holds count place = true ∧ count ≠ 0 := by
  unfold Target.pick? at h
  generalize target.floor place = floor at h
  obtain ⟨down, rest, step⟩ := floor
  dsimp only at h
  split at h
  · rename_i hdown hup
    rw [Bool.and_eq_true, bne_iff_ne] at hdown
    split at h
    · obtain rfl := Option.some.inj h
      exact hdown
    · split at h
      · obtain rfl := Option.some.inj h
        exact ⟨hup, Nat.succ_ne_zero _⟩
      · obtain rfl := Option.some.inj h
        split
        · exact hdown
        · exact ⟨hup, Nat.succ_ne_zero _⟩
  · rename_i hdown _
    obtain rfl := Option.some.inj h
    rwa [Bool.and_eq_true, bne_iff_ne] at hdown
  · rename_i _ hup
    obtain rfl := Option.some.inj h
    exact ⟨hup, Nat.succ_ne_zero _⟩
  · cases h

theorem pick?_isSome {target : Target}
    (h : target.holds ((target.floor place).1 + 1) place = true) :
    (target.pick? place).isSome = true := by
  unfold Target.pick?
  generalize target.floor place = floor at h ⊢
  obtain ⟨down, rest, step⟩ := floor
  dsimp only at h ⊢
  rw [h]
  cases target.holds down place && down != 0 with
  | false => rfl
  | true =>
      dsimp only
      split
      · rfl
      · split <;> rfl

/-- The search finds a point if one of the grids that it comes to has one. -/
theorem search_spec {target : Target} {top : Int} {more : Nat} :
    ∀ {fuel count : Nat}, more < fuel →
      (target.pick? (top + 1 - ((count + more : Nat) : Int))).isSome = true →
      target.holds (search target top fuel count).1 (search target top fuel count).2 = true ∧
        (search target top fuel count).1 ≠ 0
  | 0, _, hmore, _ => absurd hmore (Nat.not_lt_zero more)
  | fuel + 1, count, hmore, h => by
      rw [search]
      cases hpick : target.pick? (top + 1 - (count : Int)) with
      | some found => exact holds_of_pick?_eq_some hpick
      | none =>
          cases more with
          | zero =>
              rw [Nat.add_zero, hpick] at h
              cases h
          | succ more =>
              apply search_spec (Nat.lt_of_succ_lt_succ hmore)
              rwa [Nat.add_right_comm, Nat.add_assoc]

end Target

section Leading

variable {numerator denominator : Nat}

/-- A binary logarithm times `1233 / 4096` is a decimal one, up to a binary place. -/
theorem ten_zpow_le_two_zpow {log guess : Int} (hlog : -4096 ≤ log) (h : 4096 * guess ≤ 1233 * log) :
    (10 : ℚ) ^ guess ≤ 2 ^ (log + 1) := by
  have hlow : (2 : ℚ) ^ (4095 : Int) ≤ 10 ^ (1233 : Int) := by
    have : 2 ^ 4095 ≤ 10 ^ 1233 := by decide +kernel
    exact_mod_cast this
  have hhigh : (10 : ℚ) ^ (1233 : Int) ≤ 2 ^ (4096 : Int) := by
    have : 10 ^ 1233 ≤ 2 ^ 4096 := by decide +kernel
    exact_mod_cast this
  have hmono {a b : Int} (hab : a ≤ b) : (2 : ℚ) ^ a ≤ 2 ^ b := zpow_le_zpow_right₀ (by norm_num) hab
  have hpow : ((10 : ℚ) ^ (1233 : Int)) ^ log ≤ 2 ^ (4096 * (log + 1)) := by
    rcases le_or_gt 0 log with hpos | hneg
    · calc ((10 : ℚ) ^ (1233 : Int)) ^ log ≤ (2 ^ (4096 : Int)) ^ log :=
            zpow_le_zpow_left₀ hpos (by positivity) hhigh
        _ = 2 ^ (4096 * log) := (zpow_mul _ _ _).symm
        _ ≤ 2 ^ (4096 * (log + 1)) := hmono (by omega)
    · obtain ⟨k, rfl⟩ : ∃ k : Int, log = -k := ⟨-log, by omega⟩
      calc ((10 : ℚ) ^ (1233 : Int)) ^ (-k) = (((10 : ℚ) ^ (1233 : Int)) ^ k)⁻¹ := zpow_neg _ _
        _ ≤ ((2 ^ (4095 : Int)) ^ k)⁻¹ :=
          inv_anti₀ (by positivity) (zpow_le_zpow_left₀ (by omega) (by positivity) hlow)
        _ = 2 ^ (4095 * -k) := by rw [← zpow_mul, ← zpow_neg, mul_neg]
        _ ≤ 2 ^ (4096 * (-k + 1)) := hmono (by omega)
  refine (pow_le_pow_iff_left₀ (by positivity) (by positivity) (show 4096 ≠ 0 by decide)).mp ?_
  calc ((10 : ℚ) ^ guess) ^ 4096 = 10 ^ (4096 * guess) := by
        rw [← zpow_natCast, ← zpow_mul, mul_comm, Nat.cast_ofNat]
    _ ≤ 10 ^ (1233 * log) := zpow_le_zpow_right₀ (by norm_num) h
    _ = (10 ^ (1233 : Int)) ^ log := zpow_mul _ _ _
    _ ≤ 2 ^ (4096 * (log + 1)) := hpow
    _ = (2 ^ (log + 1)) ^ 4096 := by
        rw [← zpow_natCast, ← zpow_mul, mul_comm, Nat.cast_ofNat]

/-- Of three places, the greatest that a test puts at or below a number, if the test is right. -/
theorem ten_zpow_ite_le {q : ℚ} (guess : Int) (atLeast : Int → Bool)
    (hatLeast : ∀ k, atLeast k = true → (10 : ℚ) ^ k ≤ q) (hguess : (10 : ℚ) ^ (guess - 1) ≤ q) :
    (10 : ℚ) ^ (if atLeast (guess + 1) then guess + 1
      else if atLeast guess then guess else guess - 1) ≤ q := by
  split
  · rename_i h
    exact hatLeast _ h
  · split
    · rename_i h
      exact hatLeast _ h
    · exact hguess

theorem ten_zpow_leading_le (hn : 0 < numerator) (hd : 0 < denominator)
    (hsmall : Nat.log2 denominator ≤ 4096) :
    (10 : ℚ) ^ leading numerator denominator ≤ numerator / denominator := by
  have hden : (0 : ℚ) < denominator := by exact_mod_cast hd
  unfold leading
  dsimp only
  refine ten_zpow_ite_le _ (fun k => if 0 ≤ k then decide (denominator * tenTo k.toNat ≤ numerator)
    else decide (denominator ≤ numerator * tenTo (-k).toNat)) (fun k h => ?_) ?_
  · rw [le_div_iff₀ hden]
    split at h
    · rename_i hk
      rw [← natCast_tenTo_toNat hk, mul_comm]
      exact_mod_cast of_decide_eq_true h
    · rename_i hk
      have hle : (denominator : ℚ) ≤ numerator * 10 ^ (-k) := by
        rw [← natCast_tenTo_toNat (by omega)]
        exact_mod_cast of_decide_eq_true h
      calc (10 : ℚ) ^ k * denominator ≤ 10 ^ k * (numerator * 10 ^ (-k)) :=
            mul_le_mul_of_nonneg_left hle (by positivity)
        _ = numerator * 10 ^ (k + -k) := by
            rw [zpow_add₀ (by norm_num)]
            ring
        _ = numerator := by rw [Int.add_right_neg, zpow_zero, mul_one]
  · -- The place below the estimate is not above the number, wherever the number is in its binade.
    obtain ⟨hbinade, -⟩ := div_mem_binades hn hd
    generalize hlog : (Nat.log2 numerator : Int) - Nat.log2 denominator = log at hbinade ⊢
    generalize hguess : log * 1233 / 4096 = guess
    have hten : (10 : ℚ) ^ guess ≤ 2 ^ (log + 1) := ten_zpow_le_two_zpow (by omega) (by omega)
    have htwo : (2 : ℚ) ^ (log + 1) = 4 * 2 ^ (log - 1) := by
      rw [show log + 1 = 2 + (log - 1) by omega, zpow_add₀ (by norm_num)]
      norm_num
    have hpos : (0 : ℚ) < 2 ^ (log - 1) := by positivity
    rw [zpow_sub_one₀ (by norm_num)]
    linarith

end Leading

/-- The digits of a positive number are a point in its rounding interval. -/
theorem digits_spec {mantissa : Nat} {exponent : Int} (hm : 0 < mantissa)
    (hproper : (finite false mantissa exponent).IsProper) :
    (digits mantissa exponent).1 ≠ 0 ∧
      RoundsTo ((digits mantissa exponent).1 * 10 ^ (digits mantissa exponent).2)
        mantissa exponent := by
  obtain ⟨hbound, hleast, -, -⟩ := hproper
  unfold minExponent at hleast
  have hunit : (0 : ℚ) < 2 ^ exponent := by positivity
  have hleading : (10 : ℚ) ^ leading (Target.of mantissa exponent).value
      (Target.of mantissa exponent).denominator ≤ mantissa * 2 ^ exponent := by
    obtain ⟨factor, denominator, hden, hlog, hfactor, htarget⟩ := exists_target_eq mantissa exponent
    have hdencast : (0 : ℚ) < denominator := by exact_mod_cast hden
    have hfactorpos : 0 < factor := by
      have : (0 : ℚ) < 4 * factor := by
        rw [hfactor]
        positivity
      exact_mod_cast (by linarith : (0 : ℚ) < factor)
    have hvalue : ((4 * mantissa * factor : Nat) : ℚ) / denominator = mantissa * 2 ^ exponent := by
      rw [div_eq_iff hdencast.ne', Nat.cast_mul, Nat.cast_mul, Nat.cast_ofNat]
      linear_combination (mantissa : ℚ) * hfactor
    rw [← hvalue, htarget]
    dsimp only
    refine ten_zpow_leading_le ?_ hden (by omega)
    exact Nat.mul_pos (Nat.mul_pos (Nat.succ_pos 3) hm) hfactorpos
  rw [digits]
  generalize leading (Target.of mantissa exponent).value
    (Target.of mantissa exponent).denominator = top at hleading ⊢
  have hfine : 2 * (10 : ℚ) ^ (top + 1 - ((1 + 17 : Nat) : Int)) < 2 ^ exponent := by
    have hmantissa : (mantissa : ℚ) < 2 ^ 53 := by exact_mod_cast hbound
    have hshift : (10 : ℚ) ^ (top + 1 - ((1 + 17 : Nat) : Int)) = 10 ^ top / 10 ^ 17 := by
      rw [show top + 1 - ((1 + 17 : Nat) : Int) = top - 17 by omega, zpow_sub₀ (by norm_num)]
      rfl
    rw [hshift, ← mul_div_assoc, div_lt_iff₀ (by positivity)]
    nlinarith
  obtain ⟨hholds, hne⟩ := search_spec (show 17 < 20 by decide) (pick?_isSome (holds_up hm hfine))
  exact ⟨hne, (holds_iff hm).mp hholds⟩

end ApiProbe.Shortest
