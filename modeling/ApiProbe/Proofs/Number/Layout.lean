import ApiProbe.Proofs.Number.Decimal

/-!
# The layouts of a number

Every number of the format is read back from its shortest text, in whichever notation it is written.
-/

namespace ApiProbe

namespace Shortest

open Binary64 Numeral
open Text (isAsciiDigit)

theorem strip_spec :
    ∀ {fuel n : Nat} {place : Int}, n ≠ 0 → (strip fuel n place).1 ≠ 0 ∧
      ((strip fuel n place).1 * 10 ^ (strip fuel n place).2 : ℚ) = n * 10 ^ place
  | 0, _, _, hn => ⟨hn, rfl⟩
  | fuel + 1, n, place, hn => by
      unfold strip
      split
      · rename_i hzero
        rw [Bool.and_eq_true, bne_iff_ne, beq_iff_eq] at hzero
        have hdiv : 10 * (n / 10) = n := by omega
        obtain ⟨hne, hvalue⟩ := @strip_spec fuel (n / 10) (place + 1) (by omega)
        refine ⟨hne, hvalue.trans ?_⟩
        have hcast : (10 * (n / 10 : Nat) : ℚ) = n := by exact_mod_cast hdiv
        rw [zpow_add_one₀ (by norm_num), ← hcast]
        ring
      · exact ⟨hn, rfl⟩

/-- The digits of an exponent, at least two of them. -/
def exponentDigits (e : Int) : List Char :=
  if (Nat.toDigits 10 e.natAbs).length < 2 then '0' :: Nat.toDigits 10 e.natAbs
  else Nat.toDigits 10 e.natAbs

/-- The decimal fraction that digits are laid out as. -/
def layoutDecimal (layout : Layout) (n : Nat) (place : Int) : Decimal :=
  let digits := Nat.toDigits 10 n
  let top := place + (digits.length : Int) - 1
  if top < layout.least || layout.bound ≤ top then
    ⟨digits.take 1, digits.drop 1, some ⟨'e', some (top < 0), exponentDigits top⟩⟩
  else if 0 ≤ place then
    ⟨digits ++ List.replicate place.toNat '0', ['0'], none⟩
  else if 0 ≤ top then
    ⟨digits.take (top + 1).toNat, digits.drop (top + 1).toNat, none⟩
  else
    ⟨['0'], List.replicate (-top - 1).toNat '0' ++ digits, none⟩

theorem toList_exponentText (e : Int) :
    'e' :: (exponentText e).toList
      = Decimal.exponentChars (some ⟨'e', some (e < 0), exponentDigits e⟩) := by
  have hdigits : (if (toString e.natAbs).length < 2 then "0" ++ toString e.natAbs
      else toString e.natAbs).toList = exponentDigits e := by
    rw [exponentDigits, Nat.toString_eq_repr, ← String.length_toList, Nat.toList_repr]
    split
    · rw [String.toList_append, Nat.toList_repr]
      rfl
    · exact Nat.toList_repr
  rw [exponentText, String.toList_append, hdigits]
  by_cases he : e < 0 <;> simp [he, Decimal.exponentChars, Exponent.chars, Exponent.signChars]

theorem magnitudeText_toList {layout : Layout} {mantissa : Nat} {exponent : Int} (hm : mantissa ≠ 0) :
    (magnitudeText layout mantissa exponent).toList = (layoutDecimal layout
      (strip 20 (digits mantissa exponent).1 (digits mantissa exponent).2).1
      (strip 20 (digits mantissa exponent).1 (digits mantissa exponent).2).2).chars := by
  rw [magnitudeText, if_neg hm]
  dsimp only
  generalize strip 20 (digits mantissa exponent).1 (digits mantissa exponent).2 = stripped
  obtain ⟨n, place⟩ := stripped
  unfold layoutDecimal
  dsimp only
  rw [Nat.toString_eq_repr, ← String.length_toList, Nat.toList_repr]
  generalize hdigits : Nat.toDigits 10 n = digits
  split
  · have hfraction : (if (digits.length == 1) = true then "" else
        "." ++ String.ofList (digits.drop 1)).toList = Decimal.fractionChars (digits.drop 1) := by
      rcases digits with _ | ⟨c, _ | ⟨d, rest⟩⟩
      · exact absurd hdigits Nat.toDigits_ne_nil
      · rfl
      · simp [Decimal.fractionChars]
    simp only [String.toList_append, String.toList_ofList, hfraction, Decimal.chars,
      List.append_assoc, ← toList_exponentText]
    rfl
  · split
    · simp [hdigits, zeros, Decimal.chars, Decimal.fractionChars, Decimal.exponentChars]
    · split
      · rename_i hplace htop
        have hdrop : digits.drop (place + (digits.length : Int) - 1 + 1).toNat ≠ [] := by
          rw [Ne, List.drop_eq_nil_iff]
          omega
        rw [Decimal.chars, Decimal.fractionChars_of_ne_nil hdrop]
        simp [Decimal.exponentChars]
      · have hzeros : List.replicate (-(place + (digits.length : Int) - 1) - 1).toNat '0' ++ digits
            ≠ [] := by
          rw [← hdigits]
          exact List.append_ne_nil_of_right_ne_nil _ Nat.toDigits_ne_nil
        rw [Decimal.chars, Decimal.fractionChars_of_ne_nil hzeros]
        simp [hdigits, zeros, Decimal.exponentChars]

theorem isAsciiDigit_replicate_zero (k : Nat) : ∀ c ∈ List.replicate k '0', isAsciiDigit c = true := by
  intro c hc
  rw [List.eq_of_mem_replicate hc]
  rfl

theorem exponentDigits_spec (e : Int) : exponentDigits e ≠ [] ∧
    (∀ c ∈ exponentDigits e, isAsciiDigit c = true) ∧ ofDigits (exponentDigits e) = e.natAbs := by
  have hdigits := Text.isAsciiDigit_of_mem_toDigits (n := e.natAbs)
  unfold exponentDigits
  split
  · refine ⟨List.cons_ne_nil _ _, ?_, ?_⟩
    · intro c hc
      rcases List.mem_cons.mp hc with rfl | hc
      · rfl
      · exact hdigits c hc
    · rw [ofDigits_zero_cons, ofDigits_toDigits]
  · exact ⟨Nat.toDigits_ne_nil, hdigits, ofDigits_toDigits _⟩

theorem layoutDecimal_wellFormed (layout : Layout) (n : Nat) (place : Int) :
    (layoutDecimal layout n place).WellFormed := by
  have hdigits := Text.isAsciiDigit_of_mem_toDigits (n := n)
  have hne : Nat.toDigits 10 n ≠ [] := Nat.toDigits_ne_nil
  have htake (k : Nat) : ∀ c ∈ (Nat.toDigits 10 n).take k, isAsciiDigit c = true :=
    fun c hc => hdigits c (List.mem_of_mem_take hc)
  have hdrop (k : Nat) : ∀ c ∈ (Nat.toDigits 10 n).drop k, isAsciiDigit c = true :=
    fun c hc => hdigits c (List.mem_of_mem_drop hc)
  have hzeros := isAsciiDigit_replicate_zero
  rw [layoutDecimal]
  generalize Nat.toDigits 10 n = digits at *
  split
  · obtain ⟨hexponent, hexponentDigits, -⟩ :=
      exponentDigits_spec (place + (digits.length : Int) - 1)
    refine ⟨?_, htake 1, hdrop 1, ?_, Or.inr nofun⟩
    · rw [Ne, List.take_eq_nil_iff]
      simp [hne]
    · intro e he
      obtain rfl := Option.some.inj he
      exact ⟨rfl, hexponent, hexponentDigits⟩
  · split
    · refine ⟨List.append_ne_nil_of_left_ne_nil hne _, ?_, hzeros 1, nofun, Or.inl nofun⟩
      exact List.forall_mem_append.mpr ⟨hdigits, hzeros _⟩
    · split
      · rename_i hplace htop
        refine ⟨?_, htake _, hdrop _, nofun, Or.inl ?_⟩
        · rw [Ne, List.take_eq_nil_iff]
          simp only [hne, or_false]
          omega
        · rw [Ne, List.drop_eq_nil_iff]
          omega
      · refine ⟨nofun, hzeros 1, ?_, nofun, Or.inl ?_⟩
        · exact List.forall_mem_append.mpr ⟨hzeros _, hdigits⟩
        · exact List.append_ne_nil_of_right_ne_nil _ hne

/-- A layout keeps the number that the digits stand for at their place. -/
theorem layoutDecimal_value (layout : Layout) (n : Nat) (place : Int) :
    (ofDigits ((layoutDecimal layout n place).whole ++ (layoutDecimal layout n place).fraction) : ℚ)
        * 10 ^ (layoutDecimal layout n place).place = n * 10 ^ place := by
  have hn := ofDigits_toDigits n
  have hlength : 0 < (Nat.toDigits 10 n).length := Nat.length_toDigits_pos
  rw [layoutDecimal]
  generalize Nat.toDigits 10 n = digits at *
  split
  · rw [List.take_append_drop, hn]
    congr 2
    rw [Decimal.place, Decimal.exponentValue, Exponent.value, Option.getD_some,
      (exponentDigits_spec _).2.2, List.length_drop, signed_natAbs]
    omega
  · split
    · rename_i hplace
      have hpower : (10 : ℚ) ^ place = 10 ^ place.toNat := by
        rw [← zpow_natCast, Int.toNat_of_nonneg hplace]
      have hvalue : ofDigits (digits ++ List.replicate place.toNat '0' ++ ['0'])
          = n * 10 ^ place.toNat * 10 := by
        rw [ofDigits_append_singleton, ofDigits_append, ofDigits_replicate_zero, hn,
          List.length_replicate, Text.decimalValue?_of_isAsciiDigit (by decide)]
        rfl
      rw [hvalue, Decimal.place, Decimal.exponentValue, List.length_singleton, hpower]
      push_cast
      rw [mul_assoc]
      norm_num
    · split
      · rename_i hplace htop
        rw [List.take_append_drop, hn]
        congr 2
        rw [Decimal.place, Decimal.exponentValue, List.length_drop]
        omega
      · rename_i hplace htop
        rw [List.cons_append, List.nil_append, ofDigits_zero_cons, ofDigits_append,
          ofDigits_replicate_zero, hn, Nat.zero_mul, Nat.zero_add]
        congr 2
        rw [Decimal.place, Decimal.exponentValue, List.length_append, List.length_replicate]
        omega

/-- The text of a number without its sign is a decimal fraction that stands for the number. -/
theorem exists_decimal {mantissa : Nat} {exponent : Int}
    (hproper : (finite false mantissa exponent).IsProper) : ∃ d : Decimal, d.WellFormed ∧
      (magnitudeText .standard mantissa exponent).toList = d.chars ∧
      ofDecimal false (d.whole ++ d.fraction) d.place = .finite false mantissa exponent := by
  by_cases hm : mantissa = 0
  · obtain rfl := hm
    have hexponent : exponent = minExponent := hproper.2.2.2.resolve_left (by decide)
    have hzero := isAsciiDigit_replicate_zero 1
    refine ⟨⟨['0'], ['0'], none⟩, ⟨nofun, hzero, hzero, nofun, Or.inl nofun⟩, ?_, ?_⟩
    · rw [magnitudeText, if_pos rfl]
      decide
    · rw [hexponent]
      decide +kernel
  · obtain ⟨hne, hround⟩ := digits_spec (Nat.pos_of_ne_zero hm) hproper
    refine ⟨_, layoutDecimal_wellFormed _ _ _, magnitudeText_toList hm, ?_⟩
    obtain ⟨hstrip, hvalue⟩ :=
      @strip_spec 20 (digits mantissa exponent).1 (digits mantissa exponent).2 hne
    generalize strip 20 (digits mantissa exponent).1 (digits mantissa exponent).2 = stripped
      at hstrip hvalue ⊢
    obtain ⟨n, place⟩ := stripped
    have hwell := layoutDecimal_wellFormed .standard n place
    have hlayout := layoutDecimal_value .standard n place
    dsimp only at hstrip hvalue ⊢
    generalize layoutDecimal .standard n place = d at hwell hlayout ⊢
    rw [← hvalue, ← hlayout] at hround
    have hdigits : ∀ c ∈ d.whole ++ d.fraction, isAsciiDigit c = true :=
      List.forall_mem_append.mpr ⟨hwell.whole, hwell.fraction⟩
    refine ofDecimal_eq (Nat.pos_of_ne_zero hm) hproper hdigits (fun hzero => ?_) hround
    have hnonzero : (n : ℚ) * 10 ^ place ≠ 0 :=
      mul_ne_zero (Nat.cast_ne_zero.mpr hstrip) (by positivity)
    rw [← hlayout, hzero, Nat.cast_zero, zero_mul] at hnonzero
    exact hnonzero rfl

/-- Every number without a sign is read back from its text. -/
theorem readBinary64?_magnitudeText {mantissa : Nat} {exponent : Int}
    (hproper : (finite false mantissa exponent).IsProper) :
    readBinary64? (magnitudeText .standard mantissa exponent)
      = some (.finite false mantissa exponent) := by
  obtain ⟨d, hwell, hchars, hvalue⟩ := exists_decimal hproper
  rw [← String.ofList_toList (s := magnitudeText .standard mantissa exponent), hchars,
    readBinary64?_chars hwell, hvalue]

end Shortest

end ApiProbe
