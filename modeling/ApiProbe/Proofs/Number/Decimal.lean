import Mathlib.Data.Bool.AllAny
import ApiProbe.Proofs.Number.Digits
import ApiProbe.Proofs.Number.Shortest

/-!
# Decimal fractions

A decimal fraction stands for the number in whose rounding interval its digits lie at their place.
-/

namespace ApiProbe

namespace Numeral

open Binary64
open Text (isAsciiDigit)

theorem ofDigits_cons (c : Char) (cs : List Char) :
    ofDigits (c :: cs) = (Text.decimalValue? c).getD 0 * 10 ^ cs.length + ofDigits cs := by
  rw [← List.singleton_append, ofDigits_append, ← List.nil_append [c], ofDigits_append_singleton]
  simp [ofDigits]

theorem ofDigits_zero_cons (cs : List Char) : ofDigits ('0' :: cs) = ofDigits cs := by
  have hzero : Text.decimalValue? '0' = some 0 := Text.decimalValue?_of_isAsciiDigit (by decide)
  rw [ofDigits_cons, hzero, Option.getD_some, Nat.zero_mul, Nat.zero_add]

theorem ofDigits_dropWhile_zero (cs : List Char) :
    ofDigits (cs.dropWhile fun c => Text.decimalValue? c == some 0) = ofDigits cs := by
  induction cs with
  | nil => rfl
  | cons c cs ih =>
      by_cases hc : Text.decimalValue? c = some 0
      · rw [List.dropWhile_cons_of_pos (by simp [hc]), ih, ofDigits_cons, hc, Option.getD_some,
          Nat.zero_mul, Nat.zero_add]
      · rw [List.dropWhile_cons_of_neg (by simp [hc])]

/-- Digits without leading zeros stand for a number with as many places. -/
theorem ten_pow_le_ofDigits {c : Char} {cs : List Char} (hdigit : isAsciiDigit c = true)
    (hc : Text.decimalValue? c ≠ some 0) : 10 ^ cs.length ≤ ofDigits (c :: cs) := by
  have hvalue : 1 ≤ (Text.decimalValue? c).getD 0 := by
    rw [Text.decimalValue?_of_isAsciiDigit hdigit] at hc ⊢
    rw [Option.getD_some]
    exact Nat.pos_of_ne_zero fun h => hc (congrArg some h)
  rw [ofDigits_cons]
  calc 10 ^ cs.length = 1 * 10 ^ cs.length := (Nat.one_mul _).symm
    _ ≤ (Text.decimalValue? c).getD 0 * 10 ^ cs.length := Nat.mul_le_mul_right _ hvalue
    _ ≤ _ := Nat.le_add_right _ _

section

variable {q : ℚ} {mantissa : Nat} {exponent : Int}

theorem RoundsTo.lt_ten_zpow {negative : Bool} (h : RoundsTo q mantissa exponent)
    (hproper : (finite negative mantissa exponent).IsProper) : q < 10 ^ (309 : Int) := by
  obtain ⟨hbound, -, hmax, -⟩ := hproper
  have hmantissa : (mantissa : ℚ) + 1 ≤ 2 ^ 53 := by exact_mod_cast hbound
  have hunit : (0 : ℚ) < 2 ^ exponent := by positivity
  have hupper := h.upper
  calc q < 2 ^ 53 * 2 ^ exponent := by nlinarith
    _ = 2 ^ (53 + exponent) := by rw [zpow_add₀ (by norm_num)]; norm_num
    _ ≤ 2 ^ (1024 : Int) := zpow_le_zpow_right₀ (by norm_num) (by rw [maxExponent] at hmax; omega)
    _ ≤ 10 ^ (309 : Int) := by
        have : 2 ^ 1024 ≤ 10 ^ 309 := by decide +kernel
        exact_mod_cast this

theorem RoundsTo.ten_zpow_le {negative : Bool} (h : RoundsTo q mantissa exponent) (hm : 0 < mantissa)
    (hproper : (finite negative mantissa exponent).IsProper) : 10 ^ (-330 : Int) ≤ q := by
  obtain ⟨-, hleast, -, -⟩ := hproper
  have hmantissa : (1 : ℚ) ≤ mantissa := by exact_mod_cast hm
  have hgap : (gapBelow mantissa exponent : ℚ) ≤ 2 := by exact_mod_cast gapBelow_le ..
  have hunit : (0 : ℚ) < 2 ^ exponent := by positivity
  have hlower := h.lower
  calc (10 : ℚ) ^ (-330 : Int) = (10 ^ (330 : Int))⁻¹ := zpow_neg _ _
    _ ≤ (2 ^ (1075 : Int))⁻¹ := by
        apply inv_anti₀ (by positivity)
        have : 2 ^ 1075 ≤ 10 ^ 330 := by decide +kernel
        exact_mod_cast this
    _ = 2 ^ (-1075 : Int) := (zpow_neg _ _).symm
    _ ≤ 2 ^ (exponent - 1) :=
        zpow_le_zpow_right₀ (by norm_num) (by rw [minExponent] at hleast; omega)
    _ = 2 ^ exponent * 2⁻¹ := zpow_sub_one₀ (by norm_num) _
    _ ≤ q := by nlinarith

/-- Digits without leading zeros that stand for a number in range start at a place in range. -/
theorem leading_place_bounds {c : Char} {cs : List Char} {place : Int}
    (hdigits : ∀ d ∈ c :: cs, isAsciiDigit d = true) (hc : Text.decimalValue? c ≠ some 0)
    (hhigh : (ofDigits (c :: cs) * 10 ^ place : ℚ) < 10 ^ (309 : Int))
    (hlow : (10 : ℚ) ^ (-330 : Int) ≤ ofDigits (c :: cs) * 10 ^ place) :
    ¬ 310 < place + ((c :: cs).length : Int) ∧ ¬ place + ((c :: cs).length : Int) < -330 := by
  have hten : (0 : ℚ) < 10 ^ place := by positivity
  constructor
  · intro hlt
    rw [List.length_cons] at hlt
    have hmin : (10 : ℚ) ^ (cs.length : Int) ≤ ofDigits (c :: cs) := by
      rw [zpow_natCast]
      exact_mod_cast ten_pow_le_ofDigits (hdigits c List.mem_cons_self) hc
    have hpow : (10 : ℚ) ^ (309 : Int) ≤ 10 ^ ((cs.length : Int) + place) :=
      zpow_le_zpow_right₀ (by norm_num) (by omega)
    rw [zpow_add₀ (by norm_num)] at hpow
    have := mul_le_mul_of_nonneg_right hmin hten.le
    linarith
  · intro hlt
    have hmax : (ofDigits (c :: cs) : ℚ) < 10 ^ ((c :: cs).length : Int) := by
      rw [zpow_natCast]
      exact_mod_cast ofDigits_lt (c :: cs)
    have hpow : (10 : ℚ) ^ (((c :: cs).length : Int) + place) ≤ 10 ^ (-330 : Int) :=
      zpow_le_zpow_right₀ (by norm_num) (by omega)
    rw [zpow_add₀ (by norm_num)] at hpow
    have := mul_lt_mul_of_pos_right hmax hten
    linarith

/-- Digits stand for the number in whose rounding interval they lie. -/
theorem ofDecimal_eq {negative : Bool} {cs : List Char} {place : Int} (hm : 0 < mantissa)
    (hproper : (finite negative mantissa exponent).IsProper)
    (hdigits : ∀ c ∈ cs, isAsciiDigit c = true) (hne : ofDigits cs ≠ 0)
    (h : RoundsTo (ofDigits cs * 10 ^ place) mantissa exponent) :
    ofDecimal negative cs place = .finite negative mantissa exponent := by
  have hhigh := RoundsTo.lt_ten_zpow h hproper
  have hlow := RoundsTo.ten_zpow_le h hm hproper
  have hsignificant : ∀ c ∈ cs.dropWhile fun c => Text.decimalValue? c == some 0,
      isAsciiDigit c = true := by
    intro c hc
    exact hdigits c (List.dropWhile_sublist _ |>.mem hc)
  rw [← ofDigits_dropWhile_zero] at hne h hhigh hlow
  unfold ofDecimal
  dsimp only
  cases hcs : cs.dropWhile fun c => Text.decimalValue? c == some 0 with
  | nil =>
      rw [hcs] at hne
      exact absurd rfl hne
  | cons c rest =>
      have hnonzero : Text.decimalValue? c ≠ some 0 := by
        have hnil : cs.dropWhile (fun c => Text.decimalValue? c == some 0) ≠ [] := by
          rw [hcs]
          exact List.cons_ne_nil _ _
        simpa [hcs] using List.head_dropWhile_not _ hnil
      rw [hcs] at hne h hhigh hlow hsignificant
      obtain ⟨htop, hbottom⟩ := leading_place_bounds hsignificant hnonzero hhigh hlow
      rw [if_neg (by simp), if_neg htop, if_neg hbottom]
      split
      · rename_i hplace
        refine ofQuotient_eq ?_ Nat.one_pos hproper ?_
        · exact Nat.mul_ne_zero hne (tenTo_pos _).ne'
        · rwa [Nat.cast_mul, Shortest.natCast_tenTo_toNat hplace, Nat.cast_one, div_one]
      · rename_i hplace
        apply ofQuotient_eq hne (tenTo_pos _) hproper
        rwa [Shortest.natCast_tenTo_toNat (by omega), zpow_neg, div_inv_eq_mul]

end

theorem ofQuotient_true (m n : Nat) : ofQuotient true m n = (ofQuotient false m n).neg := by
  unfold ofQuotient
  dsimp only
  split_ifs <;> rfl

/-- A sign in front of digits negates what they stand for. -/
theorem ofDecimal_true (cs : List Char) (place : Int) :
    ofDecimal true cs place = (ofDecimal false cs place).neg := by
  unfold ofDecimal
  dsimp only
  split_ifs
  · rfl
  · rfl
  · rfl
  · exact ofQuotient_true _ _
  · exact ofQuotient_true _ _

/-- A letter, perhaps a sign, which may be negative, and digits. -/
structure Exponent where
  letter : Char
  sign : Option Bool
  digits : List Char

namespace Exponent

def signChars : Option Bool → List Char
  | none => []
  | some negative => [if negative then '-' else '+']

def chars (e : Exponent) : List Char :=
  e.letter :: (signChars e.sign ++ e.digits)

def value (e : Exponent) : Int :=
  signed (e.sign.getD false) (ofDigits e.digits)

structure WellFormed (e : Exponent) : Prop where
  letter : (e.letter == 'e' || e.letter == 'E') = true
  digits_ne_nil : e.digits ≠ []
  digits : ∀ c ∈ e.digits, isAsciiDigit c = true

end Exponent

/-- Digits, perhaps a point and more digits, perhaps an exponent. -/
structure Decimal where
  whole : List Char
  fraction : List Char
  exponent : Option Exponent

namespace Decimal

def fractionChars : List Char → List Char
  | [] => []
  | c :: cs => '.' :: c :: cs

theorem fractionChars_of_ne_nil {cs : List Char} (h : cs ≠ []) : fractionChars cs = '.' :: cs := by
  cases cs with
  | nil => exact absurd rfl h
  | cons c cs => rfl

def exponentChars : Option Exponent → List Char
  | none => []
  | some e => e.chars

def chars (d : Decimal) : List Char :=
  d.whole ++ fractionChars d.fraction ++ exponentChars d.exponent

def exponentValue : Option Exponent → Int
  | none => 0
  | some e => e.value

def place (d : Decimal) : Int :=
  exponentValue d.exponent - (d.fraction.length : Int)

structure WellFormed (d : Decimal) : Prop where
  whole_ne_nil : d.whole ≠ []
  whole : ∀ c ∈ d.whole, isAsciiDigit c = true
  fraction : ∀ c ∈ d.fraction, isAsciiDigit c = true
  exponent : ∀ e ∈ d.exponent, e.WellFormed
  marked : d.fraction ≠ [] ∨ d.exponent ≠ none

end Decimal

theorem splitAt?_of_forall {test : Char → Bool} {cs : List Char} (h : ∀ c ∈ cs, test c = false) :
    splitAt? test cs = (cs, none) := by
  have hspan : cs.span (!test ·) = (cs, []) := by
    rw [List.span_eq_takeWhile_dropWhile, List.takeWhile_eq_self_iff.mpr,
      List.dropWhile_eq_nil_iff.mpr]
    all_goals
      intro c hc
      rw [h c hc, Bool.not_false]
  rw [splitAt?, hspan]

theorem splitAt?_append_cons {test : Char → Bool} {cs ds : List Char} {c : Char}
    (h : ∀ c ∈ cs, test c = false) (hc : test c = true) :
    splitAt? test (cs ++ c :: ds) = (cs, some ds) := by
  rw [splitAt?, Text.span_append_of_stop]
  · intro d hd
    rw [h d hd, Bool.not_false]
  · rintro d hd
    obtain rfl := Option.some.inj hd
    rw [hc, Bool.not_true]

theorem isAsciiDigit_ne {c d : Char} (h : isAsciiDigit c = true) (hd : isAsciiDigit d = false) :
    c ≠ d := by
  rintro rfl
  rw [h] at hd
  cases hd

namespace Decimal

theorem splitAt?_point {whole : List Char} (h : ∀ c ∈ whole, isAsciiDigit c = true)
    (fraction : List Char) : ∃ back,
      splitAt? (· == '.') (whole ++ fractionChars fraction) = (whole, back) ∧
        back.getD [] = fraction := by
  have hpoint : ∀ c ∈ whole, (c == '.') = false := by
    intro c hc
    rw [beq_eq_false_iff_ne]
    exact isAsciiDigit_ne (h c hc) rfl
  cases fraction with
  | nil =>
      refine ⟨none, ?_, rfl⟩
      rw [fractionChars, List.append_nil]
      exact splitAt?_of_forall hpoint
  | cons f fs => exact ⟨_, splitAt?_append_cons hpoint rfl, rfl⟩

/-- In front of the exponent there are digits and a point only. -/
theorem marksExponent_eq_false {whole fraction : List Char}
    (hwhole : ∀ c ∈ whole, isAsciiDigit c = true)
    (hfraction : ∀ c ∈ fraction, isAsciiDigit c = true) :
    ∀ c ∈ whole ++ fractionChars fraction, (c == 'e' || c == 'E') = false := by
  intro c hc
  have hmem : isAsciiDigit c = true ∨ c = '.' := by
    rcases List.mem_append.mp hc with hc | hc
    · exact Or.inl (hwhole c hc)
    · cases fraction with
      | nil => cases hc
      | cons f fs =>
          rcases List.mem_cons.mp hc with rfl | hc
          · exact Or.inr rfl
          · exact Or.inl (hfraction c hc)
  rcases hmem with hdigit | rfl
  · rw [Bool.or_eq_false_iff, beq_eq_false_iff_ne, beq_eq_false_iff_ne]
    exact ⟨isAsciiDigit_ne hdigit rfl, isAsciiDigit_ne hdigit rfl⟩
  · rfl

theorem splitSign_signChars {sign : Option Bool} {digits : List Char}
    (h : ∀ c ∈ digits, isAsciiDigit c = true) :
    splitSign (Exponent.signChars sign ++ digits) = (sign.getD false, digits) := by
  cases sign with
  | none => exact splitSign_of_digit fun c hc => h c (List.mem_of_mem_head? hc)
  | some negative => cases negative <;> rfl

theorem readExponent?_eq {e : Exponent} (h : e.WellFormed) :
    readExponent? (some (Exponent.signChars e.sign ++ e.digits))
      = some (exponentValue (some e)) := by
  obtain ⟨letter, sign, digits⟩ := e
  obtain ⟨-, hne, hdigits⟩ := h
  rw [readExponent?, splitSign_signChars hdigits]
  dsimp only
  rw [ungroup?_of_digits hdigits]
  cases digits with
  | nil => exact absurd rfl hne
  | cons c cs => rfl

theorem splitAt?_exponent {d : Decimal} (h : d.WellFormed) : ∃ back,
    splitAt? (fun c => c == 'e' || c == 'E') d.chars
        = (d.whole ++ fractionChars d.fraction, back) ∧
      readExponent? back = some (exponentValue d.exponent) := by
  obtain ⟨whole, fraction, exponent⟩ := d
  have hfront := marksExponent_eq_false h.whole h.fraction
  cases exponent with
  | none =>
      refine ⟨none, ?_, rfl⟩
      rw [chars, exponentChars, List.append_nil]
      exact splitAt?_of_forall hfront
  | some e =>
      have he := h.exponent e rfl
      exact ⟨_, splitAt?_append_cons hfront he.letter, readExponent?_eq he⟩

end Decimal

/-- A decimal fraction stands for its digits at their place. -/
theorem readDecimal?_chars {d : Decimal} (h : d.WellFormed) (negative : Bool) :
    readDecimal? negative d.chars = some (ofDecimal negative (d.whole ++ d.fraction) d.place) := by
  obtain ⟨exponentText, hexponent, hread⟩ := Decimal.splitAt?_exponent h
  obtain ⟨fractionText, hpoint, hfraction⟩ := Decimal.splitAt?_point h.whole d.fraction
  rw [readDecimal?, hexponent]
  dsimp only
  rw [hpoint]
  dsimp only
  rw [hfraction, ungroup?_of_digits h.whole, ungroup?_of_digits h.fraction, hread]
  dsimp only
  have hne := h.whole_ne_nil
  cases hwhole : d.whole with
  | nil => exact absurd hwhole hne
  | cons c cs => rfl

namespace Decimal

theorem exists_chars_eq {d : Decimal} (h : d.WellFormed) :
    ∃ c cs, d.chars = c :: cs ∧ isAsciiDigit c = true := by
  obtain ⟨whole, fraction, exponent⟩ := d
  cases whole with
  | nil => exact absurd rfl h.whole_ne_nil
  | cons c cs => exact ⟨c, _, rfl, h.whole c List.mem_cons_self⟩

theorem mem_chars {d : Decimal} (h : d.WellFormed) :
    ∀ c ∈ d.chars, isAsciiDigit c = true ∨ c ∈ ['.', 'e', 'E', '-', '+'] := by
  obtain ⟨whole, fraction, exponent⟩ := d
  obtain ⟨-, hwhole, hfraction, hexponent, -⟩ := h
  intro c hc
  rw [chars, List.append_assoc, List.mem_append, List.mem_append] at hc
  rcases hc with hc | hc | hc
  · exact Or.inl (hwhole c hc)
  · cases fraction with
    | nil => cases hc
    | cons f fs =>
        rcases List.mem_cons.mp hc with rfl | hc
        · exact Or.inr (by simp)
        · exact Or.inl (hfraction c hc)
  · cases exponent with
    | none => cases hc
    | some e =>
        obtain ⟨letter, sign, digits⟩ := e
        obtain ⟨hletter, -, hdigits⟩ := hexponent _ rfl
        rcases List.mem_cons.mp hc with rfl | hc
        · rw [Bool.or_eq_true, beq_iff_eq, beq_iff_eq] at hletter
          rcases hletter with rfl | rfl <;> exact Or.inr (by simp)
        · rcases List.mem_append.mp hc with hc | hc
          · cases sign with
            | none => cases hc
            | some negative =>
                obtain rfl := List.mem_singleton.mp hc
                cases negative <;> exact Or.inr (by simp)
          · exact Or.inl (hdigits c hc)

end Decimal

/-- A decimal fraction is no name of an infinity or of NaN. -/
theorem readBinary64?_chars {d : Decimal} (h : d.WellFormed) :
    readBinary64? (String.ofList d.chars)
      = some (ofDecimal false (d.whole ++ d.fraction) d.place) := by
  obtain ⟨c, cs, hchars, hc⟩ := d.exists_chars_eq h
  have hblank : ∀ c ∈ d.chars, Text.isBlank c = false := by
    intro c hc
    rcases Decimal.mem_chars h c hc with hdigit | hmark
    · exact Text.isBlank_of_isAsciiDigit hdigit
    · have hmarks : ∀ c ∈ ['.', 'e', 'E', '-', '+'], Text.isBlank c = false :=
        List.all_iff_forall_prop.mp (by decide)
      exact hmarks c hmark
  have hsplit : splitSign d.chars = (false, d.chars) := by
    apply splitSign_of_digit
    intro e he
    rw [hchars] at he
    obtain rfl := Option.some.inj he
    exact hc
  have hname {name : String} {e : Char} {es : List Char} (hhead : name.toList = e :: es)
      (he : isAsciiDigit e = false) : (d.chars.map Text.lowerChar == name.toList) = false := by
    rw [beq_eq_false_iff_ne]
    intro heq
    have hlower : Text.lowerChar c = c := by
      have hrange := Text.isAsciiDigit_iff.mp hc
      rw [Text.lowerChar, if_pos (by omega), if_neg]
      rw [Bool.and_eq_true, decide_eq_true_eq, decide_eq_true_eq]
      rintro ⟨hA, -⟩
      have : 65 ≤ c.toNat := hA
      omega
    rw [hchars, List.map_cons, hlower, hhead] at heq
    exact isAsciiDigit_ne hc he (List.cons.inj heq).1
  have hinf : "inf".toList = ['i', 'n', 'f'] := by decide
  have hinfinity : "infinity".toList = ['i', 'n', 'f', 'i', 'n', 'i', 't', 'y'] := by decide
  have hnan : "nan".toList = ['n', 'a', 'n'] := by decide
  rw [readBinary64?, String.toList_ofList, Text.trimChars_eq_self hblank, hsplit]
  dsimp only
  rw [hname hinf rfl, hname hinfinity rfl, hname hnan rfl]
  simp only [Bool.or_self, Bool.and_false, Bool.false_eq_true, if_false]
  exact readDecimal?_chars h false

end Numeral

end ApiProbe
