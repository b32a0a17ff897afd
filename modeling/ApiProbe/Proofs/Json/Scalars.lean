import ApiProbe.Json.Reader
import ApiProbe.Proofs.Json.Grammar
import ApiProbe.Proofs.Result

/-!
# Numbers and words of documents

A number is read as far as it goes in front of what cannot go on with it, a word whatever follows.
-/

namespace ApiProbe.Json

open Numeral (Decimal Exponent)
open Text (isAsciiDigit)

def delimiters : List Char :=
  spaceChars ++ [',', ']', '\x7d']

/-- What may stand behind a value: nothing, or a character that ends it. -/
def Delimited (rest : List Char) : Prop :=
  ∀ c ∈ rest.head?, c ∈ delimiters

theorem delimited_cons {c : Char} (hc : c ∈ delimiters) (rest : List Char) :
    Delimited (c :: rest) := by
  intro d hd
  obtain rfl := Option.some.inj hd
  exact hc

section Parts

variable {rest : List Char}

theorem wholePart?_append (n : Number) (hrest : ∀ c ∈ rest.head?, isAsciiDigit c = false) :
    wholePart? (n.decimal.whole ++ rest) = some (n.decimal.whole, rest) := by
  have hleading := n.leading
  have hdigits := n.whole
  revert hdigits hleading
  cases hwhole : n.decimal.whole with
  | nil => exact absurd hwhole n.whole_ne_nil
  | cons c cs =>
      intro hleading hdigits
      rw [List.forall_mem_cons] at hdigits
      rw [List.cons_append, wholePart?]
      by_cases hzero : c = '0'
      · subst hzero
        rw [hleading rfl, if_pos (beq_self_eq_true '0'), (List.cons.inj (hleading rfl)).2,
          List.nil_append]
      · have hrange := Text.isAsciiDigit_iff.mp hdigits.1
        have hpositive : ('1' ≤ c && c ≤ '9') = true := by
          have hne : c.toNat ≠ 48 := fun heq => hzero (Char.toNat_inj.mp heq)
          rw [Bool.and_eq_true, decide_eq_true_eq, decide_eq_true_eq]
          exact ⟨(show 49 ≤ c.toNat by omega), hrange.2⟩
        rw [if_neg (by simpa using hzero), if_pos hpositive,
          Text.takeWhile_append_of_stop hdigits.2 hrest,
          Text.dropWhile_append_of_stop hdigits.2 hrest]

theorem fractionPart_append {fraction : List Char} (hfraction : ∀ c ∈ fraction, isAsciiDigit c = true)
    (hrest : ∀ c ∈ rest.head?, isAsciiDigit c = false ∧ c ≠ '.') :
    ∃ part, fractionPart (Decimal.fractionChars fraction ++ rest) = (part, rest) ∧
      part.getD [] = fraction ∧ part.isNone = fraction.isEmpty := by
  cases fraction with
  | nil =>
      refine ⟨none, ?_, rfl, rfl⟩
      rw [Decimal.fractionChars, List.nil_append, fractionPart.eq_def]
      split
      · exact absurd rfl (hrest '.' rfl).2
      · rfl
  | cons f fs =>
      have hstop : ∀ c ∈ rest.head?, isAsciiDigit c = false := fun c hc => (hrest c hc).1
      refine ⟨some (f :: fs), ?_, rfl, rfl⟩
      rw [Decimal.fractionChars, List.cons_append, fractionPart,
        Text.takeWhile_append_of_stop hfraction hstop, Text.dropWhile_append_of_stop hfraction hstop]
      rfl

theorem exponentPart_append {exponent : Option Exponent} (hexponent : ∀ e ∈ exponent, e.WellFormed)
    (hrest : ∀ c ∈ rest.head?, isAsciiDigit c = false ∧ (c == 'e' || c == 'E') = false) :
    exponentPart (Decimal.exponentChars exponent ++ rest) = (exponent.map Exponent.value, rest) := by
  cases exponent with
  | none =>
      rw [Decimal.exponentChars, List.nil_append, exponentPart.eq_def]
      cases rest with
      | nil => rfl
      | cons c rest => exact if_neg (by simp [(hrest c rfl).2])
  | some e =>
      obtain ⟨letter, sign, digits⟩ := e
      obtain ⟨hletter, hne, hdigits⟩ := hexponent _ rfl
      have hstop : ∀ c ∈ rest.head?, isAsciiDigit c = false := fun c hc => (hrest c hc).1
      have hsplit : Numeral.splitSign (Exponent.signChars sign ++ digits ++ rest)
          = (sign.getD false, digits ++ rest) := by
        cases sign with
        | some negative => cases negative <;> rfl
        | none =>
            obtain ⟨d, ds, rfl⟩ := List.exists_cons_of_ne_nil hne
            refine Numeral.splitSign_of_digit fun c hc => hdigits c ?_
            obtain rfl := Option.some.inj hc
            exact List.mem_cons_self
      have hnonempty : digits.isEmpty = false := List.isEmpty_eq_false_iff.mpr hne
      rw [Decimal.exponentChars, Exponent.chars, List.cons_append, exponentPart]
      dsimp only
      rw [if_pos hletter, hsplit]
      dsimp only
      rw [Text.takeWhile_append_of_stop hdigits hstop, Text.dropWhile_append_of_stop hdigits hstop,
        hnonempty]
      rfl

end Parts

namespace Number

def isWhole (n : Number) : Bool :=
  n.decimal.fraction.isEmpty && n.decimal.exponent.isNone

/-- What a number stands for, unless it is a whole one of too many digits. -/
def datum? (n : Number) : Option Datum :=
  if n.isWhole then
    if Numeral.digitLimit < n.decimal.whole.length then none
    else some (.int (Binary64.signed n.negative (Numeral.ofDigits n.decimal.whole)))
  else
    some (.float (Numeral.ofDecimal n.negative (n.decimal.whole ++ n.decimal.fraction)
      n.decimal.place))

theorem place_eq (n : Number) : n.decimal.place
    = (n.decimal.exponent.map Exponent.value).getD 0 - (n.decimal.fraction.length : Int) := by
  rw [Decimal.place]
  cases n.decimal.exponent <;> rfl

theorem decimal_chars_of_isWhole {n : Number} (h : n.isWhole = true) :
    n.decimal.chars = n.decimal.whole := by
  obtain ⟨hfraction, hexponent⟩ := Bool.and_eq_true_iff.mp h
  rw [Decimal.chars, List.isEmpty_iff.mp hfraction, Option.isNone_iff_eq_none.mp hexponent]
  simp [Decimal.fractionChars, Decimal.exponentChars]

theorem wellFormed_decimal {n : Number} (h : ¬ n.isWhole = true) : n.decimal.WellFormed where
  whole_ne_nil := n.whole_ne_nil
  whole := n.whole
  fraction := n.fraction
  exponent := n.exponent
  marked := by
    rw [isWhole, Bool.and_eq_true, List.isEmpty_iff, Option.isNone_iff_eq_none, not_and_or] at h
    exact h

theorem head_decimal_chars (n : Number) :
    ∃ c cs, n.decimal.chars = c :: cs ∧ isAsciiDigit c = true := by
  obtain ⟨c, cs, hwhole⟩ := List.exists_cons_of_ne_nil n.whole_ne_nil
  have hc : isAsciiDigit c = true := n.whole c (by rw [hwhole]; exact List.mem_cons_self)
  rw [Decimal.chars, hwhole, List.append_assoc, List.cons_append]
  exact ⟨c, _, rfl, hc⟩

end Number

theorem digit_of_delimited {rest : List Char} (h : Delimited rest) :
    ∀ c ∈ rest.head?, isAsciiDigit c = false ∧ c ≠ '.' ∧ (c == 'e' || c == 'E') = false := by
  have hmarks : ∀ c ∈ delimiters,
      isAsciiDigit c = false ∧ c ≠ '.' ∧ (c == 'e' || c == 'E') = false :=
    List.all_iff_forall_prop.mp (by decide)
  exact fun c hc => hmarks c (h c hc)

/-- The parts of a number end where the next one starts. -/
theorem parts_delimited (n : Number) {rest : List Char} (hrest : Delimited rest) :
    (∀ c ∈ (Decimal.fractionChars n.decimal.fraction ++
        (Decimal.exponentChars n.decimal.exponent ++ rest)).head?, isAsciiDigit c = false) ∧
      ∀ c ∈ (Decimal.exponentChars n.decimal.exponent ++ rest).head?,
        isAsciiDigit c = false ∧ c ≠ '.' := by
  have hback : ∀ c ∈ (Decimal.exponentChars n.decimal.exponent ++ rest).head?,
      isAsciiDigit c = false ∧ c ≠ '.' := by
    cases hexponent : n.decimal.exponent with
    | none =>
        intro c hc
        exact ⟨(digit_of_delimited hrest c hc).1, (digit_of_delimited hrest c hc).2.1⟩
    | some e =>
        have hletter := (n.exponent e hexponent).letter
        rw [Bool.or_eq_true, beq_iff_eq, beq_iff_eq] at hletter
        intro c hc
        obtain rfl : e.letter = c := Option.some.inj hc
        rcases hletter with hletter | hletter <;> rw [hletter] <;> decide
  refine ⟨?_, hback⟩
  cases n.decimal.fraction with
  | nil => exact fun c hc => (hback c hc).1
  | cons f fs =>
      intro c hc
      obtain rfl := Option.some.inj hc
      decide

/-- A number is read as what it stands for. -/
theorem number?_chars (n : Number) {rest : List Char} (hrest : Delimited rest) :
    ∃ reading, number? (n.chars ++ rest) = some reading ∧
      reading.toOption = n.datum?.map (·, rest) := by
  obtain ⟨hwholeStop, hfractionStop⟩ := parts_delimited n hrest
  have hexponentStop := fun c hc =>
    And.intro (digit_of_delimited hrest c hc).1 (digit_of_delimited hrest c hc).2.2
  obtain ⟨part, hfraction, hpart, hnone⟩ := fractionPart_append n.fraction hfractionStop
  have hisNone : (n.decimal.exponent.map Exponent.value).isNone = n.decimal.exponent.isNone :=
    Option.isNone_map
  unfold number?
  split
  rename_i negative body hsplit
  obtain ⟨rfl, rfl⟩ : n.negative = negative ∧ n.decimal.chars ++ rest = body := by
    have hhead := n.head_decimal_chars
    rw [Number.chars] at hsplit
    cases hnegative : n.negative with
    | true =>
        rw [hnegative] at hsplit
        exact Prod.mk.inj hsplit
    | false =>
        obtain ⟨c, cs, hchars, hc⟩ := hhead
        rw [hnegative, if_neg Bool.false_ne_true, hchars] at hsplit
        rw [hchars]
        split at hsplit
        · rename_i heq
          exact absurd (List.cons.inj heq).1 (Numeral.isAsciiDigit_ne hc rfl)
        · exact Prod.mk.inj hsplit
  rw [Decimal.chars, List.append_assoc, List.append_assoc, wholePart?_append n hwholeStop]
  dsimp only
  rw [hfraction]
  dsimp only
  rw [exponentPart_append n.exponent hexponentStop]
  dsimp only
  rw [hpart, hnone, hisNone, ← n.place_eq, Number.datum?, Number.isWhole]
  split
  · split
    · exact ⟨_, rfl, rfl⟩
    · exact ⟨_, rfl, rfl⟩
  · exact ⟨_, rfl, rfl⟩

theorem word?_eq_none {cs : List Char} (h : ∀ entry ∈ words, ¬ entry.1.toList <+: cs) :
    word? cs = none := by
  rw [word?, List.findSome?_eq_none_iff]
  rintro ⟨word, d⟩ hentry
  have hdrop : dropWord? word cs = none := by
    rw [dropWord?, if_neg]
    rw [List.isPrefixOf_iff_prefix]
    exact h _ hentry
  exact Option.map_eq_none_iff.mpr hdrop

/-- No word starts as a number does. -/
theorem word?_digit {c : Char} (hc : isAsciiDigit c = true) (cs : List Char) :
    word? (c :: cs) = none ∧ word? ('-' :: c :: cs) = none := by
  have hwords : ∀ entry ∈ words, ∃ w v ws, entry.1.toList = w :: v :: ws ∧
      isAsciiDigit w = false ∧ isAsciiDigit v = false := by
    simp only [words, List.mem_cons, List.not_mem_nil, or_false, forall_eq_or_imp, forall_eq]
    exact ⟨⟨_, _, _, rfl, rfl, rfl⟩, ⟨_, _, _, rfl, rfl, rfl⟩, ⟨_, _, _, rfl, rfl, rfl⟩,
      ⟨_, _, _, rfl, rfl, rfl⟩, ⟨_, _, _, rfl, rfl, rfl⟩, ⟨_, _, _, rfl, rfl, rfl⟩⟩
  constructor
  · refine word?_eq_none fun entry hentry => ?_
    obtain ⟨w, v, ws, hchars, hw, -⟩ := hwords entry hentry
    rw [hchars, List.cons_prefix_cons]
    exact fun h => Numeral.isAsciiDigit_ne hc hw h.1.symm
  · refine word?_eq_none fun entry hentry => ?_
    obtain ⟨w, v, ws, hchars, -, hv⟩ := hwords entry hentry
    rw [hchars, List.cons_prefix_cons, List.cons_prefix_cons]
    exact fun h => Numeral.isAsciiDigit_ne hc hv h.2.1.symm

theorem Number.exists_chars_eq (n : Number) (rest : List Char) :
    ∃ c cs, n.chars ++ rest = c :: cs ∧ (c = '-' ∨ isAsciiDigit c = true) ∧
      word? (c :: cs) = none := by
  obtain ⟨c, cs, hchars, hc⟩ := n.head_decimal_chars
  rw [Number.chars, hchars]
  cases n.negative with
  | true => exact ⟨'-', _, rfl, Or.inl rfl, (word?_digit hc _).2⟩
  | false => exact ⟨c, _, rfl, Or.inr hc, (word?_digit hc _).1⟩

end ApiProbe.Json
