import Mathlib.Data.List.Induction
import Mathlib.Data.List.TakeDrop
import Mathlib.Data.List.TakeWhile
import Mathlib.Tactic.Ring
import ApiProbe.Number.Numeral

/-!
# Digits

A whole number is written with the ten digits of ASCII and read back from them.
-/

namespace ApiProbe

namespace Text

section Segment

variable {p : Char → Bool} {xs ys : List Char}

theorem takeWhile_append_of_stop (h : ∀ c ∈ xs, p c = true) (hstop : ∀ c ∈ ys.head?, p c = false) :
    (xs ++ ys).takeWhile p = xs := by
  rw [List.takeWhile_append_of_pos h]
  cases ys with
  | nil => rw [List.takeWhile_nil, List.append_nil]
  | cons y ys => rw [List.takeWhile_cons_of_neg (by simp [hstop y rfl]), List.append_nil]

theorem takeWhile_append_of_head (hstop : ∀ c ∈ ys.head?, p c = false) (xs : List Char) :
    (xs ++ ys).takeWhile p = xs.takeWhile p := by
  induction xs with
  | nil => exact takeWhile_append_of_stop nofun hstop
  | cons x xs ih => rw [List.cons_append, List.takeWhile_cons, List.takeWhile_cons, ih]

theorem dropWhile_append_of_stop (h : ∀ c ∈ xs, p c = true) (hstop : ∀ c ∈ ys.head?, p c = false) :
    (xs ++ ys).dropWhile p = ys := by
  rw [List.dropWhile_append_of_pos h]
  cases ys with
  | nil => rfl
  | cons y ys => rw [List.dropWhile_cons_of_neg (by simp [hstop y rfl])]

theorem span_append_of_stop (h : ∀ c ∈ xs, p c = true) (hstop : ∀ c ∈ ys.head?, p c = false) :
    (xs ++ ys).span p = (xs, ys) := by
  rw [List.span_eq_takeWhile_dropWhile, takeWhile_append_of_stop h hstop,
    dropWhile_append_of_stop h hstop]

end Segment

theorem isAsciiDigit_iff {c : Char} : isAsciiDigit c = true ↔ 48 ≤ c.toNat ∧ c.toNat ≤ 57 := by
  simp only [isAsciiDigit, Bool.and_eq_true, decide_eq_true_eq]
  exact Iff.rfl

theorem decimalValue?_of_isAsciiDigit {c : Char} (h : isAsciiDigit c = true) :
    decimalValue? c = some (c.toNat - 48) := by
  have hrange := isAsciiDigit_iff.mp h
  rw [decimalValue?, if_pos (by omega), if_pos h]
  rfl

theorem isDecimal_of_isAsciiDigit {c : Char} (h : isAsciiDigit c = true) : isDecimal c = true := by
  rw [isDecimal, decimalValue?_of_isAsciiDigit h, Option.isSome_some]

theorem isBlank_of_isAsciiDigit {c : Char} (h : isAsciiDigit c = true) : isBlank c = false := by
  have hrange := isAsciiDigit_iff.mp h
  simp only [isBlank, Bool.or_eq_false_iff, Bool.and_eq_false_iff, decide_eq_false_iff_not,
    beq_eq_false_iff_ne]
  omega

theorem isAsciiDigit_digitChar {d : Nat} (h : d < 10) : isAsciiDigit d.digitChar = true := by
  rw [isAsciiDigit_iff, Nat.toNat_digitChar_of_lt_ten h]
  omega

theorem isAsciiDigit_of_mem_toDigits {n : Nat} :
    ∀ c ∈ Nat.toDigits 10 n, isAsciiDigit c = true := by
  intro c hc
  have h := Nat.isDigit_of_mem_toDigits (by decide) (by decide) hc
  simp only [Char.isDigit, Bool.and_eq_true, decide_eq_true_eq] at h
  exact isAsciiDigit_iff.mpr h

theorem trimChars_eq_self {cs : List Char} (h : ∀ c ∈ cs, isBlank c = false) : trimChars cs = cs := by
  have hdrop {ds : List Char} (hds : ∀ c ∈ ds, isBlank c = false) : ds.dropWhile isBlank = ds :=
    List.dropWhile_eq_self_iff.mpr fun hlength => by simp [hds _ (List.getElem_mem hlength)]
  rw [trimChars, trimStartChars, hdrop h, trimEndChars,
    hdrop fun c hc => h c (List.mem_reverse.mp hc), List.reverse_reverse]

end Text

namespace Numeral

open Text (isAsciiDigit)

theorem ofDigits_append_singleton (cs : List Char) (c : Char) :
    ofDigits (cs ++ [c]) = ofDigits cs * 10 + (Text.decimalValue? c).getD 0 := by
  rw [ofDigits, List.foldl_append]
  rfl

theorem ofDigits_append (cs ds : List Char) :
    ofDigits (cs ++ ds) = ofDigits cs * 10 ^ ds.length + ofDigits ds := by
  induction ds using List.reverseRecOn with
  | nil => simp [ofDigits]
  | append_singleton ds d ih =>
      rw [← List.append_assoc, ofDigits_append_singleton, ofDigits_append_singleton, ih,
        List.length_append, List.length_singleton]
      ring

theorem ofDigits_replicate_zero (k : Nat) : ofDigits (List.replicate k '0') = 0 := by
  induction k with
  | zero => rfl
  | succ k ih =>
      rw [List.replicate_succ', ofDigits_append_singleton, ih,
        Text.decimalValue?_of_isAsciiDigit (by decide)]
      rfl

theorem ofDigits_singleton_digitChar {d : Nat} (h : d < 10) : ofDigits [d.digitChar] = d := by
  rw [← List.nil_append [d.digitChar], ofDigits_append_singleton,
    Text.decimalValue?_of_isAsciiDigit (Text.isAsciiDigit_digitChar h), Option.getD_some,
    Nat.toNat_digitChar_sub_48_of_lt_ten h]
  exact Nat.zero_add d

@[simp]
theorem ofDigits_toDigits (n : Nat) : ofDigits (Nat.toDigits 10 n) = n := by
  induction n using Nat.strongRecOn with
  | ind n ih =>
      by_cases hn : n < 10
      · rw [Nat.toDigits_of_lt_base hn, ofDigits_singleton_digitChar hn]
      · have hrest : n % 10 < 10 := Nat.mod_lt n (by decide)
        rw [Nat.toDigits_of_base_le (by decide) (by omega), ofDigits_append, ih (n / 10) (by omega),
          ofDigits_singleton_digitChar hrest]
        exact Nat.div_add_mod' n 10

theorem length_toDigits_le {n k : Nat} (hk : 0 < k) (h : n < tenTo k) :
    (Nat.toDigits 10 n).length ≤ k :=
  (Nat.length_toDigits_le_iff (by decide) hk).mpr h

theorem ungroup?_of_forall_isDecimal :
    ∀ {cs : List Char}, (∀ c ∈ cs, Text.isDecimal c = true) → ungroup? cs = some cs
  | [], _ => rfl
  | [c], h => by rw [ungroup?, if_pos (h c List.mem_cons_self)]
  | c :: d :: rest, h => by
      have hc := h c List.mem_cons_self
      have hrest : ungroup? (d :: rest) = some (d :: rest) :=
        ungroup?_of_forall_isDecimal fun e he => h e (List.mem_cons_of_mem c he)
      have hd : d ≠ '_' := by
        rintro rfl
        exact absurd (h '_' (List.mem_cons_of_mem c List.mem_cons_self)) (by decide)
      rw [ungroup?.eq_4 c d rest (fun _ _ heq _ => hd heq), if_pos hc, hrest, Option.map_some]

theorem ungroup?_of_digits {cs : List Char} (h : ∀ c ∈ cs, isAsciiDigit c = true) :
    ungroup? cs = some cs :=
  ungroup?_of_forall_isDecimal fun c hc => Text.isDecimal_of_isAsciiDigit (h c hc)

theorem splitSign_of_digit {cs : List Char} (h : ∀ c ∈ cs.head?, isAsciiDigit c = true) :
    splitSign cs = (false, cs) := by
  cases cs with
  | nil => rfl
  | cons c cs =>
      have hc : isAsciiDigit c = true := h c rfl
      rw [splitSign.eq_def]
      split
      · rename_i heq
        obtain ⟨rfl, -⟩ := List.cons.inj heq
        exact absurd hc (by decide)
      · rename_i heq
        obtain ⟨rfl, -⟩ := List.cons.inj heq
        exact absurd hc (by decide)
      · rfl

/-- Digits are read as the whole number they stand for, unless there are too many of them. -/
theorem readInt_ofList {cs : List Char} (hne : cs ≠ []) (hdigits : ∀ c ∈ cs, isAsciiDigit c = true) :
    readInt (String.ofList cs) =
      if digitLimit < cs.length then .error (.tooLong cs.length) else .ok (ofDigits cs : Int) := by
  have hblank : ∀ c ∈ cs, Text.isBlank c = false :=
    fun c hc => Text.isBlank_of_isAsciiDigit (hdigits c hc)
  have hsplit : splitSign cs = (false, cs) :=
    splitSign_of_digit fun c hc => hdigits c (List.mem_of_mem_head? hc)
  have hspan : cs.span (fun c => Text.isDecimal c || c == '_') = (cs, []) := by
    rw [List.span_eq_takeWhile_dropWhile, List.takeWhile_eq_self_iff.mpr,
      List.dropWhile_eq_nil_iff.mpr]
    all_goals
      intro c hc
      rw [Text.isDecimal_of_isAsciiDigit (hdigits c hc), Bool.true_or]
  rw [readInt, String.toList_ofList, Text.trimChars_eq_self hblank, hsplit]
  dsimp only
  rw [hspan]
  dsimp only
  rw [ungroup?_of_digits hdigits]
  split
  · rename_i hnone
    cases hnone
  · rename_i hnil
    exact absurd (Option.some.inj hnil) hne
  · rename_i digits hsome
    obtain rfl := Option.some.inj hsome
    rfl

/-- A whole number within the digit limit is read back from its digits. -/
theorem readInt_ofList_toDigits {n : Nat} (h : fits n = true) :
    readInt (String.ofList (Nat.toDigits 10 n)) = .ok (n : Int) := by
  have hlimit : (Nat.toDigits 10 n).length ≤ digitLimit :=
    length_toDigits_le (by decide) (of_decide_eq_true h)
  rw [readInt_ofList Nat.toDigits_ne_nil Text.isAsciiDigit_of_mem_toDigits, if_neg (by omega),
    ofDigits_toDigits]

theorem getD_decimalValue?_le (c : Char) : (Text.decimalValue? c).getD 0 ≤ 9 := by
  rw [Text.decimalValue?]
  split
  · split
    · rename_i hdigit
      have hrange := Text.isAsciiDigit_iff.mp hdigit
      have hzero : '0'.toNat = 48 := rfl
      rw [Option.getD_some]
      omega
    · exact Nat.zero_le 9
  · cases Text.offsetInRanges? Text.decimalRanges c with
    | none => exact Nat.zero_le 9
    | some offset => exact Nat.le_of_lt_succ (Nat.mod_lt offset (by decide))

theorem ofDigits_lt (cs : List Char) : ofDigits cs < 10 ^ cs.length := by
  induction cs using List.reverseRecOn with
  | nil => exact Nat.one_pos
  | append_singleton cs c ih =>
      have hlast := getD_decimalValue?_le c
      rw [ofDigits_append_singleton, List.length_append, List.length_singleton, Nat.pow_succ]
      omega

/-- A whole number that is read can be written. -/
theorem fits_of_readInt {text : String} {n : Int} (h : readInt text = .ok n) : fits n = true := by
  rw [readInt] at h
  dsimp only at h
  split at h
  · cases h
  · cases h
  · rename_i digits _ _
    split at h
    · cases h
    · rename_i hlimit
      split at h
      · obtain rfl := Except.ok.inj h
        have habs : ∀ negative m, (Binary64.signed negative m).natAbs = m := by
          intro negative m
          cases negative <;> simp [Binary64.signed]
        rw [fits, habs, decide_eq_true_iff]
        generalize digitLimit = limit at hlimit ⊢
        exact (ofDigits_lt digits).trans_le (Nat.pow_le_pow_right (by decide) (not_lt.mp hlimit))
      · cases h

end Numeral

end ApiProbe
