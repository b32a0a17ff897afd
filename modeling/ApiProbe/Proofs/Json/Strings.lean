import ApiProbe.Proofs.Json.Grammar
import ApiProbe.Proofs.Json.Quoted

/-!
# Strings of documents

A string is read as the characters that its pieces stand for, whatever follows its closing quote.
-/

namespace ApiProbe.Json

/-- Four digits of an escape by code. -/
structure IsCode (digits : List Char) : Prop where
  length : digits.length = 4
  hex : ∀ c ∈ digits, isHexDigit c = true

theorem isSome_hexValue? {c : Char} (h : isHexDigit c = true) : ∃ n, hexValue? c = some n := by
  unfold isHexDigit at h
  unfold hexValue?
  split
  · exact ⟨_, rfl⟩
  · rename_i hdecimal
    rw [Bool.eq_false_of_not_eq_true hdecimal, Bool.false_or] at h
    split
    · exact ⟨_, rfl⟩
    · rename_i hlower
      rw [Bool.eq_false_of_not_eq_true hlower, Bool.false_or] at h
      exact ⟨_, if_pos h⟩

section Code

variable {digits rest : List Char}

theorem IsCode.hex4?_append (h : IsCode digits) (rest : List Char) :
    hex4? (digits ++ rest) = some (codeUnit digits) := by
  obtain ⟨hlength, hhex⟩ := h
  match digits, hlength with
  | [a, b, c, d], _ =>
      simp only [List.forall_mem_cons] at hhex
      obtain ⟨ha, hb, hc, hd, -⟩ := hhex
      obtain ⟨i, hi⟩ := isSome_hexValue? ha
      obtain ⟨j, hj⟩ := isSome_hexValue? hb
      obtain ⟨k, hk⟩ := isSome_hexValue? hc
      obtain ⟨l, hl⟩ := isSome_hexValue? hd
      simp [codeUnit, hex4?, hi, hj, hk, hl]

theorem IsCode.drop_append (h : IsCode digits) (rest : List Char) : (digits ++ rest).drop 4 = rest := by
  rw [← h.length, List.drop_left]

/-- A code that makes no pair with what follows stands for its own character. -/
theorem unicodeEscape_single (h : IsCode digits) (hrest : rest ≠ [])
    (hpair : ∀ more, rest = '\\' :: 'u' :: more →
      isHighSurrogate (codeUnit digits) = false ∨
        ∃ low, hex4? more = some low ∧ isLowSurrogate low = false) :
    unicodeEscape (digits ++ rest) = .ok (unitChar (codeUnit digits), 4) := by
  have hne : rest.isEmpty = false := List.isEmpty_eq_false_iff.mpr hrest
  rw [unicodeEscape, h.drop_append, hne, if_neg Bool.false_ne_true, h.hex4?_append]
  dsimp only
  split
  · rename_i more
    split
    · rename_i hhigh
      rw [Bool.and_eq_true] at hhigh
      rcases hpair more rfl with hlow | ⟨low, hlow, hnot⟩
      · rw [hlow] at hhigh
        cases hhigh.1
      · rw [hlow]
        dsimp only
        rw [hnot, if_neg Bool.false_ne_true]
    · rfl
  · rfl

/-- Codes of a pair of surrogates stand for one character. -/
theorem unicodeEscape_pair {low : List Char} (h : IsCode digits) (hlow : IsCode low)
    (hrest : rest ≠ [])
    (hpair : (isHighSurrogate (codeUnit digits) && isLowSurrogate (codeUnit low)) = true) :
    unicodeEscape (digits ++ '\\' :: 'u' :: (low ++ rest))
      = .ok (Char.ofNat (0x10000 + (codeUnit digits - 0xD800) * 1024 + (codeUnit low - 0xDC00)),
        10) := by
  obtain ⟨hhigh, hlower⟩ := Bool.and_eq_true_iff.mp hpair
  have hne : rest.isEmpty = false := List.isEmpty_eq_false_iff.mpr hrest
  rw [unicodeEscape, h.drop_append, List.isEmpty_cons, if_neg Bool.false_ne_true, h.hex4?_append]
  dsimp only
  split
  · rename_i heq
    obtain rfl := (List.cons.inj (List.cons.inj heq).2).2
    rw [hlow.drop_append, hne, hhigh, if_pos (by decide), hlow.hex4?_append]
    dsimp only
    rw [hlower, if_pos rfl]
  · rename_i hother
    exact absurd rfl (hother _)

end Code

section Body

variable {start : Nat} {rest : List Char}

theorem stringBody_letter {c : Char} (h : c ∈ escapeLetters) :
    stringBody start ('\\' :: c :: rest)
      = (stringBody start rest).map fun (cs, after) => ((escaped? c).getD c :: cs, after) := by
  have hletters : ∀ c ∈ escapeLetters, c ≠ 'u' ∧ escaped? c = some ((escaped? c).getD c) :=
    List.all_iff_forall_prop.mp (by decide)
  obtain ⟨hu, hescaped⟩ := hletters c h
  rw [stringBody, if_neg (by decide), if_pos (by decide)]
  dsimp only
  rw [if_neg (by simp [hu]), hescaped]
  rfl

theorem stringBody_code {digits : List Char} {c : Char} {count : Nat}
    (h : unicodeEscape (digits ++ rest) = .ok (c, count)) :
    stringBody start ('\\' :: 'u' :: (digits ++ rest))
      = (stringBody start ((digits ++ rest).drop count)).map fun (cs, after) => (c :: cs, after) := by
  rw [stringBody, if_neg (by decide), if_pos (by decide)]
  dsimp only
  rw [if_pos (by decide), h]

/-- Only a piece by code starts as an escape by code does. -/
theorem exists_code_of_flatMap_chars {pieces : List Piece} {more : List Char}
    (h : pieces.flatMap Piece.chars ++ '"' :: rest = '\\' :: 'u' :: more) :
    ∃ digits hlength hdigits others, pieces = .code digits hlength hdigits :: others := by
  cases pieces with
  | nil => exact absurd (List.cons.inj h).1 (by decide)
  | cons piece pieces =>
      cases piece with
      | plain c hc => exact absurd (List.cons.inj h).1 hc.2.2
      | letter c hc =>
          have hu : c = 'u' := (List.cons.inj (List.cons.inj h).2).1
          rw [hu] at hc
          exact absurd hc (by decide)
      | code digits hlength hdigits => exact ⟨digits, hlength, hdigits, pieces, rfl⟩

/-- The body of a string is read as the characters that its pieces stand for. -/
theorem stringBody_pieces (start : Nat) (pieces : List Piece) (rest : List Char) :
    stringBody start (pieces.flatMap Piece.chars ++ '"' :: rest) = .ok (decode pieces, rest) := by
  have hne (pieces : List Piece) : pieces.flatMap Piece.chars ++ '"' :: rest ≠ [] := by simp
  induction pieces using decode.induct with
  | case1 => exact stringBody_quote start rest
  | case2 c h pieces ih =>
      rw [List.flatMap_cons, List.append_assoc, Piece.chars, List.singleton_append,
        stringBody_plain _ _ h.2.1 h.2.2 h.1, ih]
      rfl
  | case3 c h pieces ih =>
      rw [List.flatMap_cons, List.append_assoc, Piece.chars, List.cons_append, List.cons_append,
        List.nil_append, stringBody_letter h, ih]
      rfl
  | case4 high hhigh hhexHigh low hlow hhexLow pieces hpair ih =>
      have hescape := unicodeEscape_pair ⟨hhigh, hhexHigh⟩ ⟨hlow, hhexLow⟩ (hne pieces) hpair
      have hdrop (cs : List Char) : (high ++ '\\' :: 'u' :: (low ++ cs)).drop 10 = cs := by
        rw [← List.drop_drop (i := 6) (j := 4), IsCode.drop_append ⟨hhigh, hhexHigh⟩,
          List.drop_succ_cons, List.drop_succ_cons, IsCode.drop_append ⟨hlow, hhexLow⟩]
      rw [List.flatMap_cons, List.flatMap_cons, List.append_assoc, List.append_assoc, decode,
        if_pos hpair]
      refine (stringBody_code hescape).trans ?_
      rw [hdrop, ih]
      rfl
  | case5 high hhigh hhexHigh low hlow hhexLow pieces hpair ih =>
      have hescape := unicodeEscape_single ⟨hhigh, hhexHigh⟩
        (hne (.code low hlow hhexLow :: pieces)) fun more hmore => by
          have hmore' : low ++ (pieces.flatMap Piece.chars ++ '"' :: rest) = more := by
            rw [List.flatMap_cons, List.append_assoc] at hmore
            exact (List.cons.inj (List.cons.inj hmore).2).2
          rw [Bool.and_eq_true, not_and_or, Bool.not_eq_true, Bool.not_eq_true] at hpair
          rw [← hmore', IsCode.hex4?_append ⟨hlow, hhexLow⟩]
          exact hpair.imp_right fun hnot => ⟨_, rfl, hnot⟩
      rw [List.flatMap_cons, List.append_assoc, decode, if_neg hpair]
      refine (stringBody_code hescape).trans ?_
      rw [IsCode.drop_append ⟨hhigh, hhexHigh⟩, ih]
      rfl
  | case6 digits hlength hhex pieces hnot ih =>
      have hescape := unicodeEscape_single ⟨hlength, hhex⟩ (hne pieces) fun more hmore => by
        obtain ⟨low, hlow, hhexLow, others, heq⟩ := exists_code_of_flatMap_chars hmore
        exact absurd heq (hnot low hlow hhexLow others)
      rw [List.flatMap_cons, List.append_assoc, decode.eq_5 _ _ _ _ hnot]
      refine (stringBody_code hescape).trans ?_
      rw [IsCode.drop_append ⟨hlength, hhex⟩, ih]
      rfl

end Body

end ApiProbe.Json
