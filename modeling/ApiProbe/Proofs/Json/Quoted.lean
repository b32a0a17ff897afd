import ApiProbe.Json.Reader
import ApiProbe.Proofs.Result

/-!
# Quoted texts

A quoted text is a JSON string, and it stands for the text that was quoted.
-/

namespace ApiProbe

namespace Text

/-- The characters that are escaped by a letter of their own, each with its letter. -/
def letters : List (Char × Char) :=
  [('"', '"'), ('\\', '\\'), ('\n', 'n'), ('\r', 'r'), ('\t', 't'), ('\x08', 'b'), ('\x0c', 'f')]

theorem escape_of_mem_letters : ∀ e ∈ letters,
    escape e.1 = ['\\', e.2] ∧ e.2 ≠ 'u' ∧ e.2 ≠ '\n' ∧ Json.escaped? e.2 = some e.1 := by
  decide

theorem escape_of_notMem_letters {c : Char} (h : c ∉ letters.map Prod.fst) :
    escape c = if c.toNat < 32 then '\\' :: 'u' :: hex 4 c.toNat else [c] := by
  simp only [letters, List.map_cons, List.map_nil, List.mem_cons, List.not_mem_nil, or_false,
    not_or] at h
  simp [escape, h]

/-- A character is escaped by a letter of its own, by its code, or not at all. -/
theorem escape_cases (c : Char) :
    (∃ d, escape c = ['\\', d] ∧ d ≠ 'u' ∧ d ≠ '\n' ∧ Json.escaped? d = some c) ∨
      (escape c = '\\' :: 'u' :: hex 4 c.toNat ∧ c.toNat < 32) ∨
      (escape c = [c] ∧ c ≠ '"' ∧ c ≠ '\\' ∧ c ≠ '\n' ∧ 32 ≤ c.toNat) := by
  by_cases hletter : c ∈ letters.map Prod.fst
  · obtain ⟨e, he, rfl⟩ := List.mem_map.mp hletter
    exact Or.inl ⟨e.2, escape_of_mem_letters e he⟩
  · have hne {d : Char} (hd : d ∈ letters.map Prod.fst) : c ≠ d := by
      rintro rfl
      exact hletter hd
    rw [escape_of_notMem_letters hletter]
    by_cases hcode : c.toNat < 32
    · rw [if_pos hcode]
      exact Or.inr (Or.inl ⟨rfl, hcode⟩)
    · rw [if_neg hcode]
      have hplain : c ≠ '"' ∧ c ≠ '\\' ∧ c ≠ '\n' :=
        ⟨hne (by decide), hne (by decide), hne (by decide)⟩
      exact Or.inr (Or.inr ⟨rfl, hplain.1, hplain.2.1, hplain.2.2, Nat.not_lt.mp hcode⟩)

theorem hex_four (n : Nat) : hex 4 n = [hexDigit (n / 16 / 16 / 16 % 16), hexDigit (n / 16 / 16 % 16),
    hexDigit (n / 16 % 16), hexDigit (n % 16)] :=
  rfl

end Text

namespace Json

open Text (hex hexDigit escape)

theorem hexValue?_hexDigit : ∀ d < 16, hexValue? (hexDigit d) = some d := by
  decide

theorem hex4?_hex {n : Nat} (hn : n < 65536) (rest : List Char) :
    hex4? (hex 4 n ++ rest) = some n := by
  have hdigit (k : Nat) := hexValue?_hexDigit (k % 16) (Nat.mod_lt k (by decide))
  rw [Text.hex_four]
  simp only [List.cons_append, hex4?, hdigit, Option.bind_eq_bind, Option.bind_some, Option.pure_def,
    Option.some.injEq]
  omega

theorem unitChar_toNat (c : Char) : unitChar c.toNat = c := by
  have hvalid : c.toNat.isValidChar := c.valid
  rw [unitChar, if_pos hvalid]
  exact Char.ofNat_toNat c

theorem isHighSurrogate_of_lt {n : Nat} (hn : n < 32) : isHighSurrogate n = false := by
  rw [isHighSurrogate, Bool.and_eq_false_iff]
  exact Or.inl (decide_eq_false (by omega))

theorem unicodeEscape_hex {c : Char} (hc : c.toNat < 32) {rest : List Char} (hrest : rest ≠ []) :
    unicodeEscape (hex 4 c.toNat ++ rest) = .ok (c, 4) := by
  have hdrop : (hex 4 c.toNat ++ rest).drop 4 = rest := rfl
  rw [unicodeEscape, hdrop, if_neg (by simp [hrest]), hex4?_hex (by omega)]
  dsimp only
  split
  · rw [isHighSurrogate_of_lt hc, Bool.false_and, if_neg Bool.false_ne_true, unitChar_toNat]
  · rw [unitChar_toNat]

theorem stringBody_quote (start : Nat) (rest : List Char) :
    stringBody start ('"' :: rest) = .ok ([], rest) := by
  rw [stringBody.eq_def]
  dsimp only
  rw [if_pos (by decide)]

theorem stringBody_plain (start : Nat) {c : Char} (rest : List Char) (hquote : c ≠ '"')
    (hbackslash : c ≠ '\\') (hc : 32 ≤ c.toNat) :
    stringBody start (c :: rest)
      = (stringBody start rest).map fun (cs, after) => (c :: cs, after) := by
  refine (stringBody.eq_def start (c :: rest)).trans ?_
  dsimp only
  rw [if_neg (by simp [hquote]), if_neg (by simp [hbackslash]), if_neg (by omega)]

theorem stringBody_escape (start : Nat) (c : Char) {rest : List Char} (hrest : rest ≠ []) :
    stringBody start (escape c ++ rest)
      = (stringBody start rest).map fun (cs, after) => (c :: cs, after) := by
  rcases Text.escape_cases c with ⟨d, hescape, hu, -, hd⟩ | ⟨hescape, hc⟩ |
    ⟨hescape, hquote, hbackslash, -, hc⟩
  · rw [hescape, List.cons_append, List.cons_append, List.nil_append, stringBody,
      if_neg (by decide), if_pos (by decide)]
    dsimp only
    rw [if_neg (by simp [hu]), hd]
  · rw [hescape, List.cons_append, List.cons_append, stringBody, if_neg (by decide),
      if_pos (by decide)]
    dsimp only
    rw [if_pos (by decide), unicodeEscape_hex hc hrest]
    rfl
  · rw [hescape, List.singleton_append, stringBody_plain start rest hquote hbackslash hc]

theorem stringBody_quoted (start : Nat) (cs rest : List Char) :
    stringBody start (cs.flatMap escape ++ '"' :: rest) = .ok (cs, rest) := by
  induction cs with
  | nil => rw [List.flatMap_nil, List.nil_append, stringBody_quote]
  | cons c cs ih =>
      rw [List.flatMap_cons, List.append_assoc, stringBody_escape start c (by simp), ih]
      rfl

theorem value_quoted (fuel : Nat) (cs : List Char) :
    value (fuel + 1) (Text.quotedChars cs) = .ok (.string (String.ofList cs), []) := by
  rw [Text.quotedChars, List.cons_append, value, stringBody_quoted]
  rfl

/-- A quoted text stands for the text. -/
theorem readString_quoted (s : String) : readString (Text.quoted s) = .ok s := by
  have hread : readChars (Text.quotedChars s.toList) = .ok (.string s) := by
    have hskip : skipSpace (Text.quotedChars s.toList) = Text.quotedChars s.toList :=
      List.dropWhile_cons_of_neg (by decide)
    rw [readChars.eq_def]
    split
    · rename_i heq
      exact absurd (List.cons.inj heq).1 (by decide)
    · rw [hskip, value_quoted, String.ofList_toList]
      rfl
  rw [readString, read, Text.quoted, String.toList_ofList, hread]
  rfl

end Json

end ApiProbe
