import Mathlib.Data.Bool.AllAny
import ApiProbe.Expr.Token
import ApiProbe.Proofs.Json.Quoted
import ApiProbe.Proofs.Number.Decimal

/-!
# Lexemes

What a printed token is read as. Terminals are told apart by the character they start with, but for
the two kinds of number, which are told apart by what follows the digits.
-/

namespace ApiProbe.Expr

open Text (isAsciiDigit isDecimal)

theorem separatorUnit?_eq_none {c : Char} {rest : List Char}
    (h : [',', '\n', '/'].contains c = false) : separatorUnit? (c :: rest) = none := by
  rw [separatorUnit?.eq_def]
  split
  · rename_i heq
    obtain ⟨rfl, -⟩ := List.cons.inj heq
    exact absurd h (by decide)
  · rename_i heq
    obtain ⟨rfl, rfl⟩ := List.cons.inj heq
    rw [if_neg]
    rw [Bool.or_eq_true, beq_iff_eq, beq_iff_eq]
    rintro (rfl | rfl) <;> exact absurd h (by decide)
  · rfl

namespace Terminal

def startsWith (c : Char) : Terminal → Bool
  | .float | .int => isDecimal c
  | .test => ['=', '!', '<', '>'].contains c
  | .name => Value.isLabelStart c
  | .separator => [',', '\n', '/'].contains c
  | .string => c == '"'
  | .ellipsis => c == '.'
  | .finish => false
  | terminal => terminal.symbol? == some c

theorem more?_eq_none {c : Char} {rest : List Char} {t : Terminal} (h : t.startsWith c = false) :
    t.more? c rest = none := by
  cases t with
  | float =>
      have hc : isDecimal c = false := h
      rw [more?, floatMore?, if_neg (by simp [hc])]
  | int =>
      have hc : isDecimal c = false := h
      rw [more?, if_neg (by simp [hc])]
  | test =>
      rw [more?, testMore?.eq_def]
      split <;> first | rfl | exact absurd h (by decide)
  | name =>
      have hc : Value.isLabelStart c = false := h
      rw [more?, nameMore?, if_neg (by simp [hc])]
  | separator =>
      have hc : [',', '\n', '/'].contains c = false := h
      rw [more?, separatorMore?, separatorLength, separatorUnit?_eq_none hc]
  | string =>
      have hc : (c == '"') = false := h
      rw [more?, if_neg (by simp [hc])]
  | ellipsis =>
      have hc : (c == '.') = false := h
      rw [more?, if_neg (by simp [hc])]
  | finish => rfl
  | _ => exact if_neg (by simpa [startsWith] using h)

end Terminal

theorem firstToken?_eq_none {c : Char} {rest : List Char} {terminals : List Terminal}
    (h : ∀ t ∈ terminals, t.more? c rest = none) : firstToken? c rest terminals = none := by
  rw [firstToken?, List.findSome?_eq_none_iff]
  intro t ht
  rw [h t ht, Option.map_none]

/-- A terminal is found if none of those in front of it fits. -/
theorem firstToken?_eq_some {c : Char} {rest : List Char} {front back : List Terminal} {t : Terminal}
    {more : Nat} (hfront : ∀ u ∈ front, u.more? c rest = none) (hmore : t.more? c rest = some more)
    {accepted : Terminal → Bool} (haccepted : accepted t = true) :
    firstToken? c rest ((front ++ t :: back).filter accepted) = some (.token t more) := by
  have hnone : firstToken? c rest (front.filter accepted) = none :=
    firstToken?_eq_none fun u hu => hfront u (List.mem_of_mem_filter hu)
  unfold firstToken? at hnone ⊢
  rw [List.filter_append, List.filter_cons_of_pos haccepted, List.findSome?_append, hnone,
    Option.none_or, List.findSome?_cons, hmore]
  rfl

/-- Wherever the terminal is looked for, the characters are a token of it. -/
def Lexes (t : Terminal) (chars rest : List Char) : Prop :=
  ∃ c more, chars = c :: more ∧ ∀ accepted : Terminal → Bool, accepted t = true →
    lexeme? accepted c (more ++ rest) = some (.token t more.length)

theorem commentMore?_eq_none {c : Char} (hc : c ≠ '/') (rest : List Char) :
    commentMore? c rest = none := by
  rw [commentMore?.eq_def]
  split
  · exact absurd rfl hc
  · rfl

section

variable {t : Terminal} {c : Char} {more rest : List Char}

theorem lexes_early (front back : List Terminal) (hsplit : Terminal.early = front ++ t :: back)
    (hfront : ∀ u ∈ front, u.more? c (more ++ rest) = none)
    (hmore : t.more? c (more ++ rest) = some more.length) : Lexes t (c :: more) rest := by
  refine ⟨c, more, rfl, fun accepted haccepted => ?_⟩
  rw [lexeme?, hsplit, firstToken?_eq_some hfront hmore haccepted]
  rfl

theorem lexes_late (front back : List Terminal) (hsplit : Terminal.late = front ++ t :: back)
    (hearly : ∀ u ∈ Terminal.early, u.more? c (more ++ rest) = none)
    (hcomment : commentMore? c (more ++ rest) = none) (hskipped : isSkipped c = false)
    (hfront : ∀ u ∈ front, u.more? c (more ++ rest) = none)
    (hmore : t.more? c (more ++ rest) = some more.length) : Lexes t (c :: more) rest := by
  refine ⟨c, more, rfl, fun accepted haccepted => ?_⟩
  have hblank : blankMore? c (more ++ rest) = none := by
    rw [blankMore?, if_neg (by simp [hskipped])]
  rw [lexeme?, firstToken?_eq_none fun u hu => hearly u (List.mem_of_mem_filter hu), hcomment,
    hblank, hsplit, firstToken?_eq_some hfront hmore haccepted]
  rfl

end

/-! ### The tokens of a printed text

A printed text is read back token by token, and how far a token goes depends on the character behind it.
Two conditions on the rest of the text suffice for all terminals: that it ends a token of several
characters, and that it starts with no blank, separator or comment. -/

/-- The characters that are tokens of their own in a printed text. -/
def symbolChars : List Char :=
  ['&', ':', '\x7b', '\x7d', '[', ']', '-', '|']

/-- The characters that blanks, separators and comments start with. -/
def gapChars : List Char :=
  [' ', '\t', '\r', '\x0c', ',', '\n', '/']

def endChars : List Char :=
  [' ', '\t', '\r', '\n', ',', ':', ']', '\x7d']

/-- What may stand behind a token of several characters: nothing, or a character that ends it. -/
def Ends (rest : List Char) : Prop :=
  ∀ c ∈ rest.head?, c ∈ endChars

/-- A text that starts with no blank, no separator and no comment. -/
def Solid (rest : List Char) : Prop :=
  ∀ c ∈ rest.head?, c ∉ gapChars

theorem ends_cons {c : Char} (hc : c ∈ endChars) (rest : List Char) : Ends (c :: rest) := by
  intro d hd
  obtain rfl := Option.some.inj hd
  exact hc

theorem solid_cons {c : Char} (hc : c ∉ gapChars) (rest : List Char) : Solid (c :: rest) := by
  intro d hd
  obtain rfl := Option.some.inj hd
  exact hc

theorem skipped_of_solid {rest : List Char} (h : Solid rest) :
    ∀ c ∈ rest.head?, isSkipped c = false := by
  intro c hc
  rw [Bool.eq_false_iff]
  intro hskipped
  simp only [isSkipped, Bool.or_eq_true, beq_iff_eq] at hskipped
  rcases hskipped with ((rfl | rfl) | rfl) | rfl <;> exact h _ hc (by decide)

theorem notMem_gapChars_of_mem_symbolChars : ∀ c ∈ symbolChars, c ∉ gapChars :=
  List.all_iff_forall_prop.mp (by decide)

/-- What holds of the 128 characters of ASCII is decided by going through them. -/
theorem forall_ascii {P : Char → Prop} (h : ∀ n < 128, P (Char.ofNat n)) (c : Char)
    (hc : c.toNat < 128) : P c := by
  rw [← Char.ofNat_toNat c]
  exact h c.toNat hc

theorem toNat_lt_of_isLabelStart {c : Char} (hc : Value.isLabelStart c = true) : c.toNat < 128 := by
  simp only [Value.isLabelStart, Text.isAsciiLetter, Bool.or_eq_true, Bool.and_eq_true,
    decide_eq_true_eq, beq_iff_eq] at hc
  rcases hc with (((⟨-, hz⟩ | ⟨-, hZ⟩) | rfl) | rfl) | rfl
  · have : c.toNat ≤ 122 := hz
    omega
  · have : c.toNat ≤ 90 := hZ
    omega
  all_goals decide

theorem toNat_lt_of_startsWith {t : Terminal} (ht : t ∈ Terminal.early) (hfloat : t ≠ .float) {c : Char}
    (hc : t.startsWith c = true) : c.toNat < 128 := by
  have htest : ∀ c ∈ ['=', '!', '<', '>'], c.toNat < 128 :=
    List.all_iff_forall_prop.mp (by decide)
  have hseparator : ∀ c ∈ [',', '\n', '/'], c.toNat < 128 :=
    List.all_iff_forall_prop.mp (by decide)
  cases t with
  | float => exact absurd rfl hfloat
  | test => exact htest c (List.contains_iff_mem.mp hc)
  | name => exact toNat_lt_of_isLabelStart hc
  | separator => exact hseparator c (List.contains_iff_mem.mp hc)
  | string =>
      obtain rfl := beq_iff_eq.mp hc
      decide
  | _ => exact absurd ht (by decide)

theorem notMem_gapChars_of_isDecimal {c : Char} (hc : isDecimal c = true) : c ∉ gapChars := by
  have hgap : ∀ d ∈ gapChars, isDecimal d = false :=
    List.all_iff_forall_prop.mp (by decide)
  intro hmem
  rw [hgap c hmem] at hc
  cases hc

/-- A decimal digit of any script starts no early terminal but a number. -/
theorem startsWith_decimal {c : Char} (hc : isDecimal c = true) :
    (∀ t ∈ Terminal.early, t ≠ .float → t.startsWith c = false) ∧ c ≠ '/' ∧ isSkipped c = false := by
  have hascii := forall_ascii (P := fun c => isDecimal c = true →
    ∀ t ∈ Terminal.early, t ≠ .float → t.startsWith c = false) (by decide)
  have hnotGap := notMem_gapChars_of_isDecimal hc
  refine ⟨fun t ht hfloat => ?_, ?_, ?_⟩
  · rw [Bool.eq_false_iff]
    intro hstarts
    rw [hascii c (toNat_lt_of_startsWith ht hfloat hstarts) hc t ht hfloat] at hstarts
    cases hstarts
  · rintro rfl
    exact hnotGap (by decide)
  · have hsolid : Solid [c] := solid_cons hnotGap []
    exact skipped_of_solid hsolid c rfl

theorem startsWith_labelStart {c : Char} (hc : Value.isLabelStart c = true) :
    ∀ t ∈ Terminal.early, t ≠ .name → t.startsWith c = false := by
  have hall := forall_ascii (P := fun c => Value.isLabelStart c = true →
    ∀ t ∈ Terminal.early, t ≠ .name → t.startsWith c = false) (by decide)
  exact hall c (toNat_lt_of_isLabelStart hc) hc

/-- A symbol is a token of its own if no early terminal, no comment and no ellipsis starts there. -/
theorem lexes_symbol_of {t : Terminal} {c : Char} {rest : List Char} (ht : t.symbol? = some c)
    (hearly : ∀ u ∈ Terminal.early, u.more? c rest = none) (hcomment : commentMore? c rest = none)
    (hellipsis : Terminal.ellipsis.more? c rest = none) : Lexes t [c] rest := by
  have hmore : t.more? c rest = some 0 := by
    cases t <;> cases ht <;> rfl
  have hmem : t ∈ Terminal.late := by
    cases t <;> cases ht <;> decide
  have hskipped : isSkipped c = false := by
    cases t <;> cases ht <;> decide
  have hother : ∀ u ∈ Terminal.late, u ≠ t → u ≠ .ellipsis → u.startsWith c = false := by
    cases t <;> cases ht <;> decide
  obtain ⟨front, back, hsplit, hnotMem⟩ := List.eq_append_cons_of_mem hmem
  refine lexes_late front back hsplit hearly hcomment hskipped (fun u hu => ?_) hmore
  by_cases hu' : u = .ellipsis
  · rw [hu', List.nil_append, hellipsis]
  · refine Terminal.more?_eq_none (hother u ?_ ?_ hu')
    · rw [hsplit]
      exact List.mem_append_left _ hu
    · rintro rfl
      exact hnotMem hu

theorem lexes_symbol {t : Terminal} {c : Char} (ht : t.symbol? = some c)
    (hc : c ∈ symbolChars) (rest : List Char) : Lexes t [c] rest := by
  have hfirst : ∀ c ∈ symbolChars, (∀ u ∈ Terminal.ellipsis :: Terminal.early, u.startsWith c = false) ∧
      c ≠ '/' :=
    List.all_iff_forall_prop.mp (by decide)
  obtain ⟨hother, hslash⟩ := hfirst c hc
  obtain ⟨hellipsis, hearly⟩ := List.forall_mem_cons.mp hother
  exact lexes_symbol_of ht (fun u hu => Terminal.more?_eq_none (hearly u hu))
    (commentMore?_eq_none hslash rest) (Terminal.more?_eq_none hellipsis)

/-- What stands behind a word of a text with blanks between any two words: nothing, or a blank. -/
def Apart (rest : List Char) : Prop :=
  ∀ c ∈ rest.head?, c = ' ' ∨ c = '\t'

theorem Apart.ends {rest : List Char} (h : Apart rest) : Ends rest := by
  intro c hc
  rcases h c hc with rfl | rfl <;> decide

/-- A text starts with neither a blank nor a separator nor a comment. -/
structure AtToken (c : Char) (rest : List Char) : Prop where
  notGap : c ∉ [' ', '\t', '\r', '\x0c', ',', '\n']
  notComment : c = '/' → ∀ d ∈ rest.head?, d ≠ '/'

section AtToken

variable {c : Char} {rest gap : List Char}

namespace AtToken

theorem append (h : AtToken c rest) (hgap : Apart gap) : AtToken c (rest ++ gap) := by
  refine ⟨h.notGap, fun hc d hd => ?_⟩
  cases rest with
  | nil => rcases hgap d hd with rfl | rfl <;> decide
  | cons e rest => exact h.notComment hc d hd

theorem notSkipped (h : AtToken c rest) : isSkipped c = false := by
  have hgap : ∀ d, isSkipped d = true → d ∈ [' ', '\t', '\r', '\x0c', ',', '\n'] := by
    intro d hd
    simp only [isSkipped, Bool.or_eq_true, beq_iff_eq] at hd
    rcases hd with ((rfl | rfl) | rfl) | rfl <;> decide
  rw [Bool.eq_false_iff]
  exact fun hskipped => h.notGap (hgap c hskipped)

theorem commentMore?_eq_none (h : AtToken c rest) : commentMore? c rest = none := by
  rw [commentMore?.eq_def]
  split
  · exact absurd rfl (h.notComment rfl '/' rfl)
  · rfl

theorem separatorUnit?_eq_none (h : AtToken c rest) : separatorUnit? (c :: rest) = none := by
  rw [separatorUnit?.eq_def]
  split
  · rename_i heq
    obtain ⟨rfl, rfl⟩ := List.cons.inj heq
    exact absurd rfl (h.notComment rfl '/' rfl)
  · rename_i heq
    obtain ⟨rfl, rfl⟩ := List.cons.inj heq
    refine if_neg ?_
    rw [Bool.or_eq_true, beq_iff_eq, beq_iff_eq]
    rintro (rfl | rfl) <;> exact h.notGap (by decide)
  · rfl

theorem separatorMore?_eq_none (h : AtToken c rest) : separatorMore? c rest = none := by
  rw [separatorMore?, separatorLength, h.separatorUnit?_eq_none]

end AtToken

end AtToken

/-- In front of a blank, every symbol is a token of its own, even if longer tokens start with it. -/
theorem lexes_mark {t : Terminal} {c : Char} {rest : List Char} (ht : t.symbol? = some c)
    (hrest : Apart rest) : Lexes t [c] rest := by
  have hnot {d : Char} {cs : List Char} (hcs : rest = d :: cs) : d ∉ ['.', '=', '~'] := by
    rcases hrest d (hcs ▸ rfl) with rfl | rfl <;> decide
  have hother : ∀ d ∈ ['<', '>'], c ≠ d := by
    rintro d hd rfl
    revert hd
    cases t <;> cases ht <;> decide
  have htoken : AtToken c rest := by
    refine ⟨by cases t <;> cases ht <;> decide, fun _ d hd => ?_⟩
    rcases hrest d hd with rfl | rfl <;> decide
  have hellipsis : Terminal.ellipsis.more? c rest = none := by
    refine if_neg ?_
    rw [Bool.and_eq_true]
    rintro ⟨-, hdots⟩
    obtain ⟨cs, rfl⟩ := List.isPrefixOf_iff_prefix.mp hdots
    exact absurd (by decide) (hnot rfl)
  have htest : testMore? c rest = none := by
    rw [testMore?.eq_def]
    split <;> first
      | rfl
      | exact absurd (by decide) (hnot rfl)
      | exact absurd rfl (hother _ (by decide))
  have hplain : ∀ u ∈ [Terminal.float, .name, .string], u.startsWith c = false := by
    cases t <;> cases ht <;> decide
  refine lexes_symbol_of ht (fun u hu => ?_) htoken.commentMore?_eq_none hellipsis
  cases u with
  | test => exact htest
  | separator => exact htoken.separatorMore?_eq_none
  | float | name | string => exact Terminal.more?_eq_none (hplain _ (by decide))
  | _ => exact absurd hu (by decide)

theorem lexes_ellipsis (rest : List Char) : Lexes .ellipsis ['.', '.', '.'] rest := by
  have hfront : ∀ u ∈ Terminal.early ++ [.int], u.startsWith '.' = false := by decide
  refine lexes_late [.int] _ rfl (fun u hu => ?_) (commentMore?_eq_none (by decide) _) (by decide)
    (fun u hu => ?_) rfl
  · exact Terminal.more?_eq_none (hfront u (List.mem_append_left _ hu))
  · exact Terminal.more?_eq_none (hfront u (List.mem_append_right _ hu))

theorem decimal_of_ends {rest : List Char} (h : Ends rest) : ∀ c ∈ rest.head?, isDecimal c = false := by
  have hmarks : ∀ c ∈ endChars, isDecimal c = false :=
    List.all_iff_forall_prop.mp (by decide)
  intro c hc
  exact hmarks c (h c hc)

theorem digitCount_append {cs rest : List Char} (hcs : ∀ c ∈ cs, isDecimal c = true)
    (hrest : ∀ c ∈ rest.head?, isDecimal c = false) : digitCount (cs ++ rest) = cs.length := by
  rw [digitCount, Text.takeWhile_append_of_stop hcs hrest]

/-- Decimal digits of any script. -/
def IsDigits (cs : List Char) : Prop :=
  cs ≠ [] ∧ ∀ c ∈ cs, isDecimal c = true

instance (cs : List Char) : Decidable (IsDigits cs) :=
  decidable_of_iff (cs ≠ [] ∧ cs.all isDecimal = true) (and_congr_right' List.all_eq_true)

/-- The letter of an exponent, perhaps a sign, and digits. -/
inductive IsExponent : List Char → Prop
  | unsigned {letter : Char} {digits : List Char} (hletter : letter = 'e' ∨ letter = 'E')
      (h : IsDigits digits) : IsExponent (letter :: digits)
  | signed {letter sign : Char} {digits : List Char} (hletter : letter = 'e' ∨ letter = 'E')
      (hsign : sign = '+' ∨ sign = '-') (h : IsDigits digits) : IsExponent (letter :: sign :: digits)

/-- Digits with a fraction, an exponent or both. -/
inductive IsFloat : List Char → Prop
  | fraction {whole digits exponent : List Char} (hwhole : IsDigits whole) (hdigits : IsDigits digits)
      (h : exponent = [] ∨ IsExponent exponent) : IsFloat (whole ++ '.' :: (digits ++ exponent))
  | exponent {whole exponent : List Char} (hwhole : IsDigits whole) (h : IsExponent exponent) :
      IsFloat (whole ++ exponent)

theorem isDigits_of_ascii {cs : List Char} (hne : cs ≠ []) (h : ∀ c ∈ cs, isAsciiDigit c = true) :
    IsDigits cs :=
  ⟨hne, fun c hc => Text.isDecimal_of_isAsciiDigit (h c hc)⟩

theorem IsDigits.exists_cons {cs : List Char} (h : IsDigits cs) :
    ∃ d ds, cs = d :: ds ∧ ∀ c ∈ d :: ds, isDecimal c = true := by
  obtain ⟨hne, hdigits⟩ := h
  obtain ⟨d, ds, rfl⟩ := List.exists_cons_of_ne_nil hne
  exact ⟨d, ds, rfl, hdigits⟩

def fractionCount : List Char → Nat
  | '.' :: digits => digitCount digits
  | _ => 0

theorem floatMore?_append {c : Char} {cs after : List Char}
    (h : ∀ d ∈ c :: cs, isDecimal d = true) (hafter : ∀ d ∈ after.head?, isDecimal d = false) :
    floatMore? c (cs ++ after) =
      if fractionCount after != 0 then
        some (cs.length + 1 + fractionCount after
          + exponentLength (after.drop (1 + fractionCount after)))
      else if exponentLength after != 0 then some (cs.length + exponentLength after) else none := by
  rw [floatMore?, if_pos (h c List.mem_cons_self),
    digitCount_append (fun d hd => h d (List.mem_cons_of_mem c hd)) hafter]
  dsimp only
  rw [List.drop_left]
  rfl

section Number

variable {cs rest : List Char}

theorem exponentLength_of_ends (h : Ends rest) : exponentLength rest = 0 := by
  have hmarks : ∀ c ∈ endChars, ¬ (c == 'e' || c == 'E') = true :=
    List.all_iff_forall_prop.mp (by decide)
  cases rest with
  | nil => rfl
  | cons c rest => exact if_neg (hmarks c (h c rfl))

theorem fractionCount_of_ends (h : Ends rest) : fractionCount rest = 0 := by
  rw [fractionCount.eq_def]
  split
  · exact absurd (h '.' rfl) (by decide)
  · rfl

theorem lexes_digits (h : IsDigits cs) (hrest : Ends rest) : Lexes .int cs rest := by
  obtain ⟨c, cs, rfl, hdigits⟩ := h.exists_cons
  obtain ⟨hearly, hslash, hskipped⟩ := startsWith_decimal (hdigits c List.mem_cons_self)
  refine lexes_late [] _ rfl (fun u hu => ?_) (commentMore?_eq_none hslash _) hskipped
    (List.forall_mem_nil _) ?_
  · by_cases hfloat : u = .float
    · rw [hfloat, Terminal.more?, floatMore?_append hdigits (decimal_of_ends hrest),
        fractionCount_of_ends hrest, exponentLength_of_ends hrest]
      rfl
    · exact Terminal.more?_eq_none (hearly u hu hfloat)
  · rw [Terminal.more?, if_pos (hdigits c List.mem_cons_self),
      digitCount_append (fun d hd => hdigits d (List.mem_cons_of_mem c hd)) (decimal_of_ends hrest)]

theorem lexes_int {c : Char} (h : ∀ d ∈ c :: cs, isAsciiDigit d = true) (hrest : Ends rest) :
    Lexes .int (c :: cs) rest :=
  lexes_digits (isDigits_of_ascii (List.cons_ne_nil c cs) h) hrest

theorem IsExponent.exists_cons (h : IsExponent cs) :
    ∃ c more, cs = c :: more ∧ (c = 'e' ∨ c = 'E') := by
  cases h with
  | unsigned hletter h => exact ⟨_, _, rfl, hletter⟩
  | signed hletter hsign h => exact ⟨_, _, rfl, hletter⟩

theorem IsExponent.length_append (h : IsExponent cs) (hrest : Ends rest) :
    exponentLength (cs ++ rest) = cs.length := by
  have hmarks {letter : Char} (hletter : letter = 'e' ∨ letter = 'E') :
      (letter == 'e' || letter == 'E') = true := by
    rcases hletter with rfl | rfl <;> rfl
  cases h with
  | unsigned hletter h =>
      obtain ⟨d, ds, rfl, hdigits⟩ := h.exists_cons
      have hsign : (d == '+' || d == '-') = false := by
        have hd := hdigits d List.mem_cons_self
        rw [Bool.or_eq_false_iff, beq_eq_false_iff_ne, beq_eq_false_iff_ne]
        constructor <;> rintro rfl <;> exact absurd hd (by decide)
      have hcount : digitCount (d :: (ds ++ rest)) = ds.length + 1 :=
        digitCount_append hdigits (decimal_of_ends hrest)
      refine (if_pos (hmarks hletter)).trans ?_
      simp [hsign, hcount]
      omega
  | signed hletter hsign h =>
      have hcount := digitCount_append h.2 (decimal_of_ends hrest)
      have hpos := mt List.length_eq_zero_iff.mp h.1
      refine (if_pos (hmarks hletter)).trans ?_
      rcases hsign with rfl | rfl <;> simp [hcount, hpos] <;> omega

/-- What may stand behind the digits of a number with a fraction: an exponent or nothing. -/
theorem exponent_append (h : cs = [] ∨ IsExponent cs) (hrest : Ends rest) :
    exponentLength (cs ++ rest) = cs.length ∧ fractionCount (cs ++ rest) = 0 ∧
      ∀ c ∈ (cs ++ rest).head?, isDecimal c = false := by
  rcases h with rfl | h
  · exact ⟨exponentLength_of_ends hrest, fractionCount_of_ends hrest, decimal_of_ends hrest⟩
  · refine ⟨h.length_append hrest, ?_⟩
    obtain ⟨c, more, rfl, hc⟩ := h.exists_cons
    constructor
    · rcases hc with rfl | rfl <;> rfl
    · intro d hd
      obtain rfl := Option.some.inj hd
      rcases hc with rfl | rfl <;> decide

theorem lexes_isFloat (h : IsFloat cs) (hrest : Ends rest) : Lexes .float cs rest := by
  cases h with
  | fraction hwhole hdigits h =>
      obtain ⟨c, cs, rfl, hdecimal⟩ := hwhole.exists_cons
      obtain ⟨hlength, -, hback⟩ := exponent_append h hrest
      rw [List.cons_append]
      refine lexes_early [] _ rfl (List.forall_mem_nil _) ?_
      rw [Terminal.more?, List.append_assoc, List.cons_append, List.append_assoc,
        floatMore?_append hdecimal ?_]
      · have hpos := mt List.length_eq_zero_iff.mp hdigits.1
        rw [fractionCount, digitCount_append hdigits.2 hback, if_pos (by simp [hpos]), Nat.add_comm 1,
          List.drop_succ_cons, List.drop_left, hlength]
        simp
        omega
      · intro d hd
        obtain rfl := Option.some.inj hd
        decide
  | exponent hwhole h =>
      obtain ⟨c, cs, rfl, hdecimal⟩ := hwhole.exists_cons
      obtain ⟨hlength, hcount, hback⟩ := exponent_append (Or.inr h) hrest
      obtain ⟨e, more, hcons, -⟩ := h.exists_cons
      rw [List.cons_append]
      refine lexes_early [] _ rfl (List.forall_mem_nil _) ?_
      rw [Terminal.more?, List.append_assoc, floatMore?_append hdecimal hback, hcount, hlength]
      simp [hcons]

end Number

section Decimal

open Numeral

theorem isExponent_of_wellFormed {e : Exponent} (h : e.WellFormed) :
    IsExponent e.chars := by
  obtain ⟨letter, sign, digits⟩ := e
  obtain ⟨hletter, hne, hdigits⟩ := h
  rw [Bool.or_eq_true, beq_iff_eq, beq_iff_eq] at hletter
  have h := isDigits_of_ascii hne hdigits
  cases sign with
  | none => exact .unsigned hletter h
  | some negative =>
      refine .signed hletter ?_ h
      cases negative
      · exact Or.inl rfl
      · exact Or.inr rfl

theorem isFloat_of_wellFormed {d : Decimal} (h : d.WellFormed) : IsFloat d.chars := by
  obtain ⟨whole, fraction, exponent⟩ := d
  obtain ⟨hne, hwhole, hfraction, hexponent, hmarked⟩ := h
  have hwhole := isDigits_of_ascii hne hwhole
  have hback : Decimal.exponentChars exponent = [] ∨ IsExponent (Decimal.exponentChars exponent) := by
    cases exponent with
    | none => exact Or.inl rfl
    | some e => exact Or.inr (isExponent_of_wellFormed (hexponent e rfl))
  cases fraction with
  | nil =>
      cases exponent with
      | none => exact absurd rfl (hmarked.resolve_left (by simp))
      | some e =>
          rw [Decimal.chars, Decimal.fractionChars, List.append_nil]
          exact .exponent hwhole (isExponent_of_wellFormed (hexponent e rfl))
  | cons c cs =>
      rw [Decimal.chars, List.append_assoc]
      exact .fraction hwhole (isDigits_of_ascii (List.cons_ne_nil c cs) hfraction) hback

theorem lexes_float {d : Decimal} {rest : List Char} (h : d.WellFormed) (hrest : Ends rest) :
    Lexes .float d.chars rest :=
  lexes_isFloat (isFloat_of_wellFormed h) hrest

end Decimal

theorem lexes_name_of_stop {c : Char} {cs rest : List Char} (hc : Value.isLabelStart c = true)
    (hcs : ∀ d ∈ cs, Value.isLabelRest d = true)
    (hrest : ∀ d ∈ rest.head?, Value.isLabelRest d = false) : Lexes .name (c :: cs) rest := by
  refine lexes_early [.float, .test] _ rfl (fun u hu => ?_) ?_
  · refine Terminal.more?_eq_none (startsWith_labelStart hc u (List.mem_append_left _ hu) ?_)
    rintro rfl
    revert hu
    decide
  · rw [Terminal.more?, nameMore?, if_pos hc, Text.takeWhile_append_of_stop hcs hrest]

theorem lexes_name {c : Char} {cs rest : List Char} (hc : Value.isLabelStart c = true)
    (hcs : ∀ d ∈ cs, Value.isLabelRest d = true) (hrest : Ends rest) :
    Lexes .name (c :: cs) rest := by
  have hmarks : ∀ d ∈ endChars, Value.isLabelRest d = false :=
    List.all_iff_forall_prop.mp (by decide)
  exact lexes_name_of_stop hc hcs fun d hd => hmarks d (hrest d hd)

def isName (name : String) : Bool :=
  match name.toList with
  | [] => false
  | c :: cs => Value.isLabelStart c && cs.all Value.isLabelRest

theorem exists_isName {name : String} (h : isName name = true) : ∃ c cs, name.toList = c :: cs ∧
    Value.isLabelStart c = true ∧ ∀ d ∈ cs, Value.isLabelRest d = true := by
  unfold isName at h
  split at h
  · cases h
  · rename_i c cs hname
    rw [Bool.and_eq_true, List.all_eq_true] at h
    exact ⟨c, cs, hname, h⟩

theorem lexes_isName {name : String} (h : isName name = true) {rest : List Char} (hrest : Ends rest) :
    Lexes .name name.toList rest := by
  obtain ⟨c, cs, hname, hc, hcs⟩ := exists_isName h
  rw [hname]
  exact lexes_name hc hcs hrest

theorem stringMore?_plain {c : Char} (rest : List Char) (hquote : c ≠ '"') (hbackslash : c ≠ '\\')
    (hline : c ≠ '\n') : stringMore? (c :: rest) = (stringMore? rest).map (· + 1) := by
  rw [stringMore?.eq_def]
  split
  · rename_i heq
    cases heq
  · rename_i heq
    exact absurd (List.cons.inj heq).1 hquote
  · rename_i heq
    exact absurd (List.cons.inj heq).1 hbackslash
  · rename_i heq
    obtain ⟨rfl, rfl⟩ := List.cons.inj heq
    rw [if_neg (by simp [hbackslash, hline])]

theorem stringMore?_escaped {c : Char} (rest : List Char) (hline : c ≠ '\n') :
    stringMore? ('\\' :: c :: rest) = (stringMore? rest).map (· + 2) := by
  rw [stringMore?, if_neg (by simp [hline])]

/-- A string from behind its opening quote on. A backslash takes the next character with it. -/
inductive IsBody : List Char → Prop
  | close : IsBody ['"']
  | escaped {c : Char} {body : List Char} (hline : c ≠ '\n') (h : IsBody body) :
      IsBody ('\\' :: c :: body)
  | plain {c : Char} {body : List Char} (hquote : c ≠ '"') (hbackslash : c ≠ '\\') (hline : c ≠ '\n')
      (h : IsBody body) : IsBody (c :: body)

def IsString (cs : List Char) : Prop :=
  ∃ body, cs = '"' :: body ∧ IsBody body

theorem IsBody.more_append {body : List Char} (h : IsBody body) (rest : List Char) :
    stringMore? (body ++ rest) = some body.length := by
  induction h with
  | close => rfl
  | escaped hline h ih =>
      rw [List.cons_append, List.cons_append, stringMore?_escaped _ hline, ih]
      rfl
  | plain hquote hbackslash hline h ih =>
      rw [List.cons_append, stringMore?_plain _ hquote hbackslash hline, ih]
      rfl

theorem stringMore?_escape (c : Char) (rest : List Char) :
    stringMore? (Text.escape c ++ rest) = (stringMore? rest).map (· + (Text.escape c).length) := by
  rcases Text.escape_cases c with ⟨d, hescape, -, hline, -⟩ | ⟨hescape, -⟩ |
    ⟨hescape, hquote, hbackslash, hline, -⟩
  · rw [hescape]
    exact stringMore?_escaped rest hline
  · have hhex : ∀ d < 16, Text.hexDigit d ≠ '"' ∧ Text.hexDigit d ≠ '\\' ∧
        Text.hexDigit d ≠ '\n' := by decide
    have hplain (n : Nat) (rest : List Char) : stringMore? (Text.hexDigit (n % 16) :: rest)
        = (stringMore? rest).map (· + 1) := by
      obtain ⟨hquote, hbackslash, hline⟩ := hhex (n % 16) (Nat.mod_lt n (by decide))
      exact stringMore?_plain rest hquote hbackslash hline
    rw [hescape, Text.hex_four, List.cons_append, List.cons_append,
      stringMore?_escaped _ (by decide), List.cons_append, hplain, List.cons_append, hplain,
      List.cons_append, hplain, List.cons_append, hplain, List.nil_append]
    simp only [Option.map_map]
    rfl
  · rw [hescape]
    exact stringMore?_plain rest hquote hbackslash hline

theorem stringMore?_quoted (cs rest : List Char) :
    stringMore? (cs.flatMap Text.escape ++ '"' :: rest)
      = some ((cs.flatMap Text.escape).length + 1) := by
  induction cs with
  | nil => rfl
  | cons c cs ih =>
      rw [List.flatMap_cons, List.append_assoc, stringMore?_escape, ih, Option.map_some,
        List.length_append]
      congr 1
      omega

/-- A string is read up to its closing quote. -/
theorem lexes_string {more rest : List Char} (h : stringMore? (more ++ rest) = some more.length) :
    Lexes .string ('"' :: more) rest := by
  have hfirst : ∀ u ∈ [Terminal.float, .test, .name, .separator], u.startsWith '"' = false := by
    decide
  refine lexes_early [.float, .test, .name, .separator] _ rfl
    (fun u hu => Terminal.more?_eq_none (hfirst u hu)) ?_
  rw [Terminal.more?, if_pos (by decide), h]

theorem lexes_isString {cs : List Char} (h : IsString cs) (rest : List Char) :
    Lexes .string cs rest := by
  obtain ⟨body, rfl, hbody⟩ := h
  exact lexes_string (hbody.more_append rest)

theorem lexes_quoted (cs rest : List Char) : Lexes .string (Text.quotedChars cs) rest := by
  rw [Text.quotedChars, List.cons_append]
  apply lexes_string
  rw [List.append_assoc, List.singleton_append, stringMore?_quoted, List.length_append,
    List.length_singleton]

theorem testMore?_single {c : Char} {rest : List Char} (hc : c ∈ ['<', '>'])
    (hrest : ∀ d ∈ rest.head?, d ≠ '=') : testMore? c rest = some 0 := by
  rcases List.mem_pair.mp hc with rfl | rfl
  all_goals
    rw [testMore?.eq_def]
    split <;> first
      | rfl
      | exact absurd rfl (hrest '=' rfl)
      | (rename_i heq; exact absurd heq (by decide))
      | (rename_i hlt hgt _ _ _ _ _ _; first | exact absurd rfl hlt | exact absurd rfl hgt)

theorem Test.exists_sign_eq (test : Test) : ∃ c more, test.sign.toList = c :: more ∧
    c ∈ ['<', '>', '!', '='] ∧ ∀ rest : List Char, (∀ d ∈ rest.head?, d ≠ '=') →
      testMore? c (more ++ rest) = some more.length := by
  have heq : "==".toList = ['=', '='] := by decide
  have hlt : "<".toList = ['<'] := by decide
  have hle : "<=".toList = ['<', '='] := by decide
  have hgt : ">".toList = ['>'] := by decide
  have hge : ">=".toList = ['>', '='] := by decide
  have hne : "!=".toList = ['!', '='] := by decide
  have hmatch : "=~".toList = ['=', '~'] := by decide
  have hnoMatch : "!~".toList = ['!', '~'] := by decide
  cases test with
  | eq => exact ⟨_, _, heq, by decide, fun _ _ => rfl⟩
  | ne => exact ⟨_, _, hne, by decide, fun _ _ => rfl⟩
  | order o =>
      cases o with
      | lt => exact ⟨_, _, hlt, by decide, fun _ => testMore?_single (by decide)⟩
      | le => exact ⟨_, _, hle, by decide, fun _ _ => rfl⟩
      | gt => exact ⟨_, _, hgt, by decide, fun _ => testMore?_single (by decide)⟩
      | ge => exact ⟨_, _, hge, by decide, fun _ _ => rfl⟩
  | pattern wanted =>
      cases wanted with
      | true => exact ⟨_, _, hmatch, by decide, fun _ _ => rfl⟩
      | false => exact ⟨_, _, hnoMatch, by decide, fun _ _ => rfl⟩

/-- The sign of a test is read whole, if no equality sign follows that could belong to it. -/
theorem lexes_test (test : Test) {rest : List Char} (hrest : ∀ c ∈ rest.head?, c ≠ '=') :
    Lexes .test test.sign.toList rest := by
  have hfloat : ∀ c ∈ ['<', '>', '!', '='], Terminal.float.startsWith c = false :=
    List.all_iff_forall_prop.mp (by decide)
  obtain ⟨c, more, hsign, hc, hmore⟩ := test.exists_sign_eq
  rw [hsign]
  refine lexes_early [.float] _ rfl (fun u hu => ?_) (hmore rest hrest)
  obtain rfl := List.mem_singleton.mp hu
  exact Terminal.more?_eq_none (hfloat c hc)

theorem exists_sign_eq_sign (bound : Bound) : ∃ test : Test, bound.sign = test.sign := by
  cases bound with
  | order o limit => exact ⟨.order o, rfl⟩
  | ne limit => exact ⟨.ne, rfl⟩
  | pattern wanted source => exact ⟨.pattern wanted, rfl⟩

theorem lexes_sign (bound : Bound) {rest : List Char} (hrest : ∀ c ∈ rest.head?, c ≠ '=') :
    Lexes .test bound.sign.toList rest := by
  obtain ⟨test, hsign⟩ := exists_sign_eq_sign bound
  rw [hsign]
  exact lexes_test test hrest

/-- The blanks between tokens. -/
def blankChars : List Char :=
  [' ', '\t', '\r']

/-- The blanks, commas and line feeds that separators consist of. -/
def layoutChars : List Char :=
  [',', '\n'] ++ blankChars

theorem ends_layout {layout rest : List Char} (h : ∀ c ∈ layout, c ∈ layoutChars) (hrest : Ends rest) :
    Ends (layout ++ rest) := by
  have hends : ∀ c ∈ layoutChars, c ∈ endChars :=
    List.all_iff_forall_prop.mp (by decide)
  cases layout with
  | nil => exact hrest
  | cons c layout => exact ends_cons (hends c (h c List.mem_cons_self)) _

theorem separatorBlanks_append {blanks rest : List Char} (hblanks : ∀ c ∈ blanks, c ∈ blankChars)
    (hrest : ∀ c ∈ rest.head?, c ∉ blankChars) :
    separatorBlanks (blanks ++ rest) = blanks.length := by
  have hmem {c : Char} : (c == ' ' || c == '\t' || c == '\r') = true ↔ c ∈ blankChars := by
    simp [blankChars, or_assoc]
  rw [separatorBlanks, Text.takeWhile_append_of_stop fun c hc => hmem.mpr (hblanks c hc)]
  intro c hc
  rw [Bool.eq_false_iff, Ne, hmem]
  exact hrest c hc

theorem separatorLength_of_solid {rest : List Char} (h : Solid rest) : separatorLength rest = 0 := by
  cases rest with
  | nil => rw [separatorLength]
  | cons c rest =>
      have hc := h c rfl
      have hstart : [',', '\n', '/'].contains c = false := by
        rw [Bool.eq_false_iff, Ne, List.contains_iff_mem]
        intro hmem
        exact hc (List.mem_append_right [' ', '\t', '\r', '\x0c'] hmem)
      rw [separatorLength, separatorUnit?_eq_none hstart]

/-- A layout is blanks, and a part that a comma or a line feed starts. -/
theorem exists_layout_eq {layout : List Char} (h : ∀ c ∈ layout, c ∈ layoutChars) :
    ∃ blanks back, layout = blanks ++ back ∧ (∀ c ∈ blanks, c ∈ blankChars) ∧
      (∀ c ∈ back, c ∈ layoutChars) ∧ ∀ c ∈ back.head?, c ∈ [',', '\n'] := by
  induction layout with
  | nil => exact ⟨[], [], rfl, nofun, nofun, nofun⟩
  | cons c layout ih =>
      obtain ⟨hc, hlayout⟩ := List.forall_mem_cons.mp h
      rcases List.mem_append.mp hc with hmark | hblank
      · refine ⟨[], c :: layout, rfl, nofun, h, fun d hd => ?_⟩
        obtain rfl := Option.some.inj hd
        exact hmark
      · obtain ⟨blanks, back, rfl, hblanks, hback⟩ := ih hlayout
        exact ⟨c :: blanks, back, rfl, List.forall_mem_cons.mpr ⟨hblank, hblanks⟩, hback⟩

/-- A layout from a comma or a line feed on is taken as a whole, unit by unit. -/
theorem separatorLength_append {layout rest : List Char} (hlayout : ∀ c ∈ layout, c ∈ layoutChars)
    (hhead : ∀ c ∈ layout.head?, c ∈ [',', '\n']) (hrest : Solid rest) :
    separatorLength (layout ++ rest) = layout.length := by
  have hmarks : ∀ c ∈ [',', '\n'], c ≠ '/' ∧ c ∉ blankChars ∧ (c == ',' || c == '\n') = true :=
    List.all_iff_forall_prop.mp (by decide)
  induction hn : layout.length using Nat.strongRecOn generalizing layout with
  | ind n ih =>
      subst hn
      cases layout with
      | nil => exact separatorLength_of_solid hrest
      | cons c layout =>
          obtain ⟨hslash, -, hc⟩ := hmarks c (hhead c rfl)
          obtain ⟨blanks, back, rfl, hblanks, hback, hhead⟩ :=
            exists_layout_eq (List.forall_mem_cons.mp hlayout).2
          have hstop : ∀ d ∈ (back ++ rest).head?, d ∉ blankChars := by
            cases back with
            | nil =>
                have hgap : ∀ d ∈ blankChars, d ∈ gapChars :=
                  List.all_iff_forall_prop.mp (by decide)
                exact fun d hd hblank => hrest d hd (hgap d hblank)
            | cons e back => exact fun d hd => (hmarks d (hhead d hd)).2.1
          have hunit : separatorUnit? (c :: (blanks ++ back ++ rest)) = some (1 + blanks.length) := by
            rw [separatorUnit?.eq_2 _ _ (fun _ h => absurd h hslash), if_pos hc, List.append_assoc,
              separatorBlanks_append hblanks hstop]
          have hnext := ih back.length (by rw [List.length_cons, List.length_append]; omega)
            hback hhead rfl
          rw [List.cons_append, separatorLength, hunit]
          dsimp only
          rw [Nat.add_sub_cancel_left, List.append_assoc, List.drop_left, hnext, List.length_cons,
            List.length_append]
          omega

/-- A separator is a layout with a comma or a line feed in front, if what is separated follows it. -/
theorem separatorMore?_layout {c : Char} {layout rest : List Char} (hc : c ∈ [',', '\n'])
    (hlayout : ∀ d ∈ layout, d ∈ layoutChars) (hrest : Solid rest) :
    separatorMore? c (layout ++ rest) = some layout.length := by
  have hmarks : ∀ c ∈ [',', '\n'], c ∈ layoutChars :=
    List.all_iff_forall_prop.mp (by decide)
  have hlength : separatorLength (c :: layout ++ rest) = (c :: layout).length := by
    refine separatorLength_append (List.forall_mem_cons.mpr ⟨hmarks c hc, hlayout⟩) (fun d hd => ?_)
      hrest
    obtain rfl := Option.some.inj hd
    exact hc
  rw [separatorMore?, ← List.cons_append, hlength]
  rfl

theorem lexes_layout {c : Char} {layout rest : List Char} (hc : c ∈ [',', '\n'])
    (hlayout : ∀ d ∈ layout, d ∈ layoutChars) (hrest : Solid rest) :
    Lexes .separator (c :: layout) rest := by
  have hfirst : ∀ c ∈ [',', '\n'], ∀ u ∈ [Terminal.float, .test, .name], u.startsWith c = false :=
    List.all_iff_forall_prop.mp (by decide)
  exact lexes_early [.float, .test, .name] _ rfl
    (fun u hu => Terminal.more?_eq_none (hfirst c hc u hu)) (separatorMore?_layout hc hlayout hrest)

theorem lexes_separator {rest : List Char} (h : Solid rest) : Lexes .separator [',', ' '] rest :=
  lexes_layout (by decide) (List.all_iff_forall_prop.mp (by decide)) h

/-- Blanks are passed over together, whatever is looked for. -/
theorem lexeme?_skipped {c : Char} (hc : isSkipped c = true) (accepted : Terminal → Bool) (rest : List Char) :
    lexeme? accepted c rest = some (.skipped (rest.takeWhile isSkipped).length) := by
  have hfirst : c ≠ '/' ∧ ∀ u ∈ Terminal.early, u.startsWith c = false := by
    simp only [isSkipped, Bool.or_eq_true, beq_iff_eq] at hc
    rcases hc with ((rfl | rfl) | rfl) | rfl <;> decide
  rw [lexeme?, firstToken?_eq_none fun u hu =>
    Terminal.more?_eq_none (hfirst.2 u (List.mem_of_mem_filter hu)), commentMore?_eq_none hfirst.1,
    blankMore?, if_pos hc]
  rfl

theorem lexeme?_blanks {c : Char} {blanks rest : List Char} (hblanks : ∀ d ∈ c :: blanks, d ∈ blankChars)
    (hrest : ∀ d ∈ rest.head?, isSkipped d = false) (accepted : Terminal → Bool) :
    lexeme? accepted c (blanks ++ rest) = some (.skipped blanks.length) := by
  have hskipped : ∀ c ∈ blankChars, isSkipped c = true :=
    List.all_iff_forall_prop.mp (by decide)
  rw [List.forall_mem_cons] at hblanks
  rw [lexeme?_skipped (hskipped c hblanks.1),
    Text.takeWhile_append_of_stop (fun d hd => hskipped d (hblanks.2 d hd)) hrest]

end ApiProbe.Expr
