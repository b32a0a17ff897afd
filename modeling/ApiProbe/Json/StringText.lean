import ApiProbe.Text.Quoted

/-!
Reading the strings of a JSON document. A fault is placed by how many characters stand from it to
the end of the document, and turned into line and column once the whole text is known.
-/
namespace ApiProbe.Json

inductive Cause where
  | value
  | propertyName
  | colon
  | comma
  | unterminatedString
  | controlCharacter
  | badEscape
  | badUnicodeEscape
  | extraData
  | byteOrderMark
  deriving DecidableEq

def Cause.message : Cause → String
  | .value => "Expecting value"
  | .propertyName => "Expecting property name enclosed in double quotes"
  | .colon => "Expecting ':' delimiter"
  | .comma => "Expecting ',' delimiter"
  | .unterminatedString => "Unterminated string starting at"
  | .controlCharacter => "Invalid control character at"
  | .badEscape => "Invalid \\escape"
  | .badUnicodeEscape => "Invalid \\uXXXX escape"
  | .extraData => "Extra data"
  | .byteOrderMark => "Unexpected UTF-8 BOM (decode using utf-8-sig)"

/-- A fault `remaining` characters before the end, or a whole number of too many digits. -/
inductive Flaw where
  | syntaxAt (cause : Cause) (remaining : Nat)
  | numeralTooLong (digits : Nat)
  deriving DecidableEq

abbrev Reading (α : Type) := Except Flaw α

def fail {α : Type} (cause : Cause) (rest : List Char) : Reading α :=
  .error (.syntaxAt cause rest.length)

/-- The words for a fault in a text. -/
def Flaw.message (text : List Char) : Flaw → String
  | .syntaxAt cause remaining =>
    let before := text.take (text.length - remaining)
    let line := before.count '\n' + 1
    let column := (before.reverse.takeWhile (· != '\n')).length + 1
    s!"{cause.message}: line {line} column {column} (char {before.length})"
  | .numeralTooLong digits =>
    "Exceeds the limit (4300 digits) for integer string conversion: value has " ++
      s!"{digits} digits; use sys.set_int_max_str_digits() to increase the limit"

def hexValue? (c : Char) : Option Nat :=
  if '0' ≤ c && c ≤ '9' then some (c.toNat - '0'.toNat)
  else if 'a' ≤ c && c ≤ 'f' then some (c.toNat - 'a'.toNat + 10)
  else if 'A' ≤ c && c ≤ 'F' then some (c.toNat - 'A'.toNat + 10)
  else none

def hex4? : List Char → Option Nat
  | a :: b :: c :: d :: _ => do
    return (((← hexValue? a) * 16 + (← hexValue? b)) * 16 + (← hexValue? c)) * 16 + (← hexValue? d)
  | _ => none

/-- The character after a backslash stands for this one. -/
def escaped? : Char → Option Char
  | '"' => some '"'
  | '\\' => some '\\'
  | '/' => some '/'
  | 'b' => some '\x08'
  | 'f' => some '\x0c'
  | 'n' => some '\n'
  | 'r' => some '\r'
  | 't' => some '\t'
  | _ => none

def isHighSurrogate (n : Nat) : Bool :=
  0xD800 ≤ n && n ≤ 0xDBFF

def isLowSurrogate (n : Nat) : Bool :=
  0xDC00 ≤ n && n ≤ 0xDFFF

/-- A code unit as a character. Texts are made of characters here, and a surrogate without a partner is none;
a reader whose texts can hold surrogates keeps it, and here it is replaced. -/
def unitChar (n : Nat) : Char :=
  if n.isValidChar then Char.ofNat n else '\uFFFD'

/-- The character of an escape by code, `digits` being what follows the letter `u`, and how many
characters it takes up. Two surrogates in a row make one character. -/
def unicodeEscape (digits : List Char) : Reading (Char × Nat) :=
  if (digits.drop 4).isEmpty then
    .error (.syntaxAt .badUnicodeEscape (digits.length + 1))
  else
    match hex4? digits with
    | none => .error (.syntaxAt .badUnicodeEscape (digits.length + 1))
    | some high =>
      match digits.drop 4 with
      | '\\' :: 'u' :: more =>
        if isHighSurrogate high && !(more.drop 4).isEmpty then
          match hex4? more with
          | none => .error (.syntaxAt .badUnicodeEscape (more.length + 1))
          | some low =>
            if isLowSurrogate low then
              .ok (Char.ofNat (0x10000 + (high - 0xD800) * 1024 + (low - 0xDC00)), 10)
            else
              .ok (unitChar high, 4)
        else
          .ok (unitChar high, 4)
      | _ => .ok (unitChar high, 4)

/-- The characters of a string up to its closing quote, and what follows. A string that is not closed
is reported where it starts, `start` characters before the end. -/
def stringBody (start : Nat) : List Char → Reading (List Char × List Char)
  | [] => .error (.syntaxAt .unterminatedString start)
  | c :: rest =>
    if c == '"' then
      .ok ([], rest)
    else if c == '\\' then
      match rest with
      | [] => .error (.syntaxAt .unterminatedString start)
      | d :: more =>
        if d == 'u' then
          match unicodeEscape more with
          | .error fault => .error fault
          | .ok (char, count) =>
            (stringBody start (more.drop count)).map fun (cs, after) => (char :: cs, after)
        else
          match escaped? d with
          | none => fail .badEscape (c :: rest)
          | some char => (stringBody start more).map fun (cs, after) => (char :: cs, after)
    else if c.toNat < 32 then
      fail .controlCharacter (c :: rest)
    else
      (stringBody start rest).map fun (cs, after) => (c :: cs, after)
  termination_by cs => cs.length
  decreasing_by
    all_goals
      simp only [List.length_cons, List.length_drop]
      omega

end ApiProbe.Json
