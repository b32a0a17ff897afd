import ApiProbe.Number.Binary64
import ApiProbe.Text.Blank
import ApiProbe.Text.Digit
import ApiProbe.Text.LetterCase

/-!
Reading numerals: whole numbers and decimal fractions with digits of any script, single underscores
between digits and blanks around them. Whole numbers of more digits than the limit are neither read
nor written.
-/
namespace ApiProbe.Numeral

/-- The most digits a whole number is read or written with. -/
def digitLimit : Nat := 4300

/-- Whether a whole number is short enough to be written. -/
def fits (n : Int) : Bool :=
  n.natAbs < tenTo digitLimit

/-- The number that decimal digits of any script stand for. -/
def ofDigits (cs : List Char) : Nat :=
  cs.foldl (fun n c => n * 10 + (Text.decimalValue? c).getD 0) 0

inductive IntError where
  | malformed
  /-- It has this many digits, more than the limit. -/
  | tooLong (digits : Nat)
  deriving DecidableEq

/-- The digits of a group with single underscores between them. -/
def ungroup? : List Char → Option (List Char)
  | [] => some []
  | [c] => if Text.isDecimal c then some [c] else none
  | c :: '_' :: d :: rest =>
    if Text.isDecimal c && Text.isDecimal d then (ungroup? (d :: rest)).map (c :: ·) else none
  | c :: d :: rest =>
    if Text.isDecimal c then (ungroup? (d :: rest)).map (c :: ·) else none

def splitSign : List Char → Bool × List Char
  | '-' :: rest => (true, rest)
  | '+' :: rest => (false, rest)
  | cs => (false, cs)

/-- The whole number a text stands for. The limit is met before anything behind the digits. -/
def readInt (text : String) : Except IntError Int :=
  let (negative, body) := splitSign (Text.trimChars text.toList)
  let (front, rest) := body.span fun c => Text.isDecimal c || c == '_'
  match ungroup? front with
  | none | some [] => .error .malformed
  | some digits =>
    if digitLimit < digits.length then .error (.tooLong digits.length)
    else if rest.isEmpty then .ok (Binary64.signed negative (ofDigits digits))
    else .error .malformed

/-- The nearest number to `±digits · 10^place`. A place far out of range decides the answer before
any power of ten is computed. -/
def ofDecimal (negative : Bool) (digits : List Char) (place : Int) : Binary64 :=
  let significant := digits.dropWhile fun c => Text.decimalValue? c == some 0
  let top := place + (significant.length : Int)
  if significant.isEmpty then .zero negative
  else if 310 < top then .infinite negative
  else if top < -330 then .zero negative
  else
    let n := ofDigits significant
    if 0 ≤ place then .ofQuotient negative (n * tenTo place.toNat) 1
    else .ofQuotient negative n (tenTo (-place).toNat)

/-- Splits at the first character that the test holds of, and drops that character. -/
def splitAt? (test : Char → Bool) (cs : List Char) : List Char × Option (List Char) :=
  match cs.span (!test ·) with
  | (front, []) => (front, none)
  | (front, _ :: back) => (front, some back)

def readExponent? : Option (List Char) → Option Int
  | none => some 0
  | some cs =>
    let (negative, body) := splitSign cs
    match ungroup? body with
    | none | some [] => none
    | some digits => some (Binary64.signed negative (ofDigits digits))

/-- A decimal fraction: digits with at most one point among them, then an optional exponent. -/
def readDecimal? (negative : Bool) (cs : List Char) : Option Binary64 :=
  let (front, exponent) := splitAt? (fun c => c == 'e' || c == 'E') cs
  let (whole, fraction) := splitAt? (· == '.') front
  match ungroup? whole, ungroup? (fraction.getD []), readExponent? exponent with
  | some a, some b, some e =>
    if a.isEmpty && b.isEmpty then none
    else some (ofDecimal negative (a ++ b) (e - (b.length : Int)))
  | _, _, _ => none

/-- The number a text stands for, if it is one. Infinities and NaN have names. -/
def readBinary64? (text : String) : Option Binary64 :=
  let (negative, body) := splitSign (Text.trimChars text.toList)
  let name := body.map Text.lowerChar
  if body.all (·.toNat < 128) && (name == "inf".toList || name == "infinity".toList) then
    some (.infinite negative)
  else if body.all (·.toNat < 128) && name == "nan".toList then
    some .nan
  else
    readDecimal? negative body

end ApiProbe.Numeral
