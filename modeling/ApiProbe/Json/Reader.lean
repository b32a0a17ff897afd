import ApiProbe.Json.StringText
import ApiProbe.Number.Numeral
import ApiProbe.Value.Datum

/-!
Reading JSON documents, with the words `NaN`, `Infinity` and `-Infinity` as numbers besides. Arrays and
objects may be nested to any depth: that a stack may run out on the way is left out.
-/
namespace ApiProbe.Json

def isSpace (c : Char) : Bool :=
  c == ' ' || c == '\t' || c == '\n' || c == '\r'

def skipSpace (cs : List Char) : List Char :=
  cs.dropWhile isSpace

/-- What follows a word, if it stands at the front. -/
def dropWord? (word : String) (cs : List Char) : Option (List Char) :=
  if word.toList.isPrefixOf cs then some (cs.drop word.length) else none

/-- The whole part of a number: a zero, or digits that start with no zero. -/
def wholePart? (cs : List Char) : Option (List Char × List Char) :=
  match cs with
  | [] => none
  | c :: rest =>
    if c == '0' then some (['0'], rest)
    else if '1' ≤ c && c ≤ '9' then
      some (c :: rest.takeWhile Text.isAsciiDigit, rest.dropWhile Text.isAsciiDigit)
    else none

def fractionPart (cs : List Char) : Option (List Char) × List Char :=
  match cs with
  | '.' :: rest =>
    let digits := rest.takeWhile Text.isAsciiDigit
    if digits.isEmpty then (none, cs) else (some digits, rest.dropWhile Text.isAsciiDigit)
  | _ => (none, cs)

/-- The exponent after its letter, if that is followed by digits. -/
def exponentPart (cs : List Char) : Option Int × List Char :=
  match cs with
  | c :: rest =>
    if c == 'e' || c == 'E' then
      let (negative, body) := Numeral.splitSign rest
      let digits := body.takeWhile Text.isAsciiDigit
      if digits.isEmpty then (none, cs)
      else
        (some (Binary64.signed negative (Numeral.ofDigits digits)),
          body.dropWhile Text.isAsciiDigit)
    else (none, cs)
  | [] => (none, cs)

def number? (cs : List Char) : Option (Reading (Datum × List Char)) :=
  let (negative, body) := match cs with
    | '-' :: rest => (true, rest)
    | cs => (false, cs)
  match wholePart? body with
  | none => none
  | some (whole, rest) =>
    let (fraction, rest) := fractionPart rest
    let (exponent, rest) := exponentPart rest
    if fraction.isNone && exponent.isNone then
      if Numeral.digitLimit < whole.length then some (.error (.numeralTooLong whole.length))
      else some (.ok (.int (Binary64.signed negative (Numeral.ofDigits whole)), rest))
    else
      let digits := whole ++ fraction.getD []
      let place := exponent.getD 0 - ((fraction.getD []).length : Int)
      some (.ok (.float (Numeral.ofDecimal negative digits place), rest))

def words : List (String × Datum) :=
  [("null", .null), ("true", .bool true), ("false", .bool false), ("NaN", .float .nan),
    ("Infinity", .float (.infinite false)), ("-Infinity", .float (.infinite true))]

def word? (cs : List Char) : Option (Datum × List Char) :=
  words.findSome? fun (word, datum) => (dropWord? word cs).map (datum, ·)

mutual

def value : Nat → List Char → Reading (Datum × List Char)
  | 0, cs => fail .value cs
  | fuel + 1, cs =>
    match cs with
    | [] => fail .value cs
    | '"' :: rest => do
      let (chars, rest) ← stringBody cs.length rest
      return (.string (String.ofList chars), rest)
    | '\x7b' :: rest =>
      match skipSpace rest with
      | '\x7d' :: after => .ok (.dict [], after)
      | rest => do
        let (entries, rest) ← members fuel [] rest
        return (.dict entries, rest)
    | '[' :: rest =>
      match skipSpace rest with
      | ']' :: after => .ok (.list [], after)
      | rest => do
        let (items, rest) ← elements fuel rest
        return (.list items, rest)
    | cs =>
      match word? cs with
      | some result => .ok result
      | none => (number? cs).getD (fail .value cs)

/-- The members of an object from a name on, up to the closing brace. A repeated name keeps its first
place and takes the last value. -/
def members : Nat → List (Datum × Datum) → List Char → Reading (List (Datum × Datum) × List Char)
  | 0, _, cs => fail .propertyName cs
  | fuel + 1, done, cs =>
    match cs with
    | '"' :: rest => do
      let (chars, rest) ← stringBody cs.length rest
      match skipSpace rest with
      | ':' :: rest =>
        let (datum, rest) ← value fuel (skipSpace rest)
        let done := Datum.insert (.string (String.ofList chars)) datum done
        match skipSpace rest with
        | '\x7d' :: rest => return (done, rest)
        | ',' :: rest => members fuel done (skipSpace rest)
        | rest => fail .comma rest
      | rest => fail .colon rest
    | cs => fail .propertyName cs

def elements : Nat → List Char → Reading (List Datum × List Char)
  | 0, cs => fail .value cs
  | fuel + 1, cs => do
    let (datum, rest) ← value fuel cs
    match skipSpace rest with
    | ']' :: rest => return ([datum], rest)
    | ',' :: rest =>
      let (others, rest) ← elements fuel (skipSpace rest)
      return (datum :: others, rest)
    | rest => fail .comma rest

end

def readChars (cs : List Char) : Reading Datum :=
  match cs with
  | '\uFEFF' :: _ => fail .byteOrderMark cs
  | cs => do
    let (datum, rest) ← value (cs.length + 1) (skipSpace cs)
    match skipSpace rest with
    | [] => return datum
    | rest => fail .extraData rest

def read (text : String) : Except String Datum :=
  (readChars text.toList).mapError (Flaw.message text.toList)

def readString (lexeme : String) : Except String String :=
  match read lexeme with
  | .ok (.string s) => .ok s
  | .ok _ => .error ""
  | .error message => .error message

end ApiProbe.Json
