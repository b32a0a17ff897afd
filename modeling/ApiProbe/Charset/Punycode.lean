import ApiProbe.Charset.Wide
import ApiProbe.Text.Digit
import ApiProbe.Text.Letter

/-!
Punycode: the ASCII characters of a text, a hyphen, and behind it numbers that put the other
characters in their places. The numbers have digits of base 36, the least significant one first, and
how far a number goes is told by its digits.
-/
namespace ApiProbe.Charset.Punycode

/-- The least digit at a place of a number that does not end it. -/
def threshold (bias index : Nat) : Nat :=
  min 26 (max 1 (36 * (index + 1) - bias))

def settle (bias delta : Nat) : Nat :=
  if 455 < delta then settle (bias + 36) (delta / 35) else bias + 36 * delta / (delta + 38)
  termination_by delta

/-- The bias for the number behind one that puts a character into a text of the given length. -/
def adapt (first : Bool) (delta length : Nat) : Nat :=
  let delta := if first then delta / 700 else delta / 2
  settle 0 (delta + delta / length)

def digit? (c : Char) : Option Nat :=
  if Text.isAsciiLetter c then some (c.toUpper.toNat - 'A'.toNat)
  else if Text.isAsciiDigit c then some (c.toNat - '0'.toNat + 26)
  else none

/-- The text so far, the character that was put last and the place behind it; then the digits that
were read of a number. -/
structure Insertion where
  text : List Char
  code : Nat := 128
  place : Nat := 0
  bias : Nat := 72
  first : Bool := true
  index : Nat := 0
  weight : Nat := 1
  sum : Nat := 0

/-- Puts the character that a number tells. One beyond all characters is a question mark. -/
def Insertion.put (i : Insertion) (delta : Nat) : Insertion :=
  let steps := i.place + delta
  let code := i.code + steps / (i.text.length + 1)
  let code := if 0x10FFFF < code then '?'.toNat else code
  let place := steps % (i.text.length + 1)
  let char := if isHigh code || isLow code then replacement else Char.ofNat code
  { text := i.text.take place ++ char :: i.text.drop place
    code
    place := place + 1
    bias := adapt i.first delta (i.text.length + 1)
    first := false }

/-- The text that the numbers make of another, up to the first that is malformed or cut off. -/
def insert (i : Insertion) : List Char → List Char
  | [] => i.text
  | c :: rest =>
    match digit? c with
    | none => i.text
    | some digit =>
      let sum := i.sum + digit * i.weight
      let limit := threshold i.bias i.index
      if digit < limit then insert (i.put sum) rest
      else insert { i with index := i.index + 1, weight := i.weight * (36 - limit), sum } rest

/-- The bytes in front of the last hyphen and those behind it. Without a hyphen all are behind it. -/
def parts (bytes : List UInt8) : List UInt8 × List UInt8 :=
  let behind := bytes.reverse.takeWhile (· != 45)
  ((bytes.take (bytes.length - behind.length)).dropLast, behind.reverse)

def asciiChar (b : UInt8) : Char :=
  if b < 128 then Char.ofNat b.toNat else replacement

/-- The first byte behind the last hyphen that is no ASCII character, and its place there. -/
def refused? (bytes : List UInt8) : Option (UInt8 × Nat) :=
  ((parts bytes).2.zipIdx).find? fun (b, _) => 128 ≤ b

def decode (bytes : List UInt8) : String :=
  let (front, numbers) := parts bytes
  String.ofList (insert { text := front.map asciiChar } (numbers.map asciiChar))

end ApiProbe.Charset.Punycode
