import ApiProbe.Pattern.Syntax
import ApiProbe.Text.Blank
import ApiProbe.Text.Digit
import ApiProbe.Text.LetterCase

/-!
Which single characters the parts of a pattern match, with case told apart or not.
-/
namespace ApiProbe.Pattern

/-- Lower case characters that share an upper case with others. -/
def casePartners : List (Nat × List Nat) := [
  (0x69, [0x131]), (0x73, [0x17F]), (0xB5, [0x3BC]), (0x131, [0x69]), (0x17F, [0x73]),
  (0x345, [0x3B9, 0x1FBE]), (0x390, [0x1FD3]), (0x3B0, [0x1FE3]), (0x3B2, [0x3D0]),
  (0x3B5, [0x3F5]), (0x3B8, [0x3D1]), (0x3B9, [0x345, 0x1FBE]), (0x3BA, [0x3F0]),
  (0x3BC, [0xB5]), (0x3C0, [0x3D6]), (0x3C1, [0x3F1]), (0x3C2, [0x3C3]), (0x3C3, [0x3C2]),
  (0x3C6, [0x3D5]), (0x3D0, [0x3B2]), (0x3D1, [0x3B8]), (0x3D5, [0x3C6]), (0x3D6, [0x3C0]),
  (0x3F0, [0x3BA]), (0x3F1, [0x3C1]), (0x3F5, [0x3B5]), (0x432, [0x1C80]), (0x434, [0x1C81]),
  (0x43E, [0x1C82]), (0x441, [0x1C83]), (0x442, [0x1C84, 0x1C85]), (0x44A, [0x1C86]),
  (0x463, [0x1C87]), (0x1C80, [0x432]), (0x1C81, [0x434]), (0x1C82, [0x43E]), (0x1C83, [0x441]),
  (0x1C84, [0x442, 0x1C85]), (0x1C85, [0x442, 0x1C84]), (0x1C86, [0x44A]), (0x1C87, [0x463]),
  (0x1C88, [0xA64B]), (0x1E61, [0x1E9B]), (0x1E9B, [0x1E61]), (0x1FBE, [0x345, 0x3B9]),
  (0x1FD3, [0x390]), (0x1FE3, [0x3B0]), (0xA64B, [0x1C88]), (0xFB05, [0xFB06]),
  (0xFB06, [0xFB05])]

def partnersOf (code : Nat) : List Nat :=
  (casePartners.lookup code).getD []

/-- The lower case of a code point; codes of no character stay as they are. -/
def foldCode (flags : Flags) (code : Nat) : Nat :=
  if code.isValidChar then
    let c := Char.ofNat code
    if flags.ascii then (if 'A' ≤ c && c ≤ 'Z' then code + 32 else code)
    else (Text.lowerChar c).toNat
  else
    code

def foldClass (flags : Flags) (code : Nat) : List Nat :=
  if flags.ascii then [code] else code :: partnersOf code

def unfold (flags : Flags) (code : Nat) : List Nat :=
  code ::
    if flags.ascii then
      (if 'a'.toNat ≤ code && code ≤ 'z'.toNat then [code - 32] else [])
    else
      (Text.lowerPreimages (Char.ofNat code)).map Char.toNat

def isWordChar (flags : Flags) (c : Char) : Bool :=
  if flags.ascii then Text.isAsciiLetter c || Text.isAsciiDigit c || c == '_'
  else Text.isAlphanumeric c || c == '_'

def Category.holds (flags : Flags) (c : Char) : Category → Bool
  | .digit => if flags.ascii then Text.isAsciiDigit c else Text.isDecimal c
  | .space =>
    if flags.ascii then c == ' ' || (9 ≤ c.toNat && c.toNat ≤ 13) else Text.isBlank c
  | .word => isWordChar flags c

def matchesCode (flags : Flags) (code : Nat) (c : Char) : Bool :=
  if flags.ignoreCase then
    (foldClass flags (foldCode flags code)).contains (foldCode flags c.toNat)
  else
    code == c.toNat

def SetItem.holds (flags : Flags) (c : Char) : SetItem → Bool
  | .char code => matchesCode flags code c
  | .range first last =>
    if flags.ignoreCase then
      (foldClass flags (foldCode flags c.toNat)).any fun folded =>
        (unfold flags folded).any fun code => first ≤ code && code ≤ last
    else
      first ≤ c.toNat && c.toNat ≤ last
  | .category kind negated =>
    let c := if flags.ignoreCase then Char.ofNat (foldCode flags c.toNat) else c
    kind.holds flags c != negated

def matchesChar (flags : Flags) (c : Char) : Node → Bool
  | .char code => matchesCode flags code c
  | .dot => flags.dotAll || c != '\n'
  | .set negated items => items.any (·.holds flags c) != negated
  | _ => false

end ApiProbe.Pattern
