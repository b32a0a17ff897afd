import ApiProbe.Number.Numeral
import ApiProbe.Pattern.Scanner

/-!
Escapes: characters by code, sets of characters by letter, anchors and references to groups.
-/
namespace ApiProbe.Pattern

def isOctal (c : Char) : Bool :=
  '0' ≤ c && c ≤ '7'

def hexValue? (c : Char) : Option Nat :=
  if '0' ≤ c && c ≤ '9' then some (c.toNat - '0'.toNat)
  else if 'a' ≤ c && c ≤ 'f' then some (c.toNat - 'a'.toNat + 10)
  else if 'A' ≤ c && c ≤ 'F' then some (c.toNat - 'A'.toNat + 10)
  else none

def isHex (c : Char) : Bool :=
  (hexValue? c).isSome

def ofBase (base : Nat) (cs : List Char) : Nat :=
  cs.foldl (fun n c => n * base + (hexValue? c).getD 0) 0

def readHexEscape (letter : Char) (width : Nat) : Reading Nat := do
  let digits ← takeSome isHex width
  let escape := '\\' :: letter :: digits
  if digits.length != width then
    refuse (.incompleteEscape (String.ofList escape)) escape.length
  else if 0x10FFFF < ofBase 16 digits then
    refuse (.badEscape (String.ofList escape)) escape.length
  else
    return ofBase 16 digits

/-- An escape for a character by its name. There is no table of the names here: every name is refused as
unknown, those of characters as well. -/
def readNamedEscape : Reading Nat := do
  if ← eat '\x7b' then
    let name ← readName '\x7d' "character name"
    refuse (.undefinedCharacter name) (name.length + 4)
  else
    refuse (.missing "\x7b") 0

def readOctal (digits : List Char) : Reading Nat := do
  if 0o377 < ofBase 8 digits then
    refuse (.octalEscape (String.ofList ('\\' :: digits))) (digits.length + 1)
  else
    return ofBase 8 digits

def controlEscape? : Char → Option Nat
  | 'a' => some 7
  | 'b' => some 8
  | 'f' => some 12
  | 'n' => some 10
  | 'r' => some 13
  | 't' => some 9
  | 'v' => some 11
  | '\\' => some 92
  | _ => none

def categoryEscape? : Char → Option SetItem
  | 'd' => some (.category .digit false)
  | 'D' => some (.category .digit true)
  | 's' => some (.category .space false)
  | 'S' => some (.category .space true)
  | 'w' => some (.category .word false)
  | 'W' => some (.category .word true)
  | _ => none

def anchorEscape? : Char → Option Anchor
  | 'A' => some .textStart
  | 'b' => some .boundary
  | 'B' => some .notBoundary
  | 'Z' => some .textEnd
  | _ => none

/-- The escapes that mean the same inside a set and outside: by code, and of characters that are
neither letters nor digits. -/
def readCommonEscape (c : Char) : Reading Nat := do
  if c == 'x' then readHexEscape c 2
  else if c == 'u' then readHexEscape c 4
  else if c == 'U' then readHexEscape c 8
  else if c == 'N' then readNamedEscape
  else if Text.isAsciiLetter c || Text.isAsciiDigit c then
    refuse (.badEscape (String.ofList ['\\', c])) 2
  else return c.toNat

def readSetEscape (c : Char) : Reading SetItem := do
  match controlEscape? c, categoryEscape? c with
  | some code, _ => return .char code
  | none, some item => return item
  | none, none =>
    if isOctal c then
      return .char (← readOctal (c :: (← takeSome isOctal 2)))
    else
      return .char (← readCommonEscape c)

def checkGroup (r : Reader) (group : Nat) : Bool :=
  ((r.widths[group]?).join).isSome

/-- Inside a look-behind, only groups closed before it can be referred to. -/
def checkLookbehind (group : Nat) : Reading Unit := do
  let r ← get
  match r.lookbehind with
  | none => return ()
  | some bound =>
    if !checkGroup r group then refuse .openGroup 0
    else if bound ≤ group then refuse .lookbehindGroup 0
    else return ()

def readBackref (digits : List Char) : Reading Node := do
  let group := ofBase 10 digits
  let r ← get
  if group < r.widths.length then
    if !checkGroup r group then refuse .openGroup (digits.length + 1)
    else
      checkLookbehind group
      return .backref group
  else
    refuse (.invalidReference group) digits.length

/-- A backslash with a digit: an octal code of three digits, or a group. -/
def readNumberEscape (c : Char) : Reading Node := do
  if c == '0' then
    return .char (ofBase 8 (c :: (← takeSome isOctal 2)))
  else
    match ← takeSome Text.isAsciiDigit 1 with
    | [] => readBackref [c]
    | second =>
      if isOctal c && second.all isOctal && (← nextIs isOctal) then
        return .char (← readOctal (c :: second ++ (← takeSome isOctal 1)))
      else
        readBackref (c :: second)

def readEscape (c : Char) : Reading Node := do
  match anchorEscape? c, categoryEscape? c, controlEscape? c with
  | some anchor, _, _ => return .anchor anchor
  | none, some item, _ => return .set false [item]
  | none, none, some code => return .char code
  | none, none, none =>
    if Text.isAsciiDigit c then readNumberEscape c
    else return .char (← readCommonEscape c)

end ApiProbe.Pattern
