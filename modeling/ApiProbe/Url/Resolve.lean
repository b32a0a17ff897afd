import ApiProbe.Fault
import ApiProbe.Text.LetterCase
import ApiProbe.Url.Host

/-!
Addresses of requests relative to a base. An address with a scheme stands for itself; any other is
put behind the base. An address whose authority is malformed is refused.
-/
namespace ApiProbe.Url

def isSchemeChar (c : Char) : Bool :=
  Text.isAsciiLetter c || Text.isAsciiDigit c || c == '+' || c == '-' || c == '.'

/-- An address without control characters and spaces in front, and without tabs and line ends. -/
def cleaned (url : String) : List Char :=
  (url.toList.dropWhile fun c => c.toNat ≤ 32).filter fun c =>
    c != '\t' && c != '\r' && c != '\n'

/-- The scheme of an address, and what follows its colon. -/
def splitScheme? (cs : List Char) : Option (List Char × List Char) :=
  match cs.span (· != ':') with
  | (c :: front, _ :: back) =>
    if Text.isAsciiLetter c && front.all isSchemeChar then some (c :: front, back) else none
  | _ => none

/-- The authority behind two slashes; empty where there are none. -/
def authority (cs : List Char) : List Char :=
  match cs with
  | '/' :: '/' :: rest => rest.takeWhile fun c => c != '/' && c != '?' && c != '#'
  | _ => []

/-- Characters whose compatibility form holds a character that ends an authority or a part of it. -/
def disguised : List Nat :=
  [0x2047, 0x2048, 0x2049, 0x2100, 0x2101, 0x2105, 0x2106, 0x2A74, 0xFE13, 0xFE16, 0xFE55, 0xFE56,
    0xFE5F, 0xFE6B, 0xFF03, 0xFF0F, 0xFF1A, 0xFF1F, 0xFF20]

/-- What stands between the first opening bracket and the next closing one. -/
def bracketed (cs : List Char) : List Char :=
  ((cs.dropWhile (· != '[')).drop 1).takeWhile (· != ']')

def authorityFault? (cs : List Char) : Option String :=
  if cs.contains '[' != cs.contains ']' then
    some "Invalid IPv6 URL"
  else
    let inBrackets := if cs.contains '[' then bracketFault? (bracketed cs) else none
    let hidden :=
      if cs.any fun c => disguised.contains c.toNat then
        some s!"netloc '{String.ofList cs}' contains invalid characters under NFKC normalization"
      else
        none
    inBrackets.or hidden

def isAbsolute (url : String) : Except Fault Bool :=
  let cs := cleaned url
  let split := splitScheme? cs
  let rest := match split with
    | some (_, rest) => rest
    | none => cs
  match authorityFault? (authority rest) with
  | some message => .error (.invalid message)
  | none => .ok split.isSome

def trimEndSlashes (s : String) : String :=
  String.ofList (s.toList.reverse.dropWhile (· == '/')).reverse

def trimStartSlashes (s : String) : String :=
  String.ofList (s.toList.dropWhile (· == '/'))

/-- An address relative to a base; an empty base leaves it as it is. -/
def resolve (base url : String) : Except Fault String := do
  let absolute ← isAbsolute url
  if absolute || base.isEmpty then return url
  else return trimEndSlashes base ++ "/" ++ trimStartSlashes url

end ApiProbe.Url
