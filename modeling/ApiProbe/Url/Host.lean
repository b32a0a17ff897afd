import ApiProbe.Text.Digit
import ApiProbe.Text.Literal
import ApiProbe.Text.Search

/-!
The hosts that may stand in brackets: addresses of IPv6 and of versions to come.
-/
namespace ApiProbe.Url

def isHexDigit (c : Char) : Bool :=
  Text.isAsciiDigit c || ('a' ≤ c && c ≤ 'f') || ('A' ≤ c && c ≤ 'F')

/-- A number up to 255 without zeros in front. -/
def isOctet (cs : List Char) : Bool :=
  !cs.isEmpty && cs.all Text.isAsciiDigit && cs.length ≤ 3 && (cs == ['0'] || cs.head? != some '0') &&
    cs.foldl (fun n c => n * 10 + (c.toNat - '0'.toNat)) 0 ≤ 255

def isIpv4 (cs : List Char) : Bool :=
  let octets := Text.splitChars '.' cs
  octets.length == 4 && octets.all isOctet

def isHextet (cs : List Char) : Bool :=
  !cs.isEmpty && cs.all isHexDigit && cs.length ≤ 4

/-- The parts of an address with an ending in the form of IPv4 as two groups. -/
def expandIpv4? (parts : List (List Char)) : Option (List (List Char)) :=
  match parts.getLast? with
  | none => some parts
  | some last =>
    if last.contains '.' then
      if isIpv4 last then some (parts.dropLast ++ [['0'], ['0']]) else none
    else
      some parts

/-- The groups on one side of `::`, where an end of the address leaves one empty group. -/
def sideGroups? (side : List (List Char)) : Option (List (List Char)) :=
  match side with
  | [[]] => some []
  | side => if side.all isHextet then some side else none

/-- Whether groups make up eight, with a double colon for at least one. -/
def isGroups (parts : List (List Char)) : Bool :=
  let inner := (parts.drop 1).dropLast
  match inner.findIdx? (·.isEmpty) with
  | none => parts.length == 8 && parts.all isHextet
  | some i =>
    let front := parts.take (i + 1)
    let back := parts.drop (i + 2)
    inner.countP (·.isEmpty) == 1 &&
      match sideGroups? front, sideGroups? back with
      | some high, some low => high.length + low.length ≤ 7
      | _, _ => false

/-- An address without its zone, which follows a percent sign. -/
def dropZone? (cs : List Char) : Option (List Char) :=
  match Text.splitChars '%' cs with
  | [address] => some address
  | [address, zone] => if zone.isEmpty then none else some address
  | _ => none

def isIpv6 (cs : List Char) : Bool :=
  match dropZone? cs with
  | none => false
  | some address =>
    let parts := Text.splitChars ':' address
    !address.isEmpty && 3 ≤ parts.length &&
      match expandIpv4? parts with
      | some parts => parts.length ≤ 9 && isGroups parts
      | none => false

/-- A version in hexadecimal, a point and something behind it. -/
def isFutureAddress (cs : List Char) : Bool :=
  match cs with
  | 'v' :: rest =>
    let version := rest.takeWhile isHexDigit
    match rest.drop version.length with
    | '.' :: _ :: _ => !version.isEmpty
    | _ => false
  | _ => false

/-- What is wrong with a host in brackets. -/
def bracketFault? (host : List Char) : Option String :=
  if host.head? == some 'v' then
    if isFutureAddress host then none else some "IPvFuture address is invalid"
  else if isIpv4 host then some "An IPv4 address cannot be in brackets"
  else if isIpv6 host then none
  else some s!"{Text.literal (String.ofList host)} does not appear to be an IPv4 or IPv6 address"

end ApiProbe.Url
