import ApiProbe.Number.Binary64

/-!
The shortest decimal text of a number: the fewest digits that read back as the number, and of these
the digits nearest to it.
-/
namespace ApiProbe.Shortest

/-- A positive number with the ends of the interval that rounds to it, all over one denominator. -/
structure Target where
  low : Nat
  value : Nat
  high : Nat
  denominator : Nat
  /-- Whether the ends of the interval round to the number too. -/
  closed : Bool

/-- The neighbours of a mantissa are one unit apart, but half a unit below a power of two. -/
def Target.of (mantissa : Nat) (exponent : Int) : Target :=
  let below := if mantissa == twoTo 52 && Binary64.minExponent < exponent then 1 else 2
  let (factor, denominator) := if 0 ≤ exponent then (twoTo exponent.toNat, 4)
    else (1, 4 * twoTo (-exponent).toNat)
  { low := (4 * mantissa - below) * factor
    value := 4 * mantissa * factor
    high := (4 * mantissa + 2) * factor
    denominator
    closed := mantissa % 2 == 0 }

/-- Whether `digits · 10^place` rounds to the number. -/
def Target.holds (target : Target) (digits : Nat) (place : Int) : Bool :=
  let (num, den) := if 0 ≤ place then (digits * tenTo place.toNat, 1)
    else (digits, tenTo (-place).toNat)
  let point := num * target.denominator
  if target.closed then target.low * den ≤ point && point ≤ target.high * den
  else target.low * den < point && point < target.high * den

/-- The largest multiple of `10^place` up to the number, as a count, and what is left over together
with the size of one step. -/
def Target.floor (target : Target) (place : Int) : Nat × Nat × Nat :=
  let (num, den) := if 0 ≤ place then (target.value, target.denominator * tenTo place.toNat)
    else (target.value * tenTo (-place).toNat, target.denominator)
  (num / den, num % den, den)

/-- The point of one decimal grid that reads back, the nearer of two, the even one of two as near. -/
def Target.pick? (target : Target) (place : Int) : Option Nat :=
  let (down, rest, step) := target.floor place
  let up := down + 1
  match target.holds down place && down != 0, target.holds up place with
  | true, true =>
    if 2 * rest < step then some down
    else if step < 2 * rest then some up
    else some (if down % 2 == 0 then down else up)
  | true, false => some down
  | false, true => some up
  | false, false => none

/-- The decimal exponent of the leading digit of a positive number below the given bound. -/
def leading (numerator denominator : Nat) : Int :=
  let guess : Int := (((Nat.log2 numerator : Int) - (Nat.log2 denominator : Int)) * 1233) / 4096
  let atLeast (k : Int) : Bool :=
    if 0 ≤ k then denominator * tenTo k.toNat ≤ numerator
    else denominator ≤ numerator * tenTo (-k).toNat
  if atLeast (guess + 1) then guess + 1
  else if atLeast guess then guess
  else guess - 1

def search (target : Target) (top : Int) : Nat → Nat → Nat × Int
  | 0, _ => (0, 0)
  | fuel + 1, count =>
    let place := top + 1 - (count : Int)
    match target.pick? place with
    | some digits => (digits, place)
    | none => search target top fuel (count + 1)

/-- The digits of a positive finite number and the decimal place of the last one. Seventeen digits
tell every two numbers apart. -/
def digits (mantissa : Nat) (exponent : Int) : Nat × Int :=
  let target := Target.of mantissa exponent
  search target (leading target.value target.denominator) 20 1

/-- Where a number changes from positional to exponent notation. -/
structure Layout where
  /-- The least exponent of a leading digit written positionally. -/
  least : Int
  /-- The first exponent of a leading digit that is too large for it. -/
  bound : Int

/-- Numbers are positional from `0.0001` up to `10^16`. -/
def Layout.standard : Layout :=
  ⟨-4, 16⟩

def zeros (n : Nat) : String :=
  String.ofList (List.replicate n '0')

def exponentText (e : Int) : String :=
  let magnitude := toString e.natAbs
  let sign := if e < 0 then "-" else "+"
  sign ++ (if magnitude.length < 2 then "0" ++ magnitude else magnitude)

/-- The digits without the zeros at their end, and the place of the last one left. -/
def strip : Nat → Nat → Int → Nat × Int
  | 0, n, place => (n, place)
  | fuel + 1, n, place =>
    if n != 0 && n % 10 == 0 then strip fuel (n / 10) (place + 1) else (n, place)

def magnitudeText (layout : Layout) (mantissa : Nat) (exponent : Int) : String :=
  if mantissa = 0 then
    "0.0"
  else
    let (raw, rawPlace) := digits mantissa exponent
    let (n, place) := strip 20 raw rawPlace
    let text := toString n
    let count := text.length
    let top := place + (count : Int) - 1
    if top < layout.least || layout.bound ≤ top then
      let cs := text.toList
      let fraction := if count == 1 then "" else "." ++ String.ofList (cs.drop 1)
      String.ofList (cs.take 1) ++ fraction ++ "e" ++ exponentText top
    else if 0 ≤ place then
      text ++ zeros place.toNat ++ ".0"
    else if 0 ≤ top then
      let whole := (top + 1).toNat
      let cs := text.toList
      String.ofList (cs.take whole) ++ "." ++ String.ofList (cs.drop whole)
    else
      "0." ++ zeros (-top - 1).toNat ++ text

def text : Binary64 → String
  | .nan => "nan"
  | .infinite negative => if negative then "-inf" else "inf"
  | .finite negative mantissa exponent =>
    (if negative then "-" else "") ++ magnitudeText .standard mantissa exponent

end ApiProbe.Shortest
