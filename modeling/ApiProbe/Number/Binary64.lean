import ApiProbe.Number.Power

/-!
Numbers of the format binary64, computed exactly: a finite number is `±mantissa · 2^exponent`, and
each operation rounds the exact result once, to the nearest number and to the even one of two.
-/
namespace ApiProbe

inductive Binary64 where
  | finite (negative : Bool) (mantissa : Nat) (exponent : Int)
  | infinite (negative : Bool)
  | nan
  deriving DecidableEq

namespace Binary64

/-- The exponent of the subnormal numbers and of the smallest normal ones. -/
def minExponent : Int := -1074

def maxExponent : Int := 971

/-- Normal numbers have a mantissa from `2^52` up to this bound, which is excluded. -/
def mantissaBound : Nat := twoTo 53

def zero (negative : Bool) : Binary64 :=
  .finite negative 0 minExponent

def isFinite : Binary64 → Bool
  | .finite .. => true
  | _ => false

def neg : Binary64 → Binary64
  | .finite negative mantissa exponent => .finite (!negative) mantissa exponent
  | .infinite negative => .infinite (!negative)
  | .nan => .nan

/-- `numerator / denominator` divided by `2^exponent`, as a quotient of natural numbers. -/
def scale (numerator denominator : Nat) (exponent : Int) : Nat × Nat :=
  if 0 ≤ exponent then (numerator, denominator * twoTo exponent.toNat)
  else (numerator * twoTo (-exponent).toNat, denominator)

/-- The nearest natural number to a quotient, the even one of two. -/
def roundDiv (numerator denominator : Nat) : Nat :=
  let quotient := numerator / denominator
  let twice := 2 * (numerator % denominator)
  if twice < denominator then quotient
  else if denominator < twice then quotient + 1
  else if quotient % 2 == 0 then quotient
  else quotient + 1

/-- The exponent at which a positive quotient has a mantissa of 53 bits, or the least exponent. -/
def exponentFor (numerator denominator : Nat) : Int :=
  let guess : Int := (Nat.log2 numerator : Int) - (Nat.log2 denominator : Int) - 53
  let (n, d) := scale numerator denominator guess
  max minExponent (if n / d < mantissaBound then guess else guess + 1)

/-- The number nearest to `±numerator / denominator`, of a positive denominator. -/
def ofQuotient (negative : Bool) (numerator denominator : Nat) : Binary64 :=
  if numerator = 0 then
    zero negative
  else
    let exponent := exponentFor numerator denominator
    let (n, d) := scale numerator denominator exponent
    let mantissa := roundDiv n d
    if mantissa < mantissaBound then
      if exponent ≤ maxExponent then .finite negative mantissa exponent else .infinite negative
    else if exponent + 1 ≤ maxExponent then
      .finite negative (mantissa / 2) (exponent + 1)
    else
      .infinite negative

def ofScaled (negative : Bool) (magnitude : Nat) (exponent : Int) : Binary64 :=
  if 0 ≤ exponent then ofQuotient negative (magnitude * twoTo exponent.toNat) 1
  else ofQuotient negative magnitude (twoTo (-exponent).toNat)

def ofInt (n : Int) : Binary64 :=
  ofQuotient (n < 0) n.natAbs 1

def signed (negative : Bool) (magnitude : Nat) : Int :=
  if negative then -(magnitude : Int) else magnitude

/-- A finite number as a whole number of units `2^unit`, for a unit of at most its exponent. -/
def units (negative : Bool) (mantissa : Nat) (exponent unit : Int) : Int :=
  signed negative (mantissa * twoTo (exponent - unit).toNat)

def add : Binary64 → Binary64 → Binary64
  | .finite s m e, .finite t n f =>
    let unit := min e f
    let sum := units s m e unit + units t n f unit
    if sum = 0 then zero (s && t) else ofScaled (sum < 0) sum.natAbs unit
  | .infinite s, .infinite t => if s == t then .infinite s else .nan
  | .infinite s, .finite .. => .infinite s
  | .finite .., .infinite t => .infinite t
  | _, _ => .nan

def sub (x y : Binary64) : Binary64 :=
  x.add y.neg

def mul : Binary64 → Binary64 → Binary64
  | .finite s m e, .finite t n f => ofScaled (s != t) (m * n) (e + f)
  | .infinite s, .infinite t => .infinite (s != t)
  | .infinite s, .finite t n _ => if n = 0 then .nan else .infinite (s != t)
  | .finite s m _, .infinite t => if m = 0 then .nan else .infinite (s != t)
  | _, _ => .nan

/-- Division; a quotient by zero is infinite or no number. -/
def div : Binary64 → Binary64 → Binary64
  | .finite s m e, .finite t n f =>
    if n = 0 then
      if m = 0 then .nan else .infinite (s != t)
    else
      let (numerator, denominator) := scale m n (f - e)
      ofQuotient (s != t) numerator denominator
  | .infinite _, .infinite _ => .nan
  | .infinite s, .finite t _ _ => .infinite (s != t)
  | .finite s _ _, .infinite t => zero (s != t)
  | _, _ => .nan

def compare? : Binary64 → Binary64 → Option Ordering
  | .finite s m e, .finite t n f =>
    let unit := min e f
    some (compare (units s m e unit) (units t n f unit))
  | .infinite s, .infinite t => some (if s == t then .eq else if s then .lt else .gt)
  | .infinite s, .finite .. => some (if s then .lt else .gt)
  | .finite .., .infinite t => some (if t then .gt else .lt)
  | _, _ => none

/-- The order of a whole number and a number, decided exactly. -/
def compareInt? (n : Int) : Binary64 → Option Ordering
  | .finite s m e =>
    let unit := min e 0
    some (compare (units (n < 0) n.natAbs 0 unit) (units s m e unit))
  | .infinite s => some (if s then .gt else .lt)
  | .nan => none

/-- Equality by value, under which the two zeros are equal. -/
def same (x y : Binary64) : Bool :=
  x.compare? y == some .eq

end Binary64

end ApiProbe
