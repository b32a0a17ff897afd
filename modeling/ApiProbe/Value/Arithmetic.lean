import ApiProbe.Fault
import ApiProbe.Value.Atom

/-!
Arithmetic on atoms. Whole numbers are exact; with a number of the other kind, and in every division,
the result is the nearest binary64 number.
-/
namespace ApiProbe

inductive Operator where
  | add
  | sub
  | mul
  | div
  deriving DecidableEq

def Operator.sign : Operator → String
  | .add => "+"
  | .sub => "-"
  | .mul => "*"
  | .div => "/"

namespace Atom

/-- A whole number as a binary64 number, where there is a finite one near it. -/
def toBinary64 (n : Int) : Except Fault Binary64 :=
  let x := Binary64.ofInt n
  if x.isFinite then .ok x else .error .intTooLarge

def divideInts (m n : Int) : Except Fault Binary64 :=
  let x := Binary64.ofQuotient ((m < 0) != (n < 0)) m.natAbs n.natAbs
  if x.isFinite then .ok x else .error .quotientTooLarge

def Operator.onInts (m n : Int) : Operator → Except Fault Atom
  | .add => .ok (.int (m + n))
  | .sub => .ok (.int (m - n))
  | .mul => .ok (.int (m * n))
  | .div => (divideInts m n).map .float

def Operator.onFloats (x y : Binary64) : Operator → Atom
  | .add => .float (x.add y)
  | .sub => .float (x.sub y)
  | .mul => .float (x.mul y)
  | .div => .float (x.div y)

/-- The result of an operator on two numbers; other atoms have none. -/
def calculate (op : Operator) : Atom → Atom → Option (Except Fault Atom)
  | .int m, .int n => some (Operator.onInts m n op)
  | .int m, .float y => some ((toBinary64 m).map (Operator.onFloats · y op))
  | .float x, .int n => some ((toBinary64 n).map (Operator.onFloats x · op))
  | .float x, .float y => some (.ok (Operator.onFloats x y op))
  | _, _ => none

def isZero : Atom → Bool
  | .int n => n == 0
  | .float x => x.same (.zero false)
  | _ => false

end Atom

end ApiProbe
