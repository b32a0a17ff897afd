import ApiProbe.Number.Numeral
import ApiProbe.Number.Shortest
import ApiProbe.Text.Quoted

/-!
Atoms: the scalars of the expression language, with their equality, their order and their text. Two
atoms are the same only within one kind, so `1` and `1.0` differ while `0.0` and `-0.0` agree.
-/
namespace ApiProbe

inductive AtomKind where
  | null
  | bool
  | int
  | float
  | string
  deriving DecidableEq

def AtomKind.name : AtomKind → String
  | .null => "null"
  | .bool => "bool"
  | .int => "int"
  | .float => "float"
  | .string => "string"

inductive Atom where
  | null
  | bool (b : Bool)
  | int (n : Int)
  | float (x : Binary64)
  | string (s : String)
  deriving DecidableEq

namespace Atom

def kind : Atom → AtomKind
  | .null => .null
  | .bool _ => .bool
  | .int _ => .int
  | .float _ => .float
  | .string _ => .string

def isNumber : Atom → Bool
  | .int _ | .float _ => true
  | _ => false

/-- Equality of kind and payload. -/
def same : Atom → Atom → Bool
  | .null, .null => true
  | .bool a, .bool b => a == b
  | .int m, .int n => m == n
  | .float x, .float y => x.same y
  | .string s, .string t => s == t
  | _, _ => false

/-- The order of two numbers of any kind or of two strings; other atoms have none. -/
def compare? : Atom → Atom → Option Ordering
  | .int m, .int n => some (compare m n)
  | .int n, .float x => x.compareInt? n
  | .float x, .int n => (x.compareInt? n).map Ordering.swap
  | .float x, .float y => x.compare? y
  | .string s, .string t => some (if s < t then .lt else if s = t then .eq else .gt)
  | _, _ => none

def comparable (a b : Atom) : Bool :=
  (a.isNumber && b.isNumber) || (a.kind == .string && b.kind == .string)

/-- Whether the atom can be written: whole numbers beyond the digit limit cannot. -/
def printable : Atom → Bool
  | .int n => Numeral.fits n
  | _ => true

def text : Atom → String
  | .null => "null"
  | .bool b => if b then "true" else "false"
  | .int n => toString n
  | .float x => Shortest.text x
  | .string s => Text.quoted s

end Atom

inductive Order where
  | lt
  | le
  | gt
  | ge
  deriving DecidableEq

namespace Order

def sign : Order → String
  | .lt => "<"
  | .le => "<="
  | .gt => ">"
  | .ge => ">="

def allows : Order → Ordering → Bool
  | .lt, o => o == .lt
  | .le, o => o != .gt
  | .gt, o => o == .gt
  | .ge, o => o != .lt

def holds (order : Order) (a b : Atom) : Bool :=
  match a.compare? b with
  | some o => order.allows o
  | none => false

end Order

end ApiProbe
