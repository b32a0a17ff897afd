import ApiProbe.Value.Atom

/-!
Values of the expression language: anything, atoms, constraints on atoms, alternatives, open structs
and lists that are closed or go on with a tail.
-/
namespace ApiProbe

inductive Kind where
  | int
  | float
  | number
  | string
  | bool
  deriving DecidableEq

def Kind.name : Kind → String
  | .int => "int"
  | .float => "float"
  | .number => "number"
  | .string => "string"
  | .bool => "bool"

def Kind.accepts : Kind → AtomKind → Bool
  | .int, k => k == .int
  | .float, k => k == .float
  | .number, k => k == .int || k == .float
  | .string, k => k == .string
  | .bool, k => k == .bool

/-- A limit on atoms. `pattern wanted source` asks for a match of the pattern, or for none. -/
inductive Bound where
  | order (order : Order) (limit : Atom)
  | ne (limit : Atom)
  | pattern (wanted : Bool) (source : String)
  deriving DecidableEq

namespace Bound

def sign : Bound → String
  | .order o _ => o.sign
  | .ne _ => "!="
  | .pattern wanted _ => if wanted then "=~" else "!~"

def limit : Bound → Atom
  | .order _ limit => limit
  | .ne limit => limit
  | .pattern _ source => .string source

def same : Bound → Bound → Bool
  | .order o a, .order p b => o == p && a.same b
  | .ne a, .ne b => a.same b
  | .pattern v s, .pattern w t => v == w && s == t
  | _, _ => false

end Bound

/-- What an atom has to satisfy: at most one kind, and bounds. -/
structure Constraint where
  kind : Option Kind
  bounds : List Bound
  deriving DecidableEq

def sameBounds : List Bound → List Bound → Bool
  | [], [] => true
  | a :: as, b :: bs => a.same b && sameBounds as bs
  | _, _ => false

def Constraint.same (c d : Constraint) : Bool :=
  c.kind == d.kind && sameBounds c.bounds d.bounds

inductive Value where
  | top
  | atom (a : Atom)
  | constraint (c : Constraint)
  | any (options : List Value)
  | struct (fields : List (String × Value))
  | list (items : List Value) (tail : Option Value)

namespace Value

def ofKind (kind : Kind) : Value :=
  .constraint ⟨some kind, []⟩

def ofBound (bound : Bound) : Value :=
  .constraint ⟨none, [bound]⟩

mutual

/-- Equality of values, with fields, options and bounds in the same order. -/
def same : Value → Value → Bool
  | .top, .top => true
  | .atom a, .atom b => a.same b
  | .constraint c, .constraint d => c.same d
  | .any xs, .any ys => sameAll xs ys
  | .struct fs, .struct gs => sameFields fs gs
  | .list xs tail, .list ys other => sameAll xs ys && sameTail tail other
  | _, _ => false

def sameAll : List Value → List Value → Bool
  | [], [] => true
  | x :: xs, y :: ys => x.same y && sameAll xs ys
  | _, _ => false

def sameFields : List (String × Value) → List (String × Value) → Bool
  | [], [] => true
  | (l, x) :: fs, (m, y) :: gs => l == m && x.same y && sameFields fs gs
  | _, _ => false

def sameTail : Option Value → Option Value → Bool
  | none, none => true
  | some x, some y => x.same y
  | _, _ => false

end

mutual

/-- Whether the value is plain data. -/
def concrete : Value → Bool
  | .atom _ => true
  | .struct fields => concreteFields fields
  | .list items tail => tail.isNone && concreteAll items
  | _ => false

def concreteAll : List Value → Bool
  | [] => true
  | x :: xs => x.concrete && concreteAll xs

def concreteFields : List (String × Value) → Bool
  | [] => true
  | (_, x) :: fields => x.concrete && concreteFields fields

end

def lookup? (label : String) : List (String × Value) → Option Value
  | [] => none
  | (l, x) :: fields => if l == label then some x else lookup? label fields

/-- The options of an alternative; any other value is its own only option. -/
def options : Value → List Value
  | .any xs => xs
  | v => [v]

/-- The values without those that occur earlier, `kept` being what occurs already. -/
def distinctFrom (kept : List Value) : List Value → List Value
  | [] => kept
  | x :: xs => distinctFrom (if kept.any x.same then kept else kept ++ [x]) xs

def distinct (values : List Value) : List Value :=
  distinctFrom [] values

/-- The alternative of distinct options; a single option stands for itself. -/
def ofOptions (values : List Value) : Value :=
  match distinct values with
  | [x] => x
  | xs => .any xs

end Value

end ApiProbe
