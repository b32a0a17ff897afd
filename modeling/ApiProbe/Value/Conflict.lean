import ApiProbe.Value.Printer

/-!
Why two values have no common instance. A conflict names the place where the values differ and the
reason in words; a reason that would have to show a whole number beyond the digit limit has none.
-/
namespace ApiProbe

inductive Reason where
  | atoms (a b : Atom)
  | shapes (a b : Value)
  | kinds (a b : Kind)
  | kindOfBound (kind : Kind) (bound : Bound)
  | kindOfAtom (kind : Kind) (atom : Atom)
  | outOfBound (atom : Atom) (bound : Bound)
  | incomparable (atom : Atom) (wanted : AtomKind)
  | lengths (left right : Nat)
  | noOption (a b : Value)

/-- What a value is called where two values of different shapes meet. -/
def Value.typeName : Value → String
  | .struct _ => "struct"
  | .list .. => "list"
  | .atom a => a.kind.name
  | .constraint ⟨some kind, []⟩ => kind.name
  | _ => "constraint"

namespace Reason

def message : Reason → String
  | .atoms a b =>
    s!"conflicting values {a.text} and {b.text}" ++
      if a.kind == b.kind then "" else s!" (mismatched types {a.kind.name} and {b.kind.name})"
  | .shapes a b =>
    s!"conflicting values {a.text} and {b.text} (mismatched types {a.typeName} and {b.typeName})"
  | .kinds a b => s!"conflicting values {a.name} and {b.name} (mismatched types)"
  | .kindOfBound kind bound =>
    s!"conflicting values {kind.name} and {Value.boundText bound} (mismatched types)"
  | .kindOfAtom kind atom =>
    s!"conflicting values {kind.name} and {atom.text} " ++
      s!"(mismatched types {kind.name} and {atom.kind.name})"
  | .outOfBound atom bound =>
    s!"invalid value {atom.text} (out of bound {Value.boundText bound})"
  | .incomparable atom wanted =>
    s!"invalid value {atom.text} (mismatched types {wanted.name} and {atom.kind.name})"
  | .lengths left right => s!"incompatible list lengths ({left} and {right})"
  | .noOption a b => s!"{a.text} does not match {b.text} (empty disjunction)"

/-- Whether the words can be written. -/
def printable : Reason → Bool
  | .atoms a b => a.printable && b.printable
  | .shapes a b | .noOption a b => a.printable && b.printable
  | .kinds .. | .lengths .. => true
  | .kindOfBound _ bound => Value.boundPrintable bound
  | .kindOfAtom _ atom | .incomparable atom _ => atom.printable
  | .outOfBound atom bound => atom.printable && Value.boundPrintable bound

end Reason

/-- A place, as the labels and indices on the way to it, and what is wrong there. -/
structure Conflict where
  path : String
  reason : String
  deriving DecidableEq

def Conflict.text (c : Conflict) : String :=
  if c.path.isEmpty then c.reason else s!"{c.path}: {c.reason}"

def conflictsText (cs : List Conflict) : String :=
  "; ".intercalate (cs.map (·.text))

/-- One step down from a place. -/
def joinPath (path label : String) : String :=
  if path.isEmpty then label else s!"{path}.{label}"

/-- A failed unification: the conflicts found, or a conflict that cannot be put in words. -/
inductive Clash where
  | conflicts (all : List Conflict)
  | unprintable
  deriving DecidableEq

namespace Clash

def of (path : String) (reason : Reason) : Clash :=
  if reason.printable then .conflicts [⟨path, reason.message⟩] else .unprintable

def merge : Clash → Clash → Clash
  | .conflicts cs, .conflicts ds => .conflicts (cs ++ ds)
  | _, _ => .unprintable

end Clash

abbrev Unified (α : Type) := Except Clash α

/-- Both results, or the conflicts of both. -/
def Unified.both {α β : Type} : Unified α → Unified β → Unified (α × β)
  | .ok a, .ok b => .ok (a, b)
  | .error c, .error d => .error (c.merge d)
  | .error c, .ok _ => .error c
  | .ok _, .error d => .error d

/-- All results, or the conflicts of all that failed. -/
def Unified.all {α : Type} : List (Unified α) → Unified (List α)
  | [] => .ok []
  | r :: rs => (Unified.both r (Unified.all rs)).map fun (x, xs) => x :: xs

end ApiProbe
