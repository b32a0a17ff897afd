import ApiProbe.Pattern.Matcher
import ApiProbe.Value.Conflict

/-!
Whether an atom satisfies a kind, a bound or a constraint, and the reason if it does not.
-/
namespace ApiProbe

def Kind.check (kind : Kind) (atom : Atom) : Option Reason :=
  if kind.accepts atom.kind then none else some (.kindOfAtom kind atom)

def Bound.check (atom : Atom) : Bound → Option Reason
  | .ne limit => if atom.same limit then some (.outOfBound atom (.ne limit)) else none
  | .pattern wanted source =>
    match atom with
    | .string s =>
      if Pattern.found source s == wanted then none
      else some (.outOfBound atom (.pattern wanted source))
    | _ => some (.incomparable atom .string)
  | .order o limit =>
    if !atom.comparable limit then some (.incomparable atom limit.kind)
    else if o.holds atom limit then none
    else some (.outOfBound atom (.order o limit))

namespace Constraint

/-- The reason of the first part that the atom does not satisfy. -/
def check (c : Constraint) (atom : Atom) : Option Reason :=
  (c.kind.bind (·.check atom)).or (c.bounds.findSome? (·.check atom))

def meetKinds : Kind → Kind → Option Kind
  | .number, .int | .int, .number => some .int
  | .number, .float | .float, .number => some .float
  | a, b => if a = b then some a else none

/-- Whether some atom of the kind can satisfy the bound as far as types go. -/
def agrees (kind : Kind) : Bound → Bool
  | .pattern .. => kind == .string
  | .ne _ => true
  | .order _ limit =>
    kind.accepts limit.kind ||
      ((kind == .int || kind == .float || kind == .number) && limit.isNumber)

/-- The bounds in order of their first occurrence, `kept` being those that occur already. -/
def distinctBoundsFrom (kept : List Bound) : List Bound → List Bound
  | [] => kept
  | b :: bs => distinctBoundsFrom (if kept.any b.same then kept else kept ++ [b]) bs

/-- The kinds of two constraints as one, or the two kinds if they exclude each other. -/
def mergeKinds : Option Kind → Option Kind → Except Reason (Option Kind)
  | some a, some b =>
    match meetKinds a b with
    | some kind => .ok (some kind)
    | none => .error (.kinds a b)
  | some a, none => .ok (some a)
  | none, kind => .ok kind

/-- The constraint that asks for what both ask for: the meet of the kinds, then the bounds in order
of first occurrence. It is refused where a kind excludes a kind or a bound. -/
def merge (c d : Constraint) : Except Reason Constraint :=
  match mergeKinds c.kind d.kind with
  | .error reason => .error reason
  | .ok none => .ok ⟨none, distinctBoundsFrom [] (c.bounds ++ d.bounds)⟩
  | .ok (some kind) =>
    let bounds := distinctBoundsFrom [] (c.bounds ++ d.bounds)
    match bounds.find? (!agrees kind ·) with
    | some bound => .error (.kindOfBound kind bound)
    | none => .ok ⟨some kind, bounds⟩

end Constraint

/-- The reason why an atom violates a single kind or bound; other values are no constraints. -/
def Value.checkAtom? (atom : Atom) : Value → Option (Option Reason)
  | .constraint ⟨some kind, []⟩ => some (kind.check atom)
  | .constraint ⟨none, [bound]⟩ => some (bound.check atom)
  | _ => none

end ApiProbe
