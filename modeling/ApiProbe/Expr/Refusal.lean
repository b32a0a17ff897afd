import ApiProbe.Expr.Tree
import ApiProbe.Json.Reader
import ApiProbe.Value.Conflict

/-!
Why an expression has no value, and the words for it. Words that would have to show a whole number
beyond the digit limit cannot be written; the failure is then a fault.
-/
namespace ApiProbe.Expr

inductive Refusal where
  | invalidNumber (x : Binary64)
  | itemAfterRest
  | unknownName (name : String)
  | invalidString (lexeme message : String)
  | noFields (name : String) (target : Value)
  | unknownField (name : String)
  | keyNotConcrete (key : Value)
  | wrongKey (key target : Value)
  | negativeIndex (index : Int)
  | indexOutOfRange (index : Int) (length : Nat)
  | openListJoined
  | mismatched (sign : String) (left right : Atom)
  | notStrings (sign : String) (left right : Atom)
  | divisionByZero
  | notNumber (operand : Atom)
  | notTruthValue (operand : Atom)
  | boundByEquality
  | patternNotString (test : Test) (limit : Atom)
  | noBound (test : Test) (limit : Atom)
  | notConcrete (operand : Value) (sign : String)
  | invalidPattern (pattern message : String)
  | conflicts (all : List Conflict)
  | fieldConflicts (label : String) (all : List Conflict)

namespace Refusal

def message : Refusal → String
  | .invalidNumber x => s!"invalid number {Shortest.text x}"
  | .itemAfterRest => "... must be the last list element"
  | .unknownName name => s!"reference \"{name}\" not found"
  | .invalidString lexeme message => s!"invalid string literal {lexeme}: {message}"
  | .noFields name target => s!"cannot select field {name} of {target.text}"
  | .unknownField name => s!"undefined field: {name}"
  | .keyNotConcrete key => s!"invalid index {key.text} (not concrete)"
  | .wrongKey key target => s!"invalid index {key.text} for {target.text}"
  | .negativeIndex index => s!"invalid negative index {index}"
  | .indexOutOfRange index length => s!"index out of range [{index}] with length {length}"
  | .openListJoined => "cannot concatenate open lists"
  | .mismatched sign left right =>
    s!"invalid operation {left.text} {sign} {right.text} " ++
      s!"(mismatched types {left.kind.name} and {right.kind.name})"
  | .notStrings sign left right => s!"invalid operation {left.text} {sign} {right.text}"
  | .divisionByZero => "division by zero"
  | .notNumber operand => s!"invalid operation -{operand.text}"
  | .notTruthValue operand => s!"invalid operation !{operand.text}"
  | .boundByEquality => "unary == is not a bound, write the value itself"
  | .patternNotString test limit => s!"{test.sign} needs a string pattern, got {limit.text}"
  | .noBound test limit => s!"invalid bound {test.sign}{limit.text}"
  | .notConcrete operand sign =>
    s!"invalid operand {operand.text} for {sign} (not a concrete scalar)"
  | .invalidPattern pattern message =>
    s!"invalid regular expression {Text.literal pattern}: {message}"
  | .conflicts all => conflictsText all
  | .fieldConflicts label all => s!"{label}: {conflictsText all}"

def printable : Refusal → Bool
  | .noFields _ target => target.printable
  | .keyNotConcrete key => key.printable
  | .wrongKey key target => key.printable && target.printable
  | .negativeIndex index | .indexOutOfRange index _ => Numeral.fits index
  | .mismatched _ left right | .notStrings _ left right => left.printable && right.printable
  | .notNumber operand | .notTruthValue operand => operand.printable
  | .patternNotString _ limit | .noBound _ limit => limit.printable
  | .notConcrete operand _ => operand.printable
  | _ => true

end Refusal

/-- An expression is refused, or its evaluation breaks off. -/
inductive Obstacle where
  | refused (refusal : Refusal)
  | fault (fault : Fault)

abbrev Result (α : Type) := Except Obstacle α

def refuse {α : Type} (refusal : Refusal) : Result α :=
  .error (if refusal.printable then .refused refusal else .fault .unprintable)

def Result.ofFault {α : Type} (result : Except Fault α) : Result α :=
  result.mapError .fault

end ApiProbe.Expr
