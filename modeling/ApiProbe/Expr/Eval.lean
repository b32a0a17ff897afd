import ApiProbe.Expr.Machine
import ApiProbe.Expr.Operation

/-!
The value of an expression in a scope. Parts are evaluated from left to right and before the whole,
so the first part that fails decides.
-/
namespace ApiProbe.Expr

def Label.eval : Label → Result String
  | .name text => .ok text
  | .quoted lexeme => stringOf lexeme

def Selector.eval : Selector → Result String
  | .name text => .ok text
  | .quoted lexeme => stringOf lexeme
  | .digits text => .ok text

abbrev Scope := List (String × Value)

mutual

def Tree.eval (scope : Scope) : Tree → Result Value
  | .string lexeme => (stringOf lexeme).map fun s => .atom (.string s)
  | .int digits => intOf digits
  | .float digits => floatOf digits
  | .ref name => resolve scope name
  | .select target selector => do
    let v ← target.eval scope
    select v (← selector.eval)
  | .index target key => do
    let v ← target.eval scope
    index v (← key.eval scope)
  | .neg operand => do negate (← operand.eval scope)
  | .not operand => do complement (← operand.eval scope)
  | .arith op left right => do
    let a ← left.eval scope
    arith op a (← right.eval scope)
  | .test test left right => do
    let a ← left.eval scope
    compare test a (← right.eval scope)
  | .bound test limit => do bound test (← limit.eval scope)
  | .all parts => do
    match ← evalAll scope parts with
    | [] => return .top
    | first :: rest => meet first rest
  | .any options => do return join (← evalAll scope options)
  | .struct fields => do structOf (← evalFields scope fields)
  | .list items => do listOf (← evalItems scope items)

def evalAll (scope : Scope) : List Tree → Result (List Value)
  | [] => .ok []
  | t :: ts => do
    let v ← t.eval scope
    return v :: (← evalAll scope ts)

def evalFields (scope : Scope) : List (List Label × Tree) → Result (List (String × Value))
  | [] => .ok []
  | (labels, t) :: fields => do
    let names ← labels.mapM Label.eval
    let v ← t.eval scope
    let rest ← evalFields scope fields
    match names with
    | [] => return rest
    | name :: inner => return (name, nest inner v) :: rest

def evalItems (scope : Scope) : List (Item Tree) → Result (List (Item Value))
  | [] => .ok []
  | .value t :: items => do
    let v ← t.eval scope
    return .value v :: (← evalItems scope items)
  | .rest :: items => do return .rest :: (← evalItems scope items)
  | .restOf t :: items => do
    let v ← t.eval scope
    return .restOf v :: (← evalItems scope items)

end

def Document.eval (scope : Scope) : Document → Result Value
  | .empty => .ok (.struct [])
  | .fields all => do structOf (← evalFields scope all)
  | .value tree => tree.eval scope

/-- A text has no value: it is no expression, or its expression has none. -/
inductive CompileError where
  | malformed (error : SyntaxError)
  | refused (refusal : Refusal)

def CompileError.message : CompileError → String
  | .malformed error => error.message
  | .refused refusal => refusal.message

/-- A text does not compile, or its evaluation breaks off. -/
inductive CompileFailure where
  | compile (error : CompileError)
  | fault (fault : Fault)

def compile (scope : Scope) (text : String) : Except CompileFailure Value :=
  match parse text with
  | .error error => .error (.compile (.malformed error))
  | .ok document =>
    match document.eval scope with
    | .ok value => .ok value
    | .error (.refused refusal) => .error (.compile (.refused refusal))
    | .error (.fault fault) => .error (.fault fault)

end ApiProbe.Expr
