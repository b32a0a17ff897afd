import ApiProbe.Expr.Refusal
import ApiProbe.Value.Unify

/-!
The operations of expressions on values that are already computed.
-/
namespace ApiProbe.Expr

open Value (lookup? ofBound ofKind)

def number (a : Atom) : Result Value :=
  match a with
  | .float x => if x.isFinite then .ok (.atom (.float x)) else refuse (.invalidNumber x)
  | a => .ok (.atom a)

def stringOf (lexeme : String) : Result String :=
  match Json.readString lexeme with
  | .ok s => .ok s
  | .error message => refuse (.invalidString lexeme message)

def intOf (digits : String) : Result Value :=
  match Numeral.readInt digits with
  | .ok n => .ok (.atom (.int n))
  | .error (.tooLong count) => .error (.fault (.numeralTooLong count))
  | .error .malformed => .error (.fault (.malformedNumeral digits))

def floatOf (digits : String) : Result Value :=
  number (.float ((Numeral.readBinary64? digits).getD .nan))

/-- The names that stand for the same values everywhere. -/
def builtins : List (String × Value) :=
  [("_", .top), ("true", .atom (.bool true)), ("false", .atom (.bool false)),
    ("null", .atom .null), ("int", ofKind .int), ("float", ofKind .float),
    ("number", ofKind .number), ("string", ofKind .string), ("bool", ofKind .bool)]

/-- What a name stands for: first in the scope, then everywhere. -/
def resolve (scope : List (String × Value)) (name : String) : Result Value :=
  match (lookup? name scope).or (lookup? name builtins) with
  | some v => .ok v
  | none => refuse (.unknownName name)

def concrete (sign : String) : Value → Result Atom
  | .atom a => .ok a
  | v => refuse (.notConcrete v sign)

/-- The item at an index; the tail stands for all items behind the last one. -/
def itemAt (items : List Value) (tail : Option Value) (index : Int) : Result Value :=
  if index < 0 then
    refuse (.negativeIndex index)
  else
    match items[index.toNat]?.or tail with
    | some v => .ok v
    | none => refuse (.indexOutOfRange index items.length)

/-- Whether a name is made of digits, so that it is an index where a list stands. -/
def isIndexName (name : String) : Bool :=
  !name.isEmpty && name.toList.all Text.isDigit

def selectIndex (items : List Value) (tail : Option Value) (name : String) : Result Value :=
  match Numeral.readInt name with
  | .ok index => itemAt items tail index
  | .error (.tooLong count) => .error (.fault (.numeralTooLong count))
  | .error .malformed => .error (.fault (.malformedNumeral name))

def select (target : Value) (name : String) : Result Value :=
  match target with
  | .list items tail =>
    if isIndexName name then selectIndex items tail name else refuse (.noFields name target)
  | .struct fields =>
    match lookup? name fields with
    | some v => .ok v
    | none => refuse (.unknownField name)
  | target => refuse (.noFields name target)

def index (target key : Value) : Result Value :=
  match target, key with
  | .list items tail, .atom (.int i) => itemAt items tail i
  | .struct fields, .atom (.string label) => select (.struct fields) label
  | target, .atom a => refuse (.wrongKey (.atom a) target)
  | _, key => refuse (.keyNotConcrete key)

def negate (v : Value) : Result Value := do
  match ← concrete "-" v with
  | .int n => .ok (.atom (.int (-n)))
  | .float x => number (.float x.neg)
  | a => refuse (.notNumber a)

def complement (v : Value) : Result Value := do
  match ← concrete "!" v with
  | .bool b => .ok (.atom (.bool !b))
  | a => refuse (.notTruthValue a)

def calculate (op : Operator) (a b : Atom) : Result Value :=
  match op, a, b with
  | .add, .string s, .string t => .ok (.atom (.string (s ++ t)))
  | op, a, b =>
    match a.calculate op b with
    | none => refuse (.mismatched op.sign a b)
    | some result => if op = .div && b.isZero then refuse .divisionByZero
      else result.mapError .fault >>= number

/-- `left op right`; `+` also joins closed lists. -/
def arith (op : Operator) (left right : Value) : Result Value :=
  match op, left, right with
  | .add, .list xs none, .list ys none => .ok (.list (xs ++ ys) none)
  | .add, .list .., .list .. => refuse .openListJoined
  | op, left, right => do
    let a ← concrete op.sign left
    let b ← concrete op.sign right
    calculate op a b

/-- A pattern that can be searched for. -/
def checkPattern (pattern : String) : Result Unit :=
  match Pattern.compile pattern with
  | .ok _ => .ok ()
  | .error refusal =>
    match refusal, refusal.message? pattern with
    | _, some message => refuse (.invalidPattern pattern message)
    | .numeralTooLong digits, none => .error (.fault (.numeralTooLong digits))
    | .mixedFlags, none => .error (.fault .mixedFlags)
    | _, none => .error (.fault .repetitionTooLarge)

/-- Equality, under which a whole number equals a number of the other kind with its value. -/
def equal (a b : Atom) : Bool :=
  a.same b || (a.isNumber && b.isNumber && a.compare? b == some .eq)

def testAtoms (test : Test) (a b : Atom) : Result Bool :=
  match test with
  | .eq => .ok (equal a b)
  | .ne => .ok !(equal a b)
  | .order o =>
    if a.comparable b then .ok (o.holds a b) else refuse (.mismatched o.sign a b)
  | .pattern wanted =>
    match a, b with
    | .string text, .string pattern => do
      checkPattern pattern
      return Pattern.found pattern text == wanted
    | a, b => refuse (.notStrings test.sign a b)

def compare (test : Test) (left right : Value) : Result Value := do
  let a ← concrete test.sign left
  let b ← concrete test.sign right
  let truth ← testAtoms test a b
  return .atom (.bool truth)

def boundBy (test : Test) (a : Atom) : Result Bound :=
  match test with
  | .eq => refuse .boundByEquality
  | .ne => .ok (.ne a)
  | .order o =>
    if a.isNumber || a.kind == .string then .ok (.order o a) else refuse (.noBound test a)
  | .pattern wanted =>
    match a with
    | .string pattern => do
      checkPattern pattern
      return .pattern wanted pattern
    | a => refuse (.patternNotString test a)

def bound (test : Test) (limit : Value) : Result Value :=
  match test with
  | .eq => refuse .boundByEquality
  | test => do
    let a ← concrete test.sign limit
    return ofBound (← boundBy test a)

/-- What `a & b & …` stands for. -/
def meet (first : Value) (rest : List Value) : Result Value :=
  rest.foldlM (fun merged part =>
    match Value.unify merged part with
    | .ok v => .ok v
    | .error (.conflicts all) => refuse (.conflicts all)
    | .error .unprintable => .error (.fault .unprintable)) first

/-- The options of a row of values, with those of alternatives among them. -/
def join (values : List Value) : Value :=
  Value.ofOptions (values.flatMap Value.options)

/-- Puts a value under a label; where the label has a value already, both are unified in its place. -/
def putField (label : String) (value : Value) :
    List (String × Value) → Result (List (String × Value))
  | [] => .ok [(label, value)]
  | (name, old) :: fields =>
    if name == label then
      match Value.unify old value with
      | .ok merged => .ok ((name, merged) :: fields)
      | .error (.conflicts all) => refuse (.fieldConflicts label all)
      | .error .unprintable => .error (.fault .unprintable)
    else
      (putField label value fields).map ((name, old) :: ·)

/-- The struct of fields in which labels may be repeated. -/
def structOf (fields : List (String × Value)) : Result Value :=
  (fields.foldlM (fun done field => putField field.1 field.2 done) []).map .struct

/-- The list of items; nothing stands behind the rest. -/
def listOf : List (Item Value) → Result Value
  | [] => .ok (.list [] none)
  | [.rest] => .ok (.list [] (some .top))
  | [.restOf v] => .ok (.list [] (some v))
  | .value v :: items =>
    (listOf items).map fun
      | .list rest tail => .list (v :: rest) tail
      | other => other
  | _ => refuse .itemAfterRest

def nest (labels : List String) (value : Value) : Value :=
  labels.foldr (fun label inner => .struct [(label, inner)]) value

end ApiProbe.Expr
