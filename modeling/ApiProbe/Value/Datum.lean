import ApiProbe.Fault
import ApiProbe.Value.Printer

/-!
Data: what a document holds, what is logged and what values are encoded from. Besides plain data there
are tuples, keys of any kind, finished values and things that nothing is encoded from.
-/
namespace ApiProbe

/-- Things that are no data, known by the name of their type only. -/
inductive Foreign where
  | bytes
  | set
  | object
  | complex
  deriving DecidableEq

def Foreign.name : Foreign → String
  | .bytes => "bytes"
  | .set => "set"
  | .object => "object"
  | .complex => "complex"

def Foreign.text : Foreign → String
  | .bytes => "b''"
  | .set => "set()"
  | .object => "<object object>"
  | .complex => "1j"

inductive Datum where
  | null
  | bool (b : Bool)
  | int (n : Int)
  | float (x : Binary64)
  | string (s : String)
  | list (items : List Datum)
  | tuple (items : List Datum)
  | dict (entries : List (Datum × Datum))
  | value (v : Value)
  | foreign (kind : Foreign)

instance : Inhabited Datum :=
  ⟨.null⟩

namespace Datum

def ofAtom : Atom → Datum
  | .null => .null
  | .bool b => .bool b
  | .int n => .int n
  | .float x => .float x
  | .string s => .string s

mutual

/-- The plain data of a concrete value, or the value inside that is not concrete. -/
def ofValue : Value → Except Value Datum
  | .atom a => .ok (ofAtom a)
  | .struct fields => (ofFields fields).map .dict
  | .list items none => (ofValues items).map .list
  | v => .error v

def ofValues : List Value → Except Value (List Datum)
  | [] => .ok []
  | v :: vs => do
    let d ← ofValue v
    let ds ← ofValues vs
    return d :: ds

def ofFields : List (String × Value) → Except Value (List (Datum × Datum))
  | [] => .ok []
  | (label, v) :: fields => do
    let d ← ofValue v
    let ds ← ofFields fields
    return (.string label, d) :: ds

end

/-- The number that a number or a truth value counts as where keys are compared. -/
def numeral? : Datum → Option Atom
  | .bool b => some (.int (if b then 1 else 0))
  | .int n => some (.int n)
  | .float x => some (.float x)
  | _ => none

mutual

/-- Equality of data, with numbers of all kinds compared by value. -/
def same : Datum → Datum → Bool
  | .null, .null => true
  | .string s, .string t => s == t
  | .list xs, .list ys => sameAll xs ys
  | .tuple xs, .tuple ys => sameAll xs ys
  | .value v, .value w => v.same w
  | .foreign k, .foreign l => k == l && k != .object
  | a, b =>
    match a.numeral?, b.numeral? with
    | some x, some y => x.compare? y == some .eq
    | _, _ => false

def sameAll : List Datum → List Datum → Bool
  | [], [] => true
  | x :: xs, y :: ys => x.same y && sameAll xs ys
  | _, _ => false

end

/-- Sets a key: a key that is there already keeps its place. -/
def insert (key value : Datum) : List (Datum × Datum) → List (Datum × Datum)
  | [] => [(key, value)]
  | (k, v) :: entries => if k.same key then (k, value) :: entries else (k, v) :: insert key value entries

/-- The entries with each key once, at its first place and with its last value. -/
def ofEntries (entries : List (Datum × Datum)) : List (Datum × Datum) :=
  entries.foldl (fun done entry => insert entry.1 entry.2 done) []

end Datum

namespace Value

def sortName : Value → String
  | .top => "Top"
  | .atom _ => "Atom"
  | .constraint ⟨some _, []⟩ => "Kind"
  | .constraint ⟨none, [_]⟩ => "Bound"
  | .constraint _ => "Conjunction"
  | .any _ => "Disjunction"
  | .struct _ => "Struct"
  | .list .. => "ListValue"

/-- Items in parentheses, a single one with a comma behind it. -/
def tupleText (items : List String) : String :=
  match items with
  | [item] => s!"({item},)"
  | items => "(" ++ ", ".intercalate items ++ ")"

def payloadText : Atom → String
  | .null => "None"
  | .bool b => if b then "True" else "False"
  | .int n => toString n
  | .float x => Shortest.text x
  | .string s => Text.literal s

def atomForm (a : Atom) : String :=
  s!"Atom(kind={Text.literal a.kind.name}, value={payloadText a})"

def kindForm (kind : Kind) : String :=
  s!"Kind(name={Text.literal kind.name})"

def boundForm (bound : Bound) : String :=
  s!"Bound(op={Text.literal bound.sign}, limit={atomForm bound.limit})"

def constraintForm (c : Constraint) : String :=
  match (c.kind.map kindForm).toList ++ c.bounds.map boundForm with
  | [part] => part
  | parts => s!"Conjunction(parts={tupleText parts})"

mutual

/-- The text that spells out how a value is built. -/
def form : Value → String
  | .top => "Top()"
  | .atom a => atomForm a
  | .constraint c => constraintForm c
  | .any options => s!"Disjunction(options={tupleText (forms options)})"
  | .struct fields => s!"Struct(fields={tupleText (fieldForms fields)})"
  | .list items tail => s!"ListValue(items={tupleText (forms items)}, tail={tailForm tail})"

def forms : List Value → List String
  | [] => []
  | v :: vs => v.form :: forms vs

def fieldForms : List (String × Value) → List String
  | [] => []
  | (label, v) :: fields => s!"({Text.literal label}, {v.form})" :: fieldForms fields

def tailForm : Option Value → String
  | none => "None"
  | some v => v.form

end

end Value

namespace Datum

def typeName : Datum → String
  | .null => "NoneType"
  | .bool _ => "bool"
  | .int _ => "int"
  | .float _ => "float"
  | .string _ => "str"
  | .list _ => "list"
  | .tuple _ => "tuple"
  | .dict _ => "dict"
  | .value v => v.sortName
  | .foreign kind => kind.name

mutual

def form : Datum → String
  | .null => "None"
  | .bool b => if b then "True" else "False"
  | .int n => toString n
  | .float x => Shortest.text x
  | .string s => Text.literal s
  | .list items => "[" ++ ", ".intercalate (forms items) ++ "]"
  | .tuple items => Value.tupleText (forms items)
  | .dict entries => "\x7b" ++ ", ".intercalate (entryForms entries) ++ "\x7d"
  | .value v => v.form
  | .foreign kind => kind.text

def forms : List Datum → List String
  | [] => []
  | d :: ds => d.form :: forms ds

def entryForms : List (Datum × Datum) → List String
  | [] => []
  | (k, d) :: entries => s!"{k.form}: {d.form}" :: entryForms entries

end

mutual

/-- Whether data can be spelled out: every whole number in it is within the digit limit. -/
def printable : Datum → Bool
  | .int n => Numeral.fits n
  | .list items | .tuple items => printableAll items
  | .dict entries => printableEntries entries
  | .value v => v.printable
  | _ => true

def printableAll : List Datum → Bool
  | [] => true
  | d :: ds => d.printable && printableAll ds

def printableEntries : List (Datum × Datum) → Bool
  | [] => true
  | (k, d) :: entries => k.printable && d.printable && printableEntries entries

end

def display : Datum → String
  | .string s => s
  | d => d.form

end Datum

end ApiProbe
