import ApiProbe.Text.Letter
import ApiProbe.Value.Basic

/-!
The text of a value on one line. A label stands bare if it reads as one identifier with a meaning of
its own as a label.
-/
namespace ApiProbe.Value

def isLabelStart (c : Char) : Bool :=
  Text.isAsciiLetter c || c == '_' || c == '$' || c == '#'

def isLabelRest (c : Char) : Bool :=
  isLabelStart c || ('0' ≤ c && c ≤ '9')

/-- Names that mean something else than a label of that name. -/
def reserved : List String :=
  ["_", "true", "false", "null"]

/-- A line feed at the end does not keep a label from standing bare. -/
def isBareLabel (label : String) : Bool :=
  match label.toList with
  | [] => false
  | c :: rest =>
    isLabelStart c && (rest.all isLabelRest ||
      (rest.getLast? == some '\n' && rest.dropLast.all isLabelRest)) && !reserved.contains label

def labelText (label : String) : String :=
  if isBareLabel label then label else Text.quoted label

def boundText (bound : Bound) : String :=
  bound.sign ++ bound.limit.text

def constraintTexts (c : Constraint) : List String :=
  (c.kind.map (·.name)).toList ++ c.bounds.map boundText

mutual

def text : Value → String
  | .top => "_"
  | .atom a => a.text
  | .constraint c => " & ".intercalate (constraintTexts c)
  | .any options => " | ".intercalate (texts options)
  | .struct fields =>
    if fields.isEmpty then "\x7b\x7d" else "\x7b" ++ ", ".intercalate (fieldTexts fields) ++ "\x7d"
  | .list items tail => "[" ++ ", ".intercalate (texts items ++ tailTexts tail) ++ "]"

def texts : List Value → List String
  | [] => []
  | x :: xs => x.text :: texts xs

def fieldTexts : List (String × Value) → List String
  | [] => []
  | (label, x) :: fields => (labelText label ++ ": " ++ x.text) :: fieldTexts fields

def tailTexts : Option Value → List String
  | none => []
  | some .top => ["..."]
  | some x => ["..." ++ x.text]

end

def boundPrintable (bound : Bound) : Bool :=
  bound.limit.printable

mutual

/-- Whether the value has a text: every whole number in it is within the digit limit. -/
def printable : Value → Bool
  | .top => true
  | .atom a => a.printable
  | .constraint c => c.bounds.all boundPrintable
  | .any options => printableAll options
  | .struct fields => printableFields fields
  | .list items tail => printableAll items && printableTail tail

def printableAll : List Value → Bool
  | [] => true
  | x :: xs => x.printable && printableAll xs

def printableFields : List (String × Value) → Bool
  | [] => true
  | (_, x) :: fields => x.printable && printableFields fields

def printableTail : Option Value → Bool
  | none => true
  | some x => x.printable

end

/-- The text of a value, with a string at the top level as it is. -/
def display : Value → String
  | .atom (.string s) => s
  | v => v.text

end ApiProbe.Value
