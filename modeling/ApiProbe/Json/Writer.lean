import ApiProbe.Value.Datum

/-!
Writing data as a JSON document on one line. What is no data is written as the string that spells it
out; a key that is no scalar is refused.
-/
namespace ApiProbe.Json

def floatText (x : Binary64) : String :=
  match x with
  | .nan => "NaN"
  | .infinite negative => if negative then "-Infinity" else "Infinity"
  | x => Shortest.text x

def intText (n : Int) : Except Fault String :=
  if Numeral.fits n then .ok (toString n) else .error .unprintable

/-- A scalar as the name of a member. -/
def keyText : Datum → Except Fault String
  | .string s => .ok s
  | .null => .ok "null"
  | .bool b => .ok (if b then "true" else "false")
  | .int n => intText n
  | .float x => .ok (floatText x)
  | key =>
    .error (.unsuitable s!"keys must be str, int, float, bool or None, not {key.typeName}")

mutual

def write : Datum → Except Fault String
  | .null => .ok "null"
  | .bool b => .ok (if b then "true" else "false")
  | .int n => intText n
  | .float x => .ok (floatText x)
  | .string s => .ok (Text.quoted s)
  | .list items => (writeItems items).map fun texts => "[" ++ ", ".intercalate texts ++ "]"
  | .tuple items => (writeItems items).map fun texts => "[" ++ ", ".intercalate texts ++ "]"
  | .dict entries =>
    (writeEntries entries).map fun texts => "\x7b" ++ ", ".intercalate texts ++ "\x7d"
  | .value v => if v.printable then .ok (Text.quoted v.form) else .error .unprintable
  | .foreign kind => .ok (Text.quoted kind.text)

def writeItems : List Datum → Except Fault (List String)
  | [] => .ok []
  | d :: ds => do
    let text ← write d
    return text :: (← writeItems ds)

def writeEntries : List (Datum × Datum) → Except Fault (List String)
  | [] => .ok []
  | (key, d) :: entries => do
    let name ← keyText key
    let text ← write d
    return (Text.quoted name ++ ": " ++ text) :: (← writeEntries entries)

end

end ApiProbe.Json
