import ApiProbe.Value.Conflict
import ApiProbe.Value.Datum

/-!
Encoding data as values. A refusal names the place of what cannot be encoded. Data may be nested to any
depth: that a stack may run out on the way is left out.
-/
namespace ApiProbe

inductive EncodeCause where
  | notFinite (x : Binary64)
  | keyNotString (key : Datum)
  | unsupported (kind : Foreign)

def EncodeCause.message : EncodeCause → String
  | .notFinite x => s!"cannot encode {Shortest.text x}"
  | .keyNotString key => s!"struct labels must be strings, got {key.form}"
  | .unsupported kind => s!"cannot encode value of type {kind.name}"

/-- Why encoding fails, at a place in the data; the second way is a key that cannot be shown. -/
inductive EncodeFailure where
  | refused (path : String) (cause : EncodeCause)
  | unprintable

def EncodeFailure.place (path : String) : String :=
  if path.isEmpty then "value" else path

def refuseKey (path : String) (key : Datum) : EncodeFailure :=
  if key.printable then .refused path (.keyNotString key) else .unprintable

namespace Value

mutual

def encodeAt (path : String) : Datum → Except EncodeFailure Value
  | .null => .ok (.atom .null)
  | .bool b => .ok (.atom (.bool b))
  | .int n => .ok (.atom (.int n))
  | .float x =>
    if x.isFinite then .ok (.atom (.float x)) else .error (.refused path (.notFinite x))
  | .string s => .ok (.atom (.string s))
  | .list items => (encodeItems path 0 items).map (.list · none)
  | .tuple items => (encodeItems path 0 items).map (.list · none)
  | .dict entries => (encodeEntries path entries).map .struct
  | .value v => .ok v
  | .foreign kind => .error (.refused path (.unsupported kind))

def encodeItems (path : String) (index : Nat) : List Datum → Except EncodeFailure (List Value)
  | [] => .ok []
  | d :: ds => do
    let v ← encodeAt (joinPath path (toString index)) d
    let vs ← encodeItems path (index + 1) ds
    return v :: vs

def encodeEntries (path : String) :
    List (Datum × Datum) → Except EncodeFailure (List (String × Value))
  | [] => .ok []
  | (key, d) :: entries => do
    match key with
    | .string label =>
      let v ← encodeAt (joinPath path label) d
      let fields ← encodeEntries path entries
      return (label, v) :: fields
    | key => .error (refuseKey path key)

end

def encode (d : Datum) : Except EncodeFailure Value :=
  encodeAt "" d

end Value

end ApiProbe
