import ApiProbe.Log.Event

/-!
Events as messages, for people to read: the name of an event, or the message among its fields, and
then the other fields.
-/
namespace ApiProbe

namespace Datum

/-- Data with text joined to its end: a list takes it in character by character. -/
def append (text : String) : Datum → Except Fault Datum
  | .string s => .ok (.string (s ++ text))
  | .list items => .ok (.list (items ++ text.toList.map fun c => .string c.toString))
  | .tuple _ => .error (.unsuitable "can only concatenate tuple (not \"str\") to tuple")
  | .foreign .bytes => .error (.unsuitable "can't concat str to bytes")
  | d => .error (.unsuitable s!"unsupported operand type(s) for +=: '{d.typeName}' and 'str'")

def displayed (d : Datum) : Except Fault String :=
  if d.printable then .ok d.display else .error .unprintable

end Datum

namespace Event

def fieldTexts : Dict Datum → Except Fault (List String)
  | [] => .ok []
  | (name, d) :: fields => do
    let text ← d.displayed
    return s!"{name}={text}" :: (← fieldTexts fields)

def title (e : Event) : Datum :=
  match Dict.get? "message" e.fields with
  | none | some .null => .string e.name
  | some d => d

def message (e : Event) : Except Fault String := do
  let fields := e.fields.erase "message"
  if fields.isEmpty then e.title.displayed
  else
    let texts ← fieldTexts fields
    let d ← e.title.append (" " ++ " ".intercalate texts)
    d.displayed

/-- What goes with a message: the name of the event and the fields of its logger. -/
def context (e : Event) : Dict Datum :=
  Dict.merge [("event", .string e.name)] e.bound

/-- The message behind its level, which takes five places at least. -/
def messageLine (e : Event) : Except Fault String :=
  e.message.map fun text => String.ofList (e.level.name.toList.rightpad 5 ' ') ++ " " ++ text

end Event

namespace Level

def severities : List (String × Nat) :=
  [("TRACE", 5), ("DEBUG", 10), ("INFO", 20), ("SUCCESS", 25), ("WARNING", 30), ("ERROR", 40),
    ("CRITICAL", 50)]

/-- The least severity that is written at a level given by its name, which has to exist. -/
def messageThreshold (name : String) : Except Fault Nat :=
  match Dict.get? name severities with
  | some severity => .ok severity
  | none => .error (.invalid s!"Level '{name}' does not exist")

end Level

end ApiProbe
