import ApiProbe.Json.Writer
import ApiProbe.Log.Event
import ApiProbe.Text.LetterCase

/-!
Events as lines of documents: the name of an event and its fields as a JSON document, for programs to
read.
-/
namespace ApiProbe

namespace Event

/-- The fields of an event, those of its logger among them. An event that has no type is of the type
that its name says. -/
def payload (e : Event) : Dict Datum :=
  Dict.setNew "type" (.string e.name) (e.bound.merge e.fields)

def documentLine (e : Event) : Except Fault String :=
  (Json.write (.dict (e.payload.map fun (name, d) => (.string name, d)))).map fun document =>
    s!"{e.name} {document}"

end Event

namespace Level

def ofName? (name : String) : Option Level :=
  [debug, info, error].find? fun level => level.name == name

/-- The least severity that is written at a level given by its name in any letter case. Nothing is held
back at a level that does not exist. -/
def documentThreshold (name : String) : Nat :=
  match ofName? (Text.upper name) with
  | some level => level.severity
  | none => 0

end Level

end ApiProbe
