import ApiProbe.Dict
import ApiProbe.Value.Datum

/-!
Events: what a run logs, and how severe it is.
-/
namespace ApiProbe

inductive Level where
  | debug
  | info
  | error
  deriving DecidableEq

namespace Level

def name : Level → String
  | .debug => "DEBUG"
  | .info => "INFO"
  | .error => "ERROR"

def severity : Level → Nat
  | .debug => 10
  | .info => 20
  | .error => 40

end Level

/-- Something that is logged, with the values of the session at that moment. -/
structure Event where
  level : Level
  name : String
  /-- The fields that are attached to every event of a logger. -/
  bound : Dict Datum := []
  fields : Dict Datum := []
  values : List Value := []

end ApiProbe
