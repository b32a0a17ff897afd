import ApiProbe.Run.Request

/-!
Commands: what the lines of a script ask for. Besides those of the language there may be others, known
by name, argument and effect.
-/
namespace ApiProbe

inductive Command where
  /-- Pushes the value of an expression. -/
  | value (text : String)
  /-- Unifies the newest value with that of an expression and pushes the result. -/
  | expect (text : String)
  | http (request : Http.Request)
  | custom (title argument : String) (effect : Session → Outcome)

namespace Command

def title : Command → String
  | .value _ => "SetValue"
  | .expect _ => "MatchValue"
  | .http _ => "HttpCommand"
  | .custom title .. => title

/-- The result of a match: the common value; a conflict is a mismatch. -/
def matchValue (s : Session) (text : String) : Except Failure Value := do
  let expected ← s.compile text
  match s.unify expected with
  | .error (.problem ⟨.conflict all, _, _, _⟩) => .error (.problem (.mismatch all))
  | result => result

def run (s : Session) : Command → Outcome
  | .value text => Outcome.of s s.push (s.compile text)
  | .expect text => Outcome.of s s.push (matchValue s text)
  | .http request => s.send request
  | .custom _ _ effect => effect s

end Command

structure LocatedCommand where
  command : Command
  source : String
  line : Nat

end ApiProbe
