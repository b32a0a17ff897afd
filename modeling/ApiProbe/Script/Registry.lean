import ApiProbe.Dict
import ApiProbe.Script.Command

/-!
Parsers of commands under their keywords. A parser takes what follows the keyword and as many of the
lines below as it needs.
-/
namespace ApiProbe

abbrev Parser := String → List Script.Line → Except Failure (Script.Taken Command)

namespace Parser

/-- A parser of commands with a text, which may be a heredoc. -/
def ofText (make : String → Command) : Parser := fun remainder lines =>
  (Script.takePayload remainder lines).map fun taken => ⟨make taken.result, taken.count⟩

def value : Parser :=
  ofText .value

def expect : Parser :=
  ofText .expect

def http : Parser := fun remainder lines =>
  (Http.readRequest remainder lines).map fun taken => ⟨.http taken.result, taken.count⟩

def echo : Parser :=
  ofText fun text => .custom "EchoCommand" text fun s =>
    Outcome.of s s.push (s.expand text >>= fun expanded => Language.encode (.string expanded))

/-- A command that refuses every argument. -/
def strict : Parser := fun remainder _ =>
  .error (.fault (.invalid s!"bad argument {remainder}"))

/-- A command that cancels the run, its argument being the reason. -/
def cancel : Parser := fun remainder _ =>
  .ok ⟨.custom "CancelCommand" remainder fun s =>
    ⟨{ s with lifetime := s.lifetime.cancel remainder }, none⟩, 0⟩

end Parser

/-- Parsers by keyword; each keyword occurs once. -/
abbrev Registry := Dict Parser

namespace Registry

def builtin : Registry :=
  [("VALUE", .value), ("MATCH", .expect)]

/-- The parsers that most scripts need besides. -/
def common : Registry :=
  [("HTTP", .http)]

def keywords (registry : Registry) : List String :=
  (registry.map (·.1)).mergeSort (· ≤ ·)

end Registry

end ApiProbe
