import ApiProbe.Fault
import ApiProbe.Value.Conflict

/-!
Problems: failures that are reported at a place in a script. A problem takes its place from whoever
knows it first, and keeps it.
-/
namespace ApiProbe

/-- What kind of problem it is, with what is known about it beyond the message. -/
inductive ProblemKind where
  | general
  | parse
  | unknownCommand (keyword : String)
  | heredoc
  | httpSyntax
  | compile (text : String)
  | conflict (all : List Conflict)
  | mismatch (all : List Conflict)
  | encode
  | expand (text : String) (position : Int) (cause : ProblemKind)
  | escape (position : Int)
  | transport
  | cancelled
  | responseDecode

def ProblemKind.isParse : ProblemKind → Bool
  | .parse | .unknownCommand _ | .heredoc | .httpSyntax => true
  | _ => false

def ProblemKind.isTransport : ProblemKind → Bool
  | .transport | .cancelled => true
  | _ => false

structure Problem where
  kind : ProblemKind
  message : String
  source : Option String := none
  line : Option Int := none

namespace Problem

/-- The message behind the place it is reported at. A script without a name shows a stand-in. -/
def text (p : Problem) : String :=
  let source := p.source.getD ""
  match p.line with
  | none => if source.isEmpty then p.message else s!"{source}: {p.message}"
  | some line =>
    let name := if source.isEmpty then "<script>" else source
    s!"{name}:{line}: {p.message}"

/-- Fills in the parts of the place that are not known yet. -/
def locate (p : Problem) (source : String) (line : Int) : Problem :=
  { p with source := p.source.or (some source), line := p.line.or (some line) }

def unknownCommand (keyword : String) (source : Option String) (line : Int) : Problem :=
  ⟨.unknownCommand keyword, s!"unknown command {keyword}", source, some line⟩

def conflict (all : List Conflict) : Problem :=
  { kind := .conflict all, message := conflictsText all }

def mismatch (all : List Conflict) : Problem :=
  { kind := .mismatch all, message := "value does not match: " ++ conflictsText all }

def expand (text : String) (position : Int) (cause : Problem) : Problem :=
  { kind := .expand text position cause.kind
    message := s!"cannot evaluate expression {text} at position {position}: {cause.text}" }

def escape (position : Int) (char : String) : Problem :=
  { kind := .escape position, message := s!"invalid escape sequence at position {position} ({char})" }

def cancelled (reason : String) : Problem :=
  { kind := .cancelled, message := reason }

end Problem

/-- Anything that goes wrong: a problem to report, or a fault, on its own or while an expression is
evaluated. -/
inductive Failure where
  | problem (problem : Problem)
  | fault (fault : Fault)
  | evaluation (fault : Fault)

def Failure.text : Failure → String
  | problem p => p.text
  | fault f | evaluation f => f.message

end ApiProbe
