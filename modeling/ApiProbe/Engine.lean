import ApiProbe.Run.Execute

/-!
Engines: parsers and resources, with which scripts are read and run. An engine that is given no
transport brings its own as soon as requests can be written.
-/
namespace ApiProbe

structure Engine where
  parsers : Registry := []
  transport : Option Transport := none
  baseUrl : Option String := none
  injector : Option Http.Injector := none

namespace Engine

def registry (e : Engine) : Registry :=
  Registry.builtin.merge e.parsers

def ownsTransport (e : Engine) : Bool :=
  e.transport.isNone && (e.registry.get? "HTTP").isSome

def hasTransport (e : Engine) : Bool :=
  e.transport.isSome || e.ownsTransport

/-- Adds parsers; one under a keyword that is taken replaces the other. -/
def addParsers (e : Engine) (parsers : Registry) : Engine :=
  { e with parsers := e.parsers.merge parsers }

/-- The resources of a run, `standard` being the transport of an engine that is given none. -/
def resources (e : Engine) (standard : Transport) : Resources :=
  { transport := e.transport.or (if e.ownsTransport then some standard else none)
    baseUrl := e.baseUrl.filter (!·.isEmpty)
    injector := e.injector }

def read (e : Engine) (source : String) (lines : List Script.Line) : Except Failure Script :=
  Script.read e.registry source lines

def execute (e : Engine) (standard : Transport) (s : Session) (script : Script) :
    Finished RunResult :=
  s.execute (e.resources standard) script.sections

end Engine

/-- How a run ended that may have failed before it began. -/
structure Attempt where
  /-- There is none where the script could not be read. -/
  session : Option Session
  result : Except Failure RunResult

namespace Engine

/-- Reads and runs a script in a fresh session. A script that cannot be read is a failure. -/
def runScript (e : Engine) (standard : Transport) (s : Session) (source : String)
    (lines : List Script.Line) : Attempt :=
  match e.read source lines with
  | .error failure => ⟨none, .error failure⟩
  | .ok script =>
    let finished := e.execute standard (s.locate source s.line) script
    ⟨some finished.session, finished.result⟩

/-- As `runScript`, but the problem of a script that cannot be read is the result. -/
def runToResult (e : Engine) (standard : Transport) (s : Session) (source : String)
    (lines : List Script.Line) : Attempt :=
  match e.read source lines with
  | .error (.problem p) => ⟨none, .ok ⟨some p, p.source, p.line, none⟩⟩
  | _ => e.runScript standard s source lines

end Engine

end ApiProbe
