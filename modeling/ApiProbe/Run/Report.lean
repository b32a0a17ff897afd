import ApiProbe.Engine
import ApiProbe.Files.Tree

/-!
Running the scripts of files one after the other, each in a session of its own, and reporting on them.
-/
namespace ApiProbe

structure Report where
  name : String
  ok : Bool
  reason : Option String := none
  source : Option String := none
  line : Option Int := none

def Report.location (r : Report) : String :=
  let source := (r.source.filter (!·.isEmpty)).getD r.name
  match r.line with
  | none => source
  | some line => s!"{source}:{line}"

/-- The run of a file: the session, if it came to one, and a report or the failure that broke it off. -/
structure FileRun where
  session : Option Session := none
  report : Except Failure Report

namespace FileRun

def events (r : FileRun) : List Event :=
  (r.session.map (·.events)).getD []

/-- What was sent up to the end of the run, where `before` was sent when it began. -/
def sentAfter (before : List Sent) (r : FileRun) : List Sent :=
  (r.session.map (·.sent)).getD before

end FileRun

namespace Engine

/-- The report on a script that was read and run, or failed to be. -/
def reportOf (name : String) (a : Attempt) : Except Failure Report :=
  match a.result, a.session with
  | .error (.problem p), _ =>
    .ok { name, ok := false, reason := p.message, source := p.source, line := p.line }
  | .error failure, _ => .error failure
  | .ok _, none => .ok { name, ok := true }
  | .ok _, some s =>
    .ok (match s.lastError with
      | some p => { name, ok := false, reason := p.message, source := s.source, line := s.line }
      | none => { name, ok := true })

def runFile (e : Engine) (standard : Transport) (tree : FileTree) (s : Session) (p : Path) :
    FileRun :=
  match tree.read p with
  | .error fault =>
    { report := .ok { name := p.text, ok := false, reason := s!"cannot read script: {fault.message p}" } }
  | .ok content =>
    let a := e.runScript standard s p.text (Script.linesOfFile content)
    { session := a.session, report := reportOf p.text a }

/-- Runs files up to the first failure that is not reported. Each session starts as `s`, but knows
what the ones before it sent. -/
def runFiles (e : Engine) (standard : Transport) (tree : FileTree) (s : Session) :
    List Path → List FileRun
  | [] => []
  | p :: paths =>
    let run := e.runFile standard tree s p
    match run.report with
    | .error _ => [run]
    | .ok _ =>
      run :: e.runFiles standard tree { s with sent := run.sentAfter s.sent } paths

end Engine

namespace FileRun

def sentByAll (runs : List FileRun) : List Sent :=
  runs.foldl (fun before run => run.sentAfter before) []

/-- The reports of runs, and the failure that broke the last one off, if one did. -/
def reports : List FileRun → List Report × Option Failure
  | [] => ([], none)
  | run :: runs =>
    match run.report with
    | .error failure => ([], some failure)
    | .ok report =>
      let (more, failure) := reports runs
      (report :: more, failure)

end FileRun

end ApiProbe
