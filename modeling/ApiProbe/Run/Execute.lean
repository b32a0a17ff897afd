import ApiProbe.Script.Section

/-!
Running a script: its commands one by one, in the order of the text. The first one that fails ends the
run; what was computed before stays in the session.
-/
namespace ApiProbe

structure RunResult where
  error : Option Problem := none
  source : Option String := none
  line : Option Int := none
  sectionName : Option String := none

def RunResult.ok (r : RunResult) : Bool :=
  r.error.isNone

/-- What is left of a run: the session, and a result or the failure that broke it off. -/
structure Finished (α : Type) where
  session : Session
  result : Except Failure α

namespace Session

def logStart (s : Session) (c : LocatedCommand) : Session :=
  s.log .debug "command.start"
    [("command", .string c.command.title), ("source", .string c.source), ("line", .int c.line)]

/-- Clocks play no part in a session, so no time is seen to pass. -/
def logEnd (s : Session) (c : LocatedCommand) : Session :=
  s.log .debug "command.end" [("line", .int c.line), ("elapsed_ms", .int 0)]

def logFailed (s : Session) (name : String) (c : LocatedCommand) (p : Problem) : Session :=
  s.log .error "command.failed"
    [("section", .string name), ("source", .string c.source), ("line", .int c.line),
      ("command", .string c.command.title), ("error", .string p.text)]

def logSection (s : Session) (sec : Section) : Session :=
  s.log .info "section.start"
    [("section", .string sec.name), ("line", .int sec.startLine),
      ("message", .string s!"Executing section \"{sec.name}\"")]

def logOver (s : Session) (ok : Bool) : Session :=
  s.log .info "run.end" [("ok", .bool ok)]

/-- Runs one command: its problem, if it has one, is placed at its line. -/
def runCommand (s : Session) (c : LocatedCommand) : Finished (Option Problem) :=
  let outcome := c.command.run ((s.locate c.source c.line).logStart c)
  match outcome.failure with
  | none => ⟨outcome.session.logEnd c, .ok none⟩
  | some (.problem p) =>
    let p := p.locate c.source c.line
    ⟨{ outcome.session with lastError := some p }, .ok (some p)⟩
  | some failure => ⟨outcome.session, .error failure⟩

def runCommands (s : Session) : List LocatedCommand → Finished (Option (LocatedCommand × Problem))
  | [] => ⟨s, .ok none⟩
  | c :: commands =>
    match s.runCommand c with
    | ⟨s, .ok none⟩ => s.runCommands commands
    | ⟨s, .ok (some p)⟩ => ⟨s, .ok (some (c, p))⟩
    | ⟨s, .error failure⟩ => ⟨s, .error failure⟩

def newestDatum (s : Session) : Except Failure Datum :=
  match s.newest? with
  | none => .ok .null
  | some v => (Language.display v).map .string

def runSections (s : Session) : List Section → Finished RunResult
  | [] => ⟨s.logOver true, .ok {}⟩
  | sec :: sections =>
    match (s.logSection sec).runCommands sec.commands with
    | ⟨s, .error failure⟩ => ⟨s, .error failure⟩
    | ⟨s, .ok (some (c, p))⟩ =>
      ⟨(s.logFailed sec.name c p).logOver false, .ok ⟨p, c.source, (c.line : Int), sec.name⟩⟩
    | ⟨s, .ok none⟩ =>
      match s.newestDatum with
      | .error failure => ⟨s, .error failure⟩
      | .ok d =>
        let s := s.log .info "section.end" [("section", .string sec.name), ("value", d)]
        s.runSections sections

/-- The session with the resources that a run is given; they are marked with its identity. -/
def bind (s : Session) (r : Resources) : Session :=
  { s with resources := some { r with bound := [("run_id", .string s.runId)] } }

def release (s : Session) : Session :=
  { s with resources := none }

/-- Runs sections with resources, which are released in the end. -/
def execute (s : Session) (r : Resources) (sections : List Section) : Finished RunResult :=
  let s := (s.bind r).log .info "run.start" [("sections", .int sections.length)]
  let finished := s.runSections sections
  ⟨finished.session.release, finished.result⟩

end Session

end ApiProbe
