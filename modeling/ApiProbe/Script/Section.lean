import ApiProbe.Script.Registry

/-!
Reading a script: comments and blank lines are left out, a header starts a section, and every other
line is a keyword with its argument. Lines are counted from one.
-/
namespace ApiProbe

structure Section where
  name : String
  startLine : Nat
  commands : List LocatedCommand := []

namespace Section

def worthKeeping (s : Section) : Bool :=
  !s.commands.isEmpty || !s.name.isEmpty

def addCommand (s : Section) (c : LocatedCommand) : Section :=
  { s with commands := s.commands ++ [c] }

/-- The section as it is kept: none if it has neither name nor commands. -/
def kept : Option Section → List Section
  | some s => if s.worthKeeping then [s] else []
  | none => []

end Section

structure Script where
  source : String
  sections : List Section

def Script.commandCount (script : Script) : Nat :=
  (script.sections.flatMap (·.commands)).length

namespace Script

inductive Entry where
  | nothing
  | header (name : String)
  | command (keyword remainder : String)

def Entry.ofLine (raw : String) : Entry :=
  match Text.trimChars raw.toList with
  | [] => .nothing
  | '/' :: '/' :: _ => .nothing
  | '#' :: name => .header (Text.trim (String.ofList name))
  | line =>
    let (keyword, rest) := line.span (· != ' ')
    .command (String.ofList keyword) (Text.trim (String.ofList (rest.drop 1)))

/-- A failure of a parser as a problem at the line of the command, under its keyword. A fault that is
not about the text passes through. -/
def reportParse (source keyword : String) (line : Nat) : Failure → Failure
  | .problem p =>
    if p.kind.isParse then
      .problem ({ p with message := s!"{keyword}: {p.message}" }.locate source line)
    else
      .problem p
  | .fault fault =>
    if fault.isInvalid then
      .problem ⟨.parse, s!"{keyword}: {fault.message}", some source, some line⟩
    else
      .fault fault
  | failure => failure

/-- The sections of the lines from a number on, `current` being the one that is open. -/
def readSections (registry : Registry) (source : String) (number : Nat) (current : Option Section) :
    List Line → Except Failure (List Section)
  | [] => .ok (Section.kept current)
  | .error error :: _ => .error (notUtf8 error)
  | .ok raw :: lines =>
    match Entry.ofLine raw with
    | .nothing => readSections registry source (number + 1) current lines
    | .header name =>
      (readSections registry source (number + 1) (some ⟨name, number, []⟩) lines).map
        (Section.kept current ++ ·)
    | .command keyword remainder =>
      match registry.get? keyword with
      | none => .error (.problem (.unknownCommand keyword (some source) number))
      | some parser =>
        match parser remainder lines with
        | .error failure => .error (reportParse source keyword number failure)
        | .ok taken =>
          let sec := (current.getD ⟨"", number, []⟩).addCommand ⟨taken.result, source, number⟩
          readSections registry source (number + 1 + taken.count) (some sec)
            (lines.drop taken.count)
  termination_by lines => lines.length
  decreasing_by
    all_goals
      simp only [List.length_cons, List.length_drop]
      omega

def read (registry : Registry) (source : String) (lines : List Line) : Except Failure Script :=
  (readSections registry source 1 none lines).map fun sections => ⟨source, sections⟩

end Script

end ApiProbe
