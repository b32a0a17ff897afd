import ApiProbe.Pattern.Group
import ApiProbe.Pattern.Repetition

/-!
Reading a regular expression as a whole: alternatives of sequences of nodes.
-/
namespace ApiProbe.Pattern

mutual

/-- Alternatives up to a closing parenthesis or the end. -/
def readOptions (nested verbose : Bool) (done : List (List Node)) : Nat → Reading (List Node)
  | 0 => return []
  | fuel + 1 => do
    let option ← readSequence nested verbose (!nested && done.isEmpty) [] fuel
    if ← eat '|' then
      let r ← get
      let verbose := if nested then verbose else r.flags.verbose
      readOptions nested verbose (done ++ [option]) fuel
    else if done.isEmpty then
      return option
    else
      return [.branch (done ++ [option])]

/-- Nodes in a row, the ones read already in reverse. Flags of the whole pattern have to come
first. -/
def readSequence (nested verbose first : Bool) (done : List Node) : Nat → Reading (List Node)
  | 0 => return done.reverse
  | fuel + 1 => do
    let start := position (← get)
    match ← peek with
    | none => return done.reverse
    | some t =>
      if t == plain '|' || t == plain ')' then
        return done.reverse
      else
        advance
        if t.escaped then
          readSequence nested verbose first ((← readEscape t.char) :: done) fuel
        else if verbose && isVerboseBlank t.char then
          readSequence nested verbose first done fuel
        else if verbose && t.char == '#' then
          skipLine (← restLength)
          readSequence nested verbose first done fuel
        else if t.char == '[' then
          let negated ← eat '^'
          let items ← readSet start [] (← restLength)
          readSequence nested verbose first (.set negated items :: done) fuel
        else if t.char == '?' || t.char == '*' || t.char == '+' || t.char == '\x7b' then
          match ← readQuantifier t.char with
          | none => readSequence nested verbose first (.char t.char.toNat :: done) fuel
          | some counts =>
            readSequence nested verbose first (← repeatLast start counts done) fuel
        else if t.char == '.' then
          readSequence nested verbose first (.dot :: done) fuel
        else if t.char == '^' then
          readSequence nested verbose first (.anchor .lineStart :: done) fuel
        else if t.char == '$' then
          readSequence nested verbose first (.anchor .lineEnd :: done) fuel
        else if t.char == '(' then
          match ← readOpening start with
          | .nothing => readSequence nested verbose first done fuel
          | .node node => readSequence nested verbose first (node :: done) fuel
          | .flags =>
            if first && done.isEmpty then
              let r ← get
              readSequence nested r.flags.verbose first done fuel
            else
              failAt .lateFlags start
          | .capture name =>
            let group ← openGroup name
            let body ← readOptions true verbose [] fuel
            expectClose start
            closeGroup group body
            readSequence nested verbose first (.group (some group) {} {} body :: done) fuel
          | .plainGroup on off =>
            let body ← readOptions true ((verbose || on.verbose) && !off.verbose) [] fuel
            expectClose start
            readSequence nested verbose first (.group none on off body :: done) fuel
          | .atomic =>
            let body ← readOptions true verbose [] fuel
            expectClose start
            readSequence nested verbose first (.atomic body :: done) fuel
          | .look ahead wanted =>
            let outer := (← get).lookbehind
            if !ahead && outer.isNone then
              modify fun r => { r with lookbehind := some r.widths.length }
            let body ← readOptions true verbose [] fuel
            if !ahead then
              modify fun r => { r with lookbehind := outer }
            expectClose start
            readSequence nested verbose first (.look ahead wanted body :: done) fuel
          | .condition group =>
            let yes ← readSequence true verbose false [] fuel
            let no ← if ← eat '|' then readSequence true verbose false [] fuel else pure []
            if (← peek) == some (plain '|') then
              refuse .tooManyBranches 0
            expectClose start
            readSequence nested verbose first (.conditional group yes no :: done) fuel
        else
          readSequence nested verbose first (.char t.char.toNat :: done) fuel

end

/-- A pattern that was read: its nodes, its flags and the widths of its groups. -/
structure Source where
  nodes : List Node
  flags : Flags
  widths : List (Option Width)

def readPattern : Reading Source := do
  advance
  let nodes ← readOptions false false [] (4 * (← get).rest.length + 16)
  let r ← get
  if r.flags.ascii && r.flags.unicode then
    fun _ => .error .mixedFlags
  else if r.next.isSome then
    refuse .unbalanced 0
  else
    match r.conditions.find? fun condition => r.widths.length ≤ condition.1 with
    | some (group, place) => failAt (.invalidReference group) place
    | none => return ⟨nodes, r.flags, r.widths⟩

def read (pattern : String) : Except Refusal Source :=
  let start : Reader :=
    { rest := pattern.toList, index := 0, next := none, flags := {}, names := [],
      widths := [none], lookbehind := none, conditions := [] }
  (readPattern.run start).map (·.1)

end ApiProbe.Pattern
