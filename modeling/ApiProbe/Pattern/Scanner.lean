import ApiProbe.Pattern.Error
import ApiProbe.Pattern.Syntax

/-!
Scanning a regular expression: one token ahead, a token being a character or a backslash with the
character after it.
-/
namespace ApiProbe.Pattern

structure Token where
  escaped : Bool
  char : Char
  deriving DecidableEq

def Token.chars (t : Token) : List Char :=
  if t.escaped then ['\\', t.char] else [t.char]

def Token.text (t : Token) : String :=
  String.ofList t.chars

def plain (c : Char) : Token :=
  ⟨false, c⟩

structure Reader where
  rest : List Char
  /-- How many characters stand before `rest`. -/
  index : Nat
  next : Option Token
  flags : Flags
  names : List (String × Nat)
  /-- The widths of the groups, the whole pattern first; an open group has none yet. -/
  widths : List (Option Width)
  /-- The number of groups at the start of the outermost look-behind around. -/
  lookbehind : Option Nat
  /-- Conditions on groups, with the position of the first one for each group. -/
  conditions : List (Nat × Nat)

abbrev Reading := StateT Reader (Except Refusal)

def position (r : Reader) : Nat :=
  r.index - (match r.next with
    | none => 0
    | some t => t.chars.length)

def failAt {α : Type} (cause : Cause) (position : Nat) : Reading α :=
  fun _ => .error (.syntaxAt cause position)

/-- Refuses `offset` characters before the next token. -/
def refuse {α : Type} (cause : Cause) (offset : Nat) : Reading α := do
  failAt cause (position (← get) - offset)

/-- Moves the look-ahead on by one token. -/
def advance : Reading Unit := do
  let r ← get
  match r.rest with
  | [] => set { r with next := none }
  | '\\' :: c :: rest =>
    set { r with rest, index := r.index + 2, next := some ⟨true, c⟩ }
  | ['\\'] => failAt .badEscapeAtEnd r.index
  | c :: rest => set { r with rest, index := r.index + 1, next := some (plain c) }

def peek : Reading (Option Token) := do
  return (← get).next

def take : Reading (Option Token) := do
  let t ← peek
  advance
  return t

def eat (c : Char) : Reading Bool := do
  if (← peek) == some (plain c) then
    advance
    return true
  else
    return false

def nextIs (test : Char → Bool) : Reading Bool := do
  match ← peek with
  | some t => return !t.escaped && test t.char
  | none => return false

/-- At most `count` plain characters of a class. -/
def takeSome (test : Char → Bool) : Nat → Reading (List Char)
  | 0 => return []
  | count + 1 => do
    match ← peek with
    | some ⟨false, c⟩ =>
      if test c then
        advance
        return c :: (← takeSome test count)
      else
        return []
    | _ => return []

/-- The text up to a terminator, which is dropped. -/
def takeUntil (terminator : Char) (what : String) (seen : List Char) : Nat → Reading String
  | 0 => refuse (.missing what) 0
  | fuel + 1 => do
    match ← take with
    | none =>
      if seen.isEmpty then refuse (.missing what) 0
      else refuse (.missing s!"{terminator}, unterminated name") seen.length
    | some t =>
      if t == plain terminator then
        if seen.isEmpty then refuse (.missing what) 1 else return String.ofList seen
      else
        takeUntil terminator what (seen ++ t.chars) fuel

def restLength : Reading Nat := do
  let r ← get
  return r.rest.length + 2

def readName (terminator : Char) (what : String) : Reading String := do
  takeUntil terminator what [] (← restLength)

end ApiProbe.Pattern
