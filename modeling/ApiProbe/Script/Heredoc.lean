import ApiProbe.Problem
import ApiProbe.Script.Line

/-!
Heredocs: the lines behind a command up to a terminator, each without the blanks around it.
-/
namespace ApiProbe.Script

def heredocMark : Char := '^'

/-- What was read of the lines: a result, and how many of them it took. -/
structure Taken (α : Type) where
  result : α
  count : Nat

def notUtf8 (error : Utf8.DecodeError) : Failure :=
  .fault (.notUtf8 error)

/-- The lines up to the terminator, or all of them; the terminator is counted as read. -/
def takeUntil (terminator : String) : List Line → Except Failure (Taken (List String))
  | [] => .ok ⟨[], 0⟩
  | .error error :: _ => .error (notUtf8 error)
  | .ok raw :: rest =>
    let line := Text.trim raw
    if line == terminator then .ok ⟨[], 1⟩
    else (takeUntil terminator rest).map fun taken => ⟨line :: taken.result, taken.count + 1⟩

def startsHeredoc (text : String) : Bool :=
  text.toList.head? == some heredocMark

/-- The terminator behind a mark. -/
def terminatorOf (token : String) : Except Failure String :=
  let terminator := Text.trim (String.ofList (token.toList.drop 1))
  if terminator.isEmpty then
    let message := s!"missing heredoc terminator after {String.singleton heredocMark}"
    .error (.problem { kind := .heredoc, message })
  else
    .ok terminator

/-- The argument of a command: the text behind it, or the heredoc that the text announces. -/
def takePayload (remainder : String) (lines : List Line) : Except Failure (Taken String) :=
  if startsHeredoc remainder then do
    let terminator ← terminatorOf remainder
    let taken ← takeUntil terminator lines
    return ⟨"\n".intercalate taken.result, taken.count⟩
  else
    .ok ⟨remainder, 0⟩

end ApiProbe.Script
