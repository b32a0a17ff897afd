import ApiProbe.Run.Session

/-!
Expanding a text: each `\(expression)` gives way to the text of its value, and two backslashes to one.
Any other escape stays as it is, and so does a placeholder that is not closed, with all behind it.

The text is scanned once, from left to right. What stays as it is, is copied in runs, each when something
behind it gives way or the text ends; a text without a backslash is not scanned at all.
-/
namespace ApiProbe

namespace Expand

/-- What the next character is part of. -/
inductive Scanner.Mode where
  | literal
  | sawEscape
  | inExpr

structure Scanner where
  mode : Scanner.Mode := .literal
  out : List Char := []
  /-- The start of the literal run that is not copied yet. -/
  part : Nat := 0
  exprStart : Nat := 0
  /-- How many parentheses are open inside the expression. -/
  depth : Nat := 0

section Scanner

variable (eval : Nat → String → Except Failure String) (text : List Char)

/-- The scanner behind the character at a position; `eval` gives the text of an expression that starts at
a position. -/
def Scanner.step (s : Scanner) (position : Nat) (c : Char) : Except Failure Scanner :=
  match s.mode with
  | .inExpr =>
    if c = '(' then .ok { s with depth := s.depth + 1 }
    else if c = ')' then
      if 0 < s.depth then .ok { s with depth := s.depth - 1 }
      else do
        let value ← eval s.exprStart (String.ofList (text.extract s.exprStart position))
        return { s with out := s.out ++ value.toList, part := position + 1, mode := .literal }
    else .ok s
  | .sawEscape =>
    if c = '\\' then
      .ok { s with
        out := s.out ++ text.extract s.part position, part := position + 1, mode := .literal }
    else if c = '(' then
      -- If this placeholder is not closed, it is part of the run that the text ends with.
      .ok { s with
        out := s.out ++ text.extract s.part (position - 1), part := position - 1
        exprStart := position + 1, depth := 0, mode := .inExpr }
    else if c = ')' then .error (.problem (.escape position ")"))
    else .ok { s with mode := .literal }
  | .literal => .ok (if c = '\\' then { s with mode := .sawEscape } else s)

/-- The scanner behind the characters from a position on. -/
def Scanner.scan (s : Scanner) (position : Nat) (cs : List Char) : Except Failure Scanner :=
  (cs.zipIdx position).foldlM (fun s (c, position) => s.step eval text position c) s

def Scanner.finish (s : Scanner) : List Char :=
  s.out ++ text.drop s.part

def expansion : Except Failure (List Char) :=
  if text.contains '\\' then ({ : Scanner }.scan eval text 0 text).map (·.finish text) else .ok text

end Scanner

end Expand

def Session.evalText (s : Session) (position : Nat) (text : String) : Except Failure String :=
  match s.compile text with
  | .ok v => Language.display v
  | .error (.problem p) => .error (.problem (.expand text position p))
  | .error failure => .error failure

def Session.expand (s : Session) (text : String) : Except Failure String :=
  (Expand.expansion s.evalText text.toList).map String.ofList

end ApiProbe
