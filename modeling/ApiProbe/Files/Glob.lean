/-!
Patterns of names: `*` is any text, `?` any character, and brackets hold the characters to choose from.
-/
namespace ApiProbe

inductive Glob where
  | any
  | one
  | char (c : Char)
  /-- A character inside one of the ranges, or outside all of them. -/
  | choice (negated : Bool) (ranges : List (Char × Char))

namespace Glob

/-- The ranges between brackets. A hyphen at either end stands for itself. -/
def readRanges : List Char → List (Char × Char)
  | low :: '-' :: high :: cs => (low, high) :: readRanges cs
  | c :: cs => (c, c) :: readRanges cs
  | [] => []

/-- A choice at the head, behind its opening bracket: a closing bracket right at the front stands for
itself. There is no choice without a closing bracket. -/
def readChoice? (cs : List Char) : Option (Glob × List Char) :=
  let negated := cs.head? == some '!'
  let cs := if negated then cs.drop 1 else cs
  match cs with
  | [] => none
  | first :: rest =>
    match rest.span (· != ']') with
    | (inside, _ :: rest) => some (choice negated (readRanges (first :: inside)), rest)
    | (_, []) => none

/-- The pattern that a text writes; `fuel` is its length. -/
def read (fuel : Nat) (cs : List Char) : List Glob :=
  match fuel, cs with
  | 0, _ | _, [] => []
  | fuel + 1, '*' :: cs => any :: read fuel cs
  | fuel + 1, '?' :: cs => one :: read fuel cs
  | fuel + 1, '[' :: cs =>
    match readChoice? cs with
    | some (g, rest) => g :: read fuel rest
    | none => char '[' :: read fuel cs
  | fuel + 1, c :: cs => char c :: read fuel cs

def ofText (text : String) : List Glob :=
  read text.length text.toList

def accepts (c : Char) : Glob → Bool
  | any | one => true
  | char d => c == d
  | choice negated ranges => (ranges.any fun (low, high) => low ≤ c && c ≤ high) != negated

/-- Whether a pattern accepts a whole text. -/
def acceptsAll : List Glob → List Char → Bool
  | [], cs => cs.isEmpty
  | any :: globs, cs => (List.range (cs.length + 1)).any fun k => acceptsAll globs (cs.drop k)
  | g :: globs, c :: cs => g.accepts c && acceptsAll globs cs
  | _ :: _, [] => false

end Glob

inductive PathGlob where
  /-- Any number of directories. -/
  | anyDepth
  | name (globs : List Glob)

namespace PathGlob

/-- Whether a pattern of paths leads to a file. Any number of directories alone leads to none. -/
def accepts : List PathGlob → List String → Bool
  | [], parts => parts.isEmpty
  | [anyDepth], _ => false
  | anyDepth :: globs, parts =>
    (List.range (parts.length + 1)).any fun k => accepts globs (parts.drop k)
  | name g :: globs, part :: parts => Glob.acceptsAll g part.toList && accepts globs parts
  | name _ :: _, [] => false

end PathGlob

end ApiProbe
