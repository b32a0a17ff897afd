import ApiProbe.Text.Search

/-!
Paths: the names that lead to a file. A path of no parts is the current directory.
-/
namespace ApiProbe

structure Path where
  parts : List String
  deriving DecidableEq

namespace Path

/-- What an absolute path begins with, if the text is one. -/
def root? : List Char → Option String
  | '/' :: '/' :: '/' :: _ => some "/"
  | '/' :: '/' :: _ => some "//"
  | '/' :: _ => some "/"
  | _ => none

/-- The parts of a text between slashes, save those that lead nowhere. -/
def partsOfText (text : String) : List String :=
  ((Text.splitChars '/' text.toList).map String.ofList).filter fun part =>
    !part.isEmpty && part != "."

def ofText (text : String) : Path :=
  ⟨(root? text.toList).toList ++ partsOfText text⟩

def text (p : Path) : String :=
  match p.parts with
  | [] => "."
  | first :: rest =>
    if first.startsWith "/" then first ++ "/".intercalate rest else "/".intercalate p.parts

def append (p : Path) (parts : List String) : Path :=
  ⟨p.parts ++ parts⟩

/-- The names that lead on from a directory by one part of a path. -/
def step (names : List String) (part : String) : List String :=
  if part != ".." then names ++ [part]
  else
    match names.getLast? with
    | none | some ".." => names ++ [part]
    | some last => if last.startsWith "/" then names else names.dropLast

/-- The names that lead to the end of a path if all directories on the way exist. -/
def names (p : Path) : List String :=
  p.parts.foldl step []

/-- Whether one list of names comes before another one: the first name that differs decides. -/
def partsBefore : List String → List String → Bool
  | [], _ => true
  | _ :: _, [] => false
  | a :: as, b :: bs => if a == b then partsBefore as bs else decide (a < b)

def before (p q : Path) : Bool :=
  partsBefore p.parts q.parts

end Path

end ApiProbe
