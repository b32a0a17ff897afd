import ApiProbe.Text.LineEnd
import ApiProbe.Text.Utf8

/-!
The lines of a script. A line keeps its line feed. A line of bytes is decoded only when it is read, so
a line that is not UTF-8 does no harm to those in front of it.
-/
namespace ApiProbe.Script

abbrev Line := Except Utf8.DecodeError String

/-- The lines of a text, each with the line feed that ends it; `line` holds the characters of the
current one in reverse. -/
def splitLinesFrom (line : List Char) : List Char → List String
  | [] => if line.isEmpty then [] else [String.ofList line.reverse]
  | c :: rest =>
    if c == '\n' then String.ofList ('\n' :: line).reverse :: splitLinesFrom [] rest
    else splitLinesFrom (c :: line) rest

def splitLines (text : String) : List String :=
  splitLinesFrom [] text.toList

def linesOfText (text : String) : List Line :=
  (splitLines text).map .ok

def linesOfBytes (bytes : List UInt8) : Except Utf8.DecodeError (List Line) :=
  (Utf8.decode bytes).map linesOfText

/-- How many bytes of a file are read at a time. -/
def chunkSize : Nat := 8192

/-- The characters of a file up to the first chunk that is not UTF-8, and what is wrong there, at a
position in that chunk. `pending` are the bytes of a character that the chunk before left unfinished. -/
def decodeChunks (pending bytes : List UInt8) : List Char × Option Utf8.DecodeError :=
  match bytes with
  | [] => Utf8.decodeFrom 0 pending
  | b :: rest =>
    let chunk := pending ++ b :: rest.take (chunkSize - 1)
    let later := rest.drop (chunkSize - 1)
    match Utf8.decodeFrom 0 chunk with
    | (cs, none) =>
      let (more, error) := decodeChunks [] later
      (cs ++ more, error)
    | (cs, some error) =>
      if error.reason = .unexpectedEnd then
        let (more, error) := decodeChunks (chunk.drop error.start) later
        (cs ++ more, error)
      else
        ([], some error)
  termination_by bytes.length
  decreasing_by
    all_goals
      simp only [List.length_cons, List.length_drop]
      omega

/-- The lines that are complete: all but one without a line feed at its end. -/
def completeLines (lines : List String) : List String :=
  lines.filter fun line => line.toList.getLast? == some '\n'

/-- A carriage return at the end may be half of a line end. -/
def dropHalfLineEnd (cs : List Char) : List Char :=
  if cs.getLast? == some '\r' then cs.dropLast else cs

/-- The lines of a file. They are read one by one up to a fault. -/
def linesOfFile (bytes : List UInt8) : List Line :=
  match decodeChunks [] bytes with
  | (cs, none) => linesOfText (String.ofList (Text.unifyLineEnds cs))
  | (cs, some error) =>
    let read := String.ofList (Text.unifyLineEnds (dropHalfLineEnd cs))
    (completeLines (splitLines read)).map .ok ++ [.error error]

end ApiProbe.Script
