/-!
Ends of lines: a line feed, a carriage return or one behind the other.
-/
namespace ApiProbe.Text

/-- Every kind of line end as a line feed. -/
def unifyLineEnds : List Char → List Char
  | [] => []
  | '\r' :: '\n' :: rest => '\n' :: unifyLineEnds rest
  | c :: rest => (if c == '\r' then '\n' else c) :: unifyLineEnds rest

end ApiProbe.Text
