import ApiProbe.Text.Printable
import ApiProbe.Text.Quoted

/-!
Literal texts, as messages show a text: between single quotes, or between double quotes if it has a
single quote and no double one, with what is not printable escaped by its code.
-/
namespace ApiProbe.Text

/-- The quote a literal stands between. -/
def literalQuote (cs : List Char) : Char :=
  if cs.contains '\'' && !cs.contains '"' then '"' else '\''

def literalEscape (quote c : Char) : List Char :=
  if c == quote || c == '\\' then ['\\', c]
  else if c == '\n' then ['\\', 'n']
  else if c == '\r' then ['\\', 'r']
  else if c == '\t' then ['\\', 't']
  else if isPrintable c then [c]
  else if c.toNat < 0x100 then ['\\', 'x'] ++ hex 2 c.toNat
  else if c.toNat < 0x10000 then ['\\', 'u'] ++ hex 4 c.toNat
  else ['\\', 'U'] ++ hex 8 c.toNat

def literal (s : String) : String :=
  let cs := s.toList
  let quote := literalQuote cs
  String.ofList (quote :: cs.flatMap (literalEscape quote) ++ [quote])

end ApiProbe.Text
