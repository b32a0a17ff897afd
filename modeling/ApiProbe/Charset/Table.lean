/-!
Character sets with one byte a character, as the row of their characters. A replacement character
stands for a byte that encodes none.
-/
namespace ApiProbe.Charset

/-- The lower half of a table that agrees with ASCII. -/
def asciiHalf : String :=
  String.ofList ((List.range 128).map Char.ofNat)

structure Table where
  name : String
  /-- Further names, normalized. -/
  aliases : List String
  low : String := asciiHalf
  high : String

def Table.decode (table : Table) (bytes : List UInt8) : String :=
  let chars := (table.low.toList ++ table.high.toList).toArray
  String.ofList (bytes.map fun b => chars.getD b.toNat '\uFFFD')

end ApiProbe.Charset
