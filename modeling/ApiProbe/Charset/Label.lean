import ApiProbe.Charset.Dos
import ApiProbe.Charset.Ebcdic
import ApiProbe.Charset.Iso
import ApiProbe.Charset.Macintosh
import ApiProbe.Charset.Punycode
import ApiProbe.Charset.Regional
import ApiProbe.Charset.Wide
import ApiProbe.Charset.Windows
import ApiProbe.Fault
import ApiProbe.Text.Digit
import ApiProbe.Text.Utf8

/-!
The character sets that labels of documents name. Labels are compared by their letters, digits and
points alone.

Left out are the sets with several bytes for a character other than those of Unicode (Shift JIS, EUC-JP,
EUC-KR, Big5, GBK, GB 18030, HZ, Johab, the family of ISO 2022 and the code pages 932, 949 and 950), UTF-7 and
the sets that read escapes. Their labels count as unknown, and what is labelled so is read as UTF-8.
-/
namespace ApiProbe

inductive Charset where
  | utf8
  /-- UTF-8 with an optional mark in front that is no part of the text. -/
  | utf8Marked
  | ascii
  | latin1
  | utf16 (order : Option Charset.ByteOrder)
  | utf32 (order : Option Charset.ByteOrder)
  | punycode
  /-- The names of hosts, which are not decoded leniently. -/
  | hostNames
  /-- A character set in which nothing is decoded. -/
  | undefined
  | table (table : Charset.Table)

namespace Charset

def isLabelChar (c : Char) : Bool :=
  Text.isAsciiLetter c || Text.isAsciiDigit c || c == '.'

/-- The letters, digits and points of a label in lower case, with one underscore for all that stands
between two of them. `gap` says whether such a place was just passed. -/
def normalizeFrom (gap first : Bool) : List Char → List Char
  | [] => []
  | c :: rest =>
    if isLabelChar c then
      (if gap && !first then ['_', c.toLower] else [c.toLower]) ++ normalizeFrom false false rest
    else
      normalizeFrom true first rest

def normalize (label : String) : String :=
  String.ofList (normalizeFrom false true label.toList)

/-- The character sets that are no tables, each with its name and further names. -/
def standard : List (Charset × String × List String) :=
  [(.utf8, "utf_8", ["cp65001", "u8", "utf", "utf8", "utf8_ucs2", "utf8_ucs4"]),
    (.utf8Marked, "utf_8_sig", []),
    (.ascii, "ascii",
      ["646", "ansi_x3.4_1968", "ansi_x3.4_1986", "ansi_x3_4_1968", "cp367", "csascii", "ibm367",
        "iso646_us", "iso_646.irv_1991", "iso_ir_6", "us", "us_ascii"]),
    (.latin1, "latin_1",
      ["8859", "cp819", "csisolatin1", "ibm819", "iso8859", "iso8859_1", "iso_8859_1",
        "iso_8859_1_1987", "iso_ir_100", "l1", "latin", "latin1"]),
    (.latin1, "charmap", []),
    (.utf16 none, "utf_16", ["u16", "utf16"]),
    (.utf16 (some .big), "utf_16_be", ["unicodebigunmarked", "utf_16be"]),
    (.utf16 (some .little), "utf_16_le", ["unicodelittleunmarked", "utf_16le"]),
    (.utf32 none, "utf_32", ["u32", "utf32"]),
    (.utf32 (some .big), "utf_32_be", ["utf_32be"]),
    (.utf32 (some .little), "utf_32_le", ["utf_32le"]),
    (.punycode, "punycode", []),
    (.hostNames, "idna", []),
    (.undefined, "undefined", [])]

def tables : List Table :=
  windowsTables ++ isoTables ++ dosTables ++ ebcdicTables ++ macintoshTables ++ regionalTables

def all : List (Charset × String × List String) :=
  standard ++ tables.map fun t => (.table t, t.name, t.aliases)

def withAlias? (name : String) : Option Charset :=
  all.findSome? fun (charset, _, aliases) => if aliases.contains name then some charset else none

def withName? (name : String) : Option Charset :=
  all.findSome? fun (charset, own, _) => if own == name then some charset else none

def pointsToUnderscores (name : String) : String :=
  String.ofList (name.toList.map fun c => if c == '.' then '_' else c)

def ofLabel? (label : String) : Option Charset :=
  let name := normalize label
  ((withAlias? name).or (withAlias? (pointsToUnderscores name))).or (withName? name)

def decode (bytes : List UInt8) : Charset → String
  | .utf8 => Utf8.decodeLenient bytes
  | .utf8Marked =>
    match bytes with
    | 0xEF :: 0xBB :: 0xBF :: rest => Utf8.decodeLenient rest
    | bytes => Utf8.decodeLenient bytes
  | .ascii => String.ofList (bytes.map fun b => if b < 128 then Char.ofNat b.toNat else replacement)
  | .latin1 => String.ofList (bytes.map fun b => Char.ofNat b.toNat)
  | .utf16 none => decodeUtf16 bytes
  | .utf16 (some order) => String.ofList (utf16Chars order bytes)
  | .utf32 none => decodeUtf32 bytes
  | .utf32 (some order) => String.ofList (utf32Chars order bytes)
  | .punycode => Punycode.decode bytes
  | .hostNames | .undefined => ""
  | .table t => t.decode bytes

/-- Why bytes cannot be decoded, lenient as decoding is. The message shows the label as it is spelled. -/
def fault? (label : String) (bytes : List UInt8) : Charset → Option Fault
  | .punycode => (Punycode.refused? bytes).map fun (byte, position) => .notAscii byte position
  | .hostNames => refused "Unsupported error handling replace"
  | .undefined => refused "undefined encoding"
  | _ => none
where
  refused (reason : String) : Option Fault :=
    if bytes.isEmpty then none
    else some (.undecodable s!"decoding with '{label}' codec failed (UnicodeError: {reason})")

end Charset

end ApiProbe
