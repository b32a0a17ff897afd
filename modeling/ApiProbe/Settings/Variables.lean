import ApiProbe.Dict
import ApiProbe.Text.Blank
import ApiProbe.Text.LineEnd

/-!
Files of variables: lines such as `name = value`, whose values may be quoted and may refer to other
variables. A line that is not of this form is skipped.

This is the format of the `dotenv` library that settings are loaded with. The library is not part of the
program, and this reader follows what it does; nothing that is proved about settings rests on it, as they are
made of variables wherever these come from.
-/
namespace ApiProbe

/-- Variables by name. One that is named without a value has none. -/
abbrev Variables := Dict (Option String)

namespace Variables

/-- Blanks inside a line. -/
def isGap (c : Char) : Bool :=
  Text.isBlank c && c != '\n'

def dropGap (cs : List Char) : List Char :=
  cs.dropWhile isGap

def dropLine (cs : List Char) : List Char :=
  (cs.dropWhile (· != '\n')).drop 1

/-- What is behind the word that may stand in front of a name. -/
def dropExport (cs : List Char) : List Char :=
  let word := "export".toList
  let rest := cs.drop word.length
  if word.isPrefixOf cs && rest.head?.any isGap then dropGap rest else cs

def isNameChar (c : Char) : Bool :=
  c != '=' && c != '#' && !Text.isBlank c

/-- What was read at the head of a text and what is behind it, or else where reading failed. -/
abbrev Reading (α : Type) := Except (List Char) (α × List Char)

def readName (cs : List Char) : Reading (List Char) :=
  let (name, rest) :=
    match cs with
    | '\'' :: cs =>
      match cs.span (· != '\'') with
      | (name, _ :: rest) => (name, rest)
      | (_, []) => ([], [])
    | cs => cs.span isNameChar
  if name.isEmpty then .error cs else .ok (name, rest)

/-- The text up to a closing quote, and what is behind it. A quote behind a backslash closes the text
only if no later quote does. -/
def closeQuote? (quote : Char) : List Char → Option (List Char × List Char)
  | [] => none
  | '\\' :: c :: rest =>
    if c == quote then
      match closeQuote? quote rest with
      | some (text, rest) => some ('\\' :: c :: text, rest)
      | none => some (['\\'], rest)
    else (closeQuote? quote (c :: rest)).map fun (text, rest) => ('\\' :: text, rest)
  | c :: rest =>
    if c == quote then some ([], rest)
    else (closeQuote? quote rest).map fun (text, rest) => (c :: text, rest)

def escaped? (quote c : Char) : Option Char :=
  if c == '\\' || c == '\'' then some c
  else if quote == '\'' then none
  else
    match c with
    | '"' => some '"'
    | 'a' => some '\x07'
    | 'b' => some '\x08'
    | 'f' => some '\x0c'
    | 'n' => some '\n'
    | 'r' => some '\r'
    | 't' => some '\t'
    | 'v' => some '\x0b'
    | _ => none

/-- A quoted text with its escapes resolved; a backslash in front of another character stays. -/
def unescape (quote : Char) : List Char → List Char
  | '\\' :: c :: rest =>
    match escaped? quote c with
    | some d => d :: unescape quote rest
    | none => '\\' :: unescape quote (c :: rest)
  | c :: rest => c :: unescape quote rest
  | [] => []

/-- A text without its comment, which is a `#` behind a blank and all that follows. -/
def dropComment : List Char → List Char
  | [] => []
  | c :: rest =>
    if Text.isBlank c && (rest.dropWhile Text.isBlank).head? == some '#' then []
    else c :: dropComment rest

/-- The text between quotes of one kind, with its escapes resolved. -/
def readQuoted (quote : Char) (cs : List Char) : Reading (List Char) :=
  match closeQuote? quote (cs.drop 1) with
  | some (text, rest) => .ok (unescape quote text, rest)
  | none => .error cs

def readValue (cs : List Char) : Reading (List Char) :=
  match cs.head? with
  | some '\'' => readQuoted '\'' cs
  | some '"' => readQuoted '"' cs
  | _ =>
    let (text, rest) := cs.span (· != '\n')
    .ok (Text.trimEndChars (dropComment text), rest)

def readEnd (cs : List Char) : Reading Unit :=
  let rest := dropGap cs
  match if rest.head? == some '#' then rest.dropWhile (· != '\n') else rest with
  | [] => .ok ((), [])
  | c :: rest => if c == '\n' then .ok ((), rest) else .error cs

/-- A name and perhaps a value, up to the end of the line. -/
def readBinding (cs : List Char) :
    Except (List Char) ((String × Option String) × List Char) := do
  let (name, rest) ← readName cs
  match dropGap rest with
  | '=' :: rest =>
    let (value, rest) ← readValue (dropGap rest)
    let (_, rest) ← readEnd rest
    return ((String.ofList name, some (String.ofList value)), rest)
  | rest =>
    let (_, rest) ← readEnd rest
    return ((String.ofList name, none), rest)

def readLine (cs : List Char) : Reading (Option (String × Option String)) :=
  let cs := dropExport cs
  if cs.head? == some '#' then (readEnd cs).map fun (_, rest) => (none, rest)
  else (readBinding cs).map fun (binding, rest) => (some binding, rest)

/-- The lines of a text. Every line takes a character at least, so `fuel` may be the length. -/
def readLines (fuel : Nat) (cs : List Char) : List (String × Option String) :=
  match fuel, cs.dropWhile Text.isBlank with
  | 0, _ | _, [] => []
  | fuel + 1, cs =>
    match readLine cs with
    | .ok (binding, rest) => binding.toList ++ readLines fuel rest
    | .error rest => readLines fuel (dropLine rest)

/-- The name and the value to take where there is none, of a reference at the head. -/
def readReference? : List Char → Option ((List Char × List Char) × List Char)
  | '$' :: '\x7b' :: cs =>
    match cs.span fun c => c != ':' && c != '\x7d' with
    | (name, '\x7d' :: rest) => some ((name, []), rest)
    | (name, ':' :: '-' :: cs) =>
      match cs.span (· != '\x7d') with
      | (standIn, _ :: rest) => some ((name, standIn), rest)
      | (_, []) => none
    | _ => none
  | _ => none

/-- A text with the references in it resolved. -/
def resolveChars (fuel : Nat) (lookup : String → Option String) (cs : List Char) : List Char :=
  match fuel, cs with
  | 0, _ | _, [] => []
  | fuel + 1, c :: rest =>
    match readReference? (c :: rest) with
    | some ((name, standIn), rest) =>
      ((lookup (String.ofList name)).map String.toList).getD standIn ++ resolveChars fuel lookup rest
    | none => c :: resolveChars fuel lookup rest

/-- The value of a text whose references are to variables. A variable without a value is empty. -/
def resolve (vars : Variables) (text : String) : String :=
  let lookup (name : String) := (Dict.get? name vars).map (·.getD "")
  String.ofList (resolveChars text.length lookup text.toList)

/-- The variables that a file sets where others are set around it. A reference is to a variable set
above it in the file, or else to one around it. -/
def ofText (around : Variables) (text : String) : Variables :=
  let cs := Text.unifyLineEnds text.toList
  (readLines cs.length cs).foldl (fun vars (name, value) =>
    Dict.set name (value.map (resolve (Dict.merge around vars))) vars) []

end Variables

end ApiProbe
