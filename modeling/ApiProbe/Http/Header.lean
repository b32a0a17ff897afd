import ApiProbe.Problem
import ApiProbe.Text.Blank
import ApiProbe.Text.LetterCase
import ApiProbe.Text.Literal

/-!
Header lists: names and values in order. Names are the same whatever the case of their letters.
-/
namespace ApiProbe.Http

structure Header where
  name : String
  value : String
  deriving DecidableEq

def sameName (a b : String) : Bool :=
  Text.lower a == Text.lower b

def header? (name : String) : List Header → Option String
  | [] => none
  | h :: headers => if sameName h.name name then some h.value else header? name headers

/-- Sets a header: any of that name are removed, and the new one stands last. -/
def setHeader (name value : String) (headers : List Header) : List Header :=
  headers.filter (fun h => !sameName h.name name) ++ [⟨name, value⟩]

def splitColon? (text : String) : Option (String × String) :=
  match text.toList.span (· != ':') with
  | (_, []) => none
  | (front, _ :: back) => some (String.ofList front, String.ofList back)

def Header.ofLine? (line : String) : Option Header :=
  match splitColon? line with
  | none => none
  | some (front, back) =>
    let name := Text.trim front
    if name.isEmpty then none else some ⟨name, Text.trim back⟩

/-- Sets a header of exactly this spelling in its place, or adds it at the end. -/
def putExact (header : Header) : List Header → List Header
  | [] => [header]
  | h :: headers =>
    if h.name == header.name then header :: headers else h :: putExact header headers

/-- The headers of a list in which a spelling occurs once, at its first place with its last value. -/
def ofPairs (headers : List Header) : List Header :=
  headers.foldl (fun done h => putExact h done) []

/-- The headers that a row of texts `Name: value` gives. -/
def headersOfTexts (texts : List String) : Except Failure (List Header) :=
  texts.foldlM (fun done text =>
    match Header.ofLine? text with
    | some header => .ok (putExact header done)
    | none =>
      .error (.fault (.invalid s!"invalid header {Text.literal text}, expected 'Name: value'"))) []

def sensitiveNames : List String :=
  ["authorization", "proxy-authorization", "cookie", "set-cookie", "x-api-key"]

def isSensitive (name : String) : Bool :=
  sensitiveNames.contains (Text.lower name)

def maskText : String := "********"

/-- A value as it is shown under its name; where there is none, nothing is hidden. -/
def maskValue (name : String) (value : Option String) : Option String :=
  if isSensitive name then value.map fun _ => maskText else value

end ApiProbe.Http
