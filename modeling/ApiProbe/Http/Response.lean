import ApiProbe.Charset.Label
import ApiProbe.Http.Header
import ApiProbe.Json.Reader
import ApiProbe.Text.Search

/-!
Responses and the data that they give to expressions: status, headers and body. A body of JSON is read
as such; any other body is its text.
-/
namespace ApiProbe.Http

structure Response where
  status : Int
  reason : String := ""
  url : String := ""
  headers : List (String × List String) := []
  content : List UInt8 := []
  encoding : Option String := none

namespace Response

def statusLine (r : Response) : String :=
  Text.trim s!"{r.status} {r.reason}"

/-- The first value of the first header of a name that has a value. -/
def header (r : Response) (name : String) : String :=
  (r.headers.findSome? fun (own, values) =>
    if sameName own name then values.head? else none).getD ""

def label (r : Response) : String :=
  r.encoding.getD ""

/-- The declared character set; UTF-8 where none is declared or known. -/
def charset (r : Response) : Charset :=
  (if r.label.isEmpty then none else Charset.ofLabel? r.label).getD .utf8

def text (r : Response) : String :=
  r.charset.decode r.content

/-- Why the content has no text: its label cannot name a character set, or what it names does not
decode it. -/
def textFault? (r : Response) : Option Fault :=
  if r.label.toList.contains '\x00' then some (.invalid "embedded null character")
  else r.charset.fault? r.label r.content

def readText (r : Response) : Except Fault String :=
  match r.textFault? with
  | some fault => .error fault
  | none => .ok r.text

def isBlankByte (b : UInt8) : Bool :=
  b == 32 || (9 ≤ b && b ≤ 13)

def isJson (r : Response) : Bool :=
  Text.occursIn "json".toList (Text.lower (r.header "content-type")).toList

def refuseBody (message : String) : Except Failure Datum :=
  .error (.problem { kind := .responseDecode, message := s!"failed to parse as JSON: {message}" })

def body (r : Response) : Except Failure Datum :=
  if !r.isJson then
    match r.readText with
    | .error fault => .error (.fault fault)
    | .ok text => .ok (.string text)
  else if r.content.all isBlankByte then .ok .null
  else
    match r.readText with
    | .error fault => refuseBody fault.message
    | .ok text =>
      match Json.read text with
      | .ok d => .ok d
      | .error message => refuseBody message

/-- The response as data. There is no line for a status with too many digits to be written. -/
def data (r : Response) : Except Failure Datum := do
  let body ← r.body
  if !Numeral.fits r.status then
    .error (.fault .unprintable)
  let headers := r.headers.map fun (name, values) =>
    (Datum.string name, Datum.list (values.map .string))
  return .dict
    [(.string "status", .dict [(.string "code", .int r.status), (.string "line", .string r.statusLine)]),
      (.string "headers", .dict headers), (.string "body", body)]

end Response

end ApiProbe.Http
