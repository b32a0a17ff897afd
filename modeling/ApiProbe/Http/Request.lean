import ApiProbe.Http.Header
import ApiProbe.Script.Heredoc
import ApiProbe.Text.Letter

/-!
Requests, and how a script writes them: a method and an address on the line of the command, and a
heredoc of header lines, an empty line and the lines of the body.
-/
namespace ApiProbe.Http

structure Request where
  method : String
  url : String
  headers : List Header := []
  body : String := ""
  deriving DecidableEq

namespace Request

def header? (r : Request) (name : String) : Option String :=
  Http.header? name r.headers

def withHeader (r : Request) (name value : String) : Request :=
  { r with headers := setHeader name value r.headers }

end Request

/-- Headers that are set on every request; unless they override, those of the request stay. -/
structure Injector where
  headers : List Header
  override : Bool := false

def Injector.apply (injector : Injector) (r : Request) : Request :=
  injector.headers.foldl (fun r h =>
    if injector.override || (r.header? h.name).isNone then r.withHeader h.name h.value else r) r

/-- What changes requests on their way out; a request that it makes nothing of is sent as it is. -/
abbrev Interceptor := Request → Option Request

def Interceptor.apply (interceptor : Interceptor) (r : Request) : Request :=
  (interceptor r).getD r

def Injector.interceptor (injector : Injector) : Interceptor :=
  fun r => some (injector.apply r)

instance : Coe (Option Injector) (Option Interceptor) :=
  ⟨Option.map Injector.interceptor⟩

def requestForm : String := "expected [^<END>] <VERB> <URL>"

def refuseRequest {α : Type} (message : String) : Except Failure α :=
  .error (.problem { kind := .httpSyntax, message })

/-- The words in front of a request: perhaps a terminator, then the method and the address. -/
def requestWords (remainder : String) : Except Failure (Option String × String × String) :=
  match Text.words remainder with
  | [token, method, url] =>
    if Script.startsHeredoc token then
      (Script.terminatorOf token).map fun terminator => (some terminator, method, url)
    else refuseRequest requestForm
  | [method, url] =>
    if Script.startsHeredoc method then refuseRequest requestForm else .ok (none, method, url)
  | _ => refuseRequest requestForm

/-- The headers of the lines up to the first empty one, each set in turn, and the lines behind it. -/
def readHeaders (headers : List Header) : List String → Except Failure (List Header × List String)
  | [] => .ok (headers, [])
  | line :: lines =>
    if line.isEmpty then .ok (headers, lines)
    else
      match Header.ofLine? line with
      | some h => readHeaders (setHeader h.name h.value headers) lines
      | none =>
        refuseRequest s!"malformed header line {Text.literal line}, expected Name: value"

/-- The request that a line and the lines behind it write. -/
def readRequest (remainder : String) (lines : List Script.Line) :
    Except Failure (Script.Taken Request) := do
  let (terminator, method, url) ← requestWords remainder
  if !method.toList.all Text.isLetter then
    refuseRequest s!"invalid HTTP method {Text.literal method}, {requestForm}"
  let method := Text.upper method
  match terminator with
  | none => return ⟨{ method, url }, 0⟩
  | some terminator =>
    let taken ← Script.takeUntil terminator lines
    let (headers, bodyLines) ← readHeaders [] taken.result
    return ⟨{ method, url, headers, body := "\n".intercalate bodyLines }, taken.count⟩

end ApiProbe.Http
