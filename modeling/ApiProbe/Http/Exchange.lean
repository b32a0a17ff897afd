import ApiProbe.Http.Request
import ApiProbe.Http.Response

/-!
One exchange over a client library: what is handed to it for a request, and the response made from
what it hands back.
-/
namespace ApiProbe.Http

/-- The headers that each request of a client gets, and how long it waits for a response. -/
structure Client where
  baseHeaders : List Header := []
  timeout : Option Binary64

structure Call where
  method : String
  url : String
  headers : List Header
  content : Option (List UInt8)
  timeout : Option Binary64

/-- The shorter of the client's time limit and the time that is left. -/
def Client.timeLimit (client : Client) (remaining : Option Binary64) : Option Binary64 :=
  match remaining, client.timeout with
  | none, limit => limit
  | some left, none => some left
  | some left, some limit => some (if left.compare? limit == some .lt then left else limit)

def Client.call (client : Client) (r : Request) (remaining : Option Binary64) : Call :=
  { method := Text.upper r.method
    url := r.url
    headers := r.headers.foldl (fun done h => putExact h done) client.baseHeaders
    content := if r.body.isEmpty then none else some (Utf8.encode r.body)
    timeout := client.timeLimit remaining }

/-- The problem that a failed exchange is reported as. -/
def Request.transportProblem (r : Request) (cause : String) : Problem :=
  { kind := .transport, message := s!"{r.method} {r.url}: {cause}" }

def addField (h : Header) : List (String × List String) → List (String × List String)
  | [] => [(h.name, [h.value])]
  | (name, values) :: fields =>
    if sameName name h.name then (name, values ++ [h.value]) :: fields
    else (name, values) :: addField h fields

/-- Header fields with the values of each name together, whatever the case of its letters. The first
spelling stays. -/
def gatherFields (headers : List Header) : List (String × List String) :=
  headers.foldl (fun fields h => addField h fields) []

/-- Header fields in which a name occurs once, at its first place, with its last spelling and value. -/
def foldFields (headers : List Header) : List Header :=
  headers.foldl (fun done h =>
    if done.any fun other => sameName other.name h.name then
      done.map fun other => if sameName other.name h.name then h else other
    else
      done ++ [h]) []

def isQuote (c : Char) : Bool :=
  c == '"' || c == '\''

def trimQuotes (cs : List Char) : List Char :=
  ((cs.dropWhile isQuote).reverse.dropWhile isQuote).reverse

def charsetOf? (parameter : List Char) : Option String :=
  let (key, rest) := (Text.trimChars parameter).span (· != '=')
  let value := Text.trimChars (rest.drop 1)
  if Text.lower (Text.trim (String.ofList key)) == "charset" && !value.isEmpty then
    some (String.ofList (trimQuotes value))
  else
    none

def declaredCharset (contentType : String) : Option String :=
  ((Text.splitChars ';' contentType.toList).drop 1).findSome? charsetOf?

/-- What a client hands back. The raw fields, where there are any, keep repeated headers apart. -/
structure Reply where
  status : Int
  reason : Option String
  url : String
  content : List UInt8
  fields : List Header
  rawFields : Option (List Header)

def Reply.response (reply : Reply) : Response :=
  let fields := foldFields reply.fields
  { status := reply.status
    reason := reply.reason.getD ""
    url := reply.url
    headers := match reply.rawFields with
      | some raw => gatherFields raw
      | none => fields.map fun h => (h.name, [h.value])
    content := reply.content
    encoding := declaredCharset ((header? "Content-Type" fields).getD "") }

end ApiProbe.Http
