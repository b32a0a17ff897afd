import ApiProbe.Run.Expand

/-!
Sending a request: the address is resolved, the body expanded and the request intercepted; the
response is pushed as a value.
-/
namespace ApiProbe

def headersDatum (headers : List Http.Header) : Datum :=
  .list (headers.map fun h =>
    .tuple [.string h.name, ((Http.maskValue h.name (some h.value)).map Datum.string).getD .null])

namespace Session

def problemUnlessAlive (s : Session) : Except Failure Unit :=
  match s.lifetime.problem? s.now with
  | some p => .error (.problem p)
  | none => .ok ()

def prepare (s : Session) (r : Http.Request) : Except Failure (Transport × Http.Request) := do
  match s.resources with
  | some ⟨some transport, baseUrl, injector, _⟩ =>
    s.problemUnlessAlive
    let url ← match baseUrl with
      | some base => (Url.resolve base r.url).mapError .fault
      | none => .ok r.url
    let body ← if r.body.isEmpty then .ok r.body else s.expand r.body
    let r := { r with url, body }
    return (transport, (injector.map (·.apply r)).getD r)
  | _ => .error (.problem { kind := .transport, message := "no HTTP transport configured" })

/-- The value of an exchange that is over. A lifetime that has ended meanwhile counts more than the
answer. -/
def receive (s : Session) (r : Http.Request) (answer : Except Failure Http.Response) : Outcome :=
  match s.problemUnlessAlive, answer with
  | .error failure, _ => ⟨s, some failure⟩
  | .ok _, .error failure => ⟨s, some failure⟩
  | .ok _, .ok response =>
    let s := s.log .info "http.response"
      [("method", .string r.method), ("url", .string r.url), ("status", .int response.status)]
    Outcome.of s s.push (response.data >>= Language.encode)

def send (s : Session) (r : Http.Request) : Outcome :=
  match s.prepare r with
  | .error failure => ⟨s, some failure⟩
  | .ok (transport, r) =>
    let s := s.log .debug "http.request"
      [("method", .string r.method), ("url", .string r.url), ("headers", headersDatum r.headers),
        ("body_len", .int r.body.length)]
    let timeout := s.lifetime.remaining s.now
    let exchange := transport s.sent r timeout
    let lifetime := match exchange.cancelled with
      | some reason => s.lifetime.cancel reason
      | none => s.lifetime
    receive { s with sent := s.sent ++ [⟨r, timeout⟩], lifetime } r exchange.answer

end Session

end ApiProbe
