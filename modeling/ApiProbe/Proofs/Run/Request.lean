import ApiProbe.Proofs.Result
import ApiProbe.Run.Request

/-!
# Requests, step by step

A request is prepared, logged, sent and answered. Each step changes one part of the session.
-/

namespace ApiProbe.Session

def logRequest (s : Session) (request : Http.Request) : Session :=
  s.log .debug "http.request"
    [("method", .string request.method), ("url", .string request.url),
      ("headers", headersDatum request.headers), ("body_len", .int request.body.length)]

/-- The session once a request is sent, which may have ended its lifetime. -/
def sentOut (s : Session) (request : Http.Request) (exchange : Exchange) : Session :=
  { s with
    sent := s.sent ++ [⟨request, s.lifetime.remaining s.now⟩]
    lifetime := match exchange.cancelled with
      | some reason => s.lifetime.cancel reason
      | none => s.lifetime }

/-- Sends a request that is prepared and takes in the answer. -/
def exchange (s : Session) (transport : Transport) (request : Http.Request) : Outcome :=
  let exchange := transport s.sent request (s.lifetime.remaining s.now)
  (s.sentOut request exchange).receive request exchange.answer

theorem send_eq (s : Session) (request : Http.Request) :
    s.send request = match s.prepare request with
      | .error failure => ⟨s, some failure⟩
      | .ok (transport, prepared) => (s.logRequest prepared).exchange transport prepared := rfl

/-- The address of a request, resolved, and its body, expanded. -/
def filled (s : Session) (baseUrl : Option String) (url body : String) :
    Except Failure (String × String) := do
  let url ← (baseUrl.map fun base => (Url.resolve base url).mapError .fault).getD (.ok url)
  let body ← if body.isEmpty then .ok body else s.expand body
  return (url, body)

theorem prepare_eq (s : Session) (request : Http.Request) :
    s.prepare request = match s.resources with
      | some ⟨some transport, baseUrl, injector, _⟩ => do
        s.problemUnlessAlive
        let (url, body) ← s.filled baseUrl request.url request.body
        let filled := { request with url, body }
        return (transport, (injector.map (·.apply filled)).getD filled)
      | _ => .error (.problem { kind := .transport, message := "no HTTP transport configured" }) := by
  unfold prepare
  generalize s.resources = resources
  rcases resources with _ | ⟨_ | transport, baseUrl, injector, bound⟩
  · rfl
  · rfl
  · dsimp only
    cases s.problemUnlessAlive with
    | error failure => rfl
    | ok _ =>
        unfold filled
        by_cases hbody : request.body.isEmpty = true
        · simp only [if_pos hbody]
          cases baseUrl with
          | none => rfl
          | some base =>
              cases haddress : (Url.resolve base request.url).mapError Failure.fault <;>
                simp [haddress]
        · simp only [if_neg hbody]
          cases baseUrl with
          | none => cases s.expand request.body <;> rfl
          | some base =>
              cases haddress : (Url.resolve base request.url).mapError Failure.fault <;>
                cases s.expand request.body <;> simp [haddress]

/-- The transport that a request is prepared for is the one of the resources. -/
theorem exists_resources_of_prepare {s : Session} {request prepared : Http.Request}
    {transport : Transport} (h : s.prepare request = .ok (transport, prepared)) :
    ∃ r ∈ s.resources, transport ∈ r.transport := by
  unfold prepare at h
  split at h
  · rename_i own baseUrl injector bound hresources
    refine ⟨_, hresources, ?_⟩
    obtain ⟨_, _, h⟩ := bind_eq_ok_iff.mp h
    dsimp only at h
    split at h
    all_goals
      obtain ⟨url, _, h⟩ := bind_eq_ok_iff.mp h
      split at h
      all_goals
        obtain ⟨body, _, h⟩ := bind_eq_ok_iff.mp h
        obtain ⟨rfl, _⟩ := Prod.mk.inj (Except.ok.inj h)
        exact rfl
  · cases h

end ApiProbe.Session
