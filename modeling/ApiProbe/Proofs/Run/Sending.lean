import ApiProbe.Proofs.Http.Response
import ApiProbe.Proofs.Run.History

/-!
# Requests are all or nothing

A request that is not refused is sent once, and then either one value is pushed or none. Several things can
keep it from giving a value; it fails with the first of them, in an order that does not depend on what
else goes wrong.
-/

namespace ApiProbe

/-- What a computation fails with, if it fails. -/
def failure? {α : Type} : Except Failure α → Option Failure
  | .ok _ => none
  | .error failure => some failure

/-- The first of the failures that are there. -/
def firstFailure? (failures : List (Option Failure)) : Option Failure :=
  failures.findSome? id

theorem firstFailure?_none (failures : List (Option Failure)) :
    firstFailure? (none :: failures) = firstFailure? failures := rfl

theorem firstFailure?_singleton (failure : Option Failure) : firstFailure? [failure] = failure := by
  cases failure <;> rfl

theorem Outcome.failure_of {α : Type} (s : Session) (f : α → Session) (result : Except Failure α) :
    (Outcome.of s f result).failure = failure? result := by
  cases result <;> rfl

/-- The address that one stands for, relative to the base. -/
def Resources.resolve (r : Resources) (url : String) : Except Failure String :=
  (r.baseUrl.map fun base => (Url.resolve base url).mapError .fault).getD (.ok url)

/-- What is sent for a request. -/
def Resources.intercept (r : Resources) (request : Http.Request) : Http.Request :=
  (r.injector.map (·.apply request)).getD request

namespace Exchange

/-- The value of an answer. -/
def value (exchange : Exchange) : Except Failure Value := do
  let response ← exchange.answer
  response.data >>= Language.encode

/-- A lifetime behind the exchange, which may have ended it. -/
def lifetime (exchange : Exchange) (l : Lifetime) : Lifetime :=
  match exchange.cancelled with
  | some reason => l.cancel reason
  | none => l

theorem value_of_answer {exchange : Exchange} {response : Http.Response}
    (h : exchange.answer = .ok response) :
    exchange.value = response.data >>= Language.encode := by
  rw [value, h]
  rfl

end Exchange

namespace Session

def transport? (s : Session) : Option Transport :=
  s.resources.bind (·.transport)

def noTransport : Failure :=
  .problem { kind := .transport, message := "no HTTP transport configured" }

/-- What keeps a request that is sent from giving a value, in the order in which it counts. -/
def setbacks (s : Session) (exchange : Exchange) : List (Option Failure) :=
  [((exchange.lifetime s.lifetime).problem? s.now).map .problem, failure? exchange.answer,
    failure? exchange.value]

variable {s : Session} {request : Http.Request}

theorem expand_empty (s : Session) : s.expand "" = .ok "" :=
  rfl

theorem failure?_problemUnlessAlive (s : Session) :
    failure? s.problemUnlessAlive = (s.lifetime.problem? s.now).map .problem := by
  unfold problemUnlessAlive
  split <;> rename_i h <;> rw [h] <;> rfl

/-- The body is expanded; that an empty one is not plays no part. -/
theorem filled_eq (s : Session) (r : Resources) (url body : String) :
    s.filled r.baseUrl url body = do
      let url ← r.resolve url
      let body ← s.expand body
      return (url, body) := by
  unfold filled Resources.resolve
  by_cases hempty : body.isEmpty = true
  · simp only [if_pos hempty]
    rw [String.isEmpty_iff.mp hempty, expand_empty]
  · simp only [if_neg hempty]

theorem prepare_of_transport {r : Resources} {transport : Transport} (hr : r ∈ s.resources)
    (htransport : transport ∈ r.transport) :
    s.prepare request = do
      s.problemUnlessAlive
      let url ← r.resolve request.url
      let body ← s.expand request.body
      return (transport, r.intercept { request with url, body }) := by
  obtain ⟨own, baseUrl, injector, bound⟩ := r
  obtain rfl := Option.mem_def.mp htransport
  rw [prepare_eq, Option.mem_def.mp hr]
  dsimp only
  rw [filled_eq s ⟨some transport, baseUrl, injector, bound⟩]
  cases s.problemUnlessAlive with
  | error failure => rfl
  | ok _ =>
      cases Resources.resolve ⟨some transport, baseUrl, injector, bound⟩ request.url with
      | error failure => rfl
      | ok url => cases s.expand request.body <;> rfl

theorem prepare_of_none (h : s.transport? = none) : s.prepare request = .error noTransport := by
  unfold transport? at h
  rw [prepare_eq]
  cases hresources : s.resources with
  | none => rfl
  | some r =>
      obtain ⟨own, baseUrl, injector, bound⟩ := r
      rw [hresources, Option.bind_some] at h
      obtain rfl : own = none := h
      rfl

theorem failure_receive (s : Session) (request : Http.Request)
    (answer : Except Failure Http.Response) :
    (s.receive request answer).failure = firstFailure? [(s.lifetime.problem? s.now).map .problem,
      failure? answer, failure? (answer >>= fun response => response.data >>= Language.encode)] := by
  unfold receive
  rw [← failure?_problemUnlessAlive]
  cases s.problemUnlessAlive with
  | error failure => rfl
  | ok _ =>
      cases answer with
      | error failure => rfl
      | ok response =>
          dsimp only
          rw [Outcome.failure_of, failure?, failure?, firstFailure?_none, firstFailure?_none,
            firstFailure?_singleton]
          rfl

theorem sent_receive (s : Session) (request : Http.Request) (answer : Except Failure Http.Response) :
    (s.receive request answer).session.sent = s.sent := by
  unfold receive
  split
  · rfl
  · rfl
  · rename_i response _
    dsimp only
    cases response.data >>= Language.encode <;> rfl

/-- A request that is not refused is sent once. The end of the lifetime counts more than the answer, and
a value is pushed if nothing is wrong with it. -/
theorem send_of_prepare {transport : Transport} {out : Http.Request}
    (hprepare : s.prepare request = .ok (transport, out)) :
    let timeout := s.lifetime.remaining s.now
    let exchange := transport s.sent out timeout
    let o := s.send request
    o.session.sent = s.sent ++ [⟨out, timeout⟩] ∧ o.failure = firstFailure? (s.setbacks exchange) ∧
      (o.failure = none → ∃ v, exchange.value = .ok v ∧ o.session.history = s.history.push v) ∧
      (o.failure ≠ none → o.session.history = s.history) := by
  intro timeout exchange o
  have ho : o = (s.logRequest out).exchange transport out := by
    change s.send request = _
    rw [send_eq, hprepare]
  rw [ho]
  refine ⟨sent_receive _ _ _, failure_receive _ _ _, fun hnone => ?_, fun hsome => ?_⟩
  · obtain ⟨response, v, hanswer, hv, hhistory⟩ := history_receive hnone
    exact ⟨v, bind_eq_ok_iff.mpr ⟨response, hanswer, hv⟩, hhistory⟩
  · exact (keeps_receive out _).history hsome

end Session

end ApiProbe
