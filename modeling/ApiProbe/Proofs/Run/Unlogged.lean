import ApiProbe.Proofs.Run.Command
import ApiProbe.Run.Execute

/-!
# Runs without their logs

What a run logs has no part in what it computes. Two sessions that differ in their logs only, and in how
log entries are marked, are taken by the same commands to sessions that again differ so.
-/

namespace ApiProbe

def Resources.unmarked (r : Resources) : Resources :=
  { r with bound := [] }

namespace Session

/-- The session without its log. -/
def unlogged (s : Session) : Session :=
  { s with events := [], resources := s.resources.map Resources.unmarked }

theorem unlogged_logSection (s : Session) (sec : Section) :
    (s.logSection sec).unlogged = s.unlogged := rfl

end Session

def Outcome.unlogged (o : Outcome) : Outcome :=
  ⟨o.session.unlogged, o.failure⟩

def Finished.unlogged {α : Type} (f : Finished α) : Finished α :=
  ⟨f.session.unlogged, f.result⟩

/-- A command that cannot read the log back. -/
def Command.LogBlind (c : Command) : Prop :=
  ∀ s t : Session, s.unlogged = t.unlogged → (c.run s).unlogged = (c.run t).unlogged

/-- A command that leaves the resources of the run as they are. -/
def Command.KeepsResources (c : Command) : Prop :=
  ∀ s : Session, (c.run s).session.resources = s.resources

namespace Session

section Congr

variable {s t : Session}

theorem history_congr (h : s.unlogged = t.unlogged) : s.history = t.history :=
  (Session.mk.inj h).1

theorem lifetime_congr (h : s.unlogged = t.unlogged) : s.lifetime = t.lifetime :=
  (Session.mk.inj h).2.1

theorem now_congr (h : s.unlogged = t.unlogged) : s.now = t.now :=
  (Session.mk.inj h).2.2.1

theorem source_congr (h : s.unlogged = t.unlogged) : s.source = t.source :=
  (Session.mk.inj h).2.2.2.2.1

theorem resources_congr (h : s.unlogged = t.unlogged) :
    s.resources.map Resources.unmarked = t.resources.map Resources.unmarked :=
  (Session.mk.inj h).2.2.2.2.2.2.2.1

theorem sent_congr (h : s.unlogged = t.unlogged) : s.sent = t.sent :=
  (Session.mk.inj h).2.2.2.2.2.2.2.2.1

theorem newest?_congr (h : s.unlogged = t.unlogged) : s.newest? = t.newest? := by
  unfold newest?
  rw [history_congr h]

theorem compile_congr (h : s.unlogged = t.unlogged) (text : String) :
    s.compile text = t.compile text := by
  have hscope : s.scope = t.scope := by
    unfold scope
    rw [newest?_congr h, history_congr h]
  have hsource : s.sourceName? = t.sourceName? := by
    unfold sourceName?
    rw [source_congr h]
  unfold compile
  rw [hscope, hsource]

theorem matchValue_congr (h : s.unlogged = t.unlogged) (text : String) :
    Command.matchValue s text = Command.matchValue t text := by
  unfold Command.matchValue unify
  rw [compile_congr h, newest?_congr h]

theorem expand_congr (h : s.unlogged = t.unlogged) (text : String) : s.expand text = t.expand text := by
  have heval : s.evalText = t.evalText := by
    funext position text
    unfold evalText
    rw [compile_congr h]
  unfold expand
  rw [heval]

theorem problemUnlessAlive_congr (h : s.unlogged = t.unlogged) :
    s.problemUnlessAlive = t.problemUnlessAlive := by
  unfold problemUnlessAlive
  rw [lifetime_congr h, now_congr h]

/-- A request is prepared with the transport, the address and the headers of the resources; how they
mark log entries plays no part. -/
theorem prepare_congr (h : s.unlogged = t.unlogged) (request : Http.Request) :
    s.prepare request = t.prepare request := by
  have hresources := resources_congr h
  unfold prepare
  rw [problemUnlessAlive_congr h, expand_congr h]
  cases hs : s.resources with
  | none =>
      cases ht : t.resources with
      | none => rfl
      | some other =>
          rw [hs, ht] at hresources
          cases hresources
  | some own =>
      cases ht : t.resources with
      | none =>
          rw [hs, ht] at hresources
          cases hresources
      | some other =>
          rw [hs, ht] at hresources
          obtain ⟨transport, baseUrl, injector, bound⟩ := own
          obtain ⟨transport', baseUrl', injector', bound'⟩ := other
          cases hresources
          cases transport <;> rfl

theorem outcome_congr (h : s.unlogged = t.unlogged) (result : Except Failure Value) :
    (Outcome.of s s.push result).unlogged = (Outcome.of t t.push result).unlogged := by
  cases result with
  | error failure => exact congrArg (Outcome.mk · (some failure)) h
  | ok v => exact congrArg (fun u : Session => Outcome.mk (u.push v) none) h

theorem receive_congr (h : s.unlogged = t.unlogged) (request : Http.Request)
    (answer : Except Failure Http.Response) :
    (s.receive request answer).unlogged = (t.receive request answer).unlogged := by
  unfold receive
  rw [problemUnlessAlive_congr h]
  split
  · exact congrArg (Outcome.mk · (some _)) h
  · exact congrArg (Outcome.mk · (some _)) h
  · apply outcome_congr
    exact h

theorem exchange_congr (h : s.unlogged = t.unlogged) (transport : Transport) (request : Http.Request) :
    (s.exchange transport request).unlogged = (t.exchange transport request).unlogged := by
  have hexchange : transport s.sent request (s.lifetime.remaining s.now)
      = transport t.sent request (t.lifetime.remaining t.now) := by
    rw [sent_congr h, lifetime_congr h, now_congr h]
  unfold exchange
  rw [hexchange]
  apply receive_congr
  exact congrArg (·.sentOut request (transport t.sent request (t.lifetime.remaining t.now))) h

theorem send_congr (h : s.unlogged = t.unlogged) (request : Http.Request) :
    (s.send request).unlogged = (t.send request).unlogged := by
  rw [send_eq, send_eq, prepare_congr h]
  split
  · exact congrArg (Outcome.mk · (some _)) h
  · apply exchange_congr
    exact h

end Congr

end Session

/-- No command of the language reads the log. -/
theorem Command.logBlind_of_isBuiltin {c : Command} (hc : c.isBuiltin = true) : c.LogBlind := by
  intro s t h
  cases c with
  | value text =>
      simp only [run]
      rw [Session.compile_congr h text]
      exact Session.outcome_congr h _
  | expect text =>
      simp only [run]
      rw [Session.matchValue_congr h text]
      exact Session.outcome_congr h _
  | http request => exact Session.send_congr h request
  | custom => cases hc

theorem Command.keepsResources_of_isBuiltin {c : Command} (hc : c.isBuiltin = true) :
    c.KeepsResources :=
  fun _ => (keeps_run hc).resources

end ApiProbe
