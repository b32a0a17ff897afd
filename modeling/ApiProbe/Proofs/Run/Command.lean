import ApiProbe.Proofs.Result
import ApiProbe.Proofs.Run.Reachable
import ApiProbe.Proofs.Run.Request

/-!
# Commands of the language

A command of the language leaves alone the place, the resources and the last error of the session, and
the history too if it fails. A problem it fails with has no line yet, and no source but that of the
session.
-/

namespace ApiProbe

/-- The outcome of a command differs from the session it ran in by no more than the history, the
lifetime, what was sent and what was logged. -/
structure Outcome.Keeps (s : Session) (o : Outcome) : Prop where
  source : o.session.source = s.source
  line : o.session.line = s.line
  resources : o.session.resources = s.resources
  lastError : o.session.lastError = s.lastError
  history : o.failure ≠ none → o.session.history = s.history

section Keeps

variable {s : Session}

theorem keeps_of (result : Except Failure Value) :
    (Outcome.of s s.push result).Keeps s := by
  cases result with
  | error failure => exact ⟨rfl, rfl, rfl, rfl, fun _ => rfl⟩
  | ok v => exact ⟨rfl, rfl, rfl, rfl, fun h => absurd rfl h⟩

/-- What is logged before the command counts as left alone. -/
theorem Outcome.Keeps.of_log {o : Outcome} {level : Level} {name : String} {fields : Dict Datum}
    (h : o.Keeps (s.log level name fields)) : o.Keeps s :=
  ⟨h.source, h.line, h.resources, h.lastError, h.history⟩

theorem keeps_receive (request : Http.Request) (answer : Except Failure Http.Response) :
    (s.receive request answer).Keeps s := by
  unfold Session.receive
  split
  · exact ⟨rfl, rfl, rfl, rfl, fun _ => rfl⟩
  · exact ⟨rfl, rfl, rfl, rfl, fun _ => rfl⟩
  · exact (keeps_of _).of_log

theorem keeps_send (request : Http.Request) : (s.send request).Keeps s := by
  rw [Session.send_eq]
  split
  · exact ⟨rfl, rfl, rfl, rfl, fun _ => rfl⟩
  · rename_i transport prepared _
    obtain ⟨hsource, hline, hresources, hlastError, hhistory⟩ :=
      keeps_receive (s := (s.logRequest prepared).sentOut prepared _) prepared _
    exact ⟨hsource, hline, hresources, hlastError, hhistory⟩

theorem keeps_run {c : Command} (hc : c.isBuiltin = true) : (c.run s).Keeps s := by
  cases c with
  | value text => exact keeps_of _
  | expect text => exact keeps_of _
  | http request => exact keeps_send request
  | custom => cases hc

end Keeps

/-- A problem that is at no line yet, and in no source but the given one. -/
def Problem.Unplaced (source : String) (p : Problem) : Prop :=
  p.line = none ∧ ∀ name ∈ p.source, name = source

theorem Problem.Unplaced.locate {source : String} {p : Problem} (h : p.Unplaced source) (line : Int) :
    (p.locate source line).source = some source ∧ (p.locate source line).line = some line := by
  obtain ⟨hline, hsource⟩ := h
  refine ⟨?_, by rw [Problem.locate, hline, Option.none_or]⟩
  cases hp : p.source with
  | none => rw [Problem.locate, hp, Option.none_or]
  | some name => rw [Problem.locate, hp, Option.some_or, hsource name hp]

/-- If the failure is a problem, it has no place of its own. -/
def Failure.Unplaced (source : String) (failure : Failure) : Prop :=
  ∀ p, failure = .problem p → p.Unplaced source

theorem Failure.unplaced_of_none {source : String} {p : Problem} (hline : p.line = none)
    (hsource : p.source = none) : (Failure.problem p).Unplaced source := by
  intro q hq
  obtain rfl := Failure.problem.inj hq
  refine ⟨hline, fun name hname => ?_⟩
  rw [hsource] at hname
  cases hname

/-- A computation that fails, if it does, with something that has no place of its own. -/
def FailsUnplaced {α : Type} (source : String) (x : Except Failure α) : Prop :=
  FailsWith (Failure.Unplaced source) x

section Unplaced

variable {source : String} {α : Type}

theorem failsUnplaced_problem {p : Problem} (hline : p.line = none) (hsource : p.source = none) :
    FailsUnplaced (α := α) source (.error (.problem p)) :=
  failsWith_error (Failure.unplaced_of_none hline hsource)

theorem failsUnplaced_fault (fault : Fault) : FailsUnplaced (α := α) source (.error (.fault fault)) :=
  nofun

end Unplaced

namespace Language

theorem failsUnplaced_unify (source : String) (a b : Value) : FailsUnplaced source (unify a b) := by
  unfold unify
  split
  · exact failsWith_ok _
  · exact failsUnplaced_problem rfl rfl
  · exact failsUnplaced_fault _

theorem failsUnplaced_encode (source : String) (d : Datum) : FailsUnplaced source (encode d) := by
  unfold encode
  split
  · exact failsWith_ok _
  · exact failsUnplaced_problem rfl rfl
  · exact failsUnplaced_fault _

theorem failsUnplaced_display (source : String) (v : Value) : FailsUnplaced source (display v) := by
  unfold display
  split
  · exact failsWith_ok _
  · exact failsUnplaced_fault _

end Language

theorem failsUnplaced_data (source : String) (response : Http.Response) :
    FailsUnplaced source response.data := by
  have hbody : FailsUnplaced source response.body := by
    unfold Http.Response.body
    split
    · split
      · exact failsUnplaced_fault _
      · exact failsWith_ok _
    · split
      · exact failsWith_ok _
      · split
        · exact failsUnplaced_problem rfl rfl
        · split
          · exact failsWith_ok _
          · exact failsUnplaced_problem rfl rfl
  refine hbody.bind fun _ _ => ?_
  split
  · exact failsUnplaced_fault _
  · exact failsWith_ok _

namespace Session

variable {s : Session}

/-- An expression that does not compile is reported under the name of the source, if it has one. -/
theorem failsUnplaced_compile (text : String) : FailsUnplaced s.source (s.compile text) := by
  unfold compile Language.compile
  split
  · exact failsWith_ok _
  · intro failure h p hp
    obtain rfl := Except.error.inj h
    obtain rfl := Failure.problem.inj hp
    refine ⟨rfl, fun name hname => ?_⟩
    unfold sourceName? at hname
    split at hname
    · cases hname
    · exact (Option.some.inj hname).symm
  · exact nofun

theorem failsUnplaced_matchValue (text : String) :
    FailsUnplaced s.source (Command.matchValue s text) := by
  apply (failsUnplaced_compile text).bind
  intro expected _
  split
  · exact failsUnplaced_problem rfl rfl
  · exact Language.failsUnplaced_unify _ _ _

theorem failsUnplaced_evalText (position : Nat) (text : String) :
    FailsUnplaced s.source (s.evalText position text) := by
  unfold evalText
  cases s.compile text with
  | ok v => exact Language.failsUnplaced_display _ _
  | error failure =>
      cases failure with
      | problem p => exact failsUnplaced_problem rfl rfl
      | fault fault => exact nofun
      | evaluation fault => exact nofun

section Expansion

variable {P : Failure → Prop} {eval : Nat → String → Except Failure String}

theorem failsWith_step (hescape : ∀ position, P (.problem (.escape position ")")))
    (heval : ∀ position text, FailsWith P (eval position text)) (text : List Char)
    (scanner : Expand.Scanner) (position : Nat) (c : Char) :
    FailsWith P (scanner.step eval text position c) := by
  unfold Expand.Scanner.step
  split
  · split_ifs
    · exact failsWith_ok _
    · exact failsWith_ok _
    · exact (heval _ _).bind fun _ _ => failsWith_ok _
    · exact failsWith_ok _
  · split_ifs
    · exact failsWith_ok _
    · exact failsWith_ok _
    · exact failsWith_error (hescape _)
    · exact failsWith_ok _
  · exact failsWith_ok _

/-- An expansion fails as its expressions do, or for an escape. -/
theorem failsWith_expansion (hescape : ∀ position, P (.problem (.escape position ")")))
    (heval : ∀ position text, FailsWith P (eval position text)) (text : List Char) :
    FailsWith P (Expand.expansion eval text) := by
  unfold Expand.expansion
  split
  · refine FailsWith.map (fun e h => ?_) _
    obtain ⟨scanner, -, _, -, hstep⟩ := foldlM_eq_error trivial (fun _ _ _ _ _ _ => trivial) h
    exact failsWith_step hescape heval text scanner _ _ e hstep
  · exact failsWith_ok _

end Expansion

theorem failsUnplaced_expand (text : String) : FailsUnplaced s.source (s.expand text) :=
  (failsWith_expansion (fun _ => Failure.unplaced_of_none rfl rfl) failsUnplaced_evalText
    text.toList).map _

theorem failsUnplaced_alive : FailsUnplaced s.source s.problemUnlessAlive := by
  unfold problemUnlessAlive
  split
  · rename_i p hp
    unfold Lifetime.problem? at hp
    split at hp
    · obtain rfl := Option.some.inj hp
      exact failsUnplaced_problem rfl rfl
    · split at hp
      · obtain rfl := Option.some.inj hp
        exact failsUnplaced_problem rfl rfl
      · cases hp
  · exact failsWith_ok _

end Session

/-- Whatever goes wrong with a request is a transport problem that has no place yet. -/
def Transport.Fresh (transport : Transport) : Prop :=
  ∀ sent request timeout failure, (transport sent request timeout).answer = .error failure →
    ∃ p, failure = .problem p ∧ p.kind.isTransport = true ∧ p.source = none ∧ p.line = none

def Resources.Fresh (r : Resources) : Prop :=
  ∀ transport ∈ r.transport, transport.Fresh

namespace Session

variable {s : Session}

theorem failsUnplaced_resolve {source : String} (base path : String) :
    FailsUnplaced source ((Url.resolve base path).mapError Failure.fault) := by
  cases Url.resolve base path with
  | ok url => exact failsWith_ok url
  | error fault => exact failsUnplaced_fault fault

theorem failsUnplaced_prepare (request : Http.Request) :
    FailsUnplaced s.source (s.prepare request) := by
  unfold prepare
  split
  · refine failsUnplaced_alive.bind fun _ _ => ?_
    dsimp only
    split
    · rename_i base _
      refine (failsUnplaced_resolve base request.url).bind fun url _ => ?_
      split
      · exact (failsWith_ok _).bind fun _ _ => failsWith_ok _
      · exact (failsUnplaced_expand _).bind fun _ _ => failsWith_ok _
    · refine FailsWith.bind (failsWith_ok request.url) fun url _ => ?_
      split
      · exact (failsWith_ok _).bind fun _ _ => failsWith_ok _
      · exact (failsUnplaced_expand _).bind fun _ _ => failsWith_ok _
  · exact failsUnplaced_problem rfl rfl

theorem failure_of {source : String} {result : Except Failure Value} (h : FailsUnplaced source result)
    {failure : Failure} (hfailure : (Outcome.of s s.push result).failure = some failure) :
    failure.Unplaced source := by
  cases result with
  | ok v => cases hfailure
  | error e =>
      obtain rfl := Option.some.inj hfailure
      exact h e rfl

theorem unplaced_receive {request : Http.Request} {answer : Except Failure Http.Response}
    (hanswer : FailsUnplaced s.source answer) {failure : Failure}
    (hfailure : (s.receive request answer).failure = some failure) : failure.Unplaced s.source := by
  unfold receive at hfailure
  split at hfailure
  · rename_i e halive
    obtain rfl := Option.some.inj hfailure
    exact failsUnplaced_alive e halive
  · rename_i e _
    obtain rfl := Option.some.inj hfailure
    exact hanswer e rfl
  · refine failure_of ?_ hfailure
    exact (failsUnplaced_data _ _).bind fun _ _ => Language.failsUnplaced_encode _ _

theorem unplaced_send (hresources : ∀ r ∈ s.resources, r.Fresh) {request : Http.Request}
    {failure : Failure} (hfailure : (s.send request).failure = some failure) :
    failure.Unplaced s.source := by
  rw [send_eq] at hfailure
  split at hfailure
  · rename_i e hprepare
    obtain rfl := Option.some.inj hfailure
    exact failsUnplaced_prepare request e hprepare
  · rename_i transport prepared hprepare
    obtain ⟨r, hr, htransport⟩ := exists_resources_of_prepare hprepare
    refine unplaced_receive (s := (s.logRequest prepared).sentOut prepared _) ?_ hfailure
    intro e he
    obtain ⟨p, rfl, -, hsource, hline⟩ := hresources r hr transport htransport _ _ _ e he
    exact Failure.unplaced_of_none hline hsource

/-- What a command of the language fails with has no place of its own, if that is so of what its
requests fail with. -/
theorem unplaced_run (hresources : ∀ r ∈ s.resources, r.Fresh) {c : Command}
    (hc : c.isBuiltin = true) {failure : Failure} (hfailure : (c.run s).failure = some failure) :
    failure.Unplaced s.source := by
  cases c with
  | value text => exact failure_of (failsUnplaced_compile text) hfailure
  | expect text => exact failure_of (failsUnplaced_matchValue text) hfailure
  | http request => exact unplaced_send hresources hfailure
  | custom => cases hc

end Session

end ApiProbe
