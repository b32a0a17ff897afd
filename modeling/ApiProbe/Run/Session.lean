import ApiProbe.Http.Request
import ApiProbe.Http.Response
import ApiProbe.Language
import ApiProbe.Log.Event
import ApiProbe.Run.History
import ApiProbe.Run.Lifetime
import ApiProbe.Url.Resolve

/-!
A session: all that one run of a script owns. It keeps the values computed so far, the place of the
command that is running, and what was sent and logged.
-/
namespace ApiProbe

/-- A request that was sent, with the time that was left for it. -/
structure Sent where
  request : Http.Request
  timeout : Option Binary64

/-- What comes of a request; the run may be cancelled while it is pending. -/
structure Exchange where
  answer : Except Failure Http.Response
  cancelled : Option String := none

/-- A way to send requests. What it answers may depend on all that was sent before. -/
abbrev Transport := List Sent → Http.Request → Option Binary64 → Exchange

structure Resources where
  transport : Option Transport := none
  baseUrl : Option String := none
  injector : Option Http.Interceptor := none
  bound : Dict Datum := []

structure Session where
  history : History Value := { capacity := History.standardCapacity }
  lifetime : Lifetime := {}
  /-- The time of the clock. It stands still while a script is run: no deadline passes between two commands
  or while a request is pending. -/
  now : Binary64
  runId : String := ""
  source : String := ""
  line : Int := 0
  lastError : Option Problem := none
  resources : Option Resources := none
  sent : List Sent := []
  events : List Event := []

namespace Session

def newest? (s : Session) : Option Value :=
  s.history.newest?

def push (s : Session) (value : Value) : Session :=
  { s with history := s.history.push value }

/-- The names that expressions see: the history, and the newest value if there is one. -/
def scope (s : Session) : Expr.Scope :=
  ("$history", .list s.history.values none) :: (s.newest?.map (("$", ·))).toList

/-- The name that problems with an expression are reported under. -/
def sourceName? (s : Session) : Option String :=
  if s.source.isEmpty then none else some s.source

def compile (s : Session) (text : String) : Except Failure Value :=
  Language.compile s.scope s.sourceName? text

def unify (s : Session) (value : Value) : Except Failure Value :=
  Language.unify (s.newest?.getD .top) value

def log (s : Session) (level : Level) (name : String) (fields : Dict Datum) : Session :=
  let bound := (s.resources.map (·.bound)).getD []
  { s with events := s.events ++ [⟨level, name, bound, fields, s.history.values⟩] }

def locate (s : Session) (source : String) (line : Int) : Session :=
  { s with source, line }

end Session

/-- What a command leaves: the session, and a failure if it failed. -/
structure Outcome where
  session : Session
  failure : Option Failure := none

/-- Changes the session by a result, if there is one. -/
def Outcome.of {α : Type} (s : Session) (f : α → Session) : Except Failure α → Outcome
  | .ok a => ⟨f a, none⟩
  | .error failure => ⟨s, some failure⟩

end ApiProbe
