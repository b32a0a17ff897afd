import ApiProbe.Expr.Eval
import ApiProbe.Problem
import ApiProbe.Value.Encode

/-!
The expression language as a script meets it: compiling, unifying and encoding, with failures as
problems.

Texts, values and data may be as deep and as long as they like. An interpreter that gives each level or each
item a place on a stack of its own has a limit there, which depends on what is on the stack already; it is
left out here.
-/
namespace ApiProbe.Language

/-- The value of an expression in a scope. A problem names the expression and the source, if there is
one. -/
def compile (scope : Expr.Scope) (source : Option String) (text : String) : Except Failure Value :=
  match Expr.compile scope text with
  | .ok v => .ok v
  | .error (.compile error) =>
    .error (.problem { kind := .compile text, message := error.message, source })
  | .error (.fault fault) => .error (.evaluation fault)

def unify (a b : Value) : Except Failure Value :=
  match Value.unify a b with
  | .ok v => .ok v
  | .error (.conflicts all) => .error (.problem (.conflict all))
  | .error .unprintable => .error (.fault .unprintable)

def encode (d : Datum) : Except Failure Value :=
  match Value.encode d with
  | .ok v => .ok v
  | .error (.refused path cause) =>
    let message := s!"{EncodeFailure.place path}: {cause.message}"
    .error (.problem { kind := .encode, message })
  | .error .unprintable => .error (.fault .unprintable)

def render (v : Value) : Except Failure String :=
  if v.printable then .ok v.text else .error (.fault .unprintable)

/-- The text of a value, with a string as it is. -/
def display (v : Value) : Except Failure String :=
  if v.printable then .ok v.display else .error (.fault .unprintable)

def data (v : Value) : Except Failure Datum :=
  match Datum.ofValue v with
  | .ok d => .ok d
  | .error inner => .error (.fault (.invalid s!"value is not concrete: {inner.sortName}"))

def kindOf (d : Datum) : Except Failure AtomKind :=
  match d with
  | .null => .ok .null
  | .bool _ => .ok .bool
  | .int _ => .ok .int
  | .float _ => .ok .float
  | .string _ => .ok .string
  | d =>
    .error (.fault (if d.printable then .unsuitable s!"unsupported scalar {d.form}"
      else .unprintable))

def check (constraint : Value) (atom : Atom) : Except Failure (Option String) :=
  match constraint.checkAtom? atom with
  | some none => .ok none
  | some (some reason) =>
    if reason.printable then .ok (some reason.message) else .error (.fault .unprintable)
  | none =>
    .error (.fault (if constraint.printable then .unsuitable s!"not a constraint: {constraint.form}"
      else .unprintable))

end ApiProbe.Language
