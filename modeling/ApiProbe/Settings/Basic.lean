import ApiProbe.Fault
import ApiProbe.Number.Numeral
import ApiProbe.Settings.Variables
import ApiProbe.Text.LetterCase

/-!
Settings of the program, as variables give them.
-/
namespace ApiProbe

/-- How events are written: as documents or as messages. -/
inductive LogFormat where
  | json
  | text
  deriving DecidableEq

namespace LogFormat

def name : LogFormat → String
  | json => "json"
  | text => "text"

def all : List LogFormat :=
  [json, text]

def ofName? (name : String) : Option LogFormat :=
  all.find? fun format => format.name == name

end LogFormat

structure Settings where
  baseUrl : Option String := none
  /-- The time that each script is given, in seconds. -/
  timeout : Option Binary64 := none
  logLevel : String := "INFO"
  logFormat : LogFormat := .text

namespace Settings

def all : List String :=
  ["BASE_URL", "TIMEOUT_SEC", "LOG_LEVEL", "LOG_FORMAT"]

def variableName (setting : String) : String :=
  "TESTDRIVE_" ++ setting

/-- What a setting is given as. An empty text is nothing. -/
def text? (vars : Variables) (setting : String) : Option String :=
  (Dict.get? (variableName setting) vars).join.filter (!·.isEmpty)

def refuse {α : Type} (setting message : String) : Except Fault α :=
  .error (.invalid s!"{variableName setting} must be {message}")

def readTimeout (text : String) : Except Fault Binary64 :=
  match Numeral.readBinary64? text with
  | none => refuse "TIMEOUT_SEC" s!"a number, got {Text.literal text}"
  | some x =>
    match x.compare? (.zero false) with
    | some .lt | some .eq => refuse "TIMEOUT_SEC" s!"positive, got {Text.literal text}"
    | _ => .ok x

def readLogFormat (text : String) : Except Fault LogFormat :=
  match LogFormat.ofName? (Text.lower text) with
  | some format => .ok format
  | none => refuse "LOG_FORMAT" ("one of " ++ ", ".intercalate (LogFormat.all.map (·.name)))

def ofVariables (vars : Variables) : Except Fault Settings := do
  let timeout ← (text? vars "TIMEOUT_SEC").mapM readTimeout
  let logFormat ← readLogFormat ((text? vars "LOG_FORMAT").getD "text")
  return {
    baseUrl := text? vars "BASE_URL"
    timeout
    logLevel := Text.upper ((text? vars "LOG_LEVEL").getD "INFO")
    logFormat }

/-- The settings of the variables of a file, in front of those around it. -/
def ofFile (around : Variables) (bytes : List UInt8) : Except Fault Settings := do
  let text ← (Utf8.decode bytes).mapError .notUtf8
  ofVariables (around.merge (Variables.ofText around text))

end Settings

end ApiProbe
