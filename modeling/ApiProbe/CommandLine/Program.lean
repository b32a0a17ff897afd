import ApiProbe.CommandLine.Arguments
import ApiProbe.Log.Message
import ApiProbe.Run.Report

/-!
The program: it reads its arguments and settings, finds the scripts, runs them and tells how they went.
-/
namespace ApiProbe

namespace CommandLine

structure Surroundings where
  environment : Variables := []
  tree : FileTree
  /-- The transport of an engine that is given none. -/
  transport : Transport
  now : Binary64
  runId : String

structure Output where
  /-- The texts that were printed, each with a line feed behind it. -/
  printed : List String := []
  /-- The messages that were logged. -/
  logged : List String := []
  sent : List Sent := []
  /-- Whether an engine was set up, whose transport is then closed in the end. -/
  ran : Bool := false
  /-- The exit code, or the failure that the program broke off with. -/
  code : Except Failure Nat

def usage : String :=
  "usage: apiprobe [--help] [--base-url URL] [--timeout-sec SECONDS] [--header 'NAME: VALUE']\n" ++
  "                [--log-level debug|info|error] [--log-format json|text] PATH..."

def codeSuccess : Nat := 0
def codeFailure : Nat := 1
def codeUsage : Nat := 2

structure Plan where
  args : Arguments
  settings : Settings
  headers : List Http.Header
  files : List Path

/-- The settings of the variables and of the file of variables in the current directory, if there is
one. -/
def settingsOf (around : Surroundings) : Except Fault Settings :=
  match around.tree.read (.ofText ".env") with
  | .ok content => Settings.ofFile around.environment content
  | .error _ => Settings.ofVariables around.environment

def planOf (around : Surroundings) (args : Arguments) : Except Failure Plan := do
  let settings ← (settingsOf around).mapError .fault
  let headers ← Http.headersOfTexts args.headers
  let files ← (around.tree.find scriptSuffix args.paths).mapError .fault
  return { args, settings, headers, files }

namespace Plan

def logFormat (plan : Plan) : LogFormat :=
  plan.args.logFormat.getD plan.settings.logFormat

def logLevel (plan : Plan) : String :=
  (plan.args.logLevel.map (·.name)).getD plan.settings.logLevel

def baseUrl (plan : Plan) : Option String :=
  (plan.args.baseUrl.filter (!·.isEmpty)).or plan.settings.baseUrl

def timeout (plan : Plan) : Option Binary64 :=
  plan.args.timeout.or plan.settings.timeout

def threshold (plan : Plan) : Except Fault Nat :=
  match plan.logFormat with
  | .json => .ok (Level.documentThreshold plan.logLevel)
  | .text => Level.messageThreshold plan.logLevel

def engine (plan : Plan) : Engine :=
  { parsers := .common
    baseUrl := plan.baseUrl
    injector := if plan.headers.isEmpty then none else some { headers := plan.headers } }

end Plan

def reportLine (r : Report) : String :=
  if r.ok then s!"PASS {r.name}" else s!"FAIL {r.location}: " ++ r.reason.getD ""

/-- The lines that events are written as, of those that are severe enough. -/
def eventLines (line : Event → Except Fault String) (threshold : Nat) (events : List Event) :
    List String :=
  (events.filter (threshold ≤ ·.level.severity)).filterMap fun e => (line e).toOption

/-- What is printed about a run. Documents are printed with it, in front of the report. -/
def printedOf (format : LogFormat) (threshold : Nat) (run : FileRun) : List String :=
  let documents :=
    match format with
    | .json => eventLines Event.documentLine threshold run.events
    | .text => []
  documents ++ (run.report.toOption.map reportLine).toList

def loggedOf (format : LogFormat) (threshold : Nat) (run : FileRun) : List String :=
  match format with
  | .json => []
  | .text => eventLines Event.messageLine threshold run.events

def summaryLines (reports : List Report) : List String :=
  let failed := reports.countP (!·.ok)
  ["", s!"{reports.length - failed} passed, {failed} failed"]

def runPlan (around : Surroundings) (plan : Plan) : Output :=
  match plan.threshold with
  | .error fault => { code := .error (.fault fault) }
  | .ok threshold =>
    let s : Session :=
      { lifetime := .start around.now plan.timeout, now := around.now, runId := around.runId }
    let runs := plan.engine.runFiles around.transport around.tree s plan.files
    let (reports, failure) := FileRun.reports runs
    { printed := runs.flatMap (printedOf plan.logFormat threshold) ++
        (if failure.isSome then [] else summaryLines reports)
      logged := runs.flatMap (loggedOf plan.logFormat threshold)
      sent := FileRun.sentByAll runs
      ran := true
      code := match failure with
        | some failure => .error failure
        | none => .ok (if reports.all (·.ok) then codeSuccess else codeFailure) }

def refuse (message : String) : Output :=
  { printed := [s!"ERROR: {message}"], code := .ok codeUsage }

def run (around : Surroundings) (texts : List String) : Output :=
  match Arguments.read texts with
  | .error .help => { code := .ok codeSuccess }
  | .error .usage => { code := .ok codeUsage }
  | .ok args =>
    match planOf around args with
    | .error (.fault fault) => refuse fault.message
    | .error failure => { code := .error failure }
    | .ok plan => if plan.files.isEmpty then refuse "no scripts found" else runPlan around plan

end CommandLine

end ApiProbe
