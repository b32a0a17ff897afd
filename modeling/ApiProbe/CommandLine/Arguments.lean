import ApiProbe.Files.Path
import ApiProbe.Log.Document
import ApiProbe.Settings.Basic

/-!
Arguments of the command line: paths, and options that are written out or shortened to any beginning
that belongs to no other option. Two dashes end the options.
-/
namespace ApiProbe

namespace CommandLine

inductive Flag where
  | help
  | baseUrl
  | timeout
  | header
  | logLevel
  | logFormat
  deriving DecidableEq

namespace Flag

def name : Flag → String
  | help => "--help"
  | baseUrl => "--base-url"
  | timeout => "--timeout-sec"
  | header => "--header"
  | logLevel => "--log-level"
  | logFormat => "--log-format"

def all : List Flag :=
  [help, baseUrl, timeout, header, logLevel, logFormat]

def startingWith (text : String) : List Flag :=
  all.filter fun flag => text.toList.isPrefixOf flag.name.toList

end Flag

inductive Stop where
  | help
  | usage
  deriving DecidableEq

inductive Word where
  | plain (text : String)
  | dashes
  | flag (flag : Flag) (value : Option String)
  | unknown

def splitValue (text : String) : String × Option String :=
  match text.toList.span (· != '=') with
  | (front, _ :: value) => (String.ofList front, some (String.ofList value))
  | (_, []) => (text, none)

def looksNegative (text : String) : Bool :=
  match text.toList with
  | '-' :: cs =>
    let (front, rest) := cs.span Text.isDecimal
    match rest with
    | [] => !front.isEmpty
    | '.' :: digits => !digits.isEmpty && digits.all Text.isDecimal
    | _ => false
  | _ => false

/-- A text that begins no option. -/
def ofUnlisted (text : String) : Word :=
  if looksNegative text || text.toList.contains ' ' then .plain text else .unknown

/-- The short form of help with letters behind it. It takes no value, and more options in dashes are
not to be joined to it. -/
def readShortHelp (behind : List Char) : Word :=
  match behind.dropWhile (· == 'h') with
  | '=' :: _ | '-' :: _ => .flag .help (String.ofList behind)
  | _ => .flag .help none

/-- What an argument is that stands in front of the dashes. -/
def readWord (text : String) : Except Stop Word :=
  match text.toList with
  | '-' :: '-' :: _ =>
    let (front, value) := splitValue text
    match Flag.all.find? (·.name == front) with
    | some flag => .ok (.flag flag value)
    | none =>
      match Flag.startingWith front with
      | [flag] => .ok (.flag flag value)
      | [] => .ok (ofUnlisted text)
      | _ => .error .usage
  | '-' :: 'h' :: behind => .ok (readShortHelp behind)
  | '-' :: _ :: _ => .ok (ofUnlisted text)
  | _ => .ok (.plain text)

def readWords : List String → Except Stop (List Word)
  | [] => .ok []
  | text :: texts =>
    if text == "--" then .ok (.dashes :: texts.map .plain)
    else do
      let word ← readWord text
      return word :: (← readWords texts)

structure Arguments where
  paths : List Path := []
  baseUrl : Option String := none
  timeout : Option Binary64 := none
  headers : List String := []
  logLevel : Option Level := none
  logFormat : Option LogFormat := none

namespace Arguments

def orUsage {α : Type} : Option α → Except Stop α
  | some a => .ok a
  | none => .error .usage

def set (args : Arguments) (flag : Flag) (value : String) : Except Stop Arguments :=
  match flag with
  | .help => .error .usage
  | .baseUrl => .ok { args with baseUrl := some value }
  | .timeout => do
    let x ← orUsage (Numeral.readBinary64? value)
    return { args with timeout := some x }
  | .header => .ok { args with headers := args.headers ++ [value] }
  | .logLevel => do
    let level ← orUsage (Level.ofName? (Text.upper value))
    return { args with logLevel := some level }
  | .logFormat => do
    let format ← orUsage (LogFormat.ofName? value)
    return { args with logFormat := some format }

/-- Arguments that are read up to a word, and whether a word was left over. -/
structure Progress where
  args : Arguments := {}
  leftOver : Bool := false

namespace Progress

def addPath (p : Progress) (text : String) : Progress :=
  { p with args.paths := p.args.paths ++ [Path.ofText text] }

def leave (p : Progress) : Progress :=
  { p with leftOver := true }

def set (p : Progress) (flag : Flag) (value : String) : Except Stop Progress :=
  (p.args.set flag value).map fun args => { p with args }

/-- Takes words one by one. The paths have to stand together: `joined` says whether the word in front
was one. -/
def take (p : Progress) (joined : Bool) : List Word → Except Stop Progress
  | [] => .ok p
  | .plain text :: words =>
    if joined || p.args.paths.isEmpty then (p.addPath text).take true words
    else p.leave.take false words
  | .dashes :: words => if words.isEmpty && !joined then .ok p.leave else p.take joined words
  | .unknown :: words => p.leave.take false words
  | .flag .help none :: _ => .error .help
  | .flag flag (some value) :: words => do (← p.set flag value).take false words
  | .flag flag none :: .plain value :: words => do (← p.set flag value).take false words
  | .flag _ none :: _ => .error .usage

end Progress

def read (texts : List String) : Except Stop Arguments := do
  let words ← readWords texts
  let p ← Progress.take {} false words
  if p.leftOver || p.args.paths.isEmpty then .error .usage
  else return p.args

end Arguments

end CommandLine

end ApiProbe
