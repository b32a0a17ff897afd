import ApiProbe.Expr.Tree
import ApiProbe.Text.Digit
import ApiProbe.Text.Literal
import ApiProbe.Value.Printer

/-!
Tokens of expressions. Line feeds and commas separate fields and items, and a comment in front of one
belongs to the separator; other comments and blanks stand between tokens and mean nothing.

Which tokens are looked for depends on what may come next. Of the ones that fit, the first in the
order of the terminals is taken, not the longest.
-/
namespace ApiProbe.Expr

inductive Terminal where
  | float
  | test
  | name
  | separator
  | string
  | int
  | ellipsis
  | ampersand
  | bang
  | colon
  | dot
  | leftBrace
  | leftParen
  | leftBracket
  | minus
  | plus
  | rightBrace
  | rightParen
  | rightBracket
  | slash
  | star
  | bar
  | finish
  deriving DecidableEq

namespace Terminal

/-- The names that messages have for the terminals. -/
def title : Terminal → String
  | .float => "FLOAT"
  | .test => "CMP"
  | .name => "IDENT"
  | .separator => "_SEP"
  | .string => "STRING"
  | .int => "INT"
  | .ellipsis => "__ANON_0"
  | .ampersand => "AMPERSAND"
  | .bang => "BANG"
  | .colon => "COLON"
  | .dot => "DOT"
  | .leftBrace => "LBRACE"
  | .leftParen => "LPAR"
  | .leftBracket => "LSQB"
  | .minus => "MINUS"
  | .plus => "PLUS"
  | .rightBrace => "RBRACE"
  | .rightParen => "RPAR"
  | .rightBracket => "RSQB"
  | .slash => "SLASH"
  | .star => "STAR"
  | .bar => "VBAR"
  | .finish => "$END"

def early : List Terminal :=
  [.float, .test, .name, .separator, .string]

def late : List Terminal :=
  [.int, .ellipsis, .ampersand, .bang, .colon, .dot, .leftBrace, .leftParen, .leftBracket, .minus,
    .plus, .rightBrace, .rightParen, .rightBracket, .slash, .star, .bar]

def symbol? : Terminal → Option Char
  | .ampersand => some '&'
  | .bang => some '!'
  | .colon => some ':'
  | .dot => some '.'
  | .leftBrace => some '\x7b'
  | .leftParen => some '('
  | .leftBracket => some '['
  | .minus => some '-'
  | .plus => some '+'
  | .rightBrace => some '\x7d'
  | .rightParen => some ')'
  | .rightBracket => some ']'
  | .slash => some '/'
  | .star => some '*'
  | .bar => some '|'
  | _ => none

end Terminal

/-! The length of a token at the front of a text, given as how many characters it has after its first
one. -/

def digitCount (cs : List Char) : Nat :=
  (cs.takeWhile Text.isDecimal).length

/-- The length of an exponent: its letter, perhaps a sign, and digits. -/
def exponentLength (cs : List Char) : Nat :=
  match cs with
  | [] => 0
  | c :: rest =>
    if c == 'e' || c == 'E' then
      let sign := match rest with
        | d :: _ => if d == '+' || d == '-' then 1 else 0
        | [] => 0
      let count := digitCount (rest.drop sign)
      if count = 0 then 0 else 1 + sign + count
    else
      0

/-- Digits with a fraction, an exponent or both. -/
def floatMore? (c : Char) (rest : List Char) : Option Nat :=
  if Text.isDecimal c then
    let whole := digitCount rest
    let after := rest.drop whole
    let fraction := match after with
      | '.' :: digits => digitCount digits
      | _ => 0
    if fraction != 0 then
      some (whole + 1 + fraction + exponentLength (after.drop (1 + fraction)))
    else
      let exponent := exponentLength after
      if exponent != 0 then some (whole + exponent) else none
  else
    none

def testMore? (c : Char) (rest : List Char) : Option Nat :=
  match c, rest with
  | '=', '=' :: _ | '!', '=' :: _ | '<', '=' :: _ | '>', '=' :: _ => some 1
  | '=', '~' :: _ | '!', '~' :: _ => some 1
  | '<', _ | '>', _ => some 0
  | _, _ => none

def nameMore? (c : Char) (rest : List Char) : Option Nat :=
  if Value.isLabelStart c then some (rest.takeWhile Value.isLabelRest).length else none

/-- The length of a string from behind its opening quote on. -/
def stringMore? : List Char → Option Nat
  | [] => none
  | '"' :: _ => some 1
  | '\\' :: c :: rest => if c == '\n' then none else (stringMore? rest).map (· + 2)
  | c :: rest => if c == '\\' || c == '\n' then none else (stringMore? rest).map (· + 1)

def separatorBlanks (cs : List Char) : Nat :=
  (cs.takeWhile fun c => c == ' ' || c == '\t' || c == '\r').length

/-- The number of characters up to the last comma, with it; zero if there is none. -/
def throughLastComma (cs : List Char) : Nat :=
  cs.length - (cs.reverse.takeWhile (· != ',')).length

/-- One comma or line feed with the blanks after it, and with a comment before it. A comment that no
line feed ends goes as far as its last comma. -/
def separatorUnit? : List Char → Option Nat
  | '/' :: '/' :: rest =>
    let body := rest.takeWhile (· != '\n')
    match rest.drop body.length with
    | [] =>
      let front := throughLastComma body
      if front = 0 then none else some (2 + front + separatorBlanks (body.drop front))
    | _ :: after => some (3 + body.length + separatorBlanks after)
  | c :: rest => if c == ',' || c == '\n' then some (1 + separatorBlanks rest) else none
  | [] => none

def separatorLength : List Char → Nat
  | [] => 0
  | c :: rest =>
    match separatorUnit? (c :: rest) with
    | none => 0
    | some n => n + separatorLength (rest.drop (n - 1))
  termination_by cs => cs.length
  decreasing_by
    simp only [List.length_cons, List.length_drop]
    omega

def separatorMore? (c : Char) (rest : List Char) : Option Nat :=
  match separatorLength (c :: rest) with
  | 0 => none
  | n + 1 => some n

def Terminal.more? (c : Char) (rest : List Char) : Terminal → Option Nat
  | .float => floatMore? c rest
  | .test => testMore? c rest
  | .name => nameMore? c rest
  | .separator => separatorMore? c rest
  | .string => if c == '"' then stringMore? rest else none
  | .int => if Text.isDecimal c then some (digitCount rest) else none
  | .ellipsis => if c == '.' && ['.', '.'].isPrefixOf rest then some 2 else none
  | .finish => none
  | terminal => if terminal.symbol? == some c then some 0 else none

def commentMore? (c : Char) (rest : List Char) : Option Nat :=
  match c, rest with
  | '/', '/' :: body => some (1 + (body.takeWhile (· != '\n')).length)
  | _, _ => none

def isSkipped (c : Char) : Bool :=
  c == ' ' || c == '\t' || c == '\x0c' || c == '\r'

def blankMore? (c : Char) (rest : List Char) : Option Nat :=
  if isSkipped c then some (rest.takeWhile isSkipped).length else none

/-- What stands at the front of a text: a token, or something to pass over. -/
inductive Lexeme where
  | token (terminal : Terminal) (more : Nat)
  | skipped (more : Nat)

def firstToken? (c : Char) (rest : List Char) (terminals : List Terminal) : Option Lexeme :=
  terminals.findSome? fun terminal => (terminal.more? c rest).map (.token terminal)

/-- The first thing that fits where the accepted terminals may come next. -/
def lexeme? (accepted : Terminal → Bool) (c : Char) (rest : List Char) : Option Lexeme :=
  (firstToken? c rest (Terminal.early.filter accepted)).or <|
  ((commentMore? c rest).map .skipped).or <|
  ((blankMore? c rest).map .skipped).or <|
  firstToken? c rest (Terminal.late.filter accepted)

/-- A place in a text, from line 1 and column 1 on. Only line feeds end lines. -/
structure Position where
  line : Nat
  column : Nat
  deriving DecidableEq

def Position.start : Position :=
  ⟨1, 1⟩

def Position.after (p : Position) (c : Char) : Position :=
  if c == '\n' then ⟨p.line + 1, 1⟩ else ⟨p.line, p.column + 1⟩

def Position.afterAll (p : Position) (cs : List Char) : Position :=
  cs.foldl Position.after p

structure Token where
  terminal : Terminal
  text : String
  position : Position

/-- A text that is no expression: a token that cannot come next, or a character of no token. -/
inductive SyntaxError where
  | token (token : Token)
  | character (c : Char) (position : Position)

def SyntaxError.message : SyntaxError → String
  | .token t =>
    s!"syntax error at line {t.position.line}, column {t.position.column}: unexpected " ++
      s!"Token({Text.literal t.terminal.title}, {Text.literal t.text})"
  | .character c p =>
    s!"syntax error at line {p.line}, column {p.column}: unexpected character " ++
      Text.literal (String.singleton c)

end ApiProbe.Expr
