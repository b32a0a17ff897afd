import ApiProbe.Expr.Token

/-!
The parser of expressions: a stack of the constructs that are open, fed token by token. Before each
token it says which terminals it looks for; they are decided by the last token alone, so some of them
may still be refused by what is open around.
-/
namespace ApiProbe.Expr

abbrev Field := List Label × Tree

/-- A construct that waits for an operand. -/
inductive Frame where
  | neg
  | not
  | plus
  | arith (op : Operator) (left : Tree)
  | test (test : Test) (left : Tree)
  | bound (test : Test)
  | all (parts : List Tree)
  | any (options : List Tree)
  | paren
  | index (target : Tree)
  | list (items : List (Item Tree))
  | rest
  | struct (fields : List Field)
  | label (label : Label)
  | document (fields : List Field)

/-- What the last token leaves to come. -/
inductive Phase where
  | start
  | startSeparated
  | operand
  | expression
  | fieldValue
  | complete (tree : Tree)
  | labelOrOperand (label : Label)
  | selector (target : Tree)
  | structOpen
  | structSeparated
  | labelComplete (label : Label)
  | listOpen
  | listSeparated
  | ellipsis
  | documentSeparated
  | finished (tree : Tree)

structure Machine where
  phase : Phase
  frames : List Frame

def Machine.start : Machine :=
  ⟨.start, []⟩

namespace Terminal

def startsOperand : Terminal → Bool
  | .string | .int | .float | .name | .leftParen | .leftBrace | .leftBracket => true
  | .minus | .plus | .bang => true
  | _ => false

def startsExpression (t : Terminal) : Bool :=
  t == .test || t.startsOperand

/-- The terminals that go on after an operand or end what is around it. -/
def followsOperand : Terminal → Bool
  | .ampersand | .test | .dot | .leftBracket | .minus | .plus | .slash | .star | .bar => true
  | .rightBrace | .rightParen | .rightBracket | .separator | .finish => true
  | _ => false

end Terminal

/-- The terminals that are looked for in a phase. -/
def Phase.accepts : Phase → Terminal → Bool
  | .start, t => t.startsExpression || t == .separator || t == .finish
  | .startSeparated, t => t.startsExpression || t == .finish
  | .operand, t => t.startsOperand
  | .expression, t | .fieldValue, t => t.startsExpression
  | .complete _, t => t.followsOperand
  | .labelOrOperand _, t =>
    t == .colon || (t.followsOperand && t != .rightParen && t != .rightBracket)
  | .selector _, t => t == .name || t == .string || t == .int
  | .structOpen, t => t == .name || t == .string || t == .rightBrace || t == .separator
  | .structSeparated, t => t == .name || t == .string || t == .rightBrace
  | .labelComplete _, t => t == .colon
  | .listOpen, t =>
    t.startsExpression || t == .ellipsis || t == .rightBracket || t == .separator
  | .listSeparated, t => t.startsExpression || t == .ellipsis || t == .rightBracket
  | .ellipsis, t => t.startsExpression || t == .rightBracket || t == .separator
  | .documentSeparated, t => t == .name || t == .string || t == .finish
  | .finished _, t => t == .finish

def testOf (text : String) : Test :=
  if text == "==" then .eq
  else if text == "!=" then .ne
  else if text == "<=" then .order .le
  else if text == ">=" then .order .ge
  else if text == "=~" then .pattern true
  else if text == "!~" then .pattern false
  else if text == "<" then .order .lt
  else .order .gt

/-! An operand and the frames around it, after closing all that binds at least as tightly as the named
construct. -/

def closeUnary : Tree → List Frame → Tree × List Frame
  | t, .neg :: frames => closeUnary (.neg t) frames
  | t, .not :: frames => closeUnary (.not t) frames
  | t, .plus :: frames => closeUnary t frames
  | t, frames => (t, frames)

def closeProduct (t : Tree) (frames : List Frame) : Tree × List Frame :=
  match closeUnary t frames with
  | (t, .arith .mul left :: frames) => (.arith .mul left t, frames)
  | (t, .arith .div left :: frames) => (.arith .div left t, frames)
  | closed => closed

def closeSum (t : Tree) (frames : List Frame) : Tree × List Frame :=
  match closeProduct t frames with
  | (t, .arith .add left :: frames) => (.arith .add left t, frames)
  | (t, .arith .sub left :: frames) => (.arith .sub left t, frames)
  | closed => closed

def closeTest (t : Tree) (frames : List Frame) : Tree × List Frame :=
  match closeSum t frames with
  | (t, .test test left :: frames) => (.test test left t, frames)
  | (t, .bound test :: frames) => (.bound test t, frames)
  | closed => closed

def closeAll (t : Tree) (frames : List Frame) : Tree × List Frame :=
  match closeTest t frames with
  | (t, .all parts :: frames) => (.all (parts ++ [t]), frames)
  | closed => closed

def closeExpression (t : Tree) (frames : List Frame) : Tree × List Frame :=
  match closeAll t frames with
  | (t, .any options :: frames) => (.any (options ++ [t]), frames)
  | closed => closed

/-- The field that a value ends: the labels that are open in front of it. -/
def closeLabels (labels : List Label) : List Frame → List Label × List Frame
  | .label label :: frames => closeLabels (label :: labels) frames
  | frames => (labels, frames)

def begin? (frames : List Frame) (t : Token) : Option Machine :=
  match t.terminal with
  | .test => some ⟨.operand, .bound (testOf t.text) :: frames⟩
  | .string => some ⟨.complete (.string t.text), frames⟩
  | .int => some ⟨.complete (.int t.text), frames⟩
  | .float => some ⟨.complete (.float t.text), frames⟩
  | .name => some ⟨.complete (.ref t.text), frames⟩
  | .leftParen => some ⟨.expression, .paren :: frames⟩
  | .leftBrace => some ⟨.structOpen, .struct [] :: frames⟩
  | .leftBracket => some ⟨.listOpen, .list [] :: frames⟩
  | .minus => some ⟨.operand, .neg :: frames⟩
  | .plus => some ⟨.operand, .plus :: frames⟩
  | .bang => some ⟨.operand, .not :: frames⟩
  | _ => none

/-- As `begin?` where a name or a string may turn out to be a label. -/
def beginField? (frames : List Frame) (t : Token) : Option Machine :=
  match t.terminal with
  | .name => some ⟨.labelOrOperand (.name t.text), frames⟩
  | .string => some ⟨.labelOrOperand (.quoted t.text), frames⟩
  | _ => begin? frames t

def Label.operand : Label → Tree
  | .name text => .ref text
  | .quoted text => .string text

def closeItem? (t : Tree) (frames : List Frame) : Option (List (Item Tree) × List Frame) :=
  match closeExpression t frames with
  | (t, .list items :: frames) => some (items ++ [.value t], frames)
  | (t, .rest :: .list items :: frames) => some (items ++ [.restOf t], frames)
  | _ => none

def closeField? (t : Tree) (frames : List Frame) : Option (Field × List Frame) :=
  let (t, frames) := closeExpression t frames
  match closeLabels [] frames with
  | ([], _) => none
  | (labels, frames) => some ((labels, t), frames)

def addTest? (t : Tree) (frames : List Frame) (test : Test) : Option Machine :=
  match closeSum t frames with
  | (_, .test .. :: _) | (_, .bound _ :: _) => none
  | (t, frames) => some ⟨.operand, .test test t :: frames⟩

def addPart (t : Tree) (frames : List Frame) : Machine :=
  match closeTest t frames with
  | (t, .all parts :: frames) => ⟨.expression, .all (parts ++ [t]) :: frames⟩
  | (t, frames) => ⟨.expression, .all [t] :: frames⟩

def addOption (t : Tree) (frames : List Frame) : Machine :=
  match closeAll t frames with
  | (t, .any options :: frames) => ⟨.expression, .any (options ++ [t]) :: frames⟩
  | (t, frames) => ⟨.expression, .any [t] :: frames⟩

def closeBracket? (t : Tree) (frames : List Frame) : Option Machine :=
  match closeExpression t frames with
  | (key, .index target :: frames) => some ⟨.complete (.index target key), frames⟩
  | _ => (closeItem? t frames).map fun (items, frames) => ⟨.complete (.list items), frames⟩

def closeBrace? (t : Tree) (frames : List Frame) : Option Machine :=
  match closeField? t frames with
  | some (field, .struct fields :: frames) =>
    some ⟨.complete (.struct (fields ++ [field])), frames⟩
  | _ => none

/-- Ends an item, a field or the expression of the document. -/
def separate? (t : Tree) (frames : List Frame) : Option Machine :=
  match closeItem? t frames with
  | some (items, frames) => some ⟨.listSeparated, .list items :: frames⟩
  | none =>
    match closeField? t frames with
    | some (field, .struct fields :: frames) =>
      some ⟨.structSeparated, .struct (fields ++ [field]) :: frames⟩
    | some (field, .document fields :: frames) =>
      some ⟨.documentSeparated, .document (fields ++ [field]) :: frames⟩
    | _ =>
      match closeExpression t frames with
      | (t, []) => some ⟨.finished t, []⟩
      | _ => none

/-- The state after a token that follows a complete operand. -/
def continue? (tree : Tree) (frames : List Frame) (t : Token) : Option Machine :=
  match t.terminal with
  | .dot => some ⟨.selector tree, frames⟩
  | .leftBracket => some ⟨.expression, .index tree :: frames⟩
  | .star =>
    let (left, frames) := closeProduct tree frames
    some ⟨.operand, .arith .mul left :: frames⟩
  | .slash =>
    let (left, frames) := closeProduct tree frames
    some ⟨.operand, .arith .div left :: frames⟩
  | .plus =>
    let (left, frames) := closeSum tree frames
    some ⟨.operand, .arith .add left :: frames⟩
  | .minus =>
    let (left, frames) := closeSum tree frames
    some ⟨.operand, .arith .sub left :: frames⟩
  | .test => addTest? tree frames (testOf t.text)
  | .ampersand => some (addPart tree frames)
  | .bar => some (addOption tree frames)
  | .rightParen =>
    match closeExpression tree frames with
    | (inner, .paren :: frames) => some ⟨.complete inner, frames⟩
    | _ => none
  | .rightBracket => closeBracket? tree frames
  | .rightBrace => closeBrace? tree frames
  | .separator => separate? tree frames
  | _ => none

/-- A label in front of a value; the first one of a document opens its fields. -/
def pushLabel (label : Label) (frames : List Frame) : Machine :=
  match frames with
  | [] => ⟨.fieldValue, [.label label, .document []]⟩
  | frames => ⟨.fieldValue, .label label :: frames⟩

def labelOf? (t : Token) : Option Label :=
  match t.terminal with
  | .name => some (.name t.text)
  | .string => some (.quoted t.text)
  | _ => none

def selectorOf? (t : Token) : Option Selector :=
  match t.terminal with
  | .name => some (.name t.text)
  | .string => some (.quoted t.text)
  | .int => some (.digits t.text)
  | _ => none

/-- A token where a list goes on: its end, the rest, or an item. -/
def continueList? (frames : List Frame) (t : Token) : Option Machine :=
  match t.terminal, frames with
  | .rightBracket, .list items :: frames => some ⟨.complete (.list items), frames⟩
  | .ellipsis, frames => some ⟨.ellipsis, .rest :: frames⟩
  | _, frames => begin? frames t

/-- A token where a struct goes on: its end, or a label. -/
def continueStruct? (frames : List Frame) (t : Token) : Option Machine :=
  match t.terminal, frames with
  | .rightBrace, .struct fields :: frames => some ⟨.complete (.struct fields), frames⟩
  | _, frames => (labelOf? t).map fun label => ⟨.labelComplete label, frames⟩

def Machine.feed? (m : Machine) (t : Token) : Option Machine :=
  match m.phase with
  | .start =>
    if t.terminal == .separator then some ⟨.startSeparated, m.frames⟩ else beginField? m.frames t
  | .startSeparated | .fieldValue => beginField? m.frames t
  | .operand => if t.terminal == .test then none else begin? m.frames t
  | .expression => begin? m.frames t
  | .complete tree => continue? tree m.frames t
  | .labelOrOperand label =>
    if t.terminal == .colon then some (pushLabel label m.frames)
    else continue? label.operand m.frames t
  | .selector target =>
    (selectorOf? t).map fun selector => ⟨.complete (.select target selector), m.frames⟩
  | .structOpen =>
    if t.terminal == .separator then some ⟨.structSeparated, m.frames⟩
    else continueStruct? m.frames t
  | .structSeparated => continueStruct? m.frames t
  | .labelComplete label => if t.terminal == .colon then some (pushLabel label m.frames) else none
  | .listOpen =>
    if t.terminal == .separator then some ⟨.listSeparated, m.frames⟩ else continueList? m.frames t
  | .listSeparated => continueList? m.frames t
  | .ellipsis =>
    match t.terminal, m.frames with
    | .rightBracket, .rest :: .list items :: frames =>
      some ⟨.complete (.list (items ++ [.rest])), frames⟩
    | .separator, .rest :: .list items :: frames =>
      some ⟨.listSeparated, .list (items ++ [.rest]) :: frames⟩
    | _, frames => begin? frames t
  | .documentSeparated => (labelOf? t).map fun label => ⟨.labelComplete label, m.frames⟩
  | .finished _ => none

def Machine.finish? (m : Machine) : Option Document :=
  let close (t : Tree) : Option Document :=
    match closeField? t m.frames with
    | some (field, [.document fields]) => some (.fields (fields ++ [field]))
    | _ =>
      match closeExpression t m.frames with
      | (t, []) => some (.value t)
      | _ => none
  match m.phase, m.frames with
  | .start, _ | .startSeparated, _ => some .empty
  | .complete t, _ => close t
  | .labelOrOperand label, _ => close label.operand
  | .documentSeparated, [.document fields] => some (.fields fields)
  | .finished t, _ => some (.value t)
  | _, _ => none

/-- Feeds a text from a place on; `last` is where the last token started. -/
def Machine.run (m : Machine) (last position : Position) :
    List Char → Except SyntaxError Document
  | [] =>
    match m.finish? with
    | some document => .ok document
    | none => .error (.token ⟨.finish, "", last⟩)
  | c :: rest =>
    match lexeme? m.phase.accepts c rest with
    | some (.skipped more) =>
      m.run last (position.afterAll (c :: rest.take more)) (rest.drop more)
    | some (.token terminal more) =>
      let chars := c :: rest.take more
      let t : Token := ⟨terminal, String.ofList chars, position⟩
      match m.feed? t with
      | some next => next.run position (position.afterAll chars) (rest.drop more)
      | none => .error (.token t)
    | none =>
      match firstToken? c rest (Terminal.early ++ Terminal.late) with
      | some (.token terminal more) =>
        .error (.token ⟨terminal, String.ofList (c :: rest.take more), position⟩)
      | _ => .error (.character c position)
  termination_by cs => cs.length
  decreasing_by
    all_goals
      simp only [List.length_cons, List.length_drop]
      omega

def parse (text : String) : Except SyntaxError Document :=
  Machine.start.run .start .start text.toList

end ApiProbe.Expr
