import ApiProbe.Value.Arithmetic

/-!
Syntax trees of expressions. Literals keep the text they were written with; parentheses and a leading
plus leave no trace.
-/
namespace ApiProbe.Expr

/-- The operators that compare two operands or bound one. -/
inductive Test where
  | eq
  | ne
  | order (order : Order)
  | pattern (wanted : Bool)
  deriving DecidableEq

def Test.sign : Test → String
  | .eq => "=="
  | .ne => "!="
  | .order o => o.sign
  | .pattern wanted => if wanted then "=~" else "!~"

inductive Label where
  | name (name : String)
  | quoted (lexeme : String)
  deriving DecidableEq

inductive Selector where
  | name (name : String)
  | quoted (lexeme : String)
  | digits (digits : String)
  deriving DecidableEq

/-- An item of a list: a value, or the rest with or without a value for its items. -/
inductive Item (α : Type) where
  | value (a : α)
  | rest
  | restOf (a : α)

/-- A field is a row of labels, at least one, with the value that stands under all of them. -/
inductive Tree where
  | string (lexeme : String)
  | int (digits : String)
  | float (digits : String)
  | ref (name : String)
  | select (target : Tree) (selector : Selector)
  | index (target key : Tree)
  | neg (operand : Tree)
  | not (operand : Tree)
  | arith (op : Operator) (left right : Tree)
  | test (test : Test) (left right : Tree)
  | bound (test : Test) (limit : Tree)
  | all (parts : List Tree)
  | any (options : List Tree)
  | struct (fields : List (List Label × Tree))
  | list (items : List (Item Tree))

/-- A whole text: nothing, fields without braces, or one expression. -/
inductive Document where
  | empty
  | fields (fields : List (List Label × Tree))
  | value (value : Tree)

end ApiProbe.Expr
