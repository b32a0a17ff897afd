import ApiProbe.Expr.Machine

/-!
# Well-formed trees

Only a bar between two expressions makes an alternative, so every alternative in a tree has an option.
-/

namespace ApiProbe.Expr

def Item.value? {α : Type} : Item α → Option α
  | .value a | .restOf a => some a
  | .rest => none

inductive Tree.WellFormed : Tree → Prop
  | string {lexeme : String} : WellFormed (.string lexeme)
  | int {digits : String} : WellFormed (.int digits)
  | float {digits : String} : WellFormed (.float digits)
  | ref {name : String} : WellFormed (.ref name)
  | select {target : Tree} {selector : Selector} (htarget : WellFormed target) :
      WellFormed (.select target selector)
  | index {target key : Tree} (htarget : WellFormed target) (hkey : WellFormed key) :
      WellFormed (.index target key)
  | neg {operand : Tree} (h : WellFormed operand) : WellFormed (.neg operand)
  | not {operand : Tree} (h : WellFormed operand) : WellFormed (.not operand)
  | arith {op : Operator} {left right : Tree} (hleft : WellFormed left)
      (hright : WellFormed right) : WellFormed (.arith op left right)
  | test {test : Test} {left right : Tree} (hleft : WellFormed left) (hright : WellFormed right) :
      WellFormed (.test test left right)
  | bound {test : Test} {limit : Tree} (h : WellFormed limit) : WellFormed (.bound test limit)
  | all {parts : List Tree} (h : ∀ t ∈ parts, WellFormed t) : WellFormed (.all parts)
  | any {options : List Tree} (hne : options ≠ []) (h : ∀ t ∈ options, WellFormed t) :
      WellFormed (.any options)
  | struct {fields : List (List Label × Tree)} (h : ∀ f ∈ fields, WellFormed f.2) :
      WellFormed (.struct fields)
  | list {items : List (Item Tree)} (h : ∀ item ∈ items, ∀ t ∈ item.value?, WellFormed t) :
      WellFormed (.list items)

def Document.WellFormed : Document → Prop
  | .empty => True
  | .fields all => ∀ f ∈ all, f.2.WellFormed
  | .value tree => tree.WellFormed

end ApiProbe.Expr
