import ApiProbe.Proofs.Expr.Lexeme
import ApiProbe.Proofs.Expr.Tree

/-!
# Written expressions

The words that a syntax tree is written with, and the texts that have blanks between any two of them.
The levels of the grammar decide where parentheses stand.
-/

namespace ApiProbe.Expr

structure Word where
  terminal : Terminal
  chars : List Char

/-- The texts that a terminal stands for. Of the separators, only the plain comma is written. -/
def Terminal.Spells : Terminal → List Char → Prop
  | .float, cs => IsFloat cs
  | .test, cs => ∃ test : Test, cs = test.sign.toList
  | .name, cs => isName (String.ofList cs) = true
  | .separator, cs => cs = [',']
  | .string, cs => IsString cs
  | .int, cs => IsDigits cs
  | .ellipsis, cs => cs = ['.', '.', '.']
  | .finish, _ => False
  | terminal, cs => ∃ c, terminal.symbol? = some c ∧ cs = [c]

def Word.Spelled (w : Word) : Prop :=
  w.terminal.Spells w.chars

def Terminal.mark (t : Terminal) : Word :=
  ⟨t, t.symbol?.toList⟩

def Word.comma : Word :=
  ⟨.separator, [',']⟩

def Word.ellipsis : Word :=
  ⟨.ellipsis, ['.', '.', '.']⟩

def Label.word : Label → Word
  | .name text => ⟨.name, text.toList⟩
  | .quoted lexeme => ⟨.string, lexeme.toList⟩

def Selector.word : Selector → Word
  | .name text => ⟨.name, text.toList⟩
  | .quoted lexeme => ⟨.string, lexeme.toList⟩
  | .digits text => ⟨.int, text.toList⟩

def Test.word (test : Test) : Word :=
  ⟨.test, test.sign.toList⟩

def operatorTerminal : Operator → Terminal
  | .add => .plus
  | .sub => .minus
  | .mul => .star
  | .div => .slash

/-- The levels of the grammar, from the loosest to the tightest. -/
inductive Level where
  | disjunction
  | conjunction
  | comparison
  | sum
  | product
  | unary
  | selection
  | primary
  deriving DecidableEq

namespace Level

def height : Level → Nat
  | .disjunction => 0
  | .conjunction => 1
  | .comparison => 2
  | .sum => 3
  | .product => 4
  | .unary => 5
  | .selection => 6
  | .primary => 7

/-- The next level, which the operands of a level are made of. -/
def tighter : Level → Level
  | .disjunction => .conjunction
  | .conjunction => .comparison
  | .comparison => .sum
  | .sum => .product
  | .product => .unary
  | .unary => .selection
  | .selection | .primary => .primary

def ofOperator : Operator → Level
  | .add | .sub => .sum
  | .mul | .div => .product

end Level

/-- The level of the rule that makes a tree. -/
def Tree.level : Tree → Level
  | .any _ => .disjunction
  | .all _ => .conjunction
  | .test .. | .bound .. => .comparison
  | .arith op .. => .ofOperator op
  | .neg _ | .not _ => .unary
  | .select .. | .index .. => .selection
  | _ => .primary

/-- The words of a tree at a place for a level: in parentheses if the tree is of a looser one. -/
def Tree.place (t : Tree) (level : Level) (words : List Word) : List Word :=
  if level.height ≤ t.level.height then words
  else Terminal.leftParen.mark :: words ++ [Terminal.rightParen.mark]

def labelWords (labels : List Label) : List Word :=
  labels.flatMap fun label => [label.word, Terminal.colon.mark]

mutual

/-- Of two operands of an operator, the left one may be of the same level. -/
def Tree.words : Tree → List Word
  | .string lexeme => [⟨.string, lexeme.toList⟩]
  | .int digits => [⟨.int, digits.toList⟩]
  | .float digits => [⟨.float, digits.toList⟩]
  | .ref name => [⟨.name, name.toList⟩]
  | .select target selector =>
    target.place .selection target.words ++ [Terminal.dot.mark, selector.word]
  | .index target key =>
    target.place .selection target.words ++ Terminal.leftBracket.mark :: key.words
      ++ [Terminal.rightBracket.mark]
  | .neg operand => Terminal.minus.mark :: operand.place .unary operand.words
  | .not operand => Terminal.bang.mark :: operand.place .unary operand.words
  | .arith op left right =>
    left.place (.ofOperator op) left.words
      ++ (operatorTerminal op).mark :: right.place (Level.ofOperator op).tighter right.words
  | .test test left right =>
    left.place .sum left.words ++ test.word :: right.place .sum right.words
  | .bound test limit => test.word :: limit.place .sum limit.words
  | .all parts => [Terminal.ampersand.mark].intercalate (operandWords .comparison parts)
  | .any options => [Terminal.bar.mark].intercalate (operandWords .conjunction options)
  | .struct fields =>
    Terminal.leftBrace.mark :: [Word.comma].intercalate (fieldWords fields)
      ++ [Terminal.rightBrace.mark]
  | .list items =>
    Terminal.leftBracket.mark :: [Word.comma].intercalate (itemWords items)
      ++ [Terminal.rightBracket.mark]

def operandWords (level : Level) : List Tree → List (List Word)
  | [] => []
  | t :: ts => t.place level t.words :: operandWords level ts

def fieldWords : List (List Label × Tree) → List (List Word)
  | [] => []
  | (labels, t) :: fields => (labelWords labels ++ t.words) :: fieldWords fields

def itemWords : List (Item Tree) → List (List Word)
  | [] => []
  | .value t :: items => t.words :: itemWords items
  | .rest :: items => [Word.ellipsis] :: itemWords items
  | .restOf t :: items => (Word.ellipsis :: t.words) :: itemWords items

end

def Document.words : Document → List Word
  | .empty => []
  | .fields all => [Word.comma].intercalate (fieldWords all)
  | .value tree => tree.words

/-- Spaces and tabs, at least one. -/
def IsGap (cs : List Char) : Prop :=
  cs ≠ [] ∧ ∀ c ∈ cs, c = ' ' ∨ c = '\t'

/-- A text of the words, with a gap between any two. -/
inductive Written : List Word → List Char → Prop
  | nil : Written [] []
  | word {w : Word} : Written [w] w.chars
  | cons {w next : Word} {words : List Word} {gap cs : List Char} (hgap : IsGap gap)
      (h : Written (next :: words) cs) : Written (w :: next :: words) (w.chars ++ (gap ++ cs))

theorem exists_written (words : List Word) : ∃ cs, Written words cs := by
  induction words with
  | nil => exact ⟨[], .nil⟩
  | cons w words ih =>
      cases words with
      | nil => exact ⟨w.chars, .word⟩
      | cons next words =>
          obtain ⟨cs, hcs⟩ := ih
          have hgap : IsGap [' '] := ⟨List.cons_ne_nil _ _, List.forall_mem_singleton.mpr (Or.inl rfl)⟩
          exact ⟨_, .cons hgap hcs⟩

/-- Takes a text apart into the words and the gaps between them. -/
def isWritten : List Word → List Char → Bool
  | [], cs => cs == []
  | [w], cs => cs == w.chars
  | w :: next :: words, cs =>
    let gap := (cs.drop w.chars.length).takeWhile fun c => c == ' ' || c == '\t'
    gap != [] && cs == w.chars ++ (gap ++ cs.drop (w.chars.length + gap.length))
      && isWritten (next :: words) (cs.drop (w.chars.length + gap.length))

theorem written_of_isWritten {words : List Word} {cs : List Char} (h : isWritten words cs = true) :
    Written words cs := by
  fun_induction isWritten words cs with
  | case1 cs =>
      obtain rfl := eq_of_beq h
      exact .nil
  | case2 w cs =>
      obtain rfl := eq_of_beq h
      exact .word
  | case3 w next words cs gap ih =>
      rw [Bool.and_eq_true, Bool.and_eq_true, bne_iff_ne, beq_iff_eq] at h
      obtain ⟨⟨hne, hcs⟩, hrest⟩ := h
      have hblank : ∀ c ∈ gap, c = ' ' ∨ c = '\t' := fun c hc => by
        simpa using List.mem_takeWhile_imp hc
      rw [hcs]
      exact .cons ⟨hne, hblank⟩ (ih hrest)

def Label.Grammatical (label : Label) : Prop :=
  label.word.Spelled

theorem Label.grammatical_name {name : String} :
    Label.Grammatical (.name name) ↔ isName name = true := by
  rw [Label.Grammatical, Word.Spelled, Label.word, Terminal.Spells, String.ofList_toList]

def Selector.Grammatical (selector : Selector) : Prop :=
  selector.word.Spelled

/-- Every field stands under a label at least. -/
def Labelled (fields : List (List Label × Tree)) : Prop :=
  ∀ f ∈ fields, f.1 ≠ [] ∧ ∀ label ∈ f.1, label.Grammatical

/-- The trees that the rules of the grammar make. Literals and names are texts of their terminals, and
a row has two members at least. -/
inductive Tree.Grammatical : Tree → Prop
  | string {lexeme : String} (h : IsString lexeme.toList) : Grammatical (.string lexeme)
  | int {digits : String} (h : IsDigits digits.toList) : Grammatical (.int digits)
  | float {digits : String} (h : IsFloat digits.toList) : Grammatical (.float digits)
  | ref {name : String} (h : isName name = true) : Grammatical (.ref name)
  | select {target : Tree} {selector : Selector} (htarget : Grammatical target)
      (hselector : selector.Grammatical) : Grammatical (.select target selector)
  | index {target key : Tree} (htarget : Grammatical target) (hkey : Grammatical key) :
      Grammatical (.index target key)
  | neg {operand : Tree} (h : Grammatical operand) : Grammatical (.neg operand)
  | not {operand : Tree} (h : Grammatical operand) : Grammatical (.not operand)
  | arith {op : Operator} {left right : Tree} (hleft : Grammatical left)
      (hright : Grammatical right) : Grammatical (.arith op left right)
  | test {test : Test} {left right : Tree} (hleft : Grammatical left) (hright : Grammatical right) :
      Grammatical (.test test left right)
  | bound {test : Test} {limit : Tree} (h : Grammatical limit) : Grammatical (.bound test limit)
  | all {parts : List Tree} (hlength : 2 ≤ parts.length) (h : ∀ t ∈ parts, Grammatical t) :
      Grammatical (.all parts)
  | any {options : List Tree} (hlength : 2 ≤ options.length) (h : ∀ t ∈ options, Grammatical t) :
      Grammatical (.any options)
  | struct {fields : List (List Label × Tree)}
      (hlabels : Labelled fields) (h : ∀ f ∈ fields, Grammatical f.2) : Grammatical (.struct fields)
  | list {items : List (Item Tree)} (h : ∀ item ∈ items, ∀ t ∈ item.value?, Grammatical t) :
      Grammatical (.list items)

/-- Fields without braces are at least one; no field at all is the empty document. -/
def Document.Grammatical : Document → Prop
  | .empty => True
  | .fields all => all ≠ [] ∧ Labelled all ∧ ∀ f ∈ all, f.2.Grammatical
  | .value tree => tree.Grammatical

end ApiProbe.Expr
