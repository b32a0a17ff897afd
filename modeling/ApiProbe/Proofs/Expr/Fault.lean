import ApiProbe.Language
import ApiProbe.Proofs.Expr.Conjuncts
import ApiProbe.Proofs.Number.Digits
import ApiProbe.Proofs.Unify.Repetition

/-!
# Where evaluation breaks off

An expression without a value is refused, and the refusal names the expression and its source. Four
things escape that: a whole number that cannot be read, one that has no float near it, a pattern whose
refusal has no words, and words that would have to show a whole number beyond the digit limit.
-/

namespace ApiProbe

/-- The fault that a text is, which is not read as a whole number. -/
def Numeral.IntError.fault (text : String) : IntError → Fault
  | .malformed => .malformedNumeral text
  | .tooLong count => .numeralTooLong count

/-- The fault that a refused pattern is, where the refusal has no words. -/
def Pattern.Refusal.fault? : Refusal → Option Fault
  | .numeralTooLong digits => some (.numeralTooLong digits)
  | .mixedFlags => some .mixedFlags
  | .repetitionTooLarge => some .repetitionTooLarge
  | _ => none

namespace Expr

open Value (lookup? unify)

variable {α : Type} {fault : Fault} {v : Value}

theorem refuse_eq_fault {refusal : Refusal} (h : (refuse refusal : Result α) = .error (.fault fault)) :
    refusal.printable = false ∧ fault = .unprintable := by
  rw [refuse] at h
  split at h
  · cases h
  · rename_i hwords
    cases h
    exact ⟨by simpa using hwords, rfl⟩

theorem refuse_ne_fault {refusal : Refusal} (h : refusal.printable = true) :
    (refuse refusal : Result α) ≠ .error (.fault fault) := by
  intro hfault
  rw [(refuse_eq_fault hfault).1] at h
  cases h

theorem stringOf_ne_fault {lexeme : String} : stringOf lexeme ≠ .error (.fault fault) := by
  rw [stringOf]
  split
  · intro h; cases h
  · exact refuse_ne_fault rfl

theorem eval_label_ne_fault {label : Label} : label.eval ≠ .error (.fault fault) := by
  cases label with
  | name text => intro h; cases h
  | quoted lexeme => exact stringOf_ne_fault

theorem eval_selector_ne_fault {selector : Selector} : selector.eval ≠ .error (.fault fault) := by
  cases selector with
  | quoted lexeme => exact stringOf_ne_fault
  | _ => intro h; cases h

theorem number_ne_fault {a : Atom} : number a ≠ .error (.fault fault) := by
  cases a with
  | float x =>
      rw [number]
      split
      · intro h; cases h
      · exact refuse_ne_fault rfl
  | _ => intro h; cases h

theorem resolve_ne_fault {scope : List (String × Value)} {name : String} :
    resolve scope name ≠ .error (.fault fault) := by
  rw [resolve]
  split
  · intro h; cases h
  · exact refuse_ne_fault rfl

theorem intOf_eq_fault_iff {digits : String} :
    intOf digits = .error (.fault fault) ↔
      ∃ error, Numeral.readInt digits = .error error ∧ fault = error.fault digits := by
  rw [intOf]
  split <;> rename_i hread <;> rw [hread] <;> simp [Numeral.IntError.fault, eq_comm]

theorem concrete_eq_fault {sign : String} (h : concrete sign v = .error (.fault fault)) :
    fault = .unprintable ∧ v.printable = false := by
  cases v with
  | atom a => cases h
  | _ => exact (refuse_eq_fault h).symm

theorem itemAt_eq_fault {items : List Value} {tail : Option Value} {i : Int}
    (h : itemAt items tail i = .error (.fault fault)) :
    fault = .unprintable ∧ Numeral.fits i = false := by
  rw [itemAt] at h
  split at h
  · exact (refuse_eq_fault h).symm
  · split at h
    · cases h
    · exact (refuse_eq_fault h).symm

theorem select_eq_fault {name : String} (h : select v name = .error (.fault fault)) :
    (∃ items tail error, v = .list items tail ∧ isIndexName name = true ∧
        Numeral.readInt name = .error error ∧ fault = error.fault name) ∨
      fault = .unprintable ∧ v.printable = false := by
  rw [select.eq_def] at h
  split at h
  · rename_i items tail
    split at h
    · rename_i hname
      rw [selectIndex] at h
      split at h
      · rename_i i hread
        have hlong := (itemAt_eq_fault h).2
        rw [Numeral.fits_of_readInt hread] at hlong
        cases hlong
      · rename_i count hread
        cases h
        exact Or.inl ⟨items, tail, _, rfl, hname, hread, rfl⟩
      · rename_i hread
        cases h
        exact Or.inl ⟨items, tail, _, rfl, hname, hread, rfl⟩
    · exact Or.inr (refuse_eq_fault h).symm
  · split at h
    · cases h
    · exact absurd h (refuse_ne_fault rfl)
  · exact Or.inr (refuse_eq_fault h).symm

theorem index_eq_fault {key : Value} (h : index v key = .error (.fault fault)) :
    fault = .unprintable ∧ (v.printable = false ∨ key.printable = false) := by
  rw [index.eq_def] at h
  split at h
  · obtain ⟨rfl, hlong⟩ := itemAt_eq_fault h
    exact ⟨rfl, Or.inr hlong⟩
  · rw [select] at h
    split at h
    · cases h
    · exact absurd h (refuse_ne_fault rfl)
  · obtain ⟨hwords, rfl⟩ := refuse_eq_fault h
    rw [Refusal.printable, Bool.and_eq_false_iff] at hwords
    exact ⟨rfl, hwords.symm⟩
  · obtain ⟨hwords, rfl⟩ := refuse_eq_fault h
    exact ⟨rfl, Or.inr hwords⟩

theorem negate_eq_fault (h : negate v = .error (.fault fault)) :
    fault = .unprintable ∧ v.printable = false := by
  rw [negate, bind_eq_error_iff] at h
  rcases h with h | ⟨a, ha, h⟩
  · exact concrete_eq_fault h
  · obtain rfl := concrete_eq_ok ha
    split at h
    · cases h
    · exact absurd h number_ne_fault
    · exact (refuse_eq_fault h).symm

theorem complement_eq_fault (h : complement v = .error (.fault fault)) :
    fault = .unprintable ∧ v.printable = false := by
  rw [complement, bind_eq_error_iff] at h
  rcases h with h | ⟨a, ha, h⟩
  · exact concrete_eq_fault h
  · obtain rfl := concrete_eq_ok ha
    split at h
    · cases h
    · exact (refuse_eq_fault h).symm

/-- Two operands have to be atoms, and then a function decides. -/
theorem concrete_both_eq_fault {sign : String} {left right : Value} {f : Atom → Atom → Result α}
    (h : (do
      let a ← concrete sign left
      let b ← concrete sign right
      f a b) = .error (.fault fault)) :
    (∃ a b, left = .atom a ∧ right = .atom b ∧ f a b = .error (.fault fault)) ∨
      fault = .unprintable ∧ (left.printable = false ∨ right.printable = false) := by
  rcases bind_eq_error_iff.mp h with h | ⟨a, ha, h⟩
  · exact Or.inr ((concrete_eq_fault h).imp_right Or.inl)
  · rcases bind_eq_error_iff.mp h with h | ⟨b, hb, h⟩
    · exact Or.inr ((concrete_eq_fault h).imp_right Or.inr)
    · exact Or.inl ⟨a, b, concrete_eq_ok ha, concrete_eq_ok hb, h⟩

theorem calculate_eq_fault {op : Operator} {a b : Atom}
    (h : calculate op a b = .error (.fault fault)) :
    (a.calculate op b = some (.error fault) ∧ ¬ (op = .div ∧ b.isZero = true)) ∨
      fault = .unprintable ∧ (a.printable = false ∨ b.printable = false) := by
  rw [calculate.eq_def] at h
  split at h
  · cases h
  · split at h
    · obtain ⟨hwords, rfl⟩ := refuse_eq_fault h
      rw [Refusal.printable, Bool.and_eq_false_iff] at hwords
      exact Or.inr ⟨rfl, hwords⟩
    · rename_i result hresult
      split at h
      · exact absurd h (refuse_ne_fault rfl)
      · rename_i hzero
        left
        rcases bind_eq_error_iff.mp h with h | ⟨c, _, h⟩
        · cases result with
          | ok c => cases h
          | error fault' =>
              cases h
              exact ⟨hresult, by simpa using hzero⟩
        · exact absurd h number_ne_fault

theorem arith_eq_fault {op : Operator} {left right : Value}
    (h : arith op left right = .error (.fault fault)) :
    (∃ a b, left = .atom a ∧ right = .atom b ∧ a.calculate op b = some (.error fault) ∧
        ¬ (op = .div ∧ b.isZero = true)) ∨
      fault = .unprintable ∧ (left.printable = false ∨ right.printable = false) := by
  rw [arith.eq_def] at h
  split at h
  · cases h
  · exact absurd h (refuse_ne_fault rfl)
  · rcases concrete_both_eq_fault h with ⟨a, b, rfl, rfl, h⟩ | hwords
    · rcases calculate_eq_fault h with ⟨hresult, hzero⟩ | hwords
      · exact Or.inl ⟨a, b, rfl, rfl, hresult, hzero⟩
      · exact Or.inr hwords
    · exact Or.inr hwords

theorem checkPattern_eq_fault_iff {pattern : String} :
    checkPattern pattern = .error (.fault fault) ↔
      ∃ refusal, Pattern.compile pattern = .error refusal ∧ refusal.fault? = some fault := by
  rw [checkPattern]
  cases Pattern.compile pattern with
  | ok compiled => simp
  | error refusal =>
      cases refusal with
      | repetitionTooLarge | numeralTooLong | mixedFlags =>
          simp [Pattern.Refusal.message?, Pattern.Refusal.fault?]
      | _ =>
          simp only [Pattern.Refusal.message?, Except.error.injEq, exists_eq_left',
            Pattern.Refusal.fault?, reduceCtorEq, iff_false]
          exact refuse_ne_fault rfl

theorem compare_eq_fault {test : Test} {left right : Value}
    (h : compare test left right = .error (.fault fault)) :
    (∃ wanted text pattern, test = .pattern wanted ∧ left = .atom (.string text) ∧
        right = .atom (.string pattern) ∧ checkPattern pattern = .error (.fault fault)) ∨
      fault = .unprintable ∧ (left.printable = false ∨ right.printable = false) := by
  rcases concrete_both_eq_fault h with ⟨a, b, rfl, rfl, htest⟩ | hwords
  · clear h
    rcases bind_eq_error_iff.mp htest with h | ⟨truth, _, h⟩
    · rw [testAtoms.eq_def] at h
      split at h
      · cases h
      · cases h
      · split at h
        · cases h
        · obtain ⟨hwords, rfl⟩ := refuse_eq_fault h
          rw [Refusal.printable, Bool.and_eq_false_iff] at hwords
          exact Or.inr ⟨rfl, hwords⟩
      · split at h
        · rename_i wanted _ _ text pattern
          rcases bind_eq_error_iff.mp h with h | ⟨_, _, h⟩
          · exact Or.inl ⟨wanted, text, pattern, rfl, rfl, rfl, h⟩
          · cases h
        · obtain ⟨hwords, rfl⟩ := refuse_eq_fault h
          rw [Refusal.printable, Bool.and_eq_false_iff] at hwords
          exact Or.inr ⟨rfl, hwords⟩
    · cases h
  · exact Or.inr hwords

theorem boundBy_eq_fault {test : Test} {a : Atom} (h : boundBy test a = .error (.fault fault)) :
    (∃ wanted pattern, test = .pattern wanted ∧ a = .string pattern ∧
        checkPattern pattern = .error (.fault fault)) ∨
      fault = .unprintable ∧ a.printable = false := by
  cases test with
  | eq => exact absurd h (refuse_ne_fault rfl)
  | ne => cases h
  | order o =>
      rw [boundBy] at h
      split at h
      · cases h
      · exact Or.inr (refuse_eq_fault h).symm
  | pattern wanted =>
      cases a with
      | string pattern =>
          rcases bind_eq_error_iff.mp h with h | ⟨_, _, h⟩
          · exact Or.inl ⟨wanted, pattern, rfl, rfl, h⟩
          · cases h
      | _ => exact Or.inr (refuse_eq_fault h).symm

theorem bound_eq_fault {test : Test} (h : bound test v = .error (.fault fault)) :
    (∃ wanted pattern, test = .pattern wanted ∧ v = .atom (.string pattern) ∧
        checkPattern pattern = .error (.fault fault)) ∨
      fault = .unprintable ∧ v.printable = false := by
  rw [bound.eq_def] at h
  split at h
  · exact absurd h (refuse_ne_fault rfl)
  · rcases bind_eq_error_iff.mp h with hlimit | ⟨a, ha, hlimit⟩
    · exact Or.inr (concrete_eq_fault hlimit)
    · obtain rfl := concrete_eq_ok ha
      rcases bind_eq_error_iff.mp hlimit with hby | ⟨_, _, hby⟩
      · rcases boundBy_eq_fault hby with ⟨wanted, pattern, rfl, rfl, hcheck⟩ | hwords
        · exact Or.inl ⟨wanted, pattern, rfl, rfl, hcheck⟩
        · exact Or.inr hwords
      · cases hby

/-- Values whose whole numbers can all be written do not clash without words. -/
theorem unify_ne_unprintable {a b : Value} (ha : a.printable = true) (hb : b.printable = true) :
    unify a b ≠ .error .unprintable :=
  Value.unifyAt_ne_unprintable ha hb

theorem meet_eq_fault {first : Value} {rest : List Value} (hfirst : first.WellFormed)
    (hrest : ∀ v ∈ rest, v.WellFormed) (h : meet first rest = .error (.fault fault)) :
    fault = .unprintable ∧ ∃ v ∈ first :: rest, v.printable = false := by
  obtain ⟨merged, ⟨_, hmerged⟩, part, hpart, hclash⟩ := foldlM_eq_error
    (P := fun merged : Value => merged.WellFormed ∧
      ((∀ v ∈ first :: rest, v.printable = true) → merged.printable = true))
    ⟨hfirst, fun hall => hall first List.mem_cons_self⟩ (fun merged hmerged part hpart next hnext => by
      split at hnext
      · rename_i hunify
        obtain rfl := Except.ok.inj hnext
        have hpartwell := hrest part hpart
        exact ⟨Value.wellFormed_unify hmerged.1 hpartwell hunify, fun hall =>
          Value.printable_unify hmerged.1 hpartwell (hmerged.2 hall)
            (hall part (List.mem_cons_of_mem _ hpart)) hunify⟩
      · exact absurd hnext refuse_ne_ok
      · cases hnext) h
  split at hclash
  · cases hclash
  · exact absurd hclash (refuse_ne_fault rfl)
  · rename_i hunify
    cases hclash
    refine ⟨rfl, ?_⟩
    by_contra hnone
    have hall : ∀ v ∈ first :: rest, v.printable = true := by simpa using hnone
    exact unify_ne_unprintable (hmerged hall) (hall part (List.mem_cons_of_mem _ hpart)) hunify

section Structs

variable {label : String} {value : Value} {fields done merged : List (String × Value)}

theorem putField_eq_fault (h : putField label value done = .error (.fault fault)) :
    fault = .unprintable ∧ ∃ f ∈ done, unify f.2 value = .error .unprintable := by
  induction done with
  | nil => cases h
  | cons field done ih =>
      obtain ⟨name, old⟩ := field
      rw [putField] at h
      split at h
      · split at h
        · cases h
        · exact absurd h (refuse_ne_fault rfl)
        · rename_i hunify
          cases h
          exact ⟨rfl, _, List.mem_cons_self, hunify⟩
      · obtain ⟨rfl, f, hf, hunify⟩ := ih (map_eq_error_iff.mp h)
        exact ⟨rfl, f, List.mem_cons_of_mem _ hf, hunify⟩

theorem printable_putField (hvalue : value.WellFormed) (hdone : ∀ f ∈ done, f.2.WellFormed)
    (hvalueprints : value.printable = true) (hdoneprints : ∀ f ∈ done, f.2.printable = true)
    (h : putField label value done = .ok merged) : ∀ f ∈ merged, f.2.printable = true := by
  induction done generalizing merged with
  | nil =>
      obtain rfl := Except.ok.inj h
      simpa using hvalueprints
  | cons field done ih =>
      obtain ⟨name, old⟩ := field
      rw [List.forall_mem_cons] at hdone hdoneprints
      rw [putField] at h
      split at h
      · split at h
        · rename_i hunify
          obtain rfl := Except.ok.inj h
          rw [List.forall_mem_cons]
          exact ⟨Value.printable_unify hdone.1 hvalue hdoneprints.1 hvalueprints hunify,
            hdoneprints.2⟩
        · exact absurd h refuse_ne_ok
        · cases h
      · obtain ⟨rest, hrest, rfl⟩ := map_eq_ok_iff.mp h
        rw [List.forall_mem_cons]
        exact ⟨hdoneprints.1, ih hdone.2 hdoneprints.2 hrest⟩

theorem structOf_eq_fault (hfields : ∀ f ∈ fields, f.2.WellFormed)
    (h : structOf fields = .error (.fault fault)) :
    fault = .unprintable ∧ ∃ f ∈ fields, f.2.printable = false := by
  obtain ⟨done, hdone, field, hfield, hclash⟩ := foldlM_eq_error
    (P := fun done : List (String × Value) => (Value.struct done).WellFormed ∧
      ((∀ f ∈ fields, f.2.printable = true) → ∀ f ∈ done, f.2.printable = true))
    ⟨by simp, by simp⟩ (fun done hdone field hfield next hnext =>
      ⟨wellFormed_putField (hfields field hfield) hdone.1 hnext, fun hall =>
        printable_putField (hfields field hfield) (Value.wellFormed_struct.mp hdone.1).2
          (hall field hfield) (hdone.2 hall) hnext⟩) (map_eq_error_iff.mp h)
  obtain ⟨rfl, f, hf, hunify⟩ := putField_eq_fault hclash
  refine ⟨rfl, ?_⟩
  by_contra hnone
  have hall : ∀ f ∈ fields, f.2.printable = true := by simpa using hnone
  exact unify_ne_unprintable (hdone.2 hall f hf) (hall field hfield) hunify

theorem printable_nest (labels : List String) (value : Value) :
    (nest labels value).printable = value.printable := by
  induction labels with
  | nil => rfl
  | cons label labels ih =>
      have hnest : nest (label :: labels) value = .struct [(label, nest labels value)] := rfl
      rw [hnest, Value.printable, Value.printableFields, Value.printableFields, Bool.and_true, ih]

end Structs

theorem listOf_ne_fault {items : List (Item Value)} : listOf items ≠ .error (.fault fault) := by
  induction items with
  | nil => intro h; cases h
  | cons item items ih =>
      cases item with
      | value v => exact fun h => ih (map_eq_error_iff.mp h)
      | rest | restOf =>
          cases items with
          | nil => intro h; cases h
          | cons => exact refuse_ne_fault rfl

variable {scope : Scope}

theorem evalAll_eq_fault {trees : List Tree} (h : evalAll scope trees = .error (.fault fault)) :
    ∃ t ∈ trees, t.eval scope = .error (.fault fault) := by
  induction trees with
  | nil => rw [evalAll] at h; cases h
  | cons t trees ih =>
      rw [evalAll] at h
      rcases bind_eq_error_iff.mp h with h | ⟨v, _, h⟩
      · exact ⟨t, List.mem_cons_self, h⟩
      · rcases bind_eq_error_iff.mp h with h | ⟨_, _, h⟩
        · obtain ⟨t', ht', h⟩ := ih h
          exact ⟨t', List.mem_cons_of_mem _ ht', h⟩
        · cases h

theorem mapM_eval_label_ne_fault {labels : List Label} :
    labels.mapM Label.eval ≠ .error (.fault fault) := by
  induction labels with
  | nil => intro h; cases h
  | cons label labels ih =>
      rw [List.mapM_cons]
      intro h
      rcases bind_eq_error_iff.mp h with h | ⟨_, _, h⟩
      · exact eval_label_ne_fault h
      · rcases bind_eq_error_iff.mp h with h | ⟨_, _, h⟩
        · exact ih h
        · cases h

theorem evalFields_eq_fault {fields : List (List Label × Tree)}
    (h : evalFields scope fields = .error (.fault fault)) :
    ∃ f ∈ fields, f.2.eval scope = .error (.fault fault) := by
  induction fields with
  | nil => rw [evalFields] at h; cases h
  | cons field fields ih =>
      obtain ⟨labels, t⟩ := field
      rw [evalFields] at h
      rcases bind_eq_error_iff.mp h with h | ⟨names, _, h⟩
      · exact absurd h mapM_eval_label_ne_fault
      rcases bind_eq_error_iff.mp h with h | ⟨v, _, h⟩
      · exact ⟨_, List.mem_cons_self, h⟩
      rcases bind_eq_error_iff.mp h with h | ⟨rest, _, h⟩
      · obtain ⟨f, hf, h⟩ := ih h
        exact ⟨f, List.mem_cons_of_mem _ hf, h⟩
      · split at h <;> cases h

theorem evalItems_eq_fault {items : List (Item Tree)}
    (h : evalItems scope items = .error (.fault fault)) :
    ∃ item ∈ items, ∃ t ∈ item.value?, t.eval scope = .error (.fault fault) := by
  induction items with
  | nil => rw [evalItems] at h; cases h
  | cons item items ih =>
      have hlater : evalItems scope items = .error (.fault fault) →
          ∃ other ∈ item :: items, ∃ t ∈ other.value?, t.eval scope = .error (.fault fault) := by
        intro h
        obtain ⟨other, hother, h⟩ := ih h
        exact ⟨other, List.mem_cons_of_mem _ hother, h⟩
      cases item with
      | value t =>
          rw [evalItems] at h
          rcases bind_eq_error_iff.mp h with h | ⟨v, _, h⟩
          · exact ⟨_, List.mem_cons_self, t, rfl, h⟩
          rcases bind_eq_error_iff.mp h with h | ⟨_, _, h⟩
          · exact hlater h
          · cases h
      | rest =>
          rw [evalItems] at h
          rcases bind_eq_error_iff.mp h with h | ⟨_, _, h⟩
          · exact hlater h
          · cases h
      | restOf t =>
          rw [evalItems] at h
          rcases bind_eq_error_iff.mp h with h | ⟨v, _, h⟩
          · exact ⟨_, List.mem_cons_self, t, rfl, h⟩
          rcases bind_eq_error_iff.mp h with h | ⟨_, _, h⟩
          · exact hlater h
          · cases h

/-! ### Expressions at fault

The lemmas above say what an operation breaks off with, given the values of its operands. The definitions
below say the same of a tree without looking at the evaluator, and the fault of a whole expression is that of
some tree within it, since no operator hides the fault of an operand. -/

/-- The expressions whose values an expression is made of. -/
def Tree.parts : Tree → List Tree
  | .string _ | .int _ | .float _ | .ref _ => []
  | .select target _ => [target]
  | .index target key => [target, key]
  | .neg operand | .not operand | .bound _ operand => [operand]
  | .arith _ left right | .test _ left right => [left, right]
  | .all trees | .any trees => trees
  | .struct fields => fields.map Prod.snd
  | .list items => items.filterMap Item.value?

/-- An expression, its parts, their parts and so on. -/
inductive Tree.Within : Tree → Tree → Prop
  | self {t : Tree} : Within t t
  | part {s p t : Tree} (hpart : p ∈ t.parts) (h : Within s p) : Within s t

/-- The parts of the expression have values, but its own operation on them breaks off: a whole number
is not read, has no float near it, or a pattern is refused without words. -/
inductive Tree.Breaks (scope : Scope) : Tree → Fault → Prop
  | literal {digits : String} {error : Numeral.IntError} (h : Numeral.readInt digits = .error error) :
      Breaks scope (.int digits) (error.fault digits)
  | item {target : Tree} {selector : Selector} {items : List Value} {tail : Option Value}
      {name : String} {error : Numeral.IntError} (htarget : target.eval scope = .ok (.list items tail))
      (hselector : selector.eval = .ok name) (hname : isIndexName name = true)
      (h : Numeral.readInt name = .error error) :
      Breaks scope (.select target selector) (error.fault name)
  | arith {op : Operator} {left right : Tree} {a b : Atom} {fault : Fault}
      (hleft : left.eval scope = .ok (.atom a)) (hright : right.eval scope = .ok (.atom b))
      (hzero : ¬ (op = .div ∧ b.isZero = true)) (h : a.calculate op b = some (.error fault)) :
      Breaks scope (.arith op left right) fault
  | test {wanted : Bool} {left right : Tree} {text pattern : String} {refusal : Pattern.Refusal}
      {fault : Fault} (hleft : left.eval scope = .ok (.atom (.string text)))
      (hright : right.eval scope = .ok (.atom (.string pattern)))
      (h : Pattern.compile pattern = .error refusal) (hfault : refusal.fault? = some fault) :
      Breaks scope (.test (.pattern wanted) left right) fault
  | bound {wanted : Bool} {limit : Tree} {pattern : String} {refusal : Pattern.Refusal}
      {fault : Fault} (hlimit : limit.eval scope = .ok (.atom (.string pattern)))
      (h : Pattern.compile pattern = .error refusal) (hfault : refusal.fault? = some fault) :
      Breaks scope (.bound (.pattern wanted) limit) fault

/-- A part of the expression has a value with a whole number that cannot be written. -/
def Tree.LacksWords (scope : Scope) (t : Tree) : Prop :=
  ∃ p ∈ t.parts, ∃ v, p.eval scope = .ok v ∧ v.printable = false

/-- The operation of the expression breaks off, or its refusal cannot be put in words. -/
def Tree.AtFault (scope : Scope) (t : Tree) (fault : Fault) : Prop :=
  t.Breaks scope fault ∨ fault = .unprintable ∧ t.LacksWords scope

/-- The expression or one in it is at fault. -/
def Tree.HasFault (scope : Scope) (t : Tree) (fault : Fault) : Prop :=
  ∃ s : Tree, s.Within t ∧ s.AtFault scope fault

namespace Tree.HasFault

variable {p t : Tree}

theorem part (hp : p ∈ t.parts) (h : p.HasFault scope fault) : t.HasFault scope fault := by
  obtain ⟨s, hs, hfault⟩ := h
  exact ⟨s, .part hp hs, hfault⟩

theorem breaks (h : t.Breaks scope fault) : t.HasFault scope fault :=
  ⟨t, .self, Or.inl h⟩

theorem words (hp : p ∈ t.parts) (heval : p.eval scope = .ok v) (hv : v.printable = false) :
    t.HasFault scope .unprintable :=
  ⟨t, .self, Or.inr ⟨rfl, p, hp, v, heval, hv⟩⟩

end Tree.HasFault

theorem calculate_of_error {op : Operator} {a b : Atom}
    (h : a.calculate op b = some (.error fault)) (hzero : ¬ (op = .div ∧ b.isZero = true)) :
    calculate op a b = .error (.fault fault) := by
  rw [calculate.eq_def]
  split
  · cases h
  · rw [h]
    dsimp only
    rw [if_neg (by simpa using hzero)]
    rfl

/-- An expression whose own operation breaks off has no value for this reason. -/
theorem eval_of_breaks {t : Tree} (h : t.Breaks scope fault) :
    t.eval scope = .error (.fault fault) := by
  cases h with
  | literal h =>
      rw [Tree.eval, intOf_eq_fault_iff]
      exact ⟨_, h, rfl⟩
  | @item _ _ items tail name error htarget hselector hname h =>
      have hselect : select (.list items tail) name = .error (.fault (error.fault name)) := by
        simp only [select, hname, if_true, selectIndex, h]
        cases error <;> rfl
      rw [Tree.eval, htarget, hselector]
      exact hselect
  | @arith op _ _ a b _ hleft hright hzero h =>
      have harith : arith op (.atom a) (.atom b) = calculate op a b := by
        cases op <;> rfl
      rw [Tree.eval, hleft, hright]
      exact harith.trans (calculate_of_error h hzero)
  | @test wanted _ _ text pattern _ _ hleft hright h hfault =>
      have hcheck := checkPattern_eq_fault_iff.mpr ⟨_, h, hfault⟩
      have htest : testAtoms (.pattern wanted) (.string text) (.string pattern) =
          .error (.fault fault) := bind_eq_error_iff.mpr (Or.inl hcheck)
      rw [Tree.eval, hleft, hright]
      change testAtoms (.pattern wanted) (.string text) (.string pattern) >>= _ = _
      exact bind_eq_error_iff.mpr (Or.inl htest)
  | @bound wanted _ pattern _ _ hlimit h hfault =>
      have hcheck := checkPattern_eq_fault_iff.mpr ⟨_, h, hfault⟩
      have hby : boundBy (.pattern wanted) (.string pattern) = .error (.fault fault) :=
        bind_eq_error_iff.mpr (Or.inl hcheck)
      rw [Tree.eval, hlimit]
      change boundBy (.pattern wanted) (.string pattern) >>= _ = _
      exact bind_eq_error_iff.mpr (Or.inl hby)

/-- A conjunction breaks off where one of its parts does, or over parts that lack words. -/
theorem hasFault_all (hscope : ∀ f ∈ scope, f.2.WellFormed) {trees : List Tree}
    (hwell : ∀ t ∈ trees, t.WellFormed)
    (hparts : ∀ t ∈ trees, t.eval scope = .error (.fault fault) → t.HasFault scope fault)
    (h : (Tree.all trees).eval scope = .error (.fault fault)) :
    (Tree.all trees).HasFault scope fault := by
  rw [Tree.eval] at h
  rcases bind_eq_error_iff.mp h with hvalues | ⟨values, hvalues, h⟩
  · obtain ⟨t, ht, hfault⟩ := evalAll_eq_fault hvalues
    exact .part ht (hparts t ht hfault)
  have hvaluesWell :=
    wellFormed_evalAll (fun t ht _ => wellFormed_eval hscope (hwell t ht)) hvalues
  cases values with
  | nil => cases h
  | cons first rest =>
      rw [List.forall_mem_cons] at hvaluesWell
      obtain ⟨rfl, v, hv, hwords⟩ := meet_eq_fault hvaluesWell.1 hvaluesWell.2 h
      obtain ⟨t, ht, heval⟩ := exists_mem_left_of_forall₂ (evalAll_eq_ok_iff.mp hvalues) hv
      exact .words ht heval hwords

/-- A struct breaks off where one of its fields does, or over fields that lack words. -/
theorem hasFault_struct (hscope : ∀ f ∈ scope, f.2.WellFormed) {fields : List (List Label × Tree)}
    (hwell : ∀ f ∈ fields, f.2.WellFormed)
    (hparts : ∀ f ∈ fields, f.2.eval scope = .error (.fault fault) → f.2.HasFault scope fault)
    (h : (Tree.struct fields).eval scope = .error (.fault fault)) :
    (Tree.struct fields).HasFault scope fault := by
  rw [Tree.eval] at h
  rcases bind_eq_error_iff.mp h with hvalues | ⟨values, hvalues, h⟩
  · obtain ⟨f, hf, hfault⟩ := evalFields_eq_fault hvalues
    exact .part (List.mem_map_of_mem hf) (hparts f hf hfault)
  have hvaluesWell :=
    wellFormed_evalFields (fun f hf _ => wellFormed_eval hscope (hwell f hf)) hvalues
  obtain ⟨rfl, entry, hentry, hwords⟩ := structOf_eq_fault hvaluesWell h
  obtain ⟨entries, hforall, rfl⟩ := evalFields_eq_ok_iff.mp hvalues
  obtain ⟨f, hf, names, v, _, heval, hrow⟩ :=
    exists_mem_left_of_forall₂ hforall (List.reduceOption_mem_iff.mp hentry)
  cases names with
  | nil => cases hrow
  | cons name names =>
      obtain rfl := Option.some.inj hrow
      rw [printable_nest] at hwords
      exact .words (List.mem_map_of_mem hf) heval hwords

/-- Where the evaluation of an expression breaks off, the expression or one in it is at fault. -/
theorem hasFault_of_eval (hscope : ∀ f ∈ scope, f.2.WellFormed) {t : Tree} (ht : t.WellFormed)
    (h : t.eval scope = .error (.fault fault)) : t.HasFault scope fault := by
  induction ht with
  | string =>
      rw [Tree.eval, map_eq_error_iff] at h
      exact absurd h stringOf_ne_fault
  | int =>
      rw [Tree.eval, intOf_eq_fault_iff] at h
      obtain ⟨error, hread, rfl⟩ := h
      exact .breaks (.literal hread)
  | float =>
      rw [Tree.eval] at h
      exact absurd h number_ne_fault
  | ref =>
      rw [Tree.eval] at h
      exact absurd h resolve_ne_fault
  | select _ ih =>
      rw [Tree.eval] at h
      rcases bind_eq_error_iff.mp h with htarget | ⟨target, htarget, h⟩
      · exact .part (by simp [Tree.parts]) (ih htarget)
      rcases bind_eq_error_iff.mp h with hselector | ⟨name, hname, h⟩
      · exact absurd hselector eval_selector_ne_fault
      rcases select_eq_fault h with ⟨items, tail, error, rfl, hindex, hread, rfl⟩ | ⟨rfl, hwords⟩
      · exact .breaks (.item htarget hname hindex hread)
      · exact .words (by simp [Tree.parts]) htarget hwords
  | index _ _ ihTarget ihKey =>
      rw [Tree.eval] at h
      rcases bind_eq_error_iff.mp h with htarget | ⟨target, htarget, h⟩
      · exact .part (by simp [Tree.parts]) (ihTarget htarget)
      rcases bind_eq_error_iff.mp h with hkey | ⟨key, hkey, h⟩
      · exact .part (by simp [Tree.parts]) (ihKey hkey)
      obtain ⟨rfl, hwords | hwords⟩ := index_eq_fault h
      · exact .words (by simp [Tree.parts]) htarget hwords
      · exact .words (by simp [Tree.parts]) hkey hwords
  | neg _ ih =>
      rw [Tree.eval] at h
      rcases bind_eq_error_iff.mp h with hoperand | ⟨operand, hoperand, h⟩
      · exact .part (by simp [Tree.parts]) (ih hoperand)
      obtain ⟨rfl, hwords⟩ := negate_eq_fault h
      exact .words (by simp [Tree.parts]) hoperand hwords
  | not _ ih =>
      rw [Tree.eval] at h
      rcases bind_eq_error_iff.mp h with hoperand | ⟨operand, hoperand, h⟩
      · exact .part (by simp [Tree.parts]) (ih hoperand)
      obtain ⟨rfl, hwords⟩ := complement_eq_fault h
      exact .words (by simp [Tree.parts]) hoperand hwords
  | arith _ _ ihLeft ihRight =>
      rw [Tree.eval] at h
      rcases bind_eq_error_iff.mp h with hleft | ⟨left, hleft, h⟩
      · exact .part (by simp [Tree.parts]) (ihLeft hleft)
      rcases bind_eq_error_iff.mp h with hright | ⟨right, hright, h⟩
      · exact .part (by simp [Tree.parts]) (ihRight hright)
      rcases arith_eq_fault h with ⟨a, b, rfl, rfl, hresult, hzero⟩ | ⟨rfl, hwords | hwords⟩
      · exact .breaks (.arith hleft hright hzero hresult)
      · exact .words (by simp [Tree.parts]) hleft hwords
      · exact .words (by simp [Tree.parts]) hright hwords
  | test _ _ ihLeft ihRight =>
      rw [Tree.eval] at h
      rcases bind_eq_error_iff.mp h with hleft | ⟨left, hleft, h⟩
      · exact .part (by simp [Tree.parts]) (ihLeft hleft)
      rcases bind_eq_error_iff.mp h with hright | ⟨right, hright, h⟩
      · exact .part (by simp [Tree.parts]) (ihRight hright)
      rcases compare_eq_fault h with ⟨wanted, text, pattern, rfl, rfl, rfl, hcheck⟩ |
        ⟨rfl, hwords | hwords⟩
      · obtain ⟨refusal, hcompile, hfault⟩ := checkPattern_eq_fault_iff.mp hcheck
        exact .breaks (.test hleft hright hcompile hfault)
      · exact .words (by simp [Tree.parts]) hleft hwords
      · exact .words (by simp [Tree.parts]) hright hwords
  | bound _ ih =>
      rw [Tree.eval] at h
      rcases bind_eq_error_iff.mp h with hlimit | ⟨limit, hlimit, h⟩
      · exact .part (by simp [Tree.parts]) (ih hlimit)
      rcases bound_eq_fault h with ⟨wanted, pattern, rfl, rfl, hcheck⟩ | ⟨rfl, hwords⟩
      · obtain ⟨refusal, hcompile, hfault⟩ := checkPattern_eq_fault_iff.mp hcheck
        exact .breaks (.bound hlimit hcompile hfault)
      · exact .words (by simp [Tree.parts]) hlimit hwords
  | all hwell ih => exact hasFault_all hscope hwell ih h
  | any _ _ ih =>
      rw [Tree.eval] at h
      rcases bind_eq_error_iff.mp h with hvalues | ⟨values, _, h⟩
      · obtain ⟨t, ht, hfault⟩ := evalAll_eq_fault hvalues
        exact .part ht (ih t ht hfault)
      · cases h
  | struct hwell ih => exact hasFault_struct hscope hwell ih h
  | list _ ih =>
      rw [Tree.eval] at h
      rcases bind_eq_error_iff.mp h with hvalues | ⟨values, _, h⟩
      · obtain ⟨item, hitem, t, ht, hfault⟩ := evalItems_eq_fault hvalues
        exact .part (List.mem_filterMap.mpr ⟨item, hitem, ht⟩) (ih item hitem t ht hfault)
      · exact absurd h listOf_ne_fault

/-- A document is an expression too: one without a value stands for an empty struct. -/
def Document.tree : Document → Tree
  | .empty => .struct []
  | .fields all => .struct all
  | .value t => t

theorem eval_tree (document : Document) : document.tree.eval scope = document.eval scope := by
  cases document with
  | empty => rfl
  | fields all => rw [Document.tree, Tree.eval, Document.eval]
  | value t => rfl

theorem wellFormed_tree {document : Document} (h : document.WellFormed) :
    document.tree.WellFormed := by
  cases document with
  | empty => exact .struct nofun
  | fields all => exact .struct h
  | value t => exact h

/-- A text whose evaluation breaks off is an expression in which one is at fault. -/
theorem hasFault_of_compile (hscope : ∀ f ∈ scope, f.2.WellFormed) {text : String}
    (h : compile scope text = .error (.fault fault)) :
    ∃ document, parse text = .ok document ∧ document.tree.HasFault scope fault := by
  rw [compile] at h
  split at h
  · cases h
  · rename_i document hparse
    have hwell := wellFormed_tree (wellFormed_parse hparse)
    split at h
    · cases h
    · cases h
    · rename_i heval
      cases h
      exact ⟨document, hparse, hasFault_of_eval hscope hwell (by rw [eval_tree, heval])⟩

end Expr

namespace Language

/-- A text has a value, or it is refused with a problem that names the text and its source, or its
evaluation breaks off at an expression in it that is at fault. -/
theorem compile_outcome {scope : Expr.Scope} (hscope : ∀ f ∈ scope, f.2.WellFormed)
    (source : Option String) (text : String) :
    (∃ v, compile scope source text = .ok v) ∨
      (∃ message, compile scope source text =
        .error (.problem { kind := .compile text, message, source })) ∨
      ∃ document fault, Expr.parse text = .ok document ∧ document.tree.HasFault scope fault ∧
        compile scope source text = .error (.evaluation fault) := by
  rw [compile]
  split
  · rename_i v _
    exact Or.inl ⟨v, rfl⟩
  · rename_i error _
    exact Or.inr (Or.inl ⟨error.message, rfl⟩)
  · rename_i fault hcompile
    obtain ⟨document, hparse, hfault⟩ := Expr.hasFault_of_compile hscope hcompile
    exact Or.inr (Or.inr ⟨document, fault, hparse, hfault, rfl⟩)

/-- Half of the total of an order against a bound. -/
theorem compile_outcome_half_total :
    let scope : Expr.Scope := [("order", .struct [("total", .atom (.int 7))])]
    let source := some "order.td"
    let text := "order.total / 2 & <4"
    (∃ v, compile scope source text = .ok v) ∨
      (∃ message, compile scope source text =
        .error (.problem { kind := .compile text, message, source })) ∨
      ∃ document fault, Expr.parse text = .ok document ∧ document.tree.HasFault scope fault ∧
        compile scope source text = .error (.evaluation fault) := by
  intro scope source text
  exact compile_outcome (by simp [scope, Value.wellFormed_struct, Atom.WellFormed]) source text

/-- What breaks off is no problem: the fault escapes as it is, without the text and its source. -/
theorem compile_of_breaks {scope : Expr.Scope} {text : String} {document : Expr.Document}
    {fault : Fault} (hparse : Expr.parse text = .ok document) (h : document.tree.Breaks scope fault)
    (source : Option String) : compile scope source text = .error (.evaluation fault) := by
  have heval : document.eval scope = .error (.fault fault) := by
    rw [← Expr.eval_tree, Expr.eval_of_breaks h]
  rw [compile, Expr.compile, hparse]
  dsimp only
  rw [heval]

/-- Whether the outcome is that the text stands where a whole number should. -/
def isMalformed (text : String) : Except Failure Value → Bool
  | .error (.evaluation (.malformedNumeral other)) => other == text
  | _ => false

theorem isMalformed_iff {text : String} {outcome : Except Failure Value} :
    isMalformed text outcome = true ↔ outcome = .error (.evaluation (.malformedNumeral text)) := by
  constructor
  · intro h
    unfold isMalformed at h
    split at h
    · rw [eq_of_beq h]
    · cases h
  · rintro rfl
    exact beq_self_eq_true text

/-- A superscript is a digit to the test for an index, but no numeral: the text gets no value, and no
problem either. -/
theorem compile_superscript_index :
    let text := "[1].\"²\""
    compile [] none text = .error (.evaluation (.malformedNumeral "²")) ∧
      ¬ ((∃ v, compile [] none text = .ok v) ∨
        ∃ message, compile [] none text =
          .error (.problem { kind := .compile text, message, source := none })) := by
  intro text
  have hcompile : compile [] none text = .error (.evaluation (.malformedNumeral "²")) :=
    isMalformed_iff.mp (by decide +kernel)
  refine ⟨hcompile, ?_⟩
  rintro (⟨v, hv⟩ | ⟨message, hmessage⟩)
  · cases hcompile.symm.trans hv
  · cases hcompile.symm.trans hmessage

end Language

end ApiProbe
