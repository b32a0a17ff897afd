import ApiProbe.Language
import ApiProbe.Proofs.Expr.Evaluation
import ApiProbe.Proofs.Expr.Printed
import ApiProbe.Proofs.Json.Quoted
import ApiProbe.Proofs.Number.Digits
import ApiProbe.Proofs.Unify.Merge

/-!
# The value of a printed value

The tree of a printed value has the value that was printed. Its operations meet what they put
together in the form in which the value holds it: bounds that are distinct and suit their kind,
options that are distinct and flat, labels that are distinct. Printing and compiling are thus inverse.
-/

namespace ApiProbe

open ApiProbe.Expr

theorem Expr.stringOf_quoted (s : String) : stringOf (Text.quoted s) = .ok s := by
  rw [stringOf, Json.readString_quoted]

namespace Atom

theorem eval_signed_int {n : Int} (h : Numeral.fits n = true) :
    Tree.eval [] (.signed (n < 0) (.int (toString n.natAbs))) = .ok (.atom (.int n)) := by
  have hdigits : intOf (toString n.natAbs) = .ok (.atom (.int n.natAbs)) := by
    have hread : Numeral.readInt (toString n.natAbs) = .ok (n.natAbs : Int) :=
      Numeral.readInt_ofList_toDigits h
    rw [intOf, hread]
  by_cases hn : n < 0
  · have habs : -(n.natAbs : Int) = n := by omega
    rw [decide_eq_true hn, Tree.signed, if_pos rfl, Tree.eval, Tree.eval, hdigits]
    change negate (.atom (.int n.natAbs)) = _
    rw [negate, concrete]
    change Except.ok (Value.atom (.int (-(n.natAbs : Int)))) = _
    rw [habs]
  · have habs : (n.natAbs : Int) = n := by omega
    rw [decide_eq_false hn, Tree.signed, if_neg Bool.false_ne_true, Tree.eval, hdigits, habs]

theorem eval_signed_float {negative : Bool} {mantissa : Nat} {exponent : Int}
    (h : (Binary64.finite negative mantissa exponent).IsProper) :
    Tree.eval [] (.signed negative (.float (Shortest.magnitudeText .standard mantissa exponent)))
      = .ok (.atom (.float (.finite negative mantissa exponent))) := by
  have hdigits : floatOf (Shortest.magnitudeText .standard mantissa exponent)
      = .ok (.atom (.float (.finite false mantissa exponent))) := by
    rw [floatOf, Shortest.readBinary64?_magnitudeText h]
    rfl
  cases negative with
  | false => rw [Tree.signed, if_neg Bool.false_ne_true, Tree.eval, hdigits]
  | true =>
      rw [Tree.signed, if_pos rfl, Tree.eval, Tree.eval, hdigits]
      rfl

theorem eval_tree {a : Atom} (h : a.WellFormed) (hprintable : a.printable = true) :
    a.tree.eval [] = .ok (.atom a) := by
  cases a with
  | null => rfl
  | bool b => cases b <;> rfl
  | int n => exact eval_signed_int hprintable
  | float x =>
      cases x with
      | infinite => cases h
      | nan => cases h
      | finite negative mantissa exponent => exact eval_signed_float h
  | string s =>
      rw [tree, Tree.eval, stringOf_quoted]
      rfl

end Atom

theorem testOf_sign (bound : Bound) : testOf bound.sign = match bound with
    | .order o _ => .order o
    | .ne _ => .ne
    | .pattern wanted _ => .pattern wanted := by
  have horder : ∀ o : Order, testOf o.sign = .order o := by
    intro o
    cases o <;> decide
  have hpattern : ∀ wanted : Bool, testOf (if wanted then "=~" else "!~") = .pattern wanted := by
    decide
  cases bound with
  | order o limit => exact horder o
  | ne limit => exact (by decide : testOf "!=" = .ne)
  | pattern wanted source => exact hpattern wanted

namespace Expr

theorem checkPattern_of_isOk {source : String} (h : (Pattern.compile source).isOk = true) :
    checkPattern source = .ok () := by
  unfold checkPattern
  cases hcompile : Pattern.compile source with
  | ok pattern => rfl
  | error refusal =>
      rw [hcompile] at h
      cases h

/-- The bound that a limit is asked to keep is the one whose sign asks for it. -/
theorem bound_testOf_sign {b : Bound} (h : b.WellFormed) :
    Expr.bound (testOf b.sign) (.atom b.limit) = .ok (Value.ofBound b) := by
  rw [testOf_sign]
  cases b with
  | order o limit =>
      have hordered : (limit.isNumber || limit.kind == .string) = true := by
        rw [Bool.or_eq_true, beq_iff_eq]
        exact h.2
      have hboundBy : boundBy (.order o) limit = .ok (.order o limit) := if_pos hordered
      change boundBy (.order o) limit >>= _ = _
      rw [hboundBy]
      rfl
  | ne limit => rfl
  | pattern wanted source =>
      have hboundBy : boundBy (.pattern wanted) (.string source) = .ok (.pattern wanted source) := by
        rw [boundBy, checkPattern_of_isOk h]
        rfl
      change boundBy (.pattern wanted) (.string source) >>= _ = _
      rw [hboundBy]
      rfl

end Expr

theorem Bound.eval_tree {bound : Bound} (h : bound.WellFormed)
    (hprintable : Value.boundPrintable bound = true) :
    bound.tree.eval [] = .ok (Value.ofBound bound) := by
  rw [tree, Tree.eval, Atom.eval_tree (limit_wellFormed h) hprintable]
  exact bound_testOf_sign h

namespace Constraint

theorem merge_ofBound {kind : Option Kind} {bounds : List Bound} {bound : Bound}
    (hdistinct : (bounds ++ [bound]).Pairwise fun a b => b.same a = false)
    (hagrees : ∀ k ∈ kind, ∀ b ∈ bounds ++ [bound], agrees k b = true) :
    merge ⟨kind, bounds⟩ ⟨none, [bound]⟩ = .ok ⟨kind, bounds ++ [bound]⟩ := by
  refine merge_eq_ok_iff.mpr ⟨?_, ?_, hagrees⟩
  · cases kind <;> rfl
  · have h : distinctBy Bound.same [] (bounds ++ [bound]) = [] ++ (bounds ++ [bound]) :=
      distinctBy_eq_append hdistinct
    rw [h, List.nil_append]

/-- Bounds met one after the other are collected in their order. -/
theorem meet_bounds {kind : Option Kind} {done bounds : List Bound}
    (hdistinct : (done ++ bounds).Pairwise fun a b => b.same a = false)
    (hagrees : ∀ k ∈ kind, ∀ b ∈ done ++ bounds, agrees k b = true) :
    meet (.constraint ⟨kind, done⟩) (bounds.map Value.ofBound)
      = .ok (.constraint ⟨kind, done ++ bounds⟩) := by
  induction bounds generalizing done with
  | nil =>
      rw [List.append_nil]
      rfl
  | cons bound bounds ih =>
      rw [List.append_cons] at hdistinct hagrees ⊢
      have hmerge : merge ⟨kind, done⟩ ⟨none, [bound]⟩ = .ok ⟨kind, done ++ [bound]⟩ := by
        apply merge_ofBound (hdistinct.sublist (List.sublist_append_left _ _))
        intro k hk b hb
        exact hagrees k hk b (List.mem_append_left _ hb)
      have hunify : Value.unify (.constraint ⟨kind, done⟩) (Value.ofBound bound)
          = .ok (.constraint ⟨kind, done ++ [bound]⟩) :=
        Value.unifyAt_constraint_eq_ok_iff.mpr ⟨_, hmerge, rfl⟩
      have hnext := ih hdistinct hagrees
      unfold meet at hnext ⊢
      rw [List.map_cons, List.foldlM_cons, hunify]
      exact hnext

def values (c : Constraint) : List Value :=
  (c.kind.map Value.ofKind).toList ++ c.bounds.map Value.ofBound

/-- The parts of a constraint meet in the constraint. -/
theorem meet_values {c : Constraint} (h : c.WellFormed) :
    ∃ first rest, c.values = first :: rest ∧ meet first rest = .ok (.constraint c) := by
  have hagrees : ∀ k ∈ c.kind, ∀ b ∈ c.bounds, agrees k b = true :=
    fun k hk b hb => Kind.agrees_of_suits (h.suits k hk b hb)
  obtain ⟨hnonempty, -, hdistinct, -⟩ := h
  obtain ⟨kind, bounds⟩ := c
  cases kind with
  | some kind => exact ⟨_, _, rfl, @meet_bounds (some kind) [] bounds hdistinct hagrees⟩
  | none =>
      cases bounds with
      | nil => exact absurd hnonempty (by simp)
      | cons bound bounds =>
          exact ⟨_, _, rfl, @meet_bounds none [bound] bounds hdistinct hagrees⟩

theorem eval_parts {c : Constraint} (h : c.WellFormed)
    (hprintable : ∀ bound ∈ c.bounds, Value.boundPrintable bound = true) :
    evalAll [] (c.parts.map Prod.snd) = .ok c.values := by
  have hkind : ∀ kind : Kind, resolve [] kind.name = .ok (Value.ofKind kind) := by
    intro kind
    cases kind <;> rfl
  rw [evalAll_eq_ok_iff, parts, values, List.map_append, List.map_map]
  refine List.rel_append ?_ ?_
  · cases c.kind with
    | none => exact .nil
    | some kind => exact .cons (hkind kind) .nil
  · rw [List.forall₂_map_left_iff, List.forall₂_map_right_iff, List.forall₂_same]
    intro bound hbound
    exact Bound.eval_tree (h.bounds bound hbound) (hprintable bound hbound)

/-- A row of trees has the value that the values in it meet in, be it a single one. -/
theorem eval_row {scope : Scope} {ts : List Tree} {first : Value} {rest : List Value}
    (h : evalAll scope ts = .ok (first :: rest)) :
    Tree.eval scope (.row ts) = meet first rest := by
  rw [Tree.row.eq_def]
  split
  · obtain ⟨⟩ | ⟨hfirst, hrest⟩ := evalAll_eq_ok_iff.mp h
    cases hrest
    exact hfirst
  · rw [Tree.eval, h]
    rfl

theorem eval_tree {c : Constraint} (h : c.WellFormed)
    (hprintable : ∀ bound ∈ c.bounds, Value.boundPrintable bound = true) :
    c.tree.eval [] = .ok (.constraint c) := by
  obtain ⟨first, rest, hvalues, hmeet⟩ := meet_values h
  have heval := eval_parts h hprintable
  rw [hvalues] at heval
  rw [tree, ← hmeet]
  exact eval_row heval

end Constraint

namespace Expr

/-- Options that are distinct and flat are joined as they are. -/
theorem join_eq {options : List Value} (hlength : 2 ≤ options.length)
    (hdistinct : options.Pairwise fun x y => y.same x = false)
    (hflat : ∀ x ∈ options, x.isAny = false) : join options = .any options := by
  have hoptions : options.flatMap Value.options = options := by
    have heq : ∀ x ∈ options, x.options = [x] := by
      intro x hx
      cases x with
      | any xs => cases hflat _ hx
      | _ => rfl
    rw [List.flatMap_congr heq, List.flatMap_singleton']
  rw [join, hoptions, Value.ofOptions, Value.distinct_eq_self hdistinct]
  obtain ⟨first, next, rest, rfl⟩ := Value.exists_eq_cons_cons hlength
  rfl

theorem putField_of_notMem {label : String} {value : Value} {fields : List (String × Value)}
    (h : label ∉ fields.map Prod.fst) :
    putField label value fields = .ok (fields ++ [(label, value)]) := by
  induction fields with
  | nil => rfl
  | cons field fields ih =>
      rw [List.map_cons, List.mem_cons, not_or] at h
      have hlabel : ¬ (field.1 == label) = true := by
        rw [beq_iff_eq]
        intro heq
        exact h.1 heq.symm
      rw [putField, if_neg hlabel, ih h.2]
      rfl

/-- Fields whose labels are distinct are collected as they are. -/
theorem structOf_eq {fields : List (String × Value)} (h : (fields.map Prod.fst).Nodup) :
    structOf fields = .ok (.struct fields) := by
  have hcollect : ∀ done : List (String × Value), ((done ++ fields).map Prod.fst).Nodup →
      fields.foldlM (fun done field => putField field.1 field.2 done) done
        = .ok (done ++ fields) := by
    clear h
    induction fields with
    | nil =>
        intro done _
        rw [List.append_nil]
        rfl
    | cons field fields ih =>
        intro done hdone
        have hnew : field.1 ∉ done.map Prod.fst := by
          rw [List.map_append, List.map_cons, List.nodup_append] at hdone
          intro hmem
          exact hdone.2.2 _ hmem _ List.mem_cons_self rfl
        rw [List.append_cons] at hdone ⊢
        rw [List.foldlM_cons, putField_of_notMem hnew]
        exact ih _ hdone
  rw [structOf, hcollect [] h]
  rfl

def tailItem : Value → Item Value
  | .top => .rest
  | x => .restOf x

theorem listOf_eq (items : List Value) (tail : Option Value) :
    listOf (items.map .value ++ (tail.map tailItem).toList) = .ok (.list items tail) := by
  induction items with
  | nil =>
      cases tail with
      | none => rfl
      | some x => cases x <;> rfl
  | cons x items ih =>
      rw [List.map_cons, List.cons_append, listOf, ih]
      rfl

theorem eval_labelTree (label : String) : (Value.labelTree label).eval = .ok label := by
  unfold Value.labelTree
  split
  · rfl
  · exact stringOf_quoted label

end Expr

namespace Value

theorem evalAll_trees {values : List Value} (h : ∀ x ∈ values, x.tree.eval [] = .ok x) :
    evalAll [] (trees values) = .ok values := by
  rw [evalAll_eq_ok_iff, trees_eq_map, List.forall₂_map_left_iff, List.forall₂_same]
  exact h

theorem evalFields_fieldTrees {fields : List (String × Value)}
    (h : ∀ f ∈ fields, f.2.tree.eval [] = .ok f.2) :
    evalFields [] (fieldTrees fields) = .ok fields := by
  induction fields with
  | nil => rfl
  | cons field fields ih =>
      rw [List.forall_mem_cons] at h
      have hlabels : [labelTree field.1].mapM Label.eval = .ok [field.1] := by
        rw [List.mapM_cons, eval_labelTree]
        rfl
      rw [fieldTrees, evalFields, hlabels, h.1, ih h.2]
      rfl

theorem evalItems_trees {items : List Value} {back : List (Item Tree)}
    {others : List (Item Value)} (hitems : ∀ x ∈ items, x.tree.eval [] = .ok x)
    (hback : evalItems [] back = .ok others) :
    evalItems [] ((trees items).map .value ++ back) = .ok (items.map .value ++ others) := by
  induction items with
  | nil => exact hback
  | cons x items ih =>
      rw [List.forall_mem_cons] at hitems
      rw [trees, List.map_cons, List.cons_append, evalItems, hitems.1, ih hitems.2]
      rfl

theorem evalItems_tailTrees {tail : Option Value} (h : ∀ x ∈ tail, x.tree.eval [] = .ok x) :
    evalItems [] (tailTrees tail) = .ok (tail.map tailItem).toList := by
  cases tail with
  | none => rfl
  | some x =>
      have hx := h x rfl
      have hcases : x = .top ∨
          tailTrees (some x) = [.restOf x.tree] ∧ tailItem x = .restOf x := by
        cases x <;> first | exact Or.inl rfl | exact Or.inr ⟨rfl, rfl⟩
      rcases hcases with rfl | ⟨htree, hitem⟩
      · rfl
      · rw [htree, evalItems, hx, Option.map_some, hitem]
        rfl

theorem eval_tree {v : Value} (h : v.WellFormed) (hprintable : v.printable = true) :
    v.tree.eval [] = .ok v := by
  induction v with
  | top => rfl
  | atom a => exact Atom.eval_tree (wellFormed_atom.mp h) hprintable
  | constraint c =>
      exact Constraint.eval_tree (wellFormed_constraint.mp h) (printable_constraint.mp hprintable)
  | any options ih =>
      obtain ⟨hlength, hdistinct, hflat, hoptions⟩ := wellFormed_any.mp h
      have heval := evalAll_trees fun x hx =>
        ih x hx (hoptions x hx) (printable_any.mp hprintable x hx)
      rw [tree, Tree.eval, heval, ← join_eq hlength hdistinct hflat]
      rfl
  | struct fields ih =>
      obtain ⟨hlabels, hfields⟩ := wellFormed_struct.mp h
      have heval := evalFields_fieldTrees fun f hf =>
        ih f hf (hfields f hf) (printable_struct.mp hprintable f hf)
      rw [tree, Tree.eval, heval]
      exact structOf_eq hlabels
  | list items tail ih ihtail =>
      obtain ⟨hitems, htail⟩ := wellFormed_list.mp h
      obtain ⟨hprintables, hprintable⟩ := printable_list.mp hprintable
      have hback := evalItems_tailTrees fun x hx =>
        ihtail x hx (htail x hx) (hprintable x hx)
      have heval := evalItems_trees (fun x hx => ih x hx (hitems x hx) (hprintables x hx)) hback
      rw [tree, Tree.eval, heval]
      exact listOf_eq items tail

theorem compile_text {v : Value} (h : v.WellFormed) (hprintable : v.printable = true)
    (hline : v.oneLine = true) : Expr.compile [] v.text = .ok v := by
  have heval := eval_tree h hprintable
  rw [Expr.compile, parse_text h hline]
  dsimp only
  rw [Document.eval, heval]

end Value

/-- Rendering a value and compiling its text gives the value back: whatever is well formed, has no
number beyond the digit limit and no label with a line feed. -/
theorem Language.compile_render {v : Value} (h : v.WellFormed) (hprintable : v.printable = true)
    (hline : v.oneLine = true) (source : Option String) :
    (Language.render v >>= Language.compile [] source) = .ok v := by
  have hrender : Language.render v = .ok v.text := by
    rw [Language.render, if_pos hprintable]
  rw [hrender]
  change Language.compile [] source v.text = .ok v
  rw [Language.compile, Value.compile_text h hprintable hline]

/-- A struct with a tail of alternatives, among them a constraint with negative limits, a number with
an exponent, a string that looks like a comment, and a label in quotes. -/
theorem Language.compile_render_quoted_label :
    let limits : Value :=
      .constraint ⟨some .number, [.order .ge (.int (-5)), .ne (.float (.zero true))]⟩
    let rest : Value := .any [limits, .atom (.string "a // b, \"c\""), .list [] (some .top)]
    let total : Value := .atom (.float (.finite true 5902958103587056 47))
    let v : Value := .struct [("items", .list [.atom (.int 1), total] (some rest)),
      ("the name", .constraint ⟨none, [.pattern true "^\\d+$"]⟩), ("empty", .struct [])]
    v.text = "\x7bitems: [1, -8.307674973655723e+29, ...number & >=-5 & !=-0.0 | " ++
        "\"a // b, \\\"c\\\"\" | [...]], \"the name\": =~\"^\\\\d+$\", empty: \x7b\x7d\x7d" ∧
      (Language.render v >>= Language.compile [] none) = .ok v := by
  intro limits rest total v
  have hv : v.WellFormed := by
    simp [v, total, rest, limits, Constraint.wellFormed_iff, Bound.WellFormed, Atom.WellFormed,
      Kind.Suits, Atom.isNumber, Bound.same, Value.isAny, Value.same]
    decide +kernel
  have hprintable : v.printable = true := by decide +kernel
  exact ⟨by decide +kernel, compile_render hv hprintable (by decide) none⟩

end ApiProbe
