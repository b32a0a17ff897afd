import Mathlib.Data.List.ReduceOption
import ApiProbe.Proofs.Expr.Evaluation
import ApiProbe.Proofs.Unify.Order

/-!
# The order of conjuncts

The operands of a conjunction are unified from left to right, and so are the values that stand under
one label of a struct. Unless open lists with clashing tails come together on the way, the order in
which they are written does not decide whether they have a common value.
-/

namespace ApiProbe.Expr

open Value (lookup? ofKind unify unifyAll Unhindered)

theorem meet_eq_ok_iff {first v : Value} {rest : List Value} :
    meet first rest = .ok v ↔ rest.foldlM unify first = .ok v := by
  induction rest generalizing first with
  | nil => exact ⟨fun h => congrArg _ (Except.ok.inj h), fun h => congrArg _ (Except.ok.inj h)⟩
  | cons part rest ih =>
      rw [meet, List.foldlM_cons, List.foldlM_cons, bind_eq_ok_iff, bind_eq_ok_iff]
      refine exists_congr fun merged => and_congr ?_ ih
      split
      · rename_i found hfound
        rw [hfound]
        exact ⟨fun h => congrArg _ (Except.ok.inj h), fun h => congrArg _ (Except.ok.inj h)⟩
      · rename_i hfound
        rw [hfound]
        exact ⟨fun h => absurd h refuse_ne_ok, nofun⟩
      · rename_i hfound
        rw [hfound]
        exact ⟨nofun, nofun⟩

/-- The value of a conjunction is what the values of its parts have in common. -/
theorem eval_all_eq_ok_iff {scope : Scope} {parts : List Tree} {v : Value} :
    (Tree.all parts).eval scope = .ok v ↔
      ∃ values, evalAll scope parts = .ok values ∧ unifyAll values = .ok v := by
  rw [Tree.eval, bind_eq_ok_iff]
  refine exists_congr fun values => and_congr_right fun _ => ?_
  cases values with
  | nil => exact ⟨fun h => congrArg _ (Except.ok.inj h), fun h => congrArg _ (Except.ok.inj h)⟩
  | cons first rest => rw [Value.unifyAll_cons, ← meet_eq_ok_iff]

theorem exists_evalAll_of_perm {scope : Scope} {parts parts' : List Tree}
    (hperm : parts.Perm parts') {values : List Value} (h : evalAll scope parts = .ok values) :
    ∃ values', evalAll scope parts' = .ok values' ∧ values.Perm values' := by
  obtain ⟨values', hforall, hvalues⟩ :=
    List.perm_comp_forall₂ hperm.symm (evalAll_eq_ok_iff.mp h)
  exact ⟨values', evalAll_eq_ok_iff.mpr hforall, hvalues.symm⟩

/-- The entry that a field stands for; a field without labels stands for none. -/
def EntryOf (scope : Scope) (field : List Label × Tree) (row? : Option (String × Value)) : Prop :=
  ∃ names v, field.1.mapM Label.eval = .ok names ∧ field.2.eval scope = .ok v ∧
    row? = names.head?.map fun name => (name, nest names.tail v)

theorem evalFields_eq_ok_iff {scope : Scope} {fields : List (List Label × Tree)}
    {values : List (String × Value)} :
    evalFields scope fields = .ok values ↔
      ∃ entries, List.Forall₂ (EntryOf scope) fields entries ∧ values = entries.reduceOption := by
  induction fields generalizing values with
  | nil =>
      constructor
      · intro h
        rw [evalFields] at h
        exact ⟨[], .nil, (Except.ok.inj h).symm⟩
      · rintro ⟨_, ⟨⟩, rfl⟩
        rw [evalFields]
        rfl
  | cons field fields ih =>
      obtain ⟨labels, t⟩ := field
      rw [evalFields, bind_eq_ok_iff]
      constructor
      · rintro ⟨names, hnames, h⟩
        obtain ⟨v, hv, h⟩ := bind_eq_ok_iff.mp h
        obtain ⟨rest, hrest, h⟩ := bind_eq_ok_iff.mp h
        obtain ⟨entries, hentries, rfl⟩ := ih.mp hrest
        refine ⟨_ :: entries, .cons ⟨names, v, hnames, hv, rfl⟩ hentries, ?_⟩
        cases names <;> exact (Except.ok.inj h).symm
      · rintro ⟨_, ⟨⟩ | ⟨⟨names, v, hnames, hv, rfl⟩, hentries⟩, rfl⟩
        refine ⟨names, hnames, bind_eq_ok_iff.mpr ⟨v, hv, bind_eq_ok_iff.mpr
          ⟨_, ih.mpr ⟨_, hentries, rfl⟩, ?_⟩⟩⟩
        cases names <;> rfl

theorem exists_evalFields_of_perm {scope : Scope} {fields fields' : List (List Label × Tree)}
    (hperm : fields.Perm fields') {values : List (String × Value)}
    (h : evalFields scope fields = .ok values) :
    ∃ values', evalFields scope fields' = .ok values' ∧ values.Perm values' := by
  obtain ⟨entries, hentries, rfl⟩ := evalFields_eq_ok_iff.mp h
  obtain ⟨entries', hforall, hvalues⟩ := List.perm_comp_forall₂ hperm.symm hentries
  exact ⟨_, evalFields_eq_ok_iff.mpr ⟨entries', hforall, rfl⟩, (hvalues.filterMap id).symm⟩

/-! ### Structs with repeated labels

A struct whose labels are repeated is a conjunction under each of its labels. What has been put under one
label does not depend on the fields with other labels, so that the fields can be taken label by label. -/

/-- The values that stand under a label, in their order. -/
def valuesOf (label : String) (fields : List (String × Value)) : List Value :=
  (fields.filter (·.1 == label)).map Prod.snd

/-- What stands under a label; anything may where nothing does. -/
def valueAt (label : String) (fields : List (String × Value)) : Value :=
  (lookup? label fields).getD .top

variable {label : String} {value : Value} {done merged fields : List (String × Value)}

/-- A field is put where its value and what stands under its label have something in common, and it
changes nothing elsewhere. -/
theorem putField_eq_ok (h : putField label value done = .ok merged) :
    unify (valueAt label done) value = .ok (valueAt label merged) ∧
      ∀ other ≠ label, valueAt other merged = valueAt other done := by
  induction done generalizing merged with
  | nil =>
      obtain rfl := Except.ok.inj h
      refine ⟨?_, fun other hne => ?_⟩
      · simp [valueAt, lookup?, Value.unify_top_left]
      · simp [valueAt, lookup?, Ne.symm hne]
  | cons field done ih =>
      obtain ⟨name, old⟩ := field
      rw [putField] at h
      by_cases hname : name = label
      · subst hname
        rw [if_pos (beq_self_eq_true name)] at h
        split at h
        · rename_i found hunify
          obtain rfl := Except.ok.inj h
          refine ⟨?_, fun other hne => ?_⟩
          · simpa [valueAt, lookup?] using hunify
          · simp [valueAt, lookup?, Ne.symm hne]
        · exact absurd h refuse_ne_ok
        · cases h
      · rw [if_neg (by simpa using hname)] at h
        obtain ⟨rest, hrest, rfl⟩ := map_eq_ok_iff.mp h
        obtain ⟨hput, helse⟩ := ih hrest
        refine ⟨?_, fun other hne => ?_⟩
        · simpa [valueAt, lookup?, hname] using hput
        · have hother := helse other hne
          by_cases hown : name = other
          · simp [valueAt, lookup?, hown]
          · simpa [valueAt, lookup?, hown] using hother

theorem exists_putField {r : Value} (h : unify (valueAt label done) value = .ok r) :
    ∃ merged, putField label value done = .ok merged := by
  induction done with
  | nil => exact ⟨_, rfl⟩
  | cons field done ih =>
      obtain ⟨name, old⟩ := field
      rw [putField]
      by_cases hname : name = label
      · subst hname
        have hold : unify old value = .ok r := by simpa [valueAt, lookup?] using h
        rw [if_pos (beq_self_eq_true name), hold]
        exact ⟨_, rfl⟩
      · rw [if_neg (by simpa using hname)]
        have hrest : unify (valueAt label done) value = .ok r := by
          simpa [valueAt, lookup?, hname] using h
        obtain ⟨merged, hmerged⟩ := ih hrest
        exact ⟨_, map_eq_ok_iff.mpr ⟨merged, hmerged, rfl⟩⟩

theorem valuesOf_cons_self (label : String) (value : Value) (fields : List (String × Value)) :
    valuesOf label ((label, value) :: fields) = value :: valuesOf label fields := by
  simp [valuesOf]

theorem valuesOf_cons_of_ne {other : String} (hne : other ≠ label) (value : Value)
    (fields : List (String × Value)) :
    valuesOf other ((label, value) :: fields) = valuesOf other fields := by
  simp [valuesOf, Ne.symm hne]

/-- Fields can be put one after the other where the values under each label have something in
common. -/
theorem exists_foldlM_putField_iff :
    (∃ merged, fields.foldlM (fun done field => putField field.1 field.2 done) done = .ok merged) ↔
      ∀ label, ∃ r, (valuesOf label fields).foldlM unify (valueAt label done) = .ok r := by
  induction fields generalizing done with
  | nil => exact ⟨fun _ label => ⟨_, rfl⟩, fun _ => ⟨_, rfl⟩⟩
  | cons field fields ih =>
      obtain ⟨label, value⟩ := field
      have hstep : ∀ next, putField label value done = .ok next →
          ((∀ other, ∃ r, (valuesOf other fields).foldlM unify (valueAt other next) = .ok r) ↔
            ∀ other, ∃ r, (valuesOf other ((label, value) :: fields)).foldlM unify
              (valueAt other done) = .ok r) := by
        intro next hnext
        obtain ⟨hput, helse⟩ := putField_eq_ok hnext
        refine forall_congr' fun other => ?_
        by_cases hother : other = label
        · subst hother
          rw [valuesOf_cons_self, List.foldlM_cons, hput]
          rfl
        · rw [valuesOf_cons_of_ne hother, helse other hother]
      constructor
      · rintro ⟨merged, h⟩
        rw [List.foldlM_cons, bind_eq_ok_iff] at h
        obtain ⟨next, hnext, hrest⟩ := h
        exact (hstep next hnext).mp (ih.mp ⟨merged, hrest⟩)
      · intro h
        obtain ⟨r, hr⟩ := h label
        rw [valuesOf_cons_self, List.foldlM_cons, bind_eq_ok_iff] at hr
        obtain ⟨found, hfound, _⟩ := hr
        obtain ⟨next, hnext⟩ := exists_putField hfound
        obtain ⟨merged, hmerged⟩ := ih.mpr ((hstep next hnext).mpr h)
        refine ⟨merged, ?_⟩
        rw [List.foldlM_cons, bind_eq_ok_iff]
        exact ⟨next, hnext, hmerged⟩

/-- A struct has a value where the values under each of its labels have something in common. -/
theorem exists_structOf_iff :
    (∃ v, structOf fields = .ok v) ↔ ∀ label, ∃ r, unifyAll (valuesOf label fields) = .ok r := by
  have hstart : ∀ label, unifyAll (valuesOf label fields) =
      (valuesOf label fields).foldlM unify (valueAt label []) := fun _ => rfl
  simp only [hstart, ← exists_foldlM_putField_iff, structOf, map_eq_ok_iff]
  constructor
  · rintro ⟨_, merged, hmerged, _⟩
    exact ⟨merged, hmerged⟩
  · rintro ⟨merged, hmerged⟩
    exact ⟨_, merged, hmerged, rfl⟩

theorem exists_eval_struct_iff {scope : Scope} {fields : List (List Label × Tree)} :
    (∃ v, (Tree.struct fields).eval scope = .ok v) ↔
      ∃ values, evalFields scope fields = .ok values ∧
        ∀ label, ∃ r, unifyAll (valuesOf label values) = .ok r := by
  simp only [Tree.eval, bind_eq_ok_iff, ← exists_structOf_iff]
  constructor
  · rintro ⟨v, values, hvalues, hv⟩
    exact ⟨values, hvalues, v, hv⟩
  · rintro ⟨values, hvalues, v, hv⟩
    exact ⟨v, values, hvalues, hv⟩

theorem mem_of_mem_valuesOf (h : value ∈ valuesOf label fields) : (label, value) ∈ fields := by
  obtain ⟨⟨name, v⟩, hmem, rfl⟩ := List.mem_map.mp h
  obtain ⟨hfield, hname⟩ := List.mem_filter.mp hmem
  obtain rfl := beq_iff_eq.mp hname
  exact hfield

/-- A row of values that are unified one after the other where the expression is evaluated. -/
inductive Tree.Unifies (scope : Scope) : Tree → List Value → Prop
  | all {parts : List Tree} {values : List Value} (h : evalAll scope parts = .ok values) :
      Unifies scope (.all parts) values
  | struct {fields : List (List Label × Tree)} {values : List (String × Value)}
      (h : evalFields scope fields = .ok values) (label : String) :
      Unifies scope (.struct fields) (valuesOf label values)

/-- The conjunction with its operands, or the struct with its fields, in another order. -/
inductive Tree.Reordered : Tree → Tree → Prop
  | all {parts parts' : List Tree} (h : parts.Perm parts') : Reordered (.all parts) (.all parts')
  | struct {fields fields' : List (List Label × Tree)} (h : fields.Perm fields') :
      Reordered (.struct fields) (.struct fields')

theorem Tree.Reordered.symm {t t' : Tree} (h : t.Reordered t') : t'.Reordered t := by
  cases h with
  | all h => exact .all h.symm
  | struct h => exact .struct h.symm

theorem Tree.Reordered.wellFormed {t t' : Tree} (h : t.Reordered t') (ht : t.WellFormed) :
    t'.WellFormed := by
  cases h with
  | all h =>
      cases ht with
      | all ht => exact .all fun part hpart => ht part (h.mem_iff.mpr hpart)
  | struct h =>
      cases ht with
      | struct ht => exact .struct fun field hfield => ht field (h.mem_iff.mpr hfield)

/-- An expression that has a value has one in every order of its conjuncts that nothing hinders. -/
theorem exists_eval_of_reordered {scope : Scope} (hscope : ∀ f ∈ scope, f.2.WellFormed)
    {t t' : Tree} (ht : t.WellFormed) (hreordered : t.Reordered t')
    (hfree : ∀ row, t'.Unifies scope row → Unhindered row) {v : Value}
    (hv : t.eval scope = .ok v) : ∃ w, t'.eval scope = .ok w := by
  cases hreordered with
  | @all parts parts' hperm =>
      obtain ⟨values, hvalues, hunify⟩ := eval_all_eq_ok_iff.mp hv
      obtain ⟨values', hvalues', hrow⟩ := exists_evalAll_of_perm hperm hvalues
      have hwell : ∀ x ∈ values, x.WellFormed := by
        cases ht with
        | all ht => exact wellFormed_evalAll (fun t h _ => wellFormed_eval hscope (ht t h)) hvalues
      obtain ⟨w, hw, _⟩ := Value.exists_unifyAll_of_perm hrow hwell (hfree _ (.all hvalues')) hunify
      exact ⟨w, eval_all_eq_ok_iff.mpr ⟨values', hvalues', hw⟩⟩
  | @struct fields fields' hperm =>
      obtain ⟨values, hvalues, hunify⟩ := exists_eval_struct_iff.mp ⟨v, hv⟩
      obtain ⟨values', hvalues', hrow⟩ := exists_evalFields_of_perm hperm hvalues
      have hwell : ∀ f ∈ values, f.2.WellFormed := by
        cases ht with
        | struct ht =>
            exact wellFormed_evalFields (fun f h _ => wellFormed_eval hscope (ht f h)) hvalues
      refine exists_eval_struct_iff.mpr ⟨values', hvalues', fun label => ?_⟩
      obtain ⟨r, hr⟩ := hunify label
      obtain ⟨w, hw, _⟩ := Value.exists_unifyAll_of_perm ((hrow.filter _).map Prod.snd)
        (fun x hx => hwell _ (mem_of_mem_valuesOf hx)) (hfree _ (.struct hvalues' label)) hr
      exact ⟨w, hw⟩

/-- **The order of conjuncts.** In two orders of the same well-formed values, neither of which leads
to open lists whose tails clash or to a conflict that cannot be put in words, the values have a common
value both times or not at all, and it admits the same plain data. Hence a conjunction and a struct
have a value in such an order of their operands or fields just if they have one in the other. -/
theorem conjuncts_perm :
    (∀ vs ws : List Value, vs.Perm ws → (∀ v ∈ vs, v.WellFormed) → Unhindered vs → Unhindered ws →
      ((∃ r, unifyAll vs = .ok r) ↔ ∃ s, unifyAll ws = .ok s) ∧
        ∀ r s, unifyAll vs = .ok r → unifyAll ws = .ok s →
          ∀ data, data.concrete = true → (r.Admits data ↔ s.Admits data)) ∧
      ∀ (scope : Scope) (t t' : Tree), (∀ f ∈ scope, f.2.WellFormed) → t.WellFormed →
        t.Reordered t' → (∀ row, t.Unifies scope row → Unhindered row) →
        (∀ row, t'.Unifies scope row → Unhindered row) →
        ((∃ v, t.eval scope = .ok v) ↔ ∃ w, t'.eval scope = .ok w) := by
  constructor
  · intro vs ws hperm hwell hvs hws
    have hwswell : ∀ w ∈ ws, w.WellFormed := fun w hw => hwell w (hperm.mem_iff.mpr hw)
    refine ⟨⟨?_, ?_⟩, fun r s hr hs data hdata => ⟨fun hadmits => ?_, fun hadmits => ?_⟩⟩
    · rintro ⟨r, hr⟩
      obtain ⟨s, hs, _⟩ := Value.exists_unifyAll_of_perm hperm hwell hws hr
      exact ⟨s, hs⟩
    · rintro ⟨s, hs⟩
      obtain ⟨r, hr, _⟩ := Value.exists_unifyAll_of_perm hperm.symm hwswell hvs hs
      exact ⟨r, hr⟩
    · obtain ⟨s', hs', hsame⟩ := Value.exists_unifyAll_of_perm hperm hwell hws hr
      obtain rfl := Except.ok.inj (hs.symm.trans hs')
      exact hsame data hdata hadmits
    · obtain ⟨r', hr', hsame⟩ := Value.exists_unifyAll_of_perm hperm.symm hwswell hvs hs
      obtain rfl := Except.ok.inj (hr.symm.trans hr')
      exact hsame data hdata hadmits
  · intro scope t t' hscope ht hreordered hfree hfree'
    constructor
    · rintro ⟨v, hv⟩
      exact exists_eval_of_reordered hscope ht hreordered hfree' hv
    · rintro ⟨w, hw⟩
      exact exists_eval_of_reordered hscope (hreordered.wellFormed ht) hreordered.symm hfree hw

/-- A list of numbers, a list that starts with a whole number and the list of `1`, in two orders. -/
theorem conjuncts_perm_lists :
    let a : Value := .list [] (some (ofKind .number))
    let b : Value := .list [ofKind .int] (some (ofKind .int))
    let c : Value := .list [.atom (.int 1)] none
    let scope : Scope := [("a", a), ("b", b), ("c", c)]
    ((∃ r, unifyAll [a, b, c] = .ok r) ↔ ∃ s, unifyAll [c, b, a] = .ok s) ∧
      ((∃ v, (Tree.all [.ref "a", .ref "b", .ref "c"]).eval scope = .ok v) ↔
        ∃ w, (Tree.all [.ref "c", .ref "b", .ref "a"]).eval scope = .ok w) := by
  intro a b c scope
  have hscope : ∀ f ∈ scope, f.2.WellFormed := by
    simp [scope, a, b, c, ofKind, Constraint.wellFormed_iff, Atom.WellFormed]
  have hwell : ∀ v ∈ [a, b, c], v.WellFormed := by simpa [scope] using hscope
  have hab : ¬ Value.TailsClash a b := by
    refine Value.not_tailsClash_scalars (by simp [ofKind, Value.shape?])
      (by simp [ofKind, Value.shape?]) ?_
    rintro _ ⟨⟩ _ ⟨⟩
    exact Value.not_clashes_of_ok rfl
  have hbc : ¬ Value.TailsClash b c := by
    refine Value.not_tailsClash_scalars (by simp [Value.shape?]) (by simp [ofKind, Value.shape?]) ?_
    rintro _ _ _ ⟨⟩
  have hcb : ¬ Value.TailsClash c b := by
    refine Value.not_tailsClash_scalars (by simp [ofKind, Value.shape?]) (by simp [Value.shape?]) ?_
    rintro _ ⟨⟩
  have hca : ¬ Value.TailsClash c a := by
    refine Value.not_tailsClash_scalars (by simp [ofKind, Value.shape?]) (by simp [Value.shape?]) ?_
    rintro _ ⟨⟩
  have hvs : Unhindered [a, b, c] := by
    have hunify : unifyAll [a, b, c] = .ok c := rfl
    refine ⟨⟨Value.not_tailsClash_top a, fun r hr => ?_⟩, by simp [hunify]⟩
    obtain rfl : a = r := Except.ok.inj hr
    refine ⟨hab, fun r hr => ?_⟩
    obtain rfl : b = r := Except.ok.inj hr
    exact ⟨hbc, fun _ _ => trivial⟩
  have hws : Unhindered [c, b, a] := by
    have hunify : unifyAll [c, b, a] = .ok c := rfl
    refine ⟨⟨Value.not_tailsClash_top c, fun r hr => ?_⟩, by simp [hunify]⟩
    obtain rfl : c = r := Except.ok.inj hr
    refine ⟨hcb, fun r hr => ?_⟩
    obtain rfl : c = r := Except.ok.inj hr
    exact ⟨hca, fun _ _ => trivial⟩
  have hrows : ∀ parts values, evalAll scope parts = .ok values → Unhindered values →
      ∀ row, (Tree.all parts).Unifies scope row → Unhindered row := by
    rintro parts values hvalues hfree row ⟨h⟩
    rw [hvalues, Except.ok.injEq] at h
    exact h ▸ hfree
  have hperm : ∀ {α : Type} (x y z : α), [x, y, z].Perm [z, y, x] := fun x y z =>
    (List.reverse_perm [x, y, z]).symm
  refine ⟨(conjuncts_perm.1 _ _ (hperm a b c) hwell hvs hws).1, ?_⟩
  exact conjuncts_perm.2 scope _ _ hscope (.all (by simp [Tree.WellFormed.ref]))
    (.all (hperm _ _ _)) (hrows _ [a, b, c] rfl hvs) (hrows _ [c, b, a] rfl hws)

/-- Lists of whole numbers and lists of strings have the empty list in common, but are refused before
they meet it; behind it they are not. -/
theorem conjuncts_perm_open_lists :
    let ints : Value := .list [] (some (ofKind .int))
    let strings : Value := .list [] (some (ofKind .string))
    let vs : List Value := [ints, strings, .list [] none]
    let ws : List Value := [ints, .list [] none, strings]
    let t : Tree := .all [.list [.restOf (.ref "int")], .list [.restOf (.ref "string")], .list []]
    let t' : Tree := .all [.list [.restOf (.ref "int")], .list [], .list [.restOf (.ref "string")]]
    vs.Perm ws ∧ (∀ v ∈ vs, v.WellFormed) ∧
      (¬ ∃ r, unifyAll vs = .ok r) ∧ unifyAll ws = .ok (.list [] none) ∧
      (¬ ∃ v, t.eval [] = .ok v) ∧ t'.eval [] = .ok (.list [] none) := by
  intro ints strings vs ws t t'
  have hclash : unifyAll vs = .error (.conflicts [⟨"...",
      "conflicting values int and string (mismatched types)"⟩]) := rfl
  refine ⟨(List.Perm.swap _ _ _).cons _, ?_, ?_, rfl, ?_, rfl⟩
  · simp [vs, ints, strings, ofKind, Constraint.wellFormed_iff]
  · rintro ⟨r, hr⟩
    rw [hclash] at hr
    cases hr
  · rintro ⟨v, hv⟩
    obtain ⟨values, hvalues, hunify⟩ := eval_all_eq_ok_iff.mp hv
    obtain rfl : vs = values := Except.ok.inj hvalues
    rw [hclash] at hunify
    cases hunify

end ApiProbe.Expr
