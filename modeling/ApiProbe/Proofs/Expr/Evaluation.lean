import ApiProbe.Language
import ApiProbe.Proofs.Expr.Grammar
import ApiProbe.Proofs.Expr.Operation

/-!
# Evaluation in a scope of well-formed values

A text that has a value in a scope of well-formed values has a well-formed one.
-/

namespace ApiProbe

namespace Expr

variable {scope : Scope}

theorem evalAll_eq_ok_iff {trees : List Tree} {values : List Value} :
    evalAll scope trees = .ok values ↔
      List.Forall₂ (fun t v => t.eval scope = .ok v) trees values := by
  induction trees generalizing values with
  | nil => cases values <;> simp [evalAll]
  | cons t trees ih =>
      rw [evalAll, bind_eq_ok_iff]
      constructor
      · rintro ⟨v, hv, h⟩
        obtain ⟨rest, hrest, h⟩ := bind_eq_ok_iff.mp h
        obtain rfl := Except.ok.inj h
        exact .cons hv (ih.mp hrest)
      · rintro (⟨⟩ | ⟨hv, hrest⟩)
        exact ⟨_, hv, bind_eq_ok_iff.mpr ⟨_, ih.mpr hrest, rfl⟩⟩

theorem wellFormed_evalAll {trees : List Tree} {values : List Value}
    (ih : ∀ t ∈ trees, ∀ v, t.eval scope = .ok v → v.WellFormed)
    (h : evalAll scope trees = .ok values) : ∀ v ∈ values, v.WellFormed := by
  intro v hv
  obtain ⟨t, ht, heval⟩ := exists_mem_left_of_forall₂ (evalAll_eq_ok_iff.mp h) hv
  exact ih t ht v heval

theorem wellFormed_evalFields {fields : List (List Label × Tree)}
    {values : List (String × Value)}
    (ih : ∀ f ∈ fields, ∀ v, f.2.eval scope = .ok v → v.WellFormed)
    (h : evalFields scope fields = .ok values) : ∀ f ∈ values, f.2.WellFormed := by
  induction fields generalizing values with
  | nil =>
      unfold evalFields at h
      obtain rfl := Except.ok.inj h
      exact nofun
  | cons field fields ihFields =>
      obtain ⟨labels, t⟩ := field
      rw [List.forall_mem_cons] at ih
      unfold evalFields at h
      obtain ⟨names, _, h⟩ := bind_eq_ok_iff.mp h
      obtain ⟨v, hv, h⟩ := bind_eq_ok_iff.mp h
      obtain ⟨rest, hrest, h⟩ := bind_eq_ok_iff.mp h
      have hvalues := ihFields ih.2 hrest
      split at h
      · exact Except.ok.inj h ▸ hvalues
      · obtain rfl := Except.ok.inj h
        rw [List.forall_mem_cons]
        exact ⟨wellFormed_nest (ih.1 v hv), hvalues⟩

theorem wellFormed_evalItems {items : List (Item Tree)} {values : List (Item Value)}
    (ih : ∀ item ∈ items, ∀ t ∈ item.value?, ∀ v, t.eval scope = .ok v → v.WellFormed)
    (h : evalItems scope items = .ok values) :
    ∀ item ∈ values, ∀ v ∈ item.value?, v.WellFormed := by
  induction items generalizing values with
  | nil =>
      unfold evalItems at h
      obtain rfl := Except.ok.inj h
      exact nofun
  | cons item items ihItems =>
      rw [List.forall_mem_cons] at ih
      cases item with
      | value t =>
          unfold evalItems at h
          obtain ⟨v, hv, h⟩ := bind_eq_ok_iff.mp h
          obtain ⟨rest, hrest, h⟩ := bind_eq_ok_iff.mp h
          obtain rfl := Except.ok.inj h
          rw [List.forall_mem_cons]
          refine ⟨fun w hw => ?_, ihItems ih.2 hrest⟩
          exact Option.some.inj hw ▸ ih.1 t rfl v hv
      | rest =>
          unfold evalItems at h
          obtain ⟨rest, hrest, h⟩ := bind_eq_ok_iff.mp h
          obtain rfl := Except.ok.inj h
          rw [List.forall_mem_cons]
          exact ⟨nofun, ihItems ih.2 hrest⟩
      | restOf t =>
          unfold evalItems at h
          obtain ⟨v, hv, h⟩ := bind_eq_ok_iff.mp h
          obtain ⟨rest, hrest, h⟩ := bind_eq_ok_iff.mp h
          obtain rfl := Except.ok.inj h
          rw [List.forall_mem_cons]
          refine ⟨fun w hw => ?_, ihItems ih.2 hrest⟩
          exact Option.some.inj hw ▸ ih.1 t rfl v hv

theorem wellFormed_eval (hscope : ∀ f ∈ scope, f.2.WellFormed) {t : Tree} (ht : t.WellFormed)
    {v : Value} (h : t.eval scope = .ok v) : v.WellFormed := by
  induction ht generalizing v with
  | string =>
      unfold Tree.eval at h
      obtain ⟨s, _, rfl⟩ := map_eq_ok_iff.mp h
      exact .atom trivial
  | int =>
      unfold Tree.eval at h
      exact wellFormed_intOf h
  | float =>
      unfold Tree.eval at h
      exact wellFormed_floatOf h
  | ref =>
      unfold Tree.eval at h
      exact wellFormed_resolve hscope h
  | select _ ih =>
      unfold Tree.eval at h
      obtain ⟨target, htarget, h⟩ := bind_eq_ok_iff.mp h
      obtain ⟨name, _, h⟩ := bind_eq_ok_iff.mp h
      exact wellFormed_select (ih htarget) h
  | index _ _ ihTarget _ =>
      unfold Tree.eval at h
      obtain ⟨target, htarget, h⟩ := bind_eq_ok_iff.mp h
      obtain ⟨key, _, h⟩ := bind_eq_ok_iff.mp h
      exact wellFormed_index (ihTarget htarget) h
  | neg _ ih =>
      unfold Tree.eval at h
      obtain ⟨operand, hoperand, h⟩ := bind_eq_ok_iff.mp h
      exact wellFormed_negate (ih hoperand) h
  | not =>
      unfold Tree.eval at h
      obtain ⟨operand, _, h⟩ := bind_eq_ok_iff.mp h
      exact wellFormed_complement h
  | arith _ _ ihLeft ihRight =>
      unfold Tree.eval at h
      obtain ⟨left, hleft, h⟩ := bind_eq_ok_iff.mp h
      obtain ⟨right, hright, h⟩ := bind_eq_ok_iff.mp h
      exact wellFormed_arith (ihLeft hleft) (ihRight hright) h
  | test =>
      unfold Tree.eval at h
      obtain ⟨left, _, h⟩ := bind_eq_ok_iff.mp h
      obtain ⟨right, _, h⟩ := bind_eq_ok_iff.mp h
      exact wellFormed_compare h
  | bound _ ih =>
      unfold Tree.eval at h
      obtain ⟨limit, hlimit, h⟩ := bind_eq_ok_iff.mp h
      exact wellFormed_bound (ih hlimit) h
  | all _ ih =>
      unfold Tree.eval at h
      obtain ⟨values, hvalues, h⟩ := bind_eq_ok_iff.mp h
      have hall := wellFormed_evalAll (fun t ht v hv => ih t ht hv) hvalues
      cases values with
      | nil =>
          obtain rfl := Except.ok.inj h
          exact .top
      | cons first rest =>
          rw [List.forall_mem_cons] at hall
          exact wellFormed_meet hall.1 hall.2 h
  | any hne _ ih =>
      unfold Tree.eval at h
      obtain ⟨values, hvalues, h⟩ := bind_eq_ok_iff.mp h
      obtain rfl := Except.ok.inj h
      have hlength := (evalAll_eq_ok_iff.mp hvalues).length_eq
      refine wellFormed_join ?_ (wellFormed_evalAll (fun t ht v hv => ih t ht hv) hvalues)
      rintro rfl
      exact hne (List.eq_nil_of_length_eq_zero hlength)
  | struct _ ih =>
      unfold Tree.eval at h
      obtain ⟨values, hvalues, h⟩ := bind_eq_ok_iff.mp h
      exact wellFormed_structOf (wellFormed_evalFields (fun f hf v hv => ih f hf hv) hvalues) h
  | list _ ih =>
      unfold Tree.eval at h
      obtain ⟨values, hvalues, h⟩ := bind_eq_ok_iff.mp h
      refine wellFormed_listOf (wellFormed_evalItems ?_ hvalues) h
      intro item hitem t ht v hv
      exact ih item hitem t ht hv

theorem wellFormed_evalDocument (hscope : ∀ f ∈ scope, f.2.WellFormed) {document : Document}
    (hdocument : document.WellFormed) {v : Value} (h : document.eval scope = .ok v) :
    v.WellFormed := by
  cases document with
  | empty =>
      obtain rfl := Except.ok.inj h
      simp
  | fields all =>
      obtain ⟨values, hvalues, h⟩ := bind_eq_ok_iff.mp h
      refine wellFormed_structOf (wellFormed_evalFields ?_ hvalues) h
      intro f hf v hv
      exact wellFormed_eval hscope (hdocument f hf) hv
  | value tree => exact wellFormed_eval hscope hdocument h

theorem compile_eq_ok_iff {text : String} {document : Document} (h : parse text = .ok document)
    {v : Value} : compile scope text = .ok v ↔ document.eval scope = .ok v := by
  rw [compile, h]
  dsimp only
  split <;> simp_all

theorem wellFormed_compile (hscope : ∀ f ∈ scope, f.2.WellFormed) {text : String} {v : Value}
    (h : compile scope text = .ok v) : v.WellFormed := by
  cases hparse : parse text with
  | error error =>
      rw [compile, hparse] at h
      cases h
  | ok document =>
      exact wellFormed_evalDocument hscope (wellFormed_parse hparse) ((compile_eq_ok_iff hparse).mp h)

end Expr

theorem Language.compile_eq_ok_iff {scope : Expr.Scope} {source : Option String} {text : String}
    {v : Value} : compile scope source text = .ok v ↔ Expr.compile scope text = .ok v := by
  rw [compile]
  split <;> simp_all

end ApiProbe
