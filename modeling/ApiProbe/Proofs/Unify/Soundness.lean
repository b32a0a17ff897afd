import ApiProbe.Proofs.Unify.Equations
import ApiProbe.Proofs.Unify.Merge
import ApiProbe.Proofs.Value.Field

/-!
# Soundness of unification

What the common value of two values admits, both values admit: no bound, item, tail or field of either
side is lost on the way.
-/

namespace ApiProbe.Value

/-- Some option of the common value of two values comes from an option of each. -/
theorem exists_unified_option {path : String} {a b r data : Value}
    (h : choose path a b (pairResults path a b) = .ok r) (hr : r.Admits data) :
    ∃ x ∈ a.options, ∃ y ∈ b.options, ∃ z, unifyAt path x y = .ok z ∧ z.Admits data := by
  obtain ⟨_, _, rfl⟩ := choose_eq_ok_iff.mp h
  obtain ⟨z, hz, hadmits⟩ := admits_ofOptions.mp hr
  obtain ⟨x, hx, y, hy, hunify⟩ := mem_pairResults.mp (mem_successes.mp hz)
  exact ⟨x, hx, y, hy, z, hunify, hadmits⟩

section Structs

variable {path : String} {fields others merged entries : List (String × Value)}

/-- The fields of both structs are admitted where the unified fields are. -/
theorem admits_fields_of_unifyFields (hothers : (others.map Prod.fst).Nodup)
    (ih : ∀ f ∈ fields, ∀ g ∈ others, ∀ q z x, unifyAt q f.2 g.2 = .ok z → z.Admits x →
      f.2.Admits x ∧ g.2.Admits x)
    (h : unifyFields path fields others = .ok merged)
    (hmerged : ∀ m ∈ merged ++ newFields fields others,
      ∃ x, lookup? m.1 entries = some x ∧ m.2.Admits x) :
    (∀ f ∈ fields, ∃ x, lookup? f.1 entries = some x ∧ f.2.Admits x) ∧
      ∀ g ∈ others, ∃ x, lookup? g.1 entries = some x ∧ g.2.Admits x := by
  have hforall := unifyFields_eq_ok_iff.mp h
  constructor
  · intro f hf
    obtain ⟨m, hm, hlabel, hvalue⟩ := exists_mem_left_of_forall₂ hforall.flip hf
    obtain ⟨x, hx, hadmits⟩ := hmerged m (List.mem_append_left _ hm)
    refine ⟨x, hlabel ▸ hx, ?_⟩
    rcases hvalue with ⟨y, hy, hunify⟩ | ⟨_, hkept⟩
    · exact (ih f hf _ (mem_of_lookup? hy) _ _ x hunify hadmits).1
    · exact hkept ▸ hadmits
  · intro g hg
    cases hown : lookup? g.1 fields with
    | none =>
        refine hmerged g (List.mem_append_right _ ?_)
        rw [newFields, List.mem_filter]
        exact ⟨hg, by rw [hown]; rfl⟩
    | some y =>
        have hf := mem_of_lookup? hown
        obtain ⟨m, hm, hlabel, hvalue⟩ := exists_mem_left_of_forall₂ hforall.flip hf
        obtain ⟨x, hx, hadmits⟩ := hmerged m (List.mem_append_left _ hm)
        refine ⟨x, hlabel ▸ hx, ?_⟩
        rcases hvalue with ⟨z, hz, hunify⟩ | ⟨hnone, _⟩
        · rw [lookup?_eq_some_of_mem hothers hg] at hz
          obtain rfl := Option.some.inj hz
          exact (ih _ hf g hg _ _ x hunify hadmits).2
        · rw [lookup?_eq_some_of_mem hothers hg] at hnone
          cases hnone

end Structs

/-- The lists are admitted where the unified list is. -/
theorem admits_items_of_unifyAt {path : String} {items others : List Value}
    {tail rest : Option Value} {r data : Value}
    (ih : ∀ x, x ∈ items ∨ x ∈ tail → ∀ y, y ∈ others ∨ y ∈ rest → ∀ q z d,
      unifyAt q x y = .ok z → z.Admits d → x.Admits d ∧ y.Admits d)
    (h : unifyAt path (.list items tail) (.list others rest) = .ok r) (hr : r.Admits data) :
    (Value.list items tail).Admits data ∧ (Value.list others rest).Admits data := by
  obtain ⟨_, merged, last, rfl, hlength, hitem⟩ := unifyAt_list_eq_ok h
  obtain ⟨elements, rfl, hlong, helements⟩ := admits_list.mp hr
  have hpoint : ∀ i d, elements[i]? = some d → ∃ x y, itemAt? items tail i = some x ∧
      itemAt? others rest i = some y ∧ x.Admits d ∧ y.Admits d := by
    intro i d hd
    obtain ⟨m, hm, hadmits⟩ := helements i d hd
    obtain ⟨q, x, y, hx, hy, hunify⟩ := hitem i m hm
    exact ⟨x, y, hx, hy, ih x (mem_of_itemAt? hx) y (mem_of_itemAt? hy) q m d hunify hadmits⟩
  constructor
  · refine admits_list.mpr ⟨elements, rfl, by omega, fun i d hd => ?_⟩
    obtain ⟨x, _, hx, _, hadmits, _⟩ := hpoint i d hd
    exact ⟨x, hx, hadmits⟩
  · refine admits_list.mpr ⟨elements, rfl, by omega, fun i d hd => ?_⟩
    obtain ⟨_, y, _, hy, _, hadmits⟩ := hpoint i d hd
    exact ⟨y, hy, hadmits⟩

/-- At every place, the common value of two well-formed values admits only what both admit. -/
theorem admits_of_unifyAt {a b : Value} (ha : a.WellFormed) (hb : b.WellFormed) {path : String}
    {r data : Value} (h : unifyAt path a b = .ok r) (hr : r.Admits data) :
    a.Admits data ∧ b.Admits data := by
  induction a, b using induct₂ generalizing path r data with
  | topLeft b =>
      rw [unifyAt_top_left, Except.ok.injEq] at h
      exact ⟨.top, h ▸ hr⟩
  | topRight a =>
      rw [unifyAt_top_right, Except.ok.injEq] at h
      exact ⟨h ▸ hr, .top⟩
  | any a b hatop hbtop hany ih =>
      rw [unifyAt_any path hatop hbtop hany] at h
      obtain ⟨x, hx, y, hy, z, hunify, hz⟩ := exists_unified_option h hr
      have := ih x hx y hy (ha.options x hx) (hb.options y hy) hunify hz
      exact ⟨admits_options.mpr ⟨x, hx, this.1⟩, admits_options.mpr ⟨y, hy, this.2⟩⟩
  | shapes a b s t hs ht hne =>
      rw [unifyAt_of_shape_ne path hs ht hne] at h
      cases h
  | atoms a b =>
      rw [unifyAt_atom] at h
      split at h
      · rename_i hsame
        obtain rfl := Except.ok.inj h
        cases hr with
        | atom hdata => exact ⟨.atom hdata, .atom (Atom.same_trans (Atom.same_symm hsame) hdata)⟩
      · cases h
  | atomConstraint a c =>
      rw [unifyAt_atom_constraint] at h
      obtain ⟨hholds, rfl⟩ := restrict_eq_ok_iff.mp h
      cases hr with
      | atom hdata => exact ⟨.atom hdata, .constraint (Constraint.holds_congr hdata hholds)⟩
  | constraintAtom c a =>
      rw [unifyAt_constraint_atom] at h
      obtain ⟨hholds, rfl⟩ := restrict_eq_ok_iff.mp h
      cases hr with
      | atom hdata => exact ⟨.constraint (Constraint.holds_congr hdata hholds), .atom hdata⟩
  | constraints c d =>
      obtain ⟨merged, hmerge, rfl⟩ := unifyAt_constraint_eq_ok_iff.mp h
      cases hr with
      | constraint hholds =>
          have := (Constraint.holds_merge hmerge _).mp hholds
          exact ⟨.constraint this.1, .constraint this.2⟩
  | struct fields others ih =>
      rw [unifyAt_struct] at h
      obtain ⟨merged, hmerged, rfl⟩ := map_eq_ok_iff.mp h
      obtain ⟨entries, rfl, hentries⟩ := admits_struct.mp hr
      cases ha with
      | struct _ hfields =>
          cases hb with
          | struct hlabels hothers =>
              have := admits_fields_of_unifyFields hlabels
                (fun f hf g hg q z x hz hx => ih f hf g hg (hfields f hf) (hothers g hg) hz hx)
                hmerged hentries
              exact ⟨admits_struct.mpr ⟨entries, rfl, this.1⟩,
                admits_struct.mpr ⟨entries, rfl, this.2⟩⟩
  | list items tail others rest ih =>
      have hitems : ∀ x, x ∈ items ∨ x ∈ tail → x.WellFormed := by
        cases ha with
        | list hitems htail => exact fun x hx => hx.elim (hitems x) (htail x)
      have hothers : ∀ y, y ∈ others ∨ y ∈ rest → y.WellFormed := by
        cases hb with
        | list hothers hrest => exact fun y hy => hy.elim (hothers y) (hrest y)
      exact admits_items_of_unifyAt
        (fun x hx y hy q z d hz hd => ih x hx y hy (hitems x hx) (hothers y hy) hz hd) h hr

/-- **Soundness.** What the common value of two well-formed values admits, both of them admit. -/
theorem unify_sound {a b r data : Value} (ha : a.WellFormed) (hb : b.WellFormed)
    (h : unify a b = .ok r) (hr : r.Admits data) : a.Admits data ∧ b.Admits data :=
  admits_of_unifyAt ha hb h hr

/-- Unifying an order for a positive number and a list that starts with `1` with alternatives and a
list of at least two items. -/
theorem unify_sound_alternatives :
    let a : Value := .struct [("n", .constraint ⟨some .number, [.order .gt (.int 0)]⟩),
      ("xs", .list [.atom (.int 1)] (some (ofKind .int)))]
    let b : Value := .struct [("xs", .list [ofKind .int, .atom (.int 2)] (some .top)),
      ("n", .any [.atom (.string "a"), .constraint ⟨none, [.order .le (.int 5)]⟩])]
    let data : Value := .struct [("n", .atom (.int 3)),
      ("xs", .list [.atom (.int 1), .atom (.int 2), .atom (.int 7)] none)]
    a.Admits data ∧ b.Admits data := by
  intro a b data
  have ha : a.WellFormed := by
    simp [a, ofKind, Constraint.wellFormed_iff, Bound.WellFormed, Atom.WellFormed, Kind.Suits,
      Atom.isNumber]
  have hb : b.WellFormed := by
    simp [b, ofKind, Constraint.wellFormed_iff, Bound.WellFormed, Atom.WellFormed, Atom.isNumber,
      isAny, same]
  have hunify : unify a b = .ok (.struct
      [("n", .constraint ⟨some .number, [.order .gt (.int 0), .order .le (.int 5)]⟩),
        ("xs", .list [.atom (.int 1), .atom (.int 2)] (some (ofKind .int)))]) := rfl
  refine unify_sound ha hb hunify (admits_struct.mpr ⟨_, rfl, ?_⟩)
  simp only [List.mem_cons, List.not_mem_nil, or_false, forall_eq_or_imp, forall_eq]
  refine ⟨⟨_, rfl, admits_constraint.mpr ?_⟩, _, rfl, admits_list.mpr ⟨_, rfl, by decide, ?_⟩⟩
  · exact Constraint.check_eq_none_iff.mp rfl
  · intro i x hx
    rcases i with _ | _ | _ | i
    · exact ⟨_, rfl, Option.some.inj hx ▸ admits_atom.mpr rfl⟩
    · exact ⟨_, rfl, Option.some.inj hx ▸ admits_atom.mpr rfl⟩
    · refine ⟨_, rfl, Option.some.inj hx ▸ admits_constraint.mpr ?_⟩
      exact Constraint.check_eq_none_iff.mp rfl
    · cases hx

end ApiProbe.Value
