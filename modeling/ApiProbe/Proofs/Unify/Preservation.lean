import ApiProbe.Proofs.Unify.Equations
import ApiProbe.Proofs.Unify.Merge
import ApiProbe.Proofs.Value.Field

/-!
# Unification of well-formed values

The common value of two well-formed values is well formed. Alternatives stay flat because no two
values that are no alternatives have an alternative as their common value.
-/

namespace ApiProbe

namespace Constraint

theorem Kind.suits_of_agrees {kind : Kind} {bound : Bound} (hbound : bound.WellFormed)
    (h : agrees kind bound = true) : kind.Suits bound := by
  cases bound with
  | order o limit =>
      obtain ⟨_, hlimit⟩ := hbound
      cases kind <;> cases limit <;>
        simp_all [agrees, Kind.Suits, Kind.accepts, Atom.isNumber, Atom.kind]
  | ne limit => exact trivial
  | pattern wanted source => simpa [agrees, Kind.Suits] using h

theorem mergeKinds_eq_ok_none {k l : Option Kind} (h : mergeKinds k l = .ok none) :
    k = none ∧ l = none := by
  rw [mergeKinds.eq_def] at h
  split at h
  · split at h
    · cases h
    · cases h
  · cases h
  · exact ⟨rfl, Except.ok.inj h⟩

theorem wellFormed_merge {c d merged : Constraint} (hc : c.WellFormed) (hd : d.WellFormed)
    (h : c.merge d = .ok merged) : merged.WellFormed := by
  obtain ⟨hkind, hbounds, hagrees⟩ := merge_eq_ok_iff.mp h
  have hmem : ∀ bound ∈ merged.bounds, bound.WellFormed := by
    intro bound hbound
    rw [hbounds] at hbound
    rcases mem_of_mem_distinctBy hbound with hkept | hmem
    · cases hkept
    · exact (List.mem_append.mp hmem).elim (hc.bounds bound) (hd.bounds bound)
  refine ⟨?_, hmem, ?_, ?_⟩
  · by_cases hnone : merged.kind = none
    · rw [hnone] at hkind
      obtain ⟨hk, hl⟩ := mergeKinds_eq_ok_none hkind
      have hsome : c.bounds ≠ [] := hc.nonempty.resolve_left (not_not_intro hk)
      obtain ⟨bound, hbound⟩ := List.exists_mem_of_ne_nil _ hsome
      have hkeeps : ∃ kept ∈ distinctBy Bound.same [] (c.bounds ++ d.bounds),
          kept = bound ∨ bound.same kept = true :=
        exists_mem_distinctBy (List.mem_append_left _ hbound)
      obtain ⟨kept, hkept, _⟩ := hkeeps
      exact Or.inr (List.ne_nil_of_mem (hbounds ▸ hkept))
    · exact Or.inl hnone
  · rw [hbounds]
    exact pairwise_distinctBy List.Pairwise.nil
  · exact fun kind hkind bound hbound =>
      Kind.suits_of_agrees (hmem bound hbound) (hagrees kind hkind bound hbound)

end Constraint

namespace Value

theorem wellFormed_ofOptions {xs : List Value} (hne : xs ≠ []) (h : ∀ x ∈ xs, x.WellFormed)
    (hflat : ∀ x ∈ xs, x.isAny = false) : (ofOptions xs).WellFormed := by
  rcases ofOptions_cases xs with ⟨x, hone, hoptions⟩ | ⟨hmany, hoptions⟩
  · rw [hoptions]
    exact h x (mem_distinct (hone ▸ List.mem_singleton_self x))
  · rw [hoptions]
    refine .any ?_ (pairwise_distinct xs) (fun x hx => hflat x (mem_distinct hx))
      fun x hx => h x (mem_distinct hx)
    have hsome : distinct xs ≠ [] := mt distinct_eq_nil_iff.mp hne
    match hdistinct : distinct xs with
    | [] => exact absurd hdistinct hsome
    | [x] => exact absurd hdistinct (hmany x)
    | _ :: _ :: _ => simp

/-- The common value of values that are no alternatives is none either. -/
theorem isAny_of_unifyAt {path : String} {a b r : Value} (ha : a.isAny = false)
    (hb : b.isAny = false) (h : unifyAt path a b = .ok r) : r.isAny = false := by
  induction a, b using induct₂ with
  | topLeft b =>
      rw [unifyAt_top_left, Except.ok.injEq] at h
      exact h ▸ hb
  | topRight a =>
      rw [unifyAt_top_right, Except.ok.injEq] at h
      exact h ▸ ha
  | any a b _ _ hany =>
      rw [ha, hb] at hany
      simp at hany
  | shapes a b s t hs ht hne =>
      rw [unifyAt_of_shape_ne path hs ht hne] at h
      cases h
  | atoms a b =>
      rw [unifyAt_atom] at h
      split at h
      · exact Except.ok.inj h ▸ rfl
      · cases h
  | atomConstraint a c =>
      rw [unifyAt_atom_constraint] at h
      exact (restrict_eq_ok_iff.mp h).2 ▸ rfl
  | constraintAtom c a =>
      rw [unifyAt_constraint_atom] at h
      exact (restrict_eq_ok_iff.mp h).2 ▸ rfl
  | constraints c d =>
      obtain ⟨_, _, rfl⟩ := unifyAt_constraint_eq_ok_iff.mp h
      rfl
  | struct fields others =>
      rw [unifyAt_struct] at h
      obtain ⟨_, _, rfl⟩ := map_eq_ok_iff.mp h
      rfl
  | list items tail others rest =>
      obtain ⟨_, _, _, rfl, _⟩ := unifyAt_list_eq_ok h
      rfl

/-- The labels of unified fields are those of the first list, then those that only the second one
has. -/
theorem nodup_labels_unifyFields {path : String} {fields others merged : List (String × Value)}
    (hfields : (fields.map Prod.fst).Nodup) (hothers : (others.map Prod.fst).Nodup)
    (h : unifyFields path fields others = .ok merged) :
    ((merged ++ newFields fields others).map Prod.fst).Nodup := by
  have hmerged : merged.map Prod.fst = fields.map Prod.fst := by
    have hforall : List.Forall₂ Eq (merged.map Prod.fst) (fields.map Prod.fst) := by
      rw [List.forall₂_map_left_iff, List.forall₂_map_right_iff]
      exact (unifyFields_eq_ok_iff.mp h).flip.imp fun _ _ hfield => hfield.1
    rwa [List.forall₂_eq_eq_eq] at hforall
  rw [List.map_append, hmerged]
  refine List.Nodup.append hfields ?_ fun label hfield hnew => ?_
  · exact hothers.sublist (List.filter_sublist.map Prod.fst)
  · obtain ⟨g, hg, rfl⟩ := List.mem_map.mp hnew
    have hnone := (List.mem_filter.mp hg).2
    rw [Option.isNone_iff_eq_none, lookup?_eq_none_iff] at hnone
    exact hnone hfield

/-- The common value of two well-formed values, at every place, is well formed. -/
theorem wellFormed_unifyAt {a b : Value} (ha : a.WellFormed) (hb : b.WellFormed) {path : String}
    {r : Value} (h : unifyAt path a b = .ok r) : r.WellFormed := by
  induction a, b using induct₂ generalizing path r with
  | topLeft b =>
      rw [unifyAt_top_left, Except.ok.injEq] at h
      exact h ▸ hb
  | topRight a =>
      rw [unifyAt_top_right, Except.ok.injEq] at h
      exact h ▸ ha
  | any a b hatop hbtop hany ih =>
      rw [unifyAt_any path hatop hbtop hany] at h
      obtain ⟨_, hsome, rfl⟩ := choose_eq_ok_iff.mp h
      have hfrom : ∀ z ∈ successes (pairResults path a b),
          ∃ x ∈ a.options, ∃ y ∈ b.options, unifyAt path x y = .ok z :=
        fun z hz => mem_pairResults.mp (mem_successes.mp hz)
      refine wellFormed_ofOptions hsome (fun z hz => ?_) fun z hz => ?_
      · obtain ⟨x, hx, y, hy, hunify⟩ := hfrom z hz
        exact ih x hx y hy (ha.options x hx) (hb.options y hy) hunify
      · obtain ⟨x, hx, y, hy, hunify⟩ := hfrom z hz
        exact isAny_of_unifyAt (ha.isAny_of_mem_options x hx) (hb.isAny_of_mem_options y hy) hunify
  | shapes a b s t hs ht hne =>
      rw [unifyAt_of_shape_ne path hs ht hne] at h
      cases h
  | atoms a b =>
      rw [unifyAt_atom] at h
      split at h
      · exact Except.ok.inj h ▸ ha
      · cases h
  | atomConstraint a c =>
      rw [unifyAt_atom_constraint] at h
      exact (restrict_eq_ok_iff.mp h).2 ▸ ha
  | constraintAtom c a =>
      rw [unifyAt_constraint_atom] at h
      exact (restrict_eq_ok_iff.mp h).2 ▸ hb
  | constraints c d =>
      obtain ⟨merged, hmerge, rfl⟩ := unifyAt_constraint_eq_ok_iff.mp h
      rw [wellFormed_constraint] at ha hb ⊢
      exact Constraint.wellFormed_merge ha hb hmerge
  | struct fields others ih =>
      rw [unifyAt_struct] at h
      obtain ⟨merged, hmerged, rfl⟩ := map_eq_ok_iff.mp h
      rw [wellFormed_struct] at ha hb ⊢
      refine ⟨nodup_labels_unifyFields ha.1 hb.1 hmerged, fun m hm => ?_⟩
      rcases List.mem_append.mp hm with hm | hm
      · obtain ⟨f, hf, _, hvalue⟩ :=
          exists_mem_left_of_forall₂ (unifyFields_eq_ok_iff.mp hmerged) hm
        rcases hvalue with ⟨y, hy, hunify⟩ | ⟨_, hkept⟩
        · have hmem := mem_of_lookup? hy
          exact ih f hf _ hmem (ha.2 f hf) (hb.2 _ hmem) hunify
        · exact hkept ▸ ha.2 f hf
      · exact hb.2 m (List.mem_of_mem_filter hm)
  | list items tail others rest ih =>
      obtain ⟨_, merged, last, rfl, _, hitem⟩ := unifyAt_list_eq_ok h
      rw [wellFormed_list] at ha hb
      have hpoint : ∀ i m, itemAt? merged last i = some m → m.WellFormed := by
        intro i m hm
        obtain ⟨q, x, y, hx, hy, hunify⟩ := hitem i m hm
        have hxmem := mem_of_itemAt? hx
        have hymem := mem_of_itemAt? hy
        exact ih x hxmem y hymem (hxmem.elim (ha.1 x) (ha.2 x)) (hymem.elim (hb.1 y) (hb.2 y)) hunify
      rw [wellFormed_list]
      constructor
      · intro m hm
        obtain ⟨i, hi⟩ := List.getElem?_of_mem hm
        exact hpoint i m (by rw [itemAt?, hi, Option.some_or])
      · intro m hm
        exact hpoint merged.length m (by simpa [itemAt?] using hm)

theorem wellFormed_unify {a b r : Value} (ha : a.WellFormed) (hb : b.WellFormed)
    (h : unify a b = .ok r) : r.WellFormed :=
  wellFormed_unifyAt ha hb h

end Value

end ApiProbe
