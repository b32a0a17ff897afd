import ApiProbe.Proofs.Unify.Completeness
import ApiProbe.Proofs.Unify.Symmetry

/-!
# Unifying again

A common value has no conflict with the values it comes from: unifying it with one of them can only
break off at a conflict with some other option that cannot be put in words. Where no alternative is
involved, the common value absorbs both values.
-/

namespace ApiProbe

section Distinct

variable {α : Type} {same : α → α → Bool}

theorem distinctBy_append (kept xs ys : List α) :
    distinctBy same kept (xs ++ ys) = distinctBy same (distinctBy same kept xs) ys := by
  induction xs generalizing kept with
  | nil => rfl
  | cons x xs ih => exact ih _

/-- Nothing is kept of what is the same as something kept already. -/
theorem distinctBy_of_covered {kept xs : List α} (h : ∀ x ∈ xs, ∃ y ∈ kept, same x y = true) :
    distinctBy same kept xs = kept := by
  induction xs with
  | nil => rfl
  | cons x xs ih =>
      rw [List.forall_mem_cons] at h
      rw [distinctBy, if_pos (List.any_eq_true.mpr h.1), ih h.2]

end Distinct

theorem Bound.same_self {bound : Bound} (h : bound.WellFormed) : bound.same bound = true := by
  cases bound with
  | order o limit => rw [same, beq_self_eq_true, Atom.same_self h.1]; rfl
  | ne limit => rw [same, Atom.same_self h]
  | pattern wanted source => rw [same, beq_self_eq_true, beq_self_eq_true]; rfl

namespace Constraint

theorem mergeKinds_self (k : Option Kind) : mergeKinds k k = .ok k := by
  match k with
  | none => rfl
  | some k => rw [mergeKinds, meetKinds_self]

theorem mergeKinds_of_includes {k l : Kind} (h : k.Includes l) :
    mergeKinds (some l) (some k) = .ok (some l) := by
  have hmeet : meetKinds l k = some l := meetKinds_eq_some_iff.mpr ⟨.self, h, Or.inl rfl⟩
  rw [mergeKinds, hmeet]

theorem mergeKinds_absorb {k l m : Option Kind} (h : mergeKinds k l = .ok m) :
    mergeKinds m k = .ok m ∧ mergeKinds m l = .ok m := by
  match k, l with
  | none, l =>
      obtain rfl := Except.ok.inj h
      exact ⟨by cases l <;> rfl, mergeKinds_self l⟩
  | some k, none =>
      obtain rfl := Except.ok.inj h
      exact ⟨mergeKinds_self _, rfl⟩
  | some k, some l =>
      simp only [mergeKinds] at h
      split at h
      · rename_i n hmeet
        obtain rfl := Except.ok.inj h
        obtain ⟨hk, hl, -⟩ := meetKinds_eq_some_iff.mp hmeet
        exact ⟨mergeKinds_of_includes hk, mergeKinds_of_includes hl⟩
      · cases h

/-- A constraint absorbs one whose kind and whose bounds it has already. -/
theorem merge_covered {m c : Constraint} (hm : m.WellFormed)
    (hkind : mergeKinds m.kind c.kind = .ok m.kind)
    (hcover : ∀ bound ∈ c.bounds, ∃ own ∈ m.bounds, bound.same own = true) :
    m.merge c = .ok m := by
  have hown : distinctBy Bound.same [] m.bounds = [] ++ m.bounds :=
    distinctBy_eq_append (by simpa using hm.distinct)
  refine merge_eq_ok_iff.mpr ⟨hkind, ?_, fun kind hk bound hbound => ?_⟩
  · rw [distinctBy_append, hown, List.nil_append, distinctBy_of_covered hcover]
  · exact Kind.agrees_of_suits (hm.suits kind hk bound hbound)

theorem merge_self {c : Constraint} (h : c.WellFormed) : c.merge c = .ok c :=
  merge_covered h (mergeKinds_self c.kind) fun bound hbound =>
    ⟨bound, hbound, Bound.same_self (h.bounds bound hbound)⟩

/-- The merger of two constraints absorbs both. -/
theorem merge_absorb {c d m : Constraint} (hc : c.WellFormed) (hd : d.WellFormed)
    (h : c.merge d = .ok m) : m.merge c = .ok m ∧ m.merge d = .ok m := by
  have hm := wellFormed_merge hc hd h
  obtain ⟨hkind, hbounds, _⟩ := merge_eq_ok_iff.mp h
  have hcover : ∀ bound ∈ c.bounds ++ d.bounds, bound.WellFormed →
      ∃ own ∈ m.bounds, bound.same own = true := by
    intro bound hbound hwell
    have hkeeps : ∃ kept ∈ distinctBy Bound.same [] (c.bounds ++ d.bounds),
        kept = bound ∨ bound.same kept = true := exists_mem_distinctBy hbound
    rw [← hbounds] at hkeeps
    obtain ⟨kept, hkept, rfl | hsame⟩ := hkeeps
    · exact ⟨kept, hkept, Bound.same_self hwell⟩
    · exact ⟨kept, hkept, hsame⟩
  constructor
  · exact merge_covered hm (mergeKinds_absorb hkind).1 fun bound hbound =>
      hcover bound (List.mem_append_left _ hbound) (hc.bounds bound hbound)
  · exact merge_covered hm (mergeKinds_absorb hkind).2 fun bound hbound =>
      hcover bound (List.mem_append_right _ hbound) (hd.bounds bound hbound)

end Constraint

namespace Value

open Unified (tally tally_eq_zero_iff tally_eq_top_iff)

theorem clashes_iff_tally {a b : Value} :
    Clashes a b ↔ tally (unify a b) ≠ 0 ∧ tally (unify a b) ≠ WithZero.coe ⊤ := by
  rw [Ne, Ne, tally_eq_zero_iff, tally_eq_top_iff]
  constructor
  · rintro ⟨all, hall⟩
    simp [hall]
  · rintro ⟨hok, hwords⟩
    by_contra hclash
    exact hok (exists_unify_of_not_clashes hclash hwords)

theorem clashes_comm {a b : Value} (ha : a.WellFormed) (hb : b.WellFormed) :
    Clashes a b ↔ Clashes b a := by
  rw [clashes_iff_tally, clashes_iff_tally, unify, unify, tally_unifyAt_comm ha hb]

theorem unify_atom_self {a : Atom} (h : a.WellFormed) :
    unify (.atom a) (.atom a) = .ok (.atom a) := by
  rw [unify, unifyAt_atom, if_pos (Atom.same_self h)]

theorem unify_constraint_self {c : Constraint} (h : c.WellFormed) :
    unify (.constraint c) (.constraint c) = .ok (.constraint c) :=
  unifyAt_constraint_eq_ok_iff.mpr ⟨c, Constraint.merge_self h, rfl⟩

/-- Lists that clash have a length that rules the other out, or clash at an index. -/
theorem clashes_itemAt? {items others : List Value} {tail rest : Option Value}
    (h : Clashes (.list items tail) (.list others rest))
    (hclash : lengthsClash items.length others.length tail.isSome rest.isSome = false) :
    ∃ i x y, itemAt? items tail i = some x ∧ itemAt? others rest i = some y ∧ Clashes x y := by
  rcases clashes_list h with hlengths | ⟨i, x, y, _, hx, hy, hxy⟩ | ⟨x, y, rfl, rfl, hxy⟩
  · rw [hlengths] at hclash
    cases hclash
  · exact ⟨i, x, y, hx, hy, hxy⟩
  · refine ⟨max items.length others.length, x, y, ?_, ?_, hxy⟩
    · rw [itemAt?, List.getElem?_eq_none (le_max_left ..), Option.none_or]
    · rw [itemAt?, List.getElem?_eq_none (le_max_right ..), Option.none_or]

/-- Every common value of alternatives has an option that is the common value of two options. -/
theorem exists_option_unify_any {a b r : Value} (ha : a ≠ .top) (hb : b ≠ .top)
    (hany : a.isAny = true ∨ b.isAny = true) (hawell : a.WellFormed) (hbwell : b.WellFormed)
    (h : unify a b = .ok r) :
    ∃ z ∈ r.options, ∃ x ∈ a.options, ∃ y ∈ b.options, unify x y = .ok z := by
  rw [unify_any ha hb hany] at h
  obtain ⟨_, hsome, rfl⟩ := choose_eq_ok_iff.mp h
  have hdistinct : distinct (successes (pairResults "" a b)) ≠ [] := mt distinct_eq_nil_iff.mp hsome
  obtain ⟨z, hz⟩ := List.exists_mem_of_ne_nil _ hdistinct
  obtain ⟨x, hx, y, hy, hunify⟩ := mem_pairResults.mp (mem_successes.mp (mem_distinct hz))
  refine ⟨z, ?_, x, hx, y, hy, hunify⟩
  rcases ofOptions_cases (successes (pairResults "" a b)) with ⟨w, hone, hoptions⟩ | ⟨_, hoptions⟩
  · rw [hone, List.mem_singleton] at hz
    subst hz
    have hflat := isAny_of_unifyAt (hawell.isAny_of_mem_options x hx)
      (hbwell.isAny_of_mem_options y hy) hunify
    rw [hoptions, options_of_isAny_eq_false hflat]
    exact List.mem_singleton_self z
  · rw [hoptions]
    exact hz

section Lists

variable {items others merged : List Value} {tail rest last : Option Value}

/-- The length of a common list rules out neither list. -/
theorem lengthsClash_merged
    (hclash : lengthsClash items.length others.length tail.isSome rest.isSome = false)
    (hlength : merged.length = max items.length others.length)
    (hlast : last.isSome = (tail.isSome && rest.isSome)) :
    lengthsClash merged.length items.length last.isSome tail.isSome = false ∧
      lengthsClash merged.length others.length last.isSome rest.isSome = false := by
  rw [hlength, hlast]
  revert hclash
  cases tail.isSome <;> cases rest.isSome <;> simp [lengthsClash]

end Lists

/-- No alternative occurs in the value, at any depth. -/
inductive AnyFree : Value → Prop
  | top : AnyFree .top
  | atom (a : Atom) : AnyFree (.atom a)
  | constraint (c : Constraint) : AnyFree (.constraint c)
  | struct {fields : List (String × Value)} (h : ∀ f ∈ fields, AnyFree f.2) :
      AnyFree (.struct fields)
  | list {items : List Value} {tail : Option Value} (hitems : ∀ x ∈ items, AnyFree x)
      (htail : ∀ x ∈ tail, AnyFree x) : AnyFree (.list items tail)

theorem AnyFree.isAny {v : Value} (h : v.AnyFree) : v.isAny = false := by
  cases h <;> rfl

theorem AnyFree.field {fields : List (String × Value)} (h : (Value.struct fields).AnyFree) :
    ∀ f ∈ fields, f.2.AnyFree := by
  cases h with
  | struct h => exact h

theorem AnyFree.part {items : List Value} {tail : Option Value}
    (h : (Value.list items tail).AnyFree) (x : Value) (hx : x ∈ items ∨ x ∈ tail) : x.AnyFree := by
  cases h with
  | list hitems htail => exact hx.elim (hitems x) (htail x)

/-- A struct absorbs one whose labels it has, if its values there absorb those of the other. -/
theorem unify_struct_absorb {fields others : List (String × Value)}
    (hlabels : ∀ g ∈ others, (lookup? g.1 fields).isSome)
    (h : ∀ f ∈ fields, ∀ y, lookup? f.1 others = some y → unify f.2 y = .ok f.2) :
    unify (.struct fields) (.struct others) = .ok (.struct fields) := by
  have hold : unifyFields "" fields others = .ok fields := by
    refine unifyFields_eq_ok_iff.mpr (List.forall₂_same.mpr fun f hf => ⟨rfl, ?_⟩)
    cases hy : lookup? f.1 others with
    | none => exact Or.inr ⟨rfl, rfl⟩
    | some y => exact Or.inl ⟨y, rfl, unifyAt_eq_ok_iff.mpr (h f hf y hy)⟩
  have hnew : newFields fields others = [] := by
    rw [newFields, List.filter_eq_nil_iff]
    intro g hg
    rw [Option.isNone_iff_eq_none, ← ne_eq, Option.ne_none_iff_isSome]
    exact hlabels g hg
  rw [unify, unifyAt_struct, hold, hnew]
  exact congrArg (fun all => Except.ok (Value.struct all)) (List.append_nil fields)

/-- A list absorbs one that is no longer, if its items, and its tail, absorb those of the other. -/
theorem unify_list_absorb {items others : List Value} {tail rest : Option Value}
    (hclash : lengthsClash items.length others.length tail.isSome rest.isSome = false)
    (hlength : others.length ≤ items.length) (hopen : tail.isSome = true → rest.isSome = true)
    (h : ∀ i x y, itemAt? items tail i = some x → itemAt? others rest i = some y →
      unify x y = .ok x) :
    unify (.list items tail) (.list others rest) = .ok (.list items tail) := by
  have hitems : Unified.all (itemResults "" 0 (pairUp tail rest items others)) = .ok items := by
    refine Unified.all_eq_ok_iff.mpr (List.forall₂_iff_get.mpr ⟨?_, fun i hi hi' => ?_⟩)
    · rw [itemResults, List.length_mapIdx, length_pairUp hclash, max_eq_left hlength]
    · have hget := List.getElem?_eq_getElem hi
      rw [getElem?_itemResults] at hget
      obtain ⟨⟨x, y⟩, hpair, hunify⟩ := Option.map_eq_some_iff.mp hget
      obtain ⟨_, hx, hy⟩ := itemAt?_of_mem_pairUp hclash hpair
      have hown : items[i] = x := by simpa [itemAt?, hi'] using hx
      rw [List.get_eq_getElem, List.get_eq_getElem, ← hunify, hown]
      exact unifyAt_eq_ok_iff.mpr (h i x y hx hy)
  rw [unify, unifyAt_list hclash, hitems]
  cases tail with
  | none => rfl
  | some x =>
      obtain ⟨y, rfl⟩ := Option.isSome_iff_exists.mp (hopen rfl)
      have htails : unifyAt (joinPath "" "...") x y = .ok x := by
        refine unifyAt_eq_ok_iff.mpr (h items.length x y ?_ ?_)
        · rw [itemAt?, List.getElem?_eq_none le_rfl, Option.none_or]
        · rw [itemAt?, List.getElem?_eq_none hlength, Option.none_or]
      rw [listResult, htails]
      rfl

/-! ### Absorption

That two values do not clash and that the first one is their common value are shown in one induction, since they
need the same parts; where there are alternatives only the first is stated. -/

/-- Unifying the first value with the second finds no conflict, and `exactly` the first one where that
is asked for. -/
def Absorbs (exactly : Prop) (v w : Value) : Prop :=
  ¬ Clashes v w ∧ (exactly → unify v w = .ok v)

section Absorbs

variable {exactly : Prop}

theorem absorbs_of_ok {v w : Value} (h : unify v w = .ok v) : Absorbs exactly v w :=
  ⟨not_clashes_of_ok h, fun _ => h⟩

theorem absorbs_struct {fields others : List (String × Value)}
    (hfields : (fields.map Prod.fst).Nodup) (hothers : (others.map Prod.fst).Nodup)
    (h : ∀ label y, lookup? label others = some y →
      ∃ x, lookup? label fields = some x ∧ Absorbs exactly x y) :
    Absorbs exactly (.struct fields) (.struct others) := by
  have hparts : ∀ f ∈ fields, ∀ y, lookup? f.1 others = some y → Absorbs exactly f.2 y := by
    intro f hf y hy
    obtain ⟨x, hx, habsorb⟩ := h f.1 y hy
    obtain rfl := Option.some.inj ((lookup?_eq_some_of_mem hfields hf).symm.trans hx)
    exact habsorb
  constructor
  · intro hclash
    obtain ⟨f, hf, y, hy, hfy⟩ := clashes_struct hclash
    exact (hparts f hf y hy).1 hfy
  · intro hexactly
    refine unify_struct_absorb (fun g hg => ?_) fun f hf y hy => (hparts f hf y hy).2 hexactly
    obtain ⟨x, hx, _⟩ := h g.1 g.2 (lookup?_eq_some_of_mem hothers hg)
    rw [hx]
    rfl

theorem absorbs_list {items others : List Value} {tail rest : Option Value}
    (hclash : lengthsClash items.length others.length tail.isSome rest.isSome = false)
    (hlength : others.length ≤ items.length) (hopen : tail.isSome = true → rest.isSome = true)
    (h : ∀ i x y, itemAt? items tail i = some x → itemAt? others rest i = some y →
      Absorbs exactly x y) :
    Absorbs exactly (.list items tail) (.list others rest) := by
  constructor
  · intro hagain
    obtain ⟨i, x, y, hx, hy, hxy⟩ := clashes_itemAt? hagain hclash
    exact (h i x y hx hy).1 hxy
  · exact fun hexactly =>
      unify_list_absorb hclash hlength hopen fun i x y hx hy => (h i x y hx hy).2 hexactly

theorem absorbs_self {v : Value} (hfree : exactly → v.AnyFree) (h : v.WellFormed) :
    Absorbs exactly v v := by
  induction v with
  | top => exact absorbs_of_ok (unify_top_left .top)
  | atom a => exact absorbs_of_ok (unify_atom_self (wellFormed_atom.mp h))
  | constraint c => exact absorbs_of_ok (unify_constraint_self (wellFormed_constraint.mp h))
  | any options ih =>
      constructor
      · intro hclash
        obtain ⟨x, hx⟩ := List.exists_mem_of_ne_nil _ h.options_ne_nil
        have hfreeless : exactly → x.AnyFree := fun hexactly => nomatch hfree hexactly
        exact (ih x hx hfreeless (h.options x hx)).1 (clashes_options hclash x hx x hx)
      · exact fun hexactly => nomatch hfree hexactly
  | struct fields ih =>
      rw [wellFormed_struct] at h
      refine absorbs_struct h.1 h.1 fun label x hx => ⟨x, hx, ?_⟩
      have hmem := mem_of_lookup? hx
      exact ih _ hmem (fun hexactly => (hfree hexactly).field _ hmem) (h.2 _ hmem)
  | list items tail ihItems ihTail =>
      rw [wellFormed_list] at h
      refine absorbs_list (by simp [lengthsClash]) le_rfl id fun i x y hx hy => ?_
      obtain rfl := Option.some.inj (hx.symm.trans hy)
      have hmem := mem_of_itemAt? hx
      have hfreex : exactly → x.AnyFree := fun hexactly => (hfree hexactly).part x hmem
      exact hmem.elim (fun hx => ihItems x hx hfreex (h.1 x hx))
        fun hx => ihTail x hx hfreex (h.2 x hx)

/-- A common value absorbs the values it comes from, and exactly so without alternatives. -/
theorem absorbs_unify {a b r : Value} (hafree : exactly → a.AnyFree) (hbfree : exactly → b.AnyFree)
    (ha : a.WellFormed) (hb : b.WellFormed) (h : unify a b = .ok r) :
    Absorbs exactly r a ∧ Absorbs exactly r b := by
  induction a, b using induct₂ generalizing r with
  | topLeft b =>
      rw [unify_top_left, Except.ok.injEq] at h
      exact h ▸ ⟨absorbs_of_ok (unify_top_right b), absorbs_self hbfree hb⟩
  | topRight a =>
      rw [unify_top_right, Except.ok.injEq] at h
      exact h ▸ ⟨absorbs_self hafree ha, absorbs_of_ok (unify_top_right a)⟩
  | any a b hatop hbtop hany ih =>
      have hloose : ¬ exactly := by
        intro hexactly
        rw [(hafree hexactly).isAny, (hbfree hexactly).isAny] at hany
        simp at hany
      obtain ⟨z, hz, x, hx, y, hy, hunify⟩ := exists_option_unify_any hatop hbtop hany ha hb h
      obtain ⟨hzx, hzy⟩ := ih x hx y hy (absurd · hloose) (absurd · hloose) (ha.options x hx)
        (hb.options y hy) hunify
      exact ⟨⟨fun hclash => hzx.1 (clashes_options hclash z hz x hx), (absurd · hloose)⟩,
        fun hclash => hzy.1 (clashes_options hclash z hz y hy), (absurd · hloose)⟩
  | shapes a b s t hs ht hne =>
      rw [unify, unifyAt_of_shape_ne "" hs ht hne] at h
      cases h
  | atoms a b =>
      have hown : r = .atom a := by
        rw [unify, unifyAt_atom] at h
        split at h
        · exact (Except.ok.inj h).symm
        · cases h
      subst hown
      exact ⟨absorbs_self hafree ha, absorbs_of_ok h⟩
  | atomConstraint a c =>
      obtain ⟨_, rfl⟩ := restrict_eq_ok_iff.mp (unify_atom_constraint a c ▸ h)
      exact ⟨absorbs_self hafree ha, absorbs_of_ok h⟩
  | constraintAtom c a =>
      rw [unify_constraint_atom, ← unify_atom_constraint] at h
      obtain ⟨_, rfl⟩ := restrict_eq_ok_iff.mp (unify_atom_constraint a c ▸ h)
      exact ⟨absorbs_of_ok h, absorbs_self hbfree hb⟩
  | constraints c d =>
      obtain ⟨m, hm, rfl⟩ := unifyAt_constraint_eq_ok_iff.mp h
      rw [wellFormed_constraint] at ha hb
      obtain ⟨hleft, hright⟩ := Constraint.merge_absorb ha hb hm
      exact ⟨absorbs_of_ok (unifyAt_constraint_eq_ok_iff.mpr ⟨m, hleft, rfl⟩),
        absorbs_of_ok (unifyAt_constraint_eq_ok_iff.mpr ⟨m, hright, rfl⟩)⟩
  | struct fields others ih =>
      have hr := wellFormed_unify ha hb h
      obtain ⟨merged, rfl, hjoined⟩ := unify_struct_eq_ok h
      rw [wellFormed_struct] at ha hb hr
      have hparts : ∀ label x y z, lookup? label fields = some x → lookup? label others = some y →
          unify x y = .ok z → Absorbs exactly z x ∧ Absorbs exactly z y := by
        intro label x y z hx hy hz
        have hxmem := mem_of_lookup? hx
        have hymem := mem_of_lookup? hy
        exact ih _ hxmem _ hymem (fun hexactly => (hafree hexactly).field _ hxmem)
          (fun hexactly => (hbfree hexactly).field _ hymem) (ha.2 _ hxmem) (hb.2 _ hymem) hz
      constructor
      · refine absorbs_struct hr.1 ha.1 fun label x hx => ?_
        have hxmem := mem_of_lookup? hx
        have hlabel := hjoined label
        generalize hy : lookup? label others = y, lookup? label merged = z at hlabel ⊢
        rw [hx] at hlabel
        cases hlabel with
        | left =>
            exact ⟨x, rfl, absorbs_self (fun hexactly => (hafree hexactly).field _ hxmem)
              (ha.2 _ hxmem)⟩
        | both hz => exact ⟨_, rfl, (hparts label _ _ _ hx hy hz).1⟩
      · refine absorbs_struct hr.1 hb.1 fun label y hy => ?_
        have hymem := mem_of_lookup? hy
        have hlabel := hjoined label
        generalize hx : lookup? label fields = x, lookup? label merged = z at hlabel ⊢
        rw [hy] at hlabel
        cases hlabel with
        | right =>
            exact ⟨y, rfl, absorbs_self (fun hexactly => (hbfree hexactly).field _ hymem)
              (hb.2 _ hymem)⟩
        | both hz => exact ⟨_, rfl, (hparts label _ _ _ hx hy hz).2⟩
  | list items tail others rest ih =>
      obtain ⟨hclash, merged, last, rfl, hlength, hlast, hitem⟩ := unify_list_eq_ok h
      rw [wellFormed_list] at ha hb
      have hparts : ∀ i z, itemAt? merged last i = some z → ∃ x y, itemAt? items tail i = some x ∧
          itemAt? others rest i = some y ∧ Absorbs exactly z x ∧ Absorbs exactly z y := by
        intro i z hz
        obtain ⟨x, y, hx, hy, hunify⟩ := hitem i z hz
        have hxmem := mem_of_itemAt? hx
        have hymem := mem_of_itemAt? hy
        exact ⟨x, y, hx, hy, ih x hxmem y hymem (fun hexactly => (hafree hexactly).part x hxmem)
          (fun hexactly => (hbfree hexactly).part y hymem) (hxmem.elim (ha.1 x) (ha.2 x))
          (hymem.elim (hb.1 y) (hb.2 y)) hunify⟩
      obtain ⟨hleft, hright⟩ := lengthsClash_merged hclash hlength hlast
      rw [eq_comm, Bool.eq_iff_iff] at hlast
      constructor
      · refine absorbs_list hleft (by omega) (fun hopen => ?_) fun i z x hz hx => ?_
        · exact (Bool.and_eq_true_iff.mp (hlast.mpr hopen)).1
        · obtain ⟨x', _, hx', _, habsorb, _⟩ := hparts i z hz
          obtain rfl := Option.some.inj (hx.symm.trans hx')
          exact habsorb
      · refine absorbs_list hright (by omega) (fun hopen => ?_) fun i z y hz hy => ?_
        · exact (Bool.and_eq_true_iff.mp (hlast.mpr hopen)).2
        · obtain ⟨_, y', _, hy', _, habsorb⟩ := hparts i z hz
          obtain rfl := Option.some.inj (hy.symm.trans hy')
          exact habsorb

end Absorbs

theorem printable_ofOptions {xs : List Value} (h : ∀ x ∈ xs, x.printable = true) :
    (ofOptions xs).printable = true := by
  rcases ofOptions_cases xs with ⟨x, hone, hoptions⟩ | ⟨_, hoptions⟩
  · rw [hoptions]
    exact h x (mem_distinct (hone ▸ List.mem_singleton_self x))
  · rw [hoptions, printable_any]
    exact fun x hx => h x (mem_distinct hx)

/-- Unification puts no new whole number together. -/
theorem printable_unify {a b r : Value} (ha : a.WellFormed) (hb : b.WellFormed)
    (hap : a.printable = true) (hbp : b.printable = true) (h : unify a b = .ok r) :
    r.printable = true := by
  induction a, b using induct₂ generalizing r with
  | topLeft b =>
      rw [unify_top_left, Except.ok.injEq] at h
      exact h ▸ hbp
  | topRight a =>
      rw [unify_top_right, Except.ok.injEq] at h
      exact h ▸ hap
  | any a b hatop hbtop hany ih =>
      rw [unify_any hatop hbtop hany] at h
      obtain ⟨_, _, rfl⟩ := choose_eq_ok_iff.mp h
      apply printable_ofOptions
      intro z hz
      obtain ⟨x, hx, y, hy, hunify⟩ := mem_pairResults.mp (mem_successes.mp hz)
      exact ih x hx y hy (ha.options x hx) (hb.options y hy) (printable_options hap x hx)
        (printable_options hbp y hy) hunify
  | shapes a b s t hs ht hne =>
      rw [unify, unifyAt_of_shape_ne "" hs ht hne] at h
      cases h
  | atoms a b =>
      rw [unify, unifyAt_atom] at h
      split at h
      · exact Except.ok.inj h ▸ hap
      · cases h
  | atomConstraint a c =>
      obtain ⟨_, rfl⟩ := restrict_eq_ok_iff.mp (unify_atom_constraint a c ▸ h)
      exact hap
  | constraintAtom c a =>
      rw [unify_constraint_atom] at h
      obtain ⟨_, rfl⟩ := restrict_eq_ok_iff.mp h
      exact hbp
  | constraints c d =>
      obtain ⟨m, hm, rfl⟩ := unifyAt_constraint_eq_ok_iff.mp h
      obtain ⟨_, hbounds, _⟩ := Constraint.merge_eq_ok_iff.mp hm
      rw [printable_constraint] at hap hbp ⊢
      intro bound hbound
      rw [hbounds] at hbound
      rcases mem_of_mem_distinctBy hbound with hkept | hmem
      · cases hkept
      · exact (List.mem_append.mp hmem).elim (hap bound) (hbp bound)
  | struct fields others ih =>
      have hr := wellFormed_unify ha hb h
      obtain ⟨merged, rfl, hjoined⟩ := unify_struct_eq_ok h
      rw [wellFormed_struct] at ha hb hr
      rw [printable_struct] at hap hbp ⊢
      intro m hm
      have hlabel := hjoined m.1
      rw [lookup?_eq_some_of_mem hr.1 hm] at hlabel
      generalize hx : lookup? m.1 fields = x, hy : lookup? m.1 others = y at hlabel
      cases hlabel with
      | left => exact hap _ (mem_of_lookup? hx)
      | right => exact hbp _ (mem_of_lookup? hy)
      | both hz =>
          have hxmem := mem_of_lookup? hx
          have hymem := mem_of_lookup? hy
          exact ih _ hxmem _ hymem (ha.2 _ hxmem) (hb.2 _ hymem) (hap _ hxmem) (hbp _ hymem) hz
  | list items tail others rest ih =>
      obtain ⟨_, merged, last, rfl, _, _, hitem⟩ := unify_list_eq_ok h
      rw [wellFormed_list] at ha hb
      rw [printable_list] at hap hbp ⊢
      have hpoint : ∀ i m, itemAt? merged last i = some m → m.printable = true := by
        intro i m hm
        obtain ⟨x, y, hx, hy, hunify⟩ := hitem i m hm
        have hxmem := mem_of_itemAt? hx
        have hymem := mem_of_itemAt? hy
        exact ih x hxmem y hymem (hxmem.elim (ha.1 x) (ha.2 x)) (hymem.elim (hb.1 y) (hb.2 y))
          (hxmem.elim (hap.1 x) (hap.2 x)) (hymem.elim (hbp.1 y) (hbp.2 y)) hunify
      constructor
      · intro m hm
        obtain ⟨i, hi⟩ := List.getElem?_of_mem hm
        exact hpoint i m (by rw [itemAt?, hi, Option.some_or])
      · intro m hm
        exact hpoint merged.length m (by simpa [itemAt?] using hm)

theorem exists_unify_iff_of_not_clashes {a b : Value} (h : ¬ Clashes a b) :
    unify a b ≠ .error .unprintable ↔ ∃ r, unify a b = .ok r := by
  constructor
  · exact exists_unify_of_not_clashes h
  · rintro ⟨r, hr⟩ hwords
    rw [hr] at hwords
    cases hwords

/-- **Repetition.** The common value of two values and either of them have a common value again, from
either side, unless a conflict with some option cannot be put in words; no conflict lacks words where
every whole number is within the digit limit. Without alternatives there is no such conflict, and the
common value is found again as it is; in particular such a value is its own common value with
itself. -/
theorem unify_repeats {a b r : Value} (ha : a.WellFormed) (hb : b.WellFormed)
    (h : unify a b = .ok r) :
    (∀ v ∈ [a, b], (unify r v ≠ .error .unprintable ↔ ∃ s, unify r v = .ok s) ∧
        (unify v r ≠ .error .unprintable ↔ ∃ s, unify v r = .ok s)) ∧
      (a.printable = true → b.printable = true →
        ∀ v ∈ [a, b], (∃ s, unify r v = .ok s) ∧ ∃ s, unify v r = .ok s) ∧
      (a.AnyFree → b.AnyFree → ∀ v ∈ [a, b], unify r v = .ok r ∧ ∃ s, unify v r = .ok s) ∧
      (a.AnyFree → unify a a = .ok a) := by
  have hr := wellFormed_unify ha hb h
  have hwell : ∀ v ∈ [a, b], v.WellFormed := by simp [ha, hb]
  have hclash : ∀ v ∈ [a, b], ¬ Clashes r v := by
    have habsorb : Absorbs False r a ∧ Absorbs False r b := absorbs_unify nofun nofun ha hb h
    simp [habsorb.1.1, habsorb.2.1]
  have hclash' : ∀ v ∈ [a, b], ¬ Clashes v r := fun v hv =>
    mt (clashes_comm (hwell v hv) hr).mp (hclash v hv)
  refine ⟨fun v hv => ?_, fun hap hbp v hv => ?_, fun hafree hbfree => ?_, fun hafree => ?_⟩
  · exact ⟨exists_unify_iff_of_not_clashes (hclash v hv),
      exists_unify_iff_of_not_clashes (hclash' v hv)⟩
  · have hrp := printable_unify ha hb hap hbp h
    have hvp : v.printable = true := by
      rcases List.mem_pair.mp hv with rfl | rfl <;> assumption
    exact ⟨exists_unify_of_not_clashes (hclash v hv) (unifyAt_ne_unprintable hrp hvp),
      exists_unify_of_not_clashes (hclash' v hv) (unifyAt_ne_unprintable hvp hrp)⟩
  · have habsorb : Absorbs True r a ∧ Absorbs True r b :=
      absorbs_unify (fun _ => hafree) (fun _ => hbfree) ha hb h
    have hexact : ∀ v ∈ [a, b], unify r v = .ok r := by
      simp [habsorb.1.2, habsorb.2.2]
    exact fun v hv => ⟨hexact v hv, (exists_unify_comm hr (hwell v hv)).mp ⟨r, hexact v hv⟩⟩
  · have habsorb : Absorbs True a a := absorbs_self (fun _ => hafree) ha
    exact habsorb.2 trivial

/-- An order for a positive number and a list that starts with `1`, met twice by a pattern for small
numbers and lists of whole numbers. -/
theorem unify_repeats_small_number :
    let a : Value := .struct [("n", .constraint ⟨some .number, [.order .gt (.int 0)]⟩),
      ("xs", .list [.atom (.int 1)] (some (ofKind .number)))]
    let b : Value := .struct [("xs", .list [ofKind .int, .atom (.int 2)] (some (ofKind .int))),
      ("n", .constraint ⟨some .int, [.order .le (.int 5), .order .gt (.int 0)]⟩)]
    let r : Value := .struct
      [("n", .constraint ⟨some .int, [.order .gt (.int 0), .order .le (.int 5)]⟩),
        ("xs", .list [.atom (.int 1), .atom (.int 2)] (some (ofKind .int)))]
    unify a b = .ok r ∧ unify r a = .ok r ∧ unify r b = .ok r := by
  intro a b r
  have ha : a.WellFormed := by
    simp [a, ofKind, Constraint.wellFormed_iff, Bound.WellFormed, Atom.WellFormed, Kind.Suits,
      Atom.isNumber]
  have hb : b.WellFormed := by
    simp [b, ofKind, Constraint.wellFormed_iff, Bound.WellFormed, Atom.WellFormed, Kind.Suits,
      Atom.isNumber, Bound.same]
  have hafree : a.AnyFree := by
    refine .struct ?_
    simp only [List.forall_mem_cons, List.not_mem_nil, false_implies, implies_true, and_true]
    refine ⟨.constraint _, .list ?_ ?_⟩
    · simp [AnyFree.atom]
    · simp [ofKind, AnyFree.constraint]
  have hbfree : b.AnyFree := by
    refine .struct ?_
    simp only [List.forall_mem_cons, List.not_mem_nil, false_implies, implies_true, and_true]
    refine ⟨.list ?_ ?_, .constraint _⟩
    · simp [ofKind, AnyFree.atom, AnyFree.constraint]
    · simp [ofKind, AnyFree.constraint]
  have h : unify a b = .ok r := rfl
  have hagain := (unify_repeats ha hb h).2.2.1 hafree hbfree
  exact ⟨h, (hagain a (by simp)).1, (hagain b (by simp)).1⟩

/-- Picking the first of two structs by a pattern loses the second, whose limit has too many digits to
be shown; unifying with both of them again comes to that limit. -/
theorem unify_picked {m n : Int} (hle : m ≤ n) (hn : Numeral.fits n = false) :
    let picked : Value := .struct [("n", .atom (.int m)), ("t", .atom (.string "i"))]
    let other : Value := .struct [("n", ofBound (.order .gt (.int n))), ("t", .atom (.string "k"))]
    unify (.any [picked, other]) (.struct [("t", .atom (.string "i"))]) = .ok picked ∧
      unify picked (.any [picked, other]) = .error .unprintable := by
  intro picked other
  have hlimit : ∀ path, unifyAt path (.atom (.int m)) (ofBound (.order .gt (.int n))) =
      .error .unprintable := by
    intro path
    rw [ofBound, unifyAt_atom_constraint, restrict_of_long_limit hle hn]
  have hother : unifyAt "" picked other = .error .unprintable := by
    rw [unifyAt_struct, unifyFields, map_eq_error_iff, map_eq_error_iff]
    simp only [lookup?, beq_self_eq_true, if_true, hlimit]
    generalize unifyFields "" [("t", .atom (.string "i"))] _ = others
    cases others <;> rfl
  refine ⟨rfl, ?_⟩
  rw [unify_any (by simp [picked]) (by simp) (Or.inr rfl), choose_of_unprintable]
  exact mem_pairResults.mpr ⟨picked, List.mem_singleton_self _, other,
    List.mem_cons_of_mem _ (List.mem_singleton_self _), hother⟩

/-- An alternative, a pattern and their common value, which cannot be unified with the alternative
again. -/
theorem unify_repeat_unprintable :
    let picked : Value := .struct [("n", .atom (.int 5)), ("t", .atom (.string "i"))]
    let a : Value := .any [picked,
      .struct [("n", ofBound (.order .gt (.int (10 ^ 4300)))), ("t", .atom (.string "k"))]]
    let b : Value := .struct [("t", .atom (.string "i"))]
    a.WellFormed ∧ b.WellFormed ∧ unify a b = .ok picked ∧ ¬ ∃ s, unify picked a = .ok s := by
  intro picked a b
  have hwell : ∀ n : Int, (any [picked,
      .struct [("n", ofBound (.order .gt (.int n))), ("t", .atom (.string "k"))]]).WellFormed := by
    intro n
    simp [picked, ofBound, Constraint.wellFormed_iff, Bound.WellFormed, Atom.WellFormed,
      Atom.isNumber, isAny, same, sameFields]
  obtain ⟨hfirst, hagain⟩ := unify_picked (m := 5) (n := 10 ^ 4300) (by decide +kernel)
    (by decide +kernel)
  refine ⟨hwell _, by simp [b, Atom.WellFormed], hfirst, ?_⟩
  rintro ⟨s, hs⟩
  rw [hagain] at hs
  cases hs

end Value

end ApiProbe
