import Mathlib.Data.List.Perm.Basic
import ApiProbe.Proofs.Unify.Completeness
import ApiProbe.Proofs.Unify.Sketch

/-!
# Unification of several values in any order

The common value of two values allows the sketches that both allow, and values that allow a sketch in
common do not clash, with one exception: open lists are refused where their tails clash, although the
lists without further items may be common to both. So values can be unified in any order unless some
order leads to such a pair of open lists, or to a conflict that cannot be put in words.
-/

namespace ApiProbe.Value

/-- On the way through two values, two open lists meet whose tails clash. -/
inductive TailsClash : Value → Value → Prop
  | option {a b x y : Value} (hany : a.isAny = true ∨ b.isAny = true) (hx : x ∈ a.options)
      (hy : y ∈ b.options) (h : TailsClash x y) : TailsClash a b
  | field {fields others : List (String × Value)} {label : String} {x y : Value}
      (hx : lookup? label fields = some x) (hy : lookup? label others = some y)
      (h : TailsClash x y) : TailsClash (.struct fields) (.struct others)
  | item {items others : List Value} {tail rest : Option Value} {i : Nat} {x y : Value}
      (hlengths : lengthsClash items.length others.length tail.isSome rest.isSome = false)
      (hx : itemAt? items tail i = some x) (hy : itemAt? others rest i = some y)
      (h : TailsClash x y) : TailsClash (.list items tail) (.list others rest)
  | tails {items others : List Value} {x y : Value} (h : Clashes x y) :
      TailsClash (.list items (some x)) (.list others (some y))

theorem not_tailsClash_top (v : Value) : ¬ TailsClash .top v := by
  intro h
  generalize htop : Value.top = a at h
  induction h with
  | option _ hx _ _ ih =>
      subst htop
      exact ih (List.mem_singleton.mp hx).symm
  | field | item | tails => cases htop

/-- The tails of two lists of scalars clash only in the lists themselves. -/
theorem not_tailsClash_scalars {items others : List Value} {tail rest : Option Value}
    (hscalar : ∀ y, y ∈ others ∨ y ∈ rest → y.shape? = some .scalar)
    (hitems : ∀ x, x ∈ items ∨ x ∈ tail → x.shape? = some .scalar)
    (htails : ∀ x ∈ tail, ∀ y ∈ rest, ¬ Clashes x y) :
    ¬ TailsClash (.list items tail) (.list others rest) := by
  intro h
  cases h with
  | option hany => rcases hany with hany | hany <;> cases hany
  | @item _ _ _ _ _ x y _ hx hy h =>
      have hxscalar := hitems x (mem_of_itemAt? hx)
      have hyscalar := hscalar y (mem_of_itemAt? hy)
      cases h with
      | option hany =>
          rcases hany with hany | hany
          · cases x <;> simp_all [shape?, isAny]
          · cases y <;> simp_all [shape?, isAny]
      | field | item | tails => cases hxscalar
  | tails h => exact htails _ rfl _ rfl h

/-! ### Sketches of common values

A common value allows a sketch where both values do. One direction holds throughout; the other one fails for
open lists whose tails clash, which is why it assumes that no such pair is met on the way. -/

/-- A common value of alternatives allows a sketch if that of some pair of options does. -/
theorem allows_unify_any {a b r sketch : Value} (ha : a ≠ .top) (hb : b ≠ .top)
    (hany : a.isAny = true ∨ b.isAny = true) (h : unify a b = .ok r) :
    r.Allows sketch ↔
      ∃ x ∈ a.options, ∃ y ∈ b.options, ∃ z, unify x y = .ok z ∧ z.Allows sketch := by
  rw [unify_any ha hb hany] at h
  obtain ⟨_, _, rfl⟩ := choose_eq_ok_iff.mp h
  rw [allows_ofOptions]
  constructor
  · rintro ⟨z, hz, hallows⟩
    obtain ⟨x, hx, y, hy, hunify⟩ := mem_pairResults.mp (mem_successes.mp hz)
    exact ⟨x, hx, y, hy, z, hunify, hallows⟩
  · rintro ⟨x, hx, y, hy, z, hunify, hallows⟩
    exact ⟨z, mem_successes.mpr (mem_pairResults.mpr ⟨x, hx, y, hy, hunify⟩), hallows⟩

/-- What a struct allows that two structs are joined in, both of them allow if their parts do. -/
theorem allows_of_joined {fields others merged : List (String × Value)} {sketch : Value}
    (hjoined : ∀ label, Joined (lookup? label fields) (lookup? label others) (lookup? label merged))
    (h : ∀ label x y z d, lookup? label fields = some x → lookup? label others = some y →
      unify x y = .ok z → z.Allows d → x.Allows d ∧ y.Allows d)
    (hr : (struct merged).Allows sketch) :
    (struct fields).Allows sketch ∧ (struct others).Allows sketch := by
  obtain ⟨entries, rfl, hentries⟩ := allows_struct.mp hr
  have hparts : ∀ label,
      (∀ x, lookup? label fields = some x → ∃ d, lookup? label entries = some d ∧ x.Allows d) ∧
      ∀ y, lookup? label others = some y → ∃ d, lookup? label entries = some d ∧ y.Allows d := by
    intro label
    have hlabel := hjoined label
    have hentry := hentries label
    generalize hx : lookup? label fields = x, hy : lookup? label others = y,
      lookup? label merged = z at hlabel hentry
    cases hlabel with
    | neither => constructor <;> rintro _ ⟨⟩
    | left x =>
        refine ⟨hentry, ?_⟩
        rintro _ ⟨⟩
    | right y =>
        refine ⟨?_, hentry⟩
        rintro _ ⟨⟩
    | both hz =>
        obtain ⟨d, hd, hallows⟩ := hentry _ rfl
        have hboth := h label _ _ _ d hx hy hz hallows
        exact ⟨fun _ h => ⟨d, hd, Option.some.inj h ▸ hboth.1⟩,
          fun _ h => ⟨d, hd, Option.some.inj h ▸ hboth.2⟩⟩
  exact ⟨allows_struct.mpr ⟨entries, rfl, fun label => (hparts label).1⟩,
    allows_struct.mpr ⟨entries, rfl, fun label => (hparts label).2⟩⟩

/-- What the common value of two values allows, both of them allow. -/
theorem allows_of_unify {a b r sketch : Value} (h : unify a b = .ok r) (hr : r.Allows sketch) :
    a.Allows sketch ∧ b.Allows sketch := by
  induction a, b using induct₂ generalizing r sketch with
  | topLeft b =>
      rw [unify_top_left, Except.ok.injEq] at h
      exact ⟨.top, h ▸ hr⟩
  | topRight a =>
      rw [unify_top_right, Except.ok.injEq] at h
      exact ⟨h ▸ hr, .top⟩
  | any a b hatop hbtop hany ih =>
      obtain ⟨x, hx, y, hy, z, hunify, hz⟩ := (allows_unify_any hatop hbtop hany h).mp hr
      have hboth := ih x hx y hy hunify hz
      exact ⟨allows_options.mpr ⟨x, hx, hboth.1⟩, allows_options.mpr ⟨y, hy, hboth.2⟩⟩
  | shapes a b s t hs ht hne =>
      rw [unify, unifyAt_of_shape_ne "" hs ht hne] at h
      cases h
  | atoms a b =>
      rw [unify, unifyAt_atom] at h
      split at h
      · rename_i hsame
        obtain rfl := Except.ok.inj h
        cases hr with
        | atom hdata => exact ⟨.atom hdata, .atom (Atom.same_trans (Atom.same_symm hsame) hdata)⟩
      · cases h
  | atomConstraint a c =>
      obtain ⟨hholds, rfl⟩ := restrict_eq_ok_iff.mp (unify_atom_constraint a c ▸ h)
      cases hr with
      | atom hdata => exact ⟨.atom hdata, .constraint (Constraint.holds_congr hdata hholds)⟩
  | constraintAtom c a =>
      rw [unify_constraint_atom] at h
      obtain ⟨hholds, rfl⟩ := restrict_eq_ok_iff.mp h
      cases hr with
      | atom hdata => exact ⟨.constraint (Constraint.holds_congr hdata hholds), .atom hdata⟩
  | constraints c d =>
      obtain ⟨merged, hmerge, rfl⟩ := unifyAt_constraint_eq_ok_iff.mp h
      cases hr with
      | constraint hholds =>
          have hboth := (Constraint.holds_merge hmerge _).mp hholds
          exact ⟨.constraint hboth.1, .constraint hboth.2⟩
      | scalar hcovers =>
          have hboth := (Constraint.covers_merge hmerge _).mp hcovers
          exact ⟨.scalar hboth.1, .scalar hboth.2⟩
  | struct fields others ih =>
      obtain ⟨merged, rfl, hjoined⟩ := unify_struct_eq_ok h
      refine allows_of_joined hjoined (fun label x y z d hx hy hz hallows => ?_) hr
      exact ih _ (mem_of_lookup? hx) _ (mem_of_lookup? hy) hz hallows
  | list items tail others rest ih =>
      obtain ⟨_, merged, last, rfl, hlength, _, hitem⟩ := unify_list_eq_ok h
      obtain ⟨elements, rfl, hlong, helements⟩ := allows_list.mp hr
      have hparts : ∀ i d, elements[i]? = some d → ∃ x y, itemAt? items tail i = some x ∧
          itemAt? others rest i = some y ∧ x.Allows d ∧ y.Allows d := by
        intro i d hd
        obtain ⟨m, hm, hallows⟩ := helements i d hd
        obtain ⟨x, y, hx, hy, hunify⟩ := hitem i m hm
        exact ⟨x, y, hx, hy, ih x (mem_of_itemAt? hx) y (mem_of_itemAt? hy) hunify hallows⟩
      constructor
      · refine allows_list.mpr ⟨elements, rfl, by omega, fun i d hd => ?_⟩
        obtain ⟨x, _, hx, _, hallows, _⟩ := hparts i d hd
        exact ⟨x, hx, hallows⟩
      · refine allows_list.mpr ⟨elements, rfl, by omega, fun i d hd => ?_⟩
        obtain ⟨_, y, _, hy, _, hallows⟩ := hparts i d hd
        exact ⟨y, hy, hallows⟩

/-- Constraints that allow a sketch in common can be merged. -/
theorem exists_merge_of_allows {c d : Constraint} {sketch : Value}
    (hc : (Value.constraint c).Allows sketch) (hd : (Value.constraint d).Allows sketch) :
    ∃ merged, c.merge d = .ok merged := by
  cases hc with
  | constraint hc =>
      cases hd with
      | constraint hd =>
          exact Constraint.exists_merge_of_covers (Constraint.covers_of_holds hc)
            (Constraint.covers_of_holds hd)
  | scalar hc =>
      cases hd with
      | scalar hd => exact Constraint.exists_merge_of_covers hc hd

/-- The lengths of lists that allow a sketch in common do not clash. -/
theorem lengthsClash_of_allows {items others : List Value} {tail rest : Option Value}
    {sketch : Value} (ha : (Value.list items tail).Allows sketch)
    (hb : (Value.list others rest).Allows sketch) :
    lengthsClash items.length others.length tail.isSome rest.isSome = false := by
  obtain ⟨elements, rfl, hitems, hleft⟩ := allows_list.mp ha
  obtain ⟨_, heq, hothers, hright⟩ := allows_list.mp hb
  obtain ⟨rfl, _⟩ := list.inj heq
  have hclosed : ∀ (own : List Value) (tail : Option Value), tail.isSome = false →
      (∀ i d, elements[i]? = some d → ∃ x, itemAt? own tail i = some x ∧ x.Allows d) →
      elements.length ≤ own.length := by
    intro own tail htail h
    by_contra hlong
    rw [not_le] at hlong
    obtain ⟨x, hx, _⟩ := h own.length _ (List.getElem?_eq_getElem hlong)
    rw [Option.isSome_eq_false_iff, Option.isNone_iff_eq_none] at htail
    simp [itemAt?, htail] at hx
  have hleft' := hclosed items tail
  have hright' := hclosed others rest
  rw [lengthsClash, Bool.or_eq_false_iff, Bool.and_eq_false_iff, Bool.and_eq_false_iff]
  constructor
  · cases htail : tail.isSome with
    | true => exact Or.inr rfl
    | false =>
        have := hleft' htail hleft
        exact Or.inl (by simpa using by omega)
  · cases hrest : rest.isSome with
    | true => exact Or.inr rfl
    | false =>
        have := hright' hrest hright
        exact Or.inl (by simpa using by omega)

/-- The two values do not clash, and their common value, where there is one, allows the sketch. -/
def Meets (a b sketch : Value) : Prop :=
  ¬ Clashes a b ∧ ∀ r, unify a b = .ok r → r.Allows sketch

theorem meets_of_ok {a b r sketch : Value} (h : unify a b = .ok r) (hr : r.Allows sketch) :
    Meets a b sketch :=
  ⟨not_clashes_of_ok h, fun _ hs => Except.ok.inj (h.symm.trans hs) ▸ hr⟩

theorem meets_struct {fields others : List (String × Value)} {sketch : Value}
    (hlabels : (fields.map Prod.fst).Nodup) (ha : (struct fields).Allows sketch)
    (hb : (struct others).Allows sketch)
    (h : ∀ label x y d, lookup? label fields = some x → lookup? label others = some y →
      x.Allows d → y.Allows d → Meets x y d) :
    Meets (.struct fields) (.struct others) sketch := by
  obtain ⟨entries, rfl, hleft⟩ := allows_struct.mp ha
  obtain ⟨_, heq, hright⟩ := allows_struct.mp hb
  obtain rfl := struct.inj heq
  have hparts : ∀ label x y, lookup? label fields = some x → lookup? label others = some y →
      ∃ d, lookup? label entries = some d ∧ Meets x y d := by
    intro label x y hx hy
    obtain ⟨d, hd, hxallows⟩ := hleft label x hx
    obtain ⟨d', hd', hyallows⟩ := hright label y hy
    obtain rfl := Option.some.inj (hd.symm.trans hd')
    exact ⟨d, hd, h label x y d hx hy hxallows hyallows⟩
  constructor
  · intro hclash
    obtain ⟨f, hf, y, hy, hpart⟩ := clashes_struct hclash
    obtain ⟨_, _, hmeets⟩ := hparts f.1 f.2 y (lookup?_eq_some_of_mem hlabels hf) hy
    exact hmeets.1 hpart
  · intro r hr
    obtain ⟨merged, rfl, hjoined⟩ := unify_struct_eq_ok hr
    refine allows_struct.mpr ⟨entries, rfl, fun label z hz => ?_⟩
    have hlabel := hjoined label
    generalize hx : lookup? label fields = x, hy : lookup? label others = y at hlabel
    rw [hz] at hlabel
    cases hlabel with
    | left => exact hleft label z hx
    | right => exact hright label z hy
    | both hunify =>
        obtain ⟨d, hd, hmeets⟩ := hparts label _ _ hx hy
        exact ⟨d, hd, hmeets.2 z hunify⟩

theorem meets_list {items others : List Value} {tail rest : Option Value} {sketch : Value}
    (ha : (list items tail).Allows sketch) (hb : (list others rest).Allows sketch)
    (htails : ∀ x y, tail = some x → rest = some y → ¬ Clashes x y)
    (h : ∀ i x y d, itemAt? items tail i = some x → itemAt? others rest i = some y →
      x.Allows d → y.Allows d → Meets x y d) :
    Meets (.list items tail) (.list others rest) sketch := by
  have hlengths := lengthsClash_of_allows ha hb
  obtain ⟨elements, rfl, hitems, hleft⟩ := allows_list.mp ha
  obtain ⟨_, heq, hothers, hright⟩ := allows_list.mp hb
  obtain ⟨rfl, _⟩ := list.inj heq
  have hparts : ∀ i d x y, elements[i]? = some d → itemAt? items tail i = some x →
      itemAt? others rest i = some y → Meets x y d := by
    intro i d x y hd hx hy
    obtain ⟨x', hx', hxallows⟩ := hleft i d hd
    obtain ⟨y', hy', hyallows⟩ := hright i d hd
    obtain rfl := Option.some.inj (hx.symm.trans hx')
    obtain rfl := Option.some.inj (hy.symm.trans hy')
    exact h i x y d hx hy hxallows hyallows
  constructor
  · intro hclash
    rcases clashes_list hclash with hlengths' | ⟨i, x, y, hi, hx, hy, hpart⟩ |
      ⟨x, y, hx, hy, hpart⟩
    · rw [hlengths] at hlengths'
      cases hlengths'
    · have hlong : i < elements.length := by omega
      exact (hparts i _ x y (List.getElem?_eq_getElem hlong) hx hy).1 hpart
    · exact htails x y hx hy hpart
  · intro r hr
    obtain ⟨_, merged, last, rfl, hlength, hlast, hitem⟩ := unify_list_eq_ok hr
    refine allows_list.mpr ⟨elements, rfl, by omega, fun i d hd => ?_⟩
    obtain ⟨x, hx, _⟩ := hleft i d hd
    obtain ⟨y, hy, _⟩ := hright i d hd
    obtain ⟨m, hm⟩ := exists_itemAt? hlengths hlength hlast hx hy
    obtain ⟨x', y', hx', hy', hunify⟩ := hitem i m hm
    exact ⟨m, hm, (hparts i d x' y' hd hx' hy').2 m hunify⟩

/-- Values that allow a sketch in common do not clash, unless by the tails of open lists, and their
common value allows it too. -/
theorem meets_of_allows {a b sketch : Value} (hawell : a.WellFormed) (hbwell : b.WellFormed)
    (htails : ¬ TailsClash a b) (ha : a.Allows sketch) (hb : b.Allows sketch) :
    Meets a b sketch := by
  induction a, b using induct₂ generalizing sketch with
  | topLeft b => exact meets_of_ok (unify_top_left b) hb
  | topRight a => exact meets_of_ok (unify_top_right a) ha
  | any a b hatop hbtop hany ih =>
      obtain ⟨x, hx, hxallows⟩ := allows_options.mp ha
      obtain ⟨y, hy, hyallows⟩ := allows_options.mp hb
      have hpair := ih x hx y hy (hawell.options x hx) (hbwell.options y hy)
        (fun h => htails (.option hany hx hy h)) hxallows hyallows
      refine ⟨fun h => hpair.1 (clashes_options h x hx y hy), fun r hr => ?_⟩
      have hwords : unify x y ≠ .error .unprintable := by
        intro hwords
        rw [unify_any hatop hbtop hany] at hr
        have hmem := mem_pairResults.mpr ⟨x, hx, y, hy, hwords⟩
        exact absurd hmem (choose_eq_ok_iff.mp hr).1
      obtain ⟨z, hz⟩ := exists_unify_of_not_clashes hpair.1 hwords
      exact (allows_unify_any hatop hbtop hany hr).mpr ⟨x, hx, y, hy, z, hz, hpair.2 z hz⟩
  | shapes a b s t hs ht hne =>
      have hshape := shape?_eq_of_allows hs ha
      rw [shape?_eq_of_allows ht hb] at hshape
      exact absurd (Option.some.inj hshape).symm hne
  | atoms a b =>
      cases ha with
      | atom ha =>
          cases hb with
          | atom hb =>
              refine meets_of_ok ?_ (.atom ha)
              rw [unify, unifyAt_atom, if_pos (Atom.same_trans ha (Atom.same_symm hb))]
  | atomConstraint a c =>
      cases ha with
      | atom ha =>
          cases hb with
          | constraint hb =>
              refine meets_of_ok ?_ (.atom ha)
              rw [unify_atom_constraint, restrict_eq_ok_iff]
              exact ⟨Constraint.holds_congr (Atom.same_symm ha) hb, rfl⟩
  | constraintAtom c a =>
      cases hb with
      | atom hb =>
          cases ha with
          | constraint ha =>
              refine meets_of_ok ?_ (.atom hb)
              rw [unify_constraint_atom, restrict_eq_ok_iff]
              exact ⟨Constraint.holds_congr (Atom.same_symm hb) ha, rfl⟩
  | constraints c d =>
      obtain ⟨merged, hmerge⟩ := exists_merge_of_allows ha hb
      refine meets_of_ok (unifyAt_constraint_eq_ok_iff.mpr ⟨merged, hmerge, rfl⟩) ?_
      cases ha with
      | constraint ha =>
          cases hb with
          | constraint hb => exact .constraint ((Constraint.holds_merge hmerge _).mpr ⟨ha, hb⟩)
      | scalar ha =>
          cases hb with
          | scalar hb => exact .scalar ((Constraint.covers_merge hmerge _).mpr ⟨ha, hb⟩)
  | struct fields others ih =>
      rw [wellFormed_struct] at hawell hbwell
      refine meets_struct hawell.1 ha hb fun label x y d hx hy hxallows hyallows => ?_
      have hxmem := mem_of_lookup? hx
      have hymem := mem_of_lookup? hy
      exact ih _ hxmem _ hymem (hawell.2 _ hxmem) (hbwell.2 _ hymem)
        (fun h => htails (.field hx hy h)) hxallows hyallows
  | list items tail others rest ih =>
      rw [wellFormed_list] at hawell hbwell
      have hlengths := lengthsClash_of_allows ha hb
      refine meets_list ha hb (fun x y hx hy h => ?_) fun i x y d hx hy hxallows hyallows => ?_
      · subst hx hy
        exact htails (.tails h)
      · have hxmem := mem_of_itemAt? hx
        have hymem := mem_of_itemAt? hy
        exact ih x hxmem y hymem (hxmem.elim (hawell.1 x) (hawell.2 x))
          (hymem.elim (hbwell.1 y) (hbwell.2 y)) (fun h => htails (.item hlengths hx hy h))
          hxallows hyallows

/-- What a row of values has in common, unified from left to right. -/
def unifyAll (values : List Value) : Unified Value :=
  values.foldlM unify .top

theorem unifyAll_cons (v : Value) (values : List Value) :
    unifyAll (v :: values) = values.foldlM unify v := by
  rw [unifyAll, List.foldlM_cons, unify_top_left]
  rfl

/-- Unifying the values one by one with what there is so far leads to no open lists whose tails
clash. -/
def TailsAgree (v : Value) : List Value → Prop
  | [] => True
  | w :: values => ¬ TailsClash v w ∧ ∀ r, unify v w = .ok r → TailsAgree r values

/-- Nothing but a conflict in what the values ask for can keep the row from being unified. -/
structure Unhindered (values : List Value) : Prop where
  tails : TailsAgree .top values
  words : unifyAll values ≠ .error .unprintable

theorem wellFormed_foldlM {v r : Value} {values : List Value} (hv : v.WellFormed)
    (hvalues : ∀ w ∈ values, w.WellFormed) (h : values.foldlM unify v = .ok r) : r.WellFormed :=
  foldlM_invariant hv (fun _ ha w hw _ hunify => wellFormed_unify ha (hvalues w hw) hunify) h

/-- What the common value of a row allows, all of its values allow. -/
theorem allows_of_foldlM {v r sketch : Value} {values : List Value}
    (h : values.foldlM unify v = .ok r) (hr : r.Allows sketch) :
    v.Allows sketch ∧ ∀ w ∈ values, w.Allows sketch := by
  induction values generalizing v with
  | nil =>
      obtain rfl := Except.ok.inj h
      exact ⟨hr, nofun⟩
  | cons w values ih =>
      rw [List.foldlM_cons, bind_eq_ok_iff] at h
      obtain ⟨merged, hunify, hrest⟩ := h
      obtain ⟨hmerged, hvalues⟩ := ih hrest
      have hboth := allows_of_unify hunify hmerged
      exact ⟨hboth.1, List.forall_mem_cons.mpr ⟨hboth.2, hvalues⟩⟩

/-- Values that allow a sketch in common are unified, and their common value allows it, unless tails
clash on the way or a conflict cannot be put in words. -/
theorem yields_foldlM {v sketch : Value} {values : List Value} (hvwell : v.WellFormed)
    (hwell : ∀ w ∈ values, w.WellFormed) (htails : TailsAgree v values) (hv : v.Allows sketch)
    (hvalues : ∀ w ∈ values, w.Allows sketch) :
    Unified.Yields (·.Allows sketch) (values.foldlM unify v) := by
  induction values generalizing v with
  | nil => exact Or.inr ⟨v, rfl, hv⟩
  | cons w values ih =>
      rw [List.forall_mem_cons] at hwell hvalues
      obtain ⟨hnot, hallows⟩ := meets_of_allows hvwell hwell.1 htails.1 hv hvalues.1
      rw [List.foldlM_cons]
      by_cases hwords : unify v w = .error .unprintable
      · rw [hwords]
        exact Or.inl rfl
      · obtain ⟨r, hr⟩ := exists_unify_of_not_clashes hnot hwords
        rw [hr]
        exact ih (wellFormed_unify hvwell hwell.1 hr) hwell.2 (htails.2 r hr) (hallows r hr) hvalues.2

section Permutation

variable {vs ws : List Value} (hperm : vs.Perm ws) (hwell : ∀ v ∈ vs, v.WellFormed)
include hperm hwell

/-- A row that is unified in one order is unified in every other one that nothing hinders. -/
theorem exists_unifyAll_of_perm (hws : Unhindered ws) {r : Value} (hr : unifyAll vs = .ok r) :
    ∃ s, unifyAll ws = .ok s ∧
      ∀ data, data.concrete = true → r.Admits data → s.Admits data := by
  have hrwell := wellFormed_foldlM .top hwell hr
  have hwswell : ∀ w ∈ ws, w.WellFormed := fun w hw => hwell w (hperm.mem_iff.mpr hw)
  have hyields : ∀ sketch, r.Allows sketch →
      ∃ s, unifyAll ws = .ok s ∧ s.Allows sketch := by
    intro sketch hsketch
    have hvalues := (allows_of_foldlM hr hsketch).2
    exact (yields_foldlM .top hwswell hws.tails .top
      fun w hw => hvalues w (hperm.mem_iff.mpr hw)).resolve_left hws.words
  obtain ⟨sketch, hsketch⟩ := exists_allows hrwell
  obtain ⟨s, hs, _⟩ := hyields sketch hsketch
  refine ⟨s, hs, fun data hdata hadmits => ?_⟩
  obtain ⟨s', hs', hallows⟩ := hyields data ((allows_iff_admits hrwell hdata).mpr hadmits)
  obtain rfl := Except.ok.inj (hs.symm.trans hs')
  exact (allows_iff_admits (wellFormed_foldlM .top hwswell hs) hdata).mp hallows

end Permutation

end ApiProbe.Value
