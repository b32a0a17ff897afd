import Mathlib.Algebra.Group.WithOne.Basic
import Mathlib.Algebra.Order.Monoid.Unbundled.WithTop
import Mathlib.Algebra.BigOperators.Group.Multiset.Basic
import ApiProbe.Proofs.Unify.Parts
import ApiProbe.Proofs.Unify.Preservation

/-!
# Unification from either side

Which of two values stands first decides the order of fields, bounds, options and conflicts and
nothing else. Conflicts are compared by a tally of their places: the tally of a common value's parts
is the sum of the parts' tallies, so it does not depend on the side from which they are gone through.
-/

namespace ApiProbe

section Distinct

variable {α : Type} {same : α → α → Bool} {p : α → Bool}

/-- Clearing a list of repetitions does not change which element is found first. -/
theorem find?_distinctBy (hp : ∀ x y, same x y = true → p x = p y) (kept xs : List α) :
    (distinctBy same kept xs).find? p = (kept ++ xs).find? p := by
  induction xs generalizing kept with
  | nil => rw [distinctBy, List.append_nil]
  | cons x xs ih =>
      rw [distinctBy, ih]
      split
      · rename_i hany
        obtain ⟨y, hy, hsame⟩ := List.any_eq_true.mp hany
        rw [List.find?_append, List.find?_append, List.find?_cons]
        cases hx : p x with
        | false => rfl
        | true =>
            have hfound : (kept.find? p).isSome := List.find?_isSome.mpr ⟨y, hy, hp x y hsame ▸ hx⟩
            obtain ⟨z, hz⟩ := Option.isSome_iff_exists.mp hfound
            rw [hz, Option.some_or, Option.some_or]
      · rw [List.append_assoc, List.singleton_append]

end Distinct

namespace Constraint

theorem meetKinds_comm (k l : Kind) : meetKinds k l = meetKinds l k := by
  cases k <;> cases l <;> rfl

theorem agrees_congr {kind : Kind} {b c : Bound} (h : b.same c = true) :
    agrees kind b = agrees kind c := by
  cases b <;> cases c <;> simp only [Bound.same, Bool.and_eq_true, Bool.false_eq_true] at h
  · rw [agrees, agrees, Atom.kind_eq_of_same h.2, Atom.isNumber_eq_of_same h.2]
  · rfl
  · rfl

theorem find?_bounds_append {kind : Kind} {bs : List Bound}
    (h : ∀ bound ∈ bs, agrees kind bound = true) (cs : List Bound) :
    (distinctBoundsFrom [] (bs ++ cs)).find? (!agrees kind ·) = cs.find? (!agrees kind ·) ∧
      (distinctBoundsFrom [] (cs ++ bs)).find? (!agrees kind ·) = cs.find? (!agrees kind ·) := by
  have hcongr : ∀ b c : Bound, b.same c = true → (!agrees kind b) = !agrees kind c :=
    fun b c hsame => congrArg (!·) (agrees_congr hsame)
  have hnone : bs.find? (!agrees kind ·) = none := by
    rw [List.find?_eq_none]
    intro bound hbound
    simp [h bound hbound]
  constructor
  · rw [distinctBoundsFrom_eq, find?_distinctBy hcongr, List.nil_append, List.find?_append, hnone,
      Option.none_or]
  · rw [distinctBoundsFrom_eq, find?_distinctBy hcongr, List.nil_append, List.find?_append, hnone,
      Option.or_none]

/-- Constraints are merged, or refused for a reason that has words or lacks them, on either side. -/
theorem merge_comm {c d : Constraint} (hc : c.WellFormed) (hd : d.WellFormed) :
    (∃ m n, c.merge d = .ok m ∧ d.merge c = .ok n) ∨
      ∃ r s, c.merge d = .error r ∧ d.merge c = .error s ∧ r.printable = s.printable := by
  have hown : ∀ e : Constraint, e.WellFormed → ∀ k, e.kind = some k →
      ∀ bound ∈ e.bounds, agrees k bound = true :=
    fun e he k hk bound hbound => Kind.agrees_of_suits (he.suits k hk bound hbound)
  obtain ⟨ck, cb⟩ := c
  obtain ⟨dk, db⟩ := d
  unfold merge
  match ck, dk with
  | none, none => exact Or.inl ⟨_, _, rfl, rfl⟩
  | some k, none =>
      obtain ⟨hleft, hright⟩ := find?_bounds_append (hown _ hc k rfl) db
      simp only [mergeKinds] at hleft hright ⊢
      rw [hleft, hright]
      split
      · exact Or.inr ⟨_, _, rfl, rfl, rfl⟩
      · exact Or.inl ⟨_, _, rfl, rfl⟩
  | none, some k =>
      obtain ⟨hleft, hright⟩ := find?_bounds_append (hown _ hd k rfl) cb
      simp only [mergeKinds] at hleft hright ⊢
      rw [hleft, hright]
      split
      · exact Or.inr ⟨_, _, rfl, rfl, rfl⟩
      · exact Or.inl ⟨_, _, rfl, rfl⟩
  | some k, some l =>
      simp only [mergeKinds, meetKinds_comm l k]
      cases hmeet : meetKinds k l with
      | none => exact Or.inr ⟨_, _, rfl, rfl, rfl⟩
      | some m =>
          obtain ⟨hkm, hlm, -⟩ := meetKinds_eq_some_iff.mp hmeet
          have hc' : ∀ bound ∈ cb, agrees m bound = true := fun bound hbound =>
            (hkm.agrees_eq bound).symm.trans (hown _ hc k rfl bound hbound)
          have hd' : ∀ bound ∈ db, agrees m bound = true := fun bound hbound =>
            (hlm.agrees_eq bound).symm.trans (hown _ hd l rfl bound hbound)
          have hnone : cb.find? (!agrees m ·) = none := by
            rw [List.find?_eq_none]
            intro bound hbound
            simp [hc' bound hbound]
          obtain ⟨hleft, hright⟩ := find?_bounds_append hd' cb
          simp only [hleft, hright, hnone]
          exact Or.inl ⟨_, _, rfl, rfl⟩

end Constraint

/-! ### Tallies of conflicts

Adding the tallies of parts has to count every conflict, and one without words has to absorb all others.
Multisets with a greatest element have such a sum, and it is commutative, which is all that symmetry needs. -/

/-- The places of conflicts, each as often as there are conflicts there; `⊤` where a conflict cannot
be put in words. -/
def Clash.paths : Clash → WithTop (Multiset String)
  | .conflicts all => ((all.map (·.path) : List String) : Multiset String)
  | .unprintable => ⊤

theorem Clash.paths_merge (c d : Clash) : (c.merge d).paths = c.paths + d.paths := by
  cases c <;> cases d <;> simp [merge, paths, ← WithTop.coe_add]

theorem Clash.paths_eq_top_iff {c : Clash} : c.paths = ⊤ ↔ c = .unprintable := by
  cases c <;> simp [paths]

namespace Unified

variable {α β : Type}

/-- The conflicts of a result, as their places; `0` for a value. -/
def tally : Unified α → WithZero (WithTop (Multiset String))
  | .ok _ => 0
  | .error clash => WithZero.coe clash.paths

theorem tally_eq_zero_iff {r : Unified α} : r.tally = 0 ↔ ∃ a, r = .ok a := by
  cases r <;> simp [tally]

theorem tally_eq_top_iff {r : Unified α} :
    r.tally = WithZero.coe ⊤ ↔ r = .error .unprintable := by
  cases r <;> simp [tally, Clash.paths_eq_top_iff]

theorem tally_map (f : α → β) (r : Unified α) : tally (r.map f) = r.tally := by
  cases r <;> rfl

theorem tally_both (r : Unified α) (s : Unified β) : (both r s).tally = r.tally + s.tally := by
  cases r <;> cases s <;> simp [both, tally, Clash.paths_merge]

theorem tally_all (rs : List (Unified α)) : (all rs).tally = (rs.map tally).sum := by
  induction rs with
  | nil => rfl
  | cons r rs ih => rw [all, tally_map, tally_both, ih, List.map_cons, List.sum_cons]

theorem tally_of {path : String} {reason other : Reason} (h : reason.printable = other.printable) :
    tally (.error (.of path reason) : Unified α) = tally (.error (.of path other) : Unified β) := by
  rw [Clash.of, Clash.of, h]
  split <;> rfl

end Unified

namespace Value

open Unified (tally tally_eq_zero_iff tally_eq_top_iff tally_of)

/-- Choices among results of the same tallies have the same tally. -/
theorem tally_choose {path : String} {a b : Value} {rs ss : List (Unified Value)}
    (h : ∀ t, t ∈ rs.map tally ↔ t ∈ ss.map tally) :
    tally (choose path a b rs) = tally (choose path b a ss) := by
  have hwords : ∀ qs : List (Unified Value), Except.error Clash.unprintable ∈ qs ↔
      WithZero.coe ⊤ ∈ qs.map tally := by
    intro qs
    simp only [List.mem_map, tally_eq_top_iff, exists_eq_right]
  have hnone : ∀ qs : List (Unified Value), successes qs = [] ↔ 0 ∉ qs.map tally := by
    intro qs
    simp only [List.eq_nil_iff_forall_not_mem, mem_successes, List.mem_map, tally_eq_zero_iff]
    constructor
    · rintro hx ⟨r, hr, x, rfl⟩
      exact hx x hr
    · intro hx x hr
      exact hx ⟨_, hr, x, rfl⟩
  by_cases hunprintable : Except.error Clash.unprintable ∈ rs
  · have hother := (hwords ss).mpr ((h _).mp ((hwords rs).mp hunprintable))
    rw [choose_of_unprintable hunprintable, choose_of_unprintable hother]
  · have hother : Except.error Clash.unprintable ∉ ss := fun hss =>
      hunprintable ((hwords rs).mpr ((h _).mpr ((hwords ss).mp hss)))
    have hiff : successes rs = [] ↔ successes ss = [] := by
      rw [hnone, hnone, h]
    by_cases hempty : successes rs = []
    · rw [choose_of_none hunprintable hempty, choose_of_none hother (hiff.mp hempty)]
      exact tally_of (Bool.and_comm _ _)
    · rw [choose_of_some hunprintable hempty, choose_of_some hother (mt hiff.mpr hempty)]
      rfl

/-- The tally of the values under a label of both structs, `0` where one of them lacks it. -/
def labelTally (path label : String) (x y : Value) (label' : String) :
    WithZero (WithTop (Multiset String)) :=
  if label = label' then tally (unifyAt (joinPath path label) x y) else 0

theorem tally_lookup? (path label : String) (x : Value) {others : List (String × Value)}
    (hlabels : (others.map Prod.fst).Nodup) :
    tally (match lookup? label others with
      | some y => unifyAt (joinPath path label) x y
      | none => .ok x) =
      (others.map fun g => labelTally path label x g.2 g.1).sum := by
  induction others with
  | nil => rfl
  | cons g others ih =>
      obtain ⟨l, y⟩ := g
      rw [List.map_cons, List.nodup_cons] at hlabels
      rw [List.map_cons, List.sum_cons, lookup?, ← ih hlabels.2]
      by_cases hl : l = label
      · subst hl
        rw [if_pos (beq_self_eq_true l), lookup?_eq_none_iff.mpr hlabels.1, labelTally, if_pos rfl]
        exact (add_zero _).symm
      · rw [if_neg (by simpa using hl), labelTally, if_neg (Ne.symm hl), zero_add]

/-- The tally of unified fields is the sum over all pairs of fields. -/
theorem tally_unifyFields (path : String) (fields : List (String × Value))
    {others : List (String × Value)} (hlabels : (others.map Prod.fst).Nodup) :
    tally (unifyFields path fields others) =
      (fields.map fun f => (others.map fun g => labelTally path f.1 f.2 g.2 g.1).sum).sum := by
  induction fields with
  | nil => rw [unifyFields]; rfl
  | cons field fields ih =>
      obtain ⟨label, x⟩ := field
      rw [unifyFields, Unified.tally_map, Unified.tally_both, ih, List.map_cons, List.sum_cons]
      exact congrArg (· + _) (tally_lookup? path label x hlabels)

theorem tally_unifyFields_comm {path : String} {fields others : List (String × Value)}
    (hfields : (fields.map Prod.fst).Nodup) (hothers : (others.map Prod.fst).Nodup)
    (ih : ∀ f ∈ fields, ∀ g ∈ others, ∀ q,
      tally (unifyAt q f.2 g.2) = tally (unifyAt q g.2 f.2)) :
    tally (unifyFields path fields others) = tally (unifyFields path others fields) := by
  rw [tally_unifyFields path fields hothers, tally_unifyFields path others hfields]
  have hswap := Multiset.sum_map_sum_map (fields : Multiset (String × Value))
    (others : Multiset (String × Value)) (f := fun f g => labelTally path f.1 f.2 g.2 g.1)
  simp only [Multiset.map_coe, Multiset.sum_coe] at hswap
  rw [hswap]
  congr 1
  refine List.map_congr_left fun g hg => congrArg List.sum (List.map_congr_left fun f hf => ?_)
  rw [labelTally, labelTally]
  by_cases hlabel : f.1 = g.1
  · rw [if_pos hlabel, if_pos hlabel.symm, hlabel]
    exact ih f hf g hg _
  · rw [if_neg hlabel, if_neg (Ne.symm hlabel)]

theorem pairUp_swap (tail rest : Option Value) (items others : List Value) :
    pairUp rest tail others items = (pairUp tail rest items others).map Prod.swap := by
  fun_induction pairUp tail rest items others <;> simp_all [pairUp]

theorem tally_listResult {path : String} {all : Unified (List Value)} {tail rest : Option Value} :
    tally (listResult path all tail rest) = all.tally +
      match tail, rest with
      | some x, some y => tally (unifyAt (joinPath path "...") x y)
      | _, _ => 0 := by
  cases tail with
  | none =>
      rw [listResult, Unified.tally_map, add_zero]
      rintro _ _ ⟨⟩
  | some x =>
      cases rest with
      | none =>
          rw [listResult, Unified.tally_map, add_zero]
          rintro _ _ _ ⟨⟩
      | some y => rw [listResult, Unified.tally_map, Unified.tally_both]

theorem tally_itemResults_swap {path : String} {index : Nat} {pairs : List (Value × Value)}
    (ih : ∀ pair ∈ pairs, ∀ q,
      tally (unifyAt q pair.1 pair.2) = tally (unifyAt q pair.2 pair.1)) :
    (itemResults path index pairs).map tally =
      (itemResults path index (pairs.map Prod.swap)).map tally := by
  induction pairs generalizing index with
  | nil => rfl
  | cons pair pairs hrec =>
      rw [List.forall_mem_cons] at ih
      rw [List.map_cons, itemResults_cons, itemResults_cons, List.map_cons, List.map_cons,
        hrec ih.2, ih.1]
      rfl

/-- Unification finds the same tally of conflicts from either side. -/
theorem tally_unifyAt_comm {path : String} {a b : Value} (ha : a.WellFormed) (hb : b.WellFormed) :
    tally (unifyAt path a b) = tally (unifyAt path b a) := by
  induction a, b using induct₂ generalizing path with
  | topLeft b => rw [unifyAt_top_left, unifyAt_top_right]
  | topRight a => rw [unifyAt_top_left, unifyAt_top_right]
  | any a b hatop hbtop hany ih =>
      rw [unifyAt_any path hatop hbtop hany, unifyAt_any path hbtop hatop hany.symm]
      apply tally_choose
      intro t
      simp only [List.mem_map, mem_pairResults]
      constructor
      · rintro ⟨_, ⟨x, hx, y, hy, rfl⟩, rfl⟩
        exact ⟨_, ⟨y, hy, x, hx, rfl⟩, (ih x hx y hy (ha.options x hx) (hb.options y hy)).symm⟩
      · rintro ⟨_, ⟨y, hy, x, hx, rfl⟩, rfl⟩
        exact ⟨_, ⟨x, hx, y, hy, rfl⟩, ih x hx y hy (ha.options x hx) (hb.options y hy)⟩
  | shapes a b s t hs ht hne =>
      rw [unifyAt_of_shape_ne path hs ht hne, unifyAt_of_shape_ne path ht hs hne.symm]
      exact tally_of (Bool.and_comm _ _)
  | atoms a b =>
      rw [unifyAt_atom, unifyAt_atom]
      by_cases hsame : a.same b = true
      · rw [if_pos hsame, if_pos (Atom.same_symm hsame)]
        rfl
      · rw [if_neg hsame, if_neg (mt Atom.same_symm hsame)]
        exact tally_of (Bool.and_comm _ _)
  | atomConstraint a c => rw [unifyAt_atom_constraint, unifyAt_constraint_atom]
  | constraintAtom c a => rw [unifyAt_atom_constraint, unifyAt_constraint_atom]
  | constraints c d =>
      rw [wellFormed_constraint] at ha hb
      rw [unifyAt_constraint, unifyAt_constraint]
      rcases Constraint.merge_comm ha hb with ⟨m, n, hm, hn⟩ | ⟨r, s, hr, hs, hwords⟩
      · rw [hm, hn]
        rfl
      · rw [hr, hs]
        exact tally_of hwords
  | struct fields others ih =>
      rw [wellFormed_struct] at ha hb
      rw [unifyAt_struct, unifyAt_struct, Unified.tally_map, Unified.tally_map]
      exact tally_unifyFields_comm ha.1 hb.1 fun f hf g hg q =>
        ih f hf g hg (ha.2 f hf) (hb.2 g hg)
  | list items tail others rest ih =>
      rw [wellFormed_list] at ha hb
      have hparts : ∀ x, x ∈ items ∨ x ∈ tail → ∀ y, y ∈ others ∨ y ∈ rest → ∀ q,
          tally (unifyAt q x y) = tally (unifyAt q y x) := fun x hx y hy q =>
        ih x hx y hy (hx.elim (ha.1 x) (ha.2 x)) (hy.elim (hb.1 y) (hb.2 y))
      cases hclash : lengthsClash items.length others.length tail.isSome rest.isSome with
      | true =>
          rw [unifyAt_list_of_clash hclash, unifyAt_list_of_clash (lengthsClash_comm .. ▸ hclash)]
          exact tally_of rfl
      | false =>
          rw [unifyAt_list hclash, unifyAt_list (lengthsClash_comm .. ▸ hclash), tally_listResult,
            tally_listResult, Unified.tally_all, Unified.tally_all, pairUp_swap tail rest items others,
            ← tally_itemResults_swap]
          · cases tail with
            | none => cases rest <;> rfl
            | some x =>
                cases rest with
                | none => rfl
                | some y => exact congrArg (_ + ·) (hparts x (Or.inr rfl) y (Or.inr rfl) _)
          · intro pair hpair q
            obtain ⟨i, hi⟩ := List.getElem?_of_mem hpair
            obtain ⟨_, hx, hy⟩ := itemAt?_of_mem_pairUp hclash hi
            exact hparts _ (mem_of_itemAt? hx) _ (mem_of_itemAt? hy) q

theorem exists_unify_comm {a b : Value} (ha : a.WellFormed) (hb : b.WellFormed) :
    (∃ r, unify a b = .ok r) ↔ ∃ s, unify b a = .ok s := by
  rw [← tally_eq_zero_iff, ← tally_eq_zero_iff, unify, unify, tally_unifyAt_comm ha hb]

/-- The values admit the same data. -/
def SameData (v w : Value) : Prop :=
  ∀ data, v.Admits data ↔ w.Admits data

theorem admits_struct_lookup? {fields : List (String × Value)}
    (hlabels : (fields.map Prod.fst).Nodup) {data : Value} :
    (Value.struct fields).Admits data ↔ ∃ entries, data = .struct entries ∧
      ∀ label v, lookup? label fields = some v →
        ∃ x, lookup? label entries = some x ∧ v.Admits x := by
  rw [admits_struct]
  refine exists_congr fun entries => and_congr_right fun _ => ⟨fun h label v hv => ?_, fun h f hf => ?_⟩
  · exact h _ (mem_of_lookup? hv)
  · exact h f.1 f.2 (lookup?_eq_some_of_mem hlabels hf)

/-- Structs with the same data under each label admit the same data. -/
theorem sameData_struct {fields others : List (String × Value)}
    (hfields : (fields.map Prod.fst).Nodup) (hothers : (others.map Prod.fst).Nodup)
    (h : ∀ label, Option.Rel SameData (lookup? label fields) (lookup? label others)) :
    SameData (.struct fields) (.struct others) := by
  intro data
  rw [admits_struct_lookup? hfields, admits_struct_lookup? hothers]
  refine exists_congr fun entries => and_congr_right fun _ => forall_congr' fun label => ?_
  have hlabel := h label
  generalize lookup? label fields = old, lookup? label others = new at hlabel ⊢
  cases hlabel with
  | none => simp
  | some hsame => simp [hsame _]

/-- Lists of one length with the same data at each index admit the same data. -/
theorem sameData_list {items others : List Value} {tail rest : Option Value}
    (hlength : items.length = others.length)
    (h : ∀ i, Option.Rel SameData (itemAt? items tail i) (itemAt? others rest i)) :
    SameData (.list items tail) (.list others rest) := by
  intro data
  rw [admits_list, admits_list, hlength]
  refine exists_congr fun elements => and_congr_right fun _ => and_congr_right fun _ =>
    forall_congr' fun i => ?_
  have hindex := h i
  generalize itemAt? items tail i = old, itemAt? others rest i = new at hindex ⊢
  cases hindex with
  | none => simp
  | some hsame => simp [hsame _]

/-- What stands under a label of two structs joined from either side admits the same data. -/
theorem sameData_of_joined {x y z w : Option Value} (hleft : Joined x y z) (hright : Joined y x w)
    (h : ∀ x' y' z' w', x = some x' → y = some y' → unify x' y' = .ok z' → unify y' x' = .ok w' →
      SameData z' w') : Option.Rel SameData z w := by
  cases hleft with
  | neither => cases hright; exact .none
  | left x => cases hright; exact .some fun data => Iff.rfl
  | right y => cases hright; exact .some fun data => Iff.rfl
  | both hz =>
      cases hright with
      | both hw => exact .some (h _ _ _ _ rfl rfl hz hw)

/-- The common values of two values, unified from either side, admit the same data. -/
theorem sameData_unify {a b r s : Value} (ha : a.WellFormed) (hb : b.WellFormed)
    (hr : unify a b = .ok r) (hs : unify b a = .ok s) : r.SameData s := by
  induction a, b using induct₂ generalizing r s with
  | topLeft b =>
      rw [unify_top_left, Except.ok.injEq] at hr
      rw [unify_top_right, Except.ok.injEq] at hs
      exact fun data => by rw [← hr, ← hs]
  | topRight a =>
      rw [unify_top_right, Except.ok.injEq] at hr
      rw [unify_top_left, Except.ok.injEq] at hs
      exact fun data => by rw [← hr, ← hs]
  | any a b hatop hbtop hany ih =>
      intro data
      rw [admits_unify_any hatop hbtop hany hr, admits_unify_any hbtop hatop hany.symm hs]
      constructor
      · rintro ⟨x, hx, y, hy, z, hz, hadmits⟩
        have hxwell := ha.options x hx
        have hywell := hb.options y hy
        obtain ⟨w, hw⟩ := (exists_unify_comm hxwell hywell).mp ⟨z, hz⟩
        exact ⟨y, hy, x, hx, w, hw, (ih x hx y hy hxwell hywell hz hw data).mp hadmits⟩
      · rintro ⟨y, hy, x, hx, w, hw, hadmits⟩
        have hxwell := ha.options x hx
        have hywell := hb.options y hy
        obtain ⟨z, hz⟩ := (exists_unify_comm hxwell hywell).mpr ⟨w, hw⟩
        exact ⟨x, hx, y, hy, z, hz, (ih x hx y hy hxwell hywell hz hw data).mpr hadmits⟩
  | shapes a b s t hs' ht hne =>
      rw [unify, unifyAt_of_shape_ne "" hs' ht hne] at hr
      cases hr
  | atoms a b =>
      rw [unify, unifyAt_atom] at hr hs
      split at hr
      · rename_i hsame
        rw [if_pos (Atom.same_symm hsame), Except.ok.injEq] at hs
        rw [Except.ok.injEq] at hr
        subst hr hs
        have hvalues : (Value.atom a).same (.atom b) = true := by rwa [same]
        exact fun data => ⟨Admits.of_same hvalues, Admits.of_same (same_symm hvalues)⟩
      · cases hr
  | atomConstraint a c =>
      rw [unify, unifyAt_atom_constraint] at hr
      rw [unify, unifyAt_constraint_atom, hr, Except.ok.injEq] at hs
      exact fun data => by rw [hs]
  | constraintAtom c a =>
      rw [unify, unifyAt_constraint_atom] at hr
      rw [unify, unifyAt_atom_constraint, hr, Except.ok.injEq] at hs
      exact fun data => by rw [hs]
  | constraints c d =>
      obtain ⟨m, hm, rfl⟩ := unifyAt_constraint_eq_ok_iff.mp hr
      obtain ⟨n, hn, rfl⟩ := unifyAt_constraint_eq_ok_iff.mp hs
      have hholds : ∀ a, m.Holds a ↔ n.Holds a := fun a => by
        rw [Constraint.holds_merge hm, Constraint.holds_merge hn, and_comm]
      intro data
      constructor
      · rintro ⟨⟩
        exact .constraint ((hholds _).mp ‹_›)
      · rintro ⟨⟩
        exact .constraint ((hholds _).mpr ‹_›)
  | struct fields others ih =>
      have hrwell := wellFormed_unify ha hb hr
      have hswell := wellFormed_unify hb ha hs
      obtain ⟨merged, rfl, hjoined⟩ := unify_struct_eq_ok hr
      obtain ⟨merged', rfl, hjoined'⟩ := unify_struct_eq_ok hs
      rw [wellFormed_struct] at ha hb hrwell hswell
      refine sameData_struct hrwell.1 hswell.1 fun label => ?_
      refine sameData_of_joined (hjoined label) (hjoined' label) fun x y z w hx hy hz hw => ?_
      have hxmem := mem_of_lookup? hx
      have hymem := mem_of_lookup? hy
      exact ih _ hxmem _ hymem (ha.2 _ hxmem) (hb.2 _ hymem) hz hw
  | list items tail others rest ih =>
      rw [wellFormed_list] at ha hb
      obtain ⟨hclash, merged, last, rfl, hlength, hlast, hitem⟩ := unify_list_eq_ok hr
      obtain ⟨hclash', merged', last', rfl, hlength', hlast', hitem'⟩ := unify_list_eq_ok hs
      refine sameData_list (by rw [hlength, hlength', max_comm]) fun i => ?_
      cases hz : itemAt? merged last i with
      | none =>
          cases hw : itemAt? merged' last' i with
          | none => exact .none
          | some w =>
              obtain ⟨y, x, hy, hx, _⟩ := hitem' i w hw
              obtain ⟨z, hz'⟩ := exists_itemAt? hclash hlength hlast hx hy
              rw [hz] at hz'
              cases hz'
      | some z =>
          obtain ⟨x, y, hx, hy, hunify⟩ := hitem i z hz
          obtain ⟨w, hw⟩ := exists_itemAt? hclash' hlength' hlast' hy hx
          obtain ⟨y', x', hy', hx', hunify'⟩ := hitem' i w hw
          obtain rfl := Option.some.inj (hx.symm.trans hx')
          obtain rfl := Option.some.inj (hy.symm.trans hy')
          rw [hw]
          have hxmem := mem_of_itemAt? hx
          have hymem := mem_of_itemAt? hy
          exact .some (ih x hxmem y hymem (hxmem.elim (ha.1 x) (ha.2 x))
            (hymem.elim (hb.1 y) (hb.2 y)) hunify hunify')

/-- **Commutativity.** Two well-formed values have a common value from either side or from neither.
The two common values admit the same data, and the conflicts, where there are some, stand at the same
places equally often. -/
theorem unify_comm {a b : Value} (ha : a.WellFormed) (hb : b.WellFormed) :
    ((∃ r, unify a b = .ok r) ↔ ∃ s, unify b a = .ok s) ∧
      (∀ r s, unify a b = .ok r → unify b a = .ok s → ∀ data, r.Admits data ↔ s.Admits data) ∧
      ∀ c d, unify a b = .error c → unify b a = .error d → c.paths = d.paths := by
  refine ⟨exists_unify_comm ha hb, fun r s hr hs => sameData_unify ha hb hr hs, fun c d hc hd => ?_⟩
  have htally : tally (unify a b) = tally (unify b a) := tally_unifyAt_comm ha hb
  rw [hc, hd] at htally
  exact WithZero.coe_injective htally

/-- Two orders with a conflict under two labels and one in a list, compared from either side. -/
theorem unify_comm_three_conflicts :
    let a : Value := .struct [("n", ofKind .int), ("xs", .list [.top, ofKind .string] none),
      ("to", .any [.atom (.string "a"), .atom (.string "b")])]
    let b : Value := .struct [("to", ofKind .bool),
      ("n", .constraint ⟨some .string, [.order .gt (.string "")]⟩),
      ("xs", .list [.atom (.int 2)] (some (ofKind .int)))]
    ∃ c d, unify a b = .error c ∧ unify b a = .error d ∧ c.paths = d.paths ∧
      c.paths = (({"n", "xs.1", "to"} : Multiset String) : WithTop (Multiset String)) := by
  intro a b
  have ha : a.WellFormed := by
    simp [a, ofKind, Constraint.wellFormed_iff, Atom.WellFormed, isAny, same, Atom.same]
  have hb : b.WellFormed := by
    simp [b, ofKind, Constraint.wellFormed_iff, Bound.WellFormed, Atom.WellFormed, Kind.Suits,
      Atom.kind]
  exact ⟨_, _, rfl, rfl, (unify_comm ha hb).2.2 _ _ rfl rfl, rfl⟩

end Value

end ApiProbe
