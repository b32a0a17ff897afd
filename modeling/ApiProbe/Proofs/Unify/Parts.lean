import ApiProbe.Proofs.Unify.Equations
import ApiProbe.Proofs.Value.Field

/-!
# The parts of a common value

The place at which two values are unified shows in the conflicts only. So what unification does to
structs, lists and alternatives can be said in terms of the unification of their parts: which parts a
common value has, and which parts clash where there is none.
-/

namespace ApiProbe

namespace Unified

variable {α β : Type}

/-- The same value, or conflicts on both sides, or conflicts on both sides that lack words. -/
inductive Agree : Unified α → Unified α → Prop
  | ok (a : α) : Agree (.ok a) (.ok a)
  | conflicts (cs ds : List Conflict) : Agree (.error (.conflicts cs)) (.error (.conflicts ds))
  | unprintable : Agree (.error .unprintable) (.error .unprintable)

theorem Agree.of (p q : String) (reason : Reason) :
    Agree (.error (.of p reason) : Unified α) (.error (.of q reason)) := by
  rw [Clash.of, Clash.of]
  split
  · exact .conflicts _ _
  · exact .unprintable

theorem Agree.map {r s : Unified α} (f : α → β) (h : Agree r s) : Agree (r.map f) (s.map f) := by
  cases h with
  | ok a => exact .ok (f a)
  | conflicts cs ds => exact .conflicts cs ds
  | unprintable => exact .unprintable

theorem Agree.both {r r' : Unified α} {s s' : Unified β} (hr : Agree r r') (hs : Agree s s') :
    Agree (both r s) (both r' s') := by
  cases hr <;> cases hs <;> constructor

theorem Agree.all {rs ss : List (Unified α)} (h : List.Forall₂ Agree rs ss) :
    Agree (all rs) (all ss) := by
  induction h with
  | nil => exact .ok []
  | cons hr _ ih => exact (hr.both ih).map _

theorem Agree.eq_ok_iff {r s : Unified α} (h : Agree r s) {a : α} : r = .ok a ↔ s = .ok a := by
  cases h <;> simp

theorem Agree.eq_unprintable_iff {r s : Unified α} (h : Agree r s) :
    r = .error .unprintable ↔ s = .error .unprintable := by
  cases h <;> simp

theorem Agree.eq_conflicts_iff {r s : Unified α} (h : Agree r s) :
    (∃ cs, r = .error (.conflicts cs)) ↔ ∃ ds, s = .error (.conflicts ds) := by
  cases h <;> simp

/-- Conflicts of two results are conflicts of one of them. -/
theorem both_eq_conflicts {r : Unified α} {s : Unified β} {cs : List Conflict}
    (h : both r s = .error (.conflicts cs)) :
    (∃ ds, r = .error (.conflicts ds)) ∨ ∃ ds, s = .error (.conflicts ds) := by
  match r, s with
  | .ok a, .ok b => cases h
  | .ok a, .error (.conflicts ds) => exact Or.inr ⟨ds, rfl⟩
  | .error (.conflicts ds), _ => exact Or.inl ⟨ds, rfl⟩
  | .error .unprintable, .ok b => cases h
  | .error .unprintable, .error d => cases h

theorem all_eq_conflicts {rs : List (Unified α)} {cs : List Conflict}
    (h : all rs = .error (.conflicts cs)) : ∃ ds, Except.error (Clash.conflicts ds) ∈ rs := by
  induction rs generalizing cs with
  | nil => cases h
  | cons r rs ih =>
      rw [all, map_eq_error_iff] at h
      rcases both_eq_conflicts h with ⟨ds, rfl⟩ | ⟨ds, hrest⟩
      · exact ⟨ds, List.mem_cons_self⟩
      · obtain ⟨es, hmem⟩ := ih hrest
        exact ⟨es, List.mem_cons_of_mem _ hmem⟩

end Unified

namespace Value

open Unified (Agree)

theorem agree_choose {p q : String} {a b : Value} {rs ss : List (Unified Value)}
    (h : List.Forall₂ Agree rs ss) : Agree (choose p a b rs) (choose q a b ss) := by
  have hwords : Except.error Clash.unprintable ∈ rs ↔ Except.error Clash.unprintable ∈ ss := by
    constructor
    · intro hmem
      obtain ⟨s, hs, hagree⟩ := exists_mem_left_of_forall₂ h.flip hmem
      exact hagree.eq_unprintable_iff.mp rfl ▸ hs
    · intro hmem
      obtain ⟨r, hr, hagree⟩ := exists_mem_left_of_forall₂ h hmem
      exact hagree.eq_unprintable_iff.mpr rfl ▸ hr
  have hsame : successes rs = successes ss := by
    clear hwords
    induction h with
    | nil => rfl
    | cons hr _ ih =>
        cases hr with
        | ok a => exact congrArg (a :: ·) ih
        | conflicts | unprintable => exact ih
  by_cases hunprintable : Except.error Clash.unprintable ∈ rs
  · rw [choose_of_unprintable hunprintable, choose_of_unprintable (hwords.mp hunprintable)]
    exact .unprintable
  · by_cases hnone : successes rs = []
    · rw [choose_of_none hunprintable hnone,
        choose_of_none (mt hwords.mpr hunprintable) (hsame ▸ hnone)]
      exact .of p q _
    · rw [choose_of_some hunprintable hnone,
        choose_of_some (mt hwords.mpr hunprintable) (hsame ▸ hnone), hsame]
      exact .ok _

theorem agree_pairResults {p q : String} {a b : Value}
    (h : ∀ x ∈ a.options, ∀ y ∈ b.options, Agree (unifyAt p x y) (unifyAt q x y)) :
    List.Forall₂ Agree (pairResults p a b) (pairResults q a b) := by
  have hleft : List.Forall₂ (fun x x' => x = x' ∧ x ∈ a.options) a.options a.options :=
    List.forall₂_same.mpr fun x hx => ⟨rfl, hx⟩
  have hright : List.Forall₂ (fun y y' => y = y' ∧ y ∈ b.options) b.options b.options :=
    List.forall₂_same.mpr fun y hy => ⟨rfl, hy⟩
  apply List.rel_flatMap hleft
  rintro x _ ⟨rfl, hx⟩
  apply List.rel_map _ hright
  rintro y _ ⟨rfl, hy⟩
  exact h x hx y hy

theorem agree_itemResults {p q : String} {index : Nat} {pairs : List (Value × Value)}
    (h : ∀ pair ∈ pairs, ∀ p q, Agree (unifyAt p pair.1 pair.2) (unifyAt q pair.1 pair.2)) :
    List.Forall₂ Agree (itemResults p index pairs) (itemResults q index pairs) := by
  induction pairs generalizing index with
  | nil => exact .nil
  | cons pair pairs ih =>
      rw [List.forall_mem_cons] at h
      rw [itemResults_cons, itemResults_cons]
      exact .cons (h.1 _ _) (ih h.2)

theorem agree_unifyFields {p q : String} {fields others : List (String × Value)}
    (h : ∀ f ∈ fields, ∀ g ∈ others, ∀ p q, Agree (unifyAt p f.2 g.2) (unifyAt q f.2 g.2)) :
    Agree (unifyFields p fields others) (unifyFields q fields others) := by
  induction fields with
  | nil =>
      rw [unifyFields, unifyFields]
      exact .ok []
  | cons field fields ih =>
      obtain ⟨label, x⟩ := field
      rw [List.forall_mem_cons] at h
      unfold unifyFields
      refine Agree.map _ (Agree.both ?_ (ih h.2))
      split
      · rename_i y hy
        exact h.1 _ (mem_of_lookup? hy) _ _
      · exact .ok x

theorem agree_listResult {p q : String} {r s : Unified (List Value)} {tail rest : Option Value}
    (h : Agree r s) (htails : ∀ x ∈ tail, ∀ y ∈ rest, ∀ p q, Agree (unifyAt p x y) (unifyAt q x y)) :
    Agree (listResult p r tail rest) (listResult q s tail rest) := by
  cases tail with
  | none => exact h.map _
  | some x =>
      cases rest with
      | none => exact h.map _
      | some y => exact (h.both (htails x rfl y rfl _ _)).map _

/-- The place shows in the conflicts only. -/
theorem agree_unifyAt (p q : String) (a b : Value) : Agree (unifyAt p a b) (unifyAt q a b) := by
  induction a, b using induct₂ generalizing p q with
  | topLeft b =>
      rw [unifyAt_top_left, unifyAt_top_left]
      exact .ok b
  | topRight a =>
      rw [unifyAt_top_right, unifyAt_top_right]
      exact .ok a
  | any a b ha hb hany ih =>
      rw [unifyAt_any p ha hb hany, unifyAt_any q ha hb hany]
      exact agree_choose (agree_pairResults fun x hx y hy => ih x hx y hy p q)
  | shapes a b s t hs ht hne =>
      rw [unifyAt_of_shape_ne p hs ht hne, unifyAt_of_shape_ne q hs ht hne]
      exact .of p q _
  | atoms a b =>
      rw [unifyAt_atom, unifyAt_atom]
      split
      · exact .ok _
      · exact .of p q _
  | atomConstraint a c =>
      rw [unifyAt_atom_constraint, unifyAt_atom_constraint, restrict, restrict]
      split
      · exact .ok _
      · exact .of p q _
  | constraintAtom c a =>
      rw [unifyAt_constraint_atom, unifyAt_constraint_atom, restrict, restrict]
      split
      · exact .ok _
      · exact .of p q _
  | constraints c d =>
      rw [unifyAt_constraint, unifyAt_constraint]
      split
      · exact .ok _
      · exact .of p q _
  | struct fields others ih =>
      rw [unifyAt_struct, unifyAt_struct]
      exact (agree_unifyFields fun f hf g hg p q => ih f hf g hg p q).map _
  | list items tail others rest ih =>
      cases hclash : lengthsClash items.length others.length tail.isSome rest.isSome with
      | true =>
          rw [unifyAt_list_of_clash hclash, unifyAt_list_of_clash hclash]
          exact .of p q _
      | false =>
          rw [unifyAt_list hclash, unifyAt_list hclash]
          refine agree_listResult (Agree.all (agree_itemResults fun pair hpair p q => ?_))
            fun x hx y hy p q => ih x (Or.inr hx) y (Or.inr hy) p q
          obtain ⟨i, hi⟩ := List.getElem?_of_mem hpair
          obtain ⟨_, hx, hy⟩ := itemAt?_of_mem_pairUp hclash hi
          exact ih _ (mem_of_itemAt? hx) _ (mem_of_itemAt? hy) p q

/-! ### Success and conflicts, wherever the values stand

From here on the place of the values is gone: results at any two places agree, so each equation is stated once,
at the place without a name. -/

/-- Unification finds conflicts, and words for all of them. -/
def Clashes (a b : Value) : Prop :=
  ∃ all, unify a b = .error (.conflicts all)

theorem unifyAt_eq_ok_iff {path : String} {a b r : Value} :
    unifyAt path a b = .ok r ↔ unify a b = .ok r :=
  (agree_unifyAt path "" a b).eq_ok_iff

theorem unifyAt_eq_conflicts_iff {path : String} {a b : Value} :
    (∃ all, unifyAt path a b = .error (.conflicts all)) ↔ Clashes a b :=
  (agree_unifyAt path "" a b).eq_conflicts_iff

theorem unify_top_left (b : Value) : unify .top b = .ok b :=
  unifyAt_top_left "" b

theorem unify_top_right (a : Value) : unify a .top = .ok a :=
  unifyAt_top_right "" a

theorem unify_atom_constraint (a : Atom) (c : Constraint) :
    unify (.atom a) (.constraint c) = restrict "" a c :=
  unifyAt_atom_constraint "" a c

theorem unify_constraint_atom (c : Constraint) (a : Atom) :
    unify (.constraint c) (.atom a) = restrict "" a c :=
  unifyAt_constraint_atom "" c a

theorem not_clashes_of_ok {a b r : Value} (h : unify a b = .ok r) : ¬ Clashes a b := by
  rintro ⟨all, hall⟩
  rw [h] at hall
  cases hall

/-- Two values that do not clash have a common value, or a conflict that cannot be put in words. -/
theorem exists_unify_of_not_clashes {a b : Value} (h : ¬ Clashes a b)
    (hwords : unify a b ≠ .error .unprintable) : ∃ r, unify a b = .ok r := by
  cases hunify : unify a b with
  | ok r => exact ⟨r, rfl⟩
  | error clash =>
      cases clash with
      | conflicts all => exact absurd ⟨all, hunify⟩ h
      | unprintable => exact absurd hunify hwords

section Alternatives

variable {a b : Value} (ha : a ≠ .top) (hb : b ≠ .top) (hany : a.isAny = true ∨ b.isAny = true)
include ha hb hany

theorem unify_any : unify a b = choose "" a b (pairResults "" a b) :=
  unifyAt_any "" ha hb hany

theorem clashes_options_of_any (h : Clashes a b) :
    ∀ x ∈ a.options, ∀ y ∈ b.options, Clashes x y := by
  obtain ⟨all, hall⟩ := h
  rw [unify_any ha hb hany] at hall
  have hwords : Except.error Clash.unprintable ∉ pairResults "" a b := by
    intro hmem
    rw [choose_of_unprintable hmem] at hall
    cases hall
  have hnone : successes (pairResults "" a b) = [] := by
    by_contra hsome
    rw [choose_of_some hwords hsome] at hall
    cases hall
  intro x hx y hy
  cases hunify : unify x y with
  | ok z =>
      have hz := mem_successes.mpr (mem_pairResults.mpr ⟨x, hx, y, hy, hunify⟩)
      rw [hnone] at hz
      cases hz
  | error clash =>
      cases clash with
      | conflicts all => exact ⟨all, hunify⟩
      | unprintable => exact absurd (mem_pairResults.mpr ⟨x, hx, y, hy, hunify⟩) hwords

/-- Data are admitted by the common value of alternatives if some pair of options has a common value
that admits them. -/
theorem admits_unify_any {r data : Value} (h : unify a b = .ok r) :
    r.Admits data ↔
      ∃ x ∈ a.options, ∃ y ∈ b.options, ∃ z, unify x y = .ok z ∧ z.Admits data := by
  rw [unify_any ha hb hany] at h
  obtain ⟨_, _, rfl⟩ := choose_eq_ok_iff.mp h
  rw [admits_ofOptions]
  constructor
  · rintro ⟨z, hz, hadmits⟩
    obtain ⟨x, hx, y, hy, hunify⟩ := mem_pairResults.mp (mem_successes.mp hz)
    exact ⟨x, hx, y, hy, z, hunify, hadmits⟩
  · rintro ⟨x, hx, y, hy, z, hunify, hadmits⟩
    exact ⟨z, mem_successes.mpr (mem_pairResults.mpr ⟨x, hx, y, hy, hunify⟩), hadmits⟩

end Alternatives

theorem options_of_isAny_eq_false {v : Value} (h : v.isAny = false) : v.options = [v] := by
  cases v <;> first | rfl | cases h

/-- Values clash only if all their options do. -/
theorem clashes_options {a b : Value} (h : Clashes a b) :
    ∀ x ∈ a.options, ∀ y ∈ b.options, Clashes x y := by
  by_cases ha : a = .top
  · exact absurd h (ha ▸ not_clashes_of_ok (unify_top_left b))
  by_cases hb : b = .top
  · exact absurd h (hb ▸ not_clashes_of_ok (unify_top_right a))
  by_cases hany : a.isAny = true ∨ b.isAny = true
  · exact clashes_options_of_any ha hb hany h
  · rw [not_or, Bool.not_eq_true, Bool.not_eq_true] at hany
    rw [options_of_isAny_eq_false hany.1, options_of_isAny_eq_false hany.2]
    intro x hx y hy
    obtain rfl := List.mem_singleton.mp hx
    obtain rfl := List.mem_singleton.mp hy
    exact h

section Structs

variable {fields others : List (String × Value)}

/-- What stands under a label, or nothing, in two values and in their common value. -/
inductive Joined : Option Value → Option Value → Option Value → Prop
  | neither : Joined none none none
  | left (x : Value) : Joined (some x) none (some x)
  | right (y : Value) : Joined none (some y) (some y)
  | both {x y z : Value} (h : unify x y = .ok z) : Joined (some x) (some y) (some z)

theorem lookup?_append (label : String) (fields others : List (String × Value)) :
    lookup? label (fields ++ others) = (lookup? label fields).or (lookup? label others) := by
  induction fields with
  | nil => rfl
  | cons f fields ih =>
      obtain ⟨l, x⟩ := f
      rw [List.cons_append, lookup?, lookup?]
      split
      · rfl
      · exact ih

theorem lookup?_newFields {label : String} (h : lookup? label fields = none) :
    lookup? label (newFields fields others) = lookup? label others := by
  induction others with
  | nil => rfl
  | cons g others ih =>
      obtain ⟨l, y⟩ := g
      rw [newFields] at ih ⊢
      rw [List.filter_cons]
      by_cases hl : l = label
      · subst hl
        simp [h, lookup?]
      · have hkeep : ∀ rest, lookup? label ((l, y) :: rest) = lookup? label rest := by
          simp [lookup?, hl]
        split
        · rw [hkeep, hkeep, ih]
        · rw [hkeep, ih]

theorem lookup?_newFields_eq_none {label : String} {x : Value} (h : lookup? label fields = some x) :
    lookup? label (newFields fields others) = none := by
  rw [lookup?_eq_none_iff]
  intro hmem
  obtain ⟨g, hg, rfl⟩ := List.mem_map.mp hmem
  have hnew := (List.mem_filter.mp hg).2
  rw [h] at hnew
  cases hnew

theorem joined_unifyFields {path : String} {merged : List (String × Value)}
    (h : List.Forall₂ (FieldMerged path others) fields merged) (label : String) :
    (lookup? label fields = none ∧ lookup? label merged = none) ∨
      Joined (lookup? label fields) (lookup? label others) (lookup? label merged) := by
  induction h with
  | nil => exact Or.inl ⟨rfl, rfl⟩
  | cons hfield _ ih =>
      rename_i f m fields merged _
      obtain ⟨l, x⟩ := f
      obtain ⟨l', z⟩ := m
      obtain ⟨rfl, hvalue⟩ := hfield
      rw [lookup?, lookup?]
      by_cases hl : l' = label
      · subst hl
        rw [if_pos (beq_self_eq_true l'), if_pos (beq_self_eq_true l')]
        rcases hvalue with ⟨y, hy, hunify⟩ | ⟨hnone, rfl⟩
        · exact Or.inr (hy ▸ .both (unifyAt_eq_ok_iff.mp hunify))
        · exact Or.inr (hnone ▸ .left _)
      · rw [if_neg (by simpa using hl), if_neg (by simpa using hl)]
        exact ih

/-- Under each label of a common struct stands what both structs have there together. -/
theorem unify_struct_eq_ok {r : Value} (h : unify (.struct fields) (.struct others) = .ok r) :
    ∃ merged, r = .struct merged ∧
      ∀ label, Joined (lookup? label fields) (lookup? label others) (lookup? label merged) := by
  rw [unify, unifyAt_struct] at h
  obtain ⟨merged, hmerged, rfl⟩ := map_eq_ok_iff.mp h
  refine ⟨_, rfl, fun label => ?_⟩
  rw [lookup?_append]
  rcases joined_unifyFields (unifyFields_eq_ok_iff.mp hmerged) label with ⟨hold, hnone⟩ | hjoined
  · rw [hnone, Option.none_or, lookup?_newFields hold, hold]
    cases lookup? label others with
    | none => exact .neither
    | some y => exact .right y
  · cases hfound : lookup? label fields with
    | none =>
        rw [hfound] at hjoined
        rw [lookup?_newFields hfound]
        generalize lookup? label others = new, lookup? label merged = old at hjoined ⊢
        cases hjoined with
        | neither => exact .neither
        | right y => exact .right y
    | some x => rwa [lookup?_newFields_eq_none hfound, Option.or_none, ← hfound]

/-- Structs clash only if values under a label of both do. -/
theorem clashes_struct (h : Clashes (.struct fields) (.struct others)) :
    ∃ f ∈ fields, ∃ y, lookup? f.1 others = some y ∧ Clashes f.2 y := by
  obtain ⟨all, hall⟩ := h
  rw [unify, unifyAt_struct, map_eq_error_iff] at hall
  generalize "" = path at hall
  induction fields generalizing all with
  | nil => rw [unifyFields] at hall; cases hall
  | cons field fields ih =>
      obtain ⟨label, x⟩ := field
      rw [unifyFields, map_eq_error_iff] at hall
      rcases Unified.both_eq_conflicts hall with ⟨cs, hcs⟩ | ⟨cs, hrest⟩
      · split at hcs
        · rename_i y hy
          exact ⟨_, List.mem_cons_self, y, hy, unifyAt_eq_conflicts_iff.mp ⟨cs, hcs⟩⟩
        · cases hcs
      · obtain ⟨f, hf, hclash⟩ := ih cs hrest
        exact ⟨f, List.mem_cons_of_mem _ hf, hclash⟩

end Structs

section Lists

variable {items others : List Value} {tail rest : Option Value}

theorem isSome_last_of_listResult {path : String} {all : Unified (List Value)}
    {merged : List Value} {last : Option Value}
    (h : listResult path all tail rest = .ok (.list merged last)) :
    last.isSome = (tail.isSome && rest.isSome) := by
  obtain ⟨merged', last', heq, _, hlast⟩ := listResult_eq_ok h
  obtain ⟨_, rfl⟩ := list.inj heq
  rcases hlast with ⟨x, y, m, rfl, rfl, rfl, _⟩ | ⟨rfl, rfl | rfl⟩ <;> simp

/-- At each index of a common list stands what both lists have there together. -/
theorem unify_list_eq_ok {r : Value} (h : unify (.list items tail) (.list others rest) = .ok r) :
    lengthsClash items.length others.length tail.isSome rest.isSome = false ∧
      ∃ merged last, r = .list merged last ∧
        merged.length = max items.length others.length ∧
        last.isSome = (tail.isSome && rest.isSome) ∧
        ∀ i m, itemAt? merged last i = some m →
          ∃ x y, itemAt? items tail i = some x ∧ itemAt? others rest i = some y ∧
            unify x y = .ok m := by
  obtain ⟨hclash, merged, last, rfl, hlength, hitem⟩ := unifyAt_list_eq_ok h
  refine ⟨hclash, merged, last, rfl, hlength, ?_, fun i m hm => ?_⟩
  · rw [unify, unifyAt_list hclash] at h
    exact isSome_last_of_listResult h
  · obtain ⟨q, x, y, hx, hy, hunify⟩ := hitem i m hm
    exact ⟨x, y, hx, hy, unifyAt_eq_ok_iff.mp hunify⟩

/-- Where two lists both have an item, or a tail for it, so does their common list. -/
theorem exists_itemAt? {merged : List Value} {last : Option Value}
    (hclash : lengthsClash items.length others.length tail.isSome rest.isSome = false)
    (hlength : merged.length = max items.length others.length)
    (hlast : last.isSome = (tail.isSome && rest.isSome)) {i : Nat} {x y : Value}
    (hx : itemAt? items tail i = some x) (hy : itemAt? others rest i = some y) :
    ∃ m, itemAt? merged last i = some m := by
  by_cases hi : i < merged.length
  · exact ⟨merged[i], by simp [itemAt?, hi]⟩
  · have hitems : items.length ≤ i := by omega
    have hothers : others.length ≤ i := by omega
    rw [itemAt?, List.getElem?_eq_none hitems, Option.none_or] at hx
    rw [itemAt?, List.getElem?_eq_none hothers, Option.none_or] at hy
    subst hx hy
    obtain ⟨m, rfl⟩ := Option.isSome_iff_exists.mp hlast
    exact ⟨m, by simp [itemAt?, List.getElem?_eq_none (not_lt.mp hi)]⟩

theorem lengthsClash_comm (left right : Nat) (leftOpen rightOpen : Bool) :
    lengthsClash left right leftOpen rightOpen = lengthsClash right left rightOpen leftOpen := by
  rw [lengthsClash, lengthsClash, Bool.or_comm]

/-- Lists clash only by their lengths, at an index up to the longer one's length, or by their
tails. -/
theorem clashes_list (h : Clashes (.list items tail) (.list others rest)) :
    lengthsClash items.length others.length tail.isSome rest.isSome = true ∨
      (∃ i x y, i < max items.length others.length ∧ itemAt? items tail i = some x ∧
        itemAt? others rest i = some y ∧ Clashes x y) ∨
      ∃ x y, tail = some x ∧ rest = some y ∧ Clashes x y := by
  cases hclash : lengthsClash items.length others.length tail.isSome rest.isSome with
  | true => exact Or.inl rfl
  | false =>
      right
      obtain ⟨cs, hall⟩ := h
      rw [unify, unifyAt_list hclash] at hall
      have hitems : ∀ cs, Unified.all (itemResults "" 0 (pairUp tail rest items others)) =
          .error (.conflicts cs) → ∃ i x y, i < max items.length others.length ∧
            itemAt? items tail i = some x ∧ itemAt? others rest i = some y ∧ Clashes x y := by
        intro cs hcs
        obtain ⟨ds, hmem⟩ := Unified.all_eq_conflicts hcs
        obtain ⟨i, hi⟩ := List.getElem?_of_mem hmem
        rw [getElem?_itemResults] at hi
        obtain ⟨⟨x, y⟩, hpair, hunify⟩ := Option.map_eq_some_iff.mp hi
        obtain ⟨hlt, hx, hy⟩ := itemAt?_of_mem_pairUp hclash hpair
        exact ⟨i, x, y, hlt, hx, hy, unifyAt_eq_conflicts_iff.mp ⟨ds, hunify⟩⟩
      cases tail with
      | none => exact Or.inl (hitems cs (map_eq_error_iff.mp hall))
      | some x =>
          cases rest with
          | none => exact Or.inl (hitems cs (map_eq_error_iff.mp hall))
          | some y =>
              rcases Unified.both_eq_conflicts (map_eq_error_iff.mp hall) with ⟨ds, hds⟩ | ⟨ds, hds⟩
              · exact Or.inl (hitems ds hds)
              · exact Or.inr ⟨x, y, rfl, rfl, unifyAt_eq_conflicts_iff.mp ⟨ds, hds⟩⟩

end Lists

end Value

end ApiProbe
