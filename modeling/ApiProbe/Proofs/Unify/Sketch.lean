import ApiProbe.Proofs.Unify.Symmetry
import ApiProbe.Proofs.Value.Concrete

/-!
# Sketches of data

A sketch is data in which a scalar may be left open, as a constraint of which only the kind counts.
Constraints are unified without asking whether an atom satisfies all of their bounds, so data cannot
tell whether values have a common value; sketches can, as every well-formed value allows one. Plain
data are sketches as well, and a value allows them where it admits them.
-/

namespace ApiProbe

namespace Constraint

/-- A scalar of the kind may be left open under the constraint: it lies in the constraint's kind, and
no bound is ruled out by it. -/
def Covers (c : Constraint) (kind : Option Kind) : Prop :=
  (∀ k ∈ c.kind, ∃ l ∈ kind, meetKinds k l = some l) ∧
    ∀ bound ∈ c.bounds, ∀ l ∈ kind, agrees l bound = true

theorem covers_self {c : Constraint} (h : c.WellFormed) : c.Covers c.kind :=
  ⟨fun k hk => ⟨k, hk, meetKinds_self k⟩,
    fun bound hbound k hk => Kind.agrees_of_suits (h.suits k hk bound hbound)⟩

theorem Covers.of_same {c d : Constraint} (hsame : c.same d = true) {kind : Option Kind}
    (h : c.Covers kind) : d.Covers kind := by
  rw [same_iff] at hsame
  refine ⟨fun k hk => h.1 k (hsame.1 ▸ hk), fun bound hbound l hl => ?_⟩
  obtain ⟨other, hother, hbounds⟩ := exists_mem_left_of_forall₂ hsame.2 hbound
  exact agrees_congr hbounds ▸ h.2 other hother l hl

/-- The kind of an atom; `null` has none. -/
def kindOf? : Atom → Option Kind
  | .null => none
  | .bool _ => some .bool
  | .int _ => some .int
  | .float _ => some .float
  | .string _ => some .string

/-- A constraint that an atom satisfies covers the atom's kind. -/
theorem covers_of_holds {c : Constraint} {a : Atom} (h : c.Holds a) : c.Covers (kindOf? a) := by
  constructor
  · intro k hk
    have haccepts := Kind.check_eq_none_iff.mp (h.1 k hk)
    cases k <;> cases a <;> simp_all [Kind.accepts, Atom.kind, kindOf?, meetKinds]
  · intro bound hbound l hl
    have hcheck := h.2 bound hbound
    cases bound with
    | order o limit =>
        have hcomparable : a.comparable limit = true := by
          by_contra hnot
          rw [Bool.not_eq_true] at hnot
          simp [Bound.check, hnot] at hcheck
        cases a <;> cases limit <;>
          simp_all [Atom.comparable, Atom.isNumber, Atom.kind, kindOf?] <;>
          subst hl <;> rfl
    | ne limit => rfl
    | pattern wanted source =>
        cases a <;> simp_all [Bound.check, kindOf?]
        subst hl
        rfl

/-- What two kinds include, their meet includes. -/
theorem meetKinds_of_common {k l m : Kind} (hk : k.Includes m) (hl : l.Includes m) :
    ∃ n, meetKinds k l = some n ∧ n.Includes m := by
  cases hk with
  | self => exact ⟨k, meetKinds_eq_some_iff.mpr ⟨.self, hl, Or.inl rfl⟩, .self⟩
  | int =>
      cases hl with
      | self => exact ⟨.int, rfl, .self⟩
      | int => exact ⟨.number, rfl, .int⟩
  | float =>
      cases hl with
      | self => exact ⟨.float, rfl, .self⟩
      | float => exact ⟨.number, rfl, .float⟩

theorem mergeKinds_covers {k l merged kind : Option Kind} (h : mergeKinds k l = .ok merged) :
    (∀ n ∈ merged, ∃ m ∈ kind, meetKinds n m = some m) ↔
      (∀ n ∈ k, ∃ m ∈ kind, meetKinds n m = some m) ∧
        ∀ n ∈ l, ∃ m ∈ kind, meetKinds n m = some m := by
  cases k with
  | none =>
      obtain rfl : l = merged := Except.ok.inj h
      simp
  | some k =>
      cases l with
      | none =>
          obtain rfl : some k = merged := Except.ok.inj h
          simp
      | some l =>
          simp only [mergeKinds] at h
          split at h
          · rename_i n hmeet
            obtain rfl : some n = merged := Except.ok.inj h
            simp only [Option.mem_def, Option.some.injEq, forall_eq']
            constructor
            · rintro ⟨m, hm, hn⟩
              obtain ⟨hkn, hln, -⟩ := meetKinds_eq_some_iff.mp hmeet
              have hnm : n.Includes m := includes_iff.mpr hn
              exact ⟨⟨m, hm, includes_iff.mp (hkn.trans hnm)⟩, m, hm, includes_iff.mp (hln.trans hnm)⟩
            · rintro ⟨⟨m, hm, hk⟩, m', hm', hl⟩
              obtain rfl : m = m' := Option.some.inj (hm.symm.trans hm')
              obtain ⟨n', hn', hnm⟩ := meetKinds_of_common (includes_iff.mpr hk) (includes_iff.mpr hl)
              obtain rfl := Option.some.inj (hmeet.symm.trans hn')
              exact ⟨m, hm, includes_iff.mp hnm⟩
          · cases h

/-- The merger covers what both constraints cover. -/
theorem covers_merge {c d merged : Constraint} (h : c.merge d = .ok merged) (kind : Option Kind) :
    merged.Covers kind ↔ c.Covers kind ∧ d.Covers kind := by
  obtain ⟨hkind, hbounds, _⟩ := merge_eq_ok_iff.mp h
  have hbound : (∀ bound ∈ merged.bounds, ∀ l ∈ kind, agrees l bound = true) ↔
      (∀ bound ∈ c.bounds, ∀ l ∈ kind, agrees l bound = true) ∧
        ∀ bound ∈ d.bounds, ∀ l ∈ kind, agrees l bound = true := by
    rw [← List.forall_mem_append, hbounds]
    constructor
    · intro hall bound hmem l hl
      obtain ⟨kept, hkept, heq⟩ : ∃ kept ∈ distinctBy Bound.same [] (c.bounds ++ d.bounds),
          kept = bound ∨ bound.same kept = true := exists_mem_distinctBy hmem
      rcases heq with rfl | hsame
      · exact hall kept hkept l hl
      · exact agrees_congr hsame ▸ hall kept hkept l hl
    · intro hall bound hmem
      apply hall bound
      simpa using mem_of_mem_distinctBy hmem
  rw [Covers, Covers, Covers, mergeKinds_covers hkind, hbound]
  tauto

/-- Constraints that cover a common kind can be merged. -/
theorem exists_merge_of_covers {c d : Constraint} {kind : Option Kind} (hc : c.Covers kind)
    (hd : d.Covers kind) : ∃ merged, c.merge d = .ok merged := by
  obtain ⟨merged, hmerged⟩ : ∃ merged, mergeKinds c.kind d.kind = .ok merged := by
    cases hck : c.kind with
    | none => exact ⟨_, rfl⟩
    | some k =>
        cases hdk : d.kind with
        | none => exact ⟨_, rfl⟩
        | some l =>
            obtain ⟨m, hm, hkm⟩ := hc.1 k hck
            obtain ⟨m', hm', hlm⟩ := hd.1 l hdk
            obtain rfl := Option.some.inj (hm.symm.trans hm')
            obtain ⟨n, hn, _⟩ := meetKinds_of_common (includes_iff.mpr hkm) (includes_iff.mpr hlm)
            exact ⟨some n, by simp [mergeKinds, hn]⟩
  refine ⟨⟨merged, _⟩, merge_eq_ok_iff.mpr ⟨hmerged, rfl, fun n hn bound hbound => ?_⟩⟩
  obtain ⟨m, hm, hnm⟩ := (mergeKinds_covers hmerged).mpr ⟨hc.1, hd.1⟩ n hn
  rcases mem_of_mem_distinctBy hbound with hkept | hmem
  · cases hkept
  · refine ((includes_iff.mpr hnm).agrees_eq bound).trans ?_
    exact (List.mem_append.mp hmem).elim (hc.2 bound · m hm) (hd.2 bound · m hm)

end Constraint

namespace Value

/-! ### Values and sketches

A value allows a sketch as it admits data, but for open scalars, of which only the kind is compared with a
constraint. -/

/-- The value allows the sketch. -/
inductive Allows : Value → Value → Prop
  | top {sketch : Value} : Allows .top sketch
  | atom {a b : Atom} (h : a.same b = true) : Allows (.atom a) (.atom b)
  | constraint {c : Constraint} {a : Atom} (h : c.Holds a) : Allows (.constraint c) (.atom a)
  | scalar {c d : Constraint} (h : c.Covers d.kind) : Allows (.constraint c) (.constraint d)
  | any {options : List Value} {option sketch : Value} (hmem : option ∈ options)
      (h : Allows option sketch) : Allows (.any options) sketch
  | struct {fields entries : List (String × Value)}
      (hlabels : ∀ label, (lookup? label fields).isSome → (lookup? label entries).isSome)
      (h : ∀ label x d, lookup? label fields = some x → lookup? label entries = some d →
        Allows x d) : Allows (.struct fields) (.struct entries)
  | list {items : List Value} {tail : Option Value} {elements : List Value}
      (hlength : items.length ≤ elements.length)
      (hindices : ∀ i < elements.length, (itemAt? items tail i).isSome)
      (h : ∀ (i : Nat) x d, itemAt? items tail i = some x → elements[i]? = some d → Allows x d) :
      Allows (.list items tail) (.list elements none)

theorem allows_any {options : List Value} {sketch : Value} :
    (Value.any options).Allows sketch ↔ ∃ option ∈ options, option.Allows sketch := by
  constructor
  · rintro ⟨⟩
    exact ⟨_, ‹_›, ‹_›⟩
  · rintro ⟨option, hmem, h⟩
    exact .any hmem h

theorem allows_options {v sketch : Value} :
    v.Allows sketch ↔ ∃ x ∈ v.options, x.Allows sketch := by
  cases v with
  | any xs => exact allows_any
  | _ => simp [options]

theorem allows_struct {fields : List (String × Value)} {sketch : Value} :
    (Value.struct fields).Allows sketch ↔
      ∃ entries, sketch = .struct entries ∧ ∀ label x, lookup? label fields = some x →
        ∃ d, lookup? label entries = some d ∧ x.Allows d := by
  constructor
  · intro hallows
    cases hallows with
    | struct hlabels h =>
        refine ⟨_, rfl, fun label x hx => ?_⟩
        obtain ⟨d, hd⟩ := Option.isSome_iff_exists.mp (hlabels label (hx ▸ rfl))
        exact ⟨d, hd, h label x d hx hd⟩
  · rintro ⟨entries, rfl, h⟩
    refine .struct (fun label hlabel => ?_) (fun label x d hx hd => ?_)
    · obtain ⟨x, hx⟩ := Option.isSome_iff_exists.mp hlabel
      obtain ⟨d, hd, _⟩ := h label x hx
      rw [hd, Option.isSome_some]
    · obtain ⟨d', hd', hallows⟩ := h label x hx
      exact Option.some.inj (hd'.symm.trans hd) ▸ hallows

theorem allows_list {items : List Value} {tail : Option Value} {sketch : Value} :
    (Value.list items tail).Allows sketch ↔
      ∃ elements, sketch = .list elements none ∧ items.length ≤ elements.length ∧
        ∀ i d, elements[i]? = some d → ∃ x, itemAt? items tail i = some x ∧ x.Allows d := by
  constructor
  · intro hallows
    cases hallows with
    | list hlength hindices h =>
        refine ⟨_, rfl, hlength, fun i d hd => ?_⟩
        have hi := (List.getElem?_eq_some_iff.mp hd).1
        obtain ⟨x, hx⟩ := Option.isSome_iff_exists.mp (hindices i hi)
        exact ⟨x, hx, h i x d hx hd⟩
  · rintro ⟨elements, rfl, hlength, h⟩
    refine .list hlength (fun i hi => ?_) (fun i x d hx hd => ?_)
    · obtain ⟨x, hx, _⟩ := h i _ (List.getElem?_eq_getElem hi)
      rw [hx, Option.isSome_some]
    · obtain ⟨x', hx', hallows⟩ := h i d hd
      exact Option.some.inj (hx'.symm.trans hx) ▸ hallows

theorem shape?_eq_of_allows {v sketch : Value} {s : Shape} (hs : v.shape? = some s)
    (h : v.Allows sketch) : sketch.shape? = some s := by
  cases h <;> simp_all [shape?]

theorem lookup?_rel {R : Value → Value → Prop} {fields others : List (String × Value)}
    (h : List.Forall₂ (fun f g => f.1 = g.1 ∧ R f.2 g.2) fields others) (label : String) :
    Option.Rel R (lookup? label fields) (lookup? label others) := by
  induction h with
  | nil => exact .none
  | cons hfg _ ih =>
      rename_i f g _ _ _
      obtain ⟨l, x⟩ := f
      obtain ⟨m, y⟩ := g
      obtain ⟨rfl, hxy⟩ := hfg
      rw [lookup?, lookup?]
      split
      · exact .some hxy
      · exact ih

/-- Values that are the same allow the same sketches. -/
theorem Allows.of_same {v w sketch : Value} (hsame : v.same w = true) (h : v.Allows sketch) :
    w.Allows sketch := by
  induction v generalizing w sketch with
  | top =>
      cases w <;> simp only [same, Bool.false_eq_true] at hsame
      exact .top
  | atom a =>
      cases w <;> simp only [same, Bool.false_eq_true] at hsame
      cases h with
      | atom h => exact .atom (Atom.same_trans (Atom.same_symm hsame) h)
  | constraint c =>
      cases w <;> simp only [same, Bool.false_eq_true] at hsame
      cases h with
      | constraint h => exact .constraint (h.of_same hsame)
      | scalar h => exact .scalar (h.of_same hsame)
  | any xs ih =>
      cases w <;> simp only [same, Bool.false_eq_true] at hsame
      obtain ⟨x, hx, hallows⟩ := allows_any.mp h
      obtain ⟨y, hy, hxy⟩ := exists_mem_left_of_forall₂ (sameAll_iff.mp hsame).flip hx
      exact .any hy (ih x hx hxy hallows)
  | struct fields ih =>
      cases w <;> simp only [same, Bool.false_eq_true] at hsame
      obtain ⟨entries, rfl, hfields⟩ := allows_struct.mp h
      refine allows_struct.mpr ⟨entries, rfl, fun label y hy => ?_⟩
      have hrel := lookup?_rel (R := fun x y => x.same y = true) (sameFields_iff.mp hsame) label
      generalize hx : lookup? label fields = old at hrel
      rw [hy] at hrel
      cases hrel with
      | some hxy =>
          obtain ⟨d, hd, hallows⟩ := hfields label _ hx
          exact ⟨d, hd, ih _ (mem_of_lookup? hx) hxy hallows⟩
  | list items tail hitems htail =>
      cases w <;> simp only [same, Bool.false_eq_true, Bool.and_eq_true] at hsame
      have hall := sameAll_iff.mp hsame.1
      obtain ⟨elements, rfl, hlength, h⟩ := allows_list.mp h
      refine allows_list.mpr ⟨elements, rfl, hall.length_eq ▸ hlength, fun i d hd => ?_⟩
      obtain ⟨x, hx, hallows⟩ := h i d hd
      have hrel := itemAt?_rel hall (sameTail_iff.mp hsame.2) i
      rw [hx] at hrel
      generalize itemAt? _ _ i = new at hrel ⊢
      cases hrel with
      | some hxy =>
          refine ⟨_, rfl, ?_⟩
          rcases mem_of_itemAt? hx with hmem | hmem
          · exact hitems x hmem hxy hallows
          · exact htail x hmem hxy hallows

theorem allows_ofOptions {xs : List Value} {sketch : Value} :
    (ofOptions xs).Allows sketch ↔ ∃ x ∈ xs, x.Allows sketch := by
  have hdistinct : (∃ y ∈ distinct xs, y.Allows sketch) ↔ ∃ x ∈ xs, x.Allows sketch := by
    constructor
    · rintro ⟨y, hy, hallows⟩
      exact ⟨y, mem_distinct hy, hallows⟩
    · rintro ⟨x, hx, hallows⟩
      obtain ⟨y, hy, rfl | hsame⟩ := exists_mem_distinct hx
      · exact ⟨y, hy, hallows⟩
      · exact ⟨y, hy, hallows.of_same hsame⟩
  rw [← hdistinct]
  rcases ofOptions_cases xs with ⟨x, hone, hoptions⟩ | ⟨_, hoptions⟩
  · rw [hoptions, hone]
    simp
  · rw [hoptions, allows_any]

instance : Nonempty Value :=
  ⟨.top⟩

/-- Every well-formed value allows a sketch. -/
theorem exists_allows {v : Value} (h : v.WellFormed) : ∃ sketch, v.Allows sketch := by
  induction v with
  | top => exact ⟨.top, .top⟩
  | atom a => exact ⟨_, .atom (Atom.same_self (wellFormed_atom.mp h))⟩
  | constraint c => exact ⟨_, .scalar (Constraint.covers_self (wellFormed_constraint.mp h))⟩
  | any xs ih =>
      obtain ⟨x, hx⟩ := List.exists_mem_of_ne_nil _ h.options_ne_nil
      obtain ⟨sketch, hsketch⟩ := ih x hx (h.options x hx)
      exact ⟨sketch, .any hx hsketch⟩
  | struct fields ih =>
      rw [wellFormed_struct] at h
      choose! sketch hsketch using fun f hf => ih f hf (h.2 f hf)
      have hparts : List.Forall₂ (fun f g => f.1 = g.1 ∧ f.2.Allows g.2) fields
          (fields.map fun f => (f.1, sketch f)) := by
        rw [List.forall₂_map_right_iff, List.forall₂_same]
        exact fun f hf => ⟨rfl, hsketch f hf⟩
      refine ⟨.struct (fields.map fun f => (f.1, sketch f)), allows_struct.mpr ⟨_, rfl, ?_⟩⟩
      intro label x hx
      have hrel := lookup?_rel hparts label
      rw [hx] at hrel
      cases hd : lookup? label (fields.map fun f => (f.1, sketch f)) with
      | none => rw [hd] at hrel; cases hrel
      | some d => rw [hd] at hrel; cases hrel with | some hallows => exact ⟨d, rfl, hallows⟩
  | list items tail ih =>
      rw [wellFormed_list] at h
      choose! sketch hsketch using fun x hx => ih x hx (h.1 x hx)
      refine ⟨.list (items.map sketch) none, allows_list.mpr ⟨_, rfl, by simp, ?_⟩⟩
      intro i d hd
      rw [List.getElem?_map, Option.map_eq_some_iff] at hd
      obtain ⟨x, hx, rfl⟩ := hd
      exact ⟨x, by rw [itemAt?, hx, Option.some_or], hsketch x (List.mem_of_getElem? hx)⟩

/-- Plain data are sketches that just the values allow that admit them. -/
theorem allows_iff_admits {v data : Value} (hv : v.WellFormed) (hdata : data.concrete = true) :
    v.Allows data ↔ v.Admits data := by
  induction v generalizing data with
  | top => exact ⟨fun _ => .top, fun _ => .top⟩
  | atom a =>
      constructor
      · rintro ⟨⟩
        exact .atom ‹_›
      · rintro ⟨⟩
        exact .atom ‹_›
  | constraint c =>
      constructor
      · intro h
        cases h with
        | constraint h => exact .constraint h
        | scalar h => simp [concrete] at hdata
      · rintro ⟨⟩
        exact .constraint ‹_›
  | any xs ih =>
      rw [allows_any, admits_any]
      exact exists_congr fun x => and_congr_right fun hx => ih x hx (hv.options x hx) hdata
  | struct fields ih =>
      rw [wellFormed_struct] at hv
      rw [allows_struct, admits_struct_lookup? hv.1]
      refine exists_congr fun entries => and_congr_right ?_
      rintro rfl
      rw [concrete_struct] at hdata
      refine forall_congr' fun label => forall_congr' fun x => imp_congr_right fun hx => ?_
      refine exists_congr fun d => and_congr_right fun hd => ?_
      have hmem := mem_of_lookup? hx
      exact ih _ hmem (hv.2 _ hmem) (hdata _ (mem_of_lookup? hd))
  | list items tail hitems htail =>
      rw [wellFormed_list] at hv
      rw [allows_list, admits_list]
      refine exists_congr fun elements => and_congr_right ?_
      rintro rfl
      obtain ⟨_, hdata⟩ := concrete_list.mp hdata
      refine and_congr_right fun _ => forall_congr' fun i => forall_congr' fun d => ?_
      refine imp_congr_right fun hd => exists_congr fun x => and_congr_right fun hx => ?_
      have hconcrete := hdata d (List.mem_of_getElem? hd)
      rcases mem_of_itemAt? hx with hmem | hmem
      · exact hitems x hmem (hv.1 x hmem) hconcrete
      · exact htail x hmem (hv.2 x hmem) hconcrete

end Value

end ApiProbe
