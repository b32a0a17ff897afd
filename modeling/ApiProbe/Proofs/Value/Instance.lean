import ApiProbe.Proofs.Value.Sameness
import ApiProbe.Value.Check

/-!
# Instances

What data a value admits: anything, an equal atom, an atom that passes every part of a constraint, an
instance of some option, a struct that has every field and perhaps more, a list that has every item
and whose further items are instances of the tail. Values that are the same admit the same data.
-/

namespace ApiProbe

theorem Kind.check_eq_none_iff {kind : Kind} {a : Atom} :
    kind.check a = none ↔ kind.accepts a.kind = true := by
  unfold check
  split <;> simp [*]

namespace Bound

/-- Whether an atom passes a bound depends on its kind and its value only. -/
theorem check_congr {a b : Atom} (h : a.same b = true) (bound : Bound) :
    bound.check a = none ↔ bound.check b = none := by
  cases bound with
  | order o limit =>
      have hcomparable : a.comparable limit = b.comparable limit := by
        simp only [Atom.comparable, Atom.kind_eq_of_same h, Atom.isNumber_eq_of_same h]
      have hholds : o.holds a limit = o.holds b limit := by
        simp only [Order.holds, Atom.compare?_congr_left h]
      simp only [check, hcomparable, hholds]
      split
      · simp
      · split <;> simp
  | ne limit =>
      simp only [check, Atom.same_congr_left h limit]
      split <;> simp
  | pattern wanted source =>
      rcases Atom.same_iff.mp h with ⟨rfl, _⟩ | ⟨x, y, m, rfl, rfl, _, _⟩
      · rfl
      · simp [check]

theorem check_congr_bound {b c : Bound} (h : b.same c = true) (a : Atom) :
    b.check a = none ↔ c.check a = none := by
  cases b with
  | order o limit =>
      cases c <;> simp only [same, Bool.and_eq_true, beq_iff_eq, Bool.false_eq_true] at h
      rename_i p other
      obtain ⟨rfl, h⟩ := h
      have hcomparable : a.comparable limit = a.comparable other := by
        simp only [Atom.comparable, Atom.kind_eq_of_same h, Atom.isNumber_eq_of_same h]
      have hholds : o.holds a limit = o.holds a other := by
        simp only [Order.holds, Atom.compare?_congr_right h]
      simp only [check, hcomparable, hholds]
      split
      · simp
      · split <;> simp
  | ne limit =>
      cases c <;> simp only [same, Bool.false_eq_true] at h
      rename_i other
      have hsame : a.same limit = a.same other := Atom.same_congr_right h a
      simp only [check, hsame]
      split <;> simp
  | pattern wanted source =>
      cases c <;> simp only [same, Bool.and_eq_true, beq_iff_eq, Bool.false_eq_true] at h
      obtain ⟨rfl, rfl⟩ := h
      rfl

end Bound

namespace Constraint

/-- The atom passes every part of the constraint, taken on its own. -/
def Holds (c : Constraint) (a : Atom) : Prop :=
  (∀ kind ∈ c.kind, kind.check a = none) ∧ ∀ bound ∈ c.bounds, bound.check a = none

theorem check_eq_none_iff {c : Constraint} {a : Atom} : c.check a = none ↔ c.Holds a := by
  rw [check, Option.or_eq_none_iff, Option.bind_eq_none_iff, List.findSome?_eq_none_iff]
  rfl

theorem holds_congr {a b : Atom} (h : a.same b = true) {c : Constraint} (ha : c.Holds a) :
    c.Holds b := by
  refine ⟨fun kind hkind => ?_, fun bound hbound => ?_⟩
  · have hcheck := ha.1 kind hkind
    rw [Kind.check_eq_none_iff] at hcheck ⊢
    rwa [← Atom.kind_eq_of_same h]
  · exact (Bound.check_congr h bound).mp (ha.2 bound hbound)

theorem Holds.of_same {c d : Constraint} (h : c.same d = true) {a : Atom} (ha : c.Holds a) :
    d.Holds a := by
  rw [same_iff] at h
  refine ⟨fun kind hkind => ha.1 kind (h.1 ▸ hkind), fun bound hbound => ?_⟩
  obtain ⟨other, hother, hsame⟩ := exists_mem_left_of_forall₂ h.2 hbound
  exact (Bound.check_congr_bound hsame a).mp (ha.2 other hother)

end Constraint

namespace Value

/-- The value admits the data. -/
inductive Admits : Value → Value → Prop
  | top {data : Value} : Admits .top data
  | atom {a b : Atom} (h : a.same b = true) : Admits (.atom a) (.atom b)
  | constraint {c : Constraint} {a : Atom} (h : c.Holds a) : Admits (.constraint c) (.atom a)
  | any {options : List Value} {option data : Value} (hmem : option ∈ options)
      (h : Admits option data) : Admits (.any options) data
  | struct {fields entries : List (String × Value)}
      (hlabels : ∀ f ∈ fields, (lookup? f.1 entries).isSome)
      (h : ∀ f ∈ fields, ∀ data, lookup? f.1 entries = some data → Admits f.2 data) :
      Admits (.struct fields) (.struct entries)
  | list {items : List Value} {tail : Option Value} {elements : List Value}
      (hlength : items.length ≤ elements.length)
      (hclosed : tail = none → elements.length = items.length)
      (hitems : ∀ (i : Nat) (item data : Value), items[i]? = some item →
        elements[i]? = some data → Admits item data)
      (htail : ∀ rest ∈ tail, ∀ data ∈ elements.drop items.length, Admits rest data) :
      Admits (.list items tail) (.list elements none)

@[simp]
theorem admits_top (data : Value) : Admits .top data :=
  .top

@[simp]
theorem admits_atom {a b : Atom} : (Value.atom a).Admits (.atom b) ↔ a.same b = true :=
  ⟨fun | .atom h => h, .atom⟩

@[simp]
theorem admits_constraint {c : Constraint} {a : Atom} :
    (Value.constraint c).Admits (.atom a) ↔ c.Holds a :=
  ⟨fun | .constraint h => h, .constraint⟩

theorem admits_any {options : List Value} {data : Value} :
    (Value.any options).Admits data ↔ ∃ option ∈ options, option.Admits data := by
  constructor
  · rintro ⟨⟩
    exact ⟨_, ‹_›, ‹_›⟩
  · rintro ⟨option, hmem, h⟩
    exact .any hmem h

theorem admits_options {v data : Value} : v.Admits data ↔ ∃ x ∈ v.options, x.Admits data := by
  cases v with
  | any xs => exact admits_any
  | _ => simp [options]

theorem admits_struct {fields : List (String × Value)} {data : Value} :
    (Value.struct fields).Admits data ↔
      ∃ entries, data = .struct entries ∧
        ∀ f ∈ fields, ∃ x, lookup? f.1 entries = some x ∧ f.2.Admits x := by
  constructor
  · intro hadmits
    cases hadmits with
    | struct hlabels h =>
        refine ⟨_, rfl, fun f hf => ?_⟩
        obtain ⟨x, hx⟩ := Option.isSome_iff_exists.mp (hlabels f hf)
        exact ⟨x, hx, h f hf x hx⟩
  · rintro ⟨entries, rfl, h⟩
    refine .struct (fun f hf => ?_) (fun f hf data hdata => ?_)
    · obtain ⟨x, hx, _⟩ := h f hf
      rw [hx, Option.isSome_some]
    · obtain ⟨x, hx, hadmits⟩ := h f hf
      rw [hx, Option.some.injEq] at hdata
      exact hdata ▸ hadmits

/-- What a list asks of the element at an index: its item there, or its tail behind the last one. -/
def itemAt? (items : List Value) (tail : Option Value) (i : Nat) : Option Value :=
  items[i]?.or tail

theorem mem_of_itemAt? {items : List Value} {tail : Option Value} {i : Nat} {x : Value}
    (h : itemAt? items tail i = some x) : x ∈ items ∨ x ∈ tail := by
  rcases Option.or_eq_some_iff.mp h with hitem | ⟨_, htail⟩
  · exact Or.inl (List.mem_of_getElem? hitem)
  · exact Or.inr htail

theorem itemAt?_rel {R : Value → Value → Prop} {xs ys : List Value} {t u : Option Value}
    (h : List.Forall₂ R xs ys) (htail : Option.Rel R t u) (i : Nat) :
    Option.Rel R (itemAt? xs t i) (itemAt? ys u i) := by
  induction h generalizing i with
  | nil => exact htail
  | cons hxy _ ih =>
      cases i with
      | zero => exact .some hxy
      | succ i => exact ih i

theorem admits_list {items : List Value} {tail : Option Value} {data : Value} :
    (Value.list items tail).Admits data ↔
      ∃ elements, data = .list elements none ∧ items.length ≤ elements.length ∧
        ∀ i x, elements[i]? = some x → ∃ item, itemAt? items tail i = some item ∧ item.Admits x := by
  constructor
  · intro hadmits
    cases hadmits with
    | list hlength hclosed hitems htail =>
        refine ⟨_, rfl, hlength, fun i x hx => ?_⟩
        by_cases hi : i < items.length
        · exact ⟨items[i], by simp [itemAt?, hi], hitems i _ x (List.getElem?_eq_getElem hi) hx⟩
        · have hopen : tail ≠ none := by
            intro hnone
            have := hclosed hnone
            have := (List.getElem?_eq_some_iff.mp hx).1
            omega
          obtain ⟨rest, rfl⟩ := Option.ne_none_iff_exists'.mp hopen
          refine ⟨rest, by simp [itemAt?, hi], htail rest rfl x ?_⟩
          apply List.mem_of_getElem? (i := i - items.length)
          rwa [List.getElem?_drop, Nat.add_sub_cancel' (not_lt.mp hi)]
  · rintro ⟨elements, rfl, hlength, h⟩
    refine .list hlength (fun hnone => ?_) (fun i item x hitem hx => ?_) (fun rest hrest x hx => ?_)
    · by_contra hne
      have hi : items.length < elements.length := by omega
      obtain ⟨item, hitem, _⟩ := h items.length _ (List.getElem?_eq_getElem hi)
      simp [itemAt?, hnone] at hitem
    · obtain ⟨item', hitem', hadmits⟩ := h i x hx
      rw [itemAt?, hitem, Option.some_or, Option.some.injEq] at hitem'
      exact hitem' ▸ hadmits
    · obtain ⟨i, hi⟩ := List.getElem?_of_mem hx
      rw [List.getElem?_drop] at hi
      obtain ⟨item, hitem, hadmits⟩ := h _ x hi
      simp only [itemAt?, List.getElem?_eq_none (Nat.le_add_right items.length i), Option.none_or,
        Option.mem_def.mp hrest, Option.some.injEq] at hitem
      exact hitem ▸ hadmits

/-- Values that are the same admit the same data. -/
theorem Admits.of_same {v w data : Value} (hsame : v.same w = true) (h : v.Admits data) :
    w.Admits data := by
  induction v generalizing w data with
  | top =>
      cases w <;> simp only [same, Bool.false_eq_true] at hsame
      exact .top
  | atom a =>
      cases w <;> simp only [same, Bool.false_eq_true] at hsame
      cases h with
      | atom h => exact .atom (Atom.same_trans (Atom.same_symm hsame) h)
  | constraint c =>
      cases w <;> simp only [same, Bool.false_eq_true] at hsame
      cases h with
      | constraint h => exact .constraint (h.of_same hsame)
  | any xs ih =>
      cases w <;> simp only [same, Bool.false_eq_true] at hsame
      obtain ⟨x, hx, hadmits⟩ := admits_any.mp h
      obtain ⟨y, hy, hxy⟩ := exists_mem_left_of_forall₂ (sameAll_iff.mp hsame).flip hx
      exact .any hy (ih x hx hxy hadmits)
  | struct fields ih =>
      cases w <;> simp only [same, Bool.false_eq_true] at hsame
      obtain ⟨entries, rfl, hfields⟩ := admits_struct.mp h
      refine admits_struct.mpr ⟨entries, rfl, fun g hg => ?_⟩
      obtain ⟨f, hf, hlabel, hfg⟩ := exists_mem_left_of_forall₂ (sameFields_iff.mp hsame) hg
      obtain ⟨x, hx, hadmits⟩ := hfields f hf
      exact ⟨x, hlabel ▸ hx, ih f hf hfg hadmits⟩
  | list items tail hitems htail =>
      cases w <;> simp only [same, Bool.false_eq_true, Bool.and_eq_true] at hsame
      rename_i others rest
      have hall := sameAll_iff.mp hsame.1
      obtain ⟨elements, rfl, hlength, h⟩ := admits_list.mp h
      refine admits_list.mpr ⟨elements, rfl, hall.length_eq ▸ hlength, fun i x hx => ?_⟩
      obtain ⟨item, hitem, hadmits⟩ := h i x hx
      have hrel := itemAt?_rel hall (sameTail_iff.mp hsame.2) i
      rw [hitem] at hrel
      obtain ⟨other, hother, hitemOther⟩ : ∃ y, itemAt? others rest i = some y ∧
          item.same y = true := by
        cases hget : itemAt? others rest i with
        | none => rw [hget] at hrel; cases hrel
        | some y => rw [hget] at hrel; cases hrel with | some hxy => exact ⟨y, rfl, hxy⟩
      refine ⟨other, hother, ?_⟩
      rcases mem_of_itemAt? hitem with hmem | hmem
      · exact hitems item hmem hitemOther hadmits
      · exact htail item hmem hitemOther hadmits

end Value

end ApiProbe
