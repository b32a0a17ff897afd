import ApiProbe.Proofs.Value.Field
import ApiProbe.Proofs.Value.Instance
import ApiProbe.Proofs.Value.WellFormed
import ApiProbe.Value.Printer

/-!
# Plain data and printable values

Both are properties of a value's parts. Plain data admit themselves, so an instance of a pattern is a
common instance of the pattern and of itself.
-/

namespace ApiProbe

namespace Value

theorem concreteAll_iff {xs : List Value} :
    concreteAll xs = true ↔ ∀ x ∈ xs, x.concrete = true := by
  induction xs with
  | nil => simp [concreteAll]
  | cons x xs ih => simp [concreteAll, ih]

@[simp]
theorem concrete_struct {fields : List (String × Value)} :
    (Value.struct fields).concrete = true ↔ ∀ f ∈ fields, f.2.concrete = true := by
  rw [concrete]
  induction fields with
  | nil => simp [concreteFields]
  | cons f fields ih => simp [concreteFields, ih]

@[simp]
theorem concrete_list {items : List Value} {tail : Option Value} :
    (Value.list items tail).concrete = true ↔ tail = none ∧ ∀ x ∈ items, x.concrete = true := by
  rw [concrete, Bool.and_eq_true, Option.isNone_iff_eq_none, concreteAll_iff]

theorem printableAll_iff {xs : List Value} :
    printableAll xs = true ↔ ∀ x ∈ xs, x.printable = true := by
  induction xs with
  | nil => simp [printableAll]
  | cons x xs ih => simp [printableAll, ih]

@[simp]
theorem printable_constraint {c : Constraint} :
    (Value.constraint c).printable = true ↔ ∀ bound ∈ c.bounds, boundPrintable bound = true := by
  rw [printable, List.all_eq_true]

@[simp]
theorem printable_any {options : List Value} :
    (Value.any options).printable = true ↔ ∀ x ∈ options, x.printable = true := by
  rw [printable, printableAll_iff]

@[simp]
theorem printable_struct {fields : List (String × Value)} :
    (Value.struct fields).printable = true ↔ ∀ f ∈ fields, f.2.printable = true := by
  rw [printable]
  induction fields with
  | nil => simp [printableFields]
  | cons f fields ih => simp [printableFields, ih]

@[simp]
theorem printable_list {items : List Value} {tail : Option Value} :
    (Value.list items tail).printable = true ↔
      (∀ x ∈ items, x.printable = true) ∧ ∀ x ∈ tail, x.printable = true := by
  rw [printable, Bool.and_eq_true, printableAll_iff]
  cases tail <;> simp [printableTail]

theorem printable_options {v : Value} (h : v.printable = true) :
    ∀ x ∈ v.options, x.printable = true := by
  cases v with
  | any xs => exact printable_any.mp h
  | _ => simpa [options] using h

theorem admits_self {data : Value} (h : data.concrete = true) (hdata : data.WellFormed) :
    data.Admits data := by
  induction data with
  | top | constraint | any => simp [concrete] at h
  | atom a => exact .atom (Atom.same_self (wellFormed_atom.mp hdata))
  | struct fields ih =>
      obtain ⟨hlabels, hfields⟩ := wellFormed_struct.mp hdata
      refine admits_struct.mpr ⟨fields, rfl, fun f hf => ?_⟩
      exact ⟨f.2, lookup?_eq_some_of_mem hlabels hf,
        ih f hf (concrete_struct.mp h f hf) (hfields f hf)⟩
  | list items tail ih =>
      obtain ⟨rfl, hitems⟩ := concrete_list.mp h
      refine admits_list.mpr ⟨items, rfl, le_rfl, fun i x hx => ?_⟩
      have hmem := List.mem_of_getElem? hx
      exact ⟨x, by simp [itemAt?, hx], ih x hmem (hitems x hmem) ((wellFormed_list.mp hdata).1 x hmem)⟩

end Value

end ApiProbe
