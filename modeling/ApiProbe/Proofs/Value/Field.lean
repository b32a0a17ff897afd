import Mathlib.Data.List.Nodup
import ApiProbe.Value.Basic

/-!
# Fields by label

A label stands for its first field. Where the labels are distinct, every field is found under its
label.
-/

namespace ApiProbe.Value

theorem lookup?_eq_some_of_mem {fields : List (String × Value)}
    (hlabels : (fields.map Prod.fst).Nodup) {f : String × Value} (hf : f ∈ fields) :
    lookup? f.1 fields = some f.2 := by
  induction fields with
  | nil => cases hf
  | cons g fields ih =>
      obtain ⟨label, x⟩ := g
      rw [List.map_cons, List.nodup_cons] at hlabels
      rcases List.mem_cons.mp hf with rfl | hmem
      · simp [lookup?]
      · have hne : label ≠ f.1 := fun h => hlabels.1 (List.mem_map.mpr ⟨f, hmem, h.symm⟩)
        simp [lookup?, hne, ih hlabels.2 hmem]

theorem mem_of_lookup? {fields : List (String × Value)} {label : String} {x : Value}
    (h : lookup? label fields = some x) : (label, x) ∈ fields := by
  induction fields with
  | nil => cases h
  | cons g fields ih =>
      obtain ⟨l, y⟩ := g
      unfold lookup? at h
      split at h
      · rename_i hl
        obtain rfl := Option.some.inj h
        obtain rfl := beq_iff_eq.mp hl
        exact List.mem_cons_self
      · exact List.mem_cons_of_mem _ (ih h)

theorem lookup?_eq_none_iff {fields : List (String × Value)} {label : String} :
    lookup? label fields = none ↔ label ∉ fields.map Prod.fst := by
  induction fields with
  | nil => simp [lookup?]
  | cons g fields ih =>
      obtain ⟨l, y⟩ := g
      unfold lookup?
      by_cases hl : l = label
      · simp [hl]
      · simp [hl, ih, Ne.symm hl]

end ApiProbe.Value
