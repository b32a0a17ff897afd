import ApiProbe.Proofs.Number.Proper
import ApiProbe.Proofs.Result
import ApiProbe.Proofs.Value.WellFormed
import ApiProbe.Value.Encode

/-!
# Encoding

Data in which every dictionary has each key once are encoded as well-formed values.
-/

namespace ApiProbe

namespace Datum

/-- No key stands behind one that it equals. -/
def DistinctKeys (entries : List (Datum × Datum)) : Prop :=
  (entries.map Prod.fst).Pairwise fun a b => a.same b = false

/-- Floats are numbers of the format, dictionaries have each key once, and values that stand among the
data are well formed. -/
inductive WellFormed : Datum → Prop
  | null : WellFormed .null
  | bool {b : Bool} : WellFormed (.bool b)
  | int {n : Int} : WellFormed (.int n)
  | float {x : Binary64} (h : x.InFormat) : WellFormed (.float x)
  | string {s : String} : WellFormed (.string s)
  | list {items : List Datum} (h : ∀ d ∈ items, WellFormed d) : WellFormed (.list items)
  | tuple {items : List Datum} (h : ∀ d ∈ items, WellFormed d) : WellFormed (.tuple items)
  | dict {entries : List (Datum × Datum)} (hkeys : DistinctKeys entries)
      (h : ∀ e ∈ entries, WellFormed e.2) : WellFormed (.dict entries)
  | value {v : Value} (h : v.WellFormed) : WellFormed (.value v)
  | foreign {kind : Foreign} : WellFormed (.foreign kind)

/-- What documents hold: all keys are texts, and there are no values or things without data in it. -/
inductive Plain : Datum → Prop
  | null : Plain .null
  | bool {b : Bool} : Plain (.bool b)
  | int {n : Int} : Plain (.int n)
  | float {x : Binary64} (h : x.InFormat) : Plain (.float x)
  | string {s : String} : Plain (.string s)
  | list {items : List Datum} (h : ∀ d ∈ items, Plain d) : Plain (.list items)
  | dict {entries : List (Datum × Datum)} (hkeys : DistinctKeys entries)
      (htexts : ∀ e ∈ entries, ∃ label, e.1 = .string label) (h : ∀ e ∈ entries, Plain e.2) :
      Plain (.dict entries)

theorem Plain.wellFormed {d : Datum} (h : d.Plain) : d.WellFormed := by
  induction h with
  | null => exact .null
  | bool => exact .bool
  | int => exact .int
  | float hx => exact .float hx
  | string => exact .string
  | list _ ih => exact .list ih
  | dict hkeys _ _ ih => exact .dict hkeys ih

theorem same_string (s t : String) : (Datum.string s).same (.string t) = (s == t) := by
  simp [same]

section Insert

variable {key d : Datum} {entries : List (Datum × Datum)}

/-- A key that is there already keeps its place; another one is added at the end. -/
theorem keys_insert (key d : Datum) (entries : List (Datum × Datum)) :
    (insert key d entries).map Prod.fst =
      if (entries.map Prod.fst).any (·.same key) then entries.map Prod.fst
      else entries.map Prod.fst ++ [key] := by
  induction entries with
  | nil => rfl
  | cons entry entries ih =>
      obtain ⟨k, old⟩ := entry
      unfold insert
      by_cases hsame : k.same key = true
      · simp [hsame]
      · rw [if_neg hsame, List.map_cons, ih, List.map_cons, List.any_cons,
          Bool.eq_false_iff.mpr hsame, Bool.false_or]
        split <;> rfl

theorem insert_of_new (h : ∀ e ∈ entries, e.1.same key = false) :
    insert key d entries = entries ++ [(key, d)] := by
  induction entries with
  | nil => rfl
  | cons entry entries ih =>
      rw [List.forall_mem_cons] at h
      rw [insert, if_neg (by simp [h.1]), ih h.2, List.cons_append]

theorem distinctKeys_insert (h : DistinctKeys entries) :
    DistinctKeys (insert key d entries) := by
  rw [DistinctKeys, keys_insert]
  split
  · exact h
  · rename_i hnew
    simp only [List.any_eq_true, not_exists, not_and, Bool.not_eq_true] at hnew
    refine List.pairwise_append.mpr ⟨h, List.pairwise_singleton _ key, fun k hk other hother => ?_⟩
    exact List.mem_singleton.mp hother ▸ hnew k hk

theorem forall_values_insert {P : Datum → Prop} (h : ∀ e ∈ entries, P e.2) (hd : P d) :
    ∀ e ∈ insert key d entries, P e.2 := by
  induction entries with
  | nil => exact List.forall_mem_singleton.mpr hd
  | cons entry entries ih =>
      obtain ⟨k, old⟩ := entry
      rw [List.forall_mem_cons] at h
      unfold insert
      split
      · exact List.forall_mem_cons.mpr ⟨hd, h.2⟩
      · exact List.forall_mem_cons.mpr ⟨h.1, ih h.2⟩

theorem texts_insert {label : String} (h : ∀ e ∈ entries, ∃ own, e.1 = .string own) :
    ∀ e ∈ insert (.string label) d entries, ∃ own, e.1 = .string own := by
  induction entries with
  | nil => exact List.forall_mem_singleton.mpr ⟨label, rfl⟩
  | cons entry entries ih =>
      obtain ⟨k, old⟩ := entry
      rw [List.forall_mem_cons] at h
      unfold insert
      split
      · exact List.forall_mem_cons.mpr ⟨h.1, h.2⟩
      · exact List.forall_mem_cons.mpr ⟨h.1, ih h.2⟩

theorem plain_insert {label : String} (h : (Datum.dict entries).Plain) (hd : d.Plain) :
    (Datum.dict (insert (.string label) d entries)).Plain := by
  cases h with
  | dict hkeys htexts hvalues =>
      exact .dict (distinctKeys_insert hkeys) (texts_insert htexts) (forall_values_insert hvalues hd)

end Insert

end Datum

namespace Value

variable {path : String}

/-- The values are those of the items in order. -/
theorem encodeItems_eq_ok {index : Nat} {items : List Datum} {values : List Value}
    (h : encodeItems path index items = .ok values) :
    List.Forall₂ (fun d v => ∃ q, encodeAt q d = .ok v) items values := by
  induction items generalizing index values with
  | nil =>
      unfold encodeItems at h
      obtain rfl := Except.ok.inj h
      exact .nil
  | cons d items ih =>
      unfold encodeItems at h
      obtain ⟨v, hv, h⟩ := bind_eq_ok_iff.mp h
      obtain ⟨rest, hrest, h⟩ := bind_eq_ok_iff.mp h
      obtain rfl := Except.ok.inj h
      exact .cons ⟨_, hv⟩ (ih hrest)

/-- The fields are the entries in order, under the labels that their keys are. -/
theorem encodeEntries_eq_ok {entries : List (Datum × Datum)} {fields : List (String × Value)}
    (h : encodeEntries path entries = .ok fields) :
    List.Forall₂ (fun e f => e.1 = .string f.1 ∧ ∃ q, encodeAt q e.2 = .ok f.2) entries fields := by
  induction entries generalizing fields with
  | nil =>
      unfold encodeEntries at h
      obtain rfl := Except.ok.inj h
      exact .nil
  | cons entry entries ih =>
      obtain ⟨key, d⟩ := entry
      cases key with
      | string label =>
          unfold encodeEntries at h
          obtain ⟨v, hv, h⟩ := bind_eq_ok_iff.mp h
          obtain ⟨rest, hrest, h⟩ := bind_eq_ok_iff.mp h
          obtain rfl := Except.ok.inj h
          exact .cons ⟨rfl, _, hv⟩ (ih hrest)
      | _ => cases h

theorem nodup_labels_of_distinctKeys {labels : List String}
    (h : (labels.map Datum.string).Pairwise fun a b => a.same b = false) : labels.Nodup := by
  rw [List.pairwise_map] at h
  refine h.imp fun {a b} hdistinct => ?_
  rintro rfl
  rw [Datum.same_string, beq_self_eq_true] at hdistinct
  cases hdistinct

theorem keys_eq_map_labels {entries : List (Datum × Datum)} {fields : List (String × Value)}
    (h : List.Forall₂ (fun e (f : String × Value) => e.1 = Datum.string f.1) entries fields) :
    entries.map Prod.fst = (fields.map Prod.fst).map Datum.string := by
  rw [← List.forall₂_eq_eq_eq, List.forall₂_map_left_iff, List.map_map, List.forall₂_map_right_iff]
  exact h

theorem wellFormed_encodeAt {d : Datum} (hd : d.WellFormed) {v : Value}
    (h : encodeAt path d = .ok v) : v.WellFormed := by
  induction hd generalizing path v with
  | null | bool | int | string =>
      unfold encodeAt at h
      obtain rfl := Except.ok.inj h
      exact .atom trivial
  | float hx =>
      unfold encodeAt at h
      split at h
      · rename_i hfinite
        obtain rfl := Except.ok.inj h
        exact .atom (hx hfinite)
      · cases h
  | list _ ih | tuple _ ih =>
      unfold encodeAt at h
      obtain ⟨values, hvalues, rfl⟩ := map_eq_ok_iff.mp h
      refine wellFormed_list.mpr ⟨fun v hv => ?_, nofun⟩
      obtain ⟨d, hd, q, hq⟩ := exists_mem_left_of_forall₂ (encodeItems_eq_ok hvalues) hv
      exact ih d hd hq
  | dict hkeys _ ih =>
      unfold encodeAt at h
      obtain ⟨fields, hfields, rfl⟩ := map_eq_ok_iff.mp h
      have hforall := encodeEntries_eq_ok hfields
      rw [Datum.DistinctKeys, keys_eq_map_labels (hforall.imp fun _ _ hfield => hfield.1)] at hkeys
      refine wellFormed_struct.mpr ⟨nodup_labels_of_distinctKeys hkeys, fun f hf => ?_⟩
      obtain ⟨e, he, _, q, hq⟩ := exists_mem_left_of_forall₂ hforall hf
      exact ih e he hq
  | value hv =>
      unfold encodeAt at h
      exact Except.ok.inj h ▸ hv
  | foreign =>
      unfold encodeAt at h
      cases h

theorem wellFormed_encode {d : Datum} (hd : d.WellFormed) {v : Value} (h : encode d = .ok v) :
    v.WellFormed :=
  wellFormed_encodeAt hd h

/-- What the items fail with is what one of them fails with. -/
theorem failsWith_encodeItems {P : EncodeFailure → Prop} {index : Nat} {items : List Datum}
    (ih : ∀ d ∈ items, ∀ path, FailsWith P (encodeAt path d)) :
    FailsWith P (encodeItems path index items) := by
  induction items generalizing index with
  | nil => exact failsWith_ok _
  | cons d items ihItems =>
      rw [List.forall_mem_cons] at ih
      unfold encodeItems
      exact (ih.1 _).bind fun v _ => (ihItems ih.2).bind fun vs _ => failsWith_ok _

/-- What the entries fail with is a key that is no text, or what one of their values fails with. -/
theorem failsWith_encodeEntries {P : EncodeFailure → Prop} {entries : List (Datum × Datum)}
    (hkeys : ∀ e ∈ entries, (∀ label, e.1 ≠ .string label) → P (refuseKey path e.1))
    (ih : ∀ e ∈ entries, ∀ path, FailsWith P (encodeAt path e.2)) :
    FailsWith P (encodeEntries path entries) := by
  induction entries with
  | nil => exact failsWith_ok _
  | cons entry entries ihEntries =>
      obtain ⟨key, d⟩ := entry
      rw [List.forall_mem_cons] at hkeys ih
      cases key with
      | string label =>
          unfold encodeEntries
          exact (ih.1 _).bind fun v _ => (ihEntries hkeys.2 ih.2).bind fun fields _ => failsWith_ok _
      | _ => exact failsWith_error (hkeys.1 nofun)

/-- What encoding fails with can be shown, where all keys are texts. -/
def FailsRefused {α : Type} (x : Except EncodeFailure α) : Prop :=
  x ≠ .error .unprintable

theorem failsRefused_iff {α : Type} {x : Except EncodeFailure α} :
    FailsRefused x ↔ FailsWith (· ≠ .unprintable) x := by
  constructor
  · rintro h failure hx rfl
    exact h hx
  · exact fun h hx => h _ hx rfl

theorem failsRefused_dict {entries : List (Datum × Datum)}
    (htexts : ∀ e ∈ entries, ∃ label, e.1 = .string label)
    (h : ∀ e ∈ entries, ∀ path, FailsRefused (encodeAt path e.2)) (path : String) :
    FailsRefused (encodeAt path (.dict entries)) := by
  simp only [failsRefused_iff] at h ⊢
  unfold encodeAt
  refine (failsWith_encodeEntries (fun e he hkey => ?_) h).map _
  obtain ⟨label, hlabel⟩ := htexts e he
  exact absurd hlabel (hkey label)

theorem failsRefused_list {items : List Datum}
    (h : ∀ d ∈ items, ∀ path, FailsRefused (encodeAt path d)) (path : String) :
    FailsRefused (encodeAt path (.list items)) := by
  simp only [failsRefused_iff] at h ⊢
  unfold encodeAt
  exact (failsWith_encodeItems h).map _

theorem failsRefused_encodeAt {d : Datum} (hd : d.Plain) (path : String) :
    FailsRefused (encodeAt path d) := by
  induction hd generalizing path with
  | null | bool | int | string =>
      unfold encodeAt
      exact nofun
  | float =>
      unfold encodeAt
      split
      · exact nofun
      · exact nofun
  | list _ ih => exact failsRefused_list ih path
  | dict _ htexts _ ih => exact failsRefused_dict htexts ih path

end Value

end ApiProbe
