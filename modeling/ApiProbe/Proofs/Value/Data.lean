import ApiProbe.Language
import ApiProbe.Proofs.Value.Concrete
import ApiProbe.Proofs.Value.Encode

/-!
# Data and the values that stand for them

A value stands for data just if it is concrete, and encoding these data gives the value back. Plain data
are encoded as a concrete value that stands for them. Data that no value stands for are those with a number
in them that is not finite, a key that is no text or a thing that is no data.
-/

namespace ApiProbe

namespace Datum

/-- A property holds of all data if it passes from the items and the values of data to the data. -/
@[induction_eliminator]
theorem induct {P : Datum → Prop} (null : P .null) (bool : ∀ b, P (.bool b)) (int : ∀ n, P (.int n))
    (float : ∀ x, P (.float x)) (string : ∀ s, P (.string s))
    (list : ∀ items, (∀ d ∈ items, P d) → P (.list items))
    (tuple : ∀ items, (∀ d ∈ items, P d) → P (.tuple items))
    (dict : ∀ entries, (∀ e ∈ entries, P e.2) → P (.dict entries))
    (value : ∀ v, P (.value v)) (foreign : ∀ kind, P (.foreign kind)) (d : Datum) : P d :=
  Datum.rec (motive_1 := P) (motive_2 := fun items => ∀ d ∈ items, P d)
    (motive_3 := fun entries => ∀ e ∈ entries, P e.2) (motive_4 := fun e => P e.2)
    null bool int float string list tuple dict value foreign
    (fun _ h => nomatch h) (fun _ _ hd hitems => List.forall_mem_cons.mpr ⟨hd, hitems⟩)
    (fun _ h => nomatch h) (fun _ _ he hentries => List.forall_mem_cons.mpr ⟨he, hentries⟩)
    (fun _ _ _ hd => hd) d

/-! ### What stands in the way of encoding

What cannot be encoded is found somewhere in the data, so the condition is a relation between data and their
parts, with one equation for each kind of data. -/

/-- The part is the data, or stands somewhere among the items and the values in them. -/
inductive Within (part : Datum) : Datum → Prop
  | self : Within part part
  | list {items : List Datum} {d : Datum} (hd : d ∈ items) (h : Within part d) :
      Within part (.list items)
  | tuple {items : List Datum} {d : Datum} (hd : d ∈ items) (h : Within part d) :
      Within part (.tuple items)
  | dict {entries : List (Datum × Datum)} {e : Datum × Datum} (he : e ∈ entries)
      (h : Within part e.2) : Within part (.dict entries)

/-- Numbers that are not finite, dictionaries with a key that is no text, and things that are no data. -/
inductive Unencodable : Datum → Prop
  | float {x : Binary64} (h : x.isFinite = false) : Unencodable (.float x)
  | key {entries : List (Datum × Datum)} {e : Datum × Datum} (he : e ∈ entries)
      (h : ∀ label, e.1 ≠ .string label) : Unencodable (.dict entries)
  | foreign {kind : Foreign} : Unencodable (.foreign kind)

/-- Somewhere in the data is something that cannot be encoded. -/
def Defective (d : Datum) : Prop :=
  ∃ part : Datum, part.Within d ∧ part.Unencodable

/-- Every key in the data can be shown: the whole numbers in it are within the digit limit. -/
def KeysPrintable (d : Datum) : Prop :=
  ∀ entries, (Datum.dict entries).Within d → ∀ e ∈ entries, e.1.printable = true

section Defective

variable {items : List Datum} {entries : List (Datum × Datum)}

theorem defective_float {x : Binary64} : (Datum.float x).Defective ↔ x.isFinite = false := by
  constructor
  · rintro ⟨part, ⟨⟩, ⟨h⟩⟩
    exact h
  · exact fun h => ⟨_, .self, .float h⟩

theorem defective_foreign (kind : Foreign) : (Datum.foreign kind).Defective :=
  ⟨_, .self, .foreign⟩

theorem defective_list : (Datum.list items).Defective ↔ ∃ d ∈ items, d.Defective := by
  constructor
  · rintro ⟨part, hpart, hdefect⟩
    cases hpart with
    | self => cases hdefect
    | list hd h => exact ⟨_, hd, part, h, hdefect⟩
  · rintro ⟨d, hd, part, h, hdefect⟩
    exact ⟨part, .list hd h, hdefect⟩

theorem defective_tuple : (Datum.tuple items).Defective ↔ ∃ d ∈ items, d.Defective := by
  constructor
  · rintro ⟨part, hpart, hdefect⟩
    cases hpart with
    | self => cases hdefect
    | tuple hd h => exact ⟨_, hd, part, h, hdefect⟩
  · rintro ⟨d, hd, part, h, hdefect⟩
    exact ⟨part, .tuple hd h, hdefect⟩

theorem defective_dict :
    (Datum.dict entries).Defective ↔
      (∃ e ∈ entries, ∀ label, e.1 ≠ .string label) ∨ ∃ e ∈ entries, e.2.Defective := by
  constructor
  · rintro ⟨part, hpart, hdefect⟩
    cases hpart with
    | self =>
        obtain ⟨⟩ | ⟨he, h⟩ | ⟨⟩ := hdefect
        exact Or.inl ⟨_, he, h⟩
    | dict he h => exact Or.inr ⟨_, he, part, h, hdefect⟩
  · rintro (⟨e, he, h⟩ | ⟨e, he, part, h, hdefect⟩)
    · exact ⟨_, .self, .key he h⟩
    · exact ⟨part, .dict he h, hdefect⟩

end Defective

/-- What encoding the data fails with is put down to them: something in them cannot be encoded, and the
failure can be shown if all keys can. -/
def Explains (d : Datum) (failure : EncodeFailure) : Prop :=
  d.Defective ∧ (d.KeysPrintable → failure ≠ .unprintable)

theorem Explains.mono {d e : Datum} (hwithin : ∀ part : Datum, part.Within d → part.Within e)
    {failure : EncodeFailure} (h : d.Explains failure) : e.Explains failure := by
  obtain ⟨⟨part, hpart, hdefect⟩, hshown⟩ := h
  exact ⟨⟨part, hwithin part hpart, hdefect⟩,
    fun hkeys => hshown fun entries hentries => hkeys entries (hwithin _ hentries)⟩

end Datum

namespace Value

open Datum (ofValue ofValues ofFields)

variable {path : String}

theorem explains_key {entries : List (Datum × Datum)} {e : Datum × Datum} (he : e ∈ entries)
    (h : ∀ label, e.1 ≠ .string label) : (Datum.dict entries).Explains (refuseKey path e.1) := by
  refine ⟨Datum.defective_dict.mpr (Or.inl ⟨e, he, h⟩), fun hkeys => ?_⟩
  rw [refuseKey, if_pos (hkeys entries .self e he)]
  exact nofun

/-- Encoding fails only for something that the data have in them. -/
theorem failsWith_encodeAt (d : Datum) (path : String) : FailsWith d.Explains (encodeAt path d) := by
  induction d generalizing path with
  | null | bool | int | string | value =>
      unfold encodeAt
      exact failsWith_ok _
  | float x =>
      unfold encodeAt
      split
      · exact failsWith_ok _
      · rename_i hfinite
        refine failsWith_error
          ⟨Datum.defective_float.mpr (Bool.eq_false_iff.mpr hfinite), fun _ h => ?_⟩
        cases h
  | foreign kind =>
      unfold encodeAt
      refine failsWith_error ⟨Datum.defective_foreign kind, fun _ h => ?_⟩
      cases h
  | list items ih =>
      unfold encodeAt
      refine (failsWith_encodeItems fun d hd path failure h => ?_).map _
      exact (ih d hd path failure h).mono fun _ => .list hd
  | tuple items ih =>
      unfold encodeAt
      refine (failsWith_encodeItems fun d hd path failure h => ?_).map _
      exact (ih d hd path failure h).mono fun _ => .tuple hd
  | dict entries ih =>
      unfold encodeAt
      refine (failsWith_encodeEntries (fun e he => explains_key he)
        fun e he path failure h => ?_).map _
      exact (ih e he path failure h).mono fun _ => .dict he

/-- Data that are encoded have nothing in them that cannot be. -/
theorem not_defective_of_encodeAt {d : Datum} {v : Value} (h : encodeAt path d = .ok v) :
    ¬ d.Defective := by
  induction d generalizing path v with
  | null | bool | int | string | value =>
      rintro ⟨part, ⟨⟩, ⟨⟩⟩
  | float x =>
      unfold encodeAt at h
      split at h
      · rename_i hfinite
        rw [Datum.defective_float, hfinite]
        decide
      · cases h
  | foreign kind =>
      unfold encodeAt at h
      cases h
  | list items ih =>
      unfold encodeAt at h
      obtain ⟨values, hvalues, -⟩ := map_eq_ok_iff.mp h
      intro hdefective
      obtain ⟨d, hd, hdefective⟩ := Datum.defective_list.mp hdefective
      obtain ⟨w, -, q, hq⟩ := exists_mem_left_of_forall₂ (encodeItems_eq_ok hvalues).flip hd
      exact ih d hd hq hdefective
  | tuple items ih =>
      unfold encodeAt at h
      obtain ⟨values, hvalues, -⟩ := map_eq_ok_iff.mp h
      intro hdefective
      obtain ⟨d, hd, hdefective⟩ := Datum.defective_tuple.mp hdefective
      obtain ⟨w, -, q, hq⟩ := exists_mem_left_of_forall₂ (encodeItems_eq_ok hvalues).flip hd
      exact ih d hd hq hdefective
  | dict entries ih =>
      unfold encodeAt at h
      obtain ⟨fields, hfields, -⟩ := map_eq_ok_iff.mp h
      have hforall := (encodeEntries_eq_ok hfields).flip
      intro hdefective
      rcases Datum.defective_dict.mp hdefective with ⟨e, he, hkey⟩ | ⟨e, he, hdefective⟩
      · obtain ⟨f, -, hlabel, -⟩ := exists_mem_left_of_forall₂ hforall he
        exact hkey f.1 hlabel
      · obtain ⟨f, -, -, q, hq⟩ := exists_mem_left_of_forall₂ hforall he
        exact ih e he hq hdefective

/-- Encoding fails just for data that have something in them that cannot be encoded. -/
theorem exists_encodeAt_error_iff {d : Datum} :
    (∃ failure, encodeAt path d = .error failure) ↔ d.Defective := by
  constructor
  · rintro ⟨failure, hfailure⟩
    exact (failsWith_encodeAt d path failure hfailure).1
  · intro hdefective
    cases h : encodeAt path d with
    | ok v => exact absurd hdefective (not_defective_of_encodeAt h)
    | error failure => exact ⟨failure, rfl⟩

theorem ofValues_eq_ok_iff {values : List Value} {items : List Datum} :
    ofValues values = .ok items ↔
      List.Forall₂ (fun v d => ofValue v = .ok d) values items := by
  induction values generalizing items with
  | nil =>
      rw [ofValues, List.forall₂_nil_left_iff]
      exact ⟨fun h => (Except.ok.inj h).symm, congrArg Except.ok ∘ Eq.symm⟩
  | cons v values ih =>
      simp only [ofValues, bind_eq_ok_iff, ih, List.forall₂_cons_left_iff]
      constructor
      · rintro ⟨d, hd, ds, hds, h⟩
        exact ⟨d, ds, hd, hds, (Except.ok.inj h).symm⟩
      · rintro ⟨d, ds, hd, hds, rfl⟩
        exact ⟨d, hd, ds, hds, rfl⟩

/-- The entries are the fields in order, with the labels as keys. -/
theorem ofFields_eq_ok_iff {fields : List (String × Value)} {entries : List (Datum × Datum)} :
    ofFields fields = .ok entries ↔
      List.Forall₂ (fun f e => e.1 = .string f.1 ∧ ofValue f.2 = .ok e.2) fields entries := by
  induction fields generalizing entries with
  | nil =>
      rw [ofFields, List.forall₂_nil_left_iff]
      exact ⟨fun h => (Except.ok.inj h).symm, congrArg Except.ok ∘ Eq.symm⟩
  | cons f fields ih =>
      obtain ⟨label, v⟩ := f
      simp only [ofFields, bind_eq_ok_iff, ih, List.forall₂_cons_left_iff]
      constructor
      · rintro ⟨d, hd, ds, hds, h⟩
        exact ⟨(.string label, d), ds, ⟨rfl, hd⟩, hds, (Except.ok.inj h).symm⟩
      · rintro ⟨⟨key, d⟩, ds, ⟨rfl, hd⟩, hds, rfl⟩
        exact ⟨d, hd, ds, hds, rfl⟩

/-- A value stands for data just if it is concrete. -/
theorem exists_ofValue_iff {v : Value} : (∃ d, ofValue v = .ok d) ↔ v.concrete = true := by
  induction v with
  | top | constraint | any => simp [ofValue, concrete]
  | atom a => simp [ofValue, concrete]
  | struct fields ih =>
      simp only [ofValue, map_eq_ok_iff, concrete_struct]
      constructor
      · rintro ⟨d, entries, hentries, -⟩ f hf
        obtain ⟨e, -, -, he⟩ :=
          exists_mem_left_of_forall₂ (ofFields_eq_ok_iff.mp hentries).flip hf
        exact (ih f hf).mp ⟨e.2, he⟩
      · intro h
        obtain ⟨entries, hentries⟩ : ∃ entries, List.Forall₂ (fun (f : String × Value)
            (e : Datum × Datum) => e.1 = .string f.1 ∧ ofValue f.2 = .ok e.2) fields entries := by
          refine exists_forall₂_of_forall fun f hf => ?_
          obtain ⟨d, hd⟩ := (ih f hf).mpr (h f hf)
          exact ⟨(.string f.1, d), rfl, hd⟩
        exact ⟨_, entries, ofFields_eq_ok_iff.mpr hentries, rfl⟩
  | list items tail ih =>
      rw [concrete_list]
      cases tail with
      | some tail => simp [ofValue]
      | none =>
          simp only [ofValue, map_eq_ok_iff, true_and]
          constructor
          · rintro ⟨d, data, hdata, -⟩ x hx
            obtain ⟨e, -, he⟩ := exists_mem_left_of_forall₂ (ofValues_eq_ok_iff.mp hdata).flip hx
            exact (ih x hx).mp ⟨e, he⟩
          · intro h
            obtain ⟨data, hdata⟩ := exists_forall₂_of_forall fun x hx => (ih x hx).mpr (h x hx)
            exact ⟨_, data, ofValues_eq_ok_iff.mpr hdata, rfl⟩

theorem encodeItems_of_forall₂ {items : List Datum} {values : List Value} {index : Nat}
    (h : List.Forall₂ (fun d v => ∀ q, encodeAt q d = .ok v) items values) :
    encodeItems path index items = .ok values := by
  induction h generalizing index with
  | nil => rw [encodeItems]
  | cons hv _ ih =>
      rw [encodeItems, hv, ih]
      rfl

theorem encodeEntries_of_forall₂ {entries : List (Datum × Datum)} {fields : List (String × Value)}
    (h : List.Forall₂ (fun e f => e.1 = .string f.1 ∧ ∀ q, encodeAt q e.2 = .ok f.2)
      entries fields) : encodeEntries path entries = .ok fields := by
  induction h with
  | nil => rw [encodeEntries]
  | @cons e f entries fields hf _ ih =>
      obtain ⟨key, d⟩ := e
      obtain ⟨rfl, hd⟩ := hf
      rw [encodeEntries, hd, ih]
      rfl

/-- The data that a value stands for are encoded as the value. -/
theorem encodeAt_of_ofValue {v : Value} (hv : v.WellFormed) {d : Datum} (h : ofValue v = .ok d)
    (path : String) : encodeAt path d = .ok v := by
  induction v generalizing d path with
  | top | constraint | any => cases h
  | atom a =>
      obtain rfl := Except.ok.inj h
      cases a with
      | float x =>
          cases x with
          | finite => rfl
          | infinite | nan => cases wellFormed_atom.mp hv
      | _ => rfl
  | struct fields ih =>
      rw [ofValue] at h
      obtain ⟨entries, hentries, rfl⟩ := map_eq_ok_iff.mp h
      have hfields := (wellFormed_struct.mp hv).2
      have hencoded : List.Forall₂ (fun e f => e.1 = .string f.1 ∧ ∀ q, encodeAt q e.2 = .ok f.2)
          entries fields := by
        refine (forall₂_of_mem (ofFields_eq_ok_iff.mp hentries) fun f hf e hfe => ?_).flip
        exact ⟨hfe.1, fun q => ih f hf (hfields f hf) hfe.2 q⟩
      rw [encodeAt, encodeEntries_of_forall₂ hencoded]
      rfl
  | list items tail ih =>
      cases tail with
      | some tail => cases h
      | none =>
          rw [ofValue] at h
          obtain ⟨data, hdata, rfl⟩ := map_eq_ok_iff.mp h
          have hitems := (wellFormed_list.mp hv).1
          have hencoded : List.Forall₂ (fun d v => ∀ q, encodeAt q d = .ok v) data items := by
            refine (forall₂_of_mem (ofValues_eq_ok_iff.mp hdata) fun x hx e hxe => ?_).flip
            exact fun q => ih x hx (hitems x hx) hxe q
          rw [encodeAt, encodeItems_of_forall₂ hencoded]
          rfl

/-- Plain data are encoded, and the value stands for them. -/
theorem exists_encodeAt_plain {d : Datum} (hd : d.Plain)
    (hfinite : ∀ x, (Datum.float x).Within d → x.isFinite = true) :
    ∃ v, (∀ path, encodeAt path d = .ok v) ∧ ofValue v = .ok d := by
  induction hd with
  | null => exact ⟨.atom .null, fun _ => rfl, rfl⟩
  | @bool b => exact ⟨.atom (.bool b), fun _ => rfl, rfl⟩
  | @int n => exact ⟨.atom (.int n), fun _ => rfl, rfl⟩
  | @float x =>
      refine ⟨.atom (.float x), fun path => ?_, rfl⟩
      rw [encodeAt, if_pos (hfinite x .self)]
  | @string s => exact ⟨.atom (.string s), fun _ => rfl, rfl⟩
  | @list items _ ih =>
      obtain ⟨values, hvalues⟩ := exists_forall₂_of_forall fun d hd =>
        ih d hd fun x hx => hfinite x (.list hd hx)
      refine ⟨.list values none, fun path => ?_, ?_⟩
      · rw [encodeAt, encodeItems_of_forall₂ (hvalues.imp fun _ _ h => h.1)]
        rfl
      · rw [ofValue, ofValues_eq_ok_iff.mpr (hvalues.flip.imp fun _ _ h => h.2)]
        rfl
  | @dict entries _ htexts _ ih =>
      obtain ⟨fields, hfields⟩ : ∃ fields, List.Forall₂ (fun (e : Datum × Datum)
          (f : String × Value) => e.1 = .string f.1 ∧ (∀ path, encodeAt path e.2 = .ok f.2) ∧
            ofValue f.2 = .ok e.2) entries fields := by
        refine exists_forall₂_of_forall fun e he => ?_
        obtain ⟨label, hlabel⟩ := htexts e he
        obtain ⟨v, hv⟩ := ih e he fun x hx => hfinite x (.dict he hx)
        exact ⟨(label, v), hlabel, hv⟩
      refine ⟨.struct fields, fun path => ?_, ?_⟩
      · rw [encodeAt, encodeEntries_of_forall₂ (hfields.imp fun _ _ h => ⟨h.1, h.2.1⟩)]
        rfl
      · rw [ofValue, ofFields_eq_ok_iff.mpr (hfields.flip.imp fun _ _ h => ⟨h.1, h.2.2⟩)]
        rfl

end Value

namespace Language

/-- Encoding the data is refused with a problem that is one of encoding. -/
def Refuses (d : Datum) : Prop :=
  ∃ p : Problem, encode d = .error (.problem p) ∧ p.kind = .encode

theorem encode_eq_ok_iff {d : Datum} {v : Value} : encode d = .ok v ↔ Value.encode d = .ok v := by
  unfold encode
  split <;> simp [*]

theorem data_eq_ok_iff {v : Value} {d : Datum} : data v = .ok d ↔ Datum.ofValue v = .ok d := by
  unfold data
  split <;> simp [*]

theorem exists_encode_error_iff {d : Datum} :
    (∃ failure, encode d = .error failure) ↔ ∃ failure, Value.encode d = .error failure := by
  unfold encode
  split <;> simp [*]

theorem refuses_iff {d : Datum} :
    Refuses d ↔ ∃ failure, Value.encode d = .error failure ∧ failure ≠ .unprintable := by
  unfold Refuses encode
  split <;> simp [*]

theorem refuses_or_unprintable {d : Datum} {failure : Failure} (h : encode d = .error failure) :
    Refuses d ∨ failure = .fault .unprintable := by
  rw [refuses_iff]
  unfold encode at h
  split at h
  · cases h
  · rename_i hencode
    exact Or.inl ⟨_, hencode, nofun⟩
  · exact Or.inr (Except.error.inj h).symm

/-- **Encoding and decoding are inverse.** A well-formed value stands for data just if it is concrete, and
the data are encoded as that value. Plain data without infinite numbers and NaN are encoded as a concrete
value that stands for them. Encoding fails just for data with a number that is not finite, a key that is no
text or a thing that is no data somewhere in them, and it is a problem with the data that it fails with,
unless a key in them has a whole number beyond the digit limit. -/
theorem encode_inverts_data (v : Value) (d : Datum) :
    (v.WellFormed →
      (v.concrete = true ↔ ∃ d, data v = .ok d) ∧ (data v = .ok d → encode d = .ok v)) ∧
    (d.Plain → (∀ x, (Datum.float x).Within d → x.isFinite = true) →
      ∃ v, encode d = .ok v ∧ v.concrete = true ∧ data v = .ok d) ∧
    ((∃ failure, encode d = .error failure) ↔ d.Defective) ∧
    (d.KeysPrintable → (Refuses d ↔ d.Defective)) ∧
    ∀ failure, encode d = .error failure → Refuses d ∨ failure = .fault .unprintable := by
  simp only [encode_eq_ok_iff, data_eq_ok_iff]
  refine ⟨fun hv => ⟨Value.exists_ofValue_iff.symm, fun hd => ?_⟩, fun hd hfinite => ?_,
    ?_, fun hkeys => ?_, fun failure hfailure => ?_⟩
  · exact Value.encodeAt_of_ofValue hv hd ""
  · obtain ⟨v, hencode, hvalue⟩ := Value.exists_encodeAt_plain hd hfinite
    exact ⟨v, hencode "", Value.exists_ofValue_iff.mp ⟨d, hvalue⟩, hvalue⟩
  · exact exists_encode_error_iff.trans Value.exists_encodeAt_error_iff
  · rw [refuses_iff]
    constructor
    · rintro ⟨failure, hfailure, -⟩
      exact Value.exists_encodeAt_error_iff.mp ⟨failure, hfailure⟩
    · intro hdefective
      obtain ⟨failure, hfailure⟩ := Value.exists_encodeAt_error_iff.mpr hdefective
      exact ⟨failure, hfailure, (Value.failsWith_encodeAt d "" failure hfailure).2 hkeys⟩
  · exact refuses_or_unprintable hfailure

/-- A struct in a list with a negative zero, data with a truth value, a whole number and a float that are
all one, and data with a NaN behind a key that is no text. -/
theorem encode_inverts_data_equal_ones :
    let v : Value := .list [.struct [("b", .atom (.float (.zero true))), ("a", .list [] none)]] none
    let plain : Datum := .dict [(.string "b", .list [.bool true, .int 1, .float (.ofInt 1)]),
      (.string "a", .dict [])]
    let defective : Datum := .tuple [.dict [(.int 1, .null)], .float .nan]
    v.WellFormed ∧ (∃ d, data v = .ok d ∧ encode d = .ok v) ∧ plain.Plain ∧
      (∃ w, encode plain = .ok w ∧ w.concrete = true ∧ data w = .ok plain) ∧
      defective.KeysPrintable ∧ Refuses defective := by
  intro v plain defective
  have hv : v.WellFormed := by
    simp [v, Atom.WellFormed, Binary64.zero_isProper]
  have hone : (Binary64.ofInt 1).InFormat := fun _ => by decide
  have hd : plain.Plain := by
    refine .dict (by simp [Datum.DistinctKeys, Datum.same_string]) ?_ ?_
    · simp
    · rw [List.forall_mem_cons, List.forall_mem_singleton]
      refine ⟨.list ?_, .dict .nil (List.forall_mem_nil _) (List.forall_mem_nil _)⟩
      rw [List.forall_mem_cons, List.forall_mem_cons, List.forall_mem_singleton]
      exact ⟨.bool, .int, .float hone⟩
  have hfinite : ∀ x, (Datum.float x).Within plain → x.isFinite = true := by
    intro x hx
    dsimp only [plain] at hx
    obtain - | - | - | ⟨he, hx⟩ := hx
    rcases List.mem_pair.mp he with rfl | rfl
    · obtain - | ⟨hd, hx⟩ := hx
      simp only [List.mem_cons, List.not_mem_nil, or_false] at hd
      rcases hd with rfl | rfl | rfl <;> cases hx
      rfl
    · obtain - | - | - | ⟨⟨⟩, -⟩ := hx
  have hkeys : defective.KeysPrintable := by
    intro entries hentries
    dsimp only [defective] at hentries
    obtain - | - | ⟨hd, hentries⟩ := hentries
    rcases List.mem_pair.mp hd with rfl | rfl
    · obtain - | - | - | ⟨he, hentries⟩ := hentries
      · rw [List.forall_mem_singleton]
        decide +kernel
      · obtain rfl := List.mem_singleton.mp he
        cases hentries
    · cases hentries
  have hvalue (d : Datum) := (encode_inverts_data v d).1 hv
  obtain ⟨d, hdata⟩ := (hvalue plain).1.mp rfl
  refine ⟨hv, ⟨d, hdata, (hvalue d).2 hdata⟩, hd, (encode_inverts_data v plain).2.1 hd hfinite, hkeys, ?_⟩
  refine ((encode_inverts_data v defective).2.2.2.1 hkeys).mpr ⟨.float .nan, ?_, .float rfl⟩
  exact .tuple (List.mem_cons_of_mem _ (List.mem_singleton_self _)) .self

theorem encode_of_long_key {n : Int} (hn : Numeral.fits n = false) (d : Datum) :
    encode (.dict [(.int n, d)]) = .error (.fault .unprintable) := by
  have hkey : refuseKey "" (.int n) = .unprintable := by simp [refuseKey, Datum.printable, hn]
  have hencode : Value.encode (.dict [(.int n, d)]) = .error .unprintable := by
    rw [Value.encode, Value.encodeAt, Value.encodeEntries, hkey]
    · rfl
    · intro key h
      cases h
  rw [encode, hencode]

/-- A whole number as a key is no text, and yet it is no problem with the data that encoding fails with, if
the number is beyond the digit limit. -/
theorem encode_long_key :
    let d : Datum := .dict [(.int (10 ^ 4300), .null)]
    d.Defective ∧ (∀ v : Value, ¬ (Datum.value v).Within d) ∧ ¬ Refuses d := by
  intro d
  have hdefective (n : Int) : (Datum.dict [(.int n, .null)]).Defective :=
    ⟨_, .self, .key (List.mem_singleton_self _) nofun⟩
  have hvalue (n : Int) (v : Value) : ¬ (Datum.value v).Within (.dict [(.int n, .null)]) := by
    intro h
    obtain - | - | - | ⟨he, h⟩ := h
    obtain rfl := List.mem_singleton.mp he
    cases h
  have hfails : encode d = .error (.fault .unprintable) :=
    encode_of_long_key (by decide +kernel) .null
  refine ⟨hdefective _, hvalue _, ?_⟩
  rintro ⟨p, hp, -⟩
  cases hfails.symm.trans hp

end Language

end ApiProbe
