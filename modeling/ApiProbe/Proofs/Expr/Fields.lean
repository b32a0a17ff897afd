import ApiProbe.Language
import ApiProbe.Proofs.Expr.Conjuncts
import ApiProbe.Proofs.Expr.ReadBack
import ApiProbe.Proofs.Expr.RoundTrip

/-!
# Fields as conjuncts

A struct literal collects its fields one by one, and repeated labels are unified where the first of
them stands. Unifying structs of one field each comes to the same: the same fields in the same order,
whether or not braces and ampersands are written between them.
-/

namespace ApiProbe

namespace Value

variable {fields others : List (String × Value)}

/-- Fields whose labels the other struct lacks stay as they are. -/
theorem unifyFields_eq_self {path : String} (h : ∀ f ∈ fields, lookup? f.1 others = none) :
    unifyFields path fields others = .ok fields := by
  rw [unifyFields_eq_ok_iff, List.forall₂_same]
  intro f hf
  exact ⟨rfl, Or.inr ⟨h f hf, rfl⟩⟩

end Value

namespace Expr

open Value (lookup? newFields unify unifyAll unifyFields)

section Fields

variable {label : String} {value : Value} {done merged fields : List (String × Value)}

theorem putField_cons_self (old : Value) :
    putField label value ((label, old) :: done) = .ok merged ↔
      ∃ found, unify old value = .ok found ∧ (label, found) :: done = merged := by
  rw [putField, if_pos (beq_self_eq_true label)]
  split
  · rename_i found hunify
    simp [hunify]
  · rename_i hunify
    simp [hunify, refuse_ne_ok]
  · rename_i hunify
    simp [hunify]

theorem putField_cons_of_ne {name : String} (hname : name ≠ label) (old : Value) :
    putField label value ((name, old) :: done)
      = (putField label value done).map ((name, old) :: ·) := by
  rw [putField, if_neg (by simpa using hname)]

/-- The fields that merging with a struct of one field leads to. -/
def mergedWith (label : String) (value : Value) (done : List (String × Value)) :
    Unified (List (String × Value)) :=
  (unifyFields "" done [(label, value)]).map (· ++ newFields done [(label, value)])

theorem mergedWith_cons_self (old : Value) (hlabel : label ∉ done.map Prod.fst) :
    mergedWith label value ((label, old) :: done) = .ok merged ↔
      ∃ found, unify old value = .ok found ∧ (label, found) :: done = merged := by
  have hkept : unifyFields "" done [(label, value)] = .ok done := by
    apply Value.unifyFields_eq_self
    rintro ⟨name, x⟩ hf
    have hname : label ≠ name := by
      rintro rfl
      exact hlabel (List.mem_map_of_mem hf)
    simp [lookup?, hname]
  have hnew : newFields ((label, old) :: done) [(label, value)] = [] := by
    simp [newFields, lookup?]
  have hfound : lookup? label [(label, value)] = some value := by
    simp [lookup?]
  rw [mergedWith, hnew, unifyFields, hkept, hfound]
  simp only [map_eq_ok_iff, Unified.both_eq_ok_iff, Value.unifyAt_eq_ok_iff, List.append_nil]
  constructor
  · rintro ⟨_, ⟨⟨found, rest⟩, ⟨hunify, hrest⟩, rfl⟩, rfl⟩
    exact ⟨found, hunify, by rw [Except.ok.inj hrest]⟩
  · rintro ⟨found, hunify, rfl⟩
    exact ⟨_, ⟨(found, done), ⟨hunify, rfl⟩, rfl⟩, rfl⟩

theorem mergedWith_cons_of_ne {name : String} (hname : name ≠ label) (old : Value) :
    mergedWith label value ((name, old) :: done)
      = (mergedWith label value done).map ((name, old) :: ·) := by
  have hnew : newFields ((name, old) :: done) [(label, value)]
      = newFields done [(label, value)] := by
    have hlookup : lookup? label ((name, old) :: done) = lookup? label done := by
      simp [lookup?, hname]
    rw [newFields, newFields, List.filter_cons, List.filter_cons, hlookup]
    rfl
  have hnone : lookup? name [(label, value)] = none := by
    simp [lookup?, Ne.symm hname]
  rw [mergedWith, mergedWith, unifyFields, hnone, hnew]
  cases unifyFields "" done [(label, value)] <;> rfl

/-- A field is put where the struct has a common value with the struct of the field alone, and both are
the same. -/
theorem putField_eq_ok_iff (hdone : (done.map Prod.fst).Nodup) :
    putField label value done = .ok merged ↔
      unify (.struct done) (.struct [(label, value)]) = .ok (.struct merged) := by
  have hunify : unify (.struct done) (.struct [(label, value)]) = .ok (.struct merged) ↔
      mergedWith label value done = .ok merged := by
    rw [unify, Value.unifyAt_struct, mergedWith, map_eq_ok_iff, map_eq_ok_iff]
    simp
  rw [hunify]
  clear hunify
  induction done generalizing merged with
  | nil => simp [putField, mergedWith, unifyFields, newFields, lookup?, Except.map]
  | cons field done ih =>
      obtain ⟨name, old⟩ := field
      obtain ⟨hnew, hdone⟩ := List.nodup_cons.mp hdone
      by_cases hname : name = label
      · subst hname
        rw [putField_cons_self, mergedWith_cons_self old hnew]
      · rw [putField_cons_of_ne hname, mergedWith_cons_of_ne hname, map_eq_ok_iff, map_eq_ok_iff]
        exact exists_congr fun rest => and_congr_left fun _ => ih hdone

/-- The struct of one field. -/
def single (field : String × Value) : Value :=
  .struct [field]

/-- Fields are put one after the other where their structs have a common value, one after the other. -/
theorem foldlM_putField_eq_ok_iff {r : Value} (hdone : (done.map Prod.fst).Nodup) :
    (∃ merged, fields.foldlM (fun done field => putField field.1 field.2 done) done = .ok merged ∧
        .struct merged = r) ↔
      (fields.map single).foldlM unify (.struct done) = .ok r := by
  induction fields generalizing done with
  | nil =>
      constructor
      · rintro ⟨_, hmerged, rfl⟩
        exact congrArg (fun done => Except.ok (Value.struct done)) (Except.ok.inj hmerged)
      · intro h
        exact ⟨done, rfl, Except.ok.inj h⟩
  | cons field fields ih =>
      obtain ⟨label, value⟩ := field
      rw [List.map_cons, List.foldlM_cons, List.foldlM_cons, bind_eq_ok_iff]
      constructor
      · rintro ⟨merged, hmerged, hr⟩
        obtain ⟨next, hnext, hrest⟩ := bind_eq_ok_iff.mp hmerged
        have hnodup := nodup_labels_putField hdone hnext
        exact ⟨_, (putField_eq_ok_iff hdone).mp hnext, (ih hnodup).mp ⟨merged, hrest, hr⟩⟩
      · rintro ⟨found, hfound, hrest⟩
        obtain ⟨next, rfl, -⟩ := Value.unify_struct_eq_ok hfound
        have hnext := (putField_eq_ok_iff hdone).mpr hfound
        have hnodup := nodup_labels_putField hdone hnext
        obtain ⟨merged, hmerged, hr⟩ := (ih hnodup).mpr hrest
        exact ⟨merged, bind_eq_ok_iff.mpr ⟨next, hnext, hmerged⟩, hr⟩

theorem structOf_eq_ok_iff {r : Value} :
    structOf fields = .ok r ↔ (fields.map single).foldlM unify (.struct []) = .ok r := by
  rw [structOf, map_eq_ok_iff, ← @foldlM_putField_eq_ok_iff [] fields r List.nodup_nil]

/-- The empty struct adds nothing to a row of structs. -/
theorem unifyAll_single (hne : fields ≠ []) :
    unifyAll (fields.map single) = (fields.map single).foldlM unify (.struct []) := by
  cases fields with
  | nil => exact absurd rfl hne
  | cons field fields =>
      have hfirst : unify (.struct []) (single field) = .ok (single field) := by
        simp [unify, single, Value.unifyAt_struct, unifyFields, newFields, lookup?, Except.map]
      rw [List.map_cons, Value.unifyAll_cons, List.foldlM_cons, hfirst]
      rfl

end Fields

section Texts

variable {scope : Scope} {fields : List (List Label × Tree)}

theorem eval_row_eq_ok_iff {parts : List Tree} {v : Value} :
    Tree.eval scope (.row parts) = .ok v ↔
      ∃ values, evalAll scope parts = .ok values ∧ unifyAll values = .ok v := by
  rw [Tree.row.eq_def]
  split
  · rename_i t
    simp only [evalAll_eq_ok_iff]
    constructor
    · intro h
      exact ⟨[v], .cons h .nil, Value.unifyAll_cons v []⟩
    · rintro ⟨_, ⟨⟩ | ⟨hw, ⟨⟩⟩, hunify⟩
      rw [hw]
      exact congrArg _ (Except.ok.inj ((Value.unifyAll_cons _ []).symm.trans hunify))
  · exact eval_all_eq_ok_iff

/-- A field with a label has one entry, in front of the entries of the fields behind it. -/
theorem evalFields_cons_eq_ok_iff {field : List Label × Tree} (hlabels : field.1 ≠ [])
    {entries : List (String × Value)} :
    evalFields scope (field :: fields) = .ok entries ↔
      ∃ entry rest, evalFields scope [field] = .ok [entry] ∧ evalFields scope fields = .ok rest ∧
        entry :: rest = entries := by
  obtain ⟨labels, t⟩ := field
  obtain ⟨label, labels, rfl⟩ := List.exists_cons_of_ne_nil hlabels
  simp only [evalFields, List.mapM_cons, bind_eq_ok_iff]
  constructor
  · rintro ⟨names, ⟨name, hname, inner, hinner, hnames⟩, v, hv, rest, hrest, h⟩
    obtain rfl := Except.ok.inj hnames
    exact ⟨_, rest, ⟨_, ⟨name, hname, inner, hinner, hnames⟩, v, hv, [], rfl, rfl⟩, hrest,
      Except.ok.inj h⟩
  · rintro ⟨entry, rest, ⟨names, ⟨name, hname, inner, hinner, hnames⟩, v, hv, _, hnil, hentry⟩,
      hrest, rfl⟩
    obtain rfl := Except.ok.inj hnames
    obtain rfl := Except.ok.inj hnil
    obtain ⟨rfl, -⟩ := List.cons.inj (Except.ok.inj hentry)
    exact ⟨_, ⟨name, hname, inner, hinner, hnames⟩, v, hv, rest, hrest, rfl⟩

/-- The value of a struct of one field is the struct of its entry. -/
theorem eval_struct_singleton {field : List Label × Tree} (hlabels : field.1 ≠ []) {v : Value} :
    (Tree.struct [field]).eval scope = .ok v ↔
      ∃ entry, evalFields scope [field] = .ok [entry] ∧ single entry = v := by
  have hstruct (entry : String × Value) : structOf [entry] = .ok (single entry) :=
    structOf_eq (List.nodup_singleton _)
  rw [Tree.eval, bind_eq_ok_iff]
  constructor
  · rintro ⟨entries, hentries, hv⟩
    obtain ⟨entry, rest, hentry, hrest, rfl⟩ := (evalFields_cons_eq_ok_iff hlabels).mp hentries
    rw [evalFields] at hrest
    obtain rfl := Except.ok.inj hrest
    rw [hstruct] at hv
    exact ⟨entry, hentry, Except.ok.inj hv⟩
  · rintro ⟨entry, hentry, rfl⟩
    exact ⟨[entry], hentry, hstruct entry⟩

/-- The structs of the fields have the structs of the entries as their values. -/
theorem evalAll_singles_eq_ok_iff (hlabels : ∀ f ∈ fields, f.1 ≠ []) {values : List Value} :
    evalAll scope (fields.map fun f => .struct [f]) = .ok values ↔
      ∃ entries, evalFields scope fields = .ok entries ∧ entries.map single = values := by
  induction fields generalizing values with
  | nil => simp [evalAll, evalFields, eq_comm]
  | cons field fields ih =>
      obtain ⟨hfield, hfields⟩ := List.forall_mem_cons.mp hlabels
      rw [List.map_cons, evalAll, bind_eq_ok_iff]
      constructor
      · rintro ⟨v, hv, h⟩
        obtain ⟨rest, hrest, h⟩ := bind_eq_ok_iff.mp h
        obtain ⟨entry, hentry, rfl⟩ := (eval_struct_singleton hfield).mp hv
        obtain ⟨entries, hentries, rfl⟩ := (ih hfields).mp hrest
        refine ⟨entry :: entries, ?_, Except.ok.inj h⟩
        exact (evalFields_cons_eq_ok_iff hfield).mpr ⟨entry, entries, hentry, hentries, rfl⟩
      · rintro ⟨_, h, rfl⟩
        obtain ⟨entry, rest, hentry, hrest, rfl⟩ := (evalFields_cons_eq_ok_iff hfield).mp h
        refine ⟨single entry, (eval_struct_singleton hfield).mpr ⟨entry, hentry, rfl⟩, ?_⟩
        exact bind_eq_ok_iff.mpr ⟨_, (ih hfields).mpr ⟨rest, hrest, rfl⟩, rfl⟩

theorem evalFields_ne_nil {entries : List (String × Value)} (hne : fields ≠ [])
    (hlabels : ∀ f ∈ fields, f.1 ≠ []) (h : evalFields scope fields = .ok entries) :
    entries ≠ [] := by
  obtain ⟨field, fields, rfl⟩ := List.exists_cons_of_ne_nil hne
  obtain ⟨entry, rest, -, -, rfl⟩ :=
    (evalFields_cons_eq_ok_iff (List.forall_mem_cons.mp hlabels).1).mp h
  exact List.cons_ne_nil entry rest

/-- A conjunction of structs of one field each has the value of the struct of all fields. -/
theorem eval_row_singles (hne : fields ≠ []) (hlabels : ∀ f ∈ fields, f.1 ≠ []) {v : Value} :
    Tree.eval scope (.row (fields.map fun f => .struct [f])) = .ok v ↔
      (Tree.struct fields).eval scope = .ok v := by
  rw [eval_row_eq_ok_iff, Tree.eval, bind_eq_ok_iff]
  constructor
  · rintro ⟨_, hvalues, hunify⟩
    obtain ⟨entries, hentries, rfl⟩ := (evalAll_singles_eq_ok_iff hlabels).mp hvalues
    rw [unifyAll_single (evalFields_ne_nil hne hlabels hentries), ← structOf_eq_ok_iff] at hunify
    exact ⟨entries, hentries, hunify⟩
  · rintro ⟨entries, hentries, hv⟩
    refine ⟨_, (evalAll_singles_eq_ok_iff hlabels).mpr ⟨entries, hentries, rfl⟩, ?_⟩
    rwa [unifyAll_single (evalFields_ne_nil hne hlabels hentries), ← structOf_eq_ok_iff]

end Texts

/-- **A struct literal is the conjunction of its fields.** Fields are collected to a struct where the
structs of one field each, unified from left to right, have a common value, and to the same struct.
Hence a text of fields in braces, a text of the same fields without braces and one that joins a struct
for each of them by ampersands have the same value, or have none. -/
theorem fields_meet :
    (∀ (fields : List (String × Value)) (r : Value), structOf fields = .ok r ↔
      (fields.map fun f => Value.struct [f]).foldlM unify (.struct []) = .ok r) ∧
      ∀ (scope : Scope) (source : Option String) (fields : List (List Label × Tree))
        (braced bare joined : String), parse braced = .ok (.value (.struct fields)) →
        parse bare = .ok (.fields fields) →
        parse joined = .ok (.value (.row (fields.map fun f => .struct [f]))) → ∀ v : Value,
          (Language.compile scope source bare = .ok v ↔
            Language.compile scope source braced = .ok v) ∧
          (Language.compile scope source joined = .ok v ↔
            Language.compile scope source braced = .ok v) := by
  refine ⟨fun fields r => structOf_eq_ok_iff, ?_⟩
  intro scope source fields braced bare joined hbraced hbare hjoined v
  obtain ⟨hne, hlabelled, -⟩ : Document.Grammatical (.fields fields) := grammatical_parse hbare
  have hlabels : ∀ f ∈ fields, f.1 ≠ [] := fun f hf => (hlabelled f hf).1
  rw [Language.compile_eq_ok_iff, Language.compile_eq_ok_iff, Language.compile_eq_ok_iff,
    compile_eq_ok_iff hbraced, compile_eq_ok_iff hbare, compile_eq_ok_iff hjoined]
  exact ⟨Iff.rfl, eval_row_singles hne hlabels⟩

theorem fields_meet_repeated_label :
    let fields : List (List Label × Tree) :=
      [([.name "n"], .ref "int"), ([.name "at", .name "id"], .int "7"), ([.name "n"], .int "3")]
    let braced := "\x7b n : int , at : id : 7 , n : 3 \x7d"
    let bare := "n : int , at : id : 7 , n : 3"
    let joined := "\x7b n : int \x7d & \x7b at : id : 7 \x7d & \x7b n : 3 \x7d"
    let v : Value := .struct [("n", .atom (.int 3)), ("at", .struct [("id", .atom (.int 7))])]
    parse braced = .ok (.value (.struct fields)) ∧ parse bare = .ok (.fields fields) ∧
      parse joined = .ok (.value (.row (fields.map fun f => .struct [f]))) ∧
      Language.compile [] none bare = .ok v ∧ Language.compile [] none joined = .ok v := by
  intro fields braced bare joined v
  have hfields : ∀ f ∈ fields,
      (f.1 ≠ [] ∧ ∀ label ∈ f.1, label.Grammatical) ∧ f.2.Grammatical := by
    refine List.forall_mem_cons.mpr ⟨⟨⟨List.cons_ne_nil _ _, ?_⟩, .ref (by decide)⟩,
      List.forall_mem_cons.mpr ⟨⟨⟨List.cons_ne_nil _ _, ?_⟩, .int (by decide)⟩,
        List.forall_mem_singleton.mpr ⟨⟨List.cons_ne_nil _ _, ?_⟩, .int (by decide)⟩⟩⟩
    · exact List.forall_mem_singleton.mpr (Label.grammatical_name.mpr (by decide))
    · exact List.forall_mem_cons.mpr ⟨Label.grammatical_name.mpr (by decide),
        List.forall_mem_singleton.mpr (Label.grammatical_name.mpr (by decide))⟩
    · exact List.forall_mem_singleton.mpr (Label.grammatical_name.mpr (by decide))
  have hlabelled : Labelled fields := fun f hf => (hfields f hf).1
  have htrees : ∀ f ∈ fields, f.2.Grammatical := fun f hf => (hfields f hf).2
  have hbraced : parse braced = .ok (.value (.struct fields)) := by
    have hgrammatical : Document.Grammatical (.value (.struct fields)) := .struct hlabelled htrees
    exact hgrammatical.parse (written_of_isWritten (by decide +kernel))
  have hbare : parse bare = .ok (.fields fields) := by
    have hgrammatical : Document.Grammatical (.fields fields) :=
      ⟨List.cons_ne_nil _ _, hlabelled, htrees⟩
    exact hgrammatical.parse (written_of_isWritten (by decide +kernel))
  have hjoined : parse joined = .ok (.value (.row (fields.map fun f => .struct [f]))) := by
    have hsingles : ∀ t ∈ fields.map (fun f => Tree.struct [f]), t.Grammatical := by
      refine List.forall_mem_map.mpr fun f hf => ?_
      exact .struct (List.forall_mem_singleton.mpr (hlabelled f hf))
        (List.forall_mem_singleton.mpr (htrees f hf))
    have hgrammatical : Document.Grammatical (.value (.row (fields.map fun f => .struct [f]))) :=
      .all (by decide) hsingles
    exact hgrammatical.parse (written_of_isWritten (by decide +kernel))
  have hv : Language.compile [] none braced = .ok v :=
    Language.compile_eq_ok_iff.mpr ((compile_eq_ok_iff hbraced).mpr rfl)
  have hmeet := fields_meet.2 [] none fields braced bare joined hbraced hbare hjoined v
  exact ⟨hbraced, hbare, hjoined, hmeet.1.mpr hv, hmeet.2.mpr hv⟩

end Expr

end ApiProbe
