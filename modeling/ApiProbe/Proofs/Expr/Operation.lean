import ApiProbe.Expr.Operation
import ApiProbe.Proofs.Expr.Tree
import ApiProbe.Proofs.Number.Rounding
import ApiProbe.Proofs.Unify.Preservation

/-!
# Operations on well-formed values

Every operation of expressions that has a result on well-formed values has a well-formed one.
-/

namespace ApiProbe

/-- A float is a number of the format; other atoms are nothing else than what they are. -/
def Atom.InFormat : Atom → Prop
  | .float x => x.InFormat
  | _ => True

theorem Atom.WellFormed.inFormat {a : Atom} (h : a.WellFormed) : a.InFormat := by
  cases a with
  | float x => exact fun _ => h
  | _ => exact trivial

theorem Atom.wellFormed_of_isFinite {x : Binary64} (h : x.InFormat) (hfinite : x.isFinite = true) :
    (Atom.float x).WellFormed :=
  h hfinite

namespace Expr

theorem refuse_ne_ok {α : Type} {refusal : Refusal} {a : α} : refuse refusal ≠ .ok a := by
  unfold refuse
  split <;> exact nofun

theorem refuse_eq_refused {α : Type} {refusal refusal' : Refusal}
    (h : (refuse refusal : Result α) = .error (.refused refusal')) : refusal.printable = true := by
  rw [refuse] at h
  split at h
  · assumption
  · cases h

section Atoms

variable {a b : Atom} {v : Value}

theorem wellFormed_number (ha : a.InFormat) (h : number a = .ok v) : v.WellFormed := by
  cases a with
  | float x =>
      rw [number] at h
      split at h
      · rename_i hfinite
        obtain rfl := Except.ok.inj h
        exact .atom (Atom.wellFormed_of_isFinite ha hfinite)
      · exact absurd h refuse_ne_ok
  | _ =>
      obtain rfl := Except.ok.inj h
      exact .atom trivial

theorem wellFormed_intOf {digits : String} (h : intOf digits = .ok v) : v.WellFormed := by
  unfold intOf at h
  split at h
  · obtain rfl := Except.ok.inj h
    exact .atom trivial
  · cases h
  · cases h

theorem wellFormed_floatOf {digits : String} (h : floatOf digits = .ok v) : v.WellFormed := by
  refine wellFormed_number ?_ h
  cases hread : Numeral.readBinary64? digits with
  | none => exact nofun
  | some x => exact Numeral.readBinary64?_inFormat hread

theorem concrete_eq_ok {sign : String} (h : concrete sign v = .ok a) : v = .atom a := by
  cases v with
  | atom b =>
      obtain rfl := Except.ok.inj h
      rfl
  | _ => exact absurd h refuse_ne_ok

theorem wellFormed_concrete {sign : String} (hv : v.WellFormed) (h : concrete sign v = .ok a) :
    a.WellFormed := by
  rwa [concrete_eq_ok h, Value.wellFormed_atom] at hv

theorem wellFormed_negate {r : Value} (hv : v.WellFormed) (h : negate v = .ok r) :
    r.WellFormed := by
  obtain ⟨a, ha, h⟩ := bind_eq_ok_iff.mp h
  have hatom := wellFormed_concrete hv ha
  cases a with
  | int n =>
      obtain rfl := Except.ok.inj h
      exact .atom trivial
  | float x => exact wellFormed_number (a := .float x.neg) (Binary64.neg_inFormat hatom.inFormat) h
  | _ => exact absurd h refuse_ne_ok

theorem wellFormed_complement {r : Value} (h : complement v = .ok r) : r.WellFormed := by
  obtain ⟨a, _, h⟩ := bind_eq_ok_iff.mp h
  cases a with
  | bool b =>
      obtain rfl := Except.ok.inj h
      exact .atom trivial
  | _ => exact absurd h refuse_ne_ok

theorem inFormat_onFloats (op : Operator) (x y : Binary64) :
    (Atom.Operator.onFloats x y op).InFormat := by
  cases op with
  | add => exact Binary64.add_inFormat x y
  | sub => exact Binary64.sub_inFormat x y
  | mul => exact Binary64.mul_inFormat x y
  | div => exact Binary64.div_inFormat x y

theorem inFormat_onInts {op : Operator} {m n : Int} (hzero : ¬ (op = .div ∧ n = 0))
    (h : Atom.Operator.onInts m n op = .ok a) : a.InFormat := by
  cases op with
  | div =>
      have hn : n ≠ 0 := fun hn => hzero ⟨rfl, hn⟩
      obtain ⟨x, hx, rfl⟩ := map_eq_ok_iff.mp h
      rw [Atom.divideInts] at hx
      split at hx
      · obtain rfl := Except.ok.inj hx
        exact Binary64.ofQuotient_inFormat _ _ (Int.natAbs_pos.mpr hn)
      · cases hx
  | _ =>
      obtain rfl := Except.ok.inj h
      exact trivial

theorem inFormat_calculate {op : Operator} {result : Except Fault Atom} {c : Atom}
    (hzero : ¬ (op = .div ∧ b.isZero = true)) (h : a.calculate op b = some result)
    (hresult : result = .ok c) : c.InFormat := by
  subst hresult
  rw [Atom.calculate.eq_def] at h
  split at h
  · rename_i m n
    refine inFormat_onInts ?_ (Option.some.inj h)
    rintro ⟨hop, rfl⟩
    exact hzero ⟨hop, rfl⟩
  · obtain ⟨x, _, rfl⟩ := map_eq_ok_iff.mp (Option.some.inj h)
    exact inFormat_onFloats _ _ _
  · obtain ⟨y, _, rfl⟩ := map_eq_ok_iff.mp (Option.some.inj h)
    exact inFormat_onFloats _ _ _
  · obtain rfl := Except.ok.inj (Option.some.inj h)
    exact inFormat_onFloats _ _ _
  · cases h

theorem wellFormed_calculate {op : Operator} (h : calculate op a b = .ok v) : v.WellFormed := by
  rw [calculate.eq_def] at h
  split at h
  · obtain rfl := Except.ok.inj h
    exact .atom trivial
  · split at h
    · exact absurd h refuse_ne_ok
    · rename_i result hresult
      split at h
      · exact absurd h refuse_ne_ok
      · rename_i hzero
        obtain ⟨c, hc, hnumber⟩ := bind_eq_ok_iff.mp h
        refine wellFormed_number (inFormat_calculate ?_ hresult ?_) hnumber
        · simpa using hzero
        · cases result with
          | error fault => cases hc
          | ok c' => exact congrArg Except.ok (Except.ok.inj hc)

end Atoms

section Selection

variable {v : Value}

theorem wellFormed_resolve {scope : List (String × Value)} {name : String}
    (hscope : ∀ f ∈ scope, f.2.WellFormed) (h : resolve scope name = .ok v) : v.WellFormed := by
  have hbuiltins : ∀ f ∈ builtins, f.2.WellFormed := by
    simp [builtins, Value.ofKind, Constraint.wellFormed_iff, Atom.WellFormed]
  unfold resolve at h
  split at h
  · rename_i found hfound
    obtain rfl := Except.ok.inj h
    rcases Option.or_eq_some_iff.mp hfound with hown | ⟨_, hbuiltin⟩
    · exact hscope _ (Value.mem_of_lookup? hown)
    · exact hbuiltins _ (Value.mem_of_lookup? hbuiltin)
  · exact absurd h refuse_ne_ok

theorem wellFormed_itemAt {items : List Value} {tail : Option Value} {i : Int}
    (hlist : (Value.list items tail).WellFormed) (h : itemAt items tail i = .ok v) :
    v.WellFormed := by
  rw [Value.wellFormed_list] at hlist
  unfold itemAt at h
  split at h
  · exact absurd h refuse_ne_ok
  · split at h
    · rename_i found hfound
      obtain rfl := Except.ok.inj h
      have hmem : found ∈ items ∨ found ∈ tail := Value.mem_of_itemAt? hfound
      exact hmem.elim (hlist.1 found) (hlist.2 found)
    · exact absurd h refuse_ne_ok

theorem wellFormed_select {target : Value} {name : String} (htarget : target.WellFormed)
    (h : select target name = .ok v) : v.WellFormed := by
  rw [select.eq_def] at h
  split at h
  · split at h
    · unfold selectIndex at h
      split at h
      · exact wellFormed_itemAt htarget h
      · cases h
      · cases h
    · exact absurd h refuse_ne_ok
  · split at h
    · rename_i hfound
      obtain rfl := Except.ok.inj h
      exact (Value.wellFormed_struct.mp htarget).2 _ (Value.mem_of_lookup? hfound)
    · exact absurd h refuse_ne_ok
  · exact absurd h refuse_ne_ok

theorem wellFormed_index {target key : Value} (htarget : target.WellFormed)
    (h : index target key = .ok v) : v.WellFormed := by
  rw [index.eq_def] at h
  split at h
  · exact wellFormed_itemAt htarget h
  · exact wellFormed_select htarget h
  · exact absurd h refuse_ne_ok
  · exact absurd h refuse_ne_ok

end Selection

section Operators

variable {left right v : Value}

theorem wellFormed_arith {op : Operator} (hleft : left.WellFormed) (hright : right.WellFormed)
    (h : arith op left right = .ok v) : v.WellFormed := by
  rw [arith.eq_def] at h
  split at h
  · obtain rfl := Except.ok.inj h
    rw [Value.wellFormed_list] at hleft hright ⊢
    refine ⟨fun x hx => ?_, nofun⟩
    exact (List.mem_append.mp hx).elim (hleft.1 x) (hright.1 x)
  · exact absurd h refuse_ne_ok
  · obtain ⟨a, _, h⟩ := bind_eq_ok_iff.mp h
    obtain ⟨b, _, h⟩ := bind_eq_ok_iff.mp h
    exact wellFormed_calculate h

theorem wellFormed_compare {test : Test} (h : compare test left right = .ok v) :
    v.WellFormed := by
  obtain ⟨_, _, h⟩ := bind_eq_ok_iff.mp h
  obtain ⟨_, _, h⟩ := bind_eq_ok_iff.mp h
  obtain ⟨_, _, h⟩ := bind_eq_ok_iff.mp h
  obtain rfl := Except.ok.inj h
  exact .atom trivial

theorem isOk_of_checkPattern {pattern : String} (h : checkPattern pattern = .ok ()) :
    (Pattern.compile pattern).isOk = true := by
  rw [checkPattern] at h
  split at h
  · rename_i hcompile
    rw [hcompile]
    rfl
  · split at h
    · exact absurd h refuse_ne_ok
    all_goals cases h

theorem wellFormed_boundBy {test : Test} {a : Atom} {b : Bound} (ha : a.WellFormed)
    (h : boundBy test a = .ok b) : b.WellFormed := by
  cases test with
  | eq => exact absurd h refuse_ne_ok
  | ne =>
      obtain rfl := Except.ok.inj h
      exact ha
  | order o =>
      rw [boundBy] at h
      split at h
      · rename_i hlimit
        obtain rfl := Except.ok.inj h
        exact ⟨ha, by simpa using hlimit⟩
      · exact absurd h refuse_ne_ok
  | pattern wanted =>
      cases a with
      | string source =>
          obtain ⟨_, hcheck, h⟩ := bind_eq_ok_iff.mp h
          obtain rfl := Except.ok.inj h
          exact isOk_of_checkPattern hcheck
      | _ => exact absurd h refuse_ne_ok

theorem wellFormed_ofBound {b : Bound} (h : b.WellFormed) : (Value.ofBound b).WellFormed := by
  rw [Value.ofBound, Value.wellFormed_constraint]
  refine ⟨Or.inr (List.cons_ne_nil _ _), ?_, List.pairwise_singleton _ _, nofun⟩
  intro bound hbound
  exact List.mem_singleton.mp hbound ▸ h

theorem wellFormed_bound {test : Test} {limit : Value} (hlimit : limit.WellFormed)
    (h : bound test limit = .ok v) : v.WellFormed := by
  rw [bound.eq_def] at h
  split at h
  · exact absurd h refuse_ne_ok
  · obtain ⟨a, ha, h⟩ := bind_eq_ok_iff.mp h
    obtain ⟨b, hb, h⟩ := bind_eq_ok_iff.mp h
    obtain rfl := Except.ok.inj h
    exact wellFormed_ofBound (wellFormed_boundBy (wellFormed_concrete hlimit ha) hb)

theorem wellFormed_meet {first : Value} {rest : List Value} (hfirst : first.WellFormed)
    (hrest : ∀ x ∈ rest, x.WellFormed) (h : meet first rest = .ok v) : v.WellFormed := by
  refine foldlM_invariant (P := Value.WellFormed) hfirst (fun a ha b hb c hc => ?_) h
  split at hc
  · rename_i hunify
    obtain rfl := Except.ok.inj hc
    exact Value.wellFormed_unify ha (hrest b hb) hunify
  · exact absurd hc refuse_ne_ok
  · cases hc

theorem wellFormed_join {values : List Value} (hne : values ≠ [])
    (h : ∀ x ∈ values, x.WellFormed) : (join values).WellFormed := by
  refine Value.wellFormed_ofOptions ?_ ?_ ?_
  · obtain ⟨x, hx⟩ := List.exists_mem_of_ne_nil _ hne
    obtain ⟨y, hy⟩ := List.exists_mem_of_ne_nil _ (h x hx).options_ne_nil
    exact List.ne_nil_of_mem (List.mem_flatMap.mpr ⟨x, hx, hy⟩)
  · intro y hy
    obtain ⟨x, hx, hyx⟩ := List.mem_flatMap.mp hy
    exact (h x hx).options y hyx
  · intro y hy
    obtain ⟨x, hx, hyx⟩ := List.mem_flatMap.mp hy
    exact (h x hx).isAny_of_mem_options y hyx

end Operators

section Structs

variable {label : String} {value v : Value} {fields merged : List (String × Value)}

/-- A label that has a value already keeps its place; another one is added at the end. -/
theorem labels_putField (h : putField label value fields = .ok merged) :
    merged.map Prod.fst =
      if label ∈ fields.map Prod.fst then fields.map Prod.fst
      else fields.map Prod.fst ++ [label] := by
  induction fields generalizing merged with
  | nil =>
      obtain rfl := Except.ok.inj h
      rfl
  | cons field fields ih =>
      obtain ⟨name, old⟩ := field
      unfold putField at h
      by_cases hname : name = label
      · subst hname
        rw [if_pos (beq_self_eq_true name)] at h
        split at h
        · obtain rfl := Except.ok.inj h
          simp
        · exact absurd h refuse_ne_ok
        · cases h
      · rw [if_neg (by simpa using hname)] at h
        obtain ⟨rest, hrest, rfl⟩ := map_eq_ok_iff.mp h
        rw [List.map_cons, ih hrest, List.map_cons]
        by_cases hmem : label ∈ fields.map Prod.fst
        · rw [if_pos hmem, if_pos (List.mem_cons_of_mem _ hmem)]
        · have hnew : label ∉ name :: fields.map Prod.fst := by
            rw [List.mem_cons, not_or]
            exact ⟨Ne.symm hname, hmem⟩
          rw [if_neg hmem, if_neg hnew, List.cons_append]

theorem nodup_labels_putField (hfields : (fields.map Prod.fst).Nodup)
    (h : putField label value fields = .ok merged) : (merged.map Prod.fst).Nodup := by
  rw [labels_putField h]
  split
  · exact hfields
  · rename_i hnew
    apply List.Nodup.append hfields (List.nodup_singleton label)
    exact List.disjoint_singleton.mpr hnew

theorem wellFormed_putField (hvalue : value.WellFormed)
    (hfields : (Value.struct fields).WellFormed) (h : putField label value fields = .ok merged) :
    (Value.struct merged).WellFormed := by
  rw [Value.wellFormed_struct] at hfields ⊢
  refine ⟨nodup_labels_putField hfields.1 h, ?_⟩
  · replace hfields := hfields.2
    induction fields generalizing merged with
    | nil =>
        obtain rfl := Except.ok.inj h
        simpa using hvalue
    | cons field fields ih =>
        obtain ⟨name, old⟩ := field
        rw [List.forall_mem_cons] at hfields
        unfold putField at h
        split at h
        · split at h
          · rename_i found hunify
            obtain rfl := Except.ok.inj h
            rw [List.forall_mem_cons]
            exact ⟨Value.wellFormed_unify hfields.1 hvalue hunify, hfields.2⟩
          · exact absurd h refuse_ne_ok
          · cases h
        · obtain ⟨rest, hrest, rfl⟩ := map_eq_ok_iff.mp h
          rw [List.forall_mem_cons]
          exact ⟨hfields.1, ih hrest hfields.2⟩

theorem wellFormed_structOf (hfields : ∀ f ∈ fields, f.2.WellFormed)
    (h : structOf fields = .ok v) : v.WellFormed := by
  obtain ⟨merged, hmerged, rfl⟩ := map_eq_ok_iff.mp h
  refine foldlM_invariant (P := fun done => (Value.struct done).WellFormed) (by simp) ?_ hmerged
  intro done hdone f hf next hnext
  exact wellFormed_putField (hfields f hf) hdone hnext

theorem wellFormed_nest {labels : List String} (hvalue : value.WellFormed) :
    (nest labels value).WellFormed := by
  induction labels with
  | nil => exact hvalue
  | cons label labels ih =>
      have hnest : nest (label :: labels) value = .struct [(label, nest labels value)] := rfl
      rw [hnest, Value.wellFormed_struct]
      exact ⟨List.nodup_singleton label, by simpa using ih⟩

theorem wellFormed_listOf {items : List (Item Value)}
    (hitems : ∀ item ∈ items, ∀ x ∈ item.value?, x.WellFormed) (h : listOf items = .ok v) :
    v.WellFormed := by
  induction items generalizing v with
  | nil =>
      obtain rfl := Except.ok.inj h
      simp
  | cons item items ih =>
      rw [List.forall_mem_cons] at hitems
      cases item with
      | value x =>
          obtain ⟨rest, hrest, rfl⟩ := map_eq_ok_iff.mp h
          have hlist := ih hitems.2 hrest
          split
          · rw [Value.wellFormed_list] at hlist ⊢
            refine ⟨?_, hlist.2⟩
            rw [List.forall_mem_cons]
            exact ⟨hitems.1 x rfl, hlist.1⟩
          · exact hlist
      | rest =>
          cases items with
          | nil =>
              obtain rfl := Except.ok.inj h
              simp
          | cons => exact absurd h refuse_ne_ok
      | restOf x =>
          cases items with
          | nil =>
              obtain rfl := Except.ok.inj h
              simpa using hitems.1 x rfl
          | cons => exact absurd h refuse_ne_ok

end Structs

end Expr

end ApiProbe
