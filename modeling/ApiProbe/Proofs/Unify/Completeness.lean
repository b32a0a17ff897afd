import ApiProbe.Proofs.Unify.Equations
import ApiProbe.Proofs.Unify.Merge
import ApiProbe.Proofs.Value.Concrete

/-!
# Completeness of matching

Plain data and a pattern with a common instance have no conflict. All that can keep them from being
unified is an option that the data do not match: a conflict with it that cannot be put in words fails
the whole alternative. No conflict lacks words where every whole number is within the digit limit.
-/

namespace ApiProbe

namespace Unified

variable {α β : Type} {P : α → Prop} {Q : β → Prop}

/-- There is a value with the property, unless a conflict cannot be put in words. -/
def Yields (P : α → Prop) (r : Unified α) : Prop :=
  r = .error .unprintable ∨ ∃ x, r = .ok x ∧ P x

theorem Yields.both {r : Unified α} {s : Unified β} (hr : Yields P r) (hs : Yields Q s) :
    Yields (fun p : α × β => P p.1 ∧ Q p.2) (both r s) := by
  rcases hr with rfl | ⟨x, rfl, hx⟩
  · rcases hs with rfl | ⟨y, rfl, _⟩ <;> exact Or.inl rfl
  · rcases hs with rfl | ⟨y, rfl, hy⟩
    · exact Or.inl rfl
    · exact Or.inr ⟨(x, y), rfl, hx, hy⟩

theorem Yields.map {r : Unified α} {f : α → β} (hr : Yields P r) (hf : ∀ x, P x → Q (f x)) :
    Yields Q (r.map f) := by
  rcases hr with rfl | ⟨x, rfl, hx⟩
  · exact Or.inl rfl
  · exact Or.inr ⟨f x, rfl, hf x hx⟩

/-- All results are values with their property, where each of them is one. -/
theorem Yields.all {rs : List (Unified α)} {R : Nat → α → Prop}
    (h : ∀ i r, rs[i]? = some r → Yields (R i) r) :
    Yields (fun xs => xs.length = rs.length ∧ ∀ i x, xs[i]? = some x → R i x) (all rs) := by
  induction rs generalizing R with
  | nil => exact Or.inr ⟨[], rfl, rfl, fun i x hx => by simp at hx⟩
  | cons r rs ih =>
      have hrest := ih (R := fun i => R (i + 1)) fun i s hs => h (i + 1) s hs
      refine ((h 0 r rfl).both hrest).map fun p hp => ⟨?_, fun i x hx => ?_⟩
      · rw [List.length_cons, List.length_cons, hp.2.1]
      · cases i with
        | zero =>
            obtain rfl := Option.some.inj hx
            exact hp.1
        | succ i => exact hp.2.2 i x hx

theorem both_eq_unprintable_iff {r : Unified α} {s : Unified β} :
    both r s = .error .unprintable ↔ r = .error .unprintable ∨ s = .error .unprintable := by
  cases r with
  | ok x => cases s <;> simp [both]
  | error c =>
      cases s with
      | ok y => simp [both]
      | error d => cases c <;> cases d <;> simp [both, Clash.merge]

theorem all_eq_unprintable_iff {rs : List (Unified α)} :
    all rs = .error .unprintable ↔ Except.error Clash.unprintable ∈ rs := by
  induction rs with
  | nil => simp [all]
  | cons r rs ih =>
      rw [all, map_eq_error_iff, both_eq_unprintable_iff, ih, List.mem_cons, eq_comm]

theorem both_ne_unprintable {r : Unified α} {s : Unified β} (hr : r ≠ .error .unprintable)
    (hs : s ≠ .error .unprintable) : both r s ≠ .error .unprintable :=
  fun h => (both_eq_unprintable_iff.mp h).elim hr hs

theorem map_ne_unprintable {r : Unified α} {f : α → β} (h : r ≠ .error .unprintable) :
    r.map f ≠ .error .unprintable :=
  mt map_eq_error_iff.mp h

theorem all_ne_unprintable {rs : List (Unified α)} (h : ∀ r ∈ rs, r ≠ .error .unprintable) :
    all rs ≠ .error .unprintable :=
  fun hall => h _ (all_eq_unprintable_iff.mp hall) rfl

end Unified

namespace Value

/-- Data that two values admit have the shapes of both. -/
theorem shape?_eq_of_admits {v data : Value} {s : Shape} (hs : v.shape? = some s)
    (h : v.Admits data) : data.shape? = some s := by
  cases h <;> simp_all [shape?]

/-! ### No conflict with plain data

Data that both values admit are followed down through their parts. Each shape has one lemma, which assumes
of the parts what is shown of the whole: they yield a value that admits the data, unless a conflict cannot be
put in words. -/

/-- An alternative is found where some pair of options yields what is looked for. -/
theorem yields_choose {path : String} {a b x y e : Value} (hx : x ∈ a.options)
    (hy : y ∈ b.options) (h : Unified.Yields (·.Admits e) (unifyAt path x y)) :
    Unified.Yields (·.Admits e) (choose path a b (pairResults path a b)) := by
  by_cases hwords : Except.error Clash.unprintable ∈ pairResults path a b
  · exact Or.inl (choose_of_unprintable hwords)
  · rcases h with herror | ⟨r, hr, hadmits⟩
    · exact absurd (mem_pairResults.mpr ⟨x, hx, y, hy, herror⟩) hwords
    · have hmem := mem_successes.mpr (mem_pairResults.mpr ⟨x, hx, y, hy, hr⟩)
      refine Or.inr ⟨_, choose_of_some hwords (List.ne_nil_of_mem hmem), ?_⟩
      exact admits_ofOptions.mpr ⟨r, hmem, hadmits⟩

theorem yields_unifyFields {path : String} {fields others entries : List (String × Value)}
    (ih : ∀ f ∈ fields, ∀ g ∈ others, ∀ q x, f.2.Admits x → g.2.Admits x →
      Unified.Yields (·.Admits x) (unifyAt q f.2 g.2))
    (hfields : ∀ f ∈ fields, ∃ x, lookup? f.1 entries = some x ∧ f.2.Admits x)
    (hothers : ∀ g ∈ others, ∃ x, lookup? g.1 entries = some x ∧ g.2.Admits x) :
    Unified.Yields (fun merged : List (String × Value) =>
        ∀ m ∈ merged, ∃ x, lookup? m.1 entries = some x ∧ m.2.Admits x)
      (unifyFields path fields others) := by
  induction fields with
  | nil => exact Or.inr ⟨[], by rw [unifyFields], List.forall_mem_nil _⟩
  | cons field fields ihFields =>
      obtain ⟨label, v⟩ := field
      rw [List.forall_mem_cons] at ih hfields
      obtain ⟨⟨x, hx, hv⟩, hrest⟩ := hfields
      unfold unifyFields
      refine Unified.Yields.map (Unified.Yields.both (P := (·.Admits x)) ?_ (ihFields ih.2 hrest)) ?_
      · split
        · rename_i y hy
          have hmem := mem_of_lookup? hy
          obtain ⟨z, hz, hadmits⟩ := hothers _ hmem
          obtain rfl := Option.some.inj (hx.symm.trans hz)
          exact ih.1 _ hmem _ x hv hadmits
        · exact Or.inr ⟨v, rfl, hv⟩
      · intro p hp
        rw [List.forall_mem_cons]
        exact ⟨⟨x, hx, hp.1⟩, hp.2⟩

theorem length_eq_of_admits_closed {items elements : List Value}
    (h : (Value.list items none).Admits (.list elements none)) :
    elements.length = items.length := by
  cases h with
  | list _ hclosed _ _ => exact hclosed rfl

theorem lengthsClash_eq_false {items others elements : List Value} {rest : Option Value}
    (hitems : (Value.list items none).Admits (.list elements none))
    (hothers : (Value.list others rest).Admits (.list elements none)) :
    lengthsClash items.length others.length (none : Option Value).isSome rest.isSome = false := by
  have hclosed := length_eq_of_admits_closed hitems
  cases rest with
  | none =>
      have hother := length_eq_of_admits_closed hothers
      simp [lengthsClash, ← hclosed, hother]
  | some y =>
      obtain ⟨_, heq, hlength, _⟩ := admits_list.mp hothers
      obtain ⟨rfl, _⟩ := list.inj heq
      simp [lengthsClash]
      omega

/-- A closed list and any list are unified where they have an instance in common. -/
theorem yields_unifyAt_list {path : String} {items others : List Value} {rest : Option Value}
    {e : Value}
    (ih : ∀ x ∈ items, ∀ y, y ∈ others ∨ y ∈ rest → ∀ q d, x.Admits d → y.Admits d →
      Unified.Yields (·.Admits d) (unifyAt q x y))
    (hitems : (Value.list items none).Admits e) (hothers : (Value.list others rest).Admits e) :
    Unified.Yields (·.Admits e) (unifyAt path (.list items none) (.list others rest)) := by
  obtain ⟨elements, rfl, hlong, hitem⟩ := admits_list.mp hitems
  have hclash := lengthsClash_eq_false hitems hothers
  obtain ⟨_, heq, hlong', hother⟩ := admits_list.mp hothers
  obtain ⟨rfl, _⟩ := list.inj heq
  have hmax : max items.length others.length = elements.length := by
    have := length_eq_of_admits_closed hitems
    omega
  have hpoint : ∀ (i : Nat) r, (itemResults path 0 (pairUp none rest items others))[i]? = some r →
      Unified.Yields (fun m : Value => ∀ d, elements[i]? = some d → m.Admits d) r := by
    intro i r hr
    rw [getElem?_itemResults] at hr
    obtain ⟨⟨x, y⟩, hpair, rfl⟩ := Option.map_eq_some_iff.mp hr
    obtain ⟨hi, hx, hy⟩ := itemAt?_of_mem_pairUp hclash hpair
    have hget := List.getElem?_eq_getElem (hmax ▸ hi)
    obtain ⟨x', hx', hadmitsx⟩ := hitem i _ hget
    obtain ⟨y', hy', hadmitsy⟩ := hother i _ hget
    obtain rfl := Option.some.inj (hx.symm.trans hx')
    obtain rfl := Option.some.inj (hy.symm.trans hy')
    have hmem : x ∈ items := by simpa using mem_of_itemAt? hx
    rcases ih x hmem y (mem_of_itemAt? hy) _ _ hadmitsx hadmitsy with herror | ⟨m, hm, hadmits⟩
    · exact Or.inl herror
    · refine Or.inr ⟨m, hm, fun d hd => ?_⟩
      rw [hget, Option.some.injEq] at hd
      exact hd ▸ hadmits
  rw [unifyAt_list hclash]
  refine (Unified.Yields.all hpoint).map fun merged ⟨hcount, hmerged⟩ => ?_
  have hlength : merged.length = elements.length := by
    rw [hcount, itemResults, List.length_mapIdx, length_pairUp hclash, hmax]
  refine admits_list.mpr ⟨elements, rfl, hlength.le, fun i d hd => ?_⟩
  have hget := List.getElem?_eq_getElem (hlength ▸ (List.getElem?_eq_some_iff.mp hd).1)
  exact ⟨_, by rw [itemAt?, hget, Option.some_or], hmerged i _ hget d hd⟩

/-- Plain data and a pattern with a common instance are unified at every place, unless a conflict
with an option cannot be put in words. -/
theorem yields_unifyAt {path : String} {d v e : Value} (hconcrete : d.concrete = true)
    (hd : d.Admits e) (hv : v.Admits e) : Unified.Yields (·.Admits e) (unifyAt path d v) := by
  induction d, v using induct₂ generalizing path e with
  | topLeft v => simp [concrete] at hconcrete
  | topRight d => exact Or.inr ⟨d, unifyAt_top_right path d, hd⟩
  | any d v hdtop hvtop hany ih =>
      have hself : d.options = [d] := by
        cases d <;> first | rfl | simp [concrete] at hconcrete
      obtain ⟨y, hy, hadmits⟩ := admits_options.mp hv
      have hmem : d ∈ d.options := by rw [hself]; exact List.mem_singleton_self d
      rw [unifyAt_any path hdtop hvtop hany]
      exact yields_choose hmem hy (ih d hmem y hy hconcrete hd hadmits)
  | shapes d v s t hs ht hne =>
      have hds := shape?_eq_of_admits hs hd
      have hvs := shape?_eq_of_admits ht hv
      rw [hds] at hvs
      exact absurd (Option.some.inj hvs) hne
  | atoms a b =>
      cases hd with
      | atom ha =>
          cases hv with
          | atom hb =>
              rw [unifyAt_atom, if_pos (Atom.same_trans ha (Atom.same_symm hb))]
              exact Or.inr ⟨_, rfl, .atom ha⟩
  | atomConstraint a c =>
      cases hd with
      | atom ha =>
          cases hv with
          | constraint hc =>
              refine Or.inr ⟨.atom a, ?_, .atom ha⟩
              rw [unifyAt_atom_constraint, restrict_eq_ok_iff]
              exact ⟨Constraint.holds_congr (Atom.same_symm ha) hc, rfl⟩
  | constraintAtom c a => simp [concrete] at hconcrete
  | constraints c d => simp [concrete] at hconcrete
  | struct fields others ih =>
      have hparts := concrete_struct.mp hconcrete
      obtain ⟨entries, rfl, hfields⟩ := admits_struct.mp hd
      obtain ⟨_, heq, hothers⟩ := admits_struct.mp hv
      obtain rfl := struct.inj heq
      rw [unifyAt_struct]
      refine Unified.Yields.map (yields_unifyFields
        (fun f hf g hg q x hx hy => ih f hf g hg (hparts f hf) hx hy) hfields hothers)
        fun merged hm => admits_struct.mpr ⟨entries, rfl, ?_⟩
      rw [List.forall_mem_append]
      exact ⟨hm, fun g hg => hothers g (List.mem_of_mem_filter hg)⟩
  | list items tail others rest ih =>
      obtain ⟨rfl, hparts⟩ := concrete_list.mp hconcrete
      exact yields_unifyAt_list
        (fun x hx y hy q z hx' hy' => ih x (Or.inl hx) y hy (hparts x hx) hx' hy') hd hv

theorem of_ne_unprintable {path : String} {reason : Reason} (h : reason.printable = true) :
    Clash.of path reason ≠ .unprintable := by
  rw [Clash.of, if_pos h]
  intro herror
  cases herror

theorem choose_ne_unprintable {path : String} {a b : Value} {results : List (Unified Value)}
    (ha : a.printable = true) (hb : b.printable = true)
    (h : Except.error Clash.unprintable ∉ results) :
    choose path a b results ≠ .error .unprintable := by
  by_cases hnone : successes results = []
  · rw [choose_of_none h hnone]
    refine fun herror => of_ne_unprintable ?_ (Except.error.inj herror)
    rw [Reason.printable, ha, hb]
    rfl
  · rw [choose_of_some h hnone]
    intro herror
    cases herror

theorem restrict_ne_unprintable {path : String} {a : Atom} {c : Constraint}
    (ha : a.printable = true) (hc : ∀ bound ∈ c.bounds, boundPrintable bound = true) :
    restrict path a c ≠ .error .unprintable := by
  unfold restrict
  split
  · intro herror
    cases herror
  · rename_i reason hreason
    exact fun herror =>
      of_ne_unprintable (c.printable_of_check ha hc hreason) (Except.error.inj herror)

theorem unifyFields_ne_unprintable {path : String} {fields others : List (String × Value)}
    (h : ∀ f ∈ fields, ∀ g ∈ others, ∀ q, unifyAt q f.2 g.2 ≠ .error .unprintable) :
    unifyFields path fields others ≠ .error .unprintable := by
  induction fields with
  | nil =>
      unfold unifyFields
      intro herror
      cases herror
  | cons field fields ih =>
      obtain ⟨label, v⟩ := field
      rw [List.forall_mem_cons] at h
      unfold unifyFields
      refine Unified.map_ne_unprintable (Unified.both_ne_unprintable ?_ (ih h.2))
      split
      · rename_i y hy
        exact h.1 _ (mem_of_lookup? hy) _
      · intro herror
        cases herror

theorem unifyAt_list_ne_unprintable {path : String} {items others : List Value}
    {tail rest : Option Value}
    (h : ∀ x, x ∈ items ∨ x ∈ tail → ∀ y, y ∈ others ∨ y ∈ rest → ∀ q,
      unifyAt q x y ≠ .error .unprintable) :
    unifyAt path (.list items tail) (.list others rest) ≠ .error .unprintable := by
  cases hclash : lengthsClash items.length others.length tail.isSome rest.isSome with
  | true =>
      rw [unifyAt_list_of_clash hclash]
      intro herror
      exact of_ne_unprintable rfl (Except.error.inj herror)
  | false =>
      have hall : Unified.all (itemResults path 0 (pairUp tail rest items others)) ≠
          .error .unprintable := by
        apply Unified.all_ne_unprintable
        intro r hr
        obtain ⟨i, hi⟩ := List.getElem?_of_mem hr
        rw [getElem?_itemResults] at hi
        obtain ⟨⟨x, y⟩, hpair, rfl⟩ := Option.map_eq_some_iff.mp hi
        obtain ⟨_, hx, hy⟩ := itemAt?_of_mem_pairUp hclash hpair
        exact h x (mem_of_itemAt? hx) y (mem_of_itemAt? hy) _
      rw [unifyAt_list hclash]
      cases tail with
      | none => exact Unified.map_ne_unprintable hall
      | some x =>
          cases rest with
          | none => exact Unified.map_ne_unprintable hall
          | some y =>
              have htails := h x (Or.inr rfl) y (Or.inr rfl)
              exact Unified.map_ne_unprintable (Unified.both_ne_unprintable hall (htails _))

/-- Every conflict between printable values can be put in words. -/
theorem unifyAt_ne_unprintable {path : String} {a b : Value} (ha : a.printable = true)
    (hb : b.printable = true) : unifyAt path a b ≠ .error .unprintable := by
  induction a, b using induct₂ generalizing path with
  | topLeft b =>
      rw [unifyAt_top_left]
      intro herror
      cases herror
  | topRight a =>
      rw [unifyAt_top_right]
      intro herror
      cases herror
  | any a b hatop hbtop hany ih =>
      rw [unifyAt_any path hatop hbtop hany]
      apply choose_ne_unprintable ha hb
      intro hmem
      obtain ⟨x, hx, y, hy, herror⟩ := mem_pairResults.mp hmem
      exact ih x hx y hy (printable_options ha x hx) (printable_options hb y hy) herror
  | shapes a b s t hs ht hne =>
      rw [unifyAt_of_shape_ne path hs ht hne]
      refine fun herror => of_ne_unprintable ?_ (Except.error.inj herror)
      rw [Reason.printable, ha, hb]
      rfl
  | atoms a b =>
      rw [unifyAt_atom]
      split
      · intro herror
        cases herror
      · refine fun herror => of_ne_unprintable ?_ (Except.error.inj herror)
        rw [Reason.printable, Bool.and_eq_true]
        exact ⟨ha, hb⟩
  | atomConstraint a c =>
      rw [unifyAt_atom_constraint]
      exact restrict_ne_unprintable ha (printable_constraint.mp hb)
  | constraintAtom c a =>
      rw [unifyAt_constraint_atom]
      exact restrict_ne_unprintable hb (printable_constraint.mp ha)
  | constraints c d =>
      rw [unifyAt_constraint]
      cases hmerge : c.merge d with
      | ok merged =>
          intro herror
          cases herror
      | error reason =>
          refine fun herror => of_ne_unprintable ?_ (Except.error.inj herror)
          exact Constraint.printable_of_merge (printable_constraint.mp ha)
            (printable_constraint.mp hb) hmerge
  | struct fields others ih =>
      rw [unifyAt_struct]
      refine Unified.map_ne_unprintable (unifyFields_ne_unprintable fun f hf g hg q => ?_)
      exact ih f hf g hg (printable_struct.mp ha f hf) (printable_struct.mp hb g hg)
  | list items tail others rest ih =>
      rw [printable_list] at ha hb
      refine unifyAt_list_ne_unprintable fun x hx y hy q => ih x hx y hy ?_ ?_
      · exact hx.elim (ha.1 x) (ha.2 x)
      · exact hy.elim (hb.1 y) (hb.2 y)

/-- **Completeness.** Plain data and a pattern that have an instance in common are unified, and the
common value admits it, unless a conflict with some option cannot be put in words; no conflict lacks
words where every whole number of both is within the digit limit. -/
theorem unify_complete {d v e : Value} (hconcrete : d.concrete = true) (hd : d.Admits e)
    (hv : v.Admits e) :
    (unify d v ≠ .error .unprintable ↔ ∃ r, unify d v = .ok r ∧ r.Admits e) ∧
      (d.printable = true → v.printable = true → ∃ r, unify d v = .ok r ∧ r.Admits e) := by
  have hiff : unify d v ≠ .error .unprintable ↔ ∃ r, unify d v = .ok r ∧ r.Admits e := by
    constructor
    · exact (yields_unifyAt hconcrete hd hv).resolve_left
    · rintro ⟨r, hr, _⟩ herror
      rw [hr] at herror
      cases herror
  exact ⟨hiff, fun hdp hvp => hiff.mp (unifyAt_ne_unprintable hdp hvp)⟩

/-- An order with an alternative and an open list of whole numbers, matched by data. -/
theorem unify_complete_open_list :
    let d : Value := .struct [("n", .atom (.int 3)), ("xs", .list [.atom (.int 1), .atom (.int 7)] none)]
    let v : Value := .struct [("xs", .list [ofKind .int] (some (ofKind .number))),
      ("n", .any [ofKind .string, .constraint ⟨some .int, [.order .gt (.int 0)]⟩])]
    ∃ r, unify d v = .ok r ∧ r.Admits d := by
  intro d v
  have hconcrete : d.concrete = true := rfl
  have hself : d.Admits d := by
    apply admits_self hconcrete
    simp [d, Atom.WellFormed]
  have hadmits : v.Admits d := by
    refine admits_struct.mpr ⟨_, rfl, ?_⟩
    simp only [List.mem_cons, List.not_mem_nil, or_false, forall_eq_or_imp, forall_eq]
    refine ⟨⟨_, rfl, admits_list.mpr ⟨_, rfl, by decide, ?_⟩⟩, _, rfl, ?_⟩
    · intro i x hx
      match i, hx with
      | 0, hx =>
          refine ⟨_, rfl, Option.some.inj hx ▸ admits_constraint.mpr ?_⟩
          exact Constraint.check_eq_none_iff.mp rfl
      | 1, hx =>
          refine ⟨_, rfl, Option.some.inj hx ▸ admits_constraint.mpr ?_⟩
          exact Constraint.check_eq_none_iff.mp rfl
    · refine admits_any.mpr ⟨_, List.mem_cons_of_mem _ (List.mem_singleton_self _), ?_⟩
      exact admits_constraint.mpr (Constraint.check_eq_none_iff.mp rfl)
  exact (unify_complete hconcrete hself hadmits).2 (by decide +kernel) (by decide +kernel)

/-- A number not above a limit of too many digits violates it for a reason that lacks words. -/
theorem restrict_of_long_limit {m n : Int} (hle : m ≤ n) (hn : Numeral.fits n = false)
    (path : String) :
    restrict path (.int m) ⟨none, [.order .gt (.int n)]⟩ = .error .unprintable := by
  have hcheck : (Constraint.mk none [.order .gt (.int n)]).check (.int m) =
      some (.outOfBound (.int m) (.order .gt (.int n))) := by
    have hcompare : compare m n ≠ .gt := by rwa [ne_eq, compare_gt_iff_gt, not_lt]
    simp [Constraint.check, Bound.check, Atom.comparable, Atom.isNumber, Order.holds, Atom.compare?,
      Order.allows, hcompare]
  rw [restrict, hcheck]
  simp [Clash.of, Reason.printable, boundPrintable, Bound.limit, Atom.printable, hn]

/-- A whole number of too many digits as the limit of one option fails every alternative with it that
a number not above the limit meets, whatever the other option is. -/
theorem unify_of_long_limit {m n : Int} (hle : m ≤ n) (hn : Numeral.fits n = false) (v : Value) :
    unify (.atom (.int m)) (.any [ofBound (.order .gt (.int n)), v]) = .error .unprintable := by
  have hfirst : unifyAt "" (.atom (.int m)) (ofBound (.order .gt (.int n))) =
      .error .unprintable := by
    rw [ofBound, unifyAt_atom_constraint, restrict_of_long_limit hle hn]
  rw [unify, unifyAt_any "" (by simp) (by simp) (Or.inr rfl), choose_of_unprintable]
  exact mem_pairResults.mpr ⟨_, List.mem_singleton_self _, _, List.mem_cons_self, hfirst⟩

/-- The data `5` match the second of two options, but the conflict with the first one would have to
show a whole number of too many digits. -/
theorem unify_five_unprintable :
    let d : Value := .atom (.int 5)
    let v : Value := .any [ofBound (.order .gt (.int (10 ^ 4300))), ofKind .int]
    d.concrete = true ∧ d.WellFormed ∧ v.WellFormed ∧ d.Admits d ∧ v.Admits d ∧
      ¬ ∃ r, unify d v = .ok r ∧ r.Admits d := by
  intro d v
  have hdata : d.WellFormed := by simp [d, Atom.WellFormed]
  have hpattern : ∀ n : Int, (any [ofBound (.order .gt (.int n)), ofKind .int]).WellFormed := by
    intro n
    simp [ofBound, ofKind, Constraint.wellFormed_iff, Bound.WellFormed, Atom.WellFormed,
      Atom.isNumber, isAny, same, Constraint.same]
  have hadmits : v.Admits d := by
    refine admits_any.mpr ⟨_, List.mem_cons_of_mem _ (List.mem_singleton_self _), ?_⟩
    exact admits_constraint.mpr (Constraint.check_eq_none_iff.mp rfl)
  have hunify : unify d v = .error .unprintable :=
    unify_of_long_limit (by decide +kernel) (by decide +kernel) _
  refine ⟨rfl, hdata, hpattern _, admits_self rfl hdata, hadmits, ?_⟩
  rintro ⟨r, hr, _⟩
  rw [hunify] at hr
  cases hr

end Value

end ApiProbe
