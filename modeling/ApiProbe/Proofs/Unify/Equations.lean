import ApiProbe.Proofs.Result
import ApiProbe.Proofs.Value.Instance
import ApiProbe.Proofs.Value.WellFormed
import ApiProbe.Value.Unify

/-!
# Unification, case by case

Unification distributes over alternatives first and then looks at the shapes of both values. The
equations below say what it does for each pair of shapes, and the lemmas about results what a success
is made of. Nothing else in the theory of unification unfolds its definition.
-/

namespace ApiProbe

namespace Unified

variable {α β : Type}

theorem both_eq_ok_iff {r : Unified α} {s : Unified β} {p : α × β} :
    both r s = .ok p ↔ r = .ok p.1 ∧ s = .ok p.2 := by
  cases r <;> cases s <;> simp [both, Prod.ext_iff]

theorem all_eq_ok_iff {rs : List (Unified α)} {xs : List α} :
    all rs = .ok xs ↔ List.Forall₂ (fun r x => r = .ok x) rs xs := by
  induction rs generalizing xs with
  | nil => cases xs <;> simp [all]
  | cons r rs ih =>
      simp only [all, map_eq_ok_iff, both_eq_ok_iff]
      constructor
      · rintro ⟨⟨x, rest⟩, ⟨hx, hrest⟩, rfl⟩
        exact .cons hx (ih.mp hrest)
      · rintro (⟨⟩ | ⟨hx, hrest⟩)
        exact ⟨(_, _), ⟨hx, ih.mpr hrest⟩, rfl⟩

end Unified

namespace Value

theorem mem_distinct {xs : List Value} {x : Value} (h : x ∈ distinct xs) : x ∈ xs := by
  rw [distinct, distinctFrom_eq] at h
  simpa using mem_of_mem_distinctBy h

theorem exists_mem_distinct {xs : List Value} {x : Value} (h : x ∈ xs) :
    ∃ y ∈ distinct xs, y = x ∨ x.same y = true := by
  rw [distinct, distinctFrom_eq]
  exact exists_mem_distinctBy h

theorem pairwise_distinct (xs : List Value) :
    (distinct xs).Pairwise fun x y => y.same x = false := by
  rw [distinct, distinctFrom_eq]
  exact pairwise_distinctBy List.Pairwise.nil

theorem distinct_eq_self {xs : List Value} (h : xs.Pairwise fun x y => y.same x = false) :
    distinct xs = xs := by
  rw [distinct, distinctFrom_eq, distinctBy_eq_append (by simpa using h), List.nil_append]

theorem distinct_eq_nil_iff {xs : List Value} : distinct xs = [] ↔ xs = [] := by
  constructor
  · intro h
    apply List.eq_nil_iff_forall_not_mem.mpr
    intro x hx
    obtain ⟨y, hy, _⟩ := exists_mem_distinct hx
    rw [h] at hy
    cases hy
  · rintro rfl
    rfl

theorem ofOptions_cases (xs : List Value) :
    (∃ x, distinct xs = [x] ∧ ofOptions xs = x) ∨
      ((∀ x, distinct xs ≠ [x]) ∧ ofOptions xs = .any (distinct xs)) := by
  rw [ofOptions]
  split
  · rename_i x hone
    exact Or.inl ⟨x, hone, rfl⟩
  · rename_i hmany
    exact Or.inr ⟨hmany, rfl⟩

theorem admits_ofOptions {xs : List Value} {data : Value} :
    (ofOptions xs).Admits data ↔ ∃ x ∈ xs, x.Admits data := by
  have hdistinct : (∃ y ∈ distinct xs, y.Admits data) ↔ ∃ x ∈ xs, x.Admits data := by
    constructor
    · rintro ⟨y, hy, hadmits⟩
      exact ⟨y, mem_distinct hy, hadmits⟩
    · rintro ⟨x, hx, hadmits⟩
      obtain ⟨y, hy, rfl | hsame⟩ := exists_mem_distinct hx
      · exact ⟨y, hy, hadmits⟩
      · exact ⟨y, hy, hadmits.of_same hsame⟩
  rw [← hdistinct]
  rcases ofOptions_cases xs with ⟨x, hone, hoptions⟩ | ⟨_, hoptions⟩
  · rw [hoptions, hone]
    simp
  · rw [hoptions, admits_any]

def successes (results : List (Unified Value)) : List Value :=
  results.filterMap Except.toOption

theorem mem_successes {results : List (Unified Value)} {x : Value} :
    x ∈ successes results ↔ Except.ok x ∈ results := by
  rw [successes, List.mem_filterMap]
  constructor
  · rintro ⟨r, hr, hx⟩
    cases r with
    | error c => simp [Except.toOption] at hx
    | ok y =>
        obtain rfl : y = x := Option.some.inj hx
        exact hr
  · intro h
    exact ⟨_, h, rfl⟩

section Choose

variable {path : String} {a b : Value} {results : List (Unified Value)}

def isUnprintable : Unified Value → Bool
  | .error .unprintable => true
  | _ => false

theorem any_isUnprintable_iff :
    results.any isUnprintable = true ↔ Except.error Clash.unprintable ∈ results := by
  rw [List.any_eq_true]
  constructor
  · rintro ⟨r, hr, hmatch⟩
    rw [isUnprintable.eq_def] at hmatch
    split at hmatch
    · exact hr
    · cases hmatch
  · intro h
    exact ⟨_, h, rfl⟩

theorem choose_eq :
    choose path a b results =
      if results.any isUnprintable then .error .unprintable
      else
        match distinct (successes results) with
        | [] => .error (.of path (.noOption a b))
        | [x] => .ok x
        | xs => .ok (.any xs) :=
  rfl

/-- A clash that cannot be put in words makes the choice fail, whatever else there is. -/
theorem choose_of_unprintable (h : Except.error Clash.unprintable ∈ results) :
    choose path a b results = .error .unprintable := by
  rw [choose_eq, if_pos (any_isUnprintable_iff.mpr h)]

theorem choose_of_none (h : Except.error Clash.unprintable ∉ results)
    (hnone : successes results = []) :
    choose path a b results = .error (.of path (.noOption a b)) := by
  rw [choose_eq, if_neg (mt any_isUnprintable_iff.mp h), hnone]
  rfl

/-- The choice among results is the alternative of those that are values. -/
theorem choose_of_some (h : Except.error Clash.unprintable ∉ results)
    (hsome : successes results ≠ []) :
    choose path a b results = .ok (ofOptions (successes results)) := by
  have hne : distinct (successes results) ≠ [] := mt distinct_eq_nil_iff.mp hsome
  rw [choose_eq, if_neg (mt any_isUnprintable_iff.mp h), ofOptions]
  split
  · contradiction
  · simp only [*]
  · rename_i hmany
    split
    · rename_i x hone
      exact absurd hone (hmany x)
    · rfl

theorem choose_eq_ok_iff {r : Value} :
    choose path a b results = .ok r ↔
      Except.error Clash.unprintable ∉ results ∧ successes results ≠ [] ∧
        r = ofOptions (successes results) := by
  constructor
  · intro hok
    have hprintable : Except.error Clash.unprintable ∉ results := by
      intro h
      rw [choose_of_unprintable h] at hok
      cases hok
    have hsome : successes results ≠ [] := by
      intro h
      rw [choose_of_none hprintable h] at hok
      cases hok
    rw [choose_of_some hprintable hsome, Except.ok.injEq] at hok
    exact ⟨hprintable, hsome, hok.symm⟩
  · rintro ⟨hprintable, hsome, rfl⟩
    exact choose_of_some hprintable hsome

end Choose

theorem unifyAt_top_left (path : String) (b : Value) : unifyAt path .top b = .ok b := by
  rw [unifyAt]

theorem unifyAt_top_right (path : String) (a : Value) : unifyAt path a .top = .ok a := by
  cases a with
  | list items tail => cases tail <;> simp [unifyAt, distribute]
  | _ => simp [unifyAt, distribute]

theorem distributeAll_eq_map (path : String) (a : Value) (f : Value → Unified Value)
    (ys : List Value) : distributeAll path a f ys = ys.map (distribute path a f) := by
  induction ys with
  | nil => rfl
  | cons y ys ih => rw [distributeAll, ih, List.map_cons]

theorem unifyOptions_eq_flatMap (path : String) (xs ys : List Value) :
    unifyOptions path xs ys = xs.flatMap fun x => ys.map (unifyAt path x) := by
  induction xs with
  | nil => rw [unifyOptions, List.flatMap_nil]
  | cons x xs ih => rw [unifyOptions, ih, List.flatMap_cons]

/-- The results for all pairs of an option of one value and an option of the other. -/
def pairResults (path : String) (a b : Value) : List (Unified Value) :=
  a.options.flatMap fun x => b.options.map (unifyAt path x)

theorem mem_pairResults {path : String} {a b : Value} {r : Unified Value} :
    r ∈ pairResults path a b ↔ ∃ x ∈ a.options, ∃ y ∈ b.options, unifyAt path x y = r := by
  simp [pairResults]

theorem unifyAt_any (path : String) {a b : Value} (ha : a ≠ .top) (hb : b ≠ .top)
    (hany : a.isAny = true ∨ b.isAny = true) :
    unifyAt path a b = choose path a b (pairResults path a b) := by
  cases a with
  | top => exact absurd rfl ha
  | any xs =>
      rw [pairResults, options, ← unifyOptions_eq_flatMap]
      cases b <;> simp [unifyAt] at hb ⊢
  | list items tail =>
      cases b with
      | any ys =>
          cases tail <;>
            simp [unifyAt, distribute, distributeAll_eq_map, pairResults, options]
      | _ => simp [isAny] at hany
  | _ =>
      cases b with
      | any ys => simp [unifyAt, distribute, distributeAll_eq_map, pairResults, options]
      | _ => simp [isAny] at hany

/-- Data of different shapes have nothing in common. -/
inductive Shape where
  | scalar
  | struct
  | list
  deriving DecidableEq

/-- The shape of all data that a value admits, where it is given by the form of the value. -/
def shape? : Value → Option Shape
  | .atom _ | .constraint _ => some .scalar
  | .struct _ => some .struct
  | .list .. => some .list
  | _ => none

theorem unifyAt_of_shape_ne (path : String) {a b : Value} {s t : Shape} (ha : a.shape? = some s)
    (hb : b.shape? = some t) (hne : s ≠ t) :
    unifyAt path a b = .error (.of path (.shapes a b)) := by
  cases a with
  | top | any => cases ha
  | atom | constraint =>
      obtain rfl := Option.some.inj ha
      cases b with
      | top | any => cases hb
      | atom | constraint => exact absurd (Option.some.inj hb) hne
      | struct | list => rfl
  | struct fields =>
      obtain rfl := Option.some.inj ha
      cases b with
      | top | any => cases hb
      | struct => exact absurd (Option.some.inj hb) hne
      | atom | constraint | list => rfl
  | list items tail =>
      obtain rfl := Option.some.inj ha
      cases b with
      | top | any => cases hb
      | list => exact absurd (Option.some.inj hb) hne
      | atom | constraint | struct => cases tail <;> rfl

theorem unifyAt_atom (path : String) (a b : Atom) :
    unifyAt path (.atom a) (.atom b) =
      if a.same b then .ok (.atom a) else .error (.of path (.atoms a b)) := by
  simp [unifyAt, distribute, unifyAtom]

theorem unifyAt_atom_constraint (path : String) (a : Atom) (c : Constraint) :
    unifyAt path (.atom a) (.constraint c) = restrict path a c := by
  simp [unifyAt, distribute, unifyAtom]

theorem unifyAt_constraint_atom (path : String) (c : Constraint) (a : Atom) :
    unifyAt path (.constraint c) (.atom a) = restrict path a c := by
  simp [unifyAt, distribute, unifyConstraint]

theorem restrict_eq_ok_iff {path : String} {a : Atom} {c : Constraint} {r : Value} :
    restrict path a c = .ok r ↔ c.Holds a ∧ r = .atom a := by
  rw [restrict, ← Constraint.check_eq_none_iff]
  split <;> simp [*, eq_comm]

theorem unifyAt_constraint (path : String) (c d : Constraint) :
    unifyAt path (.constraint c) (.constraint d) =
      match c.merge d with
      | .ok merged => .ok (.constraint merged)
      | .error reason => .error (.of path reason) := by
  have h : unifyAt path (.constraint c) (.constraint d)
      = unifyConstraint path c (.constraint d) := by
    simp only [unifyAt, distribute]
  exact h.trans rfl

theorem unifyAt_constraint_eq_ok_iff {path : String} {c d : Constraint} {r : Value} :
    unifyAt path (.constraint c) (.constraint d) = .ok r ↔
      ∃ merged, c.merge d = .ok merged ∧ r = .constraint merged := by
  rw [unifyAt_constraint]
  split <;> simp [*, eq_comm]

theorem unifyAt_struct (path : String) (fields others : List (String × Value)) :
    unifyAt path (.struct fields) (.struct others) =
      (unifyFields path fields others).map fun merged =>
        .struct (merged ++ newFields fields others) := by
  simp [unifyAt, distribute]

/-- What a unified field is made of: the fields of its label on both sides, or the one of the first
side alone. -/
def FieldMerged (path : String) (others : List (String × Value)) (field merged : String × Value) :
    Prop :=
  merged.1 = field.1 ∧
    ((∃ y, lookup? field.1 others = some y ∧
        unifyAt (joinPath path field.1) field.2 y = .ok merged.2) ∨
      (lookup? field.1 others = none ∧ merged.2 = field.2))

theorem unifyFields_eq_ok_iff {path : String} {fields others merged : List (String × Value)} :
    unifyFields path fields others = .ok merged ↔
      List.Forall₂ (FieldMerged path others) fields merged := by
  induction fields generalizing merged with
  | nil => cases merged <;> simp [unifyFields]
  | cons field fields ih =>
      obtain ⟨label, x⟩ := field
      simp only [unifyFields, map_eq_ok_iff, Unified.both_eq_ok_iff, ih]
      constructor
      · rintro ⟨⟨value, rest⟩, ⟨hvalue, hrest⟩, rfl⟩
        refine .cons ⟨rfl, ?_⟩ hrest
        split at hvalue
        · rename_i y hy
          exact Or.inl ⟨y, hy, hvalue⟩
        · rename_i hnone
          exact Or.inr ⟨hnone, (Except.ok.inj hvalue).symm⟩
      · intro h
        cases h with
        | cons hfield hrest =>
            rename_i m rest
            obtain ⟨label', value⟩ := m
            obtain ⟨rfl, hvalue⟩ := hfield
            refine ⟨(value, rest), ⟨?_, hrest⟩, rfl⟩
            rcases hvalue with ⟨y, hy, hunify⟩ | ⟨hnone, rfl⟩
            · simp only [hy]
              exact hunify
            · simp only [hnone]

/-- The items of two lists that stand at the same index, the tail of a list for those that it lacks. -/
def pairUp (tail rest : Option Value) : List Value → List Value → List (Value × Value)
  | x :: xs, y :: ys => (x, y) :: pairUp tail rest xs ys
  | x :: xs, [] =>
    match rest with
    | some y => (x, y) :: pairUp tail rest xs []
    | none => []
  | [], y :: ys =>
    match tail with
    | some x => (x, y) :: pairUp tail rest [] ys
    | none => []
  | [], [] => []

/-- The results for the items of two lists, the first of them at an index. -/
def itemResults (path : String) (index : Nat) (pairs : List (Value × Value)) :
    List (Unified Value) :=
  pairs.mapIdx fun i pair => unifyAt (joinPath path (toString (index + i))) pair.1 pair.2

theorem itemResults_cons (path : String) (index : Nat) (pair : Value × Value)
    (pairs : List (Value × Value)) :
    itemResults path index (pair :: pairs) =
      unifyAt (joinPath path (toString index)) pair.1 pair.2 ::
        itemResults path (index + 1) pairs := by
  simp only [itemResults, List.mapIdx_cons, Nat.add_zero, Nat.add_right_comm, Nat.add_assoc]

theorem itemResults_pairUp_nil (path : String) (index : Nat) (x : Value) (rest : Option Value)
    (ys : List Value) :
    itemResults path index (pairUp (some x) rest [] ys) =
      ys.mapIdx fun i y => unifyAt (joinPath path (toString (index + i))) x y := by
  induction ys generalizing index with
  | nil => simp [pairUp, itemResults]
  | cons y ys ih =>
      simp only [pairUp, itemResults_cons, ih, List.mapIdx_cons, Nat.add_zero, Nat.add_right_comm,
        Nat.add_assoc]

theorem itemResults_pairUp_closed (path : String) (index : Nat) {items others : List Value}
    (rest : Option Value) (hlength : others.length ≤ items.length) :
    itemResults path index (pairUp none rest items others) =
      unifyItems path index items others rest := by
  induction items generalizing index others with
  | nil =>
      obtain rfl := List.length_eq_zero_iff.mp (Nat.le_zero.mp hlength)
      simp [unifyItems, pairUp, itemResults]
  | cons x xs ih =>
      cases others with
      | cons y ys =>
          rw [unifyItems, pairUp, itemResults_cons, ih]
          simpa using hlength
      | nil =>
          cases rest with
          | none => simp [unifyItems, pairUp, itemResults]
          | some other =>
              simp only [unifyItems, pairUp, itemResults_cons]
              rw [ih _ (Nat.zero_le _)]

theorem itemResults_pairUp_open (path : String) (index : Nat) (items others : List Value)
    (x : Value) (rest : Option Value) :
    itemResults path index (pairUp (some x) rest items others) =
      unifyItems path index items others rest ++
        (others.drop items.length).mapIdx fun i y =>
          unifyAt (joinPath path (toString (index + items.length + i))) x y := by
  induction items generalizing index others with
  | nil => simp [unifyItems, itemResults_pairUp_nil]
  | cons z zs ih =>
      cases others with
      | cons y ys =>
          simp only [unifyItems, pairUp, itemResults_cons, ih, List.length_cons,
            List.drop_succ_cons, List.cons_append, Nat.add_assoc, Nat.add_comm 1]
      | nil =>
          cases rest with
          | none => simp [unifyItems, pairUp, itemResults]
          | some other =>
              simp only [unifyItems, pairUp, itemResults_cons, ih, List.drop_nil,
                List.mapIdx_nil, List.append_nil]

/-- The list of unified items, with a tail where both lists have one. -/
def listResult (path : String) (items : Unified (List Value)) :
    Option Value → Option Value → Unified Value
  | some x, some y =>
    (Unified.both items (unifyAt (joinPath path "...") x y)).map
      fun (all, last) => .list all (some last)
  | _, _ => items.map fun all => .list all none

section Lists

variable {path : String} {items others : List Value} {tail rest : Option Value}

theorem unifyAt_list_of_clash
    (h : lengthsClash items.length others.length tail.isSome rest.isSome = true) :
    unifyAt path (.list items tail) (.list others rest) =
      .error (.of path (.lengths items.length others.length)) := by
  cases tail <;> simp only [Option.isSome_none, Option.isSome_some] at h <;>
    simp [unifyAt, distribute, h]

/-- Lists whose lengths agree are unified index by index. -/
theorem unifyAt_list
    (h : lengthsClash items.length others.length tail.isSome rest.isSome = false) :
    unifyAt path (.list items tail) (.list others rest) =
      listResult path (Unified.all (itemResults path 0 (pairUp tail rest items others)))
        tail rest := by
  cases tail with
  | none =>
      have hlength : others.length ≤ items.length := by
        simp [lengthsClash] at h
        omega
      simp only [Option.isSome_none] at h
      rw [itemResults_pairUp_closed path 0 rest hlength]
      simp [unifyAt, distribute, h, listResult]
  | some x =>
      rw [itemResults_pairUp_open]
      cases rest <;> simp only [Option.isSome_none, Option.isSome_some] at h <;>
        simp [unifyAt, distribute, h, listResult]

/-- Where neither list is too short, the pairs are those of the items at each index up to the longer
list's length. -/
theorem getElem?_pairUp
    (h : lengthsClash items.length others.length tail.isSome rest.isSome = false) (i : Nat) :
    (pairUp tail rest items others)[i]? =
      if i < max items.length others.length then
        (itemAt? items tail i).bind fun x => (itemAt? others rest i).map fun y => (x, y)
      else none := by
  induction items generalizing i others with
  | nil =>
      induction others generalizing i with
      | nil => simp [pairUp]
      | cons y ys ih =>
          cases tail with
          | none => simp [lengthsClash] at h
          | some x =>
              cases i with
              | zero => simp [pairUp, itemAt?]
              | succ i =>
                  rw [pairUp, List.getElem?_cons_succ, ih (by simp [lengthsClash])]
                  simp [itemAt?]
  | cons z zs ih =>
      cases others with
      | nil =>
          cases rest with
          | none => simp [lengthsClash] at h
          | some y =>
              cases i with
              | zero => simp [pairUp, itemAt?]
              | succ i =>
                  rw [pairUp, List.getElem?_cons_succ, ih (by simp [lengthsClash])]
                  simp [itemAt?]
      | cons y ys =>
          have hclash : lengthsClash zs.length ys.length tail.isSome rest.isSome = false := by
            simpa [lengthsClash] using h
          cases i with
          | zero => simp [pairUp, itemAt?]
          | succ i =>
              rw [pairUp, List.getElem?_cons_succ, ih hclash]
              simp [itemAt?]

/-- What stands in a pair, stands at its index in both lists. -/
theorem itemAt?_of_mem_pairUp
    (h : lengthsClash items.length others.length tail.isSome rest.isSome = false) {i : Nat}
    {x y : Value} (hpair : (pairUp tail rest items others)[i]? = some (x, y)) :
    i < max items.length others.length ∧ itemAt? items tail i = some x ∧
      itemAt? others rest i = some y := by
  rw [getElem?_pairUp h] at hpair
  split at hpair
  · rename_i hi
    obtain ⟨x', hx, hmap⟩ := Option.bind_eq_some_iff.mp hpair
    obtain ⟨y', hy, hxy⟩ := Option.map_eq_some_iff.mp hmap
    obtain ⟨rfl, rfl⟩ := Prod.mk.inj hxy
    exact ⟨hi, hx, hy⟩
  · cases hpair

theorem length_pairUp
    (h : lengthsClash items.length others.length tail.isSome rest.isSome = false) :
    (pairUp tail rest items others).length = max items.length others.length := by
  induction items generalizing others with
  | nil =>
      induction others with
      | nil => simp [pairUp]
      | cons y ys ih =>
          cases tail with
          | none => simp [lengthsClash] at h
          | some x => simpa [pairUp] using ih (by simp [lengthsClash])
  | cons z zs ih =>
      cases others with
      | nil =>
          cases rest with
          | none => simp [lengthsClash] at h
          | some y =>
              have hlength : (pairUp tail (some y) zs []).length = max zs.length 0 :=
                ih (by simp [lengthsClash])
              simpa [pairUp] using hlength
      | cons y ys =>
          have hclash : lengthsClash zs.length ys.length tail.isSome rest.isSome = false := by
            simpa [lengthsClash] using h
          simp [pairUp, ih hclash]

theorem getElem?_itemResults (index : Nat) (pairs : List (Value × Value)) (i : Nat) :
    (itemResults path index pairs)[i]? =
      pairs[i]?.map fun pair => unifyAt (joinPath path (toString (index + i))) pair.1 pair.2 := by
  rw [itemResults, List.getElem?_mapIdx]

/-- What a success of two lists is made of: the unified items, and the unified tails if both lists
have one. -/
theorem listResult_eq_ok {all : Unified (List Value)} {r : Value}
    (h : listResult path all tail rest = .ok r) :
    ∃ merged last, r = .list merged last ∧ all = .ok merged ∧
      ((∃ x y m, tail = some x ∧ rest = some y ∧ last = some m ∧
          unifyAt (joinPath path "...") x y = .ok m) ∨
        (last = none ∧ (tail = none ∨ rest = none))) := by
  cases tail with
  | none =>
      obtain ⟨merged, hall, rfl⟩ := map_eq_ok_iff.mp h
      exact ⟨merged, none, rfl, hall, Or.inr ⟨rfl, Or.inl rfl⟩⟩
  | some x =>
      cases rest with
      | none =>
          obtain ⟨merged, hall, rfl⟩ := map_eq_ok_iff.mp h
          exact ⟨merged, none, rfl, hall, Or.inr ⟨rfl, Or.inr rfl⟩⟩
      | some y =>
          obtain ⟨⟨merged, m⟩, hboth, rfl⟩ := map_eq_ok_iff.mp h
          obtain ⟨hall, hlast⟩ := Unified.both_eq_ok_iff.mp hboth
          exact ⟨merged, some m, rfl, hall, Or.inl ⟨x, y, m, rfl, rfl, rfl, hlast⟩⟩

/-- The item of a unified list at an index is the unified item of both lists there. -/
theorem unifyAt_list_eq_ok {r : Value}
    (h : unifyAt path (.list items tail) (.list others rest) = .ok r) :
    lengthsClash items.length others.length tail.isSome rest.isSome = false ∧
      ∃ merged last, r = .list merged last ∧
        merged.length = max items.length others.length ∧
        ∀ i m, itemAt? merged last i = some m →
          ∃ q x y, itemAt? items tail i = some x ∧ itemAt? others rest i = some y ∧
            unifyAt q x y = .ok m := by
  have hclash : lengthsClash items.length others.length tail.isSome rest.isSome = false := by
    by_contra hclash
    rw [Bool.not_eq_false] at hclash
    rw [unifyAt_list_of_clash hclash] at h
    cases h
  refine ⟨hclash, ?_⟩
  rw [unifyAt_list hclash] at h
  obtain ⟨merged, last, rfl, hall, hlast⟩ := listResult_eq_ok h
  have hforall := Unified.all_eq_ok_iff.mp hall
  have hlength : merged.length = max items.length others.length := by
    rw [← hforall.length_eq, itemResults, List.length_mapIdx, length_pairUp hclash]
  refine ⟨merged, last, rfl, hlength, fun i m hm => ?_⟩
  rcases Option.or_eq_some_iff.mp hm with hitem | ⟨hnone, htail⟩
  · obtain ⟨res, hres, rfl⟩ := getElem?_left_of_forall₂ hforall hitem
    rw [getElem?_itemResults] at hres
    obtain ⟨⟨x, y⟩, hpair, hunify⟩ := Option.map_eq_some_iff.mp hres
    obtain ⟨_, hx, hy⟩ := itemAt?_of_mem_pairUp hclash hpair
    exact ⟨_, x, y, hx, hy, hunify⟩
  · rcases hlast with ⟨x, y, m', rfl, rfl, rfl, hunify⟩ | ⟨rfl, _⟩
    · obtain rfl := Option.some.inj htail
      rw [List.getElem?_eq_none_iff, hlength] at hnone
      refine ⟨_, x, y, ?_, ?_, hunify⟩
      · rw [itemAt?, List.getElem?_eq_none (le_trans (le_max_left ..) hnone), Option.none_or]
      · rw [itemAt?, List.getElem?_eq_none (le_trans (le_max_right ..) hnone), Option.none_or]
    · cases htail

end Lists

/-! ### Induction on pairs of values

Unification recurs on both values at once, and on pairs of options before pairs of parts. The principle has one
case for each equation above, with the pairs that the equation goes through as hypotheses. -/

theorem sizeOf_option_lt {xs : List Value} {x : Value} (h : x ∈ xs) :
    sizeOf x < sizeOf (Value.any xs) := by
  have := List.sizeOf_lt_of_mem h
  simp only [any.sizeOf_spec]
  omega

theorem sizeOf_field_lt {fields : List (String × Value)} {f : String × Value} (h : f ∈ fields) :
    sizeOf f.2 < sizeOf (Value.struct fields) := by
  have := List.sizeOf_lt_of_mem h
  obtain ⟨label, x⟩ := f
  simp only [struct.sizeOf_spec, Prod.mk.sizeOf_spec] at this ⊢
  omega

theorem sizeOf_item_lt {items : List Value} {tail : Option Value} {x : Value}
    (h : x ∈ items ∨ x ∈ tail) : sizeOf x < sizeOf (Value.list items tail) := by
  simp only [list.sizeOf_spec]
  rcases h with h | h
  · have := List.sizeOf_lt_of_mem h
    omega
  · obtain rfl := Option.mem_def.mp h
    simp only [Option.some.sizeOf_spec]
    omega

/-- The pairs of values that unification goes through, from the parts of two values to the values. -/
theorem induct₂ {P : Value → Value → Prop}
    (topLeft : ∀ b, P .top b) (topRight : ∀ a, P a .top)
    (any : ∀ a b, a ≠ .top → b ≠ .top → (a.isAny = true ∨ b.isAny = true) →
      (∀ x ∈ a.options, ∀ y ∈ b.options, P x y) → P a b)
    (shapes : ∀ a b s t, a.shape? = some s → b.shape? = some t → s ≠ t → P a b)
    (atoms : ∀ a b, P (.atom a) (.atom b))
    (atomConstraint : ∀ a c, P (.atom a) (.constraint c))
    (constraintAtom : ∀ c a, P (.constraint c) (.atom a))
    (constraints : ∀ c d, P (.constraint c) (.constraint d))
    (struct : ∀ fields others, (∀ f ∈ fields, ∀ g ∈ others, P f.2 g.2) →
      P (.struct fields) (.struct others))
    (list : ∀ items tail others rest,
      (∀ x, x ∈ items ∨ x ∈ tail → ∀ y, y ∈ others ∨ y ∈ rest → P x y) →
      P (.list items tail) (.list others rest))
    (a b : Value) : P a b := by
  induction hsize : sizeOf a + sizeOf b using Nat.strong_induction_on generalizing a b with
  | _ n ih =>
      subst hsize
      have hoptions : ∀ v : Value, ∀ x ∈ v.options,
          sizeOf x ≤ sizeOf v ∧ (v.isAny = true → sizeOf x < sizeOf v) := by
        intro v x hx
        cases v with
        | any xs =>
            have := sizeOf_option_lt (show x ∈ xs from hx)
            exact ⟨this.le, fun _ => this⟩
        | _ =>
            obtain rfl := List.mem_singleton.mp hx
            exact ⟨le_rfl, fun h => by cases h⟩
      by_cases ha : a = .top
      · exact ha ▸ topLeft b
      by_cases hb : b = .top
      · exact hb ▸ topRight a
      by_cases hany : a.isAny = true ∨ b.isAny = true
      · refine any a b ha hb hany fun x hx y hy => ih _ ?_ x y rfl
        have hxa := hoptions a x hx
        have hyb := hoptions b y hy
        rcases hany with h | h
        · have := hxa.2 h
          omega
        · have := hyb.2 h
          omega
      cases a with
      | top => exact absurd rfl ha
      | any xs => exact absurd (Or.inl rfl) hany
      | atom a =>
          cases b with
          | top => exact absurd rfl hb
          | any ys => exact absurd (Or.inr rfl) hany
          | atom b => exact atoms a b
          | constraint d => exact atomConstraint a d
          | _ => exact shapes _ _ _ _ rfl rfl (by decide)
      | constraint c =>
          cases b with
          | top => exact absurd rfl hb
          | any ys => exact absurd (Or.inr rfl) hany
          | atom b => exact constraintAtom c b
          | constraint d => exact constraints c d
          | _ => exact shapes _ _ _ _ rfl rfl (by decide)
      | struct fields =>
          cases b with
          | top => exact absurd rfl hb
          | any ys => exact absurd (Or.inr rfl) hany
          | struct others =>
              refine struct fields others fun f hf g hg => ih _ ?_ f.2 g.2 rfl
              have := sizeOf_field_lt hf
              have := sizeOf_field_lt hg
              omega
          | _ => exact shapes _ _ _ _ rfl rfl (by decide)
      | list items tail =>
          cases b with
          | top => exact absurd rfl hb
          | any ys => exact absurd (Or.inr rfl) hany
          | list others rest =>
              refine list items tail others rest fun x hx y hy => ih _ ?_ x y rfl
              have := sizeOf_item_lt hx
              have := sizeOf_item_lt hy
              omega
          | _ => exact shapes _ _ _ _ rfl rfl (by decide)

end Value

end ApiProbe
