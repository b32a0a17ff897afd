import ApiProbe.Proofs.Value.Instance
import ApiProbe.Proofs.Value.WellFormed

/-!
# Merging constraints

The merger of two constraints asks for the meet of their kinds and for the bounds of both, each once.
It lets exactly those atoms pass that pass both constraints, and it is well formed if both are.
-/

namespace ApiProbe

theorem distinctBoundsFrom_eq (kept bounds : List Bound) :
    Constraint.distinctBoundsFrom kept bounds = distinctBy Bound.same kept bounds := by
  induction bounds generalizing kept with
  | nil => rfl
  | cons b bs ih => exact ih _

theorem Kind.agrees_of_suits {kind : Kind} {bound : Bound} (h : kind.Suits bound) :
    Constraint.agrees kind bound = true := by
  cases bound with
  | order o limit =>
      rw [Constraint.agrees, Bool.or_eq_true]
      rcases h with ⟨hnumber, rfl | rfl | rfl⟩ | ⟨hkind, rfl⟩
      · exact Or.inr hnumber
      · exact Or.inr hnumber
      · exact Or.inr hnumber
      · rw [hkind]
        exact Or.inl rfl
  | ne limit => rfl
  | pattern wanted source => exact beq_iff_eq.mpr h

/-- The second kind is the first one, or a kind of the numbers that the first one accepts. -/
inductive Kind.Includes : Kind → Kind → Prop
  | self {k : Kind} : Includes k k
  | int : Includes .number .int
  | float : Includes .number .float

namespace Kind.Includes

variable {k l m : Kind}

theorem trans (hkl : k.Includes l) (hlm : l.Includes m) : k.Includes m := by
  cases hkl with
  | self => exact hlm
  | int =>
      cases hlm with
      | self => exact .int
  | float =>
      cases hlm with
      | self => exact .float

theorem accepts (h : k.Includes l) {t : AtomKind} (ht : l.accepts t = true) : k.accepts t = true := by
  cases h with
  | self => exact ht
  | int => exact Bool.or_eq_true_iff.mpr (Or.inl ht)
  | float => exact Bool.or_eq_true_iff.mpr (Or.inr ht)

/-- Bounds do not tell kinds of numbers apart. -/
theorem agrees_eq (h : k.Includes l) (bound : Bound) :
    Constraint.agrees k bound = Constraint.agrees l bound := by
  cases h with
  | self => rfl
  | int | float =>
      cases bound with
      | order o limit => cases limit <;> rfl
      | ne | pattern => rfl

end Kind.Includes

namespace Constraint

theorem meetKinds_self (k : Kind) : meetKinds k k = some k := by
  cases k <;> rfl

/-- The meet of two kinds is the one of them that the other includes. -/
theorem meetKinds_eq_some_iff {k l m : Kind} :
    meetKinds k l = some m ↔ k.Includes m ∧ l.Includes m ∧ (m = k ∨ m = l) := by
  constructor
  · intro h
    unfold meetKinds at h
    split at h
    · obtain rfl := Option.some.inj h
      exact ⟨.int, .self, Or.inr rfl⟩
    · obtain rfl := Option.some.inj h
      exact ⟨.self, .int, Or.inl rfl⟩
    · obtain rfl := Option.some.inj h
      exact ⟨.float, .self, Or.inr rfl⟩
    · obtain rfl := Option.some.inj h
      exact ⟨.self, .float, Or.inl rfl⟩
    · split at h
      · rename_i heq
        obtain rfl := Option.some.inj h
        exact ⟨.self, heq ▸ .self, Or.inl rfl⟩
      · cases h
  · rintro ⟨hk, hl, hm | hm⟩
    · obtain rfl := hm.symm
      cases hl with
      | self => exact meetKinds_self _
      | int | float => rfl
    · obtain rfl := hm.symm
      cases hk with
      | self => exact meetKinds_self _
      | int | float => rfl

theorem includes_iff {k l : Kind} : k.Includes l ↔ meetKinds k l = some l := by
  rw [meetKinds_eq_some_iff]
  exact ⟨fun h => ⟨h, .self, Or.inr rfl⟩, fun h => h.1⟩

/-- A meet of kinds accepts what both kinds accept. -/
theorem accepts_meetKinds {k l m : Kind} (h : meetKinds k l = some m) (t : AtomKind) :
    m.accepts t = true ↔ k.accepts t = true ∧ l.accepts t = true := by
  obtain ⟨hk, hl, hm⟩ := meetKinds_eq_some_iff.mp h
  refine ⟨fun ht => ⟨hk.accepts ht, hl.accepts ht⟩, fun ht => ?_⟩
  rcases hm with rfl | rfl
  · exact ht.1
  · exact ht.2

theorem mergeKinds_eq_ok {k l m : Option Kind} (h : mergeKinds k l = .ok m) (a : Atom) :
    (∀ kind ∈ m, kind.check a = none) ↔
      (∀ kind ∈ k, kind.check a = none) ∧ ∀ kind ∈ l, kind.check a = none := by
  cases k with
  | none =>
      obtain rfl : l = m := Except.ok.inj h
      simp
  | some k =>
      cases l with
      | none =>
          obtain rfl : some k = m := Except.ok.inj h
          simp
      | some l =>
          simp only [mergeKinds] at h
          split at h
          · rename_i kind hmeet
            obtain rfl : some kind = m := Except.ok.inj h
            simp only [Option.mem_def, Option.some.injEq, forall_eq', Kind.check_eq_none_iff]
            exact accepts_meetKinds hmeet a.kind
          · cases h

/-- When two constraints can be merged, and into what. -/
theorem merge_eq_ok_iff {c d merged : Constraint} :
    c.merge d = .ok merged ↔
      mergeKinds c.kind d.kind = .ok merged.kind ∧
        merged.bounds = distinctBy Bound.same [] (c.bounds ++ d.bounds) ∧
        ∀ kind ∈ merged.kind, ∀ bound ∈ merged.bounds, agrees kind bound = true := by
  obtain ⟨kind, bounds⟩ := merged
  rw [merge]
  cases hkind : mergeKinds c.kind d.kind with
  | error reason => simp
  | ok met =>
      cases met with
      | none =>
          simp only [Except.ok.injEq, mk.injEq, distinctBoundsFrom_eq]
          constructor
          · rintro ⟨rfl, rfl⟩
            simp
          · rintro ⟨rfl, rfl, _⟩
            simp
      | some met =>
          simp only [distinctBoundsFrom_eq]
          split
          · rename_i bound hfind
            simp only [reduceCtorEq, false_iff, not_and, Except.ok.injEq]
            rintro rfl rfl hagrees
            have := hagrees met rfl bound (List.mem_of_find?_eq_some hfind)
            simpa [this] using List.find?_some hfind
          · rename_i hfind
            simp only [Except.ok.injEq, mk.injEq]
            constructor
            · rintro ⟨rfl, rfl⟩
              refine ⟨rfl, rfl, fun kind hkind bound hbound => ?_⟩
              obtain rfl := Option.some.inj hkind
              simpa using List.find?_eq_none.mp hfind bound hbound
            · rintro ⟨rfl, rfl, _⟩
              exact ⟨rfl, rfl⟩

/-- The merger lets pass what both constraints let pass. -/
theorem holds_merge {c d merged : Constraint} (h : c.merge d = .ok merged) (a : Atom) :
    merged.Holds a ↔ c.Holds a ∧ d.Holds a := by
  obtain ⟨hkind, hbounds, _⟩ := merge_eq_ok_iff.mp h
  have hbound : (∀ bound ∈ merged.bounds, bound.check a = none) ↔
      (∀ bound ∈ c.bounds, bound.check a = none) ∧ ∀ bound ∈ d.bounds, bound.check a = none := by
    rw [← List.forall_mem_append, hbounds]
    constructor
    · intro hall bound hmem
      have hkeeps : ∃ kept ∈ distinctBy Bound.same [] (c.bounds ++ d.bounds),
          kept = bound ∨ bound.same kept = true := exists_mem_distinctBy hmem
      obtain ⟨kept, hkept, rfl | hsame⟩ := hkeeps
      · exact hall kept hkept
      · exact (Bound.check_congr_bound hsame a).mpr (hall kept hkept)
    · intro hall bound hmem
      apply hall bound
      simpa using mem_of_mem_distinctBy hmem
  simp only [Holds, mergeKinds_eq_ok hkind, hbound]
  tauto

theorem reason_of_check {a : Atom} {bound : Bound} {reason : Reason}
    (h : bound.check a = some reason) :
    reason = .outOfBound a bound ∨ ∃ kind, reason = .incomparable a kind := by
  cases bound with
  | order o limit =>
      rw [Bound.check] at h
      split at h
      · exact Or.inr ⟨_, (Option.some.inj h).symm⟩
      · split at h
        · cases h
        · exact Or.inl (Option.some.inj h).symm
  | ne limit =>
      rw [Bound.check] at h
      split at h
      · exact Or.inl (Option.some.inj h).symm
      · cases h
  | pattern wanted source =>
      cases a with
      | string s =>
          rw [Bound.check] at h
          split at h
          · cases h
          · exact Or.inl (Option.some.inj h).symm
      | _ => exact Or.inr ⟨_, (Option.some.inj h).symm⟩

theorem printable_of_check {a : Atom} {reason : Reason} (c : Constraint)
    (ha : a.printable = true) (hc : ∀ bound ∈ c.bounds, Value.boundPrintable bound = true)
    (h : c.check a = some reason) : reason.printable = true := by
  rw [check, Option.or_eq_some_iff] at h
  rcases h with hkind | ⟨_, hbound⟩
  · obtain ⟨kind, _, hcheck⟩ := Option.bind_eq_some_iff.mp hkind
    unfold Kind.check at hcheck
    split at hcheck
    · cases hcheck
    · obtain rfl := Option.some.inj hcheck
      exact ha
  · obtain ⟨bound, hmem, hcheck⟩ := List.exists_of_findSome?_eq_some hbound
    rcases reason_of_check hcheck with rfl | ⟨kind, rfl⟩
    · rw [Reason.printable, ha, hc bound hmem]
      rfl
    · exact ha

theorem printable_of_merge {c d : Constraint} {reason : Reason}
    (hc : ∀ bound ∈ c.bounds, Value.boundPrintable bound = true)
    (hd : ∀ bound ∈ d.bounds, Value.boundPrintable bound = true)
    (h : c.merge d = .error reason) : reason.printable = true := by
  unfold merge at h
  split at h
  · rename_i found hkinds
    obtain rfl := Except.error.inj h
    rw [mergeKinds.eq_def] at hkinds
    split at hkinds
    · split at hkinds
      · cases hkinds
      · obtain rfl := Except.error.inj hkinds
        rfl
    · cases hkinds
    · cases hkinds
  · cases h
  · simp only [distinctBoundsFrom_eq] at h
    split at h
    · rename_i bound hfind
      obtain rfl := Except.error.inj h
      have hmem := mem_of_mem_distinctBy (List.mem_of_find?_eq_some hfind)
      rcases hmem with hkept | hmem
      · cases hkept
      · exact (List.mem_append.mp hmem).elim (hc bound) (hd bound)
    · cases h

end Constraint

end ApiProbe
