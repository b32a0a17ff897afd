import ApiProbe.Proofs.Number.Comparison
import ApiProbe.Value.Basic

/-!
# Values that are the same

Sameness of values is what alternatives and constraints are cleared of repetitions by. It is symmetric, but
reflexive only where no NaN occurs. Clearing a list keeps one of all values that are the same, the first
one.
-/

namespace ApiProbe

section Distinct

variable {α : Type} (same : α → α → Bool)

/-- The elements without those that are the same as an earlier one, `kept` being what occurs
already. -/
def distinctBy (kept : List α) : List α → List α
  | [] => kept
  | x :: xs => distinctBy (if kept.any (same x) then kept else kept ++ [x]) xs

variable {same}

theorem mem_of_mem_distinctBy {kept xs : List α} {x : α} (h : x ∈ distinctBy same kept xs) :
    x ∈ kept ∨ x ∈ xs := by
  induction xs generalizing kept with
  | nil => exact Or.inl h
  | cons y ys ih =>
      rcases ih h with hkept | hrest
      · split at hkept
        · exact Or.inl hkept
        · rcases List.mem_append.mp hkept with hx | hx
          · exact Or.inl hx
          · exact Or.inr (List.mem_cons.mpr (Or.inl (List.mem_singleton.mp hx)))
      · exact Or.inr (List.mem_cons_of_mem y hrest)

theorem subset_distinctBy {kept : List α} (xs : List α) : kept ⊆ distinctBy same kept xs := by
  induction xs generalizing kept with
  | nil => exact fun _ hx => hx
  | cons y ys ih =>
      intro x hx
      apply ih
      split
      · exact hx
      · exact List.mem_append_left _ hx

/-- Nothing is lost but what is the same as something kept. -/
theorem exists_mem_distinctBy {kept xs : List α} {x : α} (h : x ∈ xs) :
    ∃ y ∈ distinctBy same kept xs, y = x ∨ same x y = true := by
  induction xs generalizing kept with
  | nil => cases h
  | cons z zs ih =>
      rcases List.mem_cons.mp h with rfl | hrest
      · by_cases hany : kept.any (same x) = true
        · obtain ⟨y, hy, hsame⟩ := List.any_eq_true.mp hany
          refine ⟨y, subset_distinctBy zs ?_, Or.inr hsame⟩
          rw [if_pos hany]
          exact hy
        · refine ⟨x, subset_distinctBy zs ?_, Or.inl rfl⟩
          rw [if_neg hany]
          exact List.mem_append_right _ (List.mem_singleton_self x)
      · exact ih hrest

theorem pairwise_distinctBy {kept xs : List α}
    (h : kept.Pairwise fun x y => same y x = false) :
    (distinctBy same kept xs).Pairwise fun x y => same y x = false := by
  induction xs generalizing kept with
  | nil => exact h
  | cons y ys ih =>
      apply ih
      by_cases hany : kept.any (same y) = true
      · rwa [if_pos hany]
      · rw [if_neg hany]
        refine List.pairwise_append.mpr ⟨h, List.pairwise_singleton _ y, ?_⟩
        intro x hx z hz
        obtain rfl := List.mem_singleton.mp hz
        simp only [List.any_eq_true, not_exists, not_and, Bool.not_eq_true] at hany
        exact hany x hx

theorem distinctBy_eq_append {kept xs : List α}
    (h : (kept ++ xs).Pairwise fun x y => same y x = false) :
    distinctBy same kept xs = kept ++ xs := by
  induction xs generalizing kept with
  | nil => simp [distinctBy]
  | cons y ys ih =>
      have hnew : ¬ kept.any (same y) = true := by
        simp only [List.any_eq_true, not_exists, not_and, Bool.not_eq_true]
        intro x hx
        exact (List.pairwise_append.mp h).2.2 x hx y List.mem_cons_self
      rw [distinctBy, if_neg hnew, ih (by simpa using h), List.append_assoc, List.singleton_append]

end Distinct

theorem Value.distinctFrom_eq (kept xs : List Value) :
    distinctFrom kept xs = distinctBy same kept xs := by
  induction xs generalizing kept with
  | nil => rfl
  | cons x xs ih => exact ih _

section Pairs

variable {α β : Type} {R S : α → β → Prop} {xs : List α} {ys : List β}

theorem forall₂_of_mem (h : List.Forall₂ R xs ys) (himp : ∀ x ∈ xs, ∀ y, R x y → S x y) :
    List.Forall₂ S xs ys := by
  induction h with
  | nil => exact .nil
  | cons hxy _ ih =>
      exact .cons (himp _ List.mem_cons_self _ hxy)
        (ih fun x hx => himp x (List.mem_cons_of_mem _ hx))

theorem getElem?_left_of_forall₂ (h : List.Forall₂ R xs ys) {i : Nat} {y : β}
    (hy : ys[i]? = some y) : ∃ x, xs[i]? = some x ∧ R x y := by
  induction h generalizing i with
  | nil => simp at hy
  | cons hxy _ ih =>
      cases i with
      | zero =>
          obtain rfl := Option.some.inj hy
          exact ⟨_, rfl, hxy⟩
      | succ i => exact ih hy

theorem exists_mem_left_of_forall₂ (h : List.Forall₂ R xs ys) {y : β} (hy : y ∈ ys) :
    ∃ x ∈ xs, R x y := by
  obtain ⟨i, hi⟩ := List.getElem?_of_mem hy
  obtain ⟨x, hx, hxy⟩ := getElem?_left_of_forall₂ h hi
  exact ⟨x, List.mem_of_getElem? hx, hxy⟩

theorem exists_forall₂_of_forall (h : ∀ x ∈ xs, ∃ y, R x y) : ∃ ys, List.Forall₂ R xs ys := by
  induction xs with
  | nil => exact ⟨[], .nil⟩
  | cons x xs ih =>
      obtain ⟨⟨y, hy⟩, hrest⟩ := List.forall_mem_cons.mp h
      obtain ⟨ys, hys⟩ := ih hrest
      exact ⟨y :: ys, .cons hy hys⟩

end Pairs

namespace Bound

theorem same_symm {a b : Bound} (h : a.same b = true) : b.same a = true := by
  cases a <;> cases b <;> simp only [same, Bool.and_eq_true, beq_iff_eq, Bool.false_eq_true] at h ⊢
  · exact ⟨h.1.symm, Atom.same_symm h.2⟩
  · exact Atom.same_symm h
  · exact ⟨h.1.symm, h.2.symm⟩

end Bound

theorem sameBounds_iff {bs cs : List Bound} :
    sameBounds bs cs = true ↔ List.Forall₂ (fun b c => b.same c = true) bs cs := by
  induction bs generalizing cs with
  | nil => cases cs <;> simp [sameBounds]
  | cons b bs ih => cases cs <;> simp [sameBounds, ih]

theorem Constraint.same_iff {c d : Constraint} :
    c.same d = true ↔
      c.kind = d.kind ∧ List.Forall₂ (fun a b => a.same b = true) c.bounds d.bounds := by
  rw [same, Bool.and_eq_true, beq_iff_eq, sameBounds_iff]

namespace Value

/-- A property holds of every value if it passes from the parts of a value to the value. -/
@[induction_eliminator]
theorem induct {P : Value → Prop} (top : P .top) (atom : ∀ a, P (.atom a))
    (constraint : ∀ c, P (.constraint c))
    (any : ∀ xs, (∀ x ∈ xs, P x) → P (.any xs))
    (struct : ∀ fields, (∀ f ∈ fields, P f.2) → P (.struct fields))
    (list : ∀ items tail, (∀ x ∈ items, P x) → (∀ t ∈ tail, P t) → P (.list items tail))
    (v : Value) : P v :=
  Value.rec (motive_1 := P) (motive_2 := fun xs => ∀ x ∈ xs, P x)
    (motive_3 := fun fields => ∀ f ∈ fields, P f.2) (motive_4 := fun tail => ∀ t ∈ tail, P t)
    (motive_5 := fun f => P f.2) top atom constraint any struct list
    (fun _ h => nomatch h) (fun _ _ hx hxs => List.forall_mem_cons.mpr ⟨hx, hxs⟩)
    (fun _ h => nomatch h) (fun _ _ hf hfs => List.forall_mem_cons.mpr ⟨hf, hfs⟩)
    (fun _ h => nomatch h) (fun _ hx _ ht => Option.mem_some.mp ht ▸ hx) (fun _ _ hx => hx) v

theorem sameAll_iff {xs ys : List Value} :
    sameAll xs ys = true ↔ List.Forall₂ (fun x y => x.same y = true) xs ys := by
  induction xs generalizing ys with
  | nil => cases ys <;> simp [sameAll]
  | cons x xs ih => cases ys <;> simp [sameAll, ih]

theorem sameFields_iff {fs gs : List (String × Value)} :
    sameFields fs gs = true ↔
      List.Forall₂ (fun f g => f.1 = g.1 ∧ f.2.same g.2 = true) fs gs := by
  induction fs generalizing gs with
  | nil => cases gs <;> simp [sameFields]
  | cons f fs ih =>
      obtain ⟨l, x⟩ := f
      cases gs with
      | nil => simp [sameFields]
      | cons g gs =>
          obtain ⟨m, y⟩ := g
          simp [sameFields, ih]

theorem sameTail_iff {t u : Option Value} :
    sameTail t u = true ↔ Option.Rel (fun x y => x.same y = true) t u := by
  cases t <;> cases u <;> simp [sameTail]

theorem same_symm {v w : Value} (h : v.same w = true) : w.same v = true := by
  induction v generalizing w with
  | top => cases w <;> simp [same] at h ⊢
  | atom a =>
      cases w <;> simp only [same, Bool.false_eq_true] at h ⊢
      exact Atom.same_symm h
  | constraint c =>
      cases w <;> simp only [same, Bool.false_eq_true] at h ⊢
      rw [Constraint.same_iff] at h ⊢
      exact ⟨h.1.symm, h.2.flip.imp fun _ _ => Bound.same_symm⟩
  | any xs ih =>
      cases w <;> simp only [same, Bool.false_eq_true] at h ⊢
      rw [sameAll_iff] at h ⊢
      exact (forall₂_of_mem h fun x hx _ hxy => ih x hx hxy).flip
  | struct fields ih =>
      cases w <;> simp only [same, Bool.false_eq_true] at h ⊢
      rw [sameFields_iff] at h ⊢
      exact (forall₂_of_mem h fun f hf _ hfg => ⟨hfg.1.symm, ih f hf hfg.2⟩).flip
  | list items tail hitems htail =>
      cases w <;> simp only [same, Bool.false_eq_true, Bool.and_eq_true] at h ⊢
      rw [sameAll_iff, sameTail_iff] at h ⊢
      refine ⟨(forall₂_of_mem h.1 fun x hx _ hxy => hitems x hx hxy).flip, ?_⟩
      cases h.2 with
      | none => exact .none
      | some htu => exact .some (htail _ rfl htu)

end Value

end ApiProbe
