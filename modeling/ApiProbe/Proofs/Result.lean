/-!
# Results of several steps

A computation of several steps has a result only where each of its steps has one.
-/

namespace ApiProbe

variable {ε α β : Type}

theorem bind_eq_ok_iff {x : Except ε α} {f : α → Except ε β} {b : β} :
    x >>= f = .ok b ↔ ∃ a, x = .ok a ∧ f a = .ok b := by
  constructor
  · intro h
    cases x with
    | error e => cases h
    | ok a => exact ⟨a, rfl, h⟩
  · rintro ⟨a, rfl, h⟩
    exact h

theorem bind_eq_error_iff {x : Except ε α} {f : α → Except ε β} {e : ε} :
    x >>= f = .error e ↔ x = .error e ∨ ∃ a, x = .ok a ∧ f a = .error e := by
  constructor
  · intro h
    cases x with
    | error e' =>
        obtain rfl : e' = e := Except.error.inj h
        exact Or.inl rfl
    | ok a => exact Or.inr ⟨a, rfl, h⟩
  · rintro (rfl | ⟨a, rfl, h⟩)
    · rfl
    · exact h

theorem map_eq_ok_iff {x : Except ε α} {f : α → β} {b : β} :
    x.map f = .ok b ↔ ∃ a, x = .ok a ∧ f a = b := by
  cases x <;> simp [Except.map]

theorem map_eq_error_iff {x : Except ε α} {f : α → β} {e : ε} :
    x.map f = .error e ↔ x = .error e := by
  cases x <;> simp [Except.map]

theorem map_map {γ : Type} (x : Except ε α) (f : α → β) (g : β → γ) :
    (x.map f).map g = x.map fun a => g (f a) := by
  cases x <;> rfl

theorem toOption_eq_some_iff {x : Except ε α} {a : α} : x.toOption = some a ↔ x = .ok a := by
  cases x <;> simp [Except.toOption]

theorem toOption_bind (x : Except ε α) (f : α → Except ε β) :
    (x >>= f).toOption = x.toOption.bind fun a => (f a).toOption := by
  cases x <;> rfl

theorem toOption_map (x : Except ε α) (f : α → β) : (x.map f).toOption = x.toOption.map f := by
  cases x <;> rfl

/-- What a computation fails with, if it fails, is as a condition says. -/
def FailsWith (P : ε → Prop) (x : Except ε α) : Prop :=
  ∀ e, x = .error e → P e

section FailsWith

variable {P Q : ε → Prop}

theorem failsWith_ok (a : α) : FailsWith P (.ok a) :=
  nofun

theorem failsWith_error {e : ε} (h : P e) : FailsWith (α := α) P (.error e) := by
  intro e' he
  exact Except.error.inj he ▸ h

theorem FailsWith.bind {x : Except ε α} {f : α → Except ε β} (hx : FailsWith P x)
    (hf : ∀ a, x = .ok a → FailsWith P (f a)) : FailsWith P (x >>= f) := by
  intro e h
  rcases bind_eq_error_iff.mp h with h | ⟨a, ha, h⟩
  · exact hx e h
  · exact hf a ha e h

theorem FailsWith.map {x : Except ε α} (hx : FailsWith P x) (f : α → β) : FailsWith P (x.map f) := by
  intro e h
  exact hx e (map_eq_error_iff.mp h)

end FailsWith

/-- A fold whose steps all succeed. -/
theorem foldlM_eq_ok {f : α → β → Except ε α} {g : α → β → α} {bs : List β}
    (hstep : ∀ a, ∀ b ∈ bs, f a b = .ok (g a b)) (a : α) : bs.foldlM f a = .ok (bs.foldl g a) := by
  induction bs generalizing a with
  | nil => rfl
  | cons b bs ih =>
      rw [List.foldlM_cons, hstep a b List.mem_cons_self]
      exact ih (fun a b' hb => hstep a b' (List.mem_cons_of_mem b hb)) (g a b)

/-- A property of what is computed so far that each step keeps is one of the result. -/
theorem foldlM_invariant {f : α → β → Except ε α} {P : α → Prop} {bs : List β} {a r : α}
    (hstart : P a) (hstep : ∀ a, P a → ∀ b ∈ bs, ∀ c, f a b = .ok c → P c)
    (h : bs.foldlM f a = .ok r) : P r := by
  induction bs generalizing a with
  | nil =>
      obtain rfl : a = r := Except.ok.inj h
      exact hstart
  | cons b bs ih =>
      rw [List.foldlM_cons, bind_eq_ok_iff] at h
      obtain ⟨c, hc, hrest⟩ := h
      refine ih (hstep a hstart b List.mem_cons_self c hc) ?_ hrest
      intro a ha b' hb
      exact hstep a ha b' (List.mem_cons_of_mem b hb)

/-- A fold that fails does so in a step from something that all steps before it keep a property of. -/
theorem foldlM_eq_error {f : α → β → Except ε α} {P : α → Prop} {bs : List β} {a : α} {e : ε}
    (hstart : P a) (hstep : ∀ a, P a → ∀ b ∈ bs, ∀ c, f a b = .ok c → P c)
    (h : bs.foldlM f a = .error e) : ∃ a, P a ∧ ∃ b ∈ bs, f a b = .error e := by
  induction bs generalizing a with
  | nil => cases h
  | cons b bs ih =>
      rw [List.foldlM_cons, bind_eq_error_iff] at h
      rcases h with h | ⟨c, hc, h⟩
      · exact ⟨a, hstart, b, List.mem_cons_self, h⟩
      · obtain ⟨a', ha', b', hb', herror⟩ := ih (hstep a hstart b List.mem_cons_self c hc)
          (fun a ha b' hb => hstep a ha b' (List.mem_cons_of_mem b hb)) h
        exact ⟨a', ha', b', List.mem_cons_of_mem b hb', herror⟩

end ApiProbe
