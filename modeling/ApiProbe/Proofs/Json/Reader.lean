import ApiProbe.Json.Reader
import ApiProbe.Proofs.Number.Rounding
import ApiProbe.Proofs.Value.Encode

/-!
# Data of JSON documents

What a document is read as is plain: all keys are texts, a repeated name does not make a second entry,
and numbers are rounded to the format.
-/

namespace ApiProbe.Json

theorem plain_number? {cs rest : List Char} {d : Datum}
    (h : number? cs = some (.ok (d, rest))) : d.Plain := by
  unfold number? at h
  split at h
  rename_i negative body _
  cases hwhole : wholePart? body with
  | none => simp [hwhole] at h
  | some parts =>
      simp only [hwhole] at h
      split at h
      · split at h
        · simp at h
        · simp only [Option.some.injEq, Except.ok.injEq, Prod.mk.injEq] at h
          exact h.1 ▸ .int
      · simp only [Option.some.injEq, Except.ok.injEq, Prod.mk.injEq] at h
        exact h.1 ▸ .float (Numeral.ofDecimal_inFormat _ _ _)

theorem plain_word? {cs rest : List Char} {d : Datum} (h : word? cs = some (d, rest)) :
    d.Plain := by
  have hwords : ∀ entry ∈ words, entry.2.Plain := by
    simp only [words, List.mem_cons, List.not_mem_nil, or_false, forall_eq_or_imp, forall_eq]
    exact ⟨.null, .bool, .bool, .float nofun, .float nofun, .float nofun⟩
  obtain ⟨entry, hentry, hdrop⟩ := List.exists_of_findSome?_eq_some h
  obtain ⟨_, _, hpair⟩ := Option.map_eq_some_iff.mp hdrop
  obtain ⟨rfl, _⟩ := Prod.mk.inj hpair
  exact hwords entry hentry

/-- Values, members and elements are plain for as many steps as there are left. -/
structure ReadsPlain (fuel : Nat) : Prop where
  value : ∀ cs d rest, value fuel cs = .ok (d, rest) → d.Plain
  members : ∀ done cs entries rest, (Datum.dict done).Plain →
    members fuel done cs = .ok (entries, rest) → (Datum.dict entries).Plain
  elements : ∀ cs items rest, elements fuel cs = .ok (items, rest) → ∀ d ∈ items, d.Plain

theorem plain_empty : (Datum.dict []).Plain :=
  .dict List.Pairwise.nil nofun nofun

variable {fuel : Nat}

theorem ReadsPlain.value_succ (ih : ReadsPlain fuel) {cs rest : List Char} {d : Datum}
    (h : Json.value (fuel + 1) cs = .ok (d, rest)) : d.Plain := by
  rw [Json.value.eq_def] at h
  dsimp only at h
  split at h
  · cases h
  · obtain ⟨⟨chars, _⟩, _, h⟩ := bind_eq_ok_iff.mp h
    obtain ⟨rfl, _⟩ := Prod.mk.inj (Except.ok.inj h)
    exact .string
  · split at h
    · obtain ⟨rfl, _⟩ := Prod.mk.inj (Except.ok.inj h)
      exact plain_empty
    · obtain ⟨⟨entries, _⟩, hmembers, h⟩ := bind_eq_ok_iff.mp h
      obtain ⟨rfl, _⟩ := Prod.mk.inj (Except.ok.inj h)
      exact ih.members _ _ _ _ plain_empty hmembers
  · split at h
    · obtain ⟨rfl, _⟩ := Prod.mk.inj (Except.ok.inj h)
      exact .list nofun
    · obtain ⟨⟨items, _⟩, helements, h⟩ := bind_eq_ok_iff.mp h
      obtain ⟨rfl, _⟩ := Prod.mk.inj (Except.ok.inj h)
      exact .list (ih.elements _ _ _ helements)
  · split at h
    · rename_i hword
      obtain rfl := Except.ok.inj h
      exact plain_word? hword
    · cases hnumber : number? cs with
      | none =>
          rw [hnumber] at h
          cases h
      | some reading =>
          rw [hnumber, Option.getD_some] at h
          exact plain_number? (h ▸ hnumber)

theorem ReadsPlain.members_succ (ih : ReadsPlain fuel) {done entries : List (Datum × Datum)}
    {cs rest : List Char} (hdone : (Datum.dict done).Plain)
    (h : Json.members (fuel + 1) done cs = .ok (entries, rest)) :
    (Datum.dict entries).Plain := by
  rw [Json.members.eq_def] at h
  dsimp only at h
  split at h
  · obtain ⟨⟨chars, _⟩, _, h⟩ := bind_eq_ok_iff.mp h
    dsimp only at h
    split at h
    · obtain ⟨⟨d, _⟩, hvalue, h⟩ := bind_eq_ok_iff.mp h
      have hnext : (Datum.dict (Datum.insert (.string (String.ofList chars)) d done)).Plain :=
        Datum.plain_insert hdone (ih.value _ _ _ hvalue)
      dsimp only at h
      split at h
      · obtain ⟨rfl, _⟩ := Prod.mk.inj (Except.ok.inj h)
        exact hnext
      · exact ih.members _ _ _ _ hnext h
      · cases h
    · cases h
  · cases h

theorem ReadsPlain.elements_succ (ih : ReadsPlain fuel) {items : List Datum}
    {cs rest : List Char} (h : Json.elements (fuel + 1) cs = .ok (items, rest)) :
    ∀ d ∈ items, d.Plain := by
  rw [Json.elements.eq_def] at h
  dsimp only at h
  obtain ⟨⟨d, _⟩, hvalue, h⟩ := bind_eq_ok_iff.mp h
  have hd := ih.value _ _ _ hvalue
  dsimp only at h
  split at h
  · obtain ⟨rfl, _⟩ := Prod.mk.inj (Except.ok.inj h)
    exact List.forall_mem_singleton.mpr hd
  · obtain ⟨⟨others, _⟩, hothers, h⟩ := bind_eq_ok_iff.mp h
    obtain ⟨rfl, _⟩ := Prod.mk.inj (Except.ok.inj h)
    exact List.forall_mem_cons.mpr ⟨hd, ih.elements _ _ _ hothers⟩
  · cases h

theorem readsPlain (fuel : Nat) : ReadsPlain fuel := by
  induction fuel with
  | zero =>
      refine ⟨fun cs d rest h => ?_, fun done cs entries rest _ h => ?_, fun cs items rest h => ?_⟩
      · unfold value at h
        cases h
      · unfold members at h
        cases h
      · unfold elements at h
        cases h
  | succ fuel ih =>
      exact ⟨fun _ _ _ => ih.value_succ, fun _ _ _ _ => ih.members_succ, fun _ _ _ => ih.elements_succ⟩

theorem plain_read {text : String} {d : Datum} (h : read text = .ok d) : d.Plain := by
  unfold read at h
  cases hread : readChars text.toList with
  | error flaw =>
      rw [hread] at h
      cases h
  | ok read =>
      rw [hread] at h
      obtain rfl := Except.ok.inj h
      rw [readChars.eq_def] at hread
      split at hread
      · cases hread
      · obtain ⟨⟨d, _⟩, hvalue, hread⟩ := bind_eq_ok_iff.mp hread
        dsimp only at hread
        split at hread
        · obtain rfl := Except.ok.inj hread
          exact (readsPlain _).value _ _ _ hvalue
        · cases hread

end ApiProbe.Json
