import ApiProbe.Proofs.Expr.Reading
import ApiProbe.Proofs.Expr.Written

/-!
# Reading words

What the parser does with the words of a text, whatever blanks stand between them. Each word is taken
as one token of its terminal, and a comma takes the blanks behind it along.
-/

namespace ApiProbe.Expr

theorem IsGap.apart {gap : List Char} (h : IsGap gap) (rest : List Char) : Apart (gap ++ rest) := by
  obtain ⟨hne, hgap⟩ := h
  intro c hc
  rw [List.head?_append_of_ne_nil _ hne] at hc
  exact hgap c (List.mem_of_mem_head? hc)

theorem IsGap.blank {gap : List Char} (h : IsGap gap) : ∀ c ∈ gap, c ∈ blankChars := by
  intro c hc
  rcases h.2 c hc with rfl | rfl <;> decide

namespace Word.Spelled

variable {w : Word}

theorem lexes (h : w.Spelled) (hterminal : w.terminal ≠ .separator) {rest : List Char}
    (hrest : Apart rest) : Lexes w.terminal w.chars rest := by
  obtain ⟨t, chars⟩ := w
  cases t with
  | float => exact lexes_isFloat h hrest.ends
  | int => exact lexes_digits h hrest.ends
  | string => exact lexes_isString h rest
  | name => simpa using lexes_isName h hrest.ends
  | separator => exact absurd rfl hterminal
  | finish => exact h.elim
  | ellipsis =>
      obtain rfl : chars = _ := h
      exact lexes_ellipsis rest
  | test =>
      obtain ⟨test, rfl⟩ := h
      refine lexes_test test fun c hc => ?_
      rcases hrest c hc with rfl | rfl <;> decide
  | _ =>
      obtain ⟨c, hc, rfl⟩ := h
      exact lexes_mark hc hrest

/-- No word starts with a blank, and few start with what a separator may go on with. -/
theorem exists_cons (h : w.Spelled) : ∃ c cs, w.chars = c :: cs ∧ isSkipped c = false ∧
    (c ∈ gapChars → w.terminal = .separator ∨ w.terminal = .slash) := by
  have hplain {c : Char} (hc : c ∉ gapChars) : isSkipped c = false ∧
      (c ∈ gapChars → w.terminal = .separator ∨ w.terminal = .slash) :=
    ⟨skipped_of_solid (solid_cons hc []) c rfl, fun hmem => absurd hmem hc⟩
  have hdigits {cs : List Char} (hcs : IsDigits cs) (rest : List Char) : ∃ d ds, cs ++ rest = d :: ds ∧
      isSkipped d = false ∧ (d ∈ gapChars → w.terminal = .separator ∨ w.terminal = .slash) := by
    obtain ⟨d, ds, rfl, hdecimal⟩ := hcs.exists_cons
    exact ⟨d, ds ++ rest, rfl, hplain (notMem_gapChars_of_isDecimal (hdecimal d List.mem_cons_self))⟩
  obtain ⟨t, chars⟩ := w
  cases t with
  | float =>
      cases h with
      | fraction hwhole => exact hdigits hwhole _
      | exponent hwhole => exact hdigits hwhole _
  | int => simpa using hdigits h []
  | string =>
      obtain ⟨body, rfl, -⟩ := h
      exact ⟨'"', body, rfl, hplain (by decide)⟩
  | name =>
      have hmarks : ∀ c ∈ gapChars, Value.isLabelStart c = false :=
        List.all_iff_forall_prop.mp (by decide)
      obtain ⟨c, cs, hchars, hc, -⟩ := exists_isName h
      refine ⟨c, cs, by simpa using hchars, hplain fun hmem => ?_⟩
      rw [hmarks c hmem] at hc
      cases hc
  | separator =>
      obtain rfl : chars = _ := h
      exact ⟨',', [], rfl, by decide, fun _ => Or.inl rfl⟩
  | finish => exact h.elim
  | ellipsis =>
      obtain rfl : chars = _ := h
      exact ⟨'.', ['.', '.'], rfl, hplain (by decide)⟩
  | test =>
      have hsigns : ∀ c ∈ ['<', '>', '!', '='], c ∉ gapChars :=
        List.all_iff_forall_prop.mp (by decide)
      obtain ⟨test, rfl⟩ := h
      obtain ⟨c, more, hsign, hc, -⟩ := test.exists_sign_eq
      exact ⟨c, more, hsign, hplain (hsigns c hc)⟩
  | slash =>
      obtain ⟨c, hc, rfl⟩ := h
      cases hc
      exact ⟨'/', [], rfl, by decide, fun _ => Or.inr rfl⟩
  | _ =>
      obtain ⟨c, hc, rfl⟩ := h
      cases hc
      exact ⟨_, [], rfl, hplain (by decide)⟩

end Word.Spelled

/-- One word leads from one state to another. The blanks behind a comma belong to its token. -/
structure Machine.Step (m : Machine) (w : Word) (n : Machine) : Prop where
  spelled : w.Spelled
  accepts : m.phase.accepts w.terminal = true
  feed : ∀ text position, w.terminal = .separator ∨ text = String.ofList w.chars →
    m.feed? ⟨w.terminal, text, position⟩ = some n

/-- One word after the other leads from one state to another. -/
inductive Machine.Steps : Machine → List Word → Machine → Prop
  | nil {m : Machine} : Steps m [] m
  | cons {l m n : Machine} {w : Word} {words : List Word} (h : l.Step w m) (hrest : Steps m words n) :
      Steps l (w :: words) n

namespace Machine.Steps

variable {l m n : Machine}

theorem one {w : Word} (h : m.Step w n) : m.Steps [w] n :=
  .cons h .nil

theorem append {front back : List Word} (h : l.Steps front m) (hback : m.Steps back n) :
    l.Steps (front ++ back) n := by
  induction h with
  | nil => exact hback
  | cons hstep _ ih => exact .cons hstep (ih hback)

end Machine.Steps

/-- Behind a separator, neither a further one nor a division is looked for. -/
theorem accepts_of_separator {m n : Machine} {text : String} {position : Position}
    (h : m.feed? ⟨.separator, text, position⟩ = some n) :
    n.phase.accepts .separator = false ∧ n.phase.accepts .slash = false := by
  have hseparate {t : Tree} {frames : List Frame} (h : separate? t frames = some n) :
      n.phase.accepts .separator = false ∧ n.phase.accepts .slash = false := by
    unfold separate? at h
    split at h
    · cases h
      exact ⟨rfl, rfl⟩
    · split at h
      · cases h
        exact ⟨rfl, rfl⟩
      · cases h
        exact ⟨rfl, rfl⟩
      · split at h <;> cases h
        exact ⟨rfl, rfl⟩
  obtain ⟨phase, frames⟩ := m
  cases phase with
  | complete tree => exact hseparate h
  | labelOrOperand label => exact hseparate h
  | start | structOpen | listOpen =>
      cases h
      exact ⟨rfl, rfl⟩
  | ellipsis =>
      simp only [Machine.feed?] at h
      split at h
      · rename_i hbracket
        cases hbracket
      · cases h
        exact ⟨rfl, rfl⟩
      · cases h
  | _ => cases h

variable {m n : Machine}

theorem Machine.Step.advances {w : Word} {gap rest : List Char} (h : m.Step w n)
    (hgap : ∀ c ∈ gap, c ∈ blankChars) (hrest : ∀ c ∈ rest.head?, isSkipped c = false)
    (hapart : Apart (gap ++ rest)) (hsolid : w.terminal = .separator → Solid rest) :
    Advances m (w.chars ++ (gap ++ rest)) n rest := by
  by_cases hterminal : w.terminal = .separator
  · obtain ⟨t, chars⟩ := w
    obtain rfl : t = .separator := hterminal
    obtain rfl : chars = [','] := h.spelled
    have hlexes : Lexes .separator (',' :: gap) rest :=
      lexes_layout (by decide) (fun c hc => List.mem_append_right [',', '\n'] (hgap c hc)) (hsolid rfl)
    exact Advances.token hlexes h.accepts fun position => h.feed _ position (Or.inl rfl)
  · have htoken : Advances m (w.chars ++ (gap ++ rest)) n (gap ++ rest) :=
      Advances.token (h.spelled.lexes hterminal hapart) h.accepts
        fun position => h.feed _ position (Or.inr rfl)
    exact htoken.trans (Advances.blanks n hgap hrest)

theorem Written.head {w : Word} {words : List Word} {cs : List Char} (h : Written (w :: words) cs)
    (hw : w.Spelled) : ∀ c ∈ cs.head?, isSkipped c = false ∧
      (c ∈ gapChars → w.terminal = .separator ∨ w.terminal = .slash) := by
  obtain ⟨c, more, hchars, hhead⟩ := hw.exists_cons
  intro d hd
  cases h <;>
    rw [hchars] at hd <;> obtain rfl := Option.some.inj hd <;> exact hhead

/-- A text of words is read word by word. -/
theorem Machine.Steps.advances {words : List Word} {cs : List Char} (h : m.Steps words n)
    (hcs : Written words cs) : Advances m cs n [] := by
  induction hcs generalizing m with
  | nil =>
      cases h
      exact fun last position => ⟨last, position, rfl⟩
  | @word w =>
      cases h with
      | cons hstep hrest =>
          cases hrest
          have hlast : Advances m (w.chars ++ ([] ++ [])) n [] :=
            hstep.advances nofun nofun nofun fun _ => nofun
          rwa [List.append_nil, List.append_nil] at hlast
  | cons hgap hcs ih =>
      cases h with
      | cons hstep hrest =>
          cases hrest with
          | cons hnext hrest =>
              have hhead := hcs.head hnext.spelled
              refine (hstep.advances hgap.blank (fun c hc => (hhead c hc).1) (hgap.apart _) ?_).trans
                (ih (.cons hnext hrest))
              intro hseparator c hc hmem
              -- What a separator would go on with is not looked for behind it.
              obtain ⟨hnoSeparator, hnoSlash⟩ : _ ∧ _ :=
                accepts_of_separator (hseparator ▸ hstep.feed "" .start (Or.inl hseparator))
              have haccepts := hnext.accepts
              rcases (hhead c hc).2 hmem with hterminal | hterminal
              · rw [hterminal, hnoSeparator] at haccepts
                cases haccepts
              · rw [hterminal, hnoSlash] at haccepts
                cases haccepts

end ApiProbe.Expr
