import ApiProbe.Proofs.Expr.Reading

/-!
# Rows of operands

The parts of a conjunction and the options of a disjunction are read one after the other and collected
in one frame. Both are rows of operands with a sign between any two.
-/

namespace ApiProbe.Expr

/-- A text in front of which a blank or a separator ends. -/
def Starts (chars : List Char) : Prop :=
  chars ≠ [] ∧ Solid chars

theorem Starts.solid_append {chars : List Char} (h : Starts chars) (rest : List Char) :
    Solid (chars ++ rest) := by
  obtain ⟨hne, hsolid⟩ := h
  rwa [Solid, List.head?_append_of_ne_nil _ hne]

/-- A kind of row, with what its frame holds and how the operands in it and the row itself close. -/
structure Row where
  sign : Char
  terminal : Terminal
  frame : List Tree → Frame
  tree : List Tree → Tree
  inner : Tree → List Frame → Tree × List Frame
  outer : Tree → List Frame → Tree × List Frame
  rank : Nat
  symbol : terminal.symbol? = some sign
  sign_mem : sign ∈ symbolChars
  follows : terminal.followsOperand = true
  not_closing : terminal ≠ .rightParen ∧ terminal ≠ .rightBracket
  rank_frame : ∀ done, rank ≤ (frame done).rank
  first : ∀ {t u : Tree} {fs gs : List Frame}, inner t fs = (u, gs) → Outside (rank + 1) gs →
    ∀ text position, continue? t fs ⟨terminal, text, position⟩
      = some ⟨.expression, frame [u] :: gs⟩
  next : ∀ {t u : Tree} {fs gs : List Frame} {done : List Tree}, inner t fs = (u, frame done :: gs) →
    ∀ text position, continue? t fs ⟨terminal, text, position⟩
      = some ⟨.expression, frame (done ++ [u]) :: gs⟩
  close : ∀ {t u : Tree} {fs gs : List Frame} {done : List Tree}, inner t fs = (u, frame done :: gs) →
    outer t fs = (tree (done ++ [u]), gs)

namespace Row

def all : Row where
  sign := '&'
  terminal := .ampersand
  frame := .all
  tree := .all
  inner := closeTest
  outer := closeAll
  rank := 4
  symbol := rfl
  sign_mem := by decide
  follows := rfl
  not_closing := ⟨nofun, nofun⟩
  rank_frame _ := Nat.le_refl 4
  first h hgs _ _ := congrArg some (addPart_first h hgs)
  next h _ _ := congrArg some (addPart_next h)
  close h := closeAll_all h

def any : Row where
  sign := '|'
  terminal := .bar
  frame := .any
  tree := .any
  inner := closeAll
  outer := closeExpression
  rank := 5
  symbol := rfl
  sign_mem := by decide
  follows := rfl
  not_closing := ⟨nofun, nofun⟩
  rank_frame _ := Nat.le_refl 5
  first h hgs _ _ := congrArg some (addOption_first h hgs)
  next h _ _ := congrArg some (addOption_next h)
  close h := closeExpression_any h

def chars (row : Row) (operands : List (List Char)) : List Char :=
  [' ', row.sign, ' '].intercalate operands

theorem chars_singleton (row : Row) (cs : List Char) : row.chars [cs] = cs := by
  rw [chars, List.intercalate_singleton]

theorem chars_cons_cons (row : Row) (cs ds : List Char) (operands : List (List Char)) :
    row.chars (cs :: ds :: operands) = cs ++ ' ' :: row.sign :: ' ' :: row.chars (ds :: operands) := by
  rw [chars, List.intercalate_cons_cons, List.append_assoc]
  rfl

theorem starts_chars (row : Row) {cs : List Char} (h : Starts cs) (operands : List (List Char)) :
    Starts (row.chars (cs :: operands)) := by
  cases operands with
  | nil => rwa [chars_singleton]
  | cons ds operands =>
      rw [chars_cons_cons]
      exact ⟨List.append_ne_nil_of_left_ne_nil h.1 _, h.solid_append _⟩

variable {row : Row}

/-- The sign of the row and the blanks around it lead to the next operand. -/
theorem advances_sign {p q : Phase} {t : Tree} {frames : List Frame} {n : Machine} {rest : List Char}
    (h : p.Operand q t)
    (hcontinue : ∀ text position, continue? t frames ⟨row.terminal, text, position⟩ = some n)
    (hrest : Solid rest) :
    Advances ⟨q, frames⟩ (' ' :: row.sign :: ' ' :: rest) n rest := by
  have hsign : Solid (row.sign :: ' ' :: rest) :=
    solid_cons (notMem_gapChars_of_mem_symbolChars _ row.sign_mem) _
  refine (Advances.blank _ hsign).trans (Advances.trans ?_ (Advances.blank _ hrest))
  exact Advances.follow h (lexes_symbol row.symbol row.sign_mem _) row.follows
    (fun _ => row.not_closing) hcontinue

variable {parts : List (List Char × Tree)}

/-- The operands behind the first one are collected one by one. -/
theorem reads_rest {done : List Tree} {frames : List Frame} {rest : List Char} (hne : parts ≠ [])
    (hparts : ∀ part ∈ parts,
      Reads Phase.opens row.inner row.rank part.1 part.2 ∧ Starts part.1) (hrest : Ends rest) :
    ∃ q fs u, Advances ⟨.expression, row.frame done :: frames⟩
        (row.chars (parts.map Prod.fst) ++ rest) ⟨q, fs⟩ rest ∧
      Phase.expression.Operand q u ∧
        row.outer u fs = (row.tree (done ++ parts.map Prod.snd), frames) := by
  induction parts generalizing done with
  | nil => exact absurd rfl hne
  | cons part parts ih =>
      obtain ⟨hreads, -⟩ := hparts part List.mem_cons_self
      have hframes : Outside row.rank (row.frame done :: frames) :=
        outside_cons (row.rank_frame done)
      cases parts with
      | nil =>
          obtain ⟨q, fs, u, hadvances, hoperand, hclose⟩ :=
            hreads .expression _ rest rfl hframes hrest
          refine ⟨q, fs, u, ?_, hoperand, row.close hclose⟩
          rwa [List.map_singleton, chars_singleton]
      | cons next parts =>
          have hothers := fun other hother => hparts other (List.mem_cons_of_mem part hother)
          have hsolid : Solid (row.chars (next.1 :: parts.map Prod.fst) ++ rest) :=
            (row.starts_chars (hothers next List.mem_cons_self).2 _).solid_append rest
          obtain ⟨q, fs, u, hadvances, hoperand, hclose⟩ :=
            hreads .expression _ _ rfl hframes (ends_cons (c := ' ') (by decide) _)
          obtain ⟨q', fs', u', hadvances', hoperand', hclose'⟩ :=
            @ih (done ++ [part.2]) (List.cons_ne_nil _ _) hothers
          refine ⟨q', fs', u', ?_, hoperand', ?_⟩
          · rw [List.map_cons, List.map_cons, chars_cons_cons, List.append_assoc]
            exact hadvances.trans ((advances_sign hoperand (row.next hclose) hsolid).trans hadvances')
          · rw [hclose', List.append_assoc]
            rfl

/-- A row of at least two operands is read as the tree of what they are read as. -/
theorem reads {first next : List Char × Tree} (hparts : ∀ part ∈ first :: next :: parts,
    Reads Phase.opens row.inner row.rank part.1 part.2 ∧ Starts part.1) :
    Reads Phase.opens row.outer (row.rank + 1)
      (row.chars ((first :: next :: parts).map Prod.fst))
      (row.tree ((first :: next :: parts).map Prod.snd)) := by
  intro p frames rest hp hframes hrest
  have hothers := fun other hother => hparts other (List.mem_cons_of_mem first hother)
  have hsolid : Solid (row.chars (next.1 :: parts.map Prod.fst) ++ rest) :=
    (row.starts_chars (hothers next List.mem_cons_self).2 _).solid_append rest
  obtain ⟨q, fs, u, hadvances, hoperand, hclose⟩ := (hparts first List.mem_cons_self).1 p frames _ hp
    (hframes.mono (Nat.le_succ _)) (ends_cons (c := ' ') (by decide) _)
  obtain ⟨q', fs', u', hadvances', hoperand', hclose'⟩ :=
    @reads_rest row (next :: parts) [first.2] frames rest (List.cons_ne_nil _ _) hothers hrest
  refine ⟨q', fs', u', ?_, hoperand'.of_opensField rfl, hclose'⟩
  rw [List.map_cons, List.map_cons, chars_cons_cons, List.append_assoc]
  exact hadvances.trans ((advances_sign hoperand (row.first hclose hframes) hsolid).trans hadvances')

end Row

end ApiProbe.Expr
