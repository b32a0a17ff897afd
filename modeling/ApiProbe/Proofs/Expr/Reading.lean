import ApiProbe.Proofs.Expr.Closing
import ApiProbe.Proofs.Expr.Lexeme

/-!
# Reading printed constructs

What the parser makes of a printed text in front of any other text: it comes to an operand that
closes to the tree of the text, with the frames that were open before. Each construct is read so if
its parts are.
-/

namespace ApiProbe.Expr

/-- From a state in front of a text, the parser comes to a state in front of another. -/
def Advances (m : Machine) (cs : List Char) (n : Machine) (ds : List Char) : Prop :=
  ∀ last position, ∃ last' position', m.run last position cs = n.run last' position' ds

/-- A separator, whatever it consists of, leads from one state to another. -/
def Machine.Separates (m n : Machine) : Prop :=
  m.phase.accepts .separator = true ∧
    ∀ text position, m.feed? ⟨.separator, text, position⟩ = some n

namespace Advances

variable {l m n : Machine} {bs cs ds : List Char}

theorem trans (h : Advances l bs m cs) (h' : Advances m cs n ds) : Advances l bs n ds := by
  intro last position
  obtain ⟨last₁, position₁, h₁⟩ := h last position
  obtain ⟨last₂, position₂, h₂⟩ := h' last₁ position₁
  exact ⟨last₂, position₂, h₁.trans h₂⟩

theorem token {t : Terminal} (hlexes : Lexes t bs cs) (haccepts : m.phase.accepts t = true)
    (hfeed : ∀ position, m.feed? ⟨t, String.ofList bs, position⟩ = some n) :
    Advances m (bs ++ cs) n cs := by
  obtain ⟨c, more, rfl, hlexeme⟩ := hlexes
  intro last position
  refine ⟨position, position.afterAll (c :: more), ?_⟩
  rw [List.cons_append, Machine.run, hlexeme _ haccepts]
  dsimp only
  rw [List.take_left, hfeed, List.drop_left]

theorem blanks (m : Machine) (hblanks : ∀ c ∈ bs, c ∈ blankChars)
    (hcs : ∀ c ∈ cs.head?, isSkipped c = false) : Advances m (bs ++ cs) m cs := by
  intro last position
  cases bs with
  | nil => exact ⟨last, position, rfl⟩
  | cons c bs =>
      refine ⟨last, position.afterAll (c :: bs), ?_⟩
      rw [List.cons_append, Machine.run, lexeme?_blanks hblanks hcs]
      dsimp only
      rw [List.take_left, List.drop_left]

theorem blank (m : Machine) (h : Solid cs) : Advances m (' ' :: cs) m cs :=
  blanks m (List.forall_mem_singleton.mpr (List.mem_cons_self : ' ' ∈ blankChars))
    (skipped_of_solid h)

/-- A layout is passed over up to its first separator, which leads to another state. -/
theorem layout (hlayout : ∀ c ∈ bs, c ∈ layoutChars) (hcs : Solid cs) (h : m.Separates n) :
    Advances m (bs ++ cs) n cs ∨ Advances m (bs ++ cs) m cs ∧ ∀ c ∈ bs, c ∈ blankChars := by
  obtain ⟨blanks, back, rfl, hblanks, hback, hhead⟩ := exists_layout_eq hlayout
  rw [List.append_assoc]
  cases back with
  | nil =>
      refine Or.inr ⟨Advances.blanks m hblanks (skipped_of_solid hcs), ?_⟩
      rwa [List.append_nil]
  | cons c back =>
      have hmarks : ∀ c ∈ [',', '\n'], isSkipped c = false :=
        List.all_iff_forall_prop.mp (by decide)
      have hc := hhead c rfl
      have hskip : Advances m (blanks ++ (c :: back ++ cs)) m (c :: back ++ cs) := by
        apply Advances.blanks m hblanks
        intro d hd
        obtain rfl := Option.some.inj hd
        exact hmarks c hc
      exact Or.inl (hskip.trans (Advances.token
        (lexes_layout hc (List.forall_mem_cons.mp hback).2 hcs) h.1 fun position => h.2 _ position))

end Advances

/-- The phases that an expression may start in. -/
def Phase.opens : Phase → Bool
  | .start | .startSeparated | .expression | .fieldValue => true
  | .listOpen | .listSeparated | .ellipsis => true
  | _ => false

/-- The phases in which a name or a string may turn out to be a label. -/
def Phase.opensField : Phase → Bool
  | .start | .startSeparated | .fieldValue => true
  | _ => false

/-- The phases that an operand may start in: also those behind a sign. -/
def Phase.opensOperand : Phase → Bool
  | .operand => true
  | p => p.opens

theorem opensOperand_of_opens {p : Phase} (h : p.opens = true) : p.opensOperand = true := by
  cases p <;> first | rfl | exact h

/-- The last token completed an operand, which a label may still come of only in front of a field. -/
def Phase.Operand (opener phase : Phase) (t : Tree) : Prop :=
  phase = .complete t ∨
    opener.opensField = true ∧ ∃ label : Label, phase = .labelOrOperand label ∧ label.operand = t

theorem accepts_of_opens {p : Phase} {t : Terminal} (hp : p.opens = true)
    (ht : t.startsExpression = true) : p.accepts t = true := by
  cases p <;> first | exact Bool.noConfusion hp | simp [Phase.accepts, ht]

theorem eq_operand_or_opens {p : Phase} (h : p.opensOperand = true) :
    p = .operand ∨ p.opens = true := by
  cases p <;> first | exact Or.inl rfl | exact Or.inr h

theorem startsExpression_of_startsOperand {t : Terminal} (h : t.startsOperand = true) :
    t.startsExpression = true := by
  rw [Terminal.startsExpression, h, Bool.or_true]

theorem accepts_of_opensOperand {p : Phase} {t : Terminal} (hp : p.opensOperand = true)
    (ht : t.startsOperand = true) : p.accepts t = true := by
  rcases eq_operand_or_opens hp with rfl | hp
  · exact ht
  · exact accepts_of_opens hp (startsExpression_of_startsOperand ht)

section Feed

variable {p : Phase} {t : Terminal}

theorem feed?_of_opens (hp : p.opens = true) (ht : t.startsExpression = true)
    (hfield : p.opensField = false ∨ (t ≠ .name ∧ t ≠ .string)) (frames : List Frame)
    (text : String) (position : Position) :
    Machine.feed? ⟨p, frames⟩ ⟨t, text, position⟩ = begin? frames ⟨t, text, position⟩ := by
  cases p <;> first
    | exact Bool.noConfusion hp
    | (cases t <;> first
        | rfl
        | exact Bool.noConfusion ht
        | exact absurd rfl (hfield.resolve_left (by decide)).1
        | exact absurd rfl (hfield.resolve_left (by decide)).2)

theorem feed?_of_opensOperand (hp : p.opensOperand = true) (ht : t.startsOperand = true)
    (hfield : p.opensField = false ∨ (t ≠ .name ∧ t ≠ .string)) (frames : List Frame)
    (text : String) (position : Position) :
    Machine.feed? ⟨p, frames⟩ ⟨t, text, position⟩ = begin? frames ⟨t, text, position⟩ := by
  rcases eq_operand_or_opens hp with rfl | hp
  · apply if_neg
    rw [beq_iff_eq]
    rintro rfl
    cases ht
  · exact feed?_of_opens hp (startsExpression_of_startsOperand ht) hfield frames text position

end Feed

def Terminal.operand? (text : String) : Terminal → Option Tree
  | .string => some (.string text)
  | .int => some (.int text)
  | .float => some (.float text)
  | .name => some (.ref text)
  | _ => none

theorem feed?_operand {p : Phase} {t : Terminal} {text : String} {tree : Tree}
    (hp : p.opensOperand = true) (ht : t.operand? text = some tree) (frames : List Frame) :
    t.startsOperand = true ∧ ∃ q, p.Operand q tree ∧
      ∀ position, Machine.feed? ⟨p, frames⟩ ⟨t, text, position⟩ = some ⟨q, frames⟩ := by
  obtain ⟨hstarts, hbegin⟩ : t.startsOperand = true ∧ ∀ position,
      begin? frames ⟨t, text, position⟩ = some ⟨.complete tree, frames⟩ := by
    cases t <;> cases ht <;> exact ⟨rfl, fun _ => rfl⟩
  refine ⟨hstarts, ?_⟩
  by_cases hfield : p.opensField = false ∨ (t ≠ .name ∧ t ≠ .string)
  · refine ⟨.complete tree, Or.inl rfl, fun position => ?_⟩
    rw [feed?_of_opensOperand hp hstarts hfield]
    exact hbegin position
  · rw [not_or, Bool.not_eq_false, Decidable.not_and_iff_or_not, Decidable.not_not,
      Decidable.not_not] at hfield
    obtain ⟨hfield, rfl | rfl⟩ := hfield
    · cases ht
      refine ⟨.labelOrOperand (.name text), Or.inr ⟨hfield, _, rfl, rfl⟩, fun position => ?_⟩
      cases p <;> first | exact Bool.noConfusion hfield | rfl
    · cases ht
      refine ⟨.labelOrOperand (.quoted text), Or.inr ⟨hfield, _, rfl, rfl⟩, fun position => ?_⟩
      cases p <;> first | exact Bool.noConfusion hfield | rfl

theorem Phase.Operand.accepts {p q : Phase} {t : Tree} {terminal : Terminal} (h : p.Operand q t)
    (hfollows : terminal.followsOperand = true)
    (hfield : p.opensField = true → terminal ≠ .rightParen ∧ terminal ≠ .rightBracket) :
    q.accepts terminal = true := by
  rcases h with rfl | ⟨hp, label, rfl, -⟩
  · exact hfollows
  · obtain ⟨hparen, hbracket⟩ := hfield hp
    simp [Phase.accepts, hfollows, hparen, hbracket]

theorem Phase.Operand.feed? {p q : Phase} {t : Tree} {frames : List Frame} {token : Token}
    (h : p.Operand q t) (hcolon : token.terminal ≠ .colon) :
    Machine.feed? ⟨q, frames⟩ token = continue? t frames token := by
  rcases h with rfl | ⟨-, label, rfl, rfl⟩
  · rfl
  · unfold Machine.feed?
    exact if_neg (by simp [hcolon])

/-- Where nothing is open around an operand, it is the whole expression. -/
theorem Phase.Operand.finish? {p q : Phase} {t u : Tree} {frames : List Frame} (h : p.Operand q u)
    (hclose : closeExpression u frames = (t, [])) :
    Machine.finish? ⟨q, frames⟩ = some (.value t) := by
  rcases h with rfl | ⟨-, label, rfl, rfl⟩ <;>
    simp only [Machine.finish?, closeField?_nil hclose, hclose]

/-- An operand that started where no label can stand is complete. -/
theorem Phase.Operand.of_opensField {p q opener : Phase} {t : Tree} (h : p.Operand q t)
    (hp : p.opensField = false) : opener.Operand q t := by
  rcases h with rfl | ⟨hfield, -⟩
  · exact Or.inl rfl
  · rw [hp] at hfield
    cases hfield

/-- What goes on after an operand goes on after it whether it may be a label or not. -/
theorem Phase.Operand.feed?_of_follows {p q : Phase} {t : Tree} {frames : List Frame} {n : Machine}
    {terminal : Terminal} (h : p.Operand q t) (hfollows : terminal.followsOperand = true)
    (hcontinue : ∀ text position, continue? t frames ⟨terminal, text, position⟩ = some n)
    (text : String) (position : Position) :
    Machine.feed? ⟨q, frames⟩ ⟨terminal, text, position⟩ = some n := by
  rw [h.feed?]
  · exact hcontinue text position
  · rintro rfl
    cases hfollows

theorem Advances.follow {p q : Phase} {t : Tree} {frames : List Frame} {n : Machine}
    {terminal : Terminal} {chars rest : List Char} (h : p.Operand q t)
    (hlexes : Lexes terminal chars rest) (hfollows : terminal.followsOperand = true)
    (hfield : p.opensField = true → terminal ≠ .rightParen ∧ terminal ≠ .rightBracket)
    (hcontinue : ∀ text position, continue? t frames ⟨terminal, text, position⟩ = some n) :
    Advances ⟨q, frames⟩ (chars ++ rest) n rest :=
  Advances.token hlexes (h.accepts hfollows hfield)
    fun position => h.feed?_of_follows hfollows hcontinue _ position

/-- Where the phase and the frames allow it, the text is read as an operand that closes to the tree. -/
def Reads (opens : Phase → Bool) (close : Tree → List Frame → Tree × List Frame) (rank : Nat)
    (chars : List Char) (t : Tree) : Prop :=
  ∀ p frames rest, opens p = true → Outside rank frames → Ends rest →
    ∃ q fs u, Advances ⟨p, frames⟩ (chars ++ rest) ⟨q, fs⟩ rest ∧ p.Operand q u ∧
      close u fs = (t, frames)

abbrev ReadsOperand := Reads Phase.opensOperand closeUnary 1

abbrev ReadsPart := Reads Phase.opens closeTest 4

abbrev ReadsOption := Reads Phase.opens closeAll 5

abbrev ReadsValue := Reads Phase.opens closeExpression 6

section

variable {chars : List Char} {t : Tree}

theorem ReadsOperand.part (h : ReadsOperand chars t) : ReadsPart chars t := by
  intro p frames rest hp hframes hrest
  obtain ⟨q, fs, u, hadvances, hoperand, hclose⟩ :=
    h p frames rest (opensOperand_of_opens hp) (hframes.mono (by decide)) hrest
  exact ⟨q, fs, u, hadvances, hoperand, closeTest_eq hclose hframes⟩

theorem ReadsPart.option (h : ReadsPart chars t) : ReadsOption chars t := by
  intro p frames rest hp hframes hrest
  obtain ⟨q, fs, u, hadvances, hoperand, hclose⟩ :=
    h p frames rest hp (hframes.mono (by decide)) hrest
  exact ⟨q, fs, u, hadvances, hoperand, closeAll_eq hclose hframes⟩

theorem ReadsOption.value (h : ReadsOption chars t) : ReadsValue chars t := by
  intro p frames rest hp hframes hrest
  obtain ⟨q, fs, u, hadvances, hoperand, hclose⟩ :=
    h p frames rest hp (hframes.mono (by decide)) hrest
  exact ⟨q, fs, u, hadvances, hoperand, closeExpression_eq hclose hframes⟩

section Token

variable {terminal : Terminal}

theorem advances_operand (hlexes : ∀ rest, Ends rest → Lexes terminal chars rest)
    (ht : terminal.operand? (String.ofList chars) = some t) {p : Phase} {frames : List Frame}
    {rest : List Char} (hp : p.opensOperand = true) (hrest : Ends rest) :
    ∃ q, Advances ⟨p, frames⟩ (chars ++ rest) ⟨q, frames⟩ rest ∧ p.Operand q t := by
  obtain ⟨hstarts, q, hoperand, hfeed⟩ := feed?_operand hp ht frames
  have haccepts := accepts_of_opensOperand hp hstarts
  exact ⟨q, Advances.token (hlexes rest hrest) haccepts hfeed, hoperand⟩

theorem readsOperand_token (hlexes : ∀ rest, Ends rest → Lexes terminal chars rest)
    (ht : terminal.operand? (String.ofList chars) = some t) : ReadsOperand chars t := by
  intro p frames rest hp hframes hrest
  obtain ⟨q, hadvances, hoperand⟩ := advances_operand hlexes ht hp hrest
  exact ⟨q, frames, t, hadvances, hoperand, closeUnary_of_outside hframes⟩

theorem readsOperand_neg (hlexes : ∀ rest, Ends rest → Lexes terminal chars rest)
    (ht : terminal.operand? (String.ofList chars) = some t) :
    ReadsOperand ('-' :: chars) (.neg t) := by
  intro p frames rest hp hframes hrest
  have hminus : Advances ⟨p, frames⟩ ('-' :: (chars ++ rest)) ⟨.operand, .neg :: frames⟩
      (chars ++ rest) := by
    refine Advances.token (lexes_symbol (t := .minus) rfl (by decide) _)
      (accepts_of_opensOperand hp rfl) fun position => ?_
    rw [feed?_of_opensOperand (t := .minus) hp rfl (Or.inr ⟨nofun, nofun⟩)]
    rfl
  obtain ⟨q, hadvances, hoperand⟩ := advances_operand hlexes ht (p := .operand) rfl hrest
  refine ⟨q, .neg :: frames, t, hminus.trans hadvances, hoperand.of_opensField rfl, ?_⟩
  rw [closeUnary, closeUnary_of_outside hframes]

end Token

/-- A bound is read as the test of its sign on what its limit is read as. -/
theorem readsPart_bound (bound : Bound) (h : ReadsOperand chars t)
    (hchars : ∀ c ∈ chars.head?, c ≠ '=') (hne : chars ≠ []) :
    ReadsPart (bound.sign.toList ++ chars) (.bound (testOf bound.sign) t) := by
  intro p frames rest hp hframes hrest
  have hsign : Advances ⟨p, frames⟩ (bound.sign.toList ++ (chars ++ rest))
      ⟨.operand, .bound (testOf bound.sign) :: frames⟩ (chars ++ rest) := by
    have hhead : ∀ c ∈ (chars ++ rest).head?, c ≠ '=' := by
      rwa [List.head?_append_of_ne_nil _ hne]
    apply Advances.token (lexes_sign bound hhead) (accepts_of_opens hp rfl)
    intro position
    rw [feed?_of_opens (t := .test) hp rfl (Or.inr ⟨nofun, nofun⟩), String.ofList_toList]
    rfl
  obtain ⟨q, fs, u, hadvances, hoperand, hclose⟩ :=
    h .operand (.bound (testOf bound.sign) :: frames) rest rfl
      (outside_cons (show 1 ≤ 3 by decide)) hrest
  refine ⟨q, fs, u, ?_, hoperand.of_opensField rfl, closeTest_bound hclose⟩
  rw [List.append_assoc]
  exact hsign.trans hadvances

end

/-- A text that is read as an expression where nothing is open is this expression. -/
theorem parse_of_readsValue {text : String} {t : Tree} (h : ReadsValue text.toList t) :
    parse text = .ok (.value t) := by
  obtain ⟨q, fs, u, hadvances, hoperand, hclose⟩ := h .start [] [] rfl (outside_nil 6) nofun
  obtain ⟨last, position, hrun⟩ := hadvances .start .start
  rw [List.append_nil] at hrun
  rw [parse, Machine.start, hrun, Machine.run, hoperand.finish? hclose]

end ApiProbe.Expr
