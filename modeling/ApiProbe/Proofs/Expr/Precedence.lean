import ApiProbe.Proofs.Expr.Row
import ApiProbe.Proofs.Expr.Words

/-!
# Precedence

What the parser makes of the words of a tree, by the level of the tree. A tree is read at every place
for a looser level as well, and in parentheses at every place.
-/

namespace ApiProbe.Expr

section Step

variable {m n : Machine} {t : Terminal} {c : Char}

theorem spelled_mark (ht : t.symbol? = some c) : t.mark.Spelled := by
  cases t <;> cases ht <;> exact ⟨_, rfl, rfl⟩

theorem Machine.Step.mark (ht : t.symbol? = some c) (haccepts : m.phase.accepts t = true)
    (hfeed : ∀ text position, m.feed? ⟨t, text, position⟩ = some n) : m.Step t.mark n :=
  ⟨spelled_mark ht, haccepts, fun text position _ => hfeed text position⟩

theorem Machine.Step.comma (h : m.Separates n) : m.Step .comma n :=
  ⟨rfl, h.1, fun text position _ => h.2 text position⟩

/-- A symbol in front of an operand opens what waits for it. -/
theorem step_opening {p : Phase} {frames : List Frame} (ht : t.symbol? = some c)
    (hp : p.opensOperand = true) (hstarts : t.startsOperand = true)
    (hbegin : ∀ text position, begin? frames ⟨t, text, position⟩ = some n) :
    Machine.Step ⟨p, frames⟩ t.mark n := by
  refine .mark ht (accepts_of_opensOperand hp hstarts) fun text position => ?_
  rw [feed?_of_opensOperand hp hstarts (Or.inr ⟨?_, ?_⟩), hbegin]
  all_goals
    rintro rfl
    cases ht

/-- A symbol behind an operand goes on with it. -/
theorem step_following {p q : Phase} {tree : Tree} {frames : List Frame} (h : p.Operand q tree)
    (ht : t.symbol? = some c) (hfollows : t.followsOperand = true)
    (hfield : p.opensField = true → t ≠ .rightParen ∧ t ≠ .rightBracket)
    (hcontinue : ∀ text position, continue? tree frames ⟨t, text, position⟩ = some n) :
    Machine.Step ⟨q, frames⟩ t.mark n :=
  .mark ht (h.accepts hfollows hfield) (h.feed?_of_follows hfollows hcontinue)

end Step

/-- Where the phase and the frames allow it, the words are read as an operand that closes to the tree. -/
def ReadsTo (opens : Phase → Bool) (close : Tree → List Frame → Tree × List Frame) (rank : Nat)
    (words : List Word) (t : Tree) : Prop :=
  ∀ p frames, opens p = true → Outside rank frames → ∃ q fs u,
    Machine.Steps ⟨p, frames⟩ words ⟨q, fs⟩ ∧ p.Operand q u ∧ close u fs = (t, frames)

/-- The words are read as an operand that takes the signs in front of it as the tree does. -/
def ReadsUnary (words : List Word) (t : Tree) : Prop :=
  ∀ p frames, p.opensOperand = true → ∃ q fs u, Machine.Steps ⟨p, frames⟩ words ⟨q, fs⟩ ∧
    p.Operand q u ∧ closeUnary u fs = closeUnary t frames

/-- The words are read as the tree itself, and nothing that they opened is left open. -/
def ReadsWhole (words : List Word) (t : Tree) : Prop :=
  ∀ p frames, p.opensOperand = true → ∃ q, Machine.Steps ⟨p, frames⟩ words ⟨q, frames⟩ ∧ p.Operand q t

namespace Level

/-- The words are read as a tree of the level. -/
def Reads : Level → List Word → Tree → Prop
  | .disjunction => ReadsTo Phase.opens closeExpression 6
  | .conjunction => ReadsTo Phase.opens closeAll 5
  | .comparison => ReadsTo Phase.opens closeTest 4
  | .sum => ReadsTo Phase.opensOperand closeSum 3
  | .product => ReadsTo Phase.opensOperand closeProduct 2
  | .unary => ReadsUnary
  | .selection | .primary => ReadsWhole

variable {words : List Word} {t : Tree}

theorem Reads.loosen {level : Level} (h : level.tighter.Reads words t) : level.Reads words t := by
  cases level with
  | disjunction =>
      intro p frames hp hframes
      obtain ⟨q, fs, u, hsteps, hoperand, hclose⟩ := h p frames hp (hframes.mono (by decide))
      exact ⟨q, fs, u, hsteps, hoperand, closeExpression_eq hclose hframes⟩
  | conjunction =>
      intro p frames hp hframes
      obtain ⟨q, fs, u, hsteps, hoperand, hclose⟩ := h p frames hp (hframes.mono (by decide))
      exact ⟨q, fs, u, hsteps, hoperand, closeAll_eq hclose hframes⟩
  | comparison =>
      intro p frames hp hframes
      obtain ⟨q, fs, u, hsteps, hoperand, hclose⟩ :=
        h p frames (opensOperand_of_opens hp) (hframes.mono (by decide))
      exact ⟨q, fs, u, hsteps, hoperand, closeTest_of_closeSum hclose hframes⟩
  | sum =>
      intro p frames hp hframes
      obtain ⟨q, fs, u, hsteps, hoperand, hclose⟩ := h p frames hp (hframes.mono (by decide))
      exact ⟨q, fs, u, hsteps, hoperand, closeSum_of_closeProduct hclose hframes⟩
  | product =>
      intro p frames hp hframes
      obtain ⟨q, fs, u, hsteps, hoperand, hclose⟩ := h p frames hp
      rw [closeUnary_of_outside (hframes.mono (by decide))] at hclose
      exact ⟨q, fs, u, hsteps, hoperand, closeProduct_eq hclose hframes⟩
  | unary =>
      intro p frames hp
      obtain ⟨q, hsteps, hoperand⟩ := h p frames hp
      exact ⟨q, frames, t, hsteps, hoperand, rfl⟩
  | selection => exact h
  | primary => exact h

theorem height_tighter {level : Level} (h : level ≠ .primary) :
    level.tighter.height = level.height + 1 := by
  cases level <;> first | rfl | exact absurd rfl h

theorem eq_of_height_eq {l k : Level} (h : l.height = k.height) : l = k := by
  cases l <;> cases k <;> first | rfl | cases h

/-- What is read at a level is read at every looser one. -/
theorem Reads.mono {level place : Level} (hplace : place.height ≤ level.height)
    (h : level.Reads words t) : place.Reads words t := by
  induction hdistance : level.height - place.height generalizing place with
  | zero => rwa [eq_of_height_eq (show place.height = level.height by omega)]
  | succ distance ih =>
      have hne : place ≠ .primary := by
        rintro rfl
        cases level <;> cases hdistance
      have hheight := height_tighter hne
      exact (ih (by omega) (by omega)).loosen

/-- Parentheses make an operand of any expression. -/
theorem Reads.parens (h : Level.disjunction.Reads words t) :
    Level.primary.Reads (Terminal.leftParen.mark :: words ++ [Terminal.rightParen.mark]) t := by
  intro p frames hp
  obtain ⟨q, fs, u, hsteps, hoperand, hclose⟩ :=
    h .expression (.paren :: frames) rfl (outside_cons (Nat.le_refl 6))
  have hopening : Machine.Step ⟨p, frames⟩ Terminal.leftParen.mark ⟨.expression, .paren :: frames⟩ :=
    step_opening rfl hp rfl fun _ _ => rfl
  have hclosing : Machine.Step ⟨q, fs⟩ Terminal.rightParen.mark ⟨.complete t, frames⟩ := by
    refine step_following hoperand rfl rfl nofun fun text position => ?_
    rw [continue?]
    simp only [hclose]
  exact ⟨.complete t, .cons hopening (hsteps.append (.one hclosing)), Or.inl rfl⟩

/-- Where a tree is too loose for its place, it is read in parentheses. -/
theorem Reads.place (h : t.level.Reads words t) (place : Level) :
    place.Reads (t.place place words) t := by
  unfold Tree.place
  split
  · exact h.mono ‹_›
  · have hdisjunction : Level.disjunction.Reads words t := h.mono (Nat.zero_le _)
    exact hdisjunction.parens.mono (by cases place <;> decide)

end Level

theorem readsWhole_word {terminal : Terminal} {text : String} {t : Tree}
    (hspelled : terminal.Spells text.toList) (ht : terminal.operand? text = some t) :
    ReadsWhole [⟨terminal, text.toList⟩] t := by
  intro p frames hp
  obtain ⟨hstarts, q, hoperand, hfeed⟩ := feed?_operand hp ht frames
  refine ⟨q, .one ⟨hspelled, accepts_of_opensOperand hp hstarts, ?_⟩, hoperand⟩
  rintro other position (hterminal | rfl)
  · obtain rfl : terminal = .separator := hterminal
    cases ht
  · rw [String.ofList_toList]
    exact hfeed position

section Selection

variable {words inner : List Word} {target key : Tree}

theorem readsWhole_select (h : ReadsWhole words target) {selector : Selector}
    (hselector : selector.Grammatical) :
    ReadsWhole (words ++ [Terminal.dot.mark, selector.word]) (.select target selector) := by
  intro p frames hp
  obtain ⟨q, hsteps, hoperand⟩ := h p frames hp
  have hdot : Machine.Step ⟨q, frames⟩ Terminal.dot.mark ⟨.selector target, frames⟩ :=
    step_following hoperand rfl rfl (fun _ => ⟨nofun, nofun⟩) fun _ _ => rfl
  have hselect : Machine.Step ⟨.selector target, frames⟩ selector.word
      ⟨.complete (.select target selector), frames⟩ := by
    refine ⟨hselector, ?_, ?_⟩
    · cases selector <;> rfl
    · rintro text position (hterminal | rfl)
      · cases selector <;> cases hterminal
      · cases selector <;> simp [Selector.word, Machine.feed?, selectorOf?]
  exact ⟨_, hsteps.append (.cons hdot (.one hselect)), Or.inl rfl⟩

theorem readsWhole_index (h : ReadsWhole words target) (hkey : Level.disjunction.Reads inner key) :
    ReadsWhole (words ++ Terminal.leftBracket.mark :: inner ++ [Terminal.rightBracket.mark])
      (.index target key) := by
  intro p frames hp
  obtain ⟨q, hsteps, hoperand⟩ := h p frames hp
  obtain ⟨q', fs, u, hinner, hoperand', hclose⟩ :=
    hkey .expression (.index target :: frames) rfl (outside_cons (Nat.le_refl 6))
  have hopening : Machine.Step ⟨q, frames⟩ Terminal.leftBracket.mark
      ⟨.expression, .index target :: frames⟩ :=
    step_following hoperand rfl rfl (fun _ => ⟨nofun, nofun⟩) fun _ _ => rfl
  have hclosing : Machine.Step ⟨q', fs⟩ Terminal.rightBracket.mark
      ⟨.complete (.index target key), frames⟩ :=
    step_following hoperand' rfl rfl nofun fun _ _ => closeBracket?_index hclose
  exact ⟨_, (hsteps.append (.cons hopening hinner)).append (.one hclosing), Or.inl rfl⟩

end Selection

section Operator

variable {words left right : List Word} {t a b : Tree}

theorem readsUnary_sign {terminal : Terminal} {c : Char} {frame : Frame} {signed : Tree}
    (hterminal : terminal.symbol? = some c) (hstarts : terminal.startsOperand = true)
    (hbegin : ∀ frames text position, begin? frames ⟨terminal, text, position⟩
      = some ⟨.operand, frame :: frames⟩)
    (hclose : ∀ frames, closeUnary t (frame :: frames) = closeUnary signed frames)
    (h : ReadsUnary words t) : ReadsUnary (terminal.mark :: words) signed := by
  intro p frames hp
  obtain ⟨q, fs, u, hsteps, hoperand, hunary⟩ := h .operand (frame :: frames) rfl
  exact ⟨q, fs, u, .cons (step_opening hterminal hp hstarts (hbegin frames)) hsteps,
    hoperand.of_opensField rfl, hunary.trans (hclose frames)⟩

theorem step_operator {op : Operator} {p q : Phase} {tree : Tree} {frames : List Frame} {n : Machine}
    (h : p.Operand q tree)
    (hcontinue : ∀ text position, continue? tree frames ⟨operatorTerminal op, text, position⟩ = some n) :
    Machine.Step ⟨q, frames⟩ (operatorTerminal op).mark n := by
  cases op <;> exact step_following h rfl rfl (fun _ => ⟨nofun, nofun⟩) hcontinue

theorem reads_product {op : Operator} (hop : Level.ofOperator op = .product)
    (hleft : Level.product.Reads left a) (hright : Level.unary.Reads right b) :
    Level.product.Reads (left ++ (operatorTerminal op).mark :: right) (.arith op a b) := by
  intro p frames hp hframes
  obtain ⟨q, fs, u, hsteps, hoperand, hclose⟩ := hleft p frames hp hframes
  obtain ⟨q', fs', u', hsteps', hoperand', hclose'⟩ := hright .operand (.arith op a :: frames) rfl
  have hrank : (Frame.arith op a).rank = 1 := by
    cases op <;> first | rfl | cases hop
  have hcontinue : ∀ text position, continue? u fs ⟨operatorTerminal op, text, position⟩
      = some ⟨.operand, .arith op a :: frames⟩ := by
    intro text position
    cases op <;> cases hop <;> simp only [operatorTerminal, continue?, hclose]
  rw [closeUnary_of_outside (outside_cons hrank.ge)] at hclose'
  exact ⟨q', fs', u', hsteps.append (.cons (step_operator hoperand hcontinue) hsteps'),
    hoperand'.of_opensField rfl, closeProduct_arith hrank hclose'⟩

theorem reads_sum {op : Operator} (hop : Level.ofOperator op = .sum)
    (hleft : Level.sum.Reads left a) (hright : Level.product.Reads right b) :
    Level.sum.Reads (left ++ (operatorTerminal op).mark :: right) (.arith op a b) := by
  intro p frames hp hframes
  have hrank : (Frame.arith op a).rank = 2 := by
    cases op <;> first | rfl | cases hop
  obtain ⟨q, fs, u, hsteps, hoperand, hclose⟩ := hleft p frames hp hframes
  obtain ⟨q', fs', u', hsteps', hoperand', hclose'⟩ :=
    hright .operand (.arith op a :: frames) rfl (outside_cons hrank.ge)
  have hcontinue : ∀ text position, continue? u fs ⟨operatorTerminal op, text, position⟩
      = some ⟨.operand, .arith op a :: frames⟩ := by
    intro text position
    cases op <;> cases hop <;> simp only [operatorTerminal, continue?, hclose]
  exact ⟨q', fs', u', hsteps.append (.cons (step_operator hoperand hcontinue) hsteps'),
    hoperand'.of_opensField rfl, closeSum_arith hrank hclose'⟩

theorem reads_arith {op : Operator} (hleft : (Level.ofOperator op).Reads left a)
    (hright : (Level.ofOperator op).tighter.Reads right b) :
    (Level.ofOperator op).Reads (left ++ (operatorTerminal op).mark :: right) (.arith op a b) := by
  cases op with
  | add | sub => exact reads_sum rfl hleft hright
  | mul | div => exact reads_product rfl hleft hright

theorem testOf_test (test : Test) : testOf test.sign = test := by
  cases test with
  | eq | ne => decide
  | order o => cases o <;> decide
  | pattern wanted => cases wanted <;> decide

theorem step_test {test : Test} {m n : Machine} (haccepts : m.phase.accepts .test = true)
    (hfeed : ∀ position, m.feed? ⟨.test, test.sign, position⟩ = some n) : m.Step test.word n := by
  refine ⟨⟨test, rfl⟩, haccepts, ?_⟩
  rintro text position (hterminal | rfl)
  · cases hterminal
  · rw [Test.word, String.ofList_toList]
    exact hfeed position

theorem reads_test (test : Test) (hleft : Level.sum.Reads left a) (hright : Level.sum.Reads right b) :
    Level.comparison.Reads (left ++ test.word :: right) (.test test a b) := by
  intro p frames hp hframes
  obtain ⟨q, fs, u, hsteps, hoperand, hclose⟩ :=
    hleft p frames (opensOperand_of_opens hp) (hframes.mono (by decide))
  obtain ⟨q', fs', u', hsteps', hoperand', hclose'⟩ :=
    hright .operand (.test test a :: frames) rfl (outside_cons (Nat.le_refl 3))
  have hsign : Machine.Step ⟨q, fs⟩ test.word ⟨.operand, .test test a :: frames⟩ := by
    refine step_test (hoperand.accepts rfl fun _ => ⟨nofun, nofun⟩) fun position => ?_
    rw [hoperand.feed? (fun h => Terminal.noConfusion h), continue?, testOf_test]
    exact addTest?_eq hclose hframes
  exact ⟨q', fs', u', hsteps.append (.cons hsign hsteps'), hoperand'.of_opensField rfl,
    closeTest_test hclose'⟩

theorem reads_bound (test : Test) (h : Level.sum.Reads words t) :
    Level.comparison.Reads (test.word :: words) (.bound test t) := by
  intro p frames hp hframes
  obtain ⟨q, fs, u, hsteps, hoperand, hclose⟩ :=
    h .operand (.bound test :: frames) rfl (outside_cons (Nat.le_refl 3))
  have hsign : Machine.Step ⟨p, frames⟩ test.word ⟨.operand, .bound test :: frames⟩ := by
    refine step_test (accepts_of_opens hp rfl) fun position => ?_
    rw [feed?_of_opens (t := .test) hp rfl (Or.inr ⟨nofun, nofun⟩), begin?, testOf_test]
  exact ⟨q, fs, u, .cons hsign hsteps, hoperand.of_opensField rfl, closeTest_of_bound hclose⟩

end Operator

namespace Row

variable {row : Row} {words : Tree → List Word} {ts : List Tree}

theorem step_sign {p q : Phase} {t : Tree} {frames : List Frame} {n : Machine} (h : p.Operand q t)
    (hcontinue : ∀ text position, continue? t frames ⟨row.terminal, text, position⟩ = some n) :
    Machine.Step ⟨q, frames⟩ row.terminal.mark n :=
  step_following h row.symbol row.follows (fun _ => row.not_closing) hcontinue

/-- The operands behind the first one are collected in the frame of the row. -/
theorem steps_rest {done : List Tree} {frames : List Frame} (hne : ts ≠ [])
    (h : ∀ t ∈ ts, ReadsTo Phase.opens row.inner row.rank (words t) t) :
    ∃ q fs u, Machine.Steps ⟨.expression, row.frame done :: frames⟩
        ([row.terminal.mark].intercalate (ts.map words)) ⟨q, fs⟩ ∧
      Phase.expression.Operand q u ∧ row.outer u fs = (row.tree (done ++ ts), frames) := by
  induction ts generalizing done with
  | nil => exact absurd rfl hne
  | cons t ts ih =>
      obtain ⟨q, fs, u, hsteps, hoperand, hclose⟩ :=
        h t List.mem_cons_self .expression _ rfl (outside_cons (row.rank_frame done))
      cases ts with
      | nil =>
          rw [List.map_singleton, List.intercalate_singleton]
          exact ⟨q, fs, u, hsteps, hoperand, row.close hclose⟩
      | cons next ts =>
          have hothers := fun other hother => h other (List.mem_cons_of_mem t hother)
          obtain ⟨q', fs', u', hsteps', hoperand', hclose'⟩ :=
            @ih (done ++ [t]) (List.cons_ne_nil _ _) hothers
          rw [List.append_assoc] at hclose'
          rw [List.map_cons, List.map_cons, List.intercalate_cons_cons, List.append_assoc]
          exact ⟨q', fs', u', hsteps.append (.cons (step_sign hoperand (row.next hclose)) hsteps'),
            hoperand', hclose'⟩

/-- A row of at least two operands is read as its tree. -/
theorem readsTo_row (hlength : 2 ≤ ts.length)
    (h : ∀ t ∈ ts, ReadsTo Phase.opens row.inner row.rank (words t) t) :
    ReadsTo Phase.opens row.outer (row.rank + 1) ([row.terminal.mark].intercalate (ts.map words))
      (row.tree ts) := by
  intro p frames hp hframes
  match ts, hlength with
  | first :: next :: ts, _ =>
      obtain ⟨q, fs, u, hsteps, hoperand, hclose⟩ :=
        h first List.mem_cons_self p frames hp (hframes.mono (Nat.le_succ _))
      have hothers := fun other hother => h other (List.mem_cons_of_mem first hother)
      obtain ⟨q', fs', u', hsteps', hoperand', hclose'⟩ :=
        @steps_rest row words (next :: ts) [first] frames (List.cons_ne_nil _ _) hothers
      rw [List.map_cons, List.map_cons, List.intercalate_cons_cons, List.append_assoc]
      exact ⟨q', fs', u', hsteps.append (.cons (step_sign hoperand (row.first hclose hframes)) hsteps'),
        hoperand'.of_opensField rfl, hclose'⟩

end Row

end ApiProbe.Expr
