import ApiProbe.Proofs.Expr.Entry
import ApiProbe.Proofs.Expr.Precedence

/-!
# Lists, structs and fields as words

The entries of brackets are read one after the other, with commas between them. A field opens its
labels from the first one on, and the value closes all of them.
-/

namespace ApiProbe.Expr

namespace Brackets

variable {α : Type} {brackets : Brackets α} {words : α → List Word} {as : List α}

/-- The words are read as an entry, behind which the brackets may be closed or go on. -/
def TakesWords (brackets : Brackets α) (words : List Word) (a : α) : Prop :=
  ∀ p done frames, p = brackets.inside ∨ p = brackets.separated → ∃ m,
    Machine.Steps ⟨p, brackets.frame done :: frames⟩ words m ∧ brackets.Behind m (done ++ [a]) frames

theorem Closes.step {m : Machine} {done : List α} {frames : List Frame}
    (h : brackets.Closes m done frames) :
    m.Step brackets.closeTerminal.mark ⟨.complete (brackets.tree done), frames⟩ :=
  .mark brackets.closing_symbol h.1 h.2

theorem steps_entries {p : Phase} {done : List α} {frames : List Frame} (hne : as ≠ [])
    (h : ∀ a ∈ as, brackets.TakesWords (words a) a) (hp : p = brackets.inside ∨ p = brackets.separated) :
    ∃ m, Machine.Steps ⟨p, brackets.frame done :: frames⟩ ([Word.comma].intercalate (as.map words)) m ∧
      brackets.Closes m (done ++ as) frames := by
  induction as generalizing p done with
  | nil => exact absurd rfl hne
  | cons a as ih =>
      obtain ⟨m, hsteps, hbehind⟩ := h a List.mem_cons_self p done frames hp
      cases as with
      | nil =>
          rw [List.map_singleton, List.intercalate_singleton]
          exact ⟨m, hsteps, hbehind.closes⟩
      | cons next as =>
          obtain ⟨n, hsteps', hcloses⟩ := @ih brackets.separated (done ++ [a]) (List.cons_ne_nil _ _)
            (fun other hother => h other (List.mem_cons_of_mem a hother)) (Or.inr rfl)
          rw [List.append_assoc] at hcloses
          rw [List.map_cons, List.map_cons, List.intercalate_cons_cons, List.append_assoc]
          exact ⟨n, hsteps.append (.cons (.comma hbehind.separates) hsteps'), hcloses⟩

/-- Brackets are read as what their entries are read as. -/
theorem readsWhole (h : ∀ a ∈ as, brackets.TakesWords (words a) a) :
    ReadsWhole (brackets.openTerminal.mark :: [Word.comma].intercalate (as.map words)
      ++ [brackets.closeTerminal.mark]) (brackets.tree as) := by
  intro p frames hp
  obtain ⟨m, hsteps, hcloses⟩ : ∃ m, Machine.Steps ⟨brackets.inside, brackets.frame [] :: frames⟩
      ([Word.comma].intercalate (as.map words)) m ∧ brackets.Closes m as frames := by
    cases as with
    | nil => exact ⟨_, .nil, (behind_inside frames).closes⟩
    | cons a as => exact steps_entries (List.cons_ne_nil a as) h (Or.inl rfl)
  have hopening := step_opening brackets.opening_symbol hp brackets.starts (brackets.begins frames)
  exact ⟨_, .cons hopening (hsteps.append (.one hcloses.step)), Or.inl rfl⟩

end Brackets

section List

variable {words : List Word} {t : Tree}

theorem takesWords_value (h : Level.disjunction.Reads words t) :
    Brackets.list.TakesWords words (.value t) := by
  intro p done frames hp
  have hopens : p.opens = true ∧ p.opensField = false := by
    rcases hp with rfl | rfl <;> exact ⟨rfl, rfl⟩
  obtain ⟨q, fs, u, hsteps, hoperand, hclose⟩ :=
    h p (.list done :: frames) hopens.1 (outside_cons (Nat.le_refl 6))
  exact ⟨⟨q, fs⟩, hsteps, behind_value hoperand hopens.2 hclose⟩

theorem step_ellipsis {p : Phase} {done : List (Item Tree)} {frames : List Frame}
    (hp : p = .listOpen ∨ p = .listSeparated) :
    Machine.Step ⟨p, .list done :: frames⟩ .ellipsis ⟨.ellipsis, .rest :: .list done :: frames⟩ := by
  refine ⟨rfl, ?_, fun text position _ => ?_⟩ <;> rcases hp with rfl | rfl <;> rfl

theorem takesWords_rest : Brackets.list.TakesWords [.ellipsis] .rest :=
  fun _ done frames hp => ⟨_, .one (step_ellipsis hp), behind_rest done frames⟩

theorem takesWords_restOf (h : Level.disjunction.Reads words t) :
    Brackets.list.TakesWords (.ellipsis :: words) (.restOf t) := by
  intro p done frames hp
  obtain ⟨q, fs, u, hsteps, hoperand, hclose⟩ :=
    h .ellipsis (.rest :: .list done :: frames) rfl (outside_cons (Nat.le_refl 6))
  exact ⟨⟨q, fs⟩, .cons (step_ellipsis hp) hsteps, behind_restOf hoperand hclose⟩

end List

section Field

variable {label : Label} {labels : List Label} {words : List Word} {t : Tree} {base : List Frame}

theorem labelFrames_cons (label : Label) (labels : List Label) (frames : List Frame) :
    labelFrames (label :: labels) ++ frames = labelFrames labels ++ .label label :: frames := by
  rw [labelFrames, List.reverse_cons, List.map_append, List.append_assoc]
  rfl

theorem outside_labelFrames (hne : labels ≠ []) : Outside 6 (labelFrames labels ++ base) := by
  obtain ⟨label, rest, hrest⟩ := List.exists_cons_of_ne_nil (mt List.reverse_eq_nil_iff.mp hne)
  rw [labelFrames, hrest]
  exact outside_cons (Nat.le_refl 6)

theorem step_label {p : Phase} {frames : List Frame} {n : Machine} (hlabel : label.Grammatical)
    (haccepts : p.accepts .name = true ∧ p.accepts .string = true)
    (hfeed : ∀ token, labelOf? token = some label → Machine.feed? ⟨p, frames⟩ token = some n) :
    Machine.Step ⟨p, frames⟩ label.word n := by
  refine ⟨hlabel, ?_, ?_⟩
  · cases label
    · exact haccepts.1
    · exact haccepts.2
  · rintro text position (hterminal | rfl)
    · cases label <;> cases hterminal
    · apply hfeed
      cases label <;> simp [Label.word, labelOf?]

/-- The labels behind the first one may each have turned out to be the value. -/
theorem steps_labels (hlabels : ∀ label ∈ labels, label.Grammatical) (hne : base ≠ []) :
    Machine.Steps ⟨.fieldValue, base⟩ (labelWords labels) ⟨.fieldValue, labelFrames labels ++ base⟩ := by
  induction labels generalizing base with
  | nil => exact .nil
  | cons label labels ih =>
      obtain ⟨hlabel, hlabels⟩ := List.forall_mem_cons.mp hlabels
      have hname : Machine.Step ⟨.fieldValue, base⟩ label.word ⟨.labelOrOperand label, base⟩ := by
        refine step_label hlabel ⟨rfl, rfl⟩ fun token htoken => ?_
        obtain ⟨terminal, text, position⟩ := token
        cases terminal <;> cases htoken <;> rfl
      have hcolon : Machine.Step ⟨.labelOrOperand label, base⟩ Terminal.colon.mark
          ⟨.fieldValue, .label label :: base⟩ := by
        refine .mark rfl rfl fun text position => ?_
        obtain ⟨frame, frames, rfl⟩ := List.exists_cons_of_ne_nil hne
        rfl
      rw [labelFrames_cons]
      exact .cons hname (.cons hcolon (ih hlabels (List.cons_ne_nil _ _)))

/-- Wherever the first label leads to the value of a field, all labels do. -/
theorem steps_field {m : Machine} (hlabels : ∀ label ∈ labels, label.Grammatical)
    (hfirst : m.Steps [label.word, Terminal.colon.mark] ⟨.fieldValue, .label label :: base⟩)
    (h : Level.disjunction.Reads words t) : ∃ q fs u,
      m.Steps (labelWords (label :: labels) ++ words) ⟨q, fs⟩ ∧ Phase.fieldValue.Operand q u ∧
        closeExpression u fs = (t, labelFrames (label :: labels) ++ base) := by
  obtain ⟨q, fs, u, hsteps, hoperand, hclose⟩ := h .fieldValue (labelFrames (label :: labels) ++ base)
    rfl (outside_labelFrames (List.cons_ne_nil label labels))
  refine ⟨q, fs, u, ?_, hoperand, hclose⟩
  rw [labelFrames_cons] at hsteps
  exact (hfirst.append (steps_labels hlabels (List.cons_ne_nil _ _))).append hsteps

theorem step_complete {frames : List Frame} (hne : frames ≠ []) :
    Machine.Step ⟨.labelComplete label, frames⟩ Terminal.colon.mark
      ⟨.fieldValue, .label label :: frames⟩ := by
  refine .mark rfl rfl fun text position => ?_
  obtain ⟨frame, frames, rfl⟩ := List.exists_cons_of_ne_nil hne
  rfl

theorem takesWords_field (hne : labels ≠ []) (hlabels : ∀ label ∈ labels, label.Grammatical)
    (h : Level.disjunction.Reads words t) :
    Brackets.struct.TakesWords (labelWords labels ++ words) (labels, t) := by
  intro p done frames hp
  obtain ⟨label, labels, rfl⟩ := List.exists_cons_of_ne_nil hne
  obtain ⟨hlabel, hothers⟩ := List.forall_mem_cons.mp hlabels
  have hname : Machine.Step ⟨p, .struct done :: frames⟩ label.word
      ⟨.labelComplete label, .struct done :: frames⟩ := by
    refine step_label hlabel ?_ fun token htoken => ?_
    · rcases hp with rfl | rfl <;> exact ⟨rfl, rfl⟩
    · obtain ⟨terminal, text, position⟩ := token
      rcases hp with rfl | rfl <;> cases terminal <;> cases htoken <;> rfl
  obtain ⟨q, fs, u, hsteps, hoperand, hclose⟩ :=
    steps_field hothers (.cons hname (.one (step_complete (List.cons_ne_nil _ _)))) h
  exact ⟨⟨q, fs⟩, hsteps, behind_field hne hoperand hclose⟩

/-- Fields without braces may start at the start of the text or go on behind a comma. -/
def Machine.OpensFields (m : Machine) (done : List Field) : Prop :=
  m = .start ∧ done = [] ∨ m = ⟨.documentSeparated, [.document done]⟩

theorem Phase.Operand.finish?_field {p q : Phase} {u : Tree} {fs : List Frame} {done : List Field}
    (h : p.Operand q u) (hne : labels ≠ [])
    (hclose : closeExpression u fs = (t, labelFrames labels ++ [.document done])) :
    Machine.finish? ⟨q, fs⟩ = some (.fields (done ++ [(labels, t)])) := by
  have hfield := closeField?_labels hne (fun _ => rfl) hclose
  rcases h with rfl | ⟨-, label, rfl, rfl⟩ <;> simp only [Machine.finish?, hfield]

theorem steps_documentField {m : Machine} {done : List Field} (hm : m.OpensFields done)
    (hne : labels ≠ []) (hlabels : ∀ label ∈ labels, label.Grammatical)
    (h : Level.disjunction.Reads words t) : ∃ q fs u,
      m.Steps (labelWords labels ++ words) ⟨q, fs⟩ ∧ Phase.fieldValue.Operand q u ∧
        closeExpression u fs = (t, labelFrames labels ++ [.document done]) := by
  obtain ⟨label, labels, rfl⟩ := List.exists_cons_of_ne_nil hne
  obtain ⟨hlabel, hothers⟩ := List.forall_mem_cons.mp hlabels
  refine steps_field hothers ?_ h
  rcases hm with ⟨rfl, rfl⟩ | rfl
  · have hname : Machine.Step .start label.word ⟨.labelOrOperand label, []⟩ := by
      refine step_label hlabel ⟨rfl, rfl⟩ fun token htoken => ?_
      obtain ⟨terminal, text, position⟩ := token
      cases terminal <;> cases htoken <;> rfl
    exact .cons hname (.one (.mark rfl rfl fun _ _ => rfl))
  · have hname : Machine.Step ⟨.documentSeparated, [.document done]⟩ label.word
        ⟨.labelComplete label, [.document done]⟩ := by
      refine step_label hlabel ⟨rfl, rfl⟩ fun token htoken => ?_
      simp only [Machine.feed?, htoken, Option.map_some]
    exact .cons hname (.one (step_complete (List.cons_ne_nil _ _)))

/-- Fields without braces are collected up to the end of the text. -/
theorem steps_documentFields {m : Machine} {done : List Field} {fields : List Field}
    {words : Field → List Word} (hm : m.OpensFields done) (hne : fields ≠ [])
    (h : ∀ f ∈ fields, f.1 ≠ [] ∧ (∀ label ∈ f.1, label.Grammatical) ∧
      Level.disjunction.Reads (words f) f.2) :
    ∃ n, m.Steps ([Word.comma].intercalate (fields.map fun f => labelWords f.1 ++ words f)) n ∧
      n.finish? = some (.fields (done ++ fields)) := by
  induction fields generalizing m done with
  | nil => exact absurd rfl hne
  | cons f fields ih =>
      obtain ⟨hlabels, hgrammatical, hreads⟩ := h f List.mem_cons_self
      obtain ⟨q, fs, u, hsteps, hoperand, hclose⟩ := steps_documentField hm hlabels hgrammatical hreads
      cases fields with
      | nil =>
          rw [List.map_singleton, List.intercalate_singleton]
          exact ⟨_, hsteps, hoperand.finish?_field hlabels hclose⟩
      | cons next fields =>
          have hcomma : Machine.Separates ⟨q, fs⟩ ⟨.documentSeparated, [.document (done ++ [f])]⟩ :=
            ⟨hoperand.accepts rfl fun _ => ⟨nofun, nofun⟩,
              hoperand.feed?_of_follows rfl fun _ _ => separate?_document hlabels hclose⟩
          obtain ⟨n, hsteps', hfinish⟩ := @ih _ (done ++ [f]) (Or.inr rfl) (List.cons_ne_nil _ _)
            fun other hother => h other (List.mem_cons_of_mem f hother)
          rw [List.append_assoc] at hfinish
          rw [List.map_cons, List.map_cons, List.intercalate_cons_cons, List.append_assoc]
          exact ⟨n, hsteps.append (.cons (.comma hcomma) hsteps'), hfinish⟩

end Field

end ApiProbe.Expr
