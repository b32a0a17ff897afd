import ApiProbe.Proofs.Expr.Row

/-!
# Entries in brackets

The items of a list and the fields of a struct are read one after the other, each ended by a separator
or by the closing bracket.
-/

namespace ApiProbe.Expr

/-- A kind of brackets, with what is open inside them and what they hold at last. -/
structure Brackets (α : Type) where
  opening : Char
  closing : Char
  openTerminal : Terminal
  closeTerminal : Terminal
  inside : Phase
  separated : Phase
  frame : List α → Frame
  tree : List α → Tree
  opening_symbol : openTerminal.symbol? = some opening
  opening_mem : opening ∈ symbolChars
  closing_symbol : closeTerminal.symbol? = some closing
  closing_mem : closing ∈ symbolChars
  starts : openTerminal.startsOperand = true
  begins : ∀ frames text position, begin? frames ⟨openTerminal, text, position⟩
    = some ⟨inside, frame [] :: frames⟩
  closing_ends : closing ∈ endChars
  accepts : inside.accepts closeTerminal = true
  ends : ∀ frames text position, Machine.feed? ⟨inside, frame [] :: frames⟩
    ⟨closeTerminal, text, position⟩ = some ⟨.complete (tree []), frames⟩
  separates : ∀ frames,
    Machine.Separates ⟨inside, frame [] :: frames⟩ ⟨separated, frame [] :: frames⟩
  separated_accepts : separated.accepts closeTerminal = true
  separated_ends : ∀ done frames text position, Machine.feed? ⟨separated, frame done :: frames⟩
    ⟨closeTerminal, text, position⟩ = some ⟨.complete (tree done), frames⟩

namespace Brackets

variable {α : Type} {brackets : Brackets α}

/-- The closing bracket completes what is collected. -/
def Closes (brackets : Brackets α) (m : Machine) (done : List α) (frames : List Frame) : Prop :=
  m.phase.accepts brackets.closeTerminal = true ∧ ∀ text position,
    m.feed? ⟨brackets.closeTerminal, text, position⟩ = some ⟨.complete (brackets.tree done), frames⟩

/-- An entry may be over here: what is collected may be closed or go on behind a separator. -/
structure Behind (brackets : Brackets α) (m : Machine) (done : List α) (frames : List Frame) :
    Prop where
  closes : brackets.Closes m done frames
  separates : m.Separates ⟨brackets.separated, brackets.frame done :: frames⟩

theorem Closes.advances {m : Machine} {done : List α} {frames : List Frame}
    (h : brackets.Closes m done frames) (rest : List Char) :
    Advances m (brackets.closing :: rest) ⟨.complete (brackets.tree done), frames⟩ rest :=
  Advances.token (lexes_symbol brackets.closing_symbol brackets.closing_mem rest) h.1
    fun position => h.2 _ position

theorem solid_closing (rest : List Char) : Solid (brackets.closing :: rest) :=
  solid_cons (notMem_gapChars_of_mem_symbolChars _ brackets.closing_mem) rest

/-- What is collected may be closed behind any layout. -/
theorem Behind.advances {m : Machine} {done : List α} {frames : List Frame} {layout : List Char}
    (h : brackets.Behind m done frames) (hlayout : ∀ c ∈ layout, c ∈ layoutChars)
    (rest : List Char) :
    Advances m (layout ++ brackets.closing :: rest) ⟨.complete (brackets.tree done), frames⟩
      rest := by
  rcases Advances.layout hlayout (solid_closing rest) h.separates with hseparated | ⟨hsame, -⟩
  · have hcloses : brackets.Closes ⟨brackets.separated, brackets.frame done :: frames⟩ done frames :=
      ⟨brackets.separated_accepts, brackets.separated_ends done frames⟩
    exact hseparated.trans (hcloses.advances rest)
  · exact hsame.trans (h.closes.advances rest)

/-- Inside the brackets, the text is read as an entry that may end behind it. -/
def Takes (brackets : Brackets α) (chars : List Char) (a : α) : Prop :=
  ∀ p done frames rest, p = brackets.inside ∨ p = brackets.separated → Ends rest →
    ∃ m, Advances ⟨p, brackets.frame done :: frames⟩ (chars ++ rest) m rest ∧
      brackets.Behind m (done ++ [a]) frames

/-- Inside the brackets, the text is read as an entry, whether it is the last one or not. -/
def ReadsEntry (brackets : Brackets α) (chars : List Char) (a : α) : Prop :=
  ∀ p done frames rest, p = brackets.inside ∨ p = brackets.separated →
    Advances ⟨p, brackets.frame done :: frames⟩ (chars ++ brackets.closing :: rest)
        ⟨.complete (brackets.tree (done ++ [a])), frames⟩ rest ∧
      (Solid rest → Advances ⟨p, brackets.frame done :: frames⟩ (chars ++ ',' :: ' ' :: rest)
        ⟨brackets.separated, brackets.frame (done ++ [a]) :: frames⟩ rest)

theorem Takes.readsEntry {chars : List Char} {a : α} (h : brackets.Takes chars a) :
    brackets.ReadsEntry chars a := by
  intro p done frames rest hp
  constructor
  · obtain ⟨m, hadvances, hbehind⟩ := h p done frames _ hp (ends_cons brackets.closing_ends rest)
    exact hadvances.trans (hbehind.closes.advances rest)
  · intro hsolid
    obtain ⟨m, hadvances, hbehind⟩ :=
      h p done frames _ hp (ends_cons (c := ',') (by decide) (' ' :: rest))
    exact hadvances.trans (Advances.token (lexes_separator hsolid) hbehind.separates.1
      fun position => hbehind.separates.2 _ position)

def chars (entries : List (List Char)) : List Char :=
  [',', ' '].intercalate entries

theorem starts_opening (rest : List Char) : Starts (brackets.opening :: rest) :=
  ⟨List.cons_ne_nil _ _,
    solid_cons (notMem_gapChars_of_mem_symbolChars _ brackets.opening_mem) rest⟩

theorem starts_chars {cs : List Char} (h : Starts cs) (entries : List (List Char)) :
    Starts (chars (cs :: entries)) := by
  cases entries with
  | nil => rwa [chars, List.intercalate_singleton]
  | cons ds entries =>
      rw [chars, List.intercalate_cons_cons, List.append_assoc]
      exact ⟨List.append_ne_nil_of_left_ne_nil h.1 _, h.solid_append _⟩

/-- Entries are collected one by one, up to the closing bracket. -/
theorem reads_entries {entries : List (List Char × α)} {p : Phase} {done : List α}
    {frames : List Frame} (rest : List Char) (hne : entries ≠ [])
    (hentries : ∀ e ∈ entries, brackets.ReadsEntry e.1 e.2 ∧ Starts e.1)
    (hp : p = brackets.inside ∨ p = brackets.separated) :
    Advances ⟨p, brackets.frame done :: frames⟩
      (chars (entries.map Prod.fst) ++ brackets.closing :: rest)
      ⟨.complete (brackets.tree (done ++ entries.map Prod.snd)), frames⟩ rest := by
  induction entries generalizing p done with
  | nil => exact absurd rfl hne
  | cons entry entries ih =>
      obtain ⟨hreads, -⟩ := hentries entry List.mem_cons_self
      cases entries with
      | nil =>
          rw [chars, List.map_singleton, List.intercalate_singleton]
          exact (hreads p done frames rest hp).1
      | cons next entries =>
          have hothers := fun other hother => hentries other (List.mem_cons_of_mem entry hother)
          have hsolid :=
            (starts_chars (hothers next List.mem_cons_self).2 (entries.map Prod.fst)).solid_append
              (brackets.closing :: rest)
          have hnext := @ih brackets.separated (done ++ [entry.2]) (List.cons_ne_nil _ _) hothers
            (Or.inr rfl)
          rw [List.append_assoc] at hnext
          rw [List.map_cons, List.map_cons, chars, List.intercalate_cons_cons, List.append_assoc,
            List.append_assoc]
          exact ((hreads p done frames _ hp).2 hsolid).trans hnext

theorem advances_opening {p : Phase} (hp : p.opensOperand = true) (frames : List Frame)
    (cs : List Char) :
    Advances ⟨p, frames⟩ (brackets.opening :: cs) ⟨brackets.inside, brackets.frame [] :: frames⟩
      cs := by
  refine Advances.token (lexes_symbol brackets.opening_symbol brackets.opening_mem cs)
    (accepts_of_opensOperand hp brackets.starts) fun position => ?_
  have hnotField : brackets.openTerminal ≠ .name ∧ brackets.openTerminal ≠ .string := by
    constructor
    all_goals
      intro hterminal
      have hsymbol := brackets.opening_symbol
      rw [hterminal] at hsymbol
      cases hsymbol
  rw [feed?_of_opensOperand hp brackets.starts (Or.inr hnotField)]
  exact brackets.begins frames _ _

/-- In brackets that hold nothing, anything may come. -/
theorem behind_inside (frames : List Frame) :
    brackets.Behind ⟨brackets.inside, brackets.frame [] :: frames⟩ [] frames :=
  ⟨⟨brackets.accepts, brackets.ends frames⟩, brackets.separates frames⟩

/-- Brackets are read as what their entries are read as. -/
theorem reads {entries : List (List Char × α)}
    (hentries : ∀ e ∈ entries, brackets.ReadsEntry e.1 e.2 ∧ Starts e.1) :
    ReadsOperand (brackets.opening :: chars (entries.map Prod.fst) ++ [brackets.closing])
      (brackets.tree (entries.map Prod.snd)) := by
  intro p frames rest hp hframes hrest
  refine ⟨_, frames, brackets.tree (entries.map Prod.snd), ?_, Or.inl rfl,
    closeUnary_of_outside hframes⟩
  rw [List.append_assoc, List.cons_append, List.singleton_append]
  refine (advances_opening hp frames _).trans ?_
  cases entries with
  | nil => exact (behind_inside frames).closes.advances rest
  | cons entry entries => exact reads_entries rest (List.cons_ne_nil _ _) hentries (Or.inl rfl)

def list : Brackets (Item Tree) where
  opening := '['
  closing := ']'
  openTerminal := .leftBracket
  closeTerminal := .rightBracket
  inside := .listOpen
  separated := .listSeparated
  frame := .list
  tree := .list
  opening_symbol := rfl
  opening_mem := by decide
  closing_symbol := rfl
  closing_mem := by decide
  starts := rfl
  begins _ _ _ := rfl
  closing_ends := by decide
  accepts := rfl
  ends _ _ _ := rfl
  separates _ := ⟨rfl, fun _ _ => rfl⟩
  separated_accepts := rfl
  separated_ends _ _ _ _ := rfl

def struct : Brackets Field where
  opening := '\x7b'
  closing := '\x7d'
  openTerminal := .leftBrace
  closeTerminal := .rightBrace
  inside := .structOpen
  separated := .structSeparated
  frame := .struct
  tree := .struct
  opening_symbol := rfl
  opening_mem := by decide
  closing_symbol := rfl
  closing_mem := by decide
  starts := rfl
  begins _ _ _ := rfl
  closing_ends := by decide
  accepts := rfl
  ends _ _ _ := rfl
  separates _ := ⟨rfl, fun _ _ => rfl⟩
  separated_accepts := rfl
  separated_ends _ _ _ _ := rfl

end Brackets

section List

variable {chars : List Char} {t : Tree}

/-- Behind an item, the list may be closed or go on. -/
theorem behind_value {p q : Phase} {u : Tree} {fs frames : List Frame} {done : List (Item Tree)}
    (hoperand : p.Operand q u) (hp : p.opensField = false)
    (hclose : closeExpression u fs = (t, .list done :: frames)) :
    Brackets.list.Behind ⟨q, fs⟩ (done ++ [.value t]) frames := by
  have hfield {P : Prop} : p.opensField = true → P := fun h => by
    rw [hp] at h
    cases h
  exact ⟨⟨hoperand.accepts rfl hfield, hoperand.feed?_of_follows rfl fun _ _ =>
      closeBracket?_value hclose⟩,
    hoperand.accepts rfl hfield, hoperand.feed?_of_follows rfl fun _ _ => separate?_item hclose⟩

theorem takes_value (h : ReadsValue chars t) : Brackets.list.Takes chars (.value t) := by
  intro p done frames rest hp hrest
  have hopens : p.opens = true ∧ p.opensField = false := by
    rcases hp with rfl | rfl <;> exact ⟨rfl, rfl⟩
  obtain ⟨q, fs, u, hadvances, hoperand, hclose⟩ :=
    h p (.list done :: frames) rest hopens.1 (outside_cons (Nat.le_refl 6)) hrest
  exact ⟨⟨q, fs⟩, hadvances, behind_value hoperand hopens.2 hclose⟩

theorem readsEntry_value (h : ReadsValue chars t) : Brackets.list.ReadsEntry chars (.value t) :=
  (takes_value h).readsEntry

theorem advances_ellipsis {p : Phase} {done : List (Item Tree)} {frames : List Frame}
    (hp : p = .listOpen ∨ p = .listSeparated) (rest : List Char) :
    Advances ⟨p, .list done :: frames⟩ ('.' :: '.' :: '.' :: rest)
      ⟨.ellipsis, .rest :: .list done :: frames⟩ rest := by
  have haccepts : p.accepts .ellipsis = true := by
    rcases hp with rfl | rfl <;> rfl
  apply Advances.token (lexes_ellipsis rest) haccepts
  intro position
  rcases hp with rfl | rfl <;> rfl

theorem behind_rest (done : List (Item Tree)) (frames : List Frame) :
    Brackets.list.Behind ⟨.ellipsis, .rest :: .list done :: frames⟩ (done ++ [.rest]) frames :=
  ⟨⟨rfl, fun _ _ => rfl⟩, rfl, fun _ _ => rfl⟩

theorem takes_rest : Brackets.list.Takes ['.', '.', '.'] .rest :=
  fun _ done frames rest hp _ => ⟨_, advances_ellipsis hp rest, behind_rest done frames⟩

theorem readsEntry_rest : Brackets.list.ReadsEntry ['.', '.', '.'] .rest :=
  takes_rest.readsEntry

theorem behind_restOf {q : Phase} {u : Tree} {fs frames : List Frame} {done : List (Item Tree)}
    (hoperand : Phase.ellipsis.Operand q u)
    (hclose : closeExpression u fs = (t, .rest :: .list done :: frames)) :
    Brackets.list.Behind ⟨q, fs⟩ (done ++ [.restOf t]) frames :=
  ⟨⟨hoperand.accepts rfl nofun, hoperand.feed?_of_follows rfl fun _ _ =>
      closeBracket?_restOf hclose⟩,
    hoperand.accepts rfl nofun, hoperand.feed?_of_follows rfl fun _ _ => separate?_rest hclose⟩

theorem takes_restOf (h : ReadsValue chars t) :
    Brackets.list.Takes ('.' :: '.' :: '.' :: chars) (.restOf t) := by
  intro p done frames rest hp hrest
  obtain ⟨q, fs, u, hadvances, hoperand, hclose⟩ :=
    h .ellipsis (.rest :: .list done :: frames) rest rfl (outside_cons (Nat.le_refl 6)) hrest
  exact ⟨⟨q, fs⟩, (advances_ellipsis hp _).trans hadvances, behind_restOf hoperand hclose⟩

theorem readsEntry_restOf (h : ReadsValue chars t) :
    Brackets.list.ReadsEntry ('.' :: '.' :: '.' :: chars) (.restOf t) :=
  (takes_restOf h).readsEntry

end List

section Struct

variable {chars : List Char} {t : Tree}

/-- A label leads to the value that stands under it. Only blanks may stand next to the colon. -/
theorem advances_label {terminal : Terminal} {label : Label} {labelChars before after : List Char}
    {p : Phase} {done : List Field} {frames : List Frame} {rest : List Char}
    (hlexes : ∀ rest, Ends rest → Lexes terminal labelChars rest)
    (hlabel : ∀ position, labelOf? ⟨terminal, String.ofList labelChars, position⟩ = some label)
    (hbefore : ∀ c ∈ before, c ∈ blankChars) (hafter : ∀ c ∈ after, c ∈ blankChars)
    (hp : p = .structOpen ∨ p = .structSeparated) (hrest : Solid rest) :
    Advances ⟨p, .struct done :: frames⟩ (labelChars ++ (before ++ ':' :: (after ++ rest)))
      ⟨.fieldValue, .label label :: .struct done :: frames⟩ rest := by
  have hterminal : terminal = .name ∨ terminal = .string := by
    cases terminal <;> first | exact Or.inl rfl | exact Or.inr rfl | cases hlabel ⟨0, 0⟩
  have hends : Ends (before ++ ':' :: (after ++ rest)) :=
    ends_layout (fun c hc => List.mem_append_right [',', '\n'] (hbefore c hc))
      (ends_cons (by decide) _)
  have hname : Advances ⟨p, .struct done :: frames⟩ (labelChars ++ (before ++ ':' :: (after ++ rest)))
      ⟨.labelComplete label, .struct done :: frames⟩ (before ++ ':' :: (after ++ rest)) := by
    refine Advances.token (hlexes _ hends) ?_ fun position => ?_
    · rcases hp with rfl | rfl <;> rcases hterminal with rfl | rfl <;> rfl
    · have h := hlabel position
      rcases hp with rfl | rfl <;> rcases hterminal with rfl | rfl <;> cases h <;> rfl
  have hcolon : Advances ⟨.labelComplete label, .struct done :: frames⟩ (':' :: (after ++ rest))
      ⟨.fieldValue, .label label :: .struct done :: frames⟩ (after ++ rest) :=
    Advances.token (lexes_symbol (t := .colon) rfl (by decide) _) rfl fun position => rfl
  have hskip : Advances ⟨.labelComplete label, .struct done :: frames⟩
      (before ++ ':' :: (after ++ rest)) ⟨.labelComplete label, .struct done :: frames⟩
      (':' :: (after ++ rest)) :=
    Advances.blanks _ hbefore (skipped_of_solid (solid_cons (by decide) _))
  exact hname.trans (hskip.trans (hcolon.trans
    (Advances.blanks _ hafter (skipped_of_solid hrest))))

/-- Behind a field, the struct may be closed or go on. -/
theorem behind_field {labels : List Label} {q : Phase} {u : Tree} {fs frames : List Frame}
    {done : List Field} (hne : labels ≠ []) (hoperand : Phase.fieldValue.Operand q u)
    (hclose : closeExpression u fs = (t, labelFrames labels ++ .struct done :: frames)) :
    Brackets.struct.Behind ⟨q, fs⟩ (done ++ [(labels, t)]) frames :=
  ⟨⟨hoperand.accepts rfl fun _ => ⟨nofun, nofun⟩, hoperand.feed?_of_follows rfl fun _ _ =>
      closeBrace?_labels hne hclose⟩,
    hoperand.accepts rfl fun _ => ⟨nofun, nofun⟩, hoperand.feed?_of_follows rfl fun _ _ =>
      separate?_labels hne hclose⟩

theorem takes_field {terminal : Terminal} {label : Label} {labelChars before after : List Char}
    (hlexes : ∀ rest, Ends rest → Lexes terminal labelChars rest)
    (hlabel : ∀ position, labelOf? ⟨terminal, String.ofList labelChars, position⟩ = some label)
    (hbefore : ∀ c ∈ before, c ∈ blankChars) (hafter : ∀ c ∈ after, c ∈ blankChars)
    (h : ReadsValue chars t) (hstarts : Starts chars) :
    Brackets.struct.Takes (labelChars ++ (before ++ ':' :: (after ++ chars))) ([label], t) := by
  intro p done frames rest hp hrest
  obtain ⟨q, fs, u, hadvances, hoperand, hclose⟩ :=
    h .fieldValue (.label label :: .struct done :: frames) rest rfl (outside_cons (Nat.le_refl 6))
      hrest
  refine ⟨⟨q, fs⟩, ?_, behind_field (List.cons_ne_nil label []) hoperand hclose⟩
  rw [List.append_assoc, List.append_assoc, List.cons_append, List.append_assoc]
  exact (advances_label hlexes hlabel hbefore hafter hp (hstarts.solid_append rest)).trans hadvances

theorem readsEntry_field {terminal : Terminal} {label : Label} {labelChars : List Char}
    (hlexes : ∀ rest, Ends rest → Lexes terminal labelChars rest)
    (hlabel : ∀ position, labelOf? ⟨terminal, String.ofList labelChars, position⟩ = some label)
    (h : ReadsValue chars t) (hstarts : Starts chars) :
    Brackets.struct.ReadsEntry (labelChars ++ ':' :: ' ' :: chars) ([label], t) := by
  have hblank : ∀ c ∈ [' '], c ∈ blankChars :=
    List.all_iff_forall_prop.mp (by decide)
  exact (takes_field hlexes hlabel (List.forall_mem_nil _) hblank h hstarts).readsEntry

end Struct

end ApiProbe.Expr
