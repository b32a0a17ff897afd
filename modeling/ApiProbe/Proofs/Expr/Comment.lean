import ApiProbe.Proofs.Expr.Closing
import ApiProbe.Proofs.Expr.Gap
import ApiProbe.Proofs.Result
import ApiProbe.Language

/-!
# Comments behind a text

A comment behind a text changes nothing, with three exceptions. A comment that no line feed ends is a
separator up to its last comma, and what stands behind the comma is read. So it is in a comment that the
text itself ends in, which a line feed behind it turns into one piece. And a separator does not go on
behind a form feed, so a line feed there is one separator too many.

A text is read up to the comment at its end step by step, each over a blank, a separator, a comment or a
token, in the same way whatever gap stands behind the text. What the gap is read as depends only on the
state there.
-/

namespace ApiProbe

namespace Expr

section Fed

variable {m n : Machine}

/-- The phases that a separator leads to. -/
def Phase.isSeparated : Phase → Bool
  | .startSeparated | .structSeparated | .listSeparated | .documentSeparated | .finished _ => true
  | _ => false

theorem begin?_isSeparated {frames : List Frame} {t : Token} (h : begin? frames t = some n) :
    n.phase.isSeparated = false := by
  obtain ⟨terminal, text, position⟩ := t
  cases terminal <;> cases h <;> rfl

theorem beginField?_isSeparated {frames : List Frame} {t : Token} (h : beginField? frames t = some n) :
    n.phase.isSeparated = false := by
  unfold beginField? at h
  split at h
  · cases h
    rfl
  · cases h
    rfl
  · exact begin?_isSeparated h

theorem continueList?_isSeparated {frames : List Frame} {t : Token}
    (h : continueList? frames t = some n) : n.phase.isSeparated = false := by
  unfold continueList? at h
  split at h
  · cases h
    rfl
  · cases h
    rfl
  · exact begin?_isSeparated h

theorem continueStruct?_isSeparated {frames : List Frame} {t : Token}
    (h : continueStruct? frames t = some n) : n.phase.isSeparated = false := by
  unfold continueStruct? at h
  split at h
  · cases h
    rfl
  · obtain ⟨label, -, rfl⟩ := Option.map_eq_some_iff.mp h
    rfl

theorem continue?_isSeparated {tree : Tree} {frames : List Frame} {t : Token}
    (ht : t.terminal ≠ .separator) (h : continue? tree frames t = some n) :
    n.phase.isSeparated = false := by
  obtain ⟨terminal, text, position⟩ := t
  cases terminal with
  | separator => exact absurd rfl ht
  | test =>
      simp only [continue?, addTest?] at h
      split at h <;> cases h
      rfl
  | ampersand =>
      simp only [continue?, addPart] at h
      split at h <;> cases h <;> rfl
  | bar =>
      simp only [continue?, addOption] at h
      split at h <;> cases h <;> rfl
  | rightParen =>
      simp only [continue?] at h
      split at h <;> cases h
      rfl
  | rightBracket =>
      simp only [continue?, closeBracket?] at h
      split at h
      · cases h
        rfl
      · obtain ⟨items, -, rfl⟩ := Option.map_eq_some_iff.mp h
        rfl
  | rightBrace =>
      simp only [continue?, closeBrace?] at h
      split at h <;> cases h
      rfl
  | _ => cases h <;> rfl

theorem pushLabel_isSeparated (label : Label) (frames : List Frame) :
    (pushLabel label frames).phase.isSeparated = false := by
  cases frames <;> rfl

theorem feed?_isSeparated {t : Token} (ht : t.terminal ≠ .separator) (h : m.feed? t = some n) :
    n.phase.isSeparated = false := by
  obtain ⟨phase, frames⟩ := m
  have hterminal : ¬ (t.terminal == Terminal.separator) = true := by simpa using ht
  cases phase with
  | start =>
      simp only [Machine.feed?, if_neg hterminal] at h
      exact beginField?_isSeparated h
  | startSeparated | fieldValue => exact beginField?_isSeparated h
  | operand =>
      simp only [Machine.feed?] at h
      split at h
      · cases h
      · exact begin?_isSeparated h
  | expression => exact begin?_isSeparated h
  | complete tree => exact continue?_isSeparated ht h
  | labelOrOperand label =>
      simp only [Machine.feed?] at h
      split at h
      · cases h
        exact pushLabel_isSeparated label frames
      · exact continue?_isSeparated ht h
  | selector target =>
      obtain ⟨selector, -, rfl⟩ := Option.map_eq_some_iff.mp h
      rfl
  | structOpen =>
      simp only [Machine.feed?, if_neg hterminal] at h
      exact continueStruct?_isSeparated h
  | structSeparated => exact continueStruct?_isSeparated h
  | labelComplete label =>
      simp only [Machine.feed?] at h
      split at h <;> cases h
      exact pushLabel_isSeparated label frames
  | listOpen =>
      simp only [Machine.feed?, if_neg hterminal] at h
      exact continueList?_isSeparated h
  | listSeparated => exact continueList?_isSeparated h
  | ellipsis =>
      simp only [Machine.feed?] at h
      split at h
      · cases h
        rfl
      · rename_i hseparator
        exact absurd hseparator ht
      · exact begin?_isSeparated h
  | documentSeparated =>
      obtain ⟨label, -, rfl⟩ := Option.map_eq_some_iff.mp h
      rfl
  | finished tree => cases h

end Fed

section Finish

variable {t : Tree} {frames : List Frame} {document : Document}

/-- Where a text may end behind an operand, it may as well end behind a separator there. -/
theorem exists_separate? {phase : Phase} (hoperand : phase = .complete t ∨ ∃ label : Label,
      phase = .labelOrOperand label ∧ label.operand = t)
    (h : Machine.finish? ⟨phase, frames⟩ = some document) :
    ∃ n, separate? t frames = some n ∧ n.finish? = some document := by
  have hclose : closeDocument? t frames = some document := by
    rcases hoperand with rfl | ⟨label, rfl, rfl⟩
    · exact (finish?_complete t frames).symm.trans h
    · exact (finish?_labelOrOperand label frames).symm.trans h
  unfold closeDocument? at hclose
  split at hclose
  · rename_i field fields hfield
    cases hclose
    have hitem : closeItem? t frames = none := by
      simp only [closeField?] at hfield
      rw [closeItem?]
      split
      · rename_i heq
        rw [heq] at hfield
        cases hfield
      · rename_i heq
        rw [heq] at hfield
        cases hfield
      · rfl
    refine ⟨⟨.documentSeparated, [.document (fields ++ [field])]⟩, ?_, rfl⟩
    rw [separate?, hitem, hfield]
  · split at hclose
    · rename_i u hexpression
      cases hclose
      exact ⟨_, separate?_nil hexpression, rfl⟩
    · cases hclose

/-- Where a text may end, it may as well end behind a separator, but not behind a second one that the
first does not go on with. -/
theorem finish?_separated {m : Machine} {separated : Bool} (h : m.finish? = some document)
    (hroom : separated = true ∨ m.phase.isSeparated = false) :
    (separated || m.phase.accepts .separator) = true ∧
      (m.separated? separated).bind Machine.finish? = some document := by
  cases separated with
  | true => exact ⟨rfl, h⟩
  | false =>
      have hphase := hroom.resolve_left Bool.false_ne_true
      obtain ⟨phase, frames⟩ := m
      cases phase with
      | start => exact ⟨rfl, h⟩
      | complete t =>
          obtain ⟨n, hn, hfinish⟩ := exists_separate? (Or.inl rfl) h
          exact ⟨rfl, (congrArg (·.bind Machine.finish?) hn).trans hfinish⟩
      | labelOrOperand label =>
          obtain ⟨n, hn, hfinish⟩ := exists_separate? (Or.inr ⟨label, rfl, rfl⟩) h
          exact ⟨rfl, (congrArg (·.bind Machine.finish?) hn).trans hfinish⟩
      | startSeparated | structSeparated | listSeparated | documentSeparated | finished =>
          cases hphase
      | _ => cases h

end Finish

/-! ### Comments at the end

A comment that no line feed ends is what makes the end of a text special: all else in front of it is read as
it would be in the middle of a text. So the text is cut there, and of the part in front only what stands
last counts, which is followed character by character. -/

/-- The comment that a text ends in, if no line feed ends it. Comments do not start in strings. -/
def openComment : List Char → List Char
  | [] => []
  | c :: rest =>
    if c == '"' then openComment (rest.drop ((stringMore? rest).getD 0))
    else if c == '/' && rest.head? == some '/' then
      if rest.contains '\n' then openComment (rest.dropWhile (· != '\n')) else c :: rest
    else openComment rest
  termination_by cs => cs.length
  decreasing_by
    · exact Nat.lt_succ_of_le (List.drop_suffix _ _).length_le
    · exact Nat.lt_succ_of_le (List.dropWhile_suffix _).length_le
    · exact Nat.lt_succ_self _

/-- Nothing, or a comment that no line feed ends. -/
def IsOpenComment (cs : List Char) : Prop :=
  cs = [] ∨ ∃ body, cs = '/' :: '/' :: body ∧ '\n' ∉ body

/-- What stands in front of the comment that a text ends in. -/
def beforeComment (cs : List Char) : List Char :=
  cs.take (cs.length - (openComment cs).length)

/-- What stands last in a text: no separator, a separator, or one that a form feed behind it keeps from
going on. -/
inductive Ending where
  | clear
  | separated
  | stranded
  deriving DecidableEq

namespace Ending

def after (e : Ending) (c : Char) : Ending :=
  if c == ',' || c == '\n' then .separated
  else if c == '\x0c' then
    match e with
    | .clear => .clear
    | .separated | .stranded => .stranded
  else if isSkipped c then e
  else .clear

def afterAll (e : Ending) (cs : List Char) : Ending :=
  cs.foldl after e

def rank : Ending → Nat
  | .clear => 0
  | .separated => 1
  | .stranded => 2

theorem after_blank {c : Char} (hc : c ∈ blankChars) (e : Ending) : e.after c = e := by
  simp only [blankChars, List.mem_cons, List.not_mem_nil, or_false] at hc
  rcases hc with rfl | rfl | rfl <;> rfl

theorem after_mark {c : Char} (hc : c ∈ [',', '\n']) (e : Ending) : e.after c = .separated := by
  rcases List.mem_pair.mp hc with rfl | rfl <;> rfl

theorem afterAll_append (e : Ending) (cs ds : List Char) :
    e.afterAll (cs ++ ds) = (e.afterAll cs).afterAll ds :=
  List.foldl_append

theorem after_mono {d e : Ending} (h : d.rank ≤ e.rank) (c : Char) : (d.after c).rank ≤ (e.after c).rank := by
  unfold after
  split
  · exact Nat.le.refl
  · split
    · cases d <;> cases e <;> first | decide | exact absurd h (by decide)
    · split
      · exact h
      · exact Nat.le.refl

theorem afterAll_mono {d e : Ending} (h : d.rank ≤ e.rank) (cs : List Char) :
    (d.afterAll cs).rank ≤ (e.afterAll cs).rank := by
  induction cs generalizing d e with
  | nil => exact h
  | cons c cs ih => exact ih (after_mono h c)

theorem ne_stranded_of_rank_le {d e : Ending} (h : d.rank ≤ e.rank) (he : e ≠ .stranded) :
    d ≠ .stranded := by
  rintro rfl
  cases e <;> first | exact he rfl | exact absurd h (by decide)

end Ending

/-- The ways a text starts. -/
inductive Opening : List Char → Prop
  | nil : Opening []
  | blank {c : Char} {rest : List Char} (hc : c ∈ blankChars) : Opening (c :: rest)
  | formFeed {rest : List Char} : Opening ('\x0c' :: rest)
  | mark {c : Char} {rest : List Char} (hc : c ∈ [',', '\n']) : Opening (c :: rest)
  | closed {body after : List Char} (hline : '\n' ∉ body) :
      Opening ('/' :: '/' :: (body ++ '\n' :: after))
  | unclosed {body : List Char} (hline : '\n' ∉ body) : Opening ('/' :: '/' :: body)
  | token {c : Char} {rest : List Char} (h : AtToken c rest) : Opening (c :: rest)

theorem opening (cs : List Char) : Opening cs := by
  cases cs with
  | nil => exact .nil
  | cons c rest =>
      by_cases hgap : c ∈ [' ', '\t', '\r', '\x0c', ',', '\n']
      · rcases List.mem_append.mp (show c ∈ blankChars ++ ['\x0c', ',', '\n'] from hgap) with hblank | hmark
        · exact .blank hblank
        · rcases List.mem_cons.mp hmark with rfl | hmark
          · exact .formFeed
          · exact .mark hmark
      · by_cases hcomment : c = '/' ∧ rest.head? = some '/'
        · obtain ⟨rfl, hhead⟩ := hcomment
          obtain ⟨rest, rfl⟩ := List.head?_eq_some_iff.mp hhead
          by_cases hline : '\n' ∈ rest
          · obtain ⟨body, after, rfl, hbody⟩ := List.eq_append_cons_of_mem hline
            exact .closed hbody
          · exact .unclosed hline
        · refine .token ⟨hgap, ?_⟩
          rintro hc d hd rfl
          exact hcomment ⟨hc, hd⟩

section OpenComment

variable {c : Char} {body rest : List Char}

theorem openComment_nil : openComment [] = [] := by
  rw [openComment]

theorem openComment_string (rest : List Char) :
    openComment ('"' :: rest) = openComment (rest.drop ((stringMore? rest).getD 0)) := by
  rw [openComment, if_pos (by decide)]

theorem openComment_cons (hquote : c ≠ '"') (hslash : c ≠ '/' ∨ ∀ d ∈ rest.head?, d ≠ '/') :
    openComment (c :: rest) = openComment rest := by
  rw [openComment, if_neg (by simpa using hquote), if_neg]
  rw [Bool.and_eq_true, beq_iff_eq, beq_iff_eq]
  rintro ⟨rfl, hhead⟩
  exact hslash.resolve_left (fun h => h rfl) '/' hhead rfl

theorem openComment_closed (h : '\n' ∉ body) (after : List Char) :
    openComment ('/' :: '/' :: (body ++ '\n' :: after)) = openComment after := by
  have hline : ('/' :: (body ++ '\n' :: after)).contains '\n' = true := by simp
  have hrest : ('/' :: (body ++ '\n' :: after)).dropWhile (· != '\n') = '\n' :: after := by
    rw [List.dropWhile_cons_of_pos (by decide), List.dropWhile_append, dropWhile_last h]
    rfl
  rw [openComment, if_neg (by decide), if_pos (by simp), if_pos hline, hrest,
    openComment_cons (by decide) (Or.inl (by decide))]

theorem openComment_unclosed (h : '\n' ∉ body) :
    openComment ('/' :: '/' :: body) = '/' :: '/' :: body := by
  have hline : ¬ ('/' :: body).contains '\n' = true := by simpa using h
  rw [openComment, if_neg (by decide), if_pos (by simp), if_neg hline]

theorem openComment_plain {cs : List Char} (h : Plain cs) (rest : List Char) :
    openComment (cs ++ rest) = openComment rest := by
  induction cs with
  | nil => rfl
  | cons c cs ih =>
      obtain ⟨⟨hquote, hslash⟩, hcs⟩ := List.forall_mem_cons.mp h
      rw [List.cons_append, openComment_cons hquote (Or.inl hslash), ih hcs]

theorem isOpenComment (cs : List Char) : IsOpenComment (openComment cs) := by
  fun_induction openComment cs with
  | case1 => exact Or.inl rfl
  | case2 c rest hquote ih => exact ih
  | case3 c rest hquote hslash hline ih => exact ih
  | case4 c rest hquote hslash hline =>
      rw [Bool.and_eq_true, beq_iff_eq, beq_iff_eq] at hslash
      obtain ⟨rfl, hhead⟩ := hslash
      obtain ⟨body, rfl⟩ := List.head?_eq_some_iff.mp hhead
      exact Or.inr ⟨body, rfl, by simpa using hline⟩
  | case5 c rest hquote hslash ih => exact ih

theorem openComment_suffix (cs : List Char) : openComment cs <:+ cs := by
  fun_induction openComment cs with
  | case1 => exact List.suffix_rfl
  | case2 c rest hquote ih => exact (ih.trans (List.drop_suffix _ _)).trans (List.suffix_cons c rest)
  | case3 c rest hquote hslash hline ih =>
      exact (ih.trans (List.dropWhile_suffix _)).trans (List.suffix_cons c rest)
  | case4 => exact List.suffix_rfl
  | case5 c rest hquote hslash ih => exact ih.trans (List.suffix_cons c rest)

theorem beforeComment_append (cs : List Char) : beforeComment cs ++ openComment cs = cs :=
  List.suffix_iff_eq_append.mp (openComment_suffix cs)

theorem beforeComment_eq_append {chars rest : List Char}
    (h : openComment (chars ++ rest) = openComment rest) :
    beforeComment (chars ++ rest) = chars ++ beforeComment rest := by
  have hboth : beforeComment (chars ++ rest) ++ openComment rest
      = chars ++ beforeComment rest ++ openComment rest := by
    rw [List.append_assoc, beforeComment_append, ← h, beforeComment_append]
  exact List.append_cancel_right hboth

end OpenComment

/-! ### Reading up to the comment at the end

The comment at the end is compared with the one that a gap behind it makes longer. Both are met in the same
state of the parser, so it is enough to read up to it once; the rank of what stands last says whether that
state has room for one more separator. -/

/-- What stands last in front of a state. -/
def Machine.ending (m : Machine) (separated : Bool) : Ending :=
  if separated then .separated else if m.phase.isSeparated then .stranded else .clear

/-- From one state, a text is read up to the comment at its end, and from another on with that and
whatever gap stands behind. The other state can take a separator, or goes on with one, if none is
stranded in front of it. -/
structure Machine.Reaches (m : Machine) (separated : Bool) (cs : List Char) (n : Machine)
    (after : Bool) : Prop where
  read : ∀ gap, Apart gap → m.read? separated (cs ++ gap) = n.read? after (openComment cs ++ gap)
  room : (m.ending separated).afterAll (beforeComment cs) ≠ .stranded →
    after = true ∨ n.phase.isSeparated = false

section Reaches

variable {l m n : Machine} {separated between after : Bool} {chars rest cs : List Char}
  {document : Document}

theorem Machine.Reaches.here (h : openComment cs = cs) (m : Machine) (separated : Bool) :
    m.Reaches separated cs m separated := by
  refine ⟨fun _ _ => by rw [h], fun hne => ?_⟩
  cases separated with
  | true => exact Or.inl rfl
  | false =>
      refine Or.inr (Bool.eq_false_iff.mpr fun hphase => hne ?_)
      rw [beforeComment, h, Nat.sub_self, Machine.ending, if_neg Bool.false_ne_true, if_pos hphase]
      rfl

theorem Machine.Reaches.step (h : m.Reaches between rest n after)
    (hcomment : openComment (chars ++ rest) = openComment rest)
    (hread : ∀ gap, Apart gap →
      l.read? separated (chars ++ rest ++ gap) = m.read? between (rest ++ gap))
    (hending : (m.ending between).rank ≤ ((l.ending separated).afterAll chars).rank) :
    l.Reaches separated (chars ++ rest) n after := by
  refine ⟨fun gap hgap => ?_, fun hne => h.room ?_⟩
  · rw [hread gap hgap, h.read gap hgap, hcomment]
  · rw [beforeComment_eq_append hcomment, Ending.afterAll_append] at hne
    exact Ending.ne_stranded_of_rank_le (Ending.afterAll_mono hending _) hne

theorem apart_nil : Apart [] :=
  nofun

theorem Machine.Reaches.read_comment (h : m.Reaches separated cs n after)
    (hread : m.read? separated cs = some document) : n.read? after (openComment cs) = some document := by
  have hnil := h.read [] apart_nil
  rwa [List.append_nil, List.append_nil, hread, eq_comm] at hnil

/-- A token leads to a state and leaves the rest of the text, whatever gap stands behind that. -/
theorem exists_token {c : Char} (h : AtToken c rest) (hread : m.read? false (c :: rest) = some document) :
    ∃ (more back : List Char) (n : Machine), rest = more ++ back ∧
      openComment (c :: rest) = openComment back ∧ n.phase.isSeparated = false ∧
      ∀ gap, Apart gap → m.read? false (c :: (rest ++ gap)) = n.read? false (back ++ gap) := by
  cases hlexeme : lexeme? m.phase.accepts c rest with
  | none =>
      rw [read?_none hlexeme] at hread
      cases hread
  | some lexeme =>
      obtain ⟨t, k, rfl, hmore⟩ := exists_more?_of_lexeme? h hlexeme
      rw [read?_token hlexeme] at hread
      obtain ⟨n, hfeed, -⟩ := Option.bind_eq_some_iff.mp hread
      have ht : t ≠ .separator := by
        rintro rfl
        rw [Terminal.more?, h.separatorMore?_eq_none] at hmore
        cases hmore
      obtain ⟨hlength, hplain⟩ := more?_inside h hmore
      refine ⟨rest.take k, rest.drop k, n, (List.take_append_drop k rest).symm, ?_,
        feed?_isSeparated ht hfeed, fun gap hgap => ?_⟩
      · by_cases hquote : c = '"'
        · subst hquote
          rw [openComment_string, stringMore?_of_more? hmore, Option.getD_some]
        · rw [openComment_cons hquote (Decidable.not_or_of_imp h.notComment)]
          conv_lhs => rw [← List.take_append_drop k rest]
          exact openComment_plain (hplain hquote) _
      · have hclosed : c = '"' → (stringMore? rest).isSome := by
          rintro rfl
          rw [stringMore?_of_more? hmore]
          rfl
        rw [read?_token ((lexeme?_append h hclosed hgap _).trans hlexeme),
          List.take_append_of_le_length hlength, hfeed, List.drop_append_of_le_length hlength]
        rfl

/-- A text that is read is read up to the comment at its end. -/
theorem exists_reaches (h : l.read? separated cs = some document) :
    ∃ n after, l.Reaches separated cs n after := by
  induction hlength : cs.length using Nat.strongRecOn generalizing l separated cs with
  | ind k ih =>
      subst hlength
      have hstep (chars : List Char) {rest : List Char} (m : Machine) (between : Bool)
          (hcs : cs = chars ++ rest) (hne : chars ≠ [])
          (hcomment : openComment cs = openComment rest)
          (hread : ∀ gap, Apart gap → l.read? separated (cs ++ gap) = m.read? between (rest ++ gap))
          (hending : (m.ending between).rank ≤ ((l.ending separated).afterAll chars).rank) :
          ∃ n after, l.Reaches separated cs n after := by
        have hrest : m.read? between rest = some document := by
          have hnil := hread [] apart_nil
          rwa [List.append_nil, List.append_nil, h, eq_comm] at hnil
        have hshorter : rest.length < cs.length := by
          have hpos := List.length_pos_iff.mpr hne
          rw [hcs, List.length_append]
          omega
        obtain ⟨n, after, hreaches⟩ := ih _ hshorter hrest rfl
        subst hcs
        exact ⟨n, after, hreaches.step hcomment hread hending⟩
      cases opening cs with
      | nil => exact ⟨l, separated, .here openComment_nil ..⟩
      | unclosed hline => exact ⟨l, separated, .here (openComment_unclosed hline) ..⟩
      | blank hc =>
          have hplain : ∀ c ∈ blankChars, c ≠ '"' ∧ c ≠ '/' :=
            List.all_iff_forall_prop.mp (by decide)
          obtain ⟨hquote, hslash⟩ := hplain _ hc
          refine hstep [_] l separated rfl (List.cons_ne_nil _ _)
            (openComment_cons hquote (Or.inl hslash)) (fun gap _ => read?_blank hc l separated _)
            (Nat.le_of_eq ?_)
          exact congrArg Ending.rank (Ending.after_blank hc _).symm
      | formFeed =>
          refine hstep [_] l false rfl (List.cons_ne_nil _ _)
            (openComment_cons (by decide) (Or.inl (by decide)))
            (fun gap _ => read?_formFeed l separated _) ?_
          simp only [Machine.ending]
          cases separated <;> cases l.phase.isSeparated <;> decide
      | mark hc =>
          have hplain : ∀ c ∈ [',', '\n'], c ≠ '"' ∧ c ≠ '/' :=
            List.all_iff_forall_prop.mp (by decide)
          obtain ⟨hquote, hslash⟩ := hplain _ hc
          rw [read?_mark hc] at h
          obtain ⟨m, hm, -⟩ := Option.bind_eq_some_iff.mp h
          refine hstep [_] m true rfl (List.cons_ne_nil _ _)
            (openComment_cons hquote (Or.inl hslash)) (fun gap _ => ?_) (Nat.le_of_eq ?_)
          · rw [List.cons_append, read?_mark hc, hm, Option.bind_some]
          · exact congrArg Ending.rank (Ending.after_mark hc _).symm
      | @closed body rest hline =>
          rw [read?_closed hline] at h
          obtain ⟨m, hm, -⟩ := Option.bind_eq_some_iff.mp h
          refine hstep ('/' :: '/' :: body ++ ['\n']) m true (by simp) (List.cons_ne_nil _ _)
            (openComment_closed hline rest) (fun gap _ => ?_) (Nat.le_of_eq ?_)
          · rw [List.cons_append, List.cons_append, List.append_assoc, List.cons_append,
              read?_closed hline, hm, Option.bind_some]
          · have hmark : ((l.ending separated).afterAll ('/' :: '/' :: body)).after '\n' = .separated :=
              Ending.after_mark (by decide) _
            rw [Ending.afterAll_append]
            exact congrArg Ending.rank hmark.symm
      | @token c rest hc =>
          rw [read?_atToken hc] at h
          obtain ⟨more, back, m, rfl, hcomment, hphase, hread⟩ := exists_token hc h
          refine hstep (c :: more) m false rfl (List.cons_ne_nil _ _) hcomment (fun gap hgap => ?_) ?_
          · rw [List.cons_append, read?_atToken (hc.append hgap), hread gap hgap]
          · rw [Machine.ending, if_neg Bool.false_ne_true, hphase]
            exact Nat.zero_le _

end Reaches

/-- Nothing is read of a text: it is blanks, perhaps with a comment behind them. -/
def Unread (cs : List Char) : Prop :=
  cs.dropWhile isSkipped = [] ∨ ['/', '/'] <+: cs.dropWhile isSkipped

instance (cs : List Char) : Decidable (Unread cs) :=
  inferInstanceAs (Decidable (_ ∨ _))

/-- What stands behind the last comma of a text, or the whole text if there is none. -/
def afterLastComma (cs : List Char) : List Char :=
  cs.drop (throughLastComma cs)

theorem afterLastComma_append (front : List Char) {back : List Char} (h : ',' ∉ back) :
    afterLastComma (front ++ ',' :: back) = back := by
  rw [afterLastComma, throughLastComma_append front h, ← List.singleton_append, ← List.append_assoc,
    List.drop_left' (by simp)]

theorem exists_last_comma {cs : List Char} (h : ',' ∈ cs) :
    ∃ front back, cs = front ++ ',' :: back ∧ ',' ∉ back := by
  obtain ⟨back, front, hcs, hback⟩ := List.eq_append_cons_of_mem (List.mem_reverse.mpr h)
  refine ⟨front.reverse, back.reverse, ?_, mt List.mem_reverse.mp hback⟩
  rw [← List.reverse_reverse cs, hcs, List.reverse_append, List.reverse_cons, List.append_assoc]
  rfl

section Behind

variable {m : Machine} {separated : Bool} {cs body front back comment : List Char}
  {document : Document}

theorem read?_unread (h : Unread cs) (hline : '\n' ∉ cs) (hcomma : ',' ∉ cs) (m : Machine)
    (separated : Bool) : m.read? separated cs = m.finish? := by
  induction cs generalizing separated with
  | nil => exact read?_nil m separated
  | cons c cs ih =>
      rw [List.mem_cons, not_or] at hline hcomma
      by_cases hc : isSkipped c = true
      · have hcs : Unread cs := by rwa [Unread, List.dropWhile_cons_of_pos hc] at h
        have hread (separated : Bool) : m.read? separated cs = m.finish? :=
          ih hcs hline.2 hcomma.2 separated
        simp only [isSkipped, Bool.or_eq_true, beq_iff_eq] at hc
        rcases hc with ((rfl | rfl) | rfl) | rfl
        · exact (read?_blank (by decide) m separated cs).trans (hread separated)
        · exact (read?_blank (by decide) m separated cs).trans (hread separated)
        · exact (read?_formFeed m separated cs).trans (hread false)
        · exact (read?_blank (by decide) m separated cs).trans (hread separated)
      · rw [Unread, List.dropWhile_cons_of_neg hc] at h
        obtain ⟨rfl, body, rfl⟩ := List.cons_prefix_cons.mp (h.resolve_left (List.cons_ne_nil c cs))
        rw [List.singleton_append, List.mem_cons, not_or] at hline hcomma
        exact read?_plain hline.2.2 hcomma.2.2 m separated

theorem read?_unread_back (h : Unread back) (hline : '\n' ∉ front ++ ',' :: back) (hback : ',' ∉ back)
    (m : Machine) : m.read? true back = m.finish? := by
  have hunbroken : '\n' ∉ back :=
    fun hmem => hline (List.mem_append_right _ (List.mem_cons_of_mem _ hmem))
  exact read?_unread h hunbroken hback m true

theorem read?_append_closed (hcomment : IsOpenComment comment) (hline : '\n' ∉ body) (m : Machine)
    (separated : Bool) : m.read? separated (comment ++ ' ' :: '/' :: '/' :: (body ++ ['\n']))
      = (m.separated? separated).bind Machine.finish? := by
  have hfinish : (m.separated? separated).bind (·.read? true [])
      = (m.separated? separated).bind Machine.finish? := by
    simp only [read?_nil]
  rw [← hfinish]
  rcases hcomment with rfl | ⟨comment, rfl, hcomment⟩
  · rw [List.nil_append, read?_blank (by decide), read?_closed hline]
  · have hboth : '\n' ∉ comment ++ ' ' :: '/' :: '/' :: body := by simpa using ⟨hcomment, hline⟩
    have hread := read?_closed hboth m separated []
    simpa using hread

section Comma

variable (hline : '\n' ∉ front ++ ',' :: back) (hback : ',' ∉ back)
  (htakes : (separated || m.phase.accepts .separator) = true)

include hline hback htakes

theorem read?_append_cut (hcomment : IsOpenComment comment) :
    m.read? separated (comment ++ ' ' :: '/' :: '/' :: (front ++ ',' :: back))
      = (m.separated? separated).bind (·.read? true back) := by
  rcases hcomment with rfl | ⟨comment, rfl, hcomment⟩
  · rw [List.nil_append, read?_blank (by decide), read?_cut hline hback, if_pos htakes]
  · have hboth : '\n' ∉ (comment ++ ' ' :: '/' :: '/' :: front) ++ ',' :: back := by
      simpa [not_or] using ⟨hcomment, by simpa using hline⟩
    have hread := read?_cut hboth hback m separated
    rw [if_pos htakes] at hread
    simpa using hread

theorem read?_append_comma (hcomment : IsOpenComment comment) :
    m.read? separated (comment ++ ' ' :: ',' :: back)
      = (m.separated? separated).bind (·.read? true back) := by
  rcases hcomment with rfl | ⟨comment, rfl, hcomment⟩
  · rw [List.nil_append, read?_blank (by decide), read?_mark (by decide)]
  · have hboth : '\n' ∉ (comment ++ [' ']) ++ ',' :: back := by
      simp only [List.mem_append, List.mem_cons, not_or] at hline ⊢
      simpa using ⟨hcomment, hline.2.2⟩
    have hread := read?_cut hboth hback m separated
    rw [if_pos htakes] at hread
    simpa using hread

end Comma

/-- Where a text may end in a comment, a separator may stand. -/
theorem takes_of_read? (hcomment : IsOpenComment comment) (h : m.read? separated comment = some document)
    (hroom : separated = true ∨ m.phase.isSeparated = false) :
    (separated || m.phase.accepts .separator) = true := by
  by_contra htakes
  have hfinish : m.finish? = some document := by
    rcases hcomment with rfl | ⟨body, rfl, hline⟩
    · rwa [read?_nil] at h
    · by_cases hcomma : ',' ∈ body
      · obtain ⟨front, back, rfl, hback⟩ := exists_last_comma hcomma
        rwa [read?_cut hline hback, if_neg htakes] at h
      · rwa [read?_plain hline hcomma] at h
  exact htakes (finish?_separated hfinish hroom).1

/-- If nothing is read behind the last comma of a comment at the end, a separator there leads to what
the text ends in without one. -/
theorem finish?_of_unread (hcomment : IsOpenComment comment)
    (hunread : Unread (afterLastComma comment)) (h : m.read? separated comment = some document)
    (hroom : separated = true ∨ m.phase.isSeparated = false) :
    (m.separated? separated).bind Machine.finish? = some document := by
  have htakes := takes_of_read? hcomment h hroom
  rcases hcomment with rfl | ⟨body, rfl, hline⟩
  · rw [read?_nil] at h
    exact (finish?_separated h hroom).2
  · by_cases hcomma : ',' ∈ body
    · obtain ⟨front, back, rfl, hback⟩ := exists_last_comma hcomma
      rw [← List.cons_append, ← List.cons_append, afterLastComma_append _ hback] at hunread
      simpa only [read?_cut hline hback, if_pos htakes, read?_unread_back hunread hline hback] using h
    · rw [read?_plain hline hcomma] at h
      exact (finish?_separated h hroom).2

end Behind

/-- A separator can go on behind the text: no form feed is behind the last one there, and nothing is read
behind the last comma of a comment at the end. -/
structure EndsClear (cs : List Char) : Prop where
  ending : Ending.clear.afterAll (beforeComment cs) ≠ .stranded
  comment : Unread (afterLastComma (openComment cs))

section Text

variable {m : Machine} {separated : Bool} {cs body front back : List Char} {document : Document}

theorem apart_blank (cs : List Char) : Apart (' ' :: cs) := by
  intro c hc
  obtain rfl := Option.some.inj hc
  exact Or.inl rfl

/-- A comment without a comma changes nothing at the end of any text. -/
theorem read?_append_plain (h : m.read? separated cs = some document) (hline : '\n' ∉ body)
    (hcomma : ',' ∉ body) : m.read? separated (cs ++ ' ' :: '/' :: '/' :: body) = some document := by
  induction hlength : cs.length using Nat.strongRecOn generalizing m separated cs with
  | ind k ih =>
      subst hlength
      obtain ⟨n, after, hreaches⟩ := exists_reaches h
      have hend := hreaches.read_comment h
      rw [hreaches.read _ (apart_blank _)]
      rcases isOpenComment cs with hcomment | ⟨comment, hcomment, hunbroken⟩
      · rw [hcomment, read?_nil] at hend
        rw [hcomment, List.nil_append, read?_blank (by decide), read?_plain hline hcomma, hend]
      · rw [hcomment] at hend ⊢
        by_cases hcut : ',' ∈ comment
        · obtain ⟨front, back, rfl, hback⟩ := exists_last_comma hcut
          have hboth : '\n' ∉ front ++ ',' :: (back ++ ' ' :: '/' :: '/' :: body) := by
            simpa [not_or, and_assoc, hline] using hunbroken
          have hlast : ',' ∉ back ++ ' ' :: '/' :: '/' :: body := by simpa using ⟨hback, hcomma⟩
          have hlength : back.length < cs.length := by
            have hle := (openComment_suffix cs).length_le
            simp only [hcomment, List.length_append, List.length_cons] at hle
            omega
          rw [List.cons_append, List.cons_append, List.append_assoc, List.cons_append,
            read?_cut hboth hlast]
          rw [read?_cut hunbroken hback] at hend
          split at hend
          · rename_i htakes
            obtain ⟨p, hp, hrest⟩ := Option.bind_eq_some_iff.mp hend
            rw [if_pos htakes, hp, Option.bind_some]
            exact ih _ hlength hrest rfl
          · rename_i htakes
            rw [if_neg htakes, hend]
        · have hboth : '\n' ∉ comment ++ ' ' :: '/' :: '/' :: body := by
            simpa using ⟨hunbroken, hline⟩
          have hneither : ',' ∉ comment ++ ' ' :: '/' :: '/' :: body := by simpa using ⟨hcut, hcomma⟩
          rw [read?_plain hunbroken hcut] at hend
          rw [List.cons_append, List.cons_append, read?_plain hboth hneither, hend]

variable (h : Machine.start.read? false cs = some document) (hends : EndsClear cs)

include h hends

/-- A comment that a line feed ends changes nothing behind a text that ends clear. -/
theorem read?_append_line (hline : '\n' ∉ body) :
    Machine.start.read? false (cs ++ ' ' :: '/' :: '/' :: (body ++ ['\n'])) = some document := by
  obtain ⟨n, after, hreaches⟩ := exists_reaches h
  rw [hreaches.read _ (apart_blank _), read?_append_closed (isOpenComment cs) hline]
  exact finish?_of_unread (isOpenComment cs) hends.comment (hreaches.read_comment h)
    (hreaches.room hends.ending)

/-- A comment that nothing ends is read like its last comma and what stands behind that. -/
theorem read?_append_comma_eq (hline : '\n' ∉ front ++ ',' :: back) (hback : ',' ∉ back) :
    Machine.start.read? false (cs ++ ' ' :: '/' :: '/' :: (front ++ ',' :: back))
      = Machine.start.read? false (cs ++ ' ' :: ',' :: back) := by
  obtain ⟨n, after, hreaches⟩ := exists_reaches h
  have htakes := takes_of_read? (isOpenComment cs) (hreaches.read_comment h)
    (hreaches.room hends.ending)
  rw [hreaches.read _ (apart_blank _), hreaches.read _ (apart_blank _),
    read?_append_cut hline hback htakes (isOpenComment cs),
    read?_append_comma hline hback htakes (isOpenComment cs)]

/-- So it changes nothing either if nothing is read there. -/
theorem read?_append_unread (hline : '\n' ∉ front ++ ',' :: back) (hback : ',' ∉ back)
    (hunread : Unread back) :
    Machine.start.read? false (cs ++ ' ' :: '/' :: '/' :: (front ++ ',' :: back)) = some document := by
  obtain ⟨n, after, hreaches⟩ := exists_reaches h
  have htakes := takes_of_read? (isOpenComment cs) (hreaches.read_comment h)
    (hreaches.room hends.ending)
  rw [hreaches.read _ (apart_blank _), read?_append_cut hline hback htakes (isOpenComment cs)]
  simp only [read?_unread_back hunread hline hback]
  exact finish?_of_unread (isOpenComment cs) hends.comment (hreaches.read_comment h)
    (hreaches.room hends.ending)

end Text

end Expr

namespace Language

open ApiProbe.Expr

variable {scope : Scope} {source : Option String} {text : String} {v : Value}

theorem toOption_compile_eq (scope : Scope) (source : Option String) (text : String) :
    (compile scope source text).toOption =
      (Machine.start.read? false text.toList).bind fun document => (document.eval scope).toOption := by
  have hparse : Machine.start.read? false text.toList = (parse text).toOption := rfl
  rw [hparse, compile, Expr.compile]
  cases parse text with
  | error error => rfl
  | ok document =>
      change _ = (document.eval scope).toOption
      dsimp only
      cases document.eval scope with
      | ok v => rfl
      | error failure => cases failure <;> rfl

/-- **A comment behind a text changes nothing**, unless it has a comma and no line feed ends it. In front
of a comment without a comma, every text keeps its value. A text that ends clear keeps it in front of
every comment that a line feed ends. A comment that none ends is read like its last comma and what stands
behind that, so it changes nothing if these are blanks or one more comment, and else the text gets the
value of the two together or none. -/
theorem compile_comment {comment : String} (h : compile scope source text = .ok v)
    (hline : '\n' ∉ comment.toList) :
    (',' ∉ comment.toList → compile scope source (text ++ " //" ++ comment) = .ok v) ∧
      (EndsClear text.toList →
        compile scope source (text ++ " //" ++ comment ++ "\n") = .ok v ∧
          ∀ front back : String, comment = front ++ "," ++ back → ',' ∉ back.toList →
            (compile scope source (text ++ " //" ++ comment)).toOption
                = (compile scope source (text ++ " ," ++ back)).toOption ∧
              (Unread back.toList → compile scope source (text ++ " //" ++ comment) = .ok v)) := by
  have hsame {other : String} {document : Document}
      (hread : Machine.start.read? false text.toList = some document)
      (hother : Machine.start.read? false other.toList = some document) :
      compile scope source other = .ok v := by
    rw [← toOption_eq_some_iff, toOption_compile_eq] at h ⊢
    rwa [hother, ← hread]
  obtain ⟨document, hread, -⟩ : ∃ document, Machine.start.read? false text.toList = some document ∧
      (document.eval scope).toOption = some v := by
    rwa [← toOption_eq_some_iff, toOption_compile_eq, Option.bind_eq_some_iff] at h
  have hslashes : " //".toList = [' ', '/', '/'] := by decide
  have hcomment : (text ++ " //" ++ comment).toList
      = text.toList ++ ' ' :: '/' :: '/' :: comment.toList := by
    simp [String.toList_append, hslashes]
  refine ⟨fun hcomma => hsame hread ?_, fun hends => ⟨hsame hread ?_, ?_⟩⟩
  · rw [hcomment]
    exact read?_append_plain hread hline hcomma
  · have hclosed : (text ++ " //" ++ comment ++ "\n").toList
        = text.toList ++ ' ' :: '/' :: '/' :: (comment.toList ++ ['\n']) := by
      rw [String.toList_append, hcomment]
      simp
    rw [hclosed]
    exact read?_append_line hread hends hline
  · rintro front back rfl hback
    have hparts : (front ++ "," ++ back).toList = front.toList ++ ',' :: back.toList := by
      simp [String.toList_append]
    rw [hparts] at hline hcomment
    refine ⟨?_, fun hunread => hsame hread ?_⟩
    · have hcut : (text ++ " ," ++ back).toList = text.toList ++ ' ' :: ',' :: back.toList := by
        simp [String.toList_append]
      rw [toOption_compile_eq, toOption_compile_eq, hcomment, hcut,
        read?_append_comma_eq hread hends hline hback]
    · rw [hcomment]
      exact read?_append_unread hread hends hline hback hunread

/-- Whether the outcome is a whole number. -/
def isInt (k : Int) : Except Failure Value → Bool
  | .ok (.atom (.int n)) => n == k
  | _ => false

theorem isInt_iff {k : Int} {outcome : Except Failure Value} :
    isInt k outcome = true ↔ outcome = .ok (.atom (.int k)) := by
  constructor
  · intro h
    unfold isInt at h
    split at h
    · rw [eq_of_beq h]
    · cases h
  · rintro rfl
    exact beq_self_eq_true k

/-- A sum between comments, with a form feed in it and a comma at its end. -/
theorem compile_comment_form_feed :
    let text := "// one, two\n\r 1 + \x0c1 // three,"
    let v : Value := .atom (.int 2)
    compile [] none text = .ok v ∧ EndsClear text.toList ∧
      compile [] none (text ++ " //" ++ " four") = .ok v ∧
      compile [] none (text ++ " //" ++ " four, five" ++ "\n") = .ok v ∧
      compile [] none (text ++ " //" ++ " four, // five") = .ok v ∧
      (compile [] none (text ++ " //" ++ " four, five")).toOption = none := by
  intro text v
  have h : compile [] none text = .ok v := isInt_iff.mp (by decide +kernel)
  have hends : EndsClear text.toList := ⟨by decide +kernel, by decide +kernel⟩
  have hplain : compile [] none (text ++ " //" ++ " four") = .ok v :=
    (compile_comment h (by decide)).1 (by decide)
  have hline : compile [] none (text ++ " //" ++ " four, five" ++ "\n") = .ok v :=
    ((compile_comment h (by decide)).2 hends).1
  have hunread : compile [] none (text ++ " //" ++ " four, // five") = .ok v :=
    (((compile_comment h (by decide)).2 hends).2 " four" " // five" rfl (by decide)).2 (by decide)
  have hcut : (compile [] none (text ++ " //" ++ " four, five")).toOption
      = (compile [] none (text ++ " ," ++ " five")).toOption :=
    (((compile_comment h (by decide)).2 hends).2 " four" " five" rfl (by decide)).1
  refine ⟨h, hends, hplain, hline, hunread, hcut.trans ?_⟩
  exact Option.isNone_iff_eq_none.mp (by decide +kernel)

/-- The part of a comment up to its last comma is a separator if no line feed follows, and the rest of
the comment is read. -/
theorem compile_cut_comment :
    let text := "1"
    let comment := " a, b"
    let v : Value := .atom (.int 1)
    '\n' ∉ comment.toList ∧ compile [] none text = .ok v ∧
      compile [] none (text ++ " //" ++ comment) ≠ .ok v := by
  intro text comment v
  refine ⟨by decide, isInt_iff.mp (by decide +kernel), fun h => ?_⟩
  have hnot : isInt 1 (compile [] none (text ++ " //" ++ comment)) = false := by decide +kernel
  rw [isInt_iff.mpr h] at hnot
  cases hnot

end Language

end ApiProbe
