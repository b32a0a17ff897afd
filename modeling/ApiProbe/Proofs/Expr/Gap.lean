import ApiProbe.Proofs.Expr.Token

/-!
# Reading gaps

What the parser makes of a text that starts with a blank, a separator or a comment. A separator goes on
over the blanks, the separators and the closed comments behind it, and all of that is one token; so what
a state makes of a text depends on whether a separator has just been read.
-/

namespace ApiProbe.Expr

/-- What is left of the text behind a separator, which takes blanks and further separators along. -/
def separatorRest (cs : List Char) : List Char :=
  let after := cs.drop (separatorBlanks cs)
  after.drop (separatorLength after)

theorem separatorRest_blank {c : Char} (hc : c ∈ blankChars) (rest : List Char) :
    separatorRest (c :: rest) = separatorRest rest := by
  have hblank : (c == ' ' || c == '\t' || c == '\r') = true := by
    simpa [blankChars, or_assoc] using hc
  have hcount : separatorBlanks (c :: rest) = separatorBlanks rest + 1 := by
    rw [separatorBlanks, separatorBlanks, List.takeWhile_cons, if_pos hblank, List.length_cons]
  rw [separatorRest, hcount, List.drop_succ_cons]
  rfl

theorem separatorRest_cons {c : Char} (hc : c ∉ blankChars) (rest : List Char) :
    separatorRest (c :: rest) = (c :: rest).drop (separatorLength (c :: rest)) := by
  have hblank : ¬ (c == ' ' || c == '\t' || c == '\r') = true := by
    simpa [blankChars, or_assoc] using hc
  have hcount : separatorBlanks (c :: rest) = 0 := by
    rw [separatorBlanks, List.takeWhile_cons, if_neg hblank, List.length_nil]
  rw [separatorRest, hcount, List.drop_zero]

theorem drop_separatorLength_of_none {cs : List Char} (h : separatorUnit? cs = none) :
    cs.drop (separatorLength cs) = cs := by
  have hlength : separatorLength cs = 0 := by
    cases cs with
    | nil => rw [separatorLength]
    | cons c rest => rw [separatorLength, h]
  rw [hlength, List.drop_zero]

/-- A separator is one unit with its blanks and what it goes on with behind those. -/
theorem drop_separatorLength {unit after : List Char} (hne : unit ≠ [])
    (h : separatorUnit? (unit ++ after) = some (unit.length + separatorBlanks after)) :
    0 < separatorLength (unit ++ after) ∧
      (unit ++ after).drop (separatorLength (unit ++ after)) = separatorRest after := by
  obtain ⟨c, unit, rfl⟩ := List.exists_cons_of_ne_nil hne
  have hlength : separatorLength (c :: unit ++ after) = (c :: unit).length
      + (separatorBlanks after + separatorLength (after.drop (separatorBlanks after))) := by
    have hmore : (c :: unit).length + separatorBlanks after - 1
        = unit.length + separatorBlanks after := by
      rw [List.length_cons]
      omega
    rw [List.cons_append] at h ⊢
    rw [separatorLength, h]
    dsimp only
    rw [hmore, List.drop_length_add_append, Nat.add_assoc]
  rw [hlength, List.drop_length_add_append, ← List.drop_drop]
  exact ⟨Nat.lt_add_right _ (Nat.succ_pos _), rfl⟩

section Unit

variable {body front back : List Char}

theorem bne_of_notMem {d : Char} {cs : List Char} (h : d ∉ cs) : ∀ c ∈ cs, (c != d) = true := by
  intro c hc
  rw [bne_iff_ne]
  rintro rfl
  exact h hc

theorem takeWhile_line (h : '\n' ∉ body) (after : List Char) :
    (body ++ '\n' :: after).takeWhile (· != '\n') = body := by
  refine Text.takeWhile_append_of_stop (bne_of_notMem h) fun c hc => ?_
  obtain rfl := Option.some.inj hc
  rfl

theorem takeWhile_last (h : '\n' ∉ body) : body.takeWhile (· != '\n') = body :=
  List.takeWhile_eq_self_iff.mpr (bne_of_notMem h)

theorem dropWhile_last (h : '\n' ∉ body) : body.dropWhile (· != '\n') = [] :=
  List.dropWhile_eq_nil_iff.mpr (bne_of_notMem h)

theorem throughLastComma_append (front : List Char) (h : ',' ∉ back) :
    throughLastComma (front ++ ',' :: back) = front.length + 1 := by
  have hback : (front ++ ',' :: back).reverse.takeWhile (· != ',') = back.reverse := by
    rw [List.reverse_append, List.reverse_cons, List.append_assoc]
    refine Text.takeWhile_append_of_stop (bne_of_notMem (mt List.mem_reverse.mp h)) fun c hc => ?_
    obtain rfl := Option.some.inj hc
    rfl
  rw [throughLastComma, hback, List.length_reverse, List.length_append, List.length_cons]
  omega

theorem throughLastComma_eq_zero (h : ',' ∉ body) : throughLastComma body = 0 := by
  have hall : body.reverse.takeWhile (· != ',') = body.reverse :=
    List.takeWhile_eq_self_iff.mpr (bne_of_notMem (mt List.mem_reverse.mp h))
  rw [throughLastComma, hall, List.length_reverse, Nat.sub_self]

theorem separatorUnit?_mark {c : Char} (hc : c ∈ [',', '\n']) (rest : List Char) :
    separatorUnit? ([c] ++ rest) = some ([c].length + separatorBlanks rest) := by
  rcases List.mem_pair.mp hc with rfl | rfl <;> rfl

theorem separatorUnit?_closed (h : '\n' ∉ body) (after : List Char) :
    separatorUnit? ('/' :: '/' :: (body ++ ['\n']) ++ after)
      = some (('/' :: '/' :: (body ++ ['\n'])).length + separatorBlanks after) := by
  rw [List.cons_append, List.cons_append, List.append_assoc, List.singleton_append, separatorUnit?,
    takeWhile_line h]
  dsimp only
  rw [List.drop_left]
  simp only [List.length_cons, List.length_append, List.length_nil]
  congr 1
  omega

theorem separatorUnit?_cut (hline : '\n' ∉ front ++ ',' :: back) (hback : ',' ∉ back) :
    separatorUnit? ('/' :: '/' :: (front ++ [',']) ++ back)
      = some (('/' :: '/' :: (front ++ [','])).length + separatorBlanks back) := by
  rw [List.cons_append, List.cons_append, List.append_assoc, List.singleton_append, separatorUnit?,
    takeWhile_last hline]
  dsimp only
  rw [List.drop_length]
  dsimp only
  rw [throughLastComma_append front hback, if_neg (Nat.succ_ne_zero _),
    ← List.singleton_append, ← List.append_assoc, List.drop_left' (by simp)]
  simp only [List.length_cons, List.length_append, List.length_nil]
  congr 1
  omega

theorem separatorUnit?_plain (hline : '\n' ∉ body) (hcomma : ',' ∉ body) :
    separatorUnit? ('/' :: '/' :: body) = none := by
  rw [separatorUnit?, takeWhile_last hline]
  dsimp only
  rw [List.drop_length]
  dsimp only
  rw [throughLastComma_eq_zero hcomma, if_pos rfl]

end Unit

/-- Where a token stands does not matter to the parser. -/
theorem feed?_position (m : Machine) (t : Terminal) (text : String) (p q : Position) :
    m.feed? ⟨t, text, p⟩ = m.feed? ⟨t, text, q⟩ := by
  obtain ⟨phase, frames⟩ := m
  cases phase <;> rfl

theorem toOption_run (m : Machine) (last position : Position) (cs : List Char) :
    (m.run last position cs).toOption = (m.run .start .start cs).toOption := by
  induction hlength : cs.length using Nat.strongRecOn generalizing m last position cs with
  | ind n ih =>
      subst hlength
      cases cs with
      | nil =>
          rw [Machine.run, Machine.run]
          cases m.finish? <;> rfl
      | cons c rest =>
          have hshorter : ∀ more, (rest.drop more).length < (c :: rest).length := by
            intro more
            rw [List.length_drop, List.length_cons]
            omega
          rw [Machine.run, Machine.run]
          cases lexeme? m.phase.accepts c rest with
          | none =>
              dsimp only
              cases firstToken? c rest (Terminal.early ++ Terminal.late) with
              | none => rfl
              | some lexeme => cases lexeme <;> rfl
          | some lexeme =>
              cases lexeme with
              | skipped more =>
                  dsimp only
                  exact (ih _ (hshorter more) m last _ _ rfl).trans
                    (ih _ (hshorter more) m .start _ _ rfl).symm
              | token terminal more =>
                  dsimp only
                  rw [feed?_position m terminal _ position .start]
                  cases m.feed? ⟨terminal, String.ofList (c :: rest.take more), .start⟩ with
                  | none => rfl
                  | some next =>
                      dsimp only
                      exact (ih _ (hshorter more) next position _ _ rfl).trans
                        (ih _ (hshorter more) next .start _ _ rfl).symm

/-- The document that a state makes of the rest of a text. If a separator has just been read, what it
goes on with belongs to it. -/
def Machine.read? (m : Machine) (separated : Bool) (cs : List Char) : Option Document :=
  (m.run .start .start (if separated then separatorRest cs else cs)).toOption

/-- The state behind a separator, if one can stand here. Behind another one it makes no difference. -/
def Machine.separated? (m : Machine) (separated : Bool) : Option Machine :=
  if separated then some m
  else if m.phase.accepts .separator then m.feed? ⟨.separator, "", .start⟩
  else none

section Read

variable {m n : Machine} {separated : Bool} {c : Char} {rest : List Char}

theorem read?_nil (m : Machine) (separated : Bool) : m.read? separated [] = m.finish? := by
  have hrest : (if separated then separatorRest [] else []) = [] := by
    cases separated <;> simp [separatorRest]
  rw [Machine.read?, hrest, Machine.run]
  cases m.finish? <;> rfl

theorem read?_skipped {more : Nat} (h : lexeme? m.phase.accepts c rest = some (.skipped more)) :
    m.read? false (c :: rest) = m.read? false (rest.drop more) := by
  simp only [Machine.read?, Bool.false_eq_true, if_false]
  rw [Machine.run, h]
  exact toOption_run ..

theorem read?_token {t : Terminal} {more : Nat}
    (h : lexeme? m.phase.accepts c rest = some (.token t more)) :
    m.read? false (c :: rest) =
      (m.feed? ⟨t, String.ofList (c :: rest.take more), .start⟩).bind fun n =>
        n.read? false (rest.drop more) := by
  simp only [Machine.read?, Bool.false_eq_true, if_false]
  rw [Machine.run, h]
  dsimp only
  cases m.feed? ⟨t, String.ofList (c :: rest.take more), .start⟩ with
  | none => rfl
  | some n => exact toOption_run ..

theorem read?_none (h : lexeme? m.phase.accepts c rest = none) :
    m.read? false (c :: rest) = none := by
  simp only [Machine.read?, Bool.false_eq_true, if_false]
  rw [Machine.run, h]
  dsimp only
  cases firstToken? c rest (Terminal.early ++ Terminal.late) with
  | none => rfl
  | some lexeme => cases lexeme <;> rfl

end Read

/-! ### Steps over gaps

The same gap is skipped in one state and is a separator in another, so every step over a gap depends on whether
the state takes a separator, or has just read one that goes on. -/

section Lexeme

variable {accepted : Terminal → Bool} {c : Char} {rest : List Char} {n : Nat}

theorem lexeme?_separator (hc : c ∈ [',', '\n', '/']) (haccepted : accepted .separator = true)
    (h : separatorMore? c rest = some n) : lexeme? accepted c rest = some (.token .separator n) := by
  have hfirst : ∀ c ∈ [',', '\n', '/'], ∀ u ∈ [Terminal.float, .test, .name], u.startsWith c = false :=
    List.all_iff_forall_prop.mp (by decide)
  have hfront : ∀ u ∈ [Terminal.float, .test, .name], u.more? c rest = none :=
    fun u hu => Terminal.more?_eq_none (hfirst c hc u hu)
  have hearly : Terminal.early = [.float, .test, .name] ++ .separator :: [.string] := rfl
  rw [lexeme?, hearly, firstToken?_eq_some (t := .separator) hfront h haccepted]
  rfl

theorem lexeme?_comment {body : List Char}
    (h : accepted .separator = false ∨ separatorMore? '/' ('/' :: body) = none) :
    lexeme? accepted '/' ('/' :: body)
      = some (.skipped (1 + (body.takeWhile (· != '\n')).length)) := by
  have hother : ∀ u ∈ Terminal.early, u ≠ .separator → u.startsWith '/' = false := by decide
  have hfirst : firstToken? '/' ('/' :: body) (Terminal.early.filter accepted) = none := by
    refine firstToken?_eq_none fun u hu => ?_
    obtain ⟨hu, haccepted⟩ := List.mem_filter.mp hu
    by_cases hseparator : u = .separator
    · subst hseparator
      exact h.resolve_left (Bool.not_eq_false _ |>.mpr haccepted)
    · exact Terminal.more?_eq_none (hother u hu hseparator)
  rw [lexeme?, hfirst, commentMore?]
  rfl

theorem lexeme?_mark (hc : c ∈ [',', '\n']) (h : accepted .separator = false) (rest : List Char) :
    lexeme? accepted c rest = none := by
  have hfirst : ∀ c ∈ [',', '\n'], c ≠ '/' ∧ isSkipped c = false ∧
      ∀ u ∈ Terminal.early ++ Terminal.late, u ≠ .separator → u.startsWith c = false :=
    List.all_iff_forall_prop.mp (by decide)
  obtain ⟨hslash, hskipped, hother⟩ := hfirst c hc
  have hnone {terminals : List Terminal} (hmem : ∀ u ∈ terminals, u ∈ Terminal.early ++ Terminal.late) :
      firstToken? c rest (terminals.filter accepted) = none := by
    refine firstToken?_eq_none fun u hu => ?_
    obtain ⟨hu, haccepted⟩ := List.mem_filter.mp hu
    refine Terminal.more?_eq_none (hother u (hmem u hu) ?_)
    rintro rfl
    rw [h] at haccepted
    cases haccepted
  rw [lexeme?, hnone fun u hu => List.mem_append_left _ hu, commentMore?_eq_none hslash, blankMore?,
    if_neg (by simp [hskipped]), hnone fun u hu => List.mem_append_right _ hu]
  rfl

end Lexeme

section Gap

variable {m : Machine} {c : Char} {body front back : List Char}

theorem read?_skip (hc : isSkipped c = true) (m : Machine) (rest : List Char) :
    m.read? false (c :: rest) = m.read? false rest := by
  rw [read?_skipped (lexeme?_skipped hc _ rest)]
  cases rest with
  | nil => rfl
  | cons d ds =>
      by_cases hd : isSkipped d = true
      · rw [List.takeWhile_cons, if_pos hd, List.length_cons, List.drop_succ_cons,
          read?_skipped (lexeme?_skipped hd _ ds)]
      · rw [List.takeWhile_cons, if_neg hd]
        rfl

theorem read?_blank (hc : c ∈ blankChars) (m : Machine) (separated : Bool) (rest : List Char) :
    m.read? separated (c :: rest) = m.read? separated rest := by
  cases separated with
  | false =>
      have hskipped : ∀ c ∈ blankChars, isSkipped c = true :=
        List.all_iff_forall_prop.mp (by decide)
      exact read?_skip (hskipped c hc) m rest
  | true => rw [Machine.read?, Machine.read?, if_pos rfl, if_pos rfl, separatorRest_blank hc]

/-- A separator ends where no further one starts. -/
theorem read?_true_of_none {rest : List Char} (hc : c ∉ blankChars)
    (h : separatorUnit? (c :: rest) = none) (m : Machine) :
    m.read? true (c :: rest) = m.read? false (c :: rest) := by
  have hrest : separatorRest (c :: rest) = c :: rest := by
    rw [separatorRest_cons hc, drop_separatorLength_of_none h]
  rw [Machine.read?, if_pos rfl, hrest]
  rfl

theorem read?_formFeed (m : Machine) (separated : Bool) (rest : List Char) :
    m.read? separated ('\x0c' :: rest) = m.read? false rest := by
  cases separated with
  | false => exact read?_skip rfl m rest
  | true => rw [read?_true_of_none (by decide) rfl, read?_skip rfl]

theorem read?_atToken {rest : List Char} (h : AtToken c rest) (m : Machine) (separated : Bool) :
    m.read? separated (c :: rest) = m.read? false (c :: rest) := by
  cases separated with
  | false => rfl
  | true =>
      refine read?_true_of_none (fun hc => h.notGap ?_) h.separatorUnit?_eq_none m
      exact List.mem_append_left ['\x0c', ',', '\n'] hc

theorem read?_unit {unit after : List Char} (hhead : ∃ c ∈ [',', '\n', '/'], unit.head? = some c)
    (hunit : separatorUnit? (unit ++ after) = some (unit.length + separatorBlanks after))
    (m : Machine) {separated : Bool} (h : separated = true ∨ m.phase.accepts .separator = true) :
    m.read? separated (unit ++ after) = (m.separated? separated).bind (·.read? true after) := by
  have hblank : ∀ c ∈ [',', '\n', '/'], c ∉ blankChars :=
    List.all_iff_forall_prop.mp (by decide)
  obtain ⟨c, hc, hcs⟩ := hhead
  obtain ⟨unit, rfl⟩ := List.head?_eq_some_iff.mp hcs
  obtain ⟨hpos, hrest⟩ := drop_separatorLength (List.cons_ne_nil c unit) hunit
  cases separated with
  | true =>
      rw [Machine.separated?, if_pos rfl, Option.bind_some, Machine.read?, if_pos rfl,
        List.cons_append, separatorRest_cons (hblank c hc), ← List.cons_append, hrest]
      rfl
  | false =>
      have haccepts := h.resolve_left Bool.false_ne_true
      obtain ⟨k, hk⟩ := Nat.exists_eq_add_one_of_ne_zero (Nat.ne_of_gt hpos)
      have hmore : separatorMore? c (unit ++ after) = some k := by
        rw [List.cons_append] at hk
        rw [separatorMore?, hk]
      rw [hk, List.cons_append, List.drop_succ_cons] at hrest
      rw [List.cons_append, read?_token (lexeme?_separator hc haccepts hmore), hrest,
        Machine.separated?, if_neg Bool.false_ne_true, if_pos haccepts]
      rfl

theorem read?_mark (hc : c ∈ [',', '\n']) (m : Machine) (separated : Bool) (rest : List Char) :
    m.read? separated (c :: rest) = (m.separated? separated).bind (·.read? true rest) := by
  by_cases h : separated = true ∨ m.phase.accepts .separator = true
  · exact read?_unit ⟨c, List.mem_append_left ['/'] hc, rfl⟩ (separatorUnit?_mark hc rest) m h
  · rw [not_or, Bool.not_eq_true, Bool.not_eq_true] at h
    obtain ⟨rfl, haccepts⟩ := h
    rw [read?_none (lexeme?_mark hc haccepts rest), Machine.separated?, if_neg Bool.false_ne_true,
      haccepts]
    rfl

/-- Where no separator is looked for, a comment is passed over. -/
theorem read?_comment {m : Machine}
    (h : m.phase.accepts .separator = false ∨ separatorMore? '/' ('/' :: body) = none) :
    m.read? false ('/' :: '/' :: body) = m.read? false (body.dropWhile (· != '\n')) := by
  rw [read?_skipped (lexeme?_comment h), Nat.add_comm, List.drop_succ_cons, drop_takeWhile]

/-- A comment that a line feed ends stands in front of that line feed. -/
theorem read?_closed (h : '\n' ∉ body) (m : Machine) (separated : Bool) (after : List Char) :
    m.read? separated ('/' :: '/' :: (body ++ '\n' :: after))
      = (m.separated? separated).bind (·.read? true after) := by
  by_cases haccepts : separated = true ∨ m.phase.accepts .separator = true
  · have hunit := read?_unit ⟨'/', by decide, rfl⟩ (separatorUnit?_closed h after) m haccepts
    simpa using hunit
  · rw [not_or, Bool.not_eq_true, Bool.not_eq_true] at haccepts
    obtain ⟨rfl, haccepts⟩ := haccepts
    have hline : (body ++ '\n' :: after).dropWhile (· != '\n') = '\n' :: after := by
      rw [List.dropWhile_append, dropWhile_last h]
      rfl
    rw [read?_comment (Or.inl haccepts), hline, read?_mark (by decide)]

/-- Where a separator is looked for, a comment that nothing ends is one up to its last comma. -/
theorem read?_cut (hline : '\n' ∉ front ++ ',' :: back) (hback : ',' ∉ back) (m : Machine)
    (separated : Bool) : m.read? separated ('/' :: '/' :: (front ++ ',' :: back))
      = if separated || m.phase.accepts .separator then
          (m.separated? separated).bind (·.read? true back)
        else m.finish? := by
  by_cases haccepts : separated = true ∨ m.phase.accepts .separator = true
  · have hunit := read?_unit ⟨'/', by decide, rfl⟩ (separatorUnit?_cut hline hback) m haccepts
    rw [if_pos (by simpa using haccepts)]
    simpa using hunit
  · rw [if_neg (by simpa using haccepts)]
    rw [not_or, Bool.not_eq_true, Bool.not_eq_true] at haccepts
    obtain ⟨rfl, haccepts⟩ := haccepts
    rw [read?_comment (Or.inl haccepts), dropWhile_last hline, read?_nil]

/-- A comment without a comma that nothing ends is passed over. -/
theorem read?_plain (hline : '\n' ∉ body) (hcomma : ',' ∉ body) (m : Machine) (separated : Bool) :
    m.read? separated ('/' :: '/' :: body) = m.finish? := by
  have hunit := separatorUnit?_plain hline hcomma
  have hmore : separatorMore? '/' ('/' :: body) = none := by
    rw [separatorMore?, separatorLength, hunit]
  have hread : m.read? false ('/' :: '/' :: body) = m.finish? := by
    rw [read?_comment (Or.inr hmore), dropWhile_last hline, read?_nil]
  cases separated with
  | false => exact hread
  | true => exact (read?_true_of_none (by decide) hunit m).trans hread

end Gap

end ApiProbe.Expr
