import Mathlib.Algebra.BigOperators.Group.Finset.Basic
import ApiProbe.Proofs.Script.Heredocs
import ApiProbe.Proofs.Script.Lines

/-!
# Layout

The blanks around a line mean nothing, not even in a heredoc. Outside of heredocs blank lines and comments
mean nothing either: they move the lines below them and change nothing else.
-/

namespace ApiProbe

open scoped BigOperators

def LocatedCommand.renumber (move : Nat → Nat) (c : LocatedCommand) : LocatedCommand :=
  { c with line := move c.line }

def Section.renumber (move : Nat → Nat) (sec : Section) : Section :=
  { sec with
    startLine := move sec.startLine
    commands := sec.commands.map (·.renumber move) }

def Script.renumber (move : Nat → Nat) (script : Script) : Script :=
  { script with sections := script.sections.map (·.renumber move) }

def Problem.renumber (move : Nat → Nat) (p : Problem) : Problem :=
  { p with line := p.line.map fun line => (move line.toNat : Int) }

def Failure.renumber (move : Nat → Nat) : Failure → Failure
  | .problem p => .problem (p.renumber move)
  | failure => failure

section Renumber

variable {move : Nat → Nat}

theorem Section.worthKeeping_renumber (sec : Section) :
    (sec.renumber move).worthKeeping = sec.worthKeeping := by
  unfold worthKeeping renumber
  rw [List.isEmpty_map]

theorem Section.kept_renumber (current : Option Section) :
    kept (current.map (·.renumber move)) = (kept current).map (·.renumber move) := by
  cases current with
  | none => rfl
  | some sec =>
      rw [Option.map_some, kept, kept, worthKeeping_renumber]
      split <;> rfl

theorem Section.renumber_addCommand (sec : Section) (c : LocatedCommand) :
    (sec.addCommand c).renumber move = (sec.renumber move).addCommand (c.renumber move) := by
  unfold addCommand renumber
  rw [List.map_append, List.map_singleton]

theorem Problem.renumber_eq {p : Problem} {line : Nat} (h : p.line = some (line : Int)) :
    p.renumber move = { p with line := some (move line : Int) } := by
  unfold renumber
  rw [h]
  rfl

/-- What is reported of a command moves with it. -/
theorem Failure.Reportable.renumber {failure : Failure} (h : failure.Reportable)
    (source keyword : String) (line : Nat) :
    Script.reportParse source keyword (move line) failure
      = (Script.reportParse source keyword line failure).renumber move := by
  cases h with
  | problem hkind hsource hline =>
      rw [Script.reportParse, Script.reportParse, if_pos hkind, if_pos hkind]
      unfold Failure.renumber Problem.renumber Problem.locate
      rw [hline]
      rfl
  | fault h =>
      rw [Script.reportParse, Script.reportParse, if_pos h, if_pos h]
      rfl

end Renumber

namespace Script

section Line

variable {registry : Registry} {source raw name keyword remainder : String} {number : Nat}
  {current : Option Section} {lines : List Line} {parser : Parser}

theorem readSections_error (error : Utf8.DecodeError) :
    readSections registry source number current (.error error :: lines)
      = .error (notUtf8 error) := by
  rw [readSections]

theorem readSections_nothing (hentry : Entry.ofLine raw = .nothing) :
    readSections registry source number current (.ok raw :: lines)
      = readSections registry source (number + 1) current lines := by
  rw [readSections, hentry]

theorem readSections_header (hentry : Entry.ofLine raw = .header name) :
    readSections registry source number current (.ok raw :: lines)
      = (readSections registry source (number + 1) (some ⟨name, number, []⟩) lines).map
          (Section.kept current ++ ·) := by
  rw [readSections, hentry]

theorem readSections_unknown (hentry : Entry.ofLine raw = .command keyword remainder)
    (hunknown : registry.get? keyword = none) :
    readSections registry source number current (.ok raw :: lines)
      = .error (.problem (.unknownCommand keyword (some source) number)) := by
  rw [readSections, hentry]
  dsimp only
  rw [hunknown]

theorem readSections_rejected (hentry : Entry.ofLine raw = .command keyword remainder)
    (hparser : registry.get? keyword = some parser) {cause : Failure}
    (hcause : parser remainder lines = .error cause) :
    readSections registry source number current (.ok raw :: lines)
      = .error (reportParse source keyword number cause) := by
  rw [readSections, hentry]
  dsimp only
  rw [hparser]
  dsimp only
  rw [hcause]

theorem readSections_accepted (hentry : Entry.ofLine raw = .command keyword remainder)
    (hparser : registry.get? keyword = some parser) {taken : Taken Command}
    (htaken : parser remainder lines = .ok taken) :
    readSections registry source number current (.ok raw :: lines)
      = readSections registry source (number + 1 + taken.count)
          (some ((current.getD ⟨"", number, []⟩).addCommand ⟨taken.result, source, number⟩))
          (lines.drop taken.count) := by
  rw [readSections, hentry]
  dsimp only
  rw [hparser]
  dsimp only
  rw [htaken]

end Line

/-- The line without the blanks around it. -/
def trimLine (line : Line) : Line :=
  line.map Text.trim

theorem trimLine_ok (raw : String) : trimLine (.ok raw) = .ok (Text.trim raw) := rfl

theorem map_trimLine_linesOfText (text : String) :
    (linesOfText text).map trimLine = ((splitLines text).map Text.trim).map .ok := by
  rw [linesOfText, List.map_map, List.map_map]
  rfl

theorem ofLine_trim (raw : String) : Entry.ofLine (Text.trim raw) = Entry.ofLine raw := by
  unfold Entry.ofLine
  rw [Text.toList_trim, Text.trimChars_trimChars]

theorem takeUntil_trimLine (terminator : String) (lines : List Line) :
    takeUntil terminator (lines.map trimLine) = takeUntil terminator lines := by
  induction lines with
  | nil => rfl
  | cons line lines ih =>
      cases line with
      | error error => rfl
      | ok raw => rw [List.map_cons, trimLine_ok, takeUntil, takeUntil, ih, Text.trim_trim]

/-- A heredoc is read line by line up to the terminator, whatever stands below. -/
theorem takeUntil_of_trimLine {terminator : String} {body : List String} (hbody : terminator ∉ body)
    {lines : List Line} (hlines : lines.map trimLine = (body ++ [terminator]).map .ok)
    (others : List Line) :
    takeUntil terminator (lines ++ others) = .ok ⟨body, lines.length⟩ := by
  induction body generalizing lines with
  | nil =>
      obtain ⟨line, rfl, hline⟩ := List.map_eq_singleton_iff.mp hlines
      obtain ⟨raw, rfl, hraw⟩ := map_eq_ok_iff.mp hline
      rw [List.singleton_append, takeUntil]
      exact if_pos (beq_iff_eq.mpr hraw)
  | cons first body ih =>
      rw [List.mem_cons, not_or] at hbody
      obtain ⟨line, later, rfl, hline, hlater⟩ := List.map_eq_cons_iff.mp hlines
      obtain ⟨raw, rfl, rfl⟩ := map_eq_ok_iff.mp hline
      rw [List.cons_append, takeUntil, ih hbody.2 hlater]
      exact if_neg (mt beq_iff_eq.mp (Ne.symm hbody.1))

theorem parser_trimLine {parser : Parser}
    (hparser : parser ∈ [Parser.value, Parser.expect, Parser.http]) (remainder : String)
    (lines : List Line) : parser remainder (lines.map trimLine) = parser remainder lines :=
  Parser.congr_lines hparser fun terminator _ => takeUntil_trimLine terminator lines

theorem readSections_trimLine {registry : Registry} (hplain : registry.Plain) {source : String}
    (number : Nat) (current : Option Section) (lines : List Line) :
    readSections registry source number current (lines.map trimLine)
      = readSections registry source number current lines := by
  induction number, current, lines using readSections.induct registry source with
  | case1 number current => rfl
  | case2 number current error lines =>
      rw [readSections_error]
      exact readSections_error error
  | case3 number current raw lines hentry ih =>
      rw [List.map_cons, trimLine_ok, readSections_nothing hentry]
      rw [← ofLine_trim] at hentry
      rw [readSections_nothing hentry]
      exact ih
  | case4 number current raw lines name hentry ih =>
      rw [List.map_cons, trimLine_ok, readSections_header hentry]
      rw [← ofLine_trim] at hentry
      rw [readSections_header hentry, ih]
  | case5 number current raw lines keyword remainder hentry hunknown =>
      rw [List.map_cons, trimLine_ok, readSections_unknown hentry hunknown]
      rw [← ofLine_trim] at hentry
      rw [readSections_unknown hentry hunknown]
  | case6 number current raw lines keyword remainder hentry parser hparser cause hcause =>
      rw [List.map_cons, trimLine_ok, readSections_rejected hentry hparser hcause]
      rw [← ofLine_trim] at hentry
      rw [← parser_trimLine (hplain keyword parser hparser)] at hcause
      rw [readSections_rejected hentry hparser hcause]
  | case7 number current raw lines keyword remainder hentry parser hparser taken htaken sec =>
      rename_i ih
      rw [List.map_cons, trimLine_ok, readSections_accepted hentry hparser htaken]
      rw [← ofLine_trim] at hentry
      rw [← parser_trimLine (hplain keyword parser hparser)] at htaken
      rw [readSections_accepted hentry hparser htaken, ← List.map_drop]
      exact ih

/-- The blanks around the lines of a script mean nothing. -/
theorem read_trimLine {registry : Registry} (hplain : registry.Plain) (source : String)
    (lines : List Line) :
    read registry source (lines.map trimLine) = read registry source lines := by
  rw [read, read, readSections_trimLine hplain]

/-! ### Lines that are put in

Lines are put in by their place: a function gives those in front of each line. What is read of the text is
then what is read of the original, with every line number moved by how many lines are put in above it. -/

/-- The lines from a place on, each behind those that are put in there; the rest is put in at the end. -/
def insertFrom {α : Type} (inserted : Nat → List α) (i : Nat) : List α → List α
  | [] => inserted i
  | line :: lines => inserted i ++ line :: insertFrom inserted (i + 1) lines

/-- The number of a line when those that are put in above it are counted too. -/
def moved {α : Type} (inserted : Nat → List α) (number : Nat) : Nat :=
  number + ∑ i ∈ Finset.range number, (inserted i).length

theorem moved_succ {α : Type} (inserted : Nat → List α) (number : Nat) :
    moved inserted (number + 1) = moved inserted number + 1 + (inserted number).length := by
  unfold moved
  rw [Finset.sum_range_succ]
  omega

theorem map_insertFrom {α β : Type} (f : α → β) (inserted : Nat → List α) (i : Nat)
    (lines : List α) :
    (insertFrom inserted i lines).map f = insertFrom (fun i => (inserted i).map f) i (lines.map f) := by
  induction lines generalizing i with
  | nil => rfl
  | cons line lines ih =>
      rw [insertFrom, List.map_append, List.map_cons, ih]
      rfl

theorem insertFrom_nil {α : Type} (i : Nat) (lines : List α) :
    insertFrom (fun _ => []) i lines = lines := by
  induction lines generalizing i with
  | nil => rfl
  | cons line lines ih => exact congrArg (line :: ·) (ih (i + 1))

section Insert

variable {inserted : Nat → List Line} {lines : List Line} {terminator : String} {i : Nat}

/-- Nothing is put in up to the first line that closes. -/
def Spares (inserted : Nat → List Line) (terminator : String) (i : Nat) (lines : List Line) : Prop :=
  ∀ m, inserted (i + m) ≠ [] → ∃ n < m, ClosesAt lines n terminator

theorem Spares.head (h : Spares inserted terminator i lines) : inserted i = [] := by
  by_contra hne
  obtain ⟨n, hn, -⟩ := h 0 hne
  exact absurd hn n.not_lt_zero

theorem Spares.tail {line : Line} (h : Spares inserted terminator i (line :: lines))
    (hline : ¬ Closes terminator line) : Spares inserted terminator (i + 1) lines := by
  intro m hm
  rw [Nat.add_right_comm, Nat.add_assoc] at hm
  obtain ⟨n, hn, closing, hclosing, hcloses⟩ := h (m + 1) hm
  cases n with
  | zero =>
      obtain rfl := Option.some.inj hclosing
      exact absurd hcloses hline
  | succ n => exact ⟨n, Nat.lt_of_succ_lt_succ hn, closing, hclosing, hcloses⟩

theorem takeUntil_insertFrom (h : Spares inserted terminator i lines) :
    takeUntil terminator (insertFrom inserted i lines) = takeUntil terminator lines := by
  induction lines generalizing i with
  | nil => rw [insertFrom, h.head]
  | cons line lines ih =>
      rw [insertFrom, h.head, List.nil_append]
      cases line with
      | error error => rfl
      | ok raw =>
          rw [takeUntil, takeUntil]
          split
          · rfl
          · rename_i hother
            rw [ih (h.tail (mt closes_ok.mp hother))]

/-- What is left behind a heredoc is what was left of it, with what is put in there. -/
theorem drop_insertFrom (h : Spares inserted terminator i lines) {taken : Taken (List String)}
    (htaken : takeUntil terminator lines = .ok taken) :
    (insertFrom inserted i lines).drop taken.count
        = insertFrom inserted (i + taken.count) (lines.drop taken.count) ∧
      ∀ m < taken.count, inserted (i + m) = [] := by
  induction lines generalizing i taken with
  | nil =>
      obtain rfl := Except.ok.inj htaken
      exact ⟨rfl, nofun⟩
  | cons line lines ih =>
      cases line with
      | error error => cases htaken
      | ok raw =>
          rw [insertFrom, h.head, List.nil_append]
          rw [takeUntil] at htaken
          split at htaken
          · obtain rfl := Except.ok.inj htaken
            refine ⟨rfl, fun m hm => ?_⟩
            obtain rfl : m = 0 := Nat.lt_one_iff.mp hm
            exact h.head
          · rename_i hother
            obtain ⟨rest, hrest, rfl⟩ := map_eq_ok_iff.mp htaken
            obtain ⟨hdrop, hnone⟩ := ih (h.tail (mt closes_ok.mp hother)) hrest
            dsimp only
            rw [List.drop_succ_cons, List.drop_succ_cons, hdrop, Nat.add_right_comm, Nat.add_assoc]
            refine ⟨rfl, fun m hm => ?_⟩
            cases m with
            | zero => exact h.head
            | succ m =>
                have hm := hnone m (Nat.lt_of_succ_lt_succ hm)
                rwa [Nat.add_right_comm, Nat.add_assoc] at hm

theorem parser_insertFrom {parser : Parser}
    (hparser : parser ∈ [Parser.value, Parser.expect, Parser.http]) {remainder : String}
    (h : ∀ terminator, parser.Opens remainder terminator → Spares inserted terminator i lines) :
    parser remainder (insertFrom inserted i lines) = parser remainder lines :=
  Parser.congr_lines hparser fun terminator hopens => takeUntil_insertFrom (h terminator hopens)

theorem parser_drop_insertFrom {parser : Parser}
    (hparser : parser ∈ [Parser.value, Parser.expect, Parser.http]) {remainder : String}
    (h : ∀ terminator, parser.Opens remainder terminator → Spares inserted terminator i lines)
    {taken : Taken Command} (htaken : parser remainder lines = .ok taken) :
    (insertFrom inserted i lines).drop taken.count
        = insertFrom inserted (i + taken.count) (lines.drop taken.count) ∧
      ∀ m < taken.count, inserted (i + m) = [] := by
  rcases Parser.taken_cases hparser htaken with ⟨hcount, -⟩ | ⟨terminator, body, hopens, hbody⟩
  · rw [hcount]
    exact ⟨rfl, nofun⟩
  · exact drop_insertFrom (h terminator hopens) hbody

end Insert

/-- The line is blank or a comment. -/
def SilentLine (line : Line) : Prop :=
  ∃ raw, line = .ok raw ∧ IsSilent raw

theorem readSections_silent {registry : Registry} {source : String} {block : List Line}
    (h : ∀ line ∈ block, SilentLine line) (number : Nat) (current : Option Section)
    (lines : List Line) :
    readSections registry source number current (block ++ lines)
      = readSections registry source (number + block.length) current lines := by
  induction block generalizing number with
  | nil => rfl
  | cons line block ih =>
      rw [List.forall_mem_cons] at h
      obtain ⟨⟨raw, rfl, hraw⟩, hblock⟩ := h
      rw [List.cons_append, readSections_nothing (ofLine_of_isSilent hraw), ih hblock,
        List.length_cons, Nat.add_assoc, Nat.add_comm 1]

/-- The sections or the failure with other numbers of lines. -/
def renumbered (move : Nat → Nat) (read : Except Failure (List Section)) :
    Except Failure (List Section) :=
  (read.map (List.map (·.renumber move))).mapError (Failure.renumber move)

theorem map_renumbered (move : Nat → Nat) (read : Except Failure (List Section))
    (sections : List Section) :
    (renumbered move read).map (sections.map (·.renumber move) ++ ·)
      = renumbered move (read.map (sections ++ ·)) := by
  cases read with
  | error failure => rfl
  | ok later =>
      change Except.ok _ = Except.ok _
      rw [List.map_append]

section Move

variable {registry : Registry} (hplain : registry.Plain) (source : String) {lines : List Line}
  {inserted : Nat → List Line} (hsilent : ∀ i, ∀ line ∈ inserted i, SilentLine line)
  (houtside : ∀ i, inserted i ≠ [] → Outside registry lines i) (move : Nat → Nat)
  (hmove : ∀ i, move (i + 2) = move (i + 1) + 1 + (inserted (i + 1)).length)

include houtside in
/-- What is put in outside of heredocs is put in behind the end of the one that begins at a line. -/
theorem Outside.spares {k : Nat} {raw keyword remainder : String} {parser : Parser}
    (hout : Outside registry lines k) (hline : lines[k]? = some (.ok raw))
    (hinvokes : Invokes raw keyword remainder) (hparser : registry.get? keyword = some parser)
    (terminator : String) (hopens : parser.Opens remainder terminator) :
    Spares inserted terminator (k + 1) (lines.drop (k + 1)) := by
  intro m hm
  have hbehind := houtside _ hm
  rw [Outside] at hbehind
  obtain ⟨n, hkn, hnm, line, hn, hcloses⟩ := hbehind k (by omega) hout terminator
    ⟨raw, keyword, remainder, parser, hline, hinvokes, hparser, hopens⟩
  refine ⟨n - (k + 1), by omega, line, ?_, hcloses⟩
  rw [List.getElem?_drop, ← hn]
  congr 1
  omega

include hmove in
theorem move_add {k count : Nat} (h : ∀ m < count, inserted (k + 1 + m) = []) :
    move (k + 1 + count) = move (k + 1) + count := by
  induction count with
  | zero => rfl
  | succ count ih =>
      have hstep := hmove (k + count)
      have hhere := h count (Nat.lt_succ_self _)
      rw [Nat.add_right_comm] at hhere
      rw [hhere, List.length_nil] at hstep
      have hbefore := ih fun m hm => h m (Nat.lt_succ_of_lt hm)
      rw [Nat.add_right_comm] at hbefore
      rw [show k + 1 + (count + 1) = k + count + 2 by omega, hstep, hbefore]
      omega

include hplain hsilent houtside hmove in
/-- Reading with lines put in goes the same way, only further down. -/
theorem readSections_insertFrom (number : Nat) (current : Option Section) (rest : List Line)
    {k start : Nat} (hnumber : number = k + 1) (hrest : lines.drop k = rest)
    (hout : rest ≠ [] → Outside registry lines k)
    (hstart : start + (inserted k).length = move (k + 1)) :
    readSections registry source start (current.map (·.renumber move)) (insertFrom inserted k rest)
      = renumbered move (readSections registry source number current rest) := by
  -- All up to the place `k` is read, and `start` is the number of the first line that is put in there.
  induction number, current, rest using readSections.induct registry source
      generalizing k start with
  | case1 number current =>
      rw [insertFrom, ← List.append_nil (inserted k), readSections_silent (hsilent k), readSections,
        readSections, Section.kept_renumber]
      rfl
  | case2 number current error rest =>
      rw [insertFrom, readSections_silent (hsilent k), readSections_error, readSections_error]
      rfl
  | case3 number current raw rest hentry ih =>
      subst hnumber
      obtain ⟨hline, rfl⟩ := getElem?_of_drop_eq hrest
      have hnext := (hout (List.cons_ne_nil _ _)).succ_of_not_isCommand hline fun hcommand =>
        hcommand.1 (isSilent_of_ofLine hentry)
      rw [insertFrom, readSections_silent (hsilent k), hstart, readSections_nothing hentry,
        readSections_nothing hentry]
      exact ih rfl rfl (fun _ => hnext) (hmove k).symm
  | case4 number current raw rest name hentry ih =>
      subst hnumber
      obtain ⟨hline, rfl⟩ := getElem?_of_drop_eq hrest
      have hnext := (hout (List.cons_ne_nil _ _)).succ_of_not_isCommand hline fun hcommand =>
        hcommand.2 name (isHeader_of_ofLine hentry)
      rw [insertFrom, readSections_silent (hsilent k), hstart, readSections_header hentry,
        readSections_header hentry, Section.kept_renumber, ← map_renumbered]
      exact congrArg _ (ih rfl rfl (fun _ => hnext) (hmove k).symm)
  | case5 number current raw rest keyword remainder hentry hunknown =>
      subst hnumber
      rw [insertFrom, readSections_silent (hsilent k), hstart, readSections_unknown hentry hunknown,
        readSections_unknown hentry hunknown]
      rfl
  | case6 number current raw rest keyword remainder hentry parser hparser cause hcause =>
      subst hnumber
      obtain ⟨hline, rfl⟩ := getElem?_of_drop_eq hrest
      have hmem := hplain keyword parser hparser
      have hspares := (hout (List.cons_ne_nil _ _)).spares houtside hline
        (invokes_of_ofLine hentry) hparser
      have hread := (parser_insertFrom hmem hspares).trans hcause
      rw [insertFrom, readSections_silent (hsilent k), hstart,
        readSections_rejected hentry hparser hread, readSections_rejected hentry hparser hcause,
        (Parser.reports_of_mem hmem _ _ cause hcause).renumber]
      rfl
  | case7 number current raw rest keyword remainder hentry parser hparser taken htaken sec =>
      rename_i ih
      subst hnumber
      obtain ⟨hline, rfl⟩ := getElem?_of_drop_eq hrest
      have hmem := hplain keyword parser hparser
      have hinvokes := invokes_of_ofLine hentry
      have hhere := hout (List.cons_ne_nil _ _)
      have hspares := hhere.spares houtside hline hinvokes hparser
      obtain ⟨hdrop, hnone⟩ := parser_drop_insertFrom hmem hspares htaken
      have hread := (parser_insertFrom hmem hspares).trans htaken
      have hnext (hleft : (lines.drop (k + 1)).drop taken.count ≠ []) :
          Outside registry lines (k + 1 + taken.count) := by
        rw [List.drop_drop] at hleft
        exact hhere.after hplain ⟨raw, keyword, remainder, parser, hline, hinvokes, hparser, htaken⟩
          hleft
      have hmoved : move (k + 1) + 1 + taken.count + (inserted (k + 1 + taken.count)).length
          = move (k + 1 + taken.count + 1) := by
        have hstep := hmove (k + taken.count)
        have hbefore := move_add move hmove hnone
        rw [show k + taken.count + 2 = k + 1 + taken.count + 1 by omega,
          show k + taken.count + 1 = k + 1 + taken.count by omega] at hstep
        omega
      rw [insertFrom, readSections_silent (hsilent k), hstart,
        readSections_accepted hentry hparser hread, readSections_accepted hentry hparser htaken,
        hdrop]
      have hsec : sec.renumber move
          = ((current.map (Section.renumber move)).getD ⟨"", move (k + 1), []⟩).addCommand
              ⟨taken.result, source, move (k + 1)⟩ := by
        rw [Section.renumber_addCommand]
        cases current <;> rfl
      rw [← hsec]
      exact ih (by omega) List.drop_drop.symm hnext hmoved

end Move

theorem moved_map {α β : Type} (f : α → β) (inserted : Nat → List α) :
    moved (fun i => (inserted i).map f) = moved inserted := by
  funext number
  simp only [moved, List.length_map]

/-- Blank lines and comments that are put in outside of heredocs move what is below them. -/
theorem read_insertFrom {registry : Registry} (hplain : registry.Plain) (source : String)
    {lines : List Line} {inserted : Nat → List Line}
    (hsilent : ∀ i, ∀ line ∈ inserted i, SilentLine line)
    (houtside : ∀ i, inserted i ≠ [] → Outside registry lines i) :
    read registry source (insertFrom inserted 0 lines)
      = ((read registry source lines).map (Script.renumber (moved inserted))).mapError
          (Failure.renumber (moved inserted)) := by
  have hmoved : 1 + (inserted 0).length = moved inserted 1 := (moved_succ inserted 0).symm
  have hsections := readSections_insertFrom hplain source hsilent houtside (moved inserted)
    (fun i => moved_succ inserted (i + 1)) 1 none lines rfl List.drop_zero (fun _ => outside_zero)
    hmoved
  rw [Option.map_none] at hsections
  unfold read
  rw [hsections]
  cases readSections registry source 1 none lines <;> rfl

/-- A text that is not read has a problem in one of its lines. -/
theorem problem_of_read {registry : Registry} (hplain : registry.Plain) {source text : String}
    {failure : Failure} (h : read registry source (linesOfText text) = .error failure) :
    ∃ (p : Problem) (line : Nat), failure = .problem p ∧ p.kind.isParse = true ∧
      p.source = some source ∧ p.line = some (line : Int) := by
  have hread := map_eq_error_iff.mp h
  obtain ⟨n, ms, -, ⟨-, heq⟩ | ⟨failure', hstuck, heq⟩⟩ :=
    readSections_cases registry source 1 none (linesOfText text) rfl List.drop_zero
  · cases hread.symm.trans heq
  · obtain rfl := Except.error.inj (hread.symm.trans heq)
    rcases hstuck with ⟨error, hline, -⟩ | hrejects
    · obtain ⟨raw, -, hraw⟩ := List.mem_map.mp (List.mem_of_getElem? hline)
      cases hraw
    · obtain ⟨p, hp, hkind, hsource, hline⟩ := hrejects.placed hplain
      exact ⟨p, n + 1, hp, hkind, hsource, hline⟩

/-- **Layout outside of payloads means nothing.** A script with all lines trimmed is read as it was. Where
blank lines and comments are put in outside of heredocs, the same script is read with other numbers of
lines, or the same problem is reported of the line that has moved. -/
theorem read_layout (registry : Registry) (hplain : registry.Plain) (source text : String) :
    (∀ lines, read registry source (lines.map trimLine) = read registry source lines) ∧
    read registry source (linesOfText (trimmedText text)) = read registry source (linesOfText text) ∧
    ∀ (inserted : Nat → List String) (other : String),
      (∀ i, ∀ line ∈ inserted i, IsSilent line) →
      (∀ i, inserted i ≠ [] → Outside registry (linesOfText text) i) →
      (splitLines other).map Text.trim
        = (insertFrom inserted 0 (splitLines text)).map Text.trim →
      (∀ script, read registry source (linesOfText text) = .ok script →
        read registry source (linesOfText other) = .ok (script.renumber (moved inserted))) ∧
      (∀ failure, read registry source (linesOfText text) = .error failure →
        ∃ (p : Problem) (line : Nat), failure = .problem p ∧ p.kind.isParse = true ∧
          p.source = some source ∧ p.line = some (line : Int) ∧
          read registry source (linesOfText other)
            = .error (.problem { p with line := some (moved inserted line : Int) })) := by
  have htrim {first second : List Line} (h : first.map trimLine = second.map trimLine) :
      read registry source first = read registry source second := by
    rw [← read_trimLine hplain, h, read_trimLine hplain]
  refine ⟨read_trimLine hplain source, htrim ?_, ?_⟩
  · rw [map_trimLine_linesOfText, map_trimLine_linesOfText, map_trim_splitLines_trimmedText]
  intro inserted other hsilent houtside hother
  have hlines : (linesOfText other).map trimLine
      = (insertFrom (fun i => (inserted i).map Except.ok) 0 (linesOfText text)).map trimLine := by
    rw [map_trimLine_linesOfText, hother, linesOfText, ← map_insertFrom, List.map_map, List.map_map]
    rfl
  have hsilentLines : ∀ i, ∀ line ∈ (inserted i).map Except.ok, SilentLine line := by
    intro i line hline
    obtain ⟨raw, hraw, rfl⟩ := List.mem_map.mp hline
    exact ⟨raw, rfl, hsilent i raw hraw⟩
  have houtsideLines (i : Nat) (hi : (inserted i).map Except.ok ≠ ([] : List Line)) :
      Outside registry (linesOfText text) i :=
    houtside i (mt List.map_eq_nil_iff.mpr hi)
  have hmoved := read_insertFrom hplain source hsilentLines houtsideLines
  rw [moved_map, ← htrim hlines] at hmoved
  constructor
  · intro script hscript
    rw [hmoved, hscript]
    rfl
  · intro failure hfailure
    obtain ⟨p, line, rfl, hkind, hsource, hline⟩ := problem_of_read hplain hfailure
    refine ⟨p, line, rfl, hkind, hsource, hline, ?_⟩
    rw [hmoved, hfailure, ← Problem.renumber_eq hline]
    rfl

/-- A heredoc that is indented, with lines put in behind it, in a script that is read and in one that is
not. -/
theorem read_layout_indented_heredoc :
    let registry : Registry := Engine.registry { parsers := Registry.common }
    let inserted : Nat → List String := fun i =>
      if i = 0 then ["\t\n"] else if i = 3 then ["// all\n", "\n"] else []
    let text := "VALUE ^END\n// 1\nEND\nMATCH _"
    let other := "\t\n  VALUE ^END\n// 1 \n END\n// all\n\n MATCH _\n"
    let unreadable := "VALUE ^END\n// 1\nEND\nMATC _"
    let unreadableOther := "\t\n  VALUE ^END\n// 1 \n END\n// all\n\n MATC _\n"
    (∃ script, read registry "order" (linesOfText text) = .ok script ∧
      read registry "order" (linesOfText (trimmedText text)) = .ok script ∧
      read registry "order" (linesOfText other) = .ok (script.renumber (moved inserted)) ∧
      script.sections.flatMap (·.commands.map (·.line)) = [1, 4] ∧
      moved inserted 1 = 2 ∧ moved inserted 4 = 7) ∧
    ∃ p : Problem, p.line = some 4 ∧
      read registry "order" (linesOfText unreadable) = .error (.problem p) ∧
      read registry "order" (linesOfText unreadableOther)
        = .error (.problem { p with line := some 7 }) := by
  intro registry inserted text other unreadable unreadableOther
  have hplain : registry.Plain := Engine.plain_registry rfl
  have hsilent : ∀ i, ∀ line ∈ inserted i, IsSilent line := by
    intro i
    dsimp only [inserted]
    split
    · rw [List.forall_mem_singleton]
      exact Or.inl (by decide +kernel)
    split
    · rw [List.forall_mem_cons, List.forall_mem_singleton]
      exact ⟨Or.inr (by decide +kernel), Or.inl (by decide +kernel)⟩
    · exact nofun
  have houtside (text last : String)
      (hlines : splitLines text = ["VALUE ^END\n", "// 1\n", "END\n", last])
      (hcount : (Parser.value "^END" ((linesOfText text).drop 1)).toOption.map (·.count) = some 2) :
      ∀ i, inserted i ≠ [] → Outside registry (linesOfText text) i := by
    have hbelow : Outside registry (linesOfText text) 3 := by
      unfold linesOfText at hcount ⊢
      rw [hlines] at hcount ⊢
      exact outside_zero.after_count hplain rfl rfl rfl hcount (List.cons_ne_nil _ _)
    intro i
    dsimp only [inserted]
    split
    · rename_i hi
      exact fun _ => hi ▸ outside_zero
    split
    · rename_i hi
      exact fun _ => hi ▸ hbelow
    · exact fun h => absurd rfl h
  constructor
  · obtain ⟨-, htrimmed, hinserted⟩ := read_layout registry hplain "order" text
    have hread := (hinserted inserted other hsilent
      (houtside text "MATCH _" (by decide +kernel) (by decide +kernel)) (by decide +kernel)).1
    have hlines : (read registry "order" (linesOfText text)).toOption.map
        (·.sections.flatMap (·.commands.map (·.line))) = some [1, 4] := by decide +kernel
    obtain ⟨script, hscript, hlines⟩ := Option.map_eq_some_iff.mp hlines
    rw [toOption_eq_some_iff] at hscript
    exact ⟨script, hscript, htrimmed.trans hscript, hread script hscript, hlines, by decide +kernel,
      by decide +kernel⟩
  · have hlines : splitLines unreadable = ["VALUE ^END\n", "// 1\n", "END\n", "MATC _"] := by
      decide +kernel
    have hread : read registry "order" (linesOfText unreadable)
        = .error (.problem (.unknownCommand "MATC" (some "order") 4)) := by
      have hcount : (Parser.value "^END" (["// 1\n", "END\n", "MATC _"].map .ok)).toOption.map (·.count)
          = some 2 := by decide +kernel
      obtain ⟨taken, htaken, hcount⟩ := Option.map_eq_some_iff.mp hcount
      rw [toOption_eq_some_iff] at htaken
      rw [read, linesOfText, hlines, List.map_cons, readSections_accepted rfl rfl htaken, hcount]
      exact congrArg _ (readSections_unknown rfl rfl)
    have hinserted := (read_layout registry hplain "order" unreadable).2.2
    obtain ⟨p, line, hp, -, -, hline, hother⟩ := (hinserted inserted unreadableOther hsilent
      (houtside unreadable "MATC _" hlines (by decide +kernel)) (by decide +kernel)).2 _ hread
    obtain rfl := Failure.problem.inj hp
    obtain rfl : 4 = line := Int.ofNat.inj (Option.some.inj hline)
    exact ⟨_, rfl, hread, hother⟩

end Script

end ApiProbe
