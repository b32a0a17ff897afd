import ApiProbe.Proofs.Script.Layout

/-!
# Scripts that are joined

A text that begins with a header can stand behind another one in which all heredocs are closed: the script
of both is that of the first, and then that of the second further down.
-/

namespace ApiProbe.Script

/-- Every heredoc is closed by its terminator: the place behind the last line is outside. -/
def HeredocsClosed (registry : Registry) (lines : List Line) : Prop :=
  Outside registry lines lines.length

section Append

variable {registry : Registry} {source : String} {lines second : List Line}

theorem HeredocsClosed.exists_closes (h : HeredocsClosed registry lines) {k : Nat} {terminator : String}
    (hout : Outside registry lines k) (hopens : OpensAt registry lines k terminator) :
    ∃ line ∈ lines.drop (k + 1), Closes terminator line := by
  unfold HeredocsClosed at h
  rw [Outside] at h
  obtain ⟨_, _, _, _, hline, -⟩ := id hopens
  obtain ⟨n, hkn, -, line, hn, hcloses⟩ :=
    h k (List.getElem?_eq_some_iff.mp hline).1 hout terminator hopens
  refine ⟨line, List.mem_of_getElem? (i := n - (k + 1)) ?_, hcloses⟩
  rw [List.getElem?_drop, ← hn]
  congr 1
  omega

theorem parser_append {parser : Parser}
    (hparser : parser ∈ [Parser.value, Parser.expect, Parser.http]) {remainder : String}
    (h : ∀ terminator, parser.Opens remainder terminator → ∃ line ∈ lines, Closes terminator line)
    (second : List Line) : parser remainder (lines ++ second) = parser remainder lines :=
  Parser.congr_lines hparser fun terminator hopens =>
    takeUntil_append (h terminator hopens) second

theorem parser_count_le {parser : Parser}
    (hparser : parser ∈ [Parser.value, Parser.expect, Parser.http]) {remainder : String}
    {taken : Taken Command} (h : parser remainder lines = .ok taken) :
    taken.count ≤ lines.length := by
  rcases Parser.taken_cases hparser h with ⟨hcount, -⟩ | ⟨terminator, body, -, hbody⟩
  · rw [hcount]
    exact Nat.zero_le _
  · exact (confined_takeUntil terminator lines _ hbody).1

/-- What begins with a header is read the same whatever section is open. -/
theorem readSections_of_header {raw name : String} (h : IsHeader raw name) (number : Nat)
    (current : Option Section) (later : List Line) :
    readSections registry source number current (.ok raw :: later)
      = (readSections registry source number none (.ok raw :: later)).map
          (Section.kept current ++ ·) := by
  rw [readSections_header (ofLine_of_isHeader h), readSections_header (ofLine_of_isHeader h)]
  cases readSections registry source (number + 1) (some ⟨name, number, []⟩) later <;> rfl

/-- The lines of the first text are read as if they stood alone, and the section that is open behind them
is closed by the header. -/
theorem readSections_append (hplain : registry.Plain) (hclosed : HeredocsClosed registry lines)
    {raw name : String} {later : List Line} (hheader : IsHeader raw name)
    (hsecond : second = .ok raw :: later) (number : Nat) (current : Option Section)
    (rest : List Line) {k : Nat} (hnumber : number = k + 1) (hrest : lines.drop k = rest)
    (hout : rest ≠ [] → Outside registry lines k) {sections : List Section}
    (h : readSections registry source number current rest = .ok sections) :
    readSections registry source number current (rest ++ second)
      = (readSections registry source (number + rest.length) none second).map (sections ++ ·) := by
  induction number, current, rest using readSections.induct registry source
      generalizing k sections with
  | case1 number current =>
      rw [readSections] at h
      obtain rfl := Except.ok.inj h
      subst hsecond
      exact readSections_of_header hheader number current later
  | case2 number current error rest =>
      rw [readSections_error] at h
      cases h
  | case3 number current line rest hentry ih =>
      subst hnumber
      obtain ⟨hline, rfl⟩ := getElem?_of_drop_eq hrest
      have hnext := (hout (List.cons_ne_nil _ _)).succ_of_not_isCommand hline fun hcommand =>
        hcommand.1 (isSilent_of_ofLine hentry)
      rw [readSections_nothing hentry] at h
      rw [List.cons_append, readSections_nothing hentry, ih rfl rfl (fun _ => hnext) h,
        List.length_cons, Nat.add_right_comm, Nat.add_assoc (k + 1)]
  | case4 number current line rest title hentry ih =>
      subst hnumber
      obtain ⟨hline, rfl⟩ := getElem?_of_drop_eq hrest
      have hnext := (hout (List.cons_ne_nil _ _)).succ_of_not_isCommand hline fun hcommand =>
        hcommand.2 title (isHeader_of_ofLine hentry)
      rw [readSections_header hentry] at h
      obtain ⟨below, hbelow, rfl⟩ := map_eq_ok_iff.mp h
      rw [List.cons_append, readSections_header hentry, ih rfl rfl (fun _ => hnext) hbelow,
        List.length_cons, Nat.add_right_comm, Nat.add_assoc (k + 1)]
      cases readSections registry source (k + 1 + ((lines.drop (k + 1)).length + 1)) none second with
      | error failure => rfl
      | ok others => exact congrArg Except.ok (List.append_assoc _ _ _).symm
  | case5 number current line rest keyword remainder hentry hunknown =>
      rw [readSections_unknown hentry hunknown] at h
      cases h
  | case6 number current line rest keyword remainder hentry parser hparser cause hcause =>
      rw [readSections_rejected hentry hparser hcause] at h
      cases h
  | case7 number current line rest keyword remainder hentry parser hparser taken htaken sec =>
      rename_i ih
      subst hnumber
      obtain ⟨hline, rfl⟩ := getElem?_of_drop_eq hrest
      have hmem := hplain keyword parser hparser
      have hinvokes := invokes_of_ofLine hentry
      have hhere := hout (List.cons_ne_nil _ _)
      have hread := parser_append hmem (fun terminator hopens => hclosed.exists_closes hhere
        ⟨line, keyword, remainder, parser, hline, hinvokes, hparser, hopens⟩) second
      have hcount := parser_count_le hmem htaken
      have hnext (hleft : (lines.drop (k + 1)).drop taken.count ≠ []) :
          Outside registry lines (k + 1 + taken.count) := by
        rw [List.drop_drop] at hleft
        exact hhere.after hplain ⟨line, keyword, remainder, parser, hline, hinvokes, hparser, htaken⟩
          hleft
      rw [readSections_accepted hentry hparser htaken] at h
      have hbelow := ih (by omega) List.drop_drop.symm hnext h
      rw [List.cons_append, readSections_accepted hentry hparser (hread.trans htaken),
        List.drop_append_of_le_length hcount, hbelow, List.length_cons, List.length_drop]
      congr 2
      omega

end Append

/-- Below other lines a text is read as it is read alone, with the numbers that its lines have there. -/
theorem readSections_below {registry : Registry} (hplain : registry.Plain) {source : String}
    (lines : List Line) (count : Nat) :
    readSections registry source (count + 1) none lines
      = renumbered (count + ·) (readSections registry source 1 none lines) := by
  have hsilent : ∀ _ : Nat, ∀ line ∈ ([] : List Line), SilentLine line := fun _ => nofun
  have houtside (i : Nat) (h : ([] : List Line) ≠ []) : Outside registry lines i := absurd rfl h
  have hread := readSections_insertFrom hplain source hsilent houtside (count + ·) (fun _ => rfl)
    1 none lines rfl List.drop_zero (fun _ => outside_zero) (Nat.add_zero (count + 1))
  rwa [insertFrom_nil] at hread

/-- **Scripts compose.** Where the first text has ended, is read and leaves no heredoc open, and the second
begins with a header, both together are read as the sections of the first and those of the second, with the
numbers that their lines have now. A problem in the second is reported at the line that it has now. -/
theorem read_append (registry : Registry) (hplain : registry.Plain) (source first second : String)
    (hended : IsEnded first) (hclosed : HeredocsClosed registry (linesOfText first)) (script : Script)
    (hfirst : read registry source (linesOfText first) = .ok script)
    (hsecond : ∃ line name, (splitLines second).head? = some line ∧ IsHeader line name) :
    (∀ later, read registry source (linesOfText second) = .ok later →
      read registry source (linesOfText (first ++ second))
        = .ok ⟨source, script.sections
            ++ later.sections.map (Section.renumber ((splitLines first).length + ·))⟩) ∧
    (∀ failure, read registry source (linesOfText second) = .error failure →
      ∃ (p : Problem) (line : Nat), failure = .problem p ∧ p.kind.isParse = true ∧
        p.source = some source ∧ p.line = some (line : Int) ∧
        read registry source (linesOfText (first ++ second))
          = .error (.problem
              { p with line := some (((splitLines first).length + line : Nat) : Int) })) := by
  obtain ⟨line, name, hhead, hheader⟩ := hsecond
  obtain ⟨later, hlater⟩ := List.head?_eq_some_iff.mp hhead
  have hlines : linesOfText second = .ok line :: later.map .ok := by
    rw [linesOfText, hlater, List.map_cons]
  obtain ⟨sections, hsections, rfl⟩ := map_eq_ok_iff.mp hfirst
  have hlength : 1 + (linesOfText first).length = (splitLines first).length + 1 := by
    rw [linesOfText, List.length_map, Nat.add_comm]
  have hread : readSections registry source 1 none (linesOfText (first ++ second))
      = (renumbered ((splitLines first).length + ·)
          (readSections registry source 1 none (linesOfText second))).map (sections ++ ·) := by
    rw [linesOfText_append hended, readSections_append hplain hclosed hheader hlines 1 none
      (linesOfText first) rfl List.drop_zero (fun _ => outside_zero) hsections, hlength,
      readSections_below hplain]
  constructor
  · intro script' hscript'
    obtain ⟨sections', hsections', rfl⟩ := map_eq_ok_iff.mp hscript'
    rw [read, hread, hsections']
    rfl
  · intro failure hfailure
    obtain ⟨p, number, rfl, hkind, hsource, hline⟩ := problem_of_read hplain hfailure
    refine ⟨p, number, rfl, hkind, hsource, hline, ?_⟩
    have hmoved : p.renumber ((splitLines first).length + ·) = _ := Problem.renumber_eq hline
    rw [read, hread, map_eq_error_iff.mp hfailure, ← hmoved]
    rfl

/-- Behind a heredoc with what looks like a header and a header without a name, a text that is read and one
that is not. -/
theorem read_append_below_heredoc :
    let registry : Registry := Engine.registry { parsers := Registry.common }
    let first := "VALUE ^END\n# 1\nEND\n#\n"
    let second := " # two\nMATCH _\n"
    let unreadable := "# two\n\nMATC _"
    (∃ script later, read registry "order" (linesOfText first) = .ok script ∧
      read registry "order" (linesOfText second) = .ok later ∧
      later.sections.map (fun sec => (sec.name, sec.startLine, sec.commands.map (·.line)))
        = [("two", 1, [2])] ∧
      read registry "order" (linesOfText (first ++ second))
        = .ok ⟨"order", script.sections ++ later.sections.map (Section.renumber (4 + ·))⟩) ∧
    ∃ p : Problem, p.line = some 3 ∧
      read registry "order" (linesOfText unreadable) = .error (.problem p) ∧
      read registry "order" (linesOfText (first ++ unreadable))
        = .error (.problem { p with line := some 7 }) := by
  intro registry first second unreadable
  have hplain : registry.Plain := Engine.plain_registry rfl
  have hlines : splitLines first = ["VALUE ^END\n", "# 1\n", "END\n", "#\n"] := by decide +kernel
  have hclosed : HeredocsClosed registry (linesOfText first) := by
    have hcount : (Parser.value "^END" ((linesOfText first).drop 1)).toOption.map (·.count)
        = some 2 := by decide +kernel
    unfold linesOfText at hcount ⊢
    rw [hlines] at hcount ⊢
    have hbelow := outside_zero.after_count hplain rfl rfl rfl hcount (List.cons_ne_nil _ _)
    exact hbelow.succ_of_not_isCommand rfl fun hcommand => hcommand.2 "" (isHeader_of_ofLine rfl)
  have hfirst : (read registry "order" (linesOfText first)).toOption.isSome = true := by
    decide +kernel
  obtain ⟨script, hscript⟩ := Option.isSome_iff_exists.mp hfirst
  rw [toOption_eq_some_iff] at hscript
  have hcount : (splitLines first).length = 4 := by rw [hlines]; rfl
  have happend (second : String) := read_append registry hplain "order" first second
    (Or.inr (by decide +kernel)) hclosed script hscript
  rw [hcount] at happend
  constructor
  · have hsections : (read registry "order" (linesOfText second)).toOption.map (fun script =>
        script.sections.map fun sec => (sec.name, sec.startLine, sec.commands.map (·.line)))
          = some [("two", 1, [2])] := by decide +kernel
    obtain ⟨later, hlater, hsections⟩ := Option.map_eq_some_iff.mp hsections
    rw [toOption_eq_some_iff] at hlater
    exact ⟨script, later, hscript, hlater, hsections, (happend second
      ⟨" # two\n", "two", by decide +kernel, isHeader_of_ofLine rfl⟩).1 later hlater⟩
  · have hlines : splitLines unreadable = ["# two\n", "\n", "MATC _"] := by decide +kernel
    have hread : read registry "order" (linesOfText unreadable)
        = .error (.problem (.unknownCommand "MATC" (some "order") 3)) := by
      rw [read, linesOfText, hlines, List.map_cons, readSections_header rfl, List.map_cons,
        readSections_nothing rfl, List.map_cons, readSections_unknown rfl rfl]
      rfl
    obtain ⟨p, line, hp, -, -, hline, hboth⟩ := (happend unreadable
      ⟨"# two\n", "two", by rw [hlines]; rfl, isHeader_of_ofLine rfl⟩).2 _ hread
    obtain rfl := Failure.problem.inj hp
    obtain rfl : 3 = line := Int.ofNat.inj (Option.some.inj hline)
    exact ⟨_, rfl, hread, hboth⟩

end ApiProbe.Script
