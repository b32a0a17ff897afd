import ApiProbe.Proofs.Script.Parsers
import ApiProbe.Proofs.Script.TopLevel

/-!
# Sections

A script is cut at its headers: each has the commands up to the next one, and the commands before the
first have a section without a name.
-/

namespace ApiProbe.Script

/-- The commands before the first header. -/
def leading : List Mark → List LocatedCommand
  | .command c :: ms => c :: leading ms
  | _ => []

def headed : List Mark → List Section
  | [] => []
  | .header name line :: ms => ⟨name, line, leading ms⟩ :: headed ms
  | .command _ :: ms => headed ms

/-- The section of commands without a header, if there are any. -/
def unheaded : List LocatedCommand → List Section
  | [] => []
  | c :: commands => [⟨"", c.line, c :: commands⟩]

/-- The sections of all marks, the ones too that have neither name nor commands. -/
def allSections (ms : List Mark) : List Section :=
  unheaded (leading ms) ++ headed ms

/-- The sections where one is open already. -/
def sectionsFrom (ms : List Mark) : Option Section → List Section
  | none => allSections ms
  | some sec => { sec with commands := sec.commands ++ leading ms } :: headed ms

section Cut

variable {ms : List Mark}

/-- The commands of all sections in order are all commands in order. -/
theorem flatMap_allSections (ms : List Mark) :
    (allSections ms).flatMap (·.commands) = ms.filterMap (·.command?) := by
  have hunheaded (commands : List LocatedCommand) :
      (unheaded commands).flatMap (·.commands) = commands := by
    cases commands with
    | nil => rfl
    | cons c commands => exact List.append_nil _
  have hall : leading ms ++ (headed ms).flatMap (·.commands) = ms.filterMap (·.command?) := by
    induction ms with
    | nil => rfl
    | cons m ms ih =>
        cases m with
        | header name line => exact ih
        | command c => exact congrArg (c :: ·) ih
  rw [allSections, List.flatMap_append, hunheaded, hall]

/-- A section that is not worth keeping has no commands that would be lost. -/
theorem flatMap_filter_worthKeeping (sections : List Section) :
    (sections.filter (·.worthKeeping)).flatMap (·.commands) = sections.flatMap (·.commands) := by
  induction sections with
  | nil => rfl
  | cons sec sections ih =>
      rw [List.flatMap_cons, ← ih, List.filter_cons]
      split
      · rw [List.flatMap_cons]
      · rename_i hkeep
        have hempty : sec.commands = [] := by
          rw [Section.worthKeeping, Bool.or_eq_true, not_or] at hkeep
          simpa using hkeep.1
        rw [hempty, List.nil_append]

/-- A section with a header has the commands up to the next header. -/
theorem exists_of_mem_headed {sec : Section} (h : sec ∈ headed ms) :
    ∃ before after, ms = before ++ .header sec.name sec.startLine :: after ∧
      sec.commands = leading after := by
  induction ms with
  | nil => cases h
  | cons m ms ih =>
      cases m with
      | header name line =>
          rcases List.mem_cons.mp h with rfl | h
          · exact ⟨[], ms, rfl, rfl⟩
          · obtain ⟨before, after, rfl, hcommands⟩ := ih h
            exact ⟨.header name line :: before, after, rfl, hcommands⟩
      | command c =>
          obtain ⟨before, after, rfl, hcommands⟩ := ih h
          exact ⟨.command c :: before, after, rfl, hcommands⟩

theorem mem_headed {before after : List Mark} {name : String} {line : Nat}
    (h : ms = before ++ .header name line :: after) : ⟨name, line, leading after⟩ ∈ headed ms := by
  subst h
  induction before with
  | nil => exact List.mem_cons_self
  | cons m before ih =>
      cases m with
      | header => exact List.mem_cons_of_mem _ ih
      | command => exact ih

theorem startLine_headed_sublist (ms : List Mark) :
    ((headed ms).map (·.startLine)).Sublist (ms.map (·.line)) := by
  induction ms with
  | nil => exact .slnil
  | cons m ms ih =>
      cases m with
      | header name line => exact ih.cons_cons line
      | command c => exact ih.cons _

/-- No header stands in front of a leading command. -/
theorem line_lt_of_mem_leading (hsorted : ms.Pairwise (·.line < ·.line)) {c : LocatedCommand}
    (hc : c ∈ leading ms) {name : String} {line : Nat} (hheader : .header name line ∈ ms) :
    c.line < line := by
  induction ms with
  | nil => cases hc
  | cons m ms ih =>
      obtain ⟨hfirst, hrest⟩ := List.pairwise_cons.mp hsorted
      cases m with
      | header => cases hc
      | command first =>
          have hlater : .header name line ∈ ms := by
            rcases List.mem_cons.mp hheader with h | h
            · cases h
            · exact h
          rcases List.mem_cons.mp hc with rfl | hc
          · exact hfirst _ hlater
          · exact ih hrest hc hlater

theorem mem_of_mem_leading {c : LocatedCommand} (hc : c ∈ leading ms) : .command c ∈ ms := by
  induction ms with
  | nil => cases hc
  | cons m ms ih =>
      cases m with
      | header => cases hc
      | command first =>
          rcases List.mem_cons.mp hc with rfl | hc
          · exact List.mem_cons_self
          · exact List.mem_cons_of_mem _ (ih hc)

end Cut

/-! ### Reading the lines

The reader holds the section that it is in and hands it over at the next header. Cutting the marks at the
headers with such a section in hand is the invariant that carries the induction over the lines. -/

section Read

variable {registry : Registry} {source : String} {lines : List Line}

theorem kept_eq_filter (current : Option Section) :
    Section.kept current = current.toList.filter (·.worthKeeping) := by
  cases current with
  | none => rfl
  | some sec =>
      rw [Option.toList_some, List.filter_cons, List.filter_nil]
      rfl

theorem sectionsFrom_nil (current : Option Section) : sectionsFrom [] current = current.toList := by
  cases current with
  | none => rfl
  | some sec =>
      change [{ sec with commands := sec.commands ++ [] }] = [sec]
      rw [List.append_nil]

theorem sectionsFrom_header (current : Option Section) (name : String) (line : Nat)
    (ms : List Mark) :
    sectionsFrom (.header name line :: ms) current
      = current.toList ++ sectionsFrom ms (some ⟨name, line, []⟩) := by
  cases current with
  | none => rfl
  | some sec =>
      change { sec with commands := sec.commands ++ [] } :: _ = sec :: _
      rw [List.append_nil]
      rfl

theorem sectionsFrom_command (current : Option Section) (c : LocatedCommand) (ms : List Mark) :
    sectionsFrom (.command c :: ms) current
      = sectionsFrom ms (some ((current.getD ⟨"", c.line, []⟩).addCommand c)) := by
  cases current with
  | none => rfl
  | some sec =>
      change { sec with commands := sec.commands ++ c :: leading ms } :: headed ms
        = { sec with commands := (sec.commands ++ [c]) ++ leading ms } :: headed ms
      rw [List.append_assoc]
      rfl

/-- Where reading stops short of the end, for a line that is not UTF-8 or a command that is rejected. -/
def StuckAt (registry : Registry) (lines : List Line) (source : String) (i : Nat)
    (failure : Failure) : Prop :=
  (∃ error, lines[i]? = some (.error error) ∧ failure = notUtf8 error) ∨
    Rejects registry lines source i failure

theorem getElem?_of_drop_eq {k : Nat} {line : Line} {rest : List Line}
    (h : lines.drop k = line :: rest) : lines[k]? = some line ∧ rest = lines.drop (k + 1) := by
  refine ⟨?_, ?_⟩
  · rw [← List.head?_drop, h, List.head?_cons]
  · rw [← List.tail_drop, h, List.tail_cons]

variable (registry source) in
/-- The lines are read up to the end, or up to where that is stuck. -/
theorem readSections_cases (number : Nat) (current : Option Section) (rest : List Line) {k : Nat}
    (hnumber : number = k + 1) (hrest : lines.drop k = rest) :
    ∃ n ms, Marks registry lines source k n ms ∧
      ((lines.length ≤ n ∧ readSections registry source number current rest
          = .ok ((sectionsFrom ms current).filter (·.worthKeeping))) ∨
        ∃ failure, StuckAt registry lines source n failure ∧
          readSections registry source number current rest = .error failure) := by
  induction number, current, rest using readSections.induct registry source generalizing k with
  | case1 number current =>
      refine ⟨k, [], .nil, Or.inl ⟨List.drop_eq_nil_iff.mp hrest, ?_⟩⟩
      rw [readSections, kept_eq_filter, sectionsFrom_nil]
  | case2 number current error rest =>
      subst hnumber
      obtain ⟨hline, -⟩ := getElem?_of_drop_eq hrest
      refine ⟨k, [], .nil, Or.inr ⟨_, Or.inl ⟨error, hline, rfl⟩, ?_⟩⟩
      rw [readSections]
  | case3 number current raw rest hentry ih =>
      subst hnumber
      obtain ⟨hline, rfl⟩ := getElem?_of_drop_eq hrest
      obtain ⟨n, ms, hms, hread⟩ := ih rfl rfl
      refine ⟨n, ms, .silent hline (isSilent_of_ofLine hentry) hms, ?_⟩
      rw [readSections, hentry]
      exact hread
  | case4 number current raw rest name hentry ih =>
      subst hnumber
      obtain ⟨hline, rfl⟩ := getElem?_of_drop_eq hrest
      obtain ⟨n, ms, hms, hread⟩ := ih rfl rfl
      refine ⟨n, _, .header hline (isHeader_of_ofLine hentry) hms, ?_⟩
      rw [readSections, hentry]
      dsimp only
      rcases hread with ⟨hend, hread⟩ | ⟨failure, hstuck, hread⟩
      · refine Or.inl ⟨hend, ?_⟩
        rw [hread, sectionsFrom_header, List.filter_append, ← kept_eq_filter]
        rfl
      · refine Or.inr ⟨failure, hstuck, ?_⟩
        rw [hread]
        rfl
  | case5 number current raw rest keyword remainder hentry hunknown =>
      subst hnumber
      obtain ⟨hline, -⟩ := getElem?_of_drop_eq hrest
      refine ⟨k, [], .nil, Or.inr ⟨_, Or.inr ⟨raw, keyword, remainder, hline,
        invokes_of_ofLine hentry, Or.inl ⟨hunknown, rfl⟩⟩, ?_⟩⟩
      rw [readSections, hentry]
      dsimp only
      rw [hunknown]
  | case6 number current raw rest keyword remainder hentry parser hparser cause hcause =>
      subst hnumber
      obtain ⟨hline, rfl⟩ := getElem?_of_drop_eq hrest
      refine ⟨k, [], .nil, Or.inr ⟨_, Or.inr ⟨raw, keyword, remainder, hline,
        invokes_of_ofLine hentry, Or.inr ⟨parser, cause, hparser, hcause, rfl⟩⟩, ?_⟩⟩
      rw [readSections, hentry]
      dsimp only
      rw [hparser]
      dsimp only
      rw [hcause]
  | case7 number current raw rest keyword remainder hentry parser hparser taken htaken sec =>
      rename_i ih
      subst hnumber
      obtain ⟨hline, rfl⟩ := getElem?_of_drop_eq hrest
      have haccepts : Accepts registry lines k taken :=
        ⟨raw, keyword, remainder, parser, hline, invokes_of_ofLine hentry, hparser, htaken⟩
      have hnext : k + 1 + 1 + taken.count = k + 1 + taken.count + 1 := by omega
      obtain ⟨n, ms, hms, hread⟩ := ih hnext List.drop_drop.symm
      refine ⟨n, _, .command haccepts hms, ?_⟩
      rw [readSections, hentry]
      dsimp only
      rw [hparser]
      dsimp only
      rw [htaken, sectionsFrom_command]
      exact hread

/-- A script that is read is that of its marks. -/
theorem marks_of_read {script : Script} (h : read registry source lines = .ok script) :
    ∃ n ms, lines.length ≤ n ∧ Marks registry lines source 0 n ms ∧
      script = ⟨source, (allSections ms).filter (·.worthKeeping)⟩ := by
  obtain ⟨sections, hread, rfl⟩ := map_eq_ok_iff.mp h
  obtain ⟨n, ms, hms, ⟨hend, heq⟩ | ⟨failure, -, heq⟩⟩ :=
    readSections_cases registry source 1 none lines rfl List.drop_zero
  · obtain rfl := Except.ok.inj (hread.symm.trans heq)
    exact ⟨n, ms, hend, hms, rfl⟩
  · cases hread.symm.trans heq

end Read

section Sectioned

variable (registry : Registry) (lines : List Line)

/-- A section with the commands between its header and the next one. -/
def Headed (sec : Section) : Prop :=
  ∃ i, HeaderAt registry lines i sec.name ∧ sec.startLine = i + 1 ∧
    ∀ c ∈ sec.commands, i + 1 < c.line ∧
      ∀ j name, i < j → HeaderAt registry lines j name → c.line < j + 1

/-- A section with the commands before the first header. -/
def Unheaded (sec : Section) : Prop :=
  sec.name = "" ∧ sec.commands.head?.map (·.line) = some sec.startLine ∧
    ∀ c ∈ sec.commands, ∀ j name, HeaderAt registry lines j name → c.line < j + 1

/-- The sections hold the commands at top level and no others, in order and with their line numbers, and
are those of the headers. -/
structure Sectioned (source : String) (sections : List Section) : Prop where
  sound : ∀ c ∈ sections.flatMap (·.commands), ∃ i taken, CommandAt registry lines i ∧
    Accepts registry lines i taken ∧ c = ⟨taken.result, source, i + 1⟩
  complete : ∀ i, CommandAt registry lines i →
    ∃ c ∈ sections.flatMap (·.commands), c.line = i + 1
  sorted : (sections.flatMap (·.commands)).Pairwise (·.line < ·.line)
  startSorted : sections.Pairwise (·.startLine < ·.startLine)
  placed : ∀ sec ∈ sections, Headed registry lines sec ∨
    Unheaded registry lines sec ∧ sections.head? = some sec
  named : ∀ i name, HeaderAt registry lines i name → name ≠ "" →
    ∃ sec ∈ sections, sec.startLine = i + 1 ∧ sec.name = name
  kept : ∀ sec ∈ sections, sec.name ≠ "" ∨ sec.commands ≠ []

end Sectioned

section Marked

variable {registry : Registry} {lines : List Line} {source : String} {n : Nat} {ms : List Mark}

/-- Every header at top level is marked. -/
theorem Marks.header_mem (h : Marks registry lines source 0 n ms) (hend : lines.length ≤ n) {i : Nat}
    {name : String} (hheader : HeaderAt registry lines i name) : .header name (i + 1) ∈ ms := by
  obtain ⟨htop, raw, hline, hraw⟩ := hheader
  have hlt : i < n := Nat.lt_of_lt_of_le (List.getElem?_eq_some_iff.mp hline).1 hend
  rcases h.complete topLevel_zero i.zero_le hlt htop with ⟨raw', hline', hsilent⟩ | ⟨m, hm, hmline⟩
  · obtain rfl := Except.ok.inj (Option.some.inj (hline.symm.trans hline'))
    exact absurd hsilent hraw.not_isSilent
  · cases h.holds topLevel_zero m hm with
    | @header j name' hheader =>
        obtain rfl : j = i := Nat.succ.inj hmline
        obtain ⟨-, raw', hline', hraw'⟩ := hheader
        obtain rfl := Except.ok.inj (Option.some.inj (hline.symm.trans hline'))
        obtain rfl := hraw.unique hraw'
        exact hm
    | @command j taken _ haccepts =>
        obtain rfl : j = i := Nat.succ.inj hmline
        obtain ⟨raw', keyword, remainder, parser, hline', ⟨hcommand, -⟩, -⟩ := haccepts
        obtain rfl := Except.ok.inj (Option.some.inj (hline.symm.trans hline'))
        exact absurd hraw (hcommand.2 name)

/-- Every command at top level that is passed is accepted and marked. -/
theorem Marks.command_mem (h : Marks registry lines source 0 n ms) {i : Nat} (hi : i < n)
    (hcommand : CommandAt registry lines i) :
    ∃ taken, Accepts registry lines i taken ∧ .command ⟨taken.result, source, i + 1⟩ ∈ ms := by
  obtain ⟨htop, raw, hline, hraw⟩ := hcommand
  rcases h.complete topLevel_zero i.zero_le hi htop with ⟨raw', hline', hsilent⟩ | ⟨m, hm, hmline⟩
  · obtain rfl := Except.ok.inj (Option.some.inj (hline.symm.trans hline'))
    exact absurd hsilent hraw.1
  · cases h.holds topLevel_zero m hm with
    | @header j name hheader =>
        obtain rfl : j = i := Nat.succ.inj hmline
        obtain ⟨-, raw', hline', hraw'⟩ := hheader
        obtain rfl := Except.ok.inj (Option.some.inj (hline.symm.trans hline'))
        exact absurd hraw' (hraw.2 name)
    | @command j taken _ haccepts =>
        obtain rfl : j = i := Nat.succ.inj hmline
        exact ⟨taken, haccepts, hm⟩

theorem Marks.headed (h : Marks registry lines source 0 n ms) (hend : lines.length ≤ n)
    {sec : Section} (hsec : sec ∈ Script.headed ms) : Headed registry lines sec := by
  obtain ⟨before, after, hsplit, hcommands⟩ := exists_of_mem_headed hsec
  have hsorted := h.pairwise
  have hmark : .header sec.name sec.startLine ∈ ms := by
    rw [hsplit]
    exact List.mem_append_right _ List.mem_cons_self
  rw [hsplit] at hsorted
  obtain ⟨-, hrest, hbefore⟩ := List.pairwise_append.mp hsorted
  obtain ⟨hlater, hafter⟩ := List.pairwise_cons.mp hrest
  obtain ⟨i, hheader, hstart⟩ : ∃ i, HeaderAt registry lines i sec.name ∧ sec.startLine = i + 1 := by
    generalize hm : Mark.header sec.name sec.startLine = m at hmark
    cases h.holds topLevel_zero m hmark with
    | header hheader =>
        obtain ⟨hname, hline⟩ := Mark.header.inj hm
        rw [hname]
        exact ⟨_, hheader, hline⟩
    | command => cases hm
  refine ⟨i, hheader, hstart, fun c hc => ?_⟩
  rw [hcommands] at hc
  refine ⟨hstart ▸ hlater _ (mem_of_mem_leading hc), fun j name hj hnext => ?_⟩
  have hnext := h.header_mem hend hnext
  rw [hsplit] at hnext
  -- A header below this one stands behind its commands.
  rcases List.mem_append.mp hnext with hnext | hnext
  · have hline : j + 1 < sec.startLine := hbefore _ hnext _ List.mem_cons_self
    omega
  · rcases List.mem_cons.mp hnext with hnext | hnext
    · obtain ⟨-, hline⟩ := Mark.header.inj hnext
      omega
    · exact line_lt_of_mem_leading hafter hc hnext

theorem Marks.unheaded (h : Marks registry lines source 0 n ms) (hend : lines.length ≤ n)
    {sec : Section} (hsec : sec ∈ Script.unheaded (leading ms)) :
    Unheaded registry lines sec ∧ Script.unheaded (leading ms) = [sec] := by
  cases hleading : leading ms with
  | nil =>
      rw [hleading] at hsec
      cases hsec
  | cons c commands =>
      rw [hleading] at hsec
      obtain rfl := List.mem_singleton.mp hsec
      refine ⟨⟨rfl, rfl, fun c hc j name hheader => ?_⟩, rfl⟩
      rw [← hleading] at hc
      exact line_lt_of_mem_leading h.pairwise hc (h.header_mem hend hheader)

theorem Marks.startSorted (h : Marks registry lines source 0 n ms) :
    (allSections ms).Pairwise (·.startLine < ·.startLine) := by
  have hheaded : (Script.headed ms).Pairwise (·.startLine < ·.startLine) := by
    rw [← List.pairwise_map (R := (· < ·))]
    exact (List.pairwise_map.mpr h.pairwise).sublist (startLine_headed_sublist ms)
  unfold allSections
  cases hleading : leading ms with
  | nil => exact hheaded
  | cons c commands =>
      refine List.pairwise_cons.mpr ⟨fun sec hsec => ?_, hheaded⟩
      obtain ⟨before, after, hsplit, -⟩ := exists_of_mem_headed hsec
      have hc : c ∈ leading ms := by
        rw [hleading]
        exact List.mem_cons_self
      have hheader : .header sec.name sec.startLine ∈ ms := by
        rw [hsplit]
        exact List.mem_append_right _ List.mem_cons_self
      exact line_lt_of_mem_leading h.pairwise hc hheader

theorem worthKeeping_iff (sec : Section) :
    sec.worthKeeping = true ↔ sec.name ≠ "" ∨ sec.commands ≠ [] := by
  unfold Section.worthKeeping
  rw [Bool.or_eq_true, Bool.not_eq_true', Bool.not_eq_true', List.isEmpty_eq_false_iff,
    String.isEmpty_eq_false_iff]
  exact Or.comm

theorem Marks.sectioned (h : Marks registry lines source 0 n ms) (hend : lines.length ≤ n) :
    Sectioned registry lines source ((allSections ms).filter (·.worthKeeping)) := by
  have hcommands : ((allSections ms).filter (·.worthKeeping)).flatMap (·.commands)
      = ms.filterMap (·.command?) := by
    rw [flatMap_filter_worthKeeping, flatMap_allSections]
  have hmem {c : LocatedCommand} : c ∈ ms.filterMap (·.command?) ↔ .command c ∈ ms := by
    rw [List.mem_filterMap]
    constructor
    · rintro ⟨m, hm, hc⟩
      cases m with
      | header => cases hc
      | command c' =>
          obtain rfl := Option.some.inj hc
          exact hm
    · exact fun hc => ⟨.command c, hc, rfl⟩
  refine ⟨?_, ?_, ?_, h.startSorted.filter _, ?_, ?_, ?_⟩
  · rw [hcommands]
    intro c hc
    have hmark := hmem.mp hc
    generalize hm : Mark.command c = m at hmark
    cases h.holds topLevel_zero m hmark with
    | header => cases hm
    | @command i taken htop haccepts =>
        obtain rfl := Mark.command.inj hm
        obtain ⟨raw, keyword, remainder, parser, hline, hinvokes, -⟩ := id haccepts
        exact ⟨i, taken, ⟨htop, raw, hline, hinvokes.1⟩, haccepts, rfl⟩
  · rw [hcommands]
    intro i hcommand
    obtain ⟨-, raw, hline, -⟩ := id hcommand
    have hi : i < n := Nat.lt_of_lt_of_le (List.getElem?_eq_some_iff.mp hline).1 hend
    obtain ⟨taken, -, hmark⟩ := h.command_mem hi hcommand
    exact ⟨_, hmem.mpr hmark, rfl⟩
  · rw [hcommands]
    apply h.pairwise.filterMap
    intro m m' hlt c hc c' hc'
    cases m with
    | header => cases hc
    | command d =>
        cases m' with
        | header => cases hc'
        | command d' =>
            obtain rfl := Option.some.inj hc
            obtain rfl := Option.some.inj hc'
            exact hlt
  · intro sec hsec
    have hall := (List.mem_filter.mp hsec).1
    rcases List.mem_append.mp hall with hunheaded | hheaded
    · obtain ⟨hunheaded, heq⟩ := h.unheaded hend hunheaded
      have hkeep : sec.worthKeeping = true := (List.mem_filter.mp hsec).2
      refine Or.inr ⟨hunheaded, ?_⟩
      rw [allSections, heq, List.singleton_append, List.filter_cons_of_pos hkeep, List.head?_cons]
    · exact Or.inl (h.headed hend hheaded)
  · intro i name hheader hname
    obtain ⟨before, after, hsplit⟩ := List.append_of_mem (h.header_mem hend hheader)
    refine ⟨⟨name, i + 1, leading after⟩, ?_, rfl, rfl⟩
    rw [List.mem_filter, worthKeeping_iff]
    exact ⟨List.mem_append_right _ (mem_headed hsplit), Or.inl hname⟩
  · intro sec hsec
    exact (worthKeeping_iff sec).mp (List.mem_filter.mp hsec).2

end Marked

/-- **Sections lose nothing, and their line numbers are exact.** A text is cut into its lines; parsers of
the language read the lines that they say; and the sections of a script that is read hold the commands at
top level, each under the number of its line, in the section of the nearest header above. -/
theorem read_sectioned :
    (∀ text, LinesOf text.toList (splitLines text)) ∧
    (∀ parser ∈ [Parser.value, Parser.expect, Parser.http], parser.Confined) ∧
    (∀ (registry : Registry) (source : String) (lines : List Line) (script : Script),
      read registry source lines = .ok script →
      script.source = source ∧ Sectioned registry lines source script.sections) := by
  refine ⟨linesOf_splitLines, ?_, ?_⟩
  · simp only [List.forall_mem_cons, List.not_mem_nil, false_implies, implies_true, and_true]
    exact ⟨Parser.confined_ofText .value, Parser.confined_ofText .expect, Parser.confined_http⟩
  · intro registry source lines script h
    obtain ⟨n, ms, hend, hms, rfl⟩ := marks_of_read h
    exact ⟨rfl, hms.sectioned hend⟩

/-- A command in front of the headers, a heredoc with what looks like a header, a header without a name
and one without commands. -/
theorem read_sectioned_nameless_header :
    let text := "VALUE 1\n# one\n// no command\nVALUE ^END\n# no header\nEND\n\n#\nMATCH 2\n# none"
    let registry : Registry := Registry.builtin
    ∃ script, read registry "order" (linesOfText text) = .ok script ∧
      script.sections.map (fun sec => (sec.name, sec.startLine, sec.commands.map (·.line)))
        = [("", 1, [1]), ("one", 2, [4]), ("", 8, [9]), ("none", 10, [])] ∧
      script.source = "order" ∧
      Sectioned registry (linesOfText text) "order" script.sections := by
  intro text registry
  have hsections : (read registry "order" (linesOfText text)).toOption.map (fun script =>
      script.sections.map fun sec => (sec.name, sec.startLine, sec.commands.map (·.line)))
        = some [("", 1, [1]), ("one", 2, [4]), ("", 8, [9]), ("none", 10, [])] := by
    decide +kernel
  cases hread : read registry "order" (linesOfText text) with
  | error failure =>
      rw [hread] at hsections
      cases hsections
  | ok script =>
      rw [hread] at hsections
      exact ⟨script, rfl, Option.some.inj hsections, read_sectioned.2.2 _ _ _ _ hread⟩

end ApiProbe.Script
