import ApiProbe.Proofs.Script.Layout

/-!
# Scripts with heredocs are read back

In the body of a heredoc nothing is a header, a comment or a command, and every line of it is kept. So the
sections and commands that are written are those that are read.
-/

namespace ApiProbe.Script

/-- Blanks around the line would not be read, and a line feed would end it. -/
structure IsLine (line : String) : Prop where
  trimmed : Text.trim line = line
  unbroken : '\n' ∉ line.toList

instance (line : String) : Decidable (IsLine line) :=
  decidable_of_iff (Text.trim line = line ∧ '\n' ∉ line.toList)
    ⟨fun h => ⟨h.1, h.2⟩, fun h => ⟨h.1, h.2⟩⟩

theorem isLine_append {front line : String} (hfront : ∃ c ∈ front.toList.head?, Text.isBlank c = false)
    (hunbroken : '\n' ∉ front.toList) (hline : IsLine line) (hne : line ≠ "") :
    IsLine (front ++ line) := by
  constructor
  · rw [Text.trim, ← String.toList_inj, String.toList_ofList, String.toList_append]
    exact Text.trimChars_append_eq_self hfront (Text.exists_ends_of_trim hline.trimmed hne).2
  · rw [String.toList_append, List.mem_append, not_or]
    exact ⟨hunbroken, hline.unbroken⟩

/-- The text of lines each of which is ended. -/
def textOf (lines : List String) : String :=
  String.join (lines.map (· ++ "\n"))

theorem map_trim_splitLines_textOf {lines : List String} (h : ∀ line ∈ lines, IsLine line) :
    (splitLines (textOf lines)).map Text.trim = lines := by
  induction lines with
  | nil => rfl
  | cons line lines ih =>
      rw [List.forall_mem_cons] at h
      rw [textOf, List.map_cons, String.join_cons, ← textOf, splitLines_cons h.1.unbroken,
        List.map_cons, Text.trim_append_lineFeed, h.1.trimmed, ih h.2]

/-- The last line need not be ended if it is not empty. -/
theorem map_trim_splitLines_intercalate {lines : List String} (h : ∀ line ∈ lines, IsLine line)
    (hlast : ∀ line ∈ lines.getLast?, line ≠ "") :
    (splitLines ("\n".intercalate lines)).map Text.trim = lines := by
  induction lines with
  | nil => rfl
  | cons line lines ih =>
      rw [List.forall_mem_cons] at h
      cases lines with
      | nil =>
          rw [String.intercalate_singleton, splitLines_singleton h.1.unbroken (hlast line rfl),
            List.map_singleton, h.1.trimmed]
      | cons next lines =>
          rw [String.intercalate_cons_cons, splitLines_cons h.1.unbroken, List.map_cons,
            Text.trim_append_lineFeed, h.1.trimmed, ih h.2 hlast]

/-- The keywords of the language. -/
inductive Keyword where
  | value
  | expect

namespace Keyword

def text : Keyword → String
  | value => "VALUE"
  | expect => "MATCH"

def command : Keyword → String → Command
  | value => .value
  | expect => .expect

end Keyword

/-- A command with a heredoc that its terminator closes and no line of its body does. -/
structure Heredoc where
  keyword : Keyword
  body : List String
  terminator : String
  isLine_body : ∀ line ∈ body, IsLine line
  isLine_terminator : IsLine terminator
  terminator_ne : terminator ≠ ""
  terminator_notMem : terminator ∉ body

namespace Heredoc

def keywordLine (h : Heredoc) : String :=
  h.keyword.text ++ " ^" ++ h.terminator

def lines (h : Heredoc) : List String :=
  h.keywordLine :: (h.body ++ [h.terminator])

def command (h : Heredoc) : Command :=
  h.keyword.command ("\n".intercalate h.body)

/-- The commands of heredocs that stand one below the other from a line on. -/
def located (source : String) (number : Nat) : List Heredoc → List LocatedCommand
  | [] => []
  | h :: hs => ⟨h.command, source, number⟩ :: located source (number + h.lines.length) hs

end Heredoc

/-- A section of commands with heredocs. -/
structure Chapter where
  name : String
  heredocs : List Heredoc
  isLine_name : IsLine name
  name_ne : name ≠ ""

namespace Chapter

def lines (chapter : Chapter) : List String :=
  ("# " ++ chapter.name) :: chapter.heredocs.flatMap (·.lines)

/-- The sections of chapters that stand one below the other from a line on. -/
def sections (source : String) (number : Nat) : List Chapter → List Section
  | [] => []
  | chapter :: chapters =>
    ⟨chapter.name, number, Heredoc.located source (number + 1) chapter.heredocs⟩ ::
      sections source (number + chapter.lines.length) chapters

end Chapter

theorem Heredoc.isLine_keywordLine (h : Heredoc) : IsLine h.keywordLine := by
  apply isLine_append ?_ ?_ h.isLine_terminator h.terminator_ne
  · cases h.keyword <;> exact ⟨_, rfl, rfl⟩
  · cases h.keyword <;> decide

theorem Heredoc.isLine_of_mem (h : Heredoc) : ∀ line ∈ h.lines, IsLine line := by
  rw [lines, List.forall_mem_cons, List.forall_mem_append, List.forall_mem_singleton]
  exact ⟨h.isLine_keywordLine, h.isLine_body, h.isLine_terminator⟩

theorem Chapter.isLine_header (chapter : Chapter) : IsLine ("# " ++ chapter.name) :=
  isLine_append ⟨'#', rfl, rfl⟩ (by decide) chapter.isLine_name chapter.name_ne

theorem Chapter.isLine_of_mem (chapter : Chapter) : ∀ line ∈ chapter.lines, IsLine line := by
  rw [lines, List.forall_mem_cons]
  refine ⟨chapter.isLine_header, fun line hline => ?_⟩
  obtain ⟨h, -, hline⟩ := List.mem_flatMap.mp hline
  exact h.isLine_of_mem line hline

/-- A chapter ends with its header or with a terminator. -/
theorem Chapter.getLast?_ne (chapter : Chapter) {line : String}
    (h : chapter.lines.getLast? = some line) : line ≠ "" := by
  have hheader : "# " ++ chapter.name ≠ "" := by
    rw [← String.toList_inj.ne, String.toList_append]
    exact List.cons_ne_nil _ _
  rw [lines, List.getLast?_cons, List.getLast?_flatMap] at h
  cases hlast : List.findSome? (fun h : Heredoc => h.lines.getLast?) chapter.heredocs.reverse with
  | none =>
      rw [hlast] at h
      obtain rfl := Option.some.inj h
      exact hheader
  | some last =>
      rw [hlast] at h
      obtain rfl := Option.some.inj h
      obtain ⟨heredoc, -, hclosing⟩ := List.exists_of_findSome?_eq_some hlast
      rw [Heredoc.lines, ← List.cons_append, List.getLast?_concat] at hclosing
      obtain rfl := Option.some.inj hclosing
      exact heredoc.terminator_ne

section Chapters

variable {chapters : List Chapter}

theorem isLine_of_mem_chapters : ∀ line ∈ chapters.flatMap (·.lines), IsLine line := by
  intro line hline
  obtain ⟨chapter, -, hline⟩ := List.mem_flatMap.mp hline
  exact chapter.isLine_of_mem line hline

theorem getLast?_chapters_ne : ∀ line ∈ (chapters.flatMap (·.lines)).getLast?, line ≠ "" := by
  intro line hline
  rw [Option.mem_def, List.getLast?_flatMap] at hline
  obtain ⟨chapter, -, hline⟩ := List.exists_of_findSome?_eq_some hline
  exact chapter.getLast?_ne hline

end Chapters

theorem ofLine_header {raw name : String} (hname : IsLine name) (hraw : Text.trim raw = "# " ++ name) :
    Entry.ofLine raw = .header name := by
  apply ofLine_of_isHeader
  refine ⟨' ' :: name.toList, ?_, ?_⟩
  · rw [← Text.toList_trim, hraw, String.toList_append]
    rfl
  · rw [Text.trim, String.toList_ofList, Text.trimChars_cons_blank rfl, ← Text.trim, hname.trimmed]

theorem ofLine_keywordLine {raw : String} {h : Heredoc} (hraw : Text.trim raw = h.keywordLine) :
    Entry.ofLine raw = .command h.keyword.text ("^" ++ h.terminator) := by
  have hmark : IsLine ("^" ++ h.terminator) :=
    isLine_append ⟨'^', rfl, rfl⟩ (by decide) h.isLine_terminator h.terminator_ne
  have hline : Text.trimChars raw.toList
      = h.keyword.text.toList ++ ' ' :: ("^" ++ h.terminator).toList := by
    rw [← Text.toList_trim, hraw, Heredoc.keywordLine, String.toList_append, String.toList_append,
      String.toList_append, List.append_assoc]
    rfl
  have hentry := ofLine_of_keyword hline (by cases h.keyword <;> decide)
    (by cases h.keyword <;> exact ⟨_, rfl, by decide⟩)
  rwa [String.ofList_toList, String.ofList_toList, hmark.trimmed] at hentry

theorem announces_mark {terminator : String} (h : Text.trim terminator = terminator)
    (hne : terminator ≠ "") : Announces ("^" ++ terminator) terminator := by
  refine ⟨terminator.toList, String.toList_append, ?_, hne⟩
  rw [String.ofList_toList, h]

theorem ofText_heredoc (h : Heredoc) {lines : List Line}
    (hlines : lines.map trimLine = (h.body ++ [h.terminator]).map .ok) (others : List Line) :
    Parser.ofText h.keyword.command ("^" ++ h.terminator) (lines ++ others)
      = .ok ⟨h.command, lines.length⟩ := by
  obtain ⟨hstarts, hterminator⟩ := announces_iff.mp
    (announces_mark h.isLine_terminator.trimmed h.terminator_ne)
  rw [Parser.ofText, takePayload, if_pos hstarts, hterminator]
  dsimp only [Bind.bind, Except.bind]
  rw [takeUntil_of_trimLine h.terminator_notMem hlines]
  rfl

/-- A section with a name is kept. -/
theorem kept_chapter (chapter : Chapter) (number : Nat) (commands : List LocatedCommand) :
    Section.kept (some ⟨chapter.name, number, commands⟩) = [⟨chapter.name, number, commands⟩] := by
  apply if_pos
  rw [Section.worthKeeping, Bool.or_eq_true, Bool.not_eq_true', Bool.not_eq_true']
  exact Or.inr (Bool.eq_false_iff.mpr (mt String.isEmpty_iff.mp chapter.name_ne))

section Read

variable {registry : Registry} {source : String} {number : Nat} {lines : List Line}
  (hknown : ∀ keyword : Keyword, registry.get? keyword.text = some (Parser.ofText keyword.command))
include hknown

theorem readSections_heredoc {sec : Section} {h : Heredoc}
    (hlines : lines.map trimLine = h.lines.map .ok) (others : List Line) :
    readSections registry source number (some sec) (lines ++ others)
      = readSections registry source (number + h.lines.length)
          (some (sec.addCommand ⟨h.command, source, number⟩)) others := by
  have hlength := congrArg List.length hlines
  rw [List.length_map, List.length_map] at hlength
  obtain ⟨line, below, rfl, hline, hbelow⟩ := List.map_eq_cons_iff.mp hlines
  obtain ⟨raw, rfl, hraw⟩ := map_eq_ok_iff.mp hline
  rw [List.cons_append, readSections_accepted (ofLine_keywordLine hraw) (hknown h.keyword)
    (ofText_heredoc h hbelow others), List.drop_left, ← hlength, List.length_cons, Nat.add_assoc,
    Nat.add_comm 1]
  rfl

/-- Commands with heredocs are added to the section that is open, and reading goes on below them. -/
theorem readSections_heredocs {sec : Section} {hs : List Heredoc}
    (hlines : lines.map trimLine = (hs.flatMap (·.lines)).map .ok) (others : List Line) :
    readSections registry source number (some sec) (lines ++ others)
      = readSections registry source (number + (hs.flatMap (·.lines)).length)
          (some { sec with commands := sec.commands ++ Heredoc.located source number hs }) others := by
  induction hs generalizing number sec lines with
  | nil =>
      obtain rfl := List.map_eq_nil_iff.mp hlines
      rw [Heredoc.located, List.append_nil]
      rfl
  | cons h hs ih =>
      rw [List.flatMap_cons, List.map_append] at hlines
      obtain ⟨first, later, rfl, hfirst, hlater⟩ := List.map_eq_append_iff.mp hlines
      -- The first command takes its own lines and no more, so the next keyword is read at top level.
      rw [List.append_assoc, readSections_heredoc hknown hfirst, ih hlater, List.flatMap_cons,
        List.length_append, Nat.add_assoc, Section.addCommand, List.append_assoc, Heredoc.located,
        List.singleton_append]

theorem readSections_chapters {current : Option Section} {chapters : List Chapter}
    (hlines : lines.map trimLine = (chapters.flatMap (·.lines)).map .ok) :
    readSections registry source number current lines
      = .ok (Section.kept current ++ Chapter.sections source number chapters) := by
  induction chapters generalizing number current lines with
  | nil =>
      obtain rfl := List.map_eq_nil_iff.mp hlines
      rw [Chapter.sections, List.append_nil, readSections]
  | cons chapter chapters ih =>
      rw [List.flatMap_cons, List.map_append] at hlines
      obtain ⟨first, later, rfl, hfirst, hlater⟩ := List.map_eq_append_iff.mp hlines
      obtain ⟨line, below, rfl, hline, hbelow⟩ := List.map_eq_cons_iff.mp hfirst
      obtain ⟨raw, rfl, hraw⟩ := map_eq_ok_iff.mp hline
      rw [List.cons_append, readSections_header (ofLine_header chapter.isLine_name hraw),
        readSections_heredocs hknown hbelow, ih hlater, kept_chapter, Chapter.sections, Chapter.lines,
        List.length_cons, Nat.add_assoc, Nat.add_comm 1]
      rfl

end Read

/-- **Scripts with heredocs are read back.** Where the keywords have the parsers of the language, the text of
sections of commands with heredocs is read as these, whatever their bodies look like, each command at the
line of its keyword. The last line may lack a line feed. -/
theorem read_heredocs (registry : Registry) (hvalue : registry.get? "VALUE" = some .value)
    (hexpect : registry.get? "MATCH" = some .expect) (source : String) (chapters : List Chapter) :
    let lines := chapters.flatMap (·.lines)
    let script : Script := ⟨source, Chapter.sections source 1 chapters⟩
    read registry source (linesOfText (textOf lines)) = .ok script ∧
      read registry source (linesOfText ("\n".intercalate lines)) = .ok script := by
  intro lines script
  have hknown (keyword : Keyword) :
      registry.get? keyword.text = some (Parser.ofText keyword.command) := by
    cases keyword with
    | value => exact hvalue
    | expect => exact hexpect
  have hread {text : String} (htext : (splitLines text).map Text.trim = lines) :
      read registry source (linesOfText text) = .ok script := by
    have hlines := map_trimLine_linesOfText text
    rw [htext] at hlines
    rw [read, readSections_chapters hknown hlines]
    rfl
  exact ⟨hread (map_trim_splitLines_textOf isLine_of_mem_chapters),
    hread (map_trim_splitLines_intercalate isLine_of_mem_chapters getLast?_chapters_ne)⟩

/-- A body with what looks like a header, a comment, a command and another terminator. -/
theorem read_heredocs_header_in_body :
    let registry : Registry := Engine.registry { parsers := Registry.common }
    let body := ["", "# two", "// MATCH ^END", "VALUE ^END", "END OF ORDER", ""]
    let value : Heredoc :=
      ⟨.value, body, "END", by decide +kernel, by decide +kernel, by decide, by decide⟩
    let expect : Heredoc :=
      ⟨.expect, ["END"], "END OF ORDER", by decide +kernel, by decide +kernel, by decide, by decide⟩
    let chapters : List Chapter :=
      [⟨"# one", [value, expect], by decide +kernel, by decide⟩, ⟨"//", [], by decide +kernel, by decide⟩]
    let text := "# # one\nVALUE ^END\n\n# two\n// MATCH ^END\nVALUE ^END\nEND OF ORDER\n\nEND\n"
      ++ "MATCH ^END OF ORDER\nEND\nEND OF ORDER\n# //"
    registry.get? "VALUE" = some .value ∧ registry.get? "MATCH" = some .expect ∧
      "\n".intercalate (chapters.flatMap (·.lines)) = text ∧
      read registry "order" (linesOfText text) = .ok ⟨"order",
        [⟨"# one", 1, [
            ⟨.value "\n# two\n// MATCH ^END\nVALUE ^END\nEND OF ORDER\n", "order", 2⟩,
            ⟨.expect "END", "order", 10⟩]⟩,
          ⟨"//", 13, []⟩]⟩ := by
  intro registry body value expect chapters text
  have htext : "\n".intercalate (chapters.flatMap (·.lines)) = text := by decide +kernel
  have hread := (read_heredocs registry rfl rfl "order" chapters).2
  rw [htext] at hread
  refine ⟨rfl, rfl, htext, hread.trans ?_⟩
  have hbody : "\n".intercalate body = "\n# two\n// MATCH ^END\nVALUE ^END\nEND OF ORDER\n" := by
    decide +kernel
  rw [← hbody]
  rfl

end ApiProbe.Script
