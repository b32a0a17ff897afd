import Mathlib.Data.List.TakeDrop
import ApiProbe.Proofs.Result
import ApiProbe.Script.Section

/-!
# The lines at top level

A command may read lines below it, and these are no commands or headers of their own. All other lines are
at top level. Lines are counted from zero here; their numbers in a script are counted from one.
-/

namespace ApiProbe.Script

/-- A line feed ends the line, and it has no other. -/
def EndsLine (line : String) : Prop :=
  ∃ body, '\n' ∉ body ∧ line.toList = body ++ ['\n']

/-- The lines are those of the text. The last one may lack a line feed, unless it is empty. -/
def LinesOf (text : List Char) (lines : List String) : Prop :=
  lines.flatMap (·.toList) = text ∧
    ∃ ended last, lines = ended ++ last ∧ (∀ line ∈ ended, EndsLine line) ∧
      (last = [] ∨ ∃ line, last = [line] ∧ line ≠ "" ∧ '\n' ∉ line.toList)

theorem linesOf_splitLinesFrom (line cs : List Char) (hline : '\n' ∉ line) :
    LinesOf (line.reverse ++ cs) (splitLinesFrom line cs) := by
  induction cs generalizing line with
  | nil =>
      rw [splitLinesFrom]
      split
      · rename_i hempty
        rw [List.isEmpty_iff.mp hempty]
        exact ⟨rfl, [], [], rfl, nofun, Or.inl rfl⟩
      · rename_i hempty
        refine ⟨?_, [], _, rfl, nofun, Or.inr ⟨_, rfl, ?_, ?_⟩⟩
        · rw [List.flatMap_singleton, String.toList_ofList, List.append_nil]
        · intro h
          have hnil : line.reverse = [] := by rw [← String.toList_ofList (l := line.reverse), h]; rfl
          exact hempty (by rw [List.reverse_eq_nil_iff.mp hnil]; rfl)
        · rw [String.toList_ofList, List.mem_reverse]
          exact hline
  | cons c cs ih =>
      rw [splitLinesFrom]
      split
      · rename_i hc
        obtain rfl := eq_of_beq hc
        obtain ⟨hall, ended, last, hlines, hended, hlast⟩ := ih [] nofun
        refine ⟨?_, _ :: ended, last, congrArg (_ :: ·) hlines, ?_, hlast⟩
        · rw [List.flatMap_cons, hall, String.toList_ofList, List.reverse_cons]
          simp
        · refine List.forall_mem_cons.mpr ⟨⟨line.reverse, ?_, ?_⟩, hended⟩
          · rwa [List.mem_reverse]
          · rw [String.toList_ofList, List.reverse_cons]
      · rename_i hc
        have hnew : '\n' ∉ c :: line := by
          rw [List.mem_cons, not_or]
          exact ⟨fun h => hc (beq_iff_eq.mpr h.symm), hline⟩
        have hrest := ih (c :: line) hnew
        rwa [List.reverse_cons, List.append_assoc] at hrest

theorem linesOf_splitLines (text : String) : LinesOf text.toList (splitLines text) :=
  linesOf_splitLinesFrom [] text.toList nofun

/-- Nothing but blanks, or a comment. -/
def IsSilent (raw : String) : Prop :=
  Text.trimChars raw.toList = [] ∨ ['/', '/'] <+: Text.trimChars raw.toList

def IsHeader (raw name : String) : Prop :=
  ∃ rest, Text.trimChars raw.toList = '#' :: rest ∧ name = Text.trim (String.ofList rest)

/-- A line that is neither blank nor a comment nor a header. -/
def IsCommand (raw : String) : Prop :=
  ¬ IsSilent raw ∧ ∀ name, ¬ IsHeader raw name

/-- A command line is a keyword, and what follows the first blank is its argument. -/
def Invokes (raw keyword remainder : String) : Prop :=
  IsCommand raw ∧ keyword = String.ofList ((Text.trimChars raw.toList).takeWhile (· != ' ')) ∧
    remainder = Text.trim
      (String.ofList (((Text.trimChars raw.toList).dropWhile (· != ' ')).drop 1))

section Line

variable {raw name keyword remainder : String}

theorem IsHeader.not_isSilent (h : IsHeader raw name) : ¬ IsSilent raw := by
  obtain ⟨rest, hline, -⟩ := h
  rintro (hblank | hcomment)
  · rw [hline] at hblank
    cases hblank
  · rw [hline, List.cons_prefix_cons] at hcomment
    exact absurd hcomment.1 (by decide)

theorem IsHeader.unique {name' : String} (h : IsHeader raw name) (h' : IsHeader raw name') :
    name = name' := by
  obtain ⟨rest, hline, rfl⟩ := h
  obtain ⟨rest', hline', rfl⟩ := h'
  obtain rfl : rest = rest' := (List.cons.inj (hline.symm.trans hline')).2
  rfl

theorem entry_cases (raw : String) :
    (Entry.ofLine raw = .nothing ∧ IsSilent raw) ∨
    (∃ name, Entry.ofLine raw = .header name ∧ IsHeader raw name) ∨
    (∃ keyword remainder, Entry.ofLine raw = .command keyword remainder ∧
      Invokes raw keyword remainder) := by
  unfold Entry.ofLine
  split
  · rename_i hblank
    exact Or.inl ⟨rfl, Or.inl hblank⟩
  · rename_i rest hcomment
    exact Or.inl ⟨rfl, Or.inr ⟨rest, hcomment.symm⟩⟩
  · rename_i rest hheader
    exact Or.inr (Or.inl ⟨_, rfl, rest, hheader, rfl⟩)
  · rename_i hblank hcomment hheader
    rw [List.span_eq_takeWhile_dropWhile]
    refine Or.inr (Or.inr ⟨_, _, rfl, ⟨?_, ?_⟩, rfl, rfl⟩)
    · rintro (h | ⟨rest, h⟩)
      · exact hblank h
      · exact hcomment rest h.symm
    · rintro name ⟨rest, h, -⟩
      exact hheader rest h

theorem isSilent_of_ofLine (h : Entry.ofLine raw = .nothing) : IsSilent raw := by
  rcases entry_cases raw with ⟨-, hsilent⟩ | ⟨name, hentry, -⟩ | ⟨keyword, remainder, hentry, -⟩
  · exact hsilent
  · cases h.symm.trans hentry
  · cases h.symm.trans hentry

theorem isHeader_of_ofLine (h : Entry.ofLine raw = .header name) : IsHeader raw name := by
  rcases entry_cases raw with ⟨hentry, -⟩ | ⟨name', hentry, hheader⟩ | ⟨keyword, remainder, hentry, -⟩
  · cases h.symm.trans hentry
  · obtain rfl := Entry.header.inj (h.symm.trans hentry)
    exact hheader
  · cases h.symm.trans hentry

theorem invokes_of_ofLine (h : Entry.ofLine raw = .command keyword remainder) :
    Invokes raw keyword remainder := by
  rcases entry_cases raw with ⟨hentry, -⟩ | ⟨name', hentry, -⟩ | ⟨keyword', remainder', hentry, hinvokes⟩
  · cases h.symm.trans hentry
  · cases h.symm.trans hentry
  · obtain ⟨rfl, rfl⟩ := Entry.command.inj (h.symm.trans hentry)
    exact hinvokes

theorem ofLine_of_isSilent (h : IsSilent raw) : Entry.ofLine raw = .nothing := by
  rcases entry_cases raw with ⟨hentry, -⟩ | ⟨name, -, hheader⟩ | ⟨keyword, remainder, -, hinvokes⟩
  · exact hentry
  · exact absurd h hheader.not_isSilent
  · exact absurd h hinvokes.1.1

theorem ofLine_of_isHeader (h : IsHeader raw name) :
    Entry.ofLine raw = .header name := by
  rcases entry_cases raw with ⟨-, hsilent⟩ | ⟨name', hentry, hheader⟩ | ⟨keyword, remainder, -, hinvokes⟩
  · exact absurd hsilent h.not_isSilent
  · rw [hentry, h.unique hheader]
  · exact absurd h (hinvokes.1.2 name)

/-- A keyword in front of a blank and of what follows it. -/
theorem ofLine_of_keyword {word rest : List Char} (hline : Text.trimChars raw.toList = word ++ ' ' :: rest)
    (hword : ' ' ∉ word) (hhead : ∃ c ∈ word.head?, c ≠ '#' ∧ c ≠ '/') :
    Entry.ofLine raw = .command (String.ofList word) (Text.trim (String.ofList rest)) := by
  have hkeyword (c : Char) (h : c ∈ word) : (c != ' ') = true :=
    bne_iff_ne.mpr fun heq => hword (heq ▸ h)
  have hcommand : IsCommand raw := by
    obtain ⟨c, hc, hheader, hcomment⟩ := hhead
    obtain ⟨tail, rfl⟩ := List.head?_eq_some_iff.mp hc
    unfold IsCommand IsSilent IsHeader
    rw [hline, List.cons_append, List.cons_prefix_cons]
    refine ⟨?_, ?_⟩
    · rintro (h | ⟨h, -⟩)
      · cases h
      · exact hcomment h.symm
    · rintro name ⟨after, h, -⟩
      exact hheader (List.cons.inj h).1
  rcases entry_cases raw with ⟨-, hsilent⟩ | ⟨name, -, hheader⟩ | ⟨keyword, remainder, hentry, -, rfl, rfl⟩
  · exact absurd hsilent hcommand.1
  · exact absurd hheader (hcommand.2 name)
  · rw [hentry, hline, List.takeWhile_append_of_pos hkeyword, List.dropWhile_append_of_pos hkeyword,
      List.takeWhile_cons_of_neg (by decide), List.dropWhile_cons_of_neg (by decide), List.append_nil,
      List.drop_succ_cons, List.drop_zero]

end Line

section Lines

variable (registry : Registry) (lines : List Line)

/-- The line is a command that its parser accepts, with what it takes from the lines below. -/
def Accepts (i : Nat) (taken : Taken Command) : Prop :=
  ∃ raw keyword remainder parser, lines[i]? = some (.ok raw) ∧ Invokes raw keyword remainder ∧
    registry.get? keyword = some parser ∧ parser remainder (lines.drop (i + 1)) = .ok taken

/-- The line is a command with a keyword that is unknown, or one that its parser rejects, with what is
reported of it. -/
def Rejects (source : String) (i : Nat) (failure : Failure) : Prop :=
  ∃ raw keyword remainder, lines[i]? = some (.ok raw) ∧ Invokes raw keyword remainder ∧
    ((registry.get? keyword = none ∧
        failure = .problem (.unknownCommand keyword (some source) (i + 1 : Nat))) ∨
      ∃ parser cause, registry.get? keyword = some parser ∧
        parser remainder (lines.drop (i + 1)) = .error cause ∧
        failure = reportParse source keyword (i + 1) cause)

/-- A line is at top level unless a command at top level above it has taken it. -/
def TopLevel (i : Nat) : Prop :=
  ∀ j, j < i → TopLevel j → ∀ taken, Accepts registry lines j taken → j + taken.count < i

/-- The line at top level is a command. -/
def CommandAt (i : Nat) : Prop :=
  TopLevel registry lines i ∧ ∃ raw, lines[i]? = some (.ok raw) ∧ IsCommand raw

/-- The line at top level is a header. -/
def HeaderAt (i : Nat) (name : String) : Prop :=
  TopLevel registry lines i ∧ ∃ raw, lines[i]? = some (.ok raw) ∧ IsHeader raw name

end Lines

/-- A header or a command, with its line. -/
inductive Mark where
  | header (name : String) (line : Nat)
  | command (c : LocatedCommand)

namespace Mark

def line : Mark → Nat
  | header _ line => line
  | command c => c.line

def command? : Mark → Option LocatedCommand
  | header .. => none
  | command c => some c

end Mark

section Marks

variable {registry : Registry} {lines : List Line} {source : String}

theorem topLevel_zero : TopLevel registry lines 0 := by
  rw [TopLevel]
  exact fun j hj => absurd hj j.not_lt_zero

theorem Accepts.unique {i : Nat} {taken taken' : Taken Command}
    (h : Accepts registry lines i taken) (h' : Accepts registry lines i taken') :
    taken = taken' := by
  obtain ⟨raw, keyword, remainder, parser, hline, ⟨-, rfl, rfl⟩, hparser, htaken⟩ := h
  obtain ⟨raw', keyword', remainder', parser', hline', ⟨-, rfl, rfl⟩, hparser', htaken'⟩ := h'
  obtain rfl := Except.ok.inj (Option.some.inj (hline.symm.trans hline'))
  obtain rfl := Option.some.inj (hparser.symm.trans hparser')
  exact Except.ok.inj (htaken.symm.trans htaken')

/-- The next line at top level is the one behind what the command has taken. -/
theorem TopLevel.after {i : Nat} {taken : Taken Command} (h : TopLevel registry lines i)
    (haccepts : Accepts registry lines i taken) : TopLevel registry lines (i + 1 + taken.count) := by
  rw [TopLevel]
  intro j hj hjtop taken' htaken'
  rcases Nat.lt_trichotomy j i with hlt | rfl | hgt
  · rw [TopLevel] at h
    have := h j hlt hjtop taken' htaken'
    omega
  · obtain rfl := haccepts.unique htaken'
    omega
  · rw [TopLevel] at hjtop
    have := hjtop i hgt h taken haccepts
    omega

/-- Below a line that is no command the next is at top level. -/
theorem TopLevel.succ {i : Nat} {raw : String} (h : TopLevel registry lines i)
    (hline : lines[i]? = some (.ok raw)) (hraw : ¬ IsCommand raw) :
    TopLevel registry lines (i + 1) := by
  rw [TopLevel]
  intro j hj hjtop taken htaken
  rcases Nat.lt_succ_iff_lt_or_eq.mp hj with hlt | rfl
  · rw [TopLevel] at h
    have := h j hlt hjtop taken htaken
    omega
  · obtain ⟨raw', keyword, remainder, parser, hline', ⟨hcommand, -⟩, -⟩ := htaken
    obtain rfl := Except.ok.inj (Option.some.inj (hline.symm.trans hline'))
    exact absurd hcommand hraw

variable (registry lines source)

/-- The headers and commands from a line up to another, read one after the other. -/
inductive Marks : Nat → Nat → List Mark → Prop
  | nil {k : Nat} : Marks k k []
  | silent {k n : Nat} {raw : String} {ms : List Mark} (hline : lines[k]? = some (.ok raw))
      (hraw : IsSilent raw) (hrest : Marks (k + 1) n ms) : Marks k n ms
  | header {k n : Nat} {raw name : String} {ms : List Mark} (hline : lines[k]? = some (.ok raw))
      (hraw : IsHeader raw name) (hrest : Marks (k + 1) n ms) :
      Marks k n (.header name (k + 1) :: ms)
  | command {k n : Nat} {taken : Taken Command} {ms : List Mark}
      (haccepts : Accepts registry lines k taken) (hrest : Marks (k + 1 + taken.count) n ms) :
      Marks k n (.command ⟨taken.result, source, k + 1⟩ :: ms)

/-- What a mark says of its line is true. -/
inductive Mark.Holds : Mark → Prop
  | header {i : Nat} {name : String} (h : HeaderAt registry lines i name) :
      Mark.Holds (.header name (i + 1))
  | command {i : Nat} {taken : Taken Command} (htop : TopLevel registry lines i)
      (haccepts : Accepts registry lines i taken) :
      Mark.Holds (.command ⟨taken.result, source, i + 1⟩)

variable {registry lines source} {k n : Nat} {ms : List Mark}

theorem Marks.topLevel (h : Marks registry lines source k n ms) (hk : TopLevel registry lines k) :
    TopLevel registry lines n := by
  induction h with
  | nil => exact hk
  | silent hline hraw _ ih =>
      exact ih (hk.succ hline fun hcommand => hcommand.1 hraw)
  | header hline hraw _ ih =>
      exact ih (hk.succ hline fun hcommand => hcommand.2 _ hraw)
  | command haccepts _ ih => exact ih (hk.after haccepts)

theorem Marks.lt_line (h : Marks registry lines source k n ms) : ∀ m ∈ ms, k < m.line := by
  induction h with
  | nil => exact nofun
  | silent _ _ _ ih => exact fun m hm => Nat.lt_of_succ_lt (ih m hm)
  | header _ _ _ ih =>
      rw [List.forall_mem_cons]
      exact ⟨Nat.lt_succ_self _, fun m hm => Nat.lt_of_succ_lt (ih m hm)⟩
  | command _ _ ih =>
      rw [List.forall_mem_cons]
      refine ⟨Nat.lt_succ_self _, fun m hm => ?_⟩
      have := ih m hm
      omega

/-- Marks stand in the order of their lines. -/
theorem Marks.pairwise (h : Marks registry lines source k n ms) :
    ms.Pairwise (·.line < ·.line) := by
  induction h with
  | nil => exact .nil
  | silent _ _ _ ih => exact ih
  | header _ _ hrest ih => exact List.pairwise_cons.mpr ⟨hrest.lt_line, ih⟩
  | @command k _ _ _ _ hrest ih =>
      refine List.pairwise_cons.mpr ⟨fun m hm => ?_, ih⟩
      have := hrest.lt_line m hm
      change k + 1 < m.line
      omega

theorem Marks.holds (h : Marks registry lines source k n ms) (hk : TopLevel registry lines k) :
    ∀ m ∈ ms, m.Holds registry lines source := by
  induction h with
  | nil => exact nofun
  | silent hline hraw _ ih =>
      exact ih (hk.succ hline fun hcommand => hcommand.1 hraw)
  | header hline hraw _ ih =>
      have hrest := ih (hk.succ hline fun hcommand => hcommand.2 _ hraw)
      exact List.forall_mem_cons.mpr ⟨.header ⟨hk, _, hline, hraw⟩, hrest⟩
  | command haccepts _ ih =>
      exact List.forall_mem_cons.mpr ⟨.command hk haccepts, ih (hk.after haccepts)⟩

/-- A line at top level that is passed is silent, or there is a mark of it. -/
theorem Marks.complete (h : Marks registry lines source k n ms) (hk : TopLevel registry lines k)
    {i : Nat} (hki : k ≤ i) (hin : i < n) (hi : TopLevel registry lines i) :
    (∃ raw, lines[i]? = some (.ok raw) ∧ IsSilent raw) ∨ ∃ m ∈ ms, m.line = i + 1 := by
  induction h with
  | nil => omega
  | silent hline hraw _ ih =>
      rcases Nat.eq_or_lt_of_le hki with rfl | hlt
      · exact Or.inl ⟨_, hline, hraw⟩
      · exact ih (hk.succ hline fun hcommand => hcommand.1 hraw) hlt hin
  | header hline hraw _ ih =>
      rcases Nat.eq_or_lt_of_le hki with rfl | hlt
      · exact Or.inr ⟨_, List.mem_cons_self, rfl⟩
      · rcases ih (hk.succ hline fun hcommand => hcommand.2 _ hraw) hlt hin
          with hsilent | ⟨m, hm, hmline⟩
        · exact Or.inl hsilent
        · exact Or.inr ⟨m, List.mem_cons_of_mem _ hm, hmline⟩
  | @command k _ taken _ haccepts _ ih =>
      rcases Nat.eq_or_lt_of_le hki with rfl | hlt
      · exact Or.inr ⟨_, List.mem_cons_self, rfl⟩
      · -- A line that the command has taken is not at top level.
        have hbehind : k + 1 + taken.count ≤ i := by
          rw [TopLevel] at hi
          have := hi k hlt hk taken haccepts
          omega
        rcases ih (hk.after haccepts) hbehind hin with hsilent | ⟨m, hm, hmline⟩
        · exact Or.inl hsilent
        · exact Or.inr ⟨m, List.mem_cons_of_mem _ hm, hmline⟩

end Marks

end ApiProbe.Script
