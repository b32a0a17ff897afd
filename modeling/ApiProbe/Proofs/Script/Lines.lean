import Mathlib.Data.List.DropRight
import ApiProbe.Proofs.Script.TopLevel

/-!
# Lines and what trimming leaves of them

Texts joined at a line feed have the lines of both. Trimming a second time changes nothing, so the text of
all trimmed lines has lines with the same trimmed forms.
-/

namespace ApiProbe

namespace Text

theorem trimEndChars_eq (cs : List Char) : trimEndChars cs = cs.rdropWhile isBlank := rfl

theorem trimEndChars_append_blank {c : Char} (hc : isBlank c = true) (cs : List Char) :
    trimEndChars (cs ++ [c]) = trimEndChars cs := by
  rw [trimEndChars_eq, trimEndChars_eq, List.rdropWhile_concat_pos _ _ _ hc]

theorem trimChars_append_blank {c : Char} (hc : isBlank c = true) (cs : List Char) :
    trimChars (cs ++ [c]) = trimChars cs := by
  unfold trimChars trimStartChars
  rw [List.dropWhile_append]
  split
  · rename_i hblank
    rw [List.isEmpty_iff.mp hblank, List.dropWhile_cons_of_pos hc, List.dropWhile_nil]
  · exact trimEndChars_append_blank hc _

/-- What trimming leaves does not start with a blank. -/
theorem trimStartChars_trimChars (cs : List Char) : trimStartChars (trimChars cs) = trimChars cs := by
  have hkept : trimChars cs <+: cs.dropWhile isBlank := List.rdropWhile_prefix _ _
  unfold trimStartChars
  rw [List.dropWhile_eq_self_iff]
  intro hlength
  rw [hkept.getElem hlength]
  exact List.dropWhile_get_zero_not isBlank cs _

theorem trimChars_trimChars (cs : List Char) : trimChars (trimChars cs) = trimChars cs := by
  conv_lhs => rw [trimChars, trimStartChars_trimChars]
  exact List.rdropWhile_idempotent _ _

theorem trimChars_sublist (cs : List Char) : (trimChars cs).Sublist cs := by
  have hkept : trimChars cs <+: cs.dropWhile isBlank := List.rdropWhile_prefix _ _
  exact hkept.sublist.trans (List.dropWhile_sublist _)

theorem trimChars_cons_blank {c : Char} (hc : isBlank c = true) (cs : List Char) :
    trimChars (c :: cs) = trimChars cs := by
  rw [trimChars, trimStartChars, List.dropWhile_cons_of_pos hc, ← trimStartChars, ← trimChars]

theorem trimStartChars_eq_self_iff {cs : List Char} :
    trimStartChars cs = cs ↔ ∀ c ∈ cs.head?, isBlank c = false := by
  unfold trimStartChars
  rw [List.dropWhile_eq_self_iff]
  cases cs <;> simp

theorem trimEndChars_eq_self_iff {cs : List Char} :
    trimEndChars cs = cs ↔ ∀ c ∈ cs.getLast?, isBlank c = false := by
  rw [trimEndChars_eq, List.rdropWhile_eq_self_iff]
  cases cs with
  | nil => simp
  | cons c cs =>
      rw [List.getLast?_eq_some_getLast (List.cons_ne_nil c cs)]
      simp

/-- Nothing is trimmed where there is no blank at either end. -/
theorem trimChars_eq_self_iff {cs : List Char} :
    trimChars cs = cs ↔
      (∀ c ∈ cs.head?, isBlank c = false) ∧ ∀ c ∈ cs.getLast?, isBlank c = false := by
  rw [← trimStartChars_eq_self_iff, ← trimEndChars_eq_self_iff]
  constructor
  · intro h
    have hstart : trimStartChars cs = cs := by
      rw [← h, trimStartChars_trimChars]
    rw [trimChars, hstart] at h
    exact ⟨hstart, h⟩
  · rintro ⟨hstart, hend⟩
    rw [trimChars, hstart, hend]

theorem trimChars_append_eq_self {front back : List Char}
    (hfront : ∃ c ∈ front.head?, isBlank c = false) (hback : ∃ c ∈ back.getLast?, isBlank c = false) :
    trimChars (front ++ back) = front ++ back := by
  obtain ⟨c, hc, hblank⟩ := hfront
  obtain ⟨d, hd, hblank'⟩ := hback
  rw [trimChars_eq_self_iff, List.head?_append, Option.mem_def.mp hc, List.getLast?_append,
    Option.mem_def.mp hd]
  exact ⟨fun _ hfirst => Option.some.inj hfirst ▸ hblank, fun _ hlast => Option.some.inj hlast ▸ hblank'⟩

theorem toList_trim (s : String) : (trim s).toList = trimChars s.toList :=
  String.toList_ofList

/-- A trimmed text that is not empty begins and ends with no blank. -/
theorem exists_ends_of_trim {s : String} (h : trim s = s) (hne : s ≠ "") :
    (∃ c ∈ s.toList.head?, isBlank c = false) ∧ ∃ c ∈ s.toList.getLast?, isBlank c = false := by
  have hnil : s.toList ≠ [] := mt String.toList_eq_nil_iff.mp hne
  rw [← String.toList_inj, toList_trim, trimChars_eq_self_iff] at h
  exact ⟨⟨_, List.head?_eq_some_head hnil, h.1 _ (List.head?_eq_some_head hnil)⟩,
    ⟨_, List.getLast?_eq_some_getLast hnil, h.2 _ (List.getLast?_eq_some_getLast hnil)⟩⟩

theorem trim_trim (s : String) : trim (trim s) = trim s := by
  rw [trim, toList_trim, trimChars_trimChars, trim]

theorem trim_append_lineFeed (s : String) : trim (s ++ "\n") = trim s := by
  have hfeed : "\n".toList = ['\n'] := rfl
  rw [trim, String.toList_append, hfeed, trimChars_append_blank rfl, trim]

end Text

namespace Script

theorem splitLinesFrom_append_lineFeed (line cs rest : List Char) :
    splitLinesFrom line (cs ++ '\n' :: rest)
      = splitLinesFrom line (cs ++ ['\n']) ++ splitLinesFrom [] rest := by
  induction cs generalizing line with
  | nil => rfl
  | cons c cs ih =>
      rw [List.cons_append, List.cons_append, splitLinesFrom, splitLinesFrom]
      split
      · rw [ih, List.cons_append]
      · exact ih (c :: line)

/-- A text that is empty or ends with a line feed. -/
def IsEnded (text : String) : Prop :=
  text = "" ∨ text.toList.getLast? = some '\n'

theorem splitLines_append {first : String} (h : IsEnded first) (second : String) :
    splitLines (first ++ second) = splitLines first ++ splitLines second := by
  rcases h with rfl | hlast
  · rw [String.empty_append]
    rfl
  · obtain ⟨cs, hcs⟩ := List.getLast?_eq_some_iff.mp hlast
    unfold splitLines
    rw [String.toList_append, hcs, List.append_assoc, List.singleton_append]
    exact splitLinesFrom_append_lineFeed [] cs second.toList

theorem linesOfText_append {first : String} (h : IsEnded first) (second : String) :
    linesOfText (first ++ second) = linesOfText first ++ linesOfText second := by
  unfold linesOfText
  rw [splitLines_append h, List.map_append]

/-- The text in which each line is its trimmed form and a line feed. -/
def trimmedText (text : String) : String :=
  String.ofList ((splitLines text).flatMap fun line => (Text.trim line).toList ++ ['\n'])

theorem splitLinesFrom_of_notMem {body : List Char} (hbody : '\n' ∉ body) (line rest : List Char) :
    splitLinesFrom line (body ++ '\n' :: rest)
      = String.ofList (line.reverse ++ body ++ ['\n']) :: splitLinesFrom [] rest := by
  induction body generalizing line with
  | nil =>
      rw [List.nil_append, splitLinesFrom, if_pos (beq_self_eq_true '\n')]
      simp
  | cons c body ih =>
      rw [List.mem_cons, not_or] at hbody
      rw [List.cons_append, splitLinesFrom, if_neg (by simpa using Ne.symm hbody.1), ih hbody.2]
      simp

theorem splitLines_flatMap {bodies : List (List Char)} (h : ∀ body ∈ bodies, '\n' ∉ body) :
    splitLines (String.ofList (bodies.flatMap (· ++ ['\n'])))
      = bodies.map fun body => String.ofList (body ++ ['\n']) := by
  unfold splitLines
  rw [String.toList_ofList]
  induction bodies with
  | nil => rfl
  | cons body bodies ih =>
      rw [List.forall_mem_cons] at h
      rw [List.flatMap_cons, List.append_assoc, List.singleton_append,
        splitLinesFrom_of_notMem h.1, ih h.2]
      rfl

theorem splitLines_cons {line : String} (h : '\n' ∉ line.toList) (rest : String) :
    splitLines (line ++ "\n" ++ rest) = (line ++ "\n") :: splitLines rest := by
  have hfeed : "\n".toList = ['\n'] := rfl
  unfold splitLines
  rw [String.toList_append, String.toList_append, hfeed, List.append_assoc, List.singleton_append,
    splitLinesFrom_of_notMem h, List.reverse_nil, List.nil_append, ← hfeed, ← String.toList_append,
    String.ofList_toList]

theorem splitLines_singleton {line : String} (h : '\n' ∉ line.toList) (hne : line ≠ "") :
    splitLines line = [line] := by
  obtain ⟨hall, ended, last, hlines, hended, hlast⟩ := linesOf_splitLines line
  rw [← hall, hlines, List.flatMap_append, List.mem_append, not_or] at h
  obtain rfl : ended = [] := by
    refine List.eq_nil_iff_forall_not_mem.mpr fun first hfirst => ?_
    obtain ⟨body, -, hbody⟩ := hended first hfirst
    refine h.1 (List.mem_flatMap.mpr ⟨first, hfirst, ?_⟩)
    rw [hbody]
    exact List.mem_append_right body List.mem_cons_self
  rw [hlines, List.nil_append] at hall ⊢
  rcases hlast with rfl | ⟨only, rfl, -⟩
  · exact absurd (String.toList_eq_nil_iff.mp hall.symm) hne
  · rw [List.flatMap_singleton] at hall
    rw [String.toList_inj.mp hall]

/-- A line feed is at the end of a line or nowhere, so the trimmed line has none. -/
theorem notMem_trimChars_of_mem_splitLines {text line : String} (h : line ∈ splitLines text) :
    '\n' ∉ Text.trimChars line.toList := by
  obtain ⟨-, ended, last, hlines, hended, hlast⟩ := linesOf_splitLines text
  rw [hlines, List.mem_append] at h
  rcases h with h | h
  · obtain ⟨body, hbody, hline⟩ := hended line h
    rw [hline, Text.trimChars_append_blank rfl]
    exact fun hmem => hbody ((Text.trimChars_sublist body).mem hmem)
  · rcases hlast with rfl | ⟨_, rfl, -, hnone⟩
    · cases h
    · obtain rfl := List.mem_singleton.mp h
      exact fun hmem => hnone ((Text.trimChars_sublist _).mem hmem)

theorem map_trim_splitLines_trimmedText (text : String) :
    (splitLines (trimmedText text)).map Text.trim = (splitLines text).map Text.trim := by
  have htext : trimmedText text = String.ofList
      (((splitLines text).map fun line => Text.trimChars line.toList).flatMap (· ++ ['\n'])) := by
    unfold trimmedText
    rw [List.flatMap_map]
    simp only [Text.toList_trim]
  rw [htext, splitLines_flatMap, List.map_map, List.map_map]
  · apply List.map_congr_left
    intro line _
    dsimp only [Function.comp_apply, Text.trim]
    rw [String.toList_ofList, Text.trimChars_append_blank rfl, Text.trimChars_trimChars]
  · intro body hbody
    obtain ⟨line, hline, rfl⟩ := List.mem_map.mp hbody
    exact notMem_trimChars_of_mem_splitLines hline

end Script

end ApiProbe
