import ApiProbe.Proofs.Http.Response
import ApiProbe.Proofs.Script.ReadBack

/-!
# Requests are read back

A request with headers and a body is written as the words behind its keyword and a heredoc. From these it
is read again, but of headers with the same name only the last one is kept.
-/

namespace ApiProbe

namespace Text

/-- What is blank, as ranges of code points. -/
def blankRanges : List (Nat × Nat) := [
  (9, 13), (28, 32), (0x85, 0x85), (0xA0, 0xA0), (0x1680, 0x1680), (0x2000, 0x200A),
  (0x2028, 0x2029), (0x202F, 0x202F), (0x205F, 0x205F), (0x3000, 0x3000)]

theorem inRanges_eq_true_iff {ranges : List (Nat × Nat)} {c : Char} :
    inRanges ranges c = true ↔ ∃ range ∈ ranges, range.1 ≤ c.toNat ∧ c.toNat ≤ range.2 := by
  unfold inRanges
  rw [List.any_eq_true]
  simp only [Bool.and_eq_true, decide_eq_true_eq]

theorem inRanges_of_isBlank {c : Char} (h : isBlank c = true) : inRanges blankRanges c = true := by
  simp only [isBlank, Bool.or_eq_true, Bool.and_eq_true, decide_eq_true_eq, beq_iff_eq] at h
  simp only [inRanges, blankRanges, List.any_cons, List.any_nil, Bool.or_eq_true, Bool.and_eq_true,
    decide_eq_true_eq]
  omega

theorem isAsciiLetter_iff {c : Char} :
    isAsciiLetter c = true ↔ (97 ≤ c.toNat ∧ c.toNat ≤ 122) ∨ (65 ≤ c.toNat ∧ c.toNat ≤ 90) := by
  simp only [isAsciiLetter, Bool.or_eq_true, Bool.and_eq_true, decide_eq_true_eq]
  exact Iff.rfl

theorem inRanges_of_isLetter {c : Char} (h : isLetter c = true) :
    inRanges ((97, 122) :: (65, 90) :: letterRanges) c = true := by
  rw [inRanges_eq_true_iff]
  unfold isLetter at h
  split at h
  · rcases isAsciiLetter_iff.mp h with hrange | hrange
    · exact ⟨_, List.mem_cons_self, hrange⟩
    · exact ⟨_, List.mem_cons_of_mem _ List.mem_cons_self, hrange⟩
  · obtain ⟨range, hmem, hrange⟩ := inRanges_eq_true_iff.mp h
    exact ⟨range, List.mem_cons_of_mem _ (List.mem_cons_of_mem _ hmem), hrange⟩

/-- No range of letters meets one of blanks. -/
theorem isBlank_of_isLetter {c : Char} (h : isLetter c = true) : isBlank c = false := by
  have hapart : ∀ blank ∈ blankRanges, ∀ letter ∈ (97, 122) :: (65, 90) :: letterRanges,
      blank.2 < letter.1 ∨ letter.2 < blank.1 := by decide +kernel
  rw [Bool.eq_false_iff]
  intro hblank
  obtain ⟨blank, hblank, hge, hle⟩ := inRanges_eq_true_iff.mp (inRanges_of_isBlank hblank)
  obtain ⟨letter, hletter, hge', hle'⟩ := inRanges_eq_true_iff.mp (inRanges_of_isLetter h)
  have := hapart blank hblank letter hletter
  omega

/-- A text that is not empty and holds no blank. -/
structure IsWord (text : String) : Prop where
  ne_empty : text ≠ ""
  solid : ∀ c ∈ text.toList, isBlank c = false

instance (text : String) : Decidable (IsWord text) :=
  decidable_of_iff (text ≠ "" ∧ text.toList.all (!isBlank ·) = true) <| by
    simp only [List.all_eq_true, Bool.not_eq_true']
    exact ⟨fun h => ⟨h.1, h.2⟩, fun h => ⟨h.1, h.2⟩⟩

section Word

variable {word : String} (h : IsWord word)
include h

theorem IsWord.trim_eq : trim word = word := by
  rw [trim, trimChars_eq_self h.solid, String.ofList_toList]

theorem IsWord.isEmpty_reverse : word.toList.reverse.isEmpty = false := by
  rw [List.isEmpty_reverse, List.isEmpty_eq_false_iff]
  exact mt String.toList_eq_nil_iff.mp h.ne_empty

end Word

theorem wordsFrom_solid {cs : List Char} (hcs : ∀ c ∈ cs, isBlank c = false)
    (word rest : List Char) :
    wordsFrom word (cs ++ rest) = wordsFrom (cs.reverse ++ word) rest := by
  induction cs generalizing word with
  | nil => rfl
  | cons c cs ih =>
      rw [List.forall_mem_cons] at hcs
      rw [List.cons_append, wordsFrom, if_neg (by rw [hcs.1]; decide), ih hcs.2, List.reverse_cons,
        List.append_assoc]
      rfl

theorem words_singleton {word : String} (h : IsWord word) : words word = [word] := by
  have hwords := wordsFrom_solid h.solid [] []
  rw [List.append_nil, List.append_nil] at hwords
  rw [words, hwords, wordsFrom, h.isEmpty_reverse, List.reverse_reverse, String.ofList_toList]
  rfl

theorem words_cons {word : String} (h : IsWord word) (rest : String) :
    words (word ++ " " ++ rest) = word :: words rest := by
  have hblank : isBlank ' ' = true := rfl
  have hchars : (word ++ " " ++ rest).toList = word.toList ++ ' ' :: rest.toList := by
    rw [String.toList_append, String.toList_append, List.append_assoc]
    rfl
  rw [words, hchars, wordsFrom_solid h.solid, List.append_nil, wordsFrom, if_pos hblank,
    h.isEmpty_reverse, List.reverse_reverse, String.ofList_toList]
  rfl

end Text

namespace Http

open Script (Line IsLine trimLine announces_iff announces_mark)

/-- A header that is written as a line of a script. -/
structure Header.IsWritable (h : Header) : Prop where
  name_ne : h.name ≠ ""
  isLine_name : IsLine h.name
  colon_notMem : ':' ∉ h.name.toList
  isLine_value : IsLine h.value

instance (h : Header) : Decidable h.IsWritable :=
  decidable_of_iff (h.name ≠ "" ∧ IsLine h.name ∧ ':' ∉ h.name.toList ∧ IsLine h.value)
    ⟨fun hh => ⟨hh.1, hh.2.1, hh.2.2.1, hh.2.2.2⟩, fun hh => ⟨hh.1, hh.2, hh.3, hh.4⟩⟩

def Header.line (h : Header) : String :=
  h.name ++ ": " ++ h.value

/-- Where the value is empty the blank behind the colon is trimmed. -/
theorem exists_trimChars_line {h : Header} (hh : h.IsWritable) :
    ∃ rest, Text.trimChars h.line.toList = h.name.toList ++ ':' :: rest ∧
      Text.trim (String.ofList rest) = h.value := by
  obtain ⟨hfirst, -⟩ := Text.exists_ends_of_trim hh.isLine_name.trimmed hh.name_ne
  rw [Header.line, String.toList_append, String.toList_append]
  by_cases hvalue : h.value = ""
  · refine ⟨[], ?_, hvalue.symm⟩
    have hcolon : (h.name.toList ++ ": ".toList) ++ "".toList = (h.name.toList ++ [':']) ++ [' '] := by
      rw [List.append_assoc, List.append_assoc]
      rfl
    rw [hvalue, hcolon, Text.trimChars_append_blank rfl]
    exact Text.trimChars_append_eq_self hfirst ⟨':', rfl, rfl⟩
  · obtain ⟨-, hlast⟩ := Text.exists_ends_of_trim hh.isLine_value.trimmed hvalue
    have hfront : ∃ c ∈ (h.name.toList ++ ": ".toList).head?, Text.isBlank c = false := by
      obtain ⟨c, hc, hblank⟩ := hfirst
      rw [List.head?_append, Option.mem_def.mp hc]
      exact ⟨c, rfl, hblank⟩
    refine ⟨' ' :: h.value.toList, ?_, ?_⟩
    · rw [Text.trimChars_append_eq_self hfront hlast, List.append_assoc]
      rfl
    · rw [Text.trim, String.toList_ofList, Text.trimChars_cons_blank rfl, ← Text.trim,
        hh.isLine_value.trimmed]

theorem ofLine?_line {h : Header} (hh : h.IsWritable) :
    Header.ofLine? (Text.trim h.line) = some h := by
  obtain ⟨rest, hline, hrest⟩ := exists_trimChars_line hh
  have hname (c : Char) (hc : c ∈ h.name.toList) : (c != ':') = true :=
    bne_iff_ne.mpr fun heq => hh.colon_notMem (heq ▸ hc)
  have hsplit : splitColon? (Text.trim h.line) = some (h.name, String.ofList rest) := by
    rw [splitColon?, Text.toList_trim, hline, List.span_eq_takeWhile_dropWhile,
      List.takeWhile_append_of_pos hname, List.dropWhile_append_of_pos hname,
      List.takeWhile_cons_of_neg (by decide), List.dropWhile_cons_of_neg (by decide), List.append_nil]
    dsimp only
    rw [String.ofList_toList]
  rw [Header.ofLine?, hsplit]
  dsimp only
  rw [hh.isLine_name.trimmed, hrest]
  exact if_neg (mt String.isEmpty_iff.mp hh.name_ne)

theorem trim_line_ne {h : Header} (hh : h.IsWritable) : Text.trim h.line ≠ "" := by
  obtain ⟨rest, hline, -⟩ := exists_trimChars_line hh
  rw [← String.toList_inj.ne, Text.toList_trim, hline]
  exact List.append_ne_nil_of_right_ne_nil _ (List.cons_ne_nil _ _)

/-- The headers without those whose name comes again further down. -/
def lastOfEach : List Header → List Header
  | [] => []
  | h :: headers =>
    if headers.any (sameName h.name ·.name) then lastOfEach headers else h :: lastOfEach headers

/-- Of the headers that were there before, those stay whose name is not set again. -/
theorem foldl_setHeader (headers done : List Header) :
    headers.foldl (fun done h => setHeader h.name h.value done) done
      = done.filter (fun h => !headers.any (sameName h.name ·.name)) ++ lastOfEach headers := by
  induction headers generalizing done with
  | nil =>
      rw [lastOfEach, List.append_nil]
      exact (List.filter_eq_self.mpr fun _ _ => rfl).symm
  | cons h headers ih =>
      have hkept : done.filter (fun k => !(h :: headers).any (sameName k.name ·.name))
          = (done.filter fun k => !sameName k.name h.name).filter
              fun k => !headers.any (sameName k.name ·.name) := by
        rw [List.filter_filter]
        refine List.filter_congr fun k _ => ?_
        rw [List.any_cons, Bool.not_or, Bool.and_comm]
      rw [List.foldl_cons, ih, setHeader, List.filter_append, hkept, lastOfEach, List.append_assoc,
        List.filter_singleton]
      -- The header itself stays where none of that name comes again.
      cases headers.any (sameName h.name ·.name) <;> rfl

theorem readHeaders_lines {headers : List Header} (hheaders : ∀ h ∈ headers, h.IsWritable)
    (done : List Header) (body : List String) :
    readHeaders done (headers.map (fun h => Text.trim h.line) ++ "" :: body)
      = .ok (headers.foldl (fun done h => setHeader h.name h.value done) done, body) := by
  induction headers generalizing done with
  | nil => rfl
  | cons h headers ih =>
      rw [List.forall_mem_cons] at hheaders
      rw [List.map_cons, List.cons_append, readHeaders,
        if_neg (mt String.isEmpty_iff.mp (trim_line_ne hheaders.1)), ofLine?_line hheaders.1]
      exact ih hheaders.2 _

/-- Names are different up to letter case. -/
def NamesDiffer (headers : List Header) : Prop :=
  headers.Pairwise fun h k => sameName h.name k.name = false

theorem namesDiffer_setHeader {name value : String} {headers : List Header}
    (h : NamesDiffer headers) : NamesDiffer (setHeader name value headers) := by
  unfold NamesDiffer setHeader
  rw [List.pairwise_append]
  refine ⟨h.filter _, List.pairwise_singleton _ _, fun other hother added hadded => ?_⟩
  obtain rfl := List.mem_singleton.mp hadded
  simpa using (List.mem_filter.mp hother).2

theorem namesDiffer_readHeaders {done headers : List Header} {lines body : List String}
    (hdone : NamesDiffer done) (h : readHeaders done lines = .ok (headers, body)) :
    NamesDiffer headers := by
  induction lines generalizing done with
  | nil =>
      obtain ⟨rfl, -⟩ := Prod.mk.inj (Except.ok.inj h)
      exact hdone
  | cons line lines ih =>
      rw [readHeaders] at h
      split at h
      · obtain ⟨rfl, -⟩ := Prod.mk.inj (Except.ok.inj h)
        exact hdone
      · split at h
        · exact ih (namesDiffer_setHeader hdone) h
        · cases h

/-- A request as it is written, with a terminator that no line of its headers and its body is. -/
structure WrittenRequest where
  verb : String
  url : String
  terminator : String
  headers : List Header
  body : List String
  verb_ne : verb ≠ ""
  isLetter_verb : ∀ c ∈ verb.toList, Text.isLetter c = true
  isWord_url : Text.IsWord url
  isWord_terminator : Text.IsWord terminator
  isWritable_headers : ∀ h ∈ headers, h.IsWritable
  isLine_body : ∀ line ∈ body, IsLine line
  terminator_notMem : terminator ∉ (headers.map Header.line ++ body).map Text.trim

namespace WrittenRequest

def remainder (w : WrittenRequest) : String :=
  "^" ++ w.terminator ++ " " ++ w.verb ++ " " ++ w.url

theorem isWord_mark (w : WrittenRequest) : Text.IsWord ("^" ++ w.terminator) := by
  constructor
  · rw [← String.toList_inj.ne, String.toList_append]
    exact List.cons_ne_nil _ _
  · rw [String.toList_append]
    exact List.forall_mem_cons.mpr ⟨rfl, w.isWord_terminator.solid⟩

theorem isWord_verb (w : WrittenRequest) : Text.IsWord w.verb :=
  ⟨w.verb_ne, fun c hc => Text.isBlank_of_isLetter (w.isLetter_verb c hc)⟩

def lines (w : WrittenRequest) : List String :=
  w.headers.map Header.line ++ "" :: w.body ++ [w.terminator]

theorem map_trim_body (w : WrittenRequest) : w.body.map Text.trim = w.body := by
  rw [List.map_congr_left fun line hline => (w.isLine_body line hline).trimmed, List.map_id']

theorem map_trim_lines (w : WrittenRequest) :
    w.lines.map Text.trim
      = w.headers.map (fun h => Text.trim h.line) ++ "" :: w.body ++ [w.terminator] := by
  rw [lines, List.map_append, List.map_append, List.map_map, List.map_cons, w.map_trim_body,
    List.map_singleton, w.isWord_terminator.trim_eq]
  rfl

theorem terminator_notMem_taken (w : WrittenRequest) :
    w.terminator ∉ w.headers.map (fun h => Text.trim h.line) ++ "" :: w.body := by
  have hlines := w.terminator_notMem
  rw [List.map_append, List.map_map, w.map_trim_body, List.mem_append, not_or] at hlines
  rw [List.mem_append, List.mem_cons, not_or, not_or]
  exact ⟨hlines.1, w.isWord_terminator.ne_empty, hlines.2⟩

def request (w : WrittenRequest) : Request :=
  { method := Text.upper w.verb
    url := w.url
    headers := lastOfEach w.headers
    body := "\n".intercalate w.body }

end WrittenRequest

theorem requestWords_remainder (w : WrittenRequest) :
    requestWords w.remainder = .ok (some w.terminator, w.verb, w.url) := by
  have hwords : Text.words w.remainder = ["^" ++ w.terminator, w.verb, w.url] := by
    have hform : w.remainder = "^" ++ w.terminator ++ " " ++ (w.verb ++ " " ++ w.url) := by
      simp only [WrittenRequest.remainder, String.append_assoc]
    rw [hform, Text.words_cons w.isWord_mark, Text.words_cons w.isWord_verb,
      Text.words_singleton w.isWord_url]
  obtain ⟨hstarts, hterminator⟩ := announces_iff.mp
    (announces_mark w.isWord_terminator.trim_eq w.isWord_terminator.ne_empty)
  rw [requestWords, hwords]
  dsimp only
  rw [if_pos hstarts, hterminator]
  rfl

section Written

variable {w : WrittenRequest} {lines : List Line}
  (hlines : lines.map trimLine = (w.lines.map Text.trim).map .ok)
include hlines

theorem takeUntil_written (further : List Line) :
    Script.takeUntil w.terminator (lines ++ further)
      = .ok ⟨w.headers.map (fun h => Text.trim h.line) ++ "" :: w.body, lines.length⟩ := by
  apply Script.takeUntil_of_trimLine w.terminator_notMem_taken
  rw [hlines, w.map_trim_lines]

theorem readRequest_written (further : List Line) :
    readRequest w.remainder (lines ++ further) = .ok ⟨w.request, lines.length⟩ := by
  have hverb : (!w.verb.toList.all Text.isLetter) = false := by
    rw [List.all_eq_true.mpr w.isLetter_verb]
    rfl
  rw [readRequest, requestWords_remainder]
  dsimp only [Bind.bind, Except.bind]
  rw [hverb, takeUntil_written hlines]
  dsimp only
  rw [readHeaders_lines w.isWritable_headers, foldl_setHeader]
  rfl

end Written

theorem namesDiffer_readRequest {remainder : String} {lines : List Line}
    {taken : Script.Taken Request} (h : readRequest remainder lines = .ok taken) :
    NamesDiffer taken.result.headers := by
  unfold readRequest at h
  obtain ⟨⟨terminator, method, url⟩, -, h⟩ := bind_eq_ok_iff.mp h
  dsimp only at h
  split at h
  · cases h
  · cases terminator with
    | none =>
        obtain rfl := Except.ok.inj h
        exact List.Pairwise.nil
    | some terminator =>
        obtain ⟨body, -, h⟩ := bind_eq_ok_iff.mp h
        obtain ⟨⟨headers, lines⟩, hheaders, h⟩ := bind_eq_ok_iff.mp h
        obtain rfl := Except.ok.inj h
        exact namesDiffer_readHeaders List.Pairwise.nil hheaders

/-- **Requests are read back.** From the words and the lines of a request, whatever line ends and blanks are
around them, comes the request with the last header of each name, and the lines behind the terminator are
left. No request that is read has two headers of the same name. -/
theorem request_readBack :
    (∀ (w : WrittenRequest) (lines further : List Line),
      lines.map trimLine = (w.lines.map Text.trim).map .ok →
      Parser.http w.remainder (lines ++ further) = .ok ⟨.http w.request, lines.length⟩ ∧
        (lines ++ further).drop lines.length = further) ∧
    ∀ remainder lines taken, Parser.http remainder lines = .ok taken →
      ∃ request, taken.result = .http request ∧ NamesDiffer request.headers := by
  constructor
  · intro w lines further hlines
    refine ⟨?_, List.drop_left⟩
    rw [Parser.http, readRequest_written hlines]
    rfl
  · intro remainder lines taken h
    obtain ⟨request, hrequest, rfl⟩ := map_eq_ok_iff.mp h
    exact ⟨request.result, rfl, namesDiffer_readRequest hrequest⟩

/-- Headers with a colon in the value, with no value and with a name that comes again, and a body with empty
lines and what looks like a header. -/
theorem request_readBack_repeated_name :
    let w : WrittenRequest :=
      { verb := "post"
        url := "/orders?at=10:30"
        terminator := "END"
        headers := [⟨"Accept", "*/*"⟩, ⟨"X-Time", "10:30"⟩, ⟨"X-Empty", ""⟩, ⟨"ACCEPT", "text/plain"⟩]
        body := ["", "Accept: none", "^END", ""]
        verb_ne := by decide
        isLetter_verb := List.all_eq_true.mp (by decide)
        isWord_url := by decide +kernel
        isWord_terminator := by decide +kernel
        isWritable_headers := by decide +kernel
        isLine_body := by decide +kernel
        terminator_notMem := by decide +kernel }
    let lines := Script.linesOfText 
      "Accept: */*\nX-Time: 10:30\nX-Empty: \nACCEPT: text/plain\n\n\nAccept: none\n^END\n\n END\n"
    let further := Script.linesOfText "END\nVALUE 1"
    let request : Request :=
      { method := "POST"
        url := "/orders?at=10:30"
        headers := [⟨"X-Time", "10:30"⟩, ⟨"X-Empty", ""⟩, ⟨"ACCEPT", "text/plain"⟩]
        body := "\nAccept: none\n^END\n" }
    lines.map trimLine = (w.lines.map Text.trim).map .ok ∧
      Parser.http "^END post /orders?at=10:30" (lines ++ further) = .ok ⟨.http request, 10⟩ ∧
      (lines ++ further).drop 10 = further ∧ NamesDiffer request.headers := by
  intro w lines further request
  have htrimmed : lines.map trimLine = (w.lines.map Text.trim).map .ok := by
    rw [Script.map_trimLine_linesOfText]
    exact congrArg _ (by decide +kernel)
  have hremainder : w.remainder = "^END post /orders?at=10:30" := by decide +kernel
  have hrequest : w.request = request := by decide +kernel
  have hlength : lines.length = 10 := by decide +kernel
  obtain ⟨hread, hdrop⟩ := request_readBack.1 w lines further htrimmed
  rw [hremainder, hrequest, hlength] at hread
  rw [hlength] at hdrop
  obtain ⟨_, hresult, hdiffer⟩ := request_readBack.2 _ _ _ hread
  obtain rfl := Command.http.inj hresult
  exact ⟨htrimmed, hread, hdrop, hdiffer⟩

end Http

end ApiProbe
