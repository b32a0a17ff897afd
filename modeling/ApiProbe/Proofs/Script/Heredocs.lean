import ApiProbe.Proofs.Run.Placement

/-!
# Where heredocs begin and end

A command may announce a heredoc. It goes on up to the next line that is its terminator, or without end if
there is none, and what looks like a command in it is none. A parser of the language reads the heredoc that
is announced to it and nothing else.
-/

namespace ApiProbe

namespace Script

/-- A mark with a terminator behind it. -/
def Announces (token terminator : String) : Prop :=
  ∃ mark, token.toList = heredocMark :: mark ∧ terminator = Text.trim (String.ofList mark) ∧
    terminator ≠ ""

theorem announces_iff {token terminator : String} :
    Announces token terminator ↔
      startsHeredoc token = true ∧ terminatorOf token = .ok terminator := by
  unfold Announces startsHeredoc terminatorOf
  cases token.toList with
  | nil => simp
  | cons c mark =>
      dsimp only [List.head?_cons, List.drop_succ_cons, List.drop_zero]
      rw [beq_iff_eq, Option.some.injEq]
      constructor
      · rintro ⟨mark', hmark, rfl, hne⟩
        obtain ⟨rfl, rfl⟩ := List.cons.inj hmark
        exact ⟨rfl, if_neg (mt String.isEmpty_iff.mp hne)⟩
      · rintro ⟨rfl, h⟩
        split at h
        · cases h
        · rename_i hne
          obtain rfl := Except.ok.inj h
          exact ⟨mark, rfl, rfl, mt String.isEmpty_iff.mpr hne⟩

theorem Announces.unique {token terminator terminator' : String} (h : Announces token terminator)
    (h' : Announces token terminator') : terminator = terminator' :=
  Except.ok.inj ((announces_iff.mp h).2.symm.trans (announces_iff.mp h').2)

/-- The line is the terminator, but for the blanks around it. -/
def Closes (terminator : String) (line : Line) : Prop :=
  ∃ raw, line = .ok raw ∧ Text.trim raw = terminator

theorem closes_ok {terminator raw : String} :
    Closes terminator (.ok raw) ↔ (Text.trim raw == terminator) = true := by
  unfold Closes
  rw [beq_iff_eq]
  constructor
  · rintro ⟨raw', hraw, hcloses⟩
    obtain rfl := Except.ok.inj hraw
    exact hcloses
  · exact fun hcloses => ⟨raw, rfl, hcloses⟩

section Taken

variable {terminator remainder : String} {lines others : List Line}

/-- What is taken is up to the first line that closes, or all. -/
theorem takeUntil_cases {taken : Taken (List String)} (h : takeUntil terminator lines = .ok taken) :
    (taken.count = lines.length ∧ ∀ line ∈ lines, ¬ Closes terminator line) ∨
      ∃ front closing back, lines = front ++ closing :: back ∧ taken.count = front.length + 1 ∧
        Closes terminator closing ∧ ∀ line ∈ front, ¬ Closes terminator line := by
  induction lines generalizing taken with
  | nil =>
      obtain rfl := Except.ok.inj h
      exact Or.inl ⟨rfl, nofun⟩
  | cons line lines ih =>
      cases line with
      | error error => cases h
      | ok raw =>
          rw [takeUntil] at h
          split at h
          · rename_i hcloses
            obtain rfl := Except.ok.inj h
            exact Or.inr ⟨[], .ok raw, lines, rfl, rfl, closes_ok.mpr hcloses, nofun⟩
          · rename_i hother
            have hline : ¬ Closes terminator (.ok raw) := mt closes_ok.mp hother
            obtain ⟨rest, hrest, rfl⟩ := map_eq_ok_iff.mp h
            rcases ih hrest with ⟨hcount, hnone⟩ | ⟨front, closing, back, rfl, hcount, hcloses, hfront⟩
            · exact Or.inl ⟨congrArg (· + 1) hcount, List.forall_mem_cons.mpr ⟨hline, hnone⟩⟩
            · exact Or.inr ⟨.ok raw :: front, closing, back, rfl, congrArg (· + 1) hcount, hcloses,
                List.forall_mem_cons.mpr ⟨hline, hfront⟩⟩

/-- Nothing behind the line that closes is read. -/
theorem takeUntil_append (h : ∃ line ∈ lines, Closes terminator line) (others : List Line) :
    takeUntil terminator (lines ++ others) = takeUntil terminator lines := by
  induction lines with
  | nil =>
      obtain ⟨line, hline, -⟩ := h
      cases hline
  | cons line lines ih =>
      cases line with
      | error error => rfl
      | ok raw =>
          rw [List.cons_append, takeUntil, takeUntil]
          split
          · rfl
          · rename_i hother
            obtain ⟨line, hline, hcloses⟩ := h
            rcases List.mem_cons.mp hline with rfl | hline
            · exact absurd (closes_ok.mp hcloses) hother
            · rw [ih ⟨line, hline, hcloses⟩]

theorem takePayload_congr
    (h : ∀ terminator, Announces remainder terminator →
      takeUntil terminator lines = takeUntil terminator others) :
    takePayload remainder lines = takePayload remainder others := by
  unfold takePayload
  split
  · rename_i hstarts
    cases hterminator : terminatorOf remainder with
    | error failure => rfl
    | ok terminator =>
        dsimp only [Bind.bind, Except.bind]
        rw [h terminator (announces_iff.mpr ⟨hstarts, hterminator⟩)]
  · rfl

theorem takePayload_cases {taken : Taken String} (h : takePayload remainder lines = .ok taken) :
    (taken.count = 0 ∧ ∀ terminator, ¬ Announces remainder terminator) ∨
      ∃ terminator body, Announces remainder terminator ∧
        takeUntil terminator lines = .ok ⟨body, taken.count⟩ := by
  unfold takePayload at h
  split at h
  · rename_i hstarts
    obtain ⟨terminator, hterminator, h⟩ := bind_eq_ok_iff.mp h
    obtain ⟨body, hbody, h⟩ := bind_eq_ok_iff.mp h
    obtain rfl := Except.ok.inj h
    exact Or.inr ⟨terminator, body.result, announces_iff.mpr ⟨hstarts, hterminator⟩, hbody⟩
  · rename_i hplain
    obtain rfl := Except.ok.inj h
    exact Or.inl ⟨rfl, fun terminator hannounces => hplain (announces_iff.mp hannounces).1⟩

end Taken

end Script

namespace Http

open Script (Announces takeUntil)

variable {remainder : String} {lines others : List Script.Line}

/-- The words of a request announce a heredoc. -/
def WordsAnnounce (remainder terminator : String) : Prop :=
  ∃ token method url, Text.words remainder = [token, method, url] ∧ Announces token terminator

theorem wordsAnnounce_iff {terminator : String} :
    WordsAnnounce remainder terminator ↔
      ∃ method url, requestWords remainder = .ok (some terminator, method, url) := by
  unfold WordsAnnounce
  constructor
  · rintro ⟨token, method, url, hwords, hannounces⟩
    obtain ⟨hstarts, hterminator⟩ := Script.announces_iff.mp hannounces
    refine ⟨method, url, ?_⟩
    rw [requestWords, hwords]
    dsimp only
    rw [if_pos hstarts, hterminator]
    rfl
  · rintro ⟨method, url, h⟩
    unfold requestWords at h
    split at h
    · rename_i token method' url' hwords
      split at h
      · rename_i hstarts
        obtain ⟨terminator', hterminator, h⟩ := map_eq_ok_iff.mp h
        obtain ⟨rfl, rfl, rfl⟩ : terminator' = terminator ∧ method' = method ∧ url' = url := by
          simpa using h
        exact ⟨token, method', url', hwords, Script.announces_iff.mpr ⟨hstarts, hterminator⟩⟩
      · cases h
    · split at h
      · cases h
      · cases h
    · cases h

theorem WordsAnnounce.unique {terminator terminator' : String}
    (h : WordsAnnounce remainder terminator) (h' : WordsAnnounce remainder terminator') :
    terminator = terminator' := by
  obtain ⟨method, url, h⟩ := wordsAnnounce_iff.mp h
  obtain ⟨method', url', h'⟩ := wordsAnnounce_iff.mp h'
  exact Option.some.inj (Prod.mk.inj (Except.ok.inj (h.symm.trans h'))).1

theorem readRequest_congr
    (h : ∀ terminator, WordsAnnounce remainder terminator →
      takeUntil terminator lines = takeUntil terminator others) :
    readRequest remainder lines = readRequest remainder others := by
  unfold readRequest
  cases hwords : requestWords remainder with
  | error failure => rfl
  | ok words =>
      obtain ⟨terminator, method, url⟩ := words
      dsimp only [Bind.bind, Except.bind]
      split
      · rfl
      · cases terminator with
        | none => rfl
        | some terminator =>
            dsimp only
            rw [h terminator (wordsAnnounce_iff.mpr ⟨method, url, hwords⟩)]

theorem readRequest_cases {taken : Script.Taken Request}
    (h : readRequest remainder lines = .ok taken) :
    (taken.count = 0 ∧ ∀ terminator, ¬ WordsAnnounce remainder terminator) ∨
      ∃ terminator body, WordsAnnounce remainder terminator ∧
        takeUntil terminator lines = .ok ⟨body, taken.count⟩ := by
  unfold readRequest at h
  obtain ⟨⟨terminator, method, url⟩, hwords, h⟩ := bind_eq_ok_iff.mp h
  dsimp only at h
  split at h
  · cases h
  · cases terminator with
    | none =>
        obtain rfl := Except.ok.inj h
        refine Or.inl ⟨rfl, fun terminator hannounces => ?_⟩
        obtain ⟨method', url', hwords'⟩ := wordsAnnounce_iff.mp hannounces
        cases hwords.symm.trans hwords'
    | some terminator =>
        obtain ⟨body, hbody, h⟩ := bind_eq_ok_iff.mp h
        obtain ⟨_, -, h⟩ := bind_eq_ok_iff.mp h
        obtain rfl := Except.ok.inj h
        exact Or.inr ⟨terminator, body.result, wordsAnnounce_iff.mpr ⟨method, url, hwords⟩, hbody⟩

end Http

namespace Parser

open Script (Line Announces takeUntil)

/-- The argument announces a heredoc to the parser. -/
inductive Opens (parser : Parser) (remainder terminator : String) : Prop
  | payload (hparser : parser = value ∨ parser = expect) (h : Announces remainder terminator)
  | request (hparser : parser = http) (h : Http.WordsAnnounce remainder terminator)

variable {parser : Parser} {remainder : String} {lines others : List Line}

theorem ofText_ne_http (make : String → Command) : ofText make ≠ http := by
  intro h
  have hempty := congrFun (congrFun h "") []
  cases hempty

/-- A parser of the language reads a text, or else a request. -/
theorem cases_of_mem (h : parser ∈ [value, expect, http]) :
    (∃ make, parser = ofText make ∧
        ∀ remainder terminator, parser.Opens remainder terminator ↔ Announces remainder terminator) ∨
      parser = http ∧ ∀ remainder terminator,
        parser.Opens remainder terminator ↔ Http.WordsAnnounce remainder terminator := by
  have htext {make : String → Command} (hmake : ofText make = value ∨ ofText make = expect)
      (remainder terminator : String) :
      (ofText make).Opens remainder terminator ↔ Announces remainder terminator := by
    constructor
    · rintro (⟨-, hannounces⟩ | ⟨hhttp, -⟩)
      · exact hannounces
      · exact absurd hhttp (ofText_ne_http make)
    · exact .payload hmake
  rcases List.mem_cons.mp h with rfl | h
  · exact Or.inl ⟨_, rfl, htext (Or.inl rfl)⟩
  rcases List.mem_cons.mp h with rfl | h
  · exact Or.inl ⟨_, rfl, htext (Or.inr rfl)⟩
  · obtain rfl := List.mem_singleton.mp h
    refine Or.inr ⟨rfl, fun remainder terminator => ⟨?_, .request rfl⟩⟩
    rintro (⟨htext | htext, -⟩ | ⟨-, hannounces⟩)
    · exact absurd htext.symm (ofText_ne_http _)
    · exact absurd htext.symm (ofText_ne_http _)
    · exact hannounces

section Plain

variable (hparser : parser ∈ [value, expect, http])
include hparser

theorem Opens.unique {terminator terminator' : String} (h : parser.Opens remainder terminator)
    (h' : parser.Opens remainder terminator') : terminator = terminator' := by
  rcases cases_of_mem hparser with ⟨_, -, hopens⟩ | ⟨-, hopens⟩
  · exact ((hopens _ _).mp h).unique ((hopens _ _).mp h')
  · exact ((hopens _ _).mp h).unique ((hopens _ _).mp h')

/-- A parser reads no more than the heredoc that is announced to it. -/
theorem congr_lines
    (h : ∀ terminator, parser.Opens remainder terminator →
      takeUntil terminator lines = takeUntil terminator others) :
    parser remainder lines = parser remainder others := by
  rcases cases_of_mem hparser with ⟨make, rfl, hopens⟩ | ⟨rfl, hopens⟩
  · have hread := Script.takePayload_congr fun terminator ht => h terminator ((hopens _ _).mpr ht)
    exact congrArg (Except.map _) hread
  · have hread := Http.readRequest_congr fun terminator ht => h terminator ((hopens _ _).mpr ht)
    exact congrArg (Except.map _) hread

/-- A parser takes the heredoc that is announced to it, or no lines. -/
theorem taken_cases {taken : Script.Taken Command} (h : parser remainder lines = .ok taken) :
    (taken.count = 0 ∧ ∀ terminator, ¬ parser.Opens remainder terminator) ∨
      ∃ terminator body, parser.Opens remainder terminator ∧
        takeUntil terminator lines = .ok ⟨body, taken.count⟩ := by
  rcases cases_of_mem hparser with ⟨make, rfl, hopens⟩ | ⟨rfl, hopens⟩
  · obtain ⟨payload, hpayload, rfl⟩ := map_eq_ok_iff.mp h
    simp only [hopens]
    exact Script.takePayload_cases hpayload
  · obtain ⟨request, hrequest, rfl⟩ := map_eq_ok_iff.mp h
    simp only [hopens]
    exact Http.readRequest_cases hrequest

end Plain

end Parser

namespace Script

/-! ### Lines outside of heredocs

Whether a line is inside of a heredoc depends on whether the lines above it are, since a line inside announces
none. The definition recurs on the number of the line; the reader only meets lines that are outside, so each
of its steps goes from one such line to the next. -/

theorem getElem?_of_drop_eq_append {lines front back : List Line} {closing : Line} {i : Nat}
    (h : lines.drop i = front ++ closing :: back) :
    lines[i + front.length]? = some closing ∧
      ∀ m < front.length, ∀ {line}, lines[i + m]? = some line → line ∈ front := by
  constructor
  · rw [← List.getElem?_drop, h, List.getElem?_append_right (Nat.le_refl _), Nat.sub_self,
      List.getElem?_cons_zero]
  · intro m hm line hline
    rw [← List.getElem?_drop, h, List.getElem?_append_left hm] at hline
    exact List.mem_of_getElem? hline

/-- The line is a command that announces a heredoc. -/
def OpensAt (registry : Registry) (lines : List Line) (i : Nat) (terminator : String) : Prop :=
  ∃ raw keyword remainder parser, lines[i]? = some (.ok raw) ∧ Invokes raw keyword remainder ∧
    registry.get? keyword = some parser ∧ parser.Opens remainder terminator

def ClosesAt (lines : List Line) (i : Nat) (terminator : String) : Prop :=
  ∃ line, lines[i]? = some line ∧ Closes terminator line

/-- A place in front of a line, or behind the last one, is outside of heredocs if each that is opened
outside of heredocs above it is closed above it. -/
def Outside (registry : Registry) (lines : List Line) (i : Nat) : Prop :=
  ∀ j, j < i → Outside registry lines j → ∀ terminator, OpensAt registry lines j terminator →
    ∃ k, j < k ∧ k < i ∧ ClosesAt lines k terminator

section Outside

variable {registry : Registry} {lines : List Line} {i : Nat}

theorem outside_zero : Outside registry lines 0 := by
  rw [Outside]
  exact fun j hj => absurd hj j.not_lt_zero

/-- Below a line that announces no heredoc it goes on outside. -/
theorem Outside.succ (h : Outside registry lines i)
    (hline : ∀ terminator, ¬ OpensAt registry lines i terminator) : Outside registry lines (i + 1) := by
  rw [Outside]
  intro j hj hout terminator hopens
  rcases Nat.lt_succ_iff_lt_or_eq.mp hj with hlt | rfl
  · rw [Outside] at h
    obtain ⟨k, hjk, hki, hcloses⟩ := h j hlt hout terminator hopens
    exact ⟨k, hjk, by omega, hcloses⟩
  · exact absurd hopens (hline terminator)

theorem not_opensAt {raw : String} (hline : lines[i]? = some (.ok raw)) (hraw : ¬ IsCommand raw)
    (terminator : String) : ¬ OpensAt registry lines i terminator := by
  rintro ⟨raw', keyword, remainder, parser, hline', ⟨hcommand, -⟩, -⟩
  obtain rfl := Except.ok.inj (Option.some.inj (hline.symm.trans hline'))
  exact hraw hcommand

theorem Outside.succ_of_not_isCommand {raw : String} (h : Outside registry lines i)
    (hline : lines[i]? = some (.ok raw)) (hraw : ¬ IsCommand raw) :
    Outside registry lines (i + 1) :=
  h.succ (not_opensAt hline hraw)

theorem OpensAt.opens {raw keyword remainder terminator : String} {parser : Parser}
    (h : OpensAt registry lines i terminator) (hline : lines[i]? = some (.ok raw))
    (hinvokes : Invokes raw keyword remainder) (hparser : registry.get? keyword = some parser) :
    parser.Opens remainder terminator := by
  obtain ⟨raw', keyword', remainder', parser', hline', hinvokes', hparser', hopens⟩ := h
  obtain rfl := Except.ok.inj (Option.some.inj (hline.symm.trans hline'))
  obtain ⟨-, rfl, rfl⟩ := hinvokes
  obtain ⟨-, rfl, rfl⟩ := hinvokes'
  obtain rfl := Option.some.inj (hparser.symm.trans hparser')
  exact hopens

theorem OpensAt.unique (hplain : registry.Plain) {terminator terminator' : String}
    (h : OpensAt registry lines i terminator) (h' : OpensAt registry lines i terminator') :
    terminator = terminator' := by
  obtain ⟨raw, keyword, remainder, parser, hline, hinvokes, hparser, hopens⟩ := h
  exact hopens.unique (hplain keyword parser hparser) (h'.opens hline hinvokes hparser)

/-- Behind the first line that closes a heredoc it goes on outside. -/
theorem Outside.behind (hplain : registry.Plain) {terminator : String} {k : Nat}
    (h : Outside registry lines i) (hopens : OpensAt registry lines i terminator) (hik : i < k)
    (hcloses : ClosesAt lines k terminator)
    (hfirst : ∀ m, i < m → m < k → ¬ ClosesAt lines m terminator) :
    Outside registry lines (k + 1) := by
  rw [Outside]
  intro j hj hout terminator' hopens'
  rcases Nat.lt_trichotomy j i with hlt | rfl | hgt
  · rw [Outside] at h
    obtain ⟨m, hjm, hmi, hm⟩ := h j hlt hout terminator' hopens'
    exact ⟨m, hjm, by omega, hm⟩
  · obtain rfl := hopens.unique hplain hopens'
    exact ⟨k, hik, Nat.lt_succ_self k, hcloses⟩
  · -- The line would stand in the heredoc, which is not closed above it.
    rw [Outside] at hout
    obtain ⟨m, him, hmj, hm⟩ := hout i hgt h terminator hopens
    exact absurd hm (hfirst m him (by omega))

/-- Below what a command has taken it goes on outside, unless nothing is left. -/
theorem Outside.after (hplain : registry.Plain) {taken : Taken Command}
    (h : Outside registry lines i) (haccepts : Accepts registry lines i taken)
    (hleft : lines.drop (i + 1 + taken.count) ≠ []) : Outside registry lines (i + 1 + taken.count) := by
  obtain ⟨raw, keyword, remainder, parser, hline, hinvokes, hparser, htaken⟩ := haccepts
  have hmem := hplain keyword parser hparser
  rcases Parser.taken_cases hmem htaken with ⟨hcount, hnone⟩ | ⟨terminator, body, hopens, hbody⟩
  · rw [hcount]
    exact h.succ fun terminator hopensAt => hnone _ (hopensAt.opens hline hinvokes hparser)
  · rcases takeUntil_cases hbody with ⟨hcount, -⟩ | ⟨front, closing, back, hbelow, hcount, hcloses, hfront⟩
    · rw [ne_eq, List.drop_eq_nil_iff] at hleft
      rw [List.length_drop] at hcount
      dsimp only at hcount
      omega
    · obtain ⟨hclosing, hmem_front⟩ := getElem?_of_drop_eq_append hbelow
      dsimp only at hcount
      have hlast : i + 1 + taken.count = i + 1 + front.length + 1 := by omega
      rw [hlast]
      refine h.behind hplain ⟨raw, keyword, remainder, parser, hline, hinvokes, hparser, hopens⟩
        (by omega) ⟨closing, hclosing, hcloses⟩ ?_
      rintro m him hm ⟨line, hmline, hmcloses⟩
      obtain ⟨n, rfl⟩ := Nat.exists_eq_add_of_le (Nat.succ_le_of_lt him)
      exact hfront line (hmem_front n (by omega) hmline) hmcloses

/-- The same for a command of which it is computed how many lines it takes. -/
theorem Outside.after_count (hplain : registry.Plain) {raw keyword remainder : String} {parser : Parser}
    {count : Nat} (h : Outside registry lines i) (hline : lines[i]? = some (.ok raw))
    (hentry : Entry.ofLine raw = .command keyword remainder)
    (hparser : registry.get? keyword = some parser)
    (hcount : (parser remainder (lines.drop (i + 1))).toOption.map (·.count) = some count)
    (hleft : lines.drop (i + 1 + count) ≠ []) : Outside registry lines (i + 1 + count) := by
  obtain ⟨taken, htaken, rfl⟩ := Option.map_eq_some_iff.mp hcount
  exact h.after hplain ⟨raw, keyword, remainder, parser, hline, invokes_of_ofLine hentry, hparser,
    toOption_eq_some_iff.mp htaken⟩ hleft

end Outside

end Script

end ApiProbe
