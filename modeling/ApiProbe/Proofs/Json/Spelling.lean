import ApiProbe.Proofs.Json.Scalars
import ApiProbe.Proofs.Json.Strings
import ApiProbe.Proofs.Value.Encode

/-!
# Texts of values

How the text of a value is built tells what it stands for, whichever words there are for values. With the
words that the reader knows it is read as that; only a whole number of too many digits in it keeps it
from being read.
-/

namespace ApiProbe.Json

open Text (isAsciiDigit)

/-- The words that documents have for values. -/
def literals : List (String × Datum) :=
  [("null", .null), ("true", .bool true), ("false", .bool false)]

theorem literals_ne_nil : ∀ entry ∈ literals, entry.1.toList ≠ [] := by
  decide

theorem literals_subset_words : literals ⊆ words :=
  List.subset_append_left literals
    [("NaN", .float .nan), ("Infinity", .float (.infinite false)), ("-Infinity", .float (.infinite true))]

/-- A text and the data that it stands for. -/
structure Spelling where
  chars : List Char
  datum? : Option Datum

namespace Spelling

def memberChars (member : Key × Spelling) : List Char :=
  member.1.chars ++ member.2.chars

def items? (items : List (Spaced Spelling)) : Option (List Datum) :=
  items.mapM fun s : Spaced Spelling => s.item.datum?

def member? (member : Key × Spelling) : Option (Datum × Datum) :=
  member.2.datum?.map fun d => (.string member.1.name, d)

def members? (members : List (Spaced (Key × Spelling))) : Option (List (Datum × Datum)) :=
  members.mapM fun m : Spaced (Key × Spelling) => member? m.item

theorem items?_cons (s : Spaced Spelling) (items : List (Spaced Spelling)) :
    items? (s :: items) = s.item.datum?.bind fun d => (items? items).map (d :: ·) := by
  rw [items?, List.mapM_cons]
  cases s.item.datum? with
  | none => rfl
  | some d => exact (Option.map_eq_bind ..).symm

theorem members?_cons (m : Spaced (Key × Spelling)) (members : List (Spaced (Key × Spelling))) :
    members? (m :: members) = (member? m.item).bind fun e => (members? members).map (e :: ·) := by
  rw [members?, List.mapM_cons]
  cases member? m.item with
  | none => rfl
  | some e => exact (Option.map_eq_bind ..).symm

end Spelling

/-- The text of a value, where these are the words for values, and what it stands for: no data if there is a
whole number of too many digits in it. A repeated name keeps its first place and takes the last value. -/
inductive Denotes (words : List (String × Datum)) : List Char → Option Datum → Prop
  | word {word : String} {d : Datum} (h : (word, d) ∈ words) : Denotes words word.toList (some d)
  | number (n : Number) : Denotes words n.chars n.datum?
  | string (pieces : List Piece) :
      Denotes words (quotedPieces pieces) (some (.string (String.ofList (decode pieces))))
  | array (space : Space) (items : List (Spaced Spelling))
      (h : ∀ s ∈ items, Denotes words s.item.chars s.item.datum?) :
      Denotes words ('[' :: (space.chars ++ (listing Spelling.chars items ++ [']'])))
        ((Spelling.items? items).map .list)
  | object (space : Space) (members : List (Spaced (Key × Spelling)))
      (h : ∀ m ∈ members, Denotes words m.item.2.chars m.item.2.datum?) :
      Denotes words ('\x7b' :: (space.chars ++ (listing Spelling.memberChars members ++ ['\x7d'])))
        ((Spelling.members? members).map fun entries => .dict (Datum.ofEntries entries))

theorem Denotes.mono {known more : List (String × Datum)} (hsubset : known ⊆ more) {cs : List Char}
    {d? : Option Datum} (h : Denotes known cs d?) : Denotes more cs d? := by
  induction h with
  | word h => exact .word (hsubset h)
  | number n => exact .number n
  | string pieces => exact .string pieces
  | array space items _ ih => exact .array space items ih
  | object space members _ ih => exact .object space members ih

theorem isInfix_listing {α : Type} {text : α → List Char} {s : Spaced α} {items : List (Spaced α)}
    (hs : s ∈ items) : text s.item <:+: listing text items := by
  induction items with
  | nil => cases hs
  | cons t items ih =>
      rcases List.mem_cons.mp hs with rfl | hs
      · obtain ⟨more, hmore⟩ := exists_listing_eq text s items []
        rw [List.append_nil] at hmore
        rw [hmore]
        exact (List.prefix_append _ _).isInfix.trans (List.suffix_append _ _).isInfix
      · obtain ⟨next, items, rfl⟩ := List.exists_cons_of_ne_nil (List.ne_nil_of_mem hs)
        have hlisting := List.suffix_append (t.before.chars ++ (text t.item ++ (t.after.chars ++ [','])))
          (listing text (next :: items))
        rw [listing_cons_cons]
        simp only [List.append_assoc, List.singleton_append] at hlisting
        exact (ih hs).trans hlisting.isInfix

theorem isInfix_bracketed {α : Type} (text : α → List Char) {s : Spaced α} {items : List (Spaced α)}
    (hs : s ∈ items) (first last : Char) (space : Space) :
    text s.item <:+: first :: (space.chars ++ (listing text items ++ [last])) := by
  have hinner : listing text items <:+: space.chars ++ (listing text items ++ [last]) :=
    ⟨_, _, List.append_assoc ..⟩
  exact ((isInfix_listing hs).trans hinner).trans (List.suffix_cons _ _).isInfix

/-- A text without NaN and the infinities in it has no other words than documents have. -/
theorem Denotes.literal {cs : List Char} {d? : Option Datum} (h : Denotes words cs d?)
    (hnan : ¬ "NaN".toList <:+: cs) (hinfinite : ¬ "Infinity".toList <:+: cs) :
    Denotes literals cs d? := by
  induction h with
  | word h =>
      simp only [words, List.mem_cons, List.not_mem_nil, or_false, Prod.mk.injEq] at h
      rcases h with ⟨rfl, rfl⟩ | ⟨rfl, rfl⟩ | ⟨rfl, rfl⟩ | ⟨rfl, -⟩ | ⟨rfl, -⟩ | ⟨rfl, -⟩
      · exact .word (by simp [literals])
      · exact .word (by simp [literals])
      · exact .word (by simp [literals])
      · exact absurd List.infix_rfl hnan
      · exact absurd List.infix_rfl hinfinite
      · exact absurd (List.suffix_cons '-' _).isInfix hinfinite
  | number n => exact .number n
  | string pieces => exact .string pieces
  | array space items _ ih =>
      refine .array space items fun s hs => ?_
      have hitem := isInfix_bracketed Spelling.chars hs '[' ']' space
      exact ih s hs (fun h => hnan (h.trans hitem)) fun h => hinfinite (h.trans hitem)
  | object space members _ ih =>
      refine .object space members fun m hm => ?_
      have hvalue : m.item.2.chars <:+: Spelling.memberChars m.item := (List.suffix_append _ _).isInfix
      have hmember := hvalue.trans (isInfix_bracketed Spelling.memberChars hm '\x7b' '\x7d' space)
      exact ih m hm (fun h => hnan (h.trans hmember)) fun h => hinfinite (h.trans hmember)

/-- The text of a value with the layout around it. -/
def DenotesDocument (words : List (String × Datum)) (text : String) (d? : Option Datum) : Prop :=
  ∃ before after : Space, ∃ cs, Denotes words cs d? ∧
    text.toList = before.chars ++ cs ++ after.chars

namespace DenotesDocument

variable {text : String} {d? : Option Datum}

theorem mono {known more : List (String × Datum)} (hsubset : known ⊆ more)
    (h : DenotesDocument known text d?) : DenotesDocument more text d? := by
  obtain ⟨before, after, cs, hcs, htext⟩ := h
  exact ⟨before, after, cs, hcs.mono hsubset, htext⟩

theorem literal (h : DenotesDocument words text d?) (hnan : ¬ "NaN".toList <:+: text.toList)
    (hinfinite : ¬ "Infinity".toList <:+: text.toList) : DenotesDocument literals text d? := by
  obtain ⟨before, after, cs, hcs, htext⟩ := h
  rw [htext] at hnan hinfinite
  have hinfix : cs <:+: before.chars ++ cs ++ after.chars := ⟨_, _, rfl⟩
  exact ⟨before, after, cs, hcs.literal (fun h => hnan (h.trans hinfix))
    fun h => hinfinite (h.trans hinfix), htext⟩

end DenotesDocument

/-! ### How a value starts

The reader decides by one character which kind of value it is about to read, and an array or an object that
is empty differs from others by its second character. So it has to be known that no value starts with a
closing bracket or with layout. -/

/-- The characters that values start with. -/
def opening (words : List (String × Datum)) (c : Char) : Bool :=
  ['"', '\x7b', '[', '-'].contains c || isAsciiDigit c ||
    words.any fun entry => entry.1.toList.head? == some c

section Opening

variable {known : List (String × Datum)}

theorem Number.exists_opening (n : Number) :
    ∃ c cs, n.chars = c :: cs ∧ opening known c = true := by
  obtain ⟨c, cs, hchars, hc, -⟩ := n.exists_chars_eq []
  rw [List.append_nil] at hchars
  refine ⟨c, cs, hchars, ?_⟩
  rcases hc with rfl | hc
  · rfl
  · rw [opening, hc, Bool.or_true, Bool.true_or]

theorem Denotes.exists_opening (hwords : ∀ entry ∈ known, entry.1.toList ≠ []) {cs : List Char}
    {d? : Option Datum} (h : Denotes known cs d?) :
    ∃ c more, cs = c :: more ∧ opening known c = true := by
  cases h with
  | @word word d h =>
      obtain ⟨c, more, hchars⟩ := List.exists_cons_of_ne_nil (hwords _ h)
      refine ⟨c, more, hchars, ?_⟩
      have hany : (known.any fun entry => entry.1.toList.head? == some c) = true := by
        refine List.any_eq_true.mpr ⟨_, h, ?_⟩
        rw [hchars, List.head?_cons, beq_self_eq_true]
      rw [opening, hany, Bool.or_true]
  | number n => exact n.exists_opening
  | string pieces => exact ⟨'"', _, rfl, rfl⟩
  | array space items => exact ⟨'[', _, rfl, rfl⟩
  | object space members => exact ⟨'\x7b', _, rfl, rfl⟩

end Opening

theorem skipSpace_append (space : Space) (cs : List Char) :
    skipSpace (space.chars ++ cs) = skipSpace cs := by
  have hspaces : ∀ c ∈ spaceChars, isSpace c = true :=
    List.all_iff_forall_prop.mp (by decide)
  exact List.dropWhile_append_of_pos fun c hc => hspaces c (space.blank c hc)

theorem skipSpace_opening {c : Char} (hc : opening words c = true) (cs : List Char) :
    skipSpace (c :: cs) = c :: cs := by
  have hspaces : ∀ c ∈ spaceChars, opening words c = false :=
    List.all_iff_forall_prop.mp (by decide)
  refine List.dropWhile_cons_of_neg fun hspace => ?_
  have hmem : c ∈ spaceChars := by simpa [isSpace, spaceChars, or_assoc] using hspace
  rw [hspaces c hmem] at hc
  cases hc

theorem skipSpace_stop {c : Char} (hc : c ∈ [',', ':', ']', '\x7d']) (cs : List Char) :
    skipSpace (c :: cs) = c :: cs := by
  have hstops : ∀ c ∈ [',', ':', ']', '\x7d'], ¬ isSpace c = true :=
    List.all_iff_forall_prop.mp (by decide)
  exact List.dropWhile_cons_of_neg (hstops c hc)

theorem delimited_space (space : Space) {cs : List Char} (h : Delimited cs) :
    Delimited (space.chars ++ cs) := by
  obtain ⟨chars, hblank⟩ := space
  cases chars with
  | nil => exact h
  | cons c chars =>
      exact delimited_cons (List.mem_append_left _ (hblank c List.mem_cons_self)) _

/-- The text starts as a value does, and in front of any text that a value may end at, it is read as the
data. -/
structure IsRead (cs : List Char) (d? : Option Datum) : Prop where
  starts : ∃ c more, cs = c :: more ∧ opening words c = true
  value : ∀ fuel rest, cs.length ≤ fuel → Delimited rest →
    (Json.value fuel (cs ++ rest)).toOption = d?.map (·, rest)

theorem IsRead.skipSpace_append {cs : List Char} {d? : Option Datum} (h : IsRead cs d?)
    (rest : List Char) : skipSpace (cs ++ rest) = cs ++ rest := by
  obtain ⟨c, more, rfl, hc⟩ := h.starts
  exact skipSpace_opening hc _

/-- Reading a value takes a step at least, so it need be looked at with steps left only. -/
theorem isRead_of_succ {cs : List Char} {d? : Option Datum}
    (hstarts : ∃ c more, cs = c :: more ∧ opening words c = true)
    (hvalue : ∀ fuel rest, cs.length ≤ fuel + 1 → Delimited rest →
      (value (fuel + 1) (cs ++ rest)).toOption = d?.map (·, rest)) : IsRead cs d? := by
  refine ⟨hstarts, ?_⟩
  rintro (_ | fuel) rest hfuel hrest
  · obtain ⟨c, more, rfl, -⟩ := hstarts
    exact absurd hfuel (Nat.not_succ_le_zero _)
  · exact hvalue fuel rest hfuel hrest

theorem isRead_word {word : String} {d : Datum} (h : (word, d) ∈ words) :
    IsRead word.toList (some d) := by
  simp only [words, List.mem_cons, List.not_mem_nil, or_false, Prod.mk.injEq] at h
  rcases h with ⟨rfl, rfl⟩ | ⟨rfl, rfl⟩ | ⟨rfl, rfl⟩ | ⟨rfl, rfl⟩ | ⟨rfl, rfl⟩ | ⟨rfl, rfl⟩ <;>
    exact isRead_of_succ ⟨_, _, rfl, rfl⟩ fun _ _ _ _ => rfl

theorem isRead_string (pieces : List Piece) :
    IsRead (quotedPieces pieces) (some (.string (String.ofList (decode pieces)))) := by
  refine isRead_of_succ ⟨'"', _, rfl, rfl⟩ fun fuel rest _ _ => ?_
  have hchars : quotedPieces pieces ++ rest = '"' :: (pieces.flatMap Piece.chars ++ '"' :: rest) := by
    rw [quotedPieces, List.cons_append, List.append_assoc, List.singleton_append]
  rw [hchars, value, stringBody_pieces]
  rfl

/-- A text that starts as a number does is read as one. -/
theorem value_number {c : Char} {cs : List Char} (hc : c = '-' ∨ isAsciiDigit c = true)
    (hword : word? (c :: cs) = none) (fuel : Nat) :
    value (fuel + 1) (c :: cs) = (number? (c :: cs)).getD (fail .value (c :: cs)) := by
  have hne {d : Char} (hd : opening words d = true ∧ isAsciiDigit d = false ∧ d ≠ '-') : c ≠ d := by
    rintro rfl
    rcases hc with rfl | hc
    · exact hd.2.2 rfl
    · rw [hd.2.1] at hc
      cases hc
  rw [value.eq_def]
  dsimp only
  split
  · rename_i heq
    cases heq
  · rename_i heq
    exact absurd (List.cons.inj heq).1 (hne (by decide))
  · rename_i heq
    exact absurd (List.cons.inj heq).1 (hne (by decide))
  · rename_i heq
    exact absurd (List.cons.inj heq).1 (hne (by decide))
  · rw [hword]

theorem isRead_number (n : Number) : IsRead n.chars n.datum? := by
  refine isRead_of_succ n.exists_opening fun fuel rest _ hrest => ?_
  obtain ⟨reading, hnumber, hreading⟩ := number?_chars n hrest
  obtain ⟨c, cs, hchars, hc, hword⟩ := n.exists_chars_eq rest
  rw [hchars] at hnumber
  rw [← hreading, hchars, value_number hc hword, hnumber, Option.getD_some]

theorem toOption_elements {items : List (Spaced Spelling)} (hne : items ≠ [])
    (hitems : ∀ s ∈ items, IsRead s.item.chars s.item.datum?) (fuel : Nat)
    (hfuel : (listing Spelling.chars items).length < fuel) (rest : List Char) :
    (elements fuel (skipSpace (listing Spelling.chars items ++ ']' :: rest))).toOption
      = (Spelling.items? items).map (·, rest) := by
  induction items generalizing fuel with
  | nil => exact absurd rfl hne
  | cons s items ih =>
      obtain ⟨before, ⟨cs, d?⟩, after⟩ := s
      obtain ⟨hs, hothers⟩ := List.forall_mem_cons.mp hitems
      change IsRead cs d? at hs
      obtain ⟨fuel, rfl⟩ := Nat.exists_eq_add_one_of_ne_zero (Nat.ne_zero_of_lt hfuel)
      cases items with
      | nil =>
          rw [listing_singleton] at hfuel ⊢
          simp only [List.length_append] at hfuel
          have hvalue := hs.value fuel (after.chars ++ ']' :: rest) (by omega)
            (delimited_space after (delimited_cons (by decide) rest))
          rw [List.append_assoc, List.append_assoc, skipSpace_append, hs.skipSpace_append, elements,
            toOption_bind, hvalue, Spelling.items?_cons]
          cases d? with
          | none => rfl
          | some d =>
              rw [Option.map_some, Option.bind_some]
              dsimp only
              rw [skipSpace_append, skipSpace_stop (by decide)]
              rfl
      | cons next items =>
          rw [listing_cons_cons] at hfuel ⊢
          simp only [List.length_append, List.length_cons] at hfuel
          have hvalue := hs.value fuel
            (after.chars ++ ',' :: (listing Spelling.chars (next :: items) ++ ']' :: rest))
            (by omega) (delimited_space after (delimited_cons (by decide) _))
          have hrest := ih (List.cons_ne_nil next items) hothers fuel (by omega)
          rw [List.append_assoc, List.append_assoc, List.append_assoc, List.cons_append,
            skipSpace_append, hs.skipSpace_append, elements, toOption_bind, hvalue, Spelling.items?_cons]
          cases d? with
          | none => rfl
          | some d =>
              rw [Option.map_some, Option.bind_some]
              dsimp only
              rw [skipSpace_append, skipSpace_stop (by decide)]
              refine (toOption_bind _ _).trans ?_
              rw [hrest, Option.bind_some]
              cases Spelling.items? (next :: items) <;> rfl

theorem exists_skipSpace_listing {α : Type} {text : α → List Char} {s : Spaced α}
    (h : ∃ c cs, text s.item = c :: cs ∧ opening words c = true) (items : List (Spaced α))
    (rest : List Char) :
    ∃ c cs, skipSpace (listing text (s :: items) ++ rest) = c :: cs ∧ opening words c = true := by
  obtain ⟨c, cs, htext, hc⟩ := h
  obtain ⟨more, hmore⟩ := exists_listing_eq text s items rest
  rw [hmore, skipSpace_append, htext]
  exact ⟨c, _, skipSpace_opening hc _, hc⟩

theorem isRead_array (space : Space) {items : List (Spaced Spelling)}
    (hitems : ∀ s ∈ items, IsRead s.item.chars s.item.datum?) :
    IsRead ('[' :: (space.chars ++ (listing Spelling.chars items ++ [']'])))
      ((Spelling.items? items).map .list) := by
  refine isRead_of_succ ⟨'[', _, rfl, rfl⟩ fun fuel rest hfuel hrest => ?_
  simp only [List.length_cons, List.length_append] at hfuel
  rw [List.cons_append, List.append_assoc, List.append_assoc, List.singleton_append, value,
    skipSpace_append]
  cases items with
  | nil =>
      rw [listing_nil, List.nil_append, skipSpace_stop (by decide)]
      rfl
  | cons s items =>
      have helements := toOption_elements (List.cons_ne_nil s items) hitems fuel (by omega) rest
      obtain ⟨c, cs, hskip, hc⟩ :=
        exists_skipSpace_listing (hitems s List.mem_cons_self).starts items (']' :: rest)
      rw [hskip] at helements ⊢
      split
      · rename_i heq
        rw [(List.cons.inj heq).1] at hc
        cases hc
      · rw [toOption_bind, helements]
        cases Spelling.items? (s :: items) <;> rfl

/-- A member is read up to its end, and what follows it decides how reading goes on. -/
theorem toOption_members_succ (key : Key) {s : Spelling} (hs : IsRead s.chars s.datum?) {fuel : Nat}
    (hfuel : s.chars.length ≤ fuel) (done : List (Datum × Datum)) {cs : List Char}
    (hcs : Delimited cs) :
    (members (fuel + 1) done (Spelling.memberChars (key, s) ++ cs)).toOption =
      (Spelling.member? (key, s)).bind fun entry =>
        Except.toOption <| match skipSpace cs with
          | '\x7d' :: rest => .ok (Datum.insert entry.1 entry.2 done, rest)
          | ',' :: rest => members fuel (Datum.insert entry.1 entry.2 done) (skipSpace rest)
          | rest => fail .comma rest := by
  have hchars : Spelling.memberChars (key, s) ++ cs = '"' :: (key.pieces.flatMap Piece.chars ++ '"' ::
      (key.before.chars ++ ':' :: (key.after.chars ++ (s.chars ++ cs)))) := by
    simp [Spelling.memberChars, Key.chars, quotedPieces]
  have hcolon : skipSpace (key.before.chars ++ ':' :: (key.after.chars ++ (s.chars ++ cs)))
      = ':' :: (key.after.chars ++ (s.chars ++ cs)) := by
    rw [skipSpace_append, skipSpace_stop (by decide)]
  have hvalue : skipSpace (key.after.chars ++ (s.chars ++ cs)) = s.chars ++ cs := by
    rw [skipSpace_append, hs.skipSpace_append]
  rw [hchars, members, stringBody_pieces]
  change Except.toOption (Except.bind (Except.ok _) _) = _
  rw [Except.bind]
  dsimp only
  rw [hcolon]
  refine (toOption_bind _ _).trans ?_
  rw [hvalue, hs.value fuel cs hfuel hcs, Spelling.member?]
  cases s.datum? <;> rfl

/-- Members are set one after the other among those that have been read. -/
theorem toOption_members {entries : List (Spaced (Key × Spelling))} (hne : entries ≠ [])
    (hentries : ∀ m ∈ entries, IsRead m.item.2.chars m.item.2.datum?) (done : List (Datum × Datum))
    (fuel : Nat) (hfuel : (listing Spelling.memberChars entries).length < fuel) (rest : List Char) :
    (members fuel done
        (skipSpace (listing Spelling.memberChars entries ++ '\x7d' :: rest))).toOption
      = (Spelling.members? entries).map fun others =>
          (others.foldl (fun done entry => Datum.insert entry.1 entry.2 done) done, rest) := by
  induction entries generalizing fuel done with
  | nil => exact absurd rfl hne
  | cons m entries ih =>
      obtain ⟨before, ⟨key, s⟩, after⟩ := m
      obtain ⟨hs, hothers⟩ := List.forall_mem_cons.mp hentries
      change IsRead s.chars s.datum? at hs
      obtain ⟨fuel, rfl⟩ := Nat.exists_eq_add_one_of_ne_zero (Nat.ne_zero_of_lt hfuel)
      have hlength : (Spelling.memberChars (key, s)).length = key.chars.length + s.chars.length :=
        List.length_append
      have hskip (cs : List Char) :
          skipSpace (Spelling.memberChars (key, s) ++ cs) = Spelling.memberChars (key, s) ++ cs :=
        skipSpace_opening rfl _
      cases entries with
      | nil =>
          rw [listing_singleton] at hfuel ⊢
          simp only [List.length_append] at hfuel
          rw [List.append_assoc, List.append_assoc, skipSpace_append, hskip,
            toOption_members_succ key hs (by omega) done
              (delimited_space after (delimited_cons (by decide) rest)),
            skipSpace_append, skipSpace_stop (by decide), Spelling.members?_cons]
          cases Spelling.member? (key, s) <;> rfl
      | cons next entries =>
          rw [listing_cons_cons] at hfuel ⊢
          simp only [List.length_append, List.length_cons] at hfuel
          rw [List.append_assoc, List.append_assoc, List.append_assoc, List.cons_append,
            skipSpace_append, hskip, toOption_members_succ key hs (by omega) done
              (delimited_space after (delimited_cons (by decide) _)),
            skipSpace_append, skipSpace_stop (by decide), Spelling.members?_cons]
          cases Spelling.member? (key, s) with
          | none => rfl
          | some entry =>
              have hrest := ih (List.cons_ne_nil next entries) hothers
                (Datum.insert entry.1 entry.2 done) fuel (by omega)
              rw [Option.bind_some]
              refine hrest.trans ?_
              cases Spelling.members? (next :: entries) <;> rfl

theorem isRead_object (space : Space) {entries : List (Spaced (Key × Spelling))}
    (hentries : ∀ m ∈ entries, IsRead m.item.2.chars m.item.2.datum?) :
    IsRead ('\x7b' :: (space.chars ++ (listing Spelling.memberChars entries ++ ['\x7d'])))
      ((Spelling.members? entries).map fun entries =>
        .dict (Datum.ofEntries entries)) := by
  refine isRead_of_succ ⟨'\x7b', _, rfl, rfl⟩ fun fuel rest hfuel hrest => ?_
  simp only [List.length_cons, List.length_append] at hfuel
  rw [List.cons_append, List.append_assoc, List.append_assoc, List.singleton_append, value,
    skipSpace_append]
  cases entries with
  | nil =>
      rw [listing_nil, List.nil_append, skipSpace_stop (by decide)]
      rfl
  | cons m entries =>
      have hmembers := toOption_members (List.cons_ne_nil m entries) hentries [] fuel (by omega) rest
      have hstarts : ∃ c cs, Spelling.memberChars m.item = c :: cs ∧ opening words c = true :=
        ⟨'"', _, rfl, rfl⟩
      obtain ⟨c, cs, hskip, hc⟩ := exists_skipSpace_listing hstarts entries ('\x7d' :: rest)
      rw [hskip] at hmembers ⊢
      split
      · rename_i heq
        rw [(List.cons.inj heq).1] at hc
        cases hc
      · rw [toOption_bind, hmembers]
        cases Spelling.members? (m :: entries) <;> rfl

theorem Denotes.isRead {cs : List Char} {d? : Option Datum} (h : Denotes words cs d?) :
    IsRead cs d? := by
  induction h with
  | word h => exact isRead_word h
  | number n => exact isRead_number n
  | string pieces => exact isRead_string pieces
  | array space items _ ih => exact isRead_array space ih
  | object space members _ ih => exact isRead_object space ih

theorem toOption_readChars {cs : List Char} {d? : Option Datum} (h : IsRead cs d?)
    (before after : Space) :
    (readChars (before.chars ++ cs ++ after.chars)).toOption = d? := by
  have hskip : skipSpace (before.chars ++ cs ++ after.chars) = cs ++ after.chars := by
    rw [List.append_assoc, skipSpace_append, h.skipSpace_append]
  have hafter : Delimited after.chars := by
    have hnil : Delimited [] := nofun
    have hspace := delimited_space after hnil
    rwa [List.append_nil] at hspace
  have hend : skipSpace after.chars = [] := by
    have hnil := skipSpace_append after []
    rwa [List.append_nil] at hnil
  rw [readChars.eq_def]
  split
  · rename_i rest heq
    obtain ⟨c, more, rfl, hc⟩ := h.starts
    have hmark : c :: more ++ after.chars = '\uFEFF' :: rest := by
      rw [← hskip, heq]
      exact List.dropWhile_cons_of_neg (by decide)
    rw [(List.cons.inj hmark).1] at hc
    cases hc
  · rw [hskip, toOption_bind, h.value _ after.chars (by simp; omega) hafter]
    cases d? with
    | none => rfl
    | some d =>
        rw [Option.map_some, Option.bind_some]
        dsimp only
        rw [hend]
        rfl

/-- A document is read as what its text stands for. -/
theorem DenotesDocument.toOption_read {text : String} {d? : Option Datum}
    (h : DenotesDocument words text d?) : (read text).toOption = d? := by
  obtain ⟨before, after, cs, hcs, htext⟩ := h
  rw [← toOption_readChars hcs.isRead before after, ← htext, read]
  cases readChars text.toList <;> rfl

end ApiProbe.Json
