import ApiProbe.Proofs.Json.Spelling

/-!
# What is read

Whatever is read is the text of a value, with NaN and the infinities among the words, and it is read as
what the text stands for.
-/

namespace ApiProbe.Json

open Numeral (Decimal Exponent)
open Text (isAsciiDigit)

theorem exists_space (cs : List Char) : ∃ space : Space, cs = space.chars ++ skipSpace cs := by
  refine ⟨⟨cs.takeWhile isSpace, fun c hc => ?_⟩, (List.takeWhile_append_dropWhile ..).symm⟩
  simpa [isSpace, spaceChars, or_assoc] using List.mem_takeWhile_imp hc

section Tokens

variable {cs rest : List Char} {d : Datum}

theorem exists_word (h : word? cs = some (d, rest)) :
    ∃ word, (word, d) ∈ words ∧ cs = word.toList ++ rest := by
  obtain ⟨⟨word, e⟩, hentry, hdrop⟩ := List.exists_of_findSome?_eq_some h
  obtain ⟨after, hafter, hpair⟩ := Option.map_eq_some_iff.mp hdrop
  obtain ⟨rfl, rfl⟩ := Prod.mk.inj hpair
  refine ⟨word, hentry, ?_⟩
  unfold dropWord? at hafter
  split at hafter
  · rename_i hfront
    obtain ⟨more, rfl⟩ := List.isPrefixOf_iff_prefix.mp hfront
    obtain rfl := Option.some.inj hafter
    rw [← String.length_toList, List.drop_left]
  · cases hafter

theorem takeWhile_digits (cs : List Char) : ∀ c ∈ cs.takeWhile isAsciiDigit, isAsciiDigit c = true :=
  fun _ => List.mem_takeWhile_imp

/-- Digits that start with no zero unless that is all of them. -/
structure IsWholePart (whole : List Char) : Prop where
  ne_nil : whole ≠ []
  digits : ∀ c ∈ whole, isAsciiDigit c = true
  leading : whole.head? = some '0' → whole = ['0']

theorem wholePart?_eq_some {whole : List Char} (h : wholePart? cs = some (whole, rest)) :
    cs = whole ++ rest ∧ IsWholePart whole := by
  unfold wholePart? at h
  split at h
  · cases h
  · rename_i c after
    split at h
    · rename_i hzero
      obtain ⟨rfl, rfl⟩ := Prod.mk.inj (Option.some.inj h)
      rw [beq_iff_eq] at hzero
      subst hzero
      exact ⟨rfl, List.cons_ne_nil _ _, List.forall_mem_singleton.mpr rfl, fun _ => rfl⟩
    · rename_i hzero
      split at h
      · rename_i hrange
        obtain ⟨rfl, rfl⟩ := Prod.mk.inj (Option.some.inj h)
        rw [Bool.and_eq_true, decide_eq_true_eq, decide_eq_true_eq] at hrange
        have hc : isAsciiDigit c = true := by
          have hlow : 49 ≤ c.toNat := hrange.1
          exact Text.isAsciiDigit_iff.mpr ⟨by omega, hrange.2⟩
        refine ⟨?_, List.cons_ne_nil _ _, List.forall_mem_cons.mpr ⟨hc, takeWhile_digits after⟩, ?_⟩
        · rw [List.cons_append, List.takeWhile_append_dropWhile]
        · intro hhead
          rw [Option.some.inj hhead] at hzero
          exact absurd rfl hzero
      · cases h

theorem fractionPart_eq {part : Option (List Char)} (h : fractionPart cs = (part, rest)) :
    cs = Decimal.fractionChars (part.getD []) ++ rest ∧
      (∀ c ∈ part.getD [], isAsciiDigit c = true) ∧ part.isNone = (part.getD []).isEmpty := by
  unfold fractionPart at h
  split at h
  · rename_i after
    dsimp only at h
    split at h
    · obtain ⟨rfl, rfl⟩ := Prod.mk.inj h
      exact ⟨rfl, nofun, rfl⟩
    · rename_i hne
      obtain ⟨rfl, rfl⟩ := Prod.mk.inj h
      rw [List.isEmpty_iff] at hne
      refine ⟨?_, takeWhile_digits after, ?_⟩
      · rw [Option.getD_some, Decimal.fractionChars_of_ne_nil hne, List.cons_append,
          List.takeWhile_append_dropWhile]
      · rw [Option.getD_some, List.isEmpty_eq_false_iff.mpr hne]
        rfl
  · obtain ⟨rfl, rfl⟩ := Prod.mk.inj h
    exact ⟨rfl, nofun, rfl⟩

theorem exists_signChars (cs : List Char) :
    ∃ sign : Option Bool, cs = Exponent.signChars sign ++ (Numeral.splitSign cs).2 ∧
      sign.getD false = (Numeral.splitSign cs).1 := by
  unfold Numeral.splitSign
  split
  · exact ⟨some true, rfl, rfl⟩
  · exact ⟨some false, rfl, rfl⟩
  · exact ⟨none, rfl, rfl⟩

theorem exponentPart_eq {value : Option Int} (h : exponentPart cs = (value, rest)) :
    ∃ exponent : Option Exponent, cs = Decimal.exponentChars exponent ++ rest ∧
      exponent.map Exponent.value = value ∧ ∀ e ∈ exponent, e.WellFormed := by
  unfold exponentPart at h
  split at h
  · rename_i letter after
    split at h
    · rename_i hletter
      obtain ⟨sign, hsign, hnegative⟩ := exists_signChars after
      dsimp only at h
      split at h
      · obtain ⟨rfl, rfl⟩ := Prod.mk.inj h
        exact ⟨none, rfl, rfl, nofun⟩
      · rename_i hne
        obtain ⟨rfl, rfl⟩ := Prod.mk.inj h
        rw [List.isEmpty_iff] at hne
        refine ⟨some ⟨letter, sign, (Numeral.splitSign after).2.takeWhile isAsciiDigit⟩, ?_, ?_, ?_⟩
        · rw [Decimal.exponentChars, Exponent.chars, List.cons_append, List.append_assoc,
            List.takeWhile_append_dropWhile, ← hsign]
        · rw [Option.map_some, Exponent.value, hnegative]
        · rintro e he
          obtain rfl := Option.some.inj he
          exact ⟨hletter, hne, takeWhile_digits _⟩
    · obtain ⟨rfl, rfl⟩ := Prod.mk.inj h
      exact ⟨none, rfl, rfl, nofun⟩
  · obtain ⟨rfl, rfl⟩ := Prod.mk.inj h
    exact ⟨none, rfl, rfl, nofun⟩

theorem exists_number (h : number? cs = some (.ok (d, rest))) :
    ∃ n : Number, cs = n.chars ++ rest ∧ n.datum? = some d := by
  unfold number? at h
  split at h
  rename_i negative body hsign
  have hcs : cs = if negative then '-' :: body else body := by
    split at hsign <;> obtain ⟨rfl, rfl⟩ := Prod.mk.inj hsign <;> rfl
  cases hwhole : wholePart? body with
  | none =>
      rw [hwhole] at h
      cases h
  | some parts =>
      obtain ⟨whole, afterWhole⟩ := parts
      rcases hfraction : fractionPart afterWhole with ⟨part, afterFraction⟩
      rcases hexponent : exponentPart afterFraction with ⟨value, afterExponent⟩
      simp only [hwhole, hfraction, hexponent] at h
      obtain ⟨rfl, hpart⟩ := wholePart?_eq_some hwhole
      obtain ⟨rfl, hdigits, hnone⟩ := fractionPart_eq hfraction
      obtain ⟨exponent, rfl, rfl, hwell⟩ := exponentPart_eq hexponent
      let n : Number :=
        { negative, decimal := ⟨whole, part.getD [], exponent⟩, whole_ne_nil := hpart.ne_nil,
          whole := hpart.digits, leading := hpart.leading, fraction := hdigits, exponent := hwell }
      have hchars : cs = n.chars ++ afterExponent := by
        rw [hcs, Number.chars, Decimal.chars]
        cases negative <;> simp [n]
      have hisWhole : (part.isNone && (exponent.map Exponent.value).isNone) = n.isWhole := by
        rw [hnone, Option.isNone_map, Number.isWhole]
      have hplace : (exponent.map Exponent.value).getD 0 - ((part.getD []).length : Int)
          = n.decimal.place := n.place_eq.symm
      rw [hisWhole, hplace] at h
      refine ⟨n, ?_⟩
      rw [Number.datum?]
      split at h
      · rename_i hn
        rw [if_pos hn]
        split at h
        · cases h
        · rename_i hfits
          obtain ⟨rfl, rfl⟩ := Prod.mk.inj (Except.ok.inj (Option.some.inj h))
          exact ⟨hchars, if_neg hfits⟩
      · rename_i hn
        rw [if_neg hn]
        obtain ⟨rfl, rfl⟩ := Prod.mk.inj (Except.ok.inj (Option.some.inj h))
        exact ⟨hchars, rfl⟩

theorem isHexDigit_of_hexValue? {c : Char} {n : Nat} (h : hexValue? c = some n) :
    isHexDigit c = true := by
  unfold hexValue? at h
  unfold isHexDigit
  split at h
  · rename_i hdecimal
    rw [hdecimal, Bool.true_or, Bool.true_or]
  · split at h
    · rename_i hlower
      rw [hlower, Bool.or_true, Bool.true_or]
    · split at h
      · rename_i hupper
        rw [hupper, Bool.or_true]
      · cases h

theorem isCode_of_hex4? {n : Nat} (h : hex4? cs = some n) : IsCode (cs.take 4) := by
  unfold hex4? at h
  split at h
  · simp only [Option.bind_eq_bind, Option.bind_eq_some_iff] at h
    obtain ⟨_, ha, _, hb, _, hc, _, hd, -⟩ := h
    refine ⟨rfl, ?_⟩
    simp only [List.take_succ_cons, List.take_zero, List.forall_mem_cons]
    exact ⟨isHexDigit_of_hexValue? ha, isHexDigit_of_hexValue? hb, isHexDigit_of_hexValue? hc,
      isHexDigit_of_hexValue? hd, List.forall_mem_nil _⟩
  · cases h

theorem exists_code {n : Nat} (h : hex4? cs = some n) :
    ∃ piece : Piece, '\\' :: 'u' :: cs = piece.chars ++ cs.drop 4 := by
  have hcode := isCode_of_hex4? h
  refine ⟨.code (cs.take 4) hcode.length hcode.hex, ?_⟩
  rw [Piece.chars, List.cons_append, List.cons_append, List.take_append_drop]

/-- An escape by code is one code, or the two of a pair. -/
theorem exists_codes {c : Char} {count : Nat} (h : unicodeEscape cs = .ok (c, count)) :
    ∃ pieces : List Piece,
      '\\' :: 'u' :: cs = pieces.flatMap Piece.chars ++ cs.drop count := by
  unfold unicodeEscape at h
  split at h
  · cases h
  · cases hhigh : hex4? cs with
    | none =>
        rw [hhigh] at h
        cases h
    | some high =>
        obtain ⟨piece, hpiece⟩ := exists_code hhigh
        have hsingle : ∃ pieces : List Piece,
            '\\' :: 'u' :: cs = pieces.flatMap Piece.chars ++ cs.drop 4 :=
          ⟨[piece], by rw [List.flatMap_singleton, hpiece]⟩
        rw [hhigh] at h
        dsimp only at h
        split at h
        · rename_i more hmore
          split at h
          · cases hlow : hex4? more with
            | none =>
                rw [hlow] at h
                cases h
            | some low =>
                rw [hlow] at h
                dsimp only at h
                split at h
                · obtain ⟨-, rfl⟩ := Prod.mk.inj (Except.ok.inj h)
                  obtain ⟨other, hother⟩ := exists_code hlow
                  have hdrop : cs.drop 10 = more.drop 4 := by
                    rw [← List.drop_drop (i := 6) (j := 4), hmore]
                    rfl
                  refine ⟨[piece, other], ?_⟩
                  rw [hpiece, hmore, hother, hdrop, List.flatMap_cons, List.flatMap_singleton,
                    List.append_assoc]
                · obtain ⟨-, rfl⟩ := Prod.mk.inj (Except.ok.inj h)
                  exact hsingle
          · obtain ⟨-, rfl⟩ := Prod.mk.inj (Except.ok.inj h)
            exact hsingle
        · obtain ⟨-, rfl⟩ := Prod.mk.inj (Except.ok.inj h)
          exact hsingle

theorem mem_escapeLetters {c e : Char} (h : escaped? c = some e) : c ∈ escapeLetters := by
  unfold escaped? at h
  split at h
  all_goals first | decide | cases h

theorem exists_pieces {start : Nat} {chars : List Char} (h : stringBody start cs = .ok (chars, rest)) :
    ∃ pieces : List Piece, cs = pieces.flatMap Piece.chars ++ '"' :: rest := by
  fun_induction stringBody start cs generalizing chars with
  | case1 | case3 | case4 | case6 | case8 => cases h
  | case2 c after hquote =>
      obtain ⟨-, rfl⟩ := Prod.mk.inj (Except.ok.inj h)
      exact ⟨[], by rw [beq_iff_eq.mp hquote, List.flatMap_nil, List.nil_append]⟩
  | case5 c hne hescape d more hu e count hcode ih =>
      obtain ⟨⟨_, _⟩, hrest, hpair⟩ := map_eq_ok_iff.mp h
      obtain ⟨-, rfl⟩ := Prod.mk.inj hpair
      obtain ⟨codes, hcodes⟩ := exists_codes hcode
      obtain ⟨pieces, hpieces⟩ := ih hrest
      refine ⟨codes ++ pieces, ?_⟩
      rw [beq_iff_eq.mp hescape, beq_iff_eq.mp hu, hcodes, hpieces, List.flatMap_append,
        List.append_assoc]
  | case7 c hne hescape d more hu e hletter ih =>
      obtain ⟨⟨_, _⟩, hrest, hpair⟩ := map_eq_ok_iff.mp h
      obtain ⟨-, rfl⟩ := Prod.mk.inj hpair
      obtain ⟨pieces, hpieces⟩ := ih hrest
      refine ⟨.letter d (mem_escapeLetters hletter) :: pieces, ?_⟩
      rw [beq_iff_eq.mp hescape, hpieces]
      rfl
  | case9 c more hquote hescape hcontrol ih =>
      obtain ⟨⟨_, _⟩, hrest, hpair⟩ := map_eq_ok_iff.mp h
      obtain ⟨-, rfl⟩ := Prod.mk.inj hpair
      obtain ⟨pieces, hpieces⟩ := ih hrest
      rw [beq_iff_eq] at hquote hescape
      refine ⟨.plain c ⟨Nat.not_lt.mp hcontrol, hquote, hescape⟩ :: pieces, ?_⟩
      rw [hpieces]
      rfl

/-- What is read between quotes is what the pieces stand for. -/
theorem exists_quotedPieces {start : Nat} {chars : List Char}
    (h : stringBody start cs = .ok (chars, rest)) :
    ∃ pieces, '"' :: cs = quotedPieces pieces ++ rest ∧ decode pieces = chars := by
  obtain ⟨pieces, rfl⟩ := exists_pieces h
  rw [stringBody_pieces] at h
  refine ⟨pieces, ?_, (Prod.mk.inj (Except.ok.inj h)).1⟩
  rw [quotedPieces, List.cons_append, List.append_assoc, List.singleton_append]

end Tokens

/-! ### Values

The reader is three functions that call each other, so that what each of them reads is shown for all three at
once, by induction on the steps that are left. Elements and members are read behind a bracket or a comma,
which is why layout in front of the first of them is taken along. -/

/-- The texts of items with commas between them, the layout in front of the first, and a closing bracket. -/
def ListsItems (space : Space) (cs : List Char) (items : List Datum) (rest : List Char) : Prop :=
  ∃ spellings ≠ [], (∀ s ∈ spellings, Denotes words s.item.chars s.item.datum?) ∧
    Spelling.items? spellings = some items ∧
    space.chars ++ cs = listing Spelling.chars spellings ++ ']' :: rest

/-- The same for the members of an object, which are set among those that have been read. -/
def ListsMembers (space : Space) (done : List (Datum × Datum)) (cs : List Char)
    (entries : List (Datum × Datum)) (rest : List Char) : Prop :=
  ∃ spellings ≠ [], (∀ m ∈ spellings, Denotes words m.item.2.chars m.item.2.datum?) ∧
    (∃ others, Spelling.members? spellings = some others ∧
      entries = others.foldl (fun done entry => Datum.insert entry.1 entry.2 done) done) ∧
    space.chars ++ cs = listing Spelling.memberChars spellings ++ '\x7d' :: rest

/-- What values, elements and members are read from is their text, for as many steps as there are left. -/
structure Accepts (fuel : Nat) : Prop where
  value : ∀ cs d rest, value fuel cs = .ok (d, rest) →
    ∃ front, Denotes words front (some d) ∧ cs = front ++ rest
  elements : ∀ cs items rest, elements fuel cs = .ok (items, rest) →
    ∀ space, ListsItems space cs items rest
  members : ∀ done cs entries rest, members fuel done cs = .ok (entries, rest) →
    ∀ space, ListsMembers space done cs entries rest

theorem listing_cons {α : Type} (text : α → List Char) (s : Spaced α) {items : List (Spaced α)}
    (h : items ≠ []) : listing text (s :: items) =
      s.before.chars ++ (text s.item ++ (s.after.chars ++ ',' :: listing text items)) := by
  obtain ⟨t, items, rfl⟩ := List.exists_cons_of_ne_nil h
  exact listing_cons_cons s t items

variable {fuel : Nat}

theorem Accepts.value_succ (ih : Accepts fuel) {cs rest : List Char} {d : Datum}
    (h : Json.value (fuel + 1) cs = .ok (d, rest)) :
    ∃ front, Denotes words front (some d) ∧ cs = front ++ rest := by
  rw [Json.value.eq_def] at h
  dsimp only at h
  split at h
  · cases h
  · obtain ⟨⟨chars, _⟩, hbody, h⟩ := bind_eq_ok_iff.mp h
    obtain ⟨rfl, rfl⟩ := Prod.mk.inj (Except.ok.inj h)
    obtain ⟨pieces, hchars, rfl⟩ := exists_quotedPieces hbody
    exact ⟨_, .string pieces, hchars⟩
  · rename_i inside
    obtain ⟨space, hspace⟩ := exists_space inside
    split at h
    · rename_i hend
      obtain ⟨rfl, rfl⟩ := Prod.mk.inj (Except.ok.inj h)
      refine ⟨_, .object space [] (List.forall_mem_nil _), ?_⟩
      rw [hspace, hend]
      simp [listing_nil]
    · obtain ⟨⟨entries, _⟩, hmembers, h⟩ := bind_eq_ok_iff.mp h
      obtain ⟨rfl, rfl⟩ := Prod.mk.inj (Except.ok.inj h)
      obtain ⟨spellings, -, hdenotes, ⟨others, hothers, rfl⟩, hlisting⟩ :=
        ih.members _ _ _ _ hmembers space
      have hobject := Denotes.object ⟨[], List.forall_mem_nil _⟩ spellings hdenotes
      rw [hothers] at hobject
      refine ⟨_, hobject, ?_⟩
      rw [hspace, hlisting]
      simp
  · rename_i inside
    obtain ⟨space, hspace⟩ := exists_space inside
    split at h
    · rename_i hend
      obtain ⟨rfl, rfl⟩ := Prod.mk.inj (Except.ok.inj h)
      refine ⟨_, .array space [] (List.forall_mem_nil _), ?_⟩
      rw [hspace, hend]
      simp [listing_nil]
    · obtain ⟨⟨items, _⟩, helements, h⟩ := bind_eq_ok_iff.mp h
      obtain ⟨rfl, rfl⟩ := Prod.mk.inj (Except.ok.inj h)
      obtain ⟨spellings, -, hdenotes, hitems, hlisting⟩ := ih.elements _ _ _ helements space
      have harray := Denotes.array ⟨[], List.forall_mem_nil _⟩ spellings hdenotes
      rw [hitems] at harray
      refine ⟨_, harray, ?_⟩
      rw [hspace, hlisting]
      simp
  · split at h
    · rename_i hword
      obtain rfl := Except.ok.inj h
      obtain ⟨word, hmem, hchars⟩ := exists_word hword
      exact ⟨_, .word hmem, hchars⟩
    · cases hnumber : number? cs with
      | none =>
          rw [hnumber] at h
          cases h
      | some reading =>
          rw [hnumber, Option.getD_some] at h
          obtain ⟨n, hchars, hn⟩ := exists_number (h ▸ hnumber)
          exact ⟨n.chars, hn ▸ .number n, hchars⟩

theorem Accepts.elements_succ (ih : Accepts fuel) {cs rest : List Char} {items : List Datum}
    (h : Json.elements (fuel + 1) cs = .ok (items, rest)) (space : Space) :
    ListsItems space cs items rest := by
  rw [Json.elements.eq_def] at h
  dsimp only at h
  obtain ⟨⟨d, back⟩, hvalue, h⟩ := bind_eq_ok_iff.mp h
  obtain ⟨front, hfront, hback⟩ := ih.value _ _ _ hvalue
  obtain ⟨after, hafter⟩ := exists_space back
  let s : Spaced Spelling := ⟨space, ⟨front, some d⟩, after⟩
  dsimp only at h
  split at h
  · rename_i hend
    obtain ⟨rfl, rfl⟩ := Prod.mk.inj (Except.ok.inj h)
    refine ⟨[s], List.cons_ne_nil _ _, List.forall_mem_singleton.mpr hfront, rfl, ?_⟩
    rw [hback, hafter, hend, listing_singleton]
    simp [s]
  · rename_i next hnext
    obtain ⟨⟨others, _⟩, hothers, h⟩ := bind_eq_ok_iff.mp h
    obtain ⟨rfl, rfl⟩ := Prod.mk.inj (Except.ok.inj h)
    obtain ⟨before, hbefore⟩ := exists_space next
    obtain ⟨spellings, hne, hdenotes, hitems, hlisting⟩ := ih.elements _ _ _ hothers before
    refine ⟨s :: spellings, List.cons_ne_nil _ _, List.forall_mem_cons.mpr ⟨hfront, hdenotes⟩, ?_, ?_⟩
    · rw [Spelling.items?_cons, hitems]
      rfl
    · rw [hback, hafter, hnext, hbefore, hlisting, listing_cons _ _ hne]
      simp [s]
  · cases h

theorem Accepts.members_succ (ih : Accepts fuel) {done entries : List (Datum × Datum)}
    {cs rest : List Char} (h : Json.members (fuel + 1) done cs = .ok (entries, rest))
    (space : Space) : ListsMembers space done cs entries rest := by
  rw [Json.members.eq_def] at h
  dsimp only at h
  split at h
  · obtain ⟨⟨chars, afterName⟩, hbody, h⟩ := bind_eq_ok_iff.mp h
    obtain ⟨pieces, hname, rfl⟩ := exists_quotedPieces hbody
    obtain ⟨beforeColon, hbeforeColon⟩ := exists_space afterName
    dsimp only at h
    split at h
    · rename_i afterColon hcolon
      obtain ⟨behind, hbehind⟩ := exists_space afterColon
      obtain ⟨⟨d, back⟩, hvalue, h⟩ := bind_eq_ok_iff.mp h
      obtain ⟨front, hfront, hback⟩ := ih.value _ _ _ hvalue
      obtain ⟨after, hafter⟩ := exists_space back
      let key : Key := ⟨pieces, beforeColon, behind⟩
      let m : Spaced (Key × Spelling) := ⟨space, (key, ⟨front, some d⟩), after⟩
      dsimp only at h
      split at h
      · rename_i hend
        obtain ⟨rfl, rfl⟩ := Prod.mk.inj (Except.ok.inj h)
        refine ⟨[m], List.cons_ne_nil _ _, List.forall_mem_singleton.mpr hfront, ⟨_, rfl, rfl⟩, ?_⟩
        rw [hname, hbeforeColon, hcolon, hbehind, hback, hafter, hend, listing_singleton]
        simp [m, key, Spelling.memberChars, Key.chars]
      · rename_i next hnext
        obtain ⟨before, hbefore⟩ := exists_space next
        obtain ⟨spellings, hne, hdenotes, ⟨others, hothers, rfl⟩, hlisting⟩ :=
          ih.members _ _ _ _ h before
        refine ⟨m :: spellings, List.cons_ne_nil _ _,
          List.forall_mem_cons.mpr ⟨hfront, hdenotes⟩, ⟨(.string key.name, d) :: others, ?_, rfl⟩, ?_⟩
        · rw [Spelling.members?_cons, hothers]
          rfl
        · rw [hname, hbeforeColon, hcolon, hbehind, hback, hafter, hnext, hbefore, hlisting,
            listing_cons _ _ hne]
          simp [m, key, Spelling.memberChars, Key.chars]
      · cases h
    · cases h
  · cases h

theorem accepts (fuel : Nat) : Accepts fuel := by
  induction fuel with
  | zero =>
      refine ⟨fun cs d rest h => ?_, fun cs items rest h => ?_, fun done cs entries rest h => ?_⟩
      · unfold value at h
        cases h
      · unfold elements at h
        cases h
      · unfold members at h
        cases h
  | succ fuel ih =>
      exact ⟨fun _ _ _ => ih.value_succ, fun _ _ _ => ih.elements_succ, fun _ _ _ _ => ih.members_succ⟩

/-- A text is read just if it is one of a document, with NaN and the infinities among its words. -/
theorem read_eq_ok_iff {text : String} {d : Datum} :
    read text = .ok d ↔ DenotesDocument words text (some d) := by
  constructor
  · intro h
    unfold read at h
    cases hread : readChars text.toList with
    | error flaw =>
        rw [hread] at h
        cases h
    | ok read =>
        rw [hread] at h
        obtain rfl := Except.ok.inj h
        rw [readChars.eq_def] at hread
        split at hread
        · cases hread
        · obtain ⟨⟨d, back⟩, hvalue, hread⟩ := bind_eq_ok_iff.mp hread
          dsimp only at hread
          split at hread
          · rename_i hend
            obtain rfl := Except.ok.inj hread
            obtain ⟨before, hbefore⟩ := exists_space text.toList
            obtain ⟨front, hfront, hback⟩ := (accepts _).value _ _ _ hvalue
            obtain ⟨after, hafter⟩ := exists_space back
            refine ⟨before, after, front, hfront, ?_⟩
            rw [hbefore, hback, List.append_assoc, hafter, hend, List.append_nil]
          · cases hread
  · exact fun h => toOption_eq_some_iff.mp h.toOption_read

end ApiProbe.Json
