import ApiProbe.Proofs.Expr.Printed
import ApiProbe.Proofs.Json.Documents

/-!
# Reading documents as expressions

Whatever the layout of a document is, the parser reads it as one tree, if no line feed stands next to a
colon. Line feeds elsewhere separate: in front of an entry, around a comma, or behind the whole.
-/

namespace ApiProbe

open ApiProbe.Json

namespace Expr

theorem layout_space (space : Space) : ∀ c ∈ space.chars, c ∈ layoutChars := by
  have hspaces : ∀ c ∈ spaceChars, c ∈ layoutChars :=
    List.all_iff_forall_prop.mp (by decide)
  exact fun c hc => hspaces c (space.blank c hc)

theorem blank_space {space : Space} (h : '\n' ∉ space.chars) : ∀ c ∈ space.chars, c ∈ blankChars := by
  have hspaces : ∀ c ∈ spaceChars, c ≠ '\n' → c ∈ blankChars :=
    List.all_iff_forall_prop.mp (by decide)
  intro c hc
  apply hspaces c (space.blank c hc)
  rintro rfl
  exact h hc

namespace Brackets

variable {α β : Type} {brackets : Brackets β} {text : α → List Char} {entry : α → β}

/-- Entries are collected one by one, each with the layout behind it, up to the closing bracket. -/
theorem reads_listing {items : List (Spaced α)} {s : Spaced α}
    (hitems : ∀ t ∈ s :: items, brackets.Takes (text t.item) (entry t.item) ∧ Starts (text t.item))
    {p : Phase} (hp : p = brackets.inside ∨ p = brackets.separated) (done : List β)
    (frames : List Frame) {cs rest : List Char}
    (hcs : listing text (s :: items) ++ brackets.closing :: rest = s.before.chars ++ cs) :
    Advances ⟨p, brackets.frame done :: frames⟩ cs
      ⟨.complete (brackets.tree (done ++ (s :: items).map (entry ·.item))), frames⟩ rest := by
  induction items generalizing s p done cs with
  | nil =>
      rw [listing_singleton, List.append_assoc, List.append_assoc] at hcs
      obtain rfl := List.append_cancel_left hcs
      have hends := ends_layout (layout_space s.after) (ends_cons brackets.closing_ends rest)
      obtain ⟨m, hadvances, hbehind⟩ := (hitems s List.mem_cons_self).1 p done frames _ hp hends
      exact hadvances.trans (hbehind.advances (layout_space s.after) rest)
  | cons t items ih =>
      obtain ⟨hs, hothers⟩ := List.forall_mem_cons.mp hitems
      obtain ⟨more, hmore⟩ := exists_listing_eq text t items (brackets.closing :: rest)
      have hnext := ih hothers (Or.inr rfl) (done ++ [entry s.item]) hmore
      rw [listing_cons_cons, List.append_assoc, List.append_assoc, List.append_assoc,
        List.cons_append, hmore] at hcs
      obtain rfl := List.append_cancel_left hcs
      have hlayout : ∀ c ∈ s.after.chars ++ ',' :: t.before.chars, c ∈ layoutChars :=
        List.forall_mem_append.mpr ⟨layout_space s.after,
          List.forall_mem_cons.mpr ⟨List.mem_cons_self, layout_space t.before⟩⟩
      have hsolid : Solid (text t.item ++ more) :=
        (hothers t List.mem_cons_self).2.solid_append more
      obtain ⟨m, hadvances, hbehind⟩ := hs.1 p done frames
        (s.after.chars ++ ',' :: (t.before.chars ++ (text t.item ++ more))) hp
        (ends_layout (layout_space s.after) (ends_cons (by decide) _))
      have hseparated : Advances m (s.after.chars ++ ',' :: (t.before.chars ++ (text t.item ++ more)))
          ⟨brackets.separated, brackets.frame (done ++ [entry s.item]) :: frames⟩
          (text t.item ++ more) := by
        rw [← List.cons_append, ← List.append_assoc]
        refine (Advances.layout hlayout hsolid hbehind.separates).resolve_right fun hblank => ?_
        exact absurd (hblank.2 ',' (List.mem_append_right _ List.mem_cons_self)) (by decide)
      rw [List.append_assoc] at hnext
      exact hadvances.trans (hseparated.trans hnext)

/-- Brackets are read as what their entries are read as, whatever stands between those. -/
theorem reads_spaced (text : α → List Char) (entry : α → β) (space : Space) {items : List (Spaced α)}
    (hitems : ∀ s ∈ items, brackets.Takes (text s.item) (entry s.item) ∧ Starts (text s.item)) :
    ReadsOperand
      (brackets.opening :: (space.chars ++ (listing text items ++ [brackets.closing])))
      (brackets.tree (items.map (entry ·.item))) := by
  intro p frames rest hp hframes hrest
  refine ⟨_, frames, brackets.tree (items.map (entry ·.item)), ?_, Or.inl rfl,
    closeUnary_of_outside hframes⟩
  rw [List.cons_append, List.append_assoc, List.append_assoc, List.singleton_append]
  refine (advances_opening hp frames _).trans ?_
  cases items with
  | nil => exact (behind_inside frames).advances (layout_space space) rest
  | cons s items =>
      obtain ⟨more, hmore⟩ := exists_listing_eq text s items (brackets.closing :: rest)
      have hsolid : Solid (text s.item ++ more) :=
        (hitems s List.mem_cons_self).2.solid_append more
      have hlayout : ∀ c ∈ space.chars ++ s.before.chars, c ∈ layoutChars :=
        List.forall_mem_append.mpr ⟨layout_space space, layout_space s.before⟩
      have hentries {p : Phase} (hp : p = brackets.inside ∨ p = brackets.separated) :=
        reads_listing hitems hp [] frames hmore
      rw [hmore, ← List.append_assoc]
      rcases Advances.layout hlayout hsolid (behind_inside frames).separates with
        hseparated | ⟨hsame, -⟩
      · exact hseparated.trans (hentries (Or.inr rfl))
      · exact hsame.trans (hentries (Or.inl rfl))

end Brackets

theorem stringMore?_plains {cs : List Char} (h : ∀ c ∈ cs, c ≠ '"' ∧ c ≠ '\\' ∧ c ≠ '\n')
    (rest : List Char) : stringMore? (cs ++ rest) = (stringMore? rest).map (· + cs.length) := by
  induction cs with
  | nil => simp
  | cons c cs ih =>
      obtain ⟨⟨hquote, hbackslash, hline⟩, hcs⟩ := List.forall_mem_cons.mp h
      rw [List.cons_append, stringMore?_plain _ hquote hbackslash hline, ih hcs, Option.map_map]
      rfl

theorem isHexDigit_ne {c d : Char} (h : isHexDigit c = true) (hd : isHexDigit d = false) : c ≠ d := by
  rintro rfl
  rw [h] at hd
  cases hd

theorem stringMore?_piece (piece : Piece) (rest : List Char) :
    stringMore? (piece.chars ++ rest) = (stringMore? rest).map (· + piece.chars.length) := by
  cases piece with
  | plain c h =>
      have hline : c ≠ '\n' := by
        rintro rfl
        exact absurd h.1 (by decide)
      exact stringMore?_plains (List.forall_mem_singleton.mpr ⟨h.2.1, h.2.2, hline⟩) rest
  | letter c h =>
      have hline : ∀ c ∈ escapeLetters, c ≠ '\n' :=
        List.all_iff_forall_prop.mp (by decide)
      exact stringMore?_escaped rest (hline c h)
  | code digits hlength hdigits =>
      have hplain : ∀ c ∈ digits, c ≠ '"' ∧ c ≠ '\\' ∧ c ≠ '\n' := fun c hc =>
        ⟨isHexDigit_ne (hdigits c hc) rfl, isHexDigit_ne (hdigits c hc) rfl,
          isHexDigit_ne (hdigits c hc) rfl⟩
      rw [Piece.chars, List.cons_append, List.cons_append, stringMore?_escaped _ (by decide),
        stringMore?_plains hplain, Option.map_map]
      rfl

theorem stringMore?_pieces (pieces : List Piece) (rest : List Char) :
    stringMore? (pieces.flatMap Piece.chars ++ '"' :: rest)
      = some ((pieces.flatMap Piece.chars).length + 1) := by
  induction pieces with
  | nil => rfl
  | cons piece pieces ih =>
      rw [List.flatMap_cons, List.append_assoc, stringMore?_piece, ih, Option.map_some,
        List.length_append]
      congr 1
      omega

theorem lexes_pieces (pieces : List Piece) (rest : List Char) :
    Lexes .string (quotedPieces pieces) rest := by
  apply lexes_string
  rw [List.append_assoc, List.singleton_append, stringMore?_pieces, List.length_append,
    List.length_singleton]

end Expr

namespace Json

open ApiProbe.Expr

def Number.tree (n : Number) : Tree :=
  .signed n.negative <|
    if n.isWhole then .int (String.ofList n.decimal.whole)
    else .float (String.ofList n.decimal.chars)

def Key.label (key : Key) : Label :=
  .quoted (String.ofList (quotedPieces key.pieces))

namespace Phrase

mutual

/-- The tree that a value is read as. -/
def tree : Phrase → Tree
  | null => .ref "null"
  | bool b => .ref (if b then "true" else "false")
  | number n => n.tree
  | string pieces => .string (String.ofList (quotedPieces pieces))
  | array _ items => .list (itemTrees items)
  | object _ members => .struct (memberTrees members)

def itemTrees : List (Spaced Phrase) → List (Item Tree)
  | [] => []
  | ⟨_, p, _⟩ :: items => .value p.tree :: itemTrees items

def memberTrees : List (Spaced (Key × Phrase)) → List Field
  | [] => []
  | ⟨_, (key, p), _⟩ :: members => ([key.label], p.tree) :: memberTrees members

end

theorem itemTrees_eq_map (items : List (Spaced Phrase)) :
    itemTrees items = items.map fun s => .value s.item.tree := by
  induction items with
  | nil => rfl
  | cons s items ih => rw [itemTrees, ih, List.map_cons]

theorem memberTrees_eq_map (members : List (Spaced (Key × Phrase))) :
    memberTrees members = members.map fun m => ([m.item.1.label], m.item.2.tree) := by
  induction members with
  | nil => rfl
  | cons m members ih => rw [memberTrees, ih, List.map_cons]

theorem starts_chars (p : Phrase) : Starts p.chars := by
  have hgaps : ∀ c ∈ gapChars, opening literals c = false :=
    List.all_iff_forall_prop.mp (by decide)
  obtain ⟨c, cs, hchars, hc⟩ := p.exists_chars_eq
  rw [hchars]
  refine ⟨List.cons_ne_nil c cs, solid_cons (fun hmem => ?_) cs⟩
  rw [hgaps c hmem] at hc
  cases hc

theorem starts_memberChars (member : Key × Phrase) : Starts (memberChars member) :=
  ⟨List.cons_ne_nil _ _, solid_cons (c := '"') (by decide) _⟩

theorem readsOperand_number (n : Number) : ReadsOperand n.chars n.tree := by
  have hchars : n.chars = (if n.negative then "-" else "").toList ++ n.decimal.chars := by
    rw [Number.chars]
    cases n.negative <;> rfl
  rw [hchars, Number.tree]
  by_cases hwhole : n.isWhole = true
  · obtain ⟨c, cs, hcs⟩ := List.exists_cons_of_ne_nil n.whole_ne_nil
    have hdigits := n.whole
    rw [if_pos hwhole, Number.decimal_chars_of_isWhole hwhole]
    rw [hcs] at hdigits ⊢
    exact readsOperand_signed _ (fun _ => lexes_int hdigits) rfl
  · rw [if_neg hwhole]
    exact readsOperand_signed _ (fun _ => lexes_float (Number.wellFormed_decimal hwhole)) rfl

theorem takes_member {key : Key} {p : Phrase} (hkey : key.OneLine)
    (hp : ReadsOperand p.chars p.tree) :
    Brackets.struct.Takes (memberChars (key, p)) ([key.label], p.tree) := by
  have hchars : memberChars (key, p) = quotedPieces key.pieces ++
      (key.before.chars ++ ':' :: (key.after.chars ++ p.chars)) := by
    rw [memberChars, Key.chars, List.append_assoc, List.append_assoc, List.cons_append]
  rw [hchars]
  exact takes_field (fun rest _ => lexes_pieces key.pieces rest) (fun _ => rfl)
    (blank_space hkey.1) (blank_space hkey.2) hp.part.option.value p.starts_chars

/-- A value is read as its tree, be its layout what it may. -/
theorem readsOperand (p : Phrase) (h : p.OneLineColons) : ReadsOperand p.chars p.tree := by
  induction p with
  | null => exact readsOperand_name (by decide)
  | bool b => cases b <;> exact readsOperand_name (by decide)
  | number n => exact readsOperand_number n
  | string pieces => exact readsOperand_token (fun rest _ => lexes_pieces pieces rest) rfl
  | array space items ih =>
      rw [OneLineColons, Everywhere, everywhereItems_iff] at h
      rw [chars_array, tree, itemTrees_eq_map]
      refine Brackets.list.reads_spaced chars (fun p => .value p.tree) space fun s hs => ?_
      exact ⟨takes_value (ih s hs (h s hs)).part.option.value, s.item.starts_chars⟩
  | object space entries ih =>
      rw [OneLineColons, Everywhere, everywhereMembers_iff] at h
      rw [chars_object, tree, memberTrees_eq_map]
      refine Brackets.struct.reads_spaced memberChars (fun m => ([m.1.label], m.2.tree)) space
        fun m hm => ?_
      have hkey : m.item.1.OneLine := h.1 _ (List.mem_map_of_mem hm)
      exact ⟨takes_member hkey (ih m hm (h.2 m hm)), starts_memberChars m.item⟩

end Phrase

/-- A document is one expression. -/
theorem Spaced.parse_text (doc : Spaced Phrase) (h : doc.item.OneLineColons) :
    parse doc.text = .ok (.value doc.item.tree) := by
  obtain ⟨before, p, after⟩ := doc
  change p.OneLineColons at h
  have hstart : Machine.Separates ⟨.start, []⟩ ⟨.startSeparated, []⟩ := ⟨rfl, fun _ _ => rfl⟩
  have hends : Ends (after.chars ++ []) := ends_layout (layout_space after) nofun
  obtain ⟨first, hopens, hfront⟩ : ∃ first : Phase, first.opens = true ∧
      Advances ⟨.start, []⟩ (before.chars ++ (p.chars ++ (after.chars ++ []))) ⟨first, []⟩
        (p.chars ++ (after.chars ++ [])) := by
    rcases Advances.layout (layout_space before) (p.starts_chars.solid_append _) hstart with
      hseparated | ⟨hsame, -⟩
    · exact ⟨.startSeparated, rfl, hseparated⟩
    · exact ⟨.start, rfl, hsame⟩
  obtain ⟨q, fs, u, hadvances, hoperand, hclose⟩ :=
    (p.readsOperand h).part.option.value first [] _ hopens (outside_nil 6) hends
  have hback : Machine.Separates ⟨q, fs⟩ ⟨.finished p.tree, []⟩ :=
    ⟨hoperand.accepts rfl fun _ => ⟨nofun, nofun⟩,
      hoperand.feed?_of_follows rfl fun _ _ => separate?_nil hclose⟩
  obtain ⟨m, hfinish, hend⟩ : ∃ m : Machine, m.finish? = some (.value p.tree) ∧
      Advances ⟨q, fs⟩ (after.chars ++ []) m [] := by
    rcases Advances.layout (layout_space after) (nofun : Solid []) hback with
      hseparated | ⟨hsame, -⟩
    · exact ⟨_, rfl, hseparated⟩
    · exact ⟨_, hoperand.finish? hclose, hsame⟩
  obtain ⟨last, position, hrun⟩ := (hfront.trans (hadvances.trans hend)) .start .start
  have htext : (Spaced.text ⟨before, p, after⟩).toList
      = before.chars ++ (p.chars ++ (after.chars ++ [])) := by
    rw [Spaced.text, String.toList_ofList, List.append_assoc, List.append_nil]
  rw [parse, htext, Machine.start, hrun, Machine.run, hfinish]

end Json

end ApiProbe
