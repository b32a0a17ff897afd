import ApiProbe.Proofs.Expr.Entry
import ApiProbe.Proofs.Number.Layout
import ApiProbe.Proofs.Value.Concrete

/-!
# Reading printed values

Every printed value is read as one tree, in which the labels, the literals and the signs of the value
stand as the printer writes them.
-/

namespace ApiProbe

open ApiProbe.Expr

def Expr.Tree.signed (negative : Bool) (t : Tree) : Tree :=
  if negative then .neg t else t

/-- A row of trees, or a single tree for itself. -/
def Expr.Tree.row : List Tree → Tree
  | [t] => t
  | ts => .all ts

def Atom.tree : Atom → Tree
  | .null => .ref "null"
  | .bool b => .ref (if b then "true" else "false")
  | .int n => .signed (n < 0) (.int (toString n.natAbs))
  | .float (.finite negative mantissa exponent) =>
    .signed negative (.float (Shortest.magnitudeText .standard mantissa exponent))
  | .float x => .float (Shortest.text x)
  | .string s => .string (Text.quoted s)

def Bound.tree (bound : Bound) : Tree :=
  .bound (testOf bound.sign) bound.limit.tree

namespace Constraint

def parts (c : Constraint) : List (List Char × Tree) :=
  (c.kind.map fun kind => (kind.name.toList, .ref kind.name)).toList ++
    c.bounds.map fun bound => ((Value.boundText bound).toList, bound.tree)

def tree (c : Constraint) : Tree :=
  .row (c.parts.map Prod.snd)

end Constraint

namespace Value

def labelTree (label : String) : Label :=
  if isBareLabel label then .name label else .quoted (Text.quoted label)

mutual

/-- The tree that the text of a value is read as. -/
def tree : Value → Tree
  | .top => .ref "_"
  | .atom a => a.tree
  | .constraint c => c.tree
  | .any options => .any (trees options)
  | .struct fields => .struct (fieldTrees fields)
  | .list items tail => .list ((trees items).map .value ++ tailTrees tail)

def trees : List Value → List Tree
  | [] => []
  | x :: xs => x.tree :: trees xs

def fieldTrees : List (String × Value) → List Field
  | [] => []
  | (label, x) :: fields => ([labelTree label], x.tree) :: fieldTrees fields

def tailTrees : Option Value → List (Item Tree)
  | none => []
  | some .top => [.rest]
  | some x => [.restOf x.tree]

end

mutual

/-- Whether no label in the value has a line feed. -/
def oneLine : Value → Bool
  | .any options => oneLineAll options
  | .struct fields => oneLineFields fields
  | .list items tail => oneLineAll items && oneLineTail tail
  | _ => true

def oneLineAll : List Value → Bool
  | [] => true
  | x :: xs => x.oneLine && oneLineAll xs

def oneLineFields : List (String × Value) → Bool
  | [] => true
  | (label, x) :: fields => !label.toList.contains '\n' && x.oneLine && oneLineFields fields

def oneLineTail : Option Value → Bool
  | none => true
  | some x => x.oneLine

end

theorem trees_eq_map (xs : List Value) : trees xs = xs.map tree := by
  induction xs with
  | nil => rfl
  | cons x xs ih => rw [trees, ih, List.map_cons]

theorem texts_eq_map (xs : List Value) : texts xs = xs.map text := by
  induction xs with
  | nil => rfl
  | cons x xs ih => rw [texts, ih, List.map_cons]

theorem fieldTrees_eq_map (fields : List (String × Value)) :
    fieldTrees fields = fields.map fun f => ([labelTree f.1], f.2.tree) := by
  induction fields with
  | nil => rfl
  | cons f fields ih => rw [fieldTrees, ih, List.map_cons]

theorem fieldTexts_eq_map (fields : List (String × Value)) :
    fieldTexts fields = fields.map fun f => labelText f.1 ++ ": " ++ f.2.text := by
  induction fields with
  | nil => rfl
  | cons f fields ih => rw [fieldTexts, ih, List.map_cons]

theorem oneLineAll_iff {xs : List Value} : oneLineAll xs = true ↔ ∀ x ∈ xs, x.oneLine = true := by
  induction xs with
  | nil => simp [oneLineAll]
  | cons x xs ih => simp [oneLineAll, ih]

@[simp]
theorem oneLine_any {options : List Value} :
    (Value.any options).oneLine = true ↔ ∀ x ∈ options, x.oneLine = true := by
  rw [oneLine, oneLineAll_iff]

@[simp]
theorem oneLine_struct {fields : List (String × Value)} :
    (Value.struct fields).oneLine = true ↔
      ∀ f ∈ fields, '\n' ∉ f.1.toList ∧ f.2.oneLine = true := by
  rw [oneLine]
  induction fields with
  | nil => simp [oneLineFields]
  | cons f fields ih => simp [oneLineFields, ih]

@[simp]
theorem oneLine_list {items : List Value} {tail : Option Value} :
    (Value.list items tail).oneLine = true ↔
      (∀ x ∈ items, x.oneLine = true) ∧ ∀ x ∈ tail, x.oneLine = true := by
  rw [oneLine, Bool.and_eq_true, oneLineAll_iff]
  cases tail <;> simp [oneLineTail]

end Value

namespace Expr

theorem readsOperand_signed (negative : Bool) {chars : List Char} {terminal : Terminal} {t : Tree}
    (hlexes : ∀ rest, Ends rest → Lexes terminal chars rest)
    (ht : terminal.operand? (String.ofList chars) = some t) :
    ReadsOperand ((if negative then "-" else "").toList ++ chars) (.signed negative t) := by
  cases negative with
  | false => exact readsOperand_token hlexes ht
  | true => exact readsOperand_neg hlexes ht

theorem readsOperand_name {name : String} (h : isName name = true) :
    ReadsOperand name.toList (.ref name) :=
  readsOperand_token (fun _ => lexes_isName h) (by rw [String.ofList_toList]; rfl)

/-- A text whose first character belongs to no blank, no separator, no comment and no sign. -/
def StartsPlain (chars : List Char) : Prop :=
  ∃ c cs, chars = c :: cs ∧ c ∉ gapChars ++ ['=']

theorem StartsPlain.starts {chars : List Char} (h : StartsPlain chars) : Starts chars := by
  obtain ⟨c, cs, rfl, hc⟩ := h
  refine ⟨List.cons_ne_nil c cs, fun d hd => ?_⟩
  obtain rfl := Option.some.inj hd
  intro hmem
  exact hc (List.mem_append_left ['='] hmem)

theorem StartsPlain.head_ne {chars : List Char} (h : StartsPlain chars) :
    ∀ c ∈ chars.head?, c ≠ '=' := by
  obtain ⟨c, cs, rfl, hc⟩ := h
  intro d hd
  obtain rfl := Option.some.inj hd
  rintro rfl
  exact hc (by decide)

theorem startsPlain_digit {c : Char} (cs : List Char) (hc : Text.isAsciiDigit c = true) :
    StartsPlain (c :: cs) := by
  have hmarks : ∀ c ∈ gapChars ++ ['='],
      Text.isAsciiDigit c = false :=
    List.all_iff_forall_prop.mp (by decide)
  refine ⟨c, cs, rfl, fun hmem => ?_⟩
  rw [hmarks c hmem] at hc
  cases hc

theorem startsPlain_name {name : String} (h : isName name = true) : StartsPlain name.toList := by
  have hmarks : ∀ c ∈ gapChars ++ ['='],
      Value.isLabelStart c = false :=
    List.all_iff_forall_prop.mp (by decide)
  obtain ⟨c, cs, hname, hc, -⟩ := exists_isName h
  refine ⟨c, cs, hname, fun hmem => ?_⟩
  rw [hmarks c hmem] at hc
  cases hc

theorem startsPlain_signed (negative : Bool) {chars : List Char} (h : StartsPlain chars) :
    StartsPlain ((if negative then "-" else "").toList ++ chars) := by
  cases negative with
  | false => exact h
  | true => exact ⟨'-', chars, rfl, by decide⟩

end Expr

theorem isName_kind (kind : Kind) : isName kind.name = true := by
  cases kind <;> decide

namespace Atom

theorem toList_text_int (n : Int) : (Atom.int n).text.toList
    = (if decide (n < 0) then "-" else "").toList ++ Nat.toDigits 10 n.natAbs := by
  rw [text, Int.toString_eq_repr, Int.repr_eq_if]
  by_cases hn : n < 0
  · have habs : (-n).toNat = n.natAbs := by omega
    rw [if_neg (by omega), String.toList_append, Nat.toList_repr, habs]
    simp [hn]
  · have habs : n.toNat = n.natAbs := by omega
    rw [if_pos (by omega), Nat.toList_repr, habs]
    simp [hn]

/-- An atom is read as an operand, and starts with none of the characters that could end one. -/
theorem reads_text {a : Atom} (h : a.WellFormed) :
    ReadsOperand a.text.toList a.tree ∧ StartsPlain a.text.toList := by
  cases a with
  | null => exact ⟨readsOperand_name (by decide), startsPlain_name (by decide)⟩
  | bool b => cases b <;> exact ⟨readsOperand_name (by decide), startsPlain_name (by decide)⟩
  | int n =>
      have hdigits := Text.isAsciiDigit_of_mem_toDigits (n := n.natAbs)
      rw [toList_text_int]
      have hrepr : toString n.natAbs = String.ofList (Nat.toDigits 10 n.natAbs) := rfl
      rw [tree, hrepr]
      obtain ⟨c, cs, hcs⟩ := List.exists_cons_of_ne_nil (Nat.toDigits_ne_nil (n := n.natAbs) (b := 10))
      rw [hcs] at hdigits ⊢
      exact ⟨readsOperand_signed _ (fun _ => lexes_int hdigits) rfl,
        startsPlain_signed _ (startsPlain_digit cs (hdigits c List.mem_cons_self))⟩
  | float x =>
      cases x with
      | infinite => cases h
      | nan => cases h
      | finite negative mantissa exponent =>
          have hproper : (Binary64.finite false mantissa exponent).IsProper := h
          obtain ⟨d, hwell, hchars, -⟩ := Shortest.exists_decimal hproper
          have htext : Shortest.magnitudeText .standard mantissa exponent = String.ofList d.chars := by
            rw [← hchars, String.ofList_toList]
          have hlist : (Atom.float (.finite negative mantissa exponent)).text.toList
              = (if negative then "-" else "").toList ++ d.chars := by
            rw [text, Shortest.text, String.toList_append, hchars]
          rw [hlist, tree, htext]
          obtain ⟨c, cs, hcs, hc⟩ := d.exists_chars_eq hwell
          refine ⟨readsOperand_signed _ (fun _ => lexes_float hwell) rfl, startsPlain_signed _ ?_⟩
          rw [hcs]
          exact startsPlain_digit cs hc
  | string s =>
      have hlist : (Atom.string s).text.toList = Text.quotedChars s.toList := by
        rw [text, Text.quoted, String.toList_ofList]
      rw [hlist]
      exact ⟨readsOperand_token (fun rest _ => lexes_quoted s.toList rest) rfl,
        ⟨'"', _, rfl, by decide⟩⟩

end Atom

namespace Bound

theorem limit_wellFormed {bound : Bound} (h : bound.WellFormed) : bound.limit.WellFormed := by
  cases bound with
  | order o limit => exact h.1
  | ne limit => exact h
  | pattern wanted source => trivial

theorem reads_text {bound : Bound} (h : bound.WellFormed) :
    ReadsPart (Value.boundText bound).toList bound.tree ∧ Starts (Value.boundText bound).toList := by
  obtain ⟨hreads, hplain⟩ := Atom.reads_text (limit_wellFormed h)
  rw [Value.boundText, String.toList_append]
  refine ⟨readsPart_bound bound hreads hplain.head_ne hplain.starts.1, ?_⟩
  obtain ⟨test, hbound⟩ := exists_sign_eq_sign bound
  obtain ⟨c, more, hsign, hc, -⟩ := test.exists_sign_eq
  have hsigns : ∀ c ∈ ['<', '>', '!', '='], c ∉ gapChars := List.all_iff_forall_prop.mp (by decide)
  rw [hbound, hsign]
  exact ⟨List.cons_ne_nil c _, solid_cons (hsigns c hc) _⟩

end Bound

namespace Constraint

theorem toList_text (c : Constraint) :
    (Value.constraint c).text.toList = Row.all.chars (c.parts.map Prod.fst) := by
  have hsign : " & ".toList = [' ', '&', ' '] := by decide
  rw [Value.text, String.toList_intercalate, hsign, Row.chars, Value.constraintTexts, parts,
    List.map_append, List.map_append, List.map_map, List.map_map]
  cases c.kind <;> rfl

theorem parts_ne_nil {c : Constraint} (h : c.WellFormed) : c.parts ≠ [] := by
  intro hparts
  obtain ⟨hkind, hbounds⟩ := List.append_eq_nil_iff.mp hparts
  rcases h.nonempty with hne | hne
  · exact hne (by simpa using hkind)
  · exact hne (List.map_eq_nil_iff.mp hbounds)

theorem reads_parts {c : Constraint} (h : c.WellFormed) :
    ∀ part ∈ c.parts, ReadsPart part.1 part.2 ∧ Starts part.1 := by
  intro part hpart
  rcases List.mem_append.mp hpart with hkind | hbound
  · rw [Option.mem_toList, Option.map_eq_some_iff] at hkind
    obtain ⟨kind, -, rfl⟩ := hkind
    exact ⟨(readsOperand_name (isName_kind kind)).part, (startsPlain_name (isName_kind kind)).starts⟩
  · obtain ⟨bound, hmem, rfl⟩ := List.mem_map.mp hbound
    exact Bound.reads_text (h.bounds bound hmem)

/-- A constraint is read as its only part, or as the row of its parts. -/
theorem reads_text {c : Constraint} (h : c.WellFormed) :
    ReadsOption (Value.constraint c).text.toList c.tree ∧
      Starts (Value.constraint c).text.toList := by
  have hparts := reads_parts h
  have hne := parts_ne_nil h
  rw [toList_text, tree]
  revert hparts hne
  cases c.parts with
  | nil => exact fun _ hne => absurd rfl hne
  | cons first parts =>
      intro hparts _
      have hstarts := Row.all.starts_chars (hparts first List.mem_cons_self).2 (parts.map Prod.fst)
      refine ⟨?_, hstarts⟩
      cases parts with
      | nil =>
          rw [List.map_singleton, Row.chars_singleton]
          exact (hparts first List.mem_cons_self).1.option
      | cons next parts => exact @Row.reads Row.all parts first next hparts

end Constraint

namespace Value

/-- The text of a value is read as its tree, as one option if it is no alternative. -/
structure Printed (v : Value) : Prop where
  value : ReadsValue v.text.toList v.tree
  option : v.isAny = false → ReadsOption v.text.toList v.tree
  starts : Starts v.text.toList

theorem Printed.of_option {v : Value} (h : ReadsOption v.text.toList v.tree)
    (hstarts : Starts v.text.toList) : v.Printed :=
  ⟨h.value, fun _ => h, hstarts⟩

theorem Printed.of_operand {v : Value} (h : ReadsOperand v.text.toList v.tree)
    (hstarts : Starts v.text.toList) : v.Printed :=
  .of_option h.part.option hstarts

theorem exists_eq_cons_cons {α : Type} {xs : List α} (h : 2 ≤ xs.length) :
    ∃ x y zs, xs = x :: y :: zs := by
  match xs, h with
  | x :: y :: zs, _ => exact ⟨x, y, zs, rfl⟩

theorem printed_any {options : List Value} (hlength : 2 ≤ options.length)
    (hflat : ∀ x ∈ options, x.isAny = false) (hoptions : ∀ x ∈ options, x.Printed) :
    (Value.any options).Printed := by
  have hsign : " | ".toList = [' ', '|', ' '] := by decide
  have htext : (Value.any options).text.toList
      = Row.any.chars ((options.map fun x => (x.text.toList, x.tree)).map Prod.fst) := by
    rw [text, texts_eq_map, String.toList_intercalate, hsign, Row.chars, List.map_map, List.map_map]
    rfl
  have htree : (Value.any options).tree
      = Row.any.tree ((options.map fun x => (x.text.toList, x.tree)).map Prod.snd) := by
    rw [tree, trees_eq_map, List.map_map]
    rfl
  have hparts : ∀ part ∈ options.map fun x => (x.text.toList, x.tree),
      ReadsOption part.1 part.2 ∧ Starts part.1 := by
    intro part hpart
    obtain ⟨x, hx, rfl⟩ := List.mem_map.mp hpart
    exact ⟨(hoptions x hx).option (hflat x hx), (hoptions x hx).starts⟩
  obtain ⟨first, next, rest, rfl⟩ := exists_eq_cons_cons hlength
  refine ⟨?_, ?_, ?_⟩
  · rw [htext, htree]
    exact @Row.reads Row.any _ _ _ hparts
  · intro hany
    cases hany
  · rw [htext]
    exact Row.any.starts_chars (hoptions first List.mem_cons_self).starts _

theorem isName_of_isBareLabel {label : String} (h : '\n' ∉ label.toList)
    (hbare : isBareLabel label = true) : isName label = true := by
  unfold isBareLabel at hbare
  unfold isName
  cases hlabel : label.toList with
  | nil => simp [hlabel] at hbare
  | cons c rest =>
      have hlast : (rest.getLast? == some '\n') = false := by
        rw [beq_eq_false_iff_ne]
        intro hlast
        exact h (hlabel ▸ List.mem_cons_of_mem c (List.mem_of_getLast? hlast))
      simp only [hlabel, hlast, Bool.false_and, Bool.or_false, Bool.and_eq_true] at hbare ⊢
      exact hbare.1

/-- A label is read as one token if it stands bare only where it is an identifier. -/
theorem reads_labelText {label : String} (h : isBareLabel label = true → isName label = true) :
    ∃ terminal : Terminal,
    (∀ rest, Ends rest → Lexes terminal (labelText label).toList rest) ∧
      (∀ position, labelOf? ⟨terminal, String.ofList (labelText label).toList, position⟩
        = some (labelTree label)) ∧ Starts (labelText label).toList := by
  rw [labelText, labelTree]
  by_cases hbare : isBareLabel label = true
  · have hname := h hbare
    rw [if_pos hbare, if_pos hbare]
    refine ⟨.name, fun _ => lexes_isName hname, fun position => ?_, (startsPlain_name hname).starts⟩
    rw [String.ofList_toList]
    rfl
  · rw [if_neg hbare, if_neg hbare, Text.quoted, String.toList_ofList]
    have hplain : StartsPlain (Text.quotedChars label.toList) := ⟨'"', _, rfl, by decide⟩
    exact ⟨.string, fun rest _ => lexes_quoted label.toList rest, fun _ => rfl, hplain.starts⟩

theorem readsEntry_label {label : String} {v : Value}
    (hlabel : isBareLabel label = true → isName label = true) (hv : v.Printed) :
    Brackets.struct.ReadsEntry (labelText label ++ ": " ++ v.text).toList
        ([labelTree label], v.tree) ∧
      Starts (labelText label ++ ": " ++ v.text).toList := by
  have hcolon : ": ".toList = [':', ' '] := by decide
  obtain ⟨terminal, hlexes, hlabelOf, hstarts⟩ := reads_labelText hlabel
  rw [String.toList_append, String.toList_append, hcolon, List.append_assoc]
  exact ⟨readsEntry_field hlexes hlabelOf hv.value hv.starts,
    List.append_ne_nil_of_left_ne_nil hstarts.1 _, hstarts.solid_append _⟩

theorem printed_struct {fields : List (String × Value)}
    (hfields : ∀ f ∈ fields, (isBareLabel f.1 = true → isName f.1 = true) ∧ f.2.Printed) :
    (Value.struct fields).Printed := by
  have hcomma : ", ".toList = [',', ' '] := by decide
  have hentries : ∀ e ∈ fields.map fun f =>
      ((labelText f.1 ++ ": " ++ f.2.text).toList, [labelTree f.1], f.2.tree),
      Brackets.struct.ReadsEntry e.1 e.2 ∧ Starts e.1 := by
    intro e he
    obtain ⟨f, hf, rfl⟩ := List.mem_map.mp he
    exact readsEntry_label (hfields f hf).1 (hfields f hf).2
  have htext : (Value.struct fields).text.toList = Brackets.struct.opening ::
      Brackets.chars (fields.map fun f => (labelText f.1 ++ ": " ++ f.2.text).toList) ++
        [Brackets.struct.closing] := by
    have hopen : "\x7b".toList = ['\x7b'] := by decide
    have hclose : "\x7d".toList = ['\x7d'] := by decide
    have hempty : "\x7b\x7d".toList = ['\x7b', '\x7d'] := by decide
    cases fields with
    | nil => rw [text, List.isEmpty_nil, if_pos rfl, hempty]; rfl
    | cons f fields =>
        rw [text, if_neg (by simp), fieldTexts_eq_map, String.toList_append, String.toList_append,
          String.toList_intercalate, hcomma, hopen, hclose, List.map_map]
        rfl
  have hreads := Brackets.reads hentries
  rw [List.map_map, List.map_map] at hreads
  refine Printed.of_operand ?_ ?_
  · rw [htext, tree, fieldTrees_eq_map]
    exact hreads
  · rw [htext]
    exact Brackets.starts_opening _

/-- A tail is read as the last item: the rest, with its value if it is not anything. -/
theorem reads_tailTexts {tail : Option Value} (htail : ∀ x ∈ tail, x.Printed) :
    ∃ entries : List (List Char × Item Tree),
      entries.map Prod.fst = (tailTexts tail).map String.toList ∧
        entries.map Prod.snd = tailTrees tail ∧
          ∀ e ∈ entries, Brackets.list.ReadsEntry e.1 e.2 ∧ Starts e.1 := by
  have hellipsis : "...".toList = ['.', '.', '.'] := by decide
  have hstarts (cs : List Char) : Starts ('.' :: cs) := StartsPlain.starts ⟨'.', cs, rfl, by decide⟩
  cases tail with
  | none => exact ⟨[], rfl, rfl, nofun⟩
  | some x =>
      have hcases : x = .top ∨
          tailTexts (some x) = ["..." ++ x.text] ∧ tailTrees (some x) = [.restOf x.tree] := by
        cases x <;> first | exact Or.inl rfl | exact Or.inr ⟨rfl, rfl⟩
      rcases hcases with rfl | ⟨htexts, htrees⟩
      · refine ⟨[(['.', '.', '.'], .rest)], ?_, rfl, ?_⟩
        · rw [tailTexts, List.map_singleton, List.map_singleton, hellipsis]
        · exact List.forall_mem_singleton.mpr ⟨readsEntry_rest, hstarts _⟩
      · refine ⟨[('.' :: '.' :: '.' :: x.text.toList, .restOf x.tree)], ?_, htrees.symm, ?_⟩
        · rw [htexts, List.map_singleton, List.map_singleton, String.toList_append, hellipsis]
          rfl
        · exact List.forall_mem_singleton.mpr ⟨readsEntry_restOf (htail x rfl).value, hstarts _⟩

theorem printed_list {items : List Value} {tail : Option Value} (hitems : ∀ x ∈ items, x.Printed)
    (htail : ∀ x ∈ tail, x.Printed) : (Value.list items tail).Printed := by
  have hcomma : ", ".toList = [',', ' '] := by decide
  have hopen : "[".toList = ['['] := by decide
  have hclose : "]".toList = [']'] := by decide
  obtain ⟨last, htexts, htrees, hlast⟩ := reads_tailTexts htail
  have hentries : ∀ e ∈ items.map (fun x => (x.text.toList, Item.value x.tree)) ++ last,
      Brackets.list.ReadsEntry e.1 e.2 ∧ Starts e.1 := by
    intro e he
    rcases List.mem_append.mp he with hitem | hlastItem
    · obtain ⟨x, hx, rfl⟩ := List.mem_map.mp hitem
      exact ⟨readsEntry_value (hitems x hx).value, (hitems x hx).starts⟩
    · exact hlast e hlastItem
  have hreads := Brackets.reads hentries
  rw [List.map_append, List.map_append, List.map_map, List.map_map, htexts, htrees] at hreads
  have htext : (Value.list items tail).text.toList = Brackets.list.opening ::
      Brackets.chars (items.map (fun x => x.text.toList) ++ (tailTexts tail).map String.toList) ++
        [Brackets.list.closing] := by
    rw [text, texts_eq_map, String.toList_append, String.toList_append, String.toList_intercalate,
      hcomma, hopen, hclose, List.map_append, List.map_map]
    rfl
  have htree : (Value.list items tail).tree
      = Brackets.list.tree (items.map (fun x => Item.value x.tree) ++ tailTrees tail) := by
    rw [tree, trees_eq_map, List.map_map]
    rfl
  refine Printed.of_operand ?_ ?_
  · rw [htext, htree]
    exact hreads
  · rw [htext]
    exact Brackets.starts_opening _

/-- Every well-formed value without line feeds in its labels is read as its tree. -/
theorem WellFormed.printed {v : Value} (h : v.WellFormed) (hline : v.oneLine = true) :
    v.Printed := by
  induction v with
  | top => exact .of_operand (readsOperand_name (by decide)) (startsPlain_name (by decide)).starts
  | atom a =>
      obtain ⟨hreads, hplain⟩ := Atom.reads_text (wellFormed_atom.mp h)
      exact .of_operand hreads hplain.starts
  | constraint c =>
      obtain ⟨hreads, hstarts⟩ := Constraint.reads_text (wellFormed_constraint.mp h)
      exact .of_option hreads hstarts
  | any options ih =>
      obtain ⟨hlength, -, hflat, hoptions⟩ := wellFormed_any.mp h
      exact printed_any hlength hflat fun x hx =>
        ih x hx (hoptions x hx) (oneLine_any.mp hline x hx)
  | struct fields ih =>
      obtain ⟨-, hfields⟩ := wellFormed_struct.mp h
      apply printed_struct
      intro f hf
      obtain ⟨hlabel, hf'⟩ := oneLine_struct.mp hline f hf
      exact ⟨isName_of_isBareLabel hlabel, ih f hf (hfields f hf) hf'⟩
  | list items tail ih ihtail =>
      obtain ⟨hitems, htail⟩ := wellFormed_list.mp h
      obtain ⟨hlines, hline⟩ := oneLine_list.mp hline
      exact printed_list (fun x hx => ih x hx (hitems x hx) (hlines x hx))
        fun x hx => ihtail x hx (htail x hx) (hline x hx)

/-- The whole text of a value is one expression. -/
theorem parse_text {v : Value} (h : v.WellFormed) (hline : v.oneLine = true) :
    parse v.text = .ok (.value v.tree) :=
  parse_of_readsValue (h.printed hline).value

end Value

end ApiProbe
