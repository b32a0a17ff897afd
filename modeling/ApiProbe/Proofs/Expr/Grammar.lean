import ApiProbe.Proofs.Expr.Closing
import ApiProbe.Proofs.Expr.Written

/-!
# Trees that the parser builds

Whatever text is parsed, the document is one of the grammar: its literals and names are texts of their
terminals, as every token is, and no row and no field comes out too short. Each step of the parser keeps
this true of the operand and of all constructs that are open.
-/

namespace ApiProbe.Expr

open Text (isDecimal)

theorem take_takeWhile (p : Char → Bool) (cs : List Char) :
    cs.take (cs.takeWhile p).length = cs.takeWhile p :=
  (List.prefix_iff_eq_take.mp (List.takeWhile_prefix p)).symm

theorem drop_takeWhile (p : Char → Bool) (cs : List Char) :
    cs.drop (cs.takeWhile p).length = cs.dropWhile p := by
  calc cs.drop (cs.takeWhile p).length
      = (cs.takeWhile p ++ cs.dropWhile p).drop (cs.takeWhile p).length := by
        rw [List.takeWhile_append_dropWhile]
    _ = cs.dropWhile p := List.drop_left

section Scan

variable {c : Char} {cs rest : List Char} {n : Nat}

theorem isDecimal_of_mem_take (cs : List Char) : ∀ d ∈ cs.take (digitCount cs), isDecimal d = true := by
  rw [digitCount, take_takeWhile]
  exact fun d hd => List.mem_takeWhile_imp hd

theorem isDigits_cons_take (hc : isDecimal c = true) (cs : List Char) :
    IsDigits (c :: cs.take (digitCount cs)) :=
  ⟨List.cons_ne_nil _ _, List.forall_mem_cons.mpr ⟨hc, isDecimal_of_mem_take cs⟩⟩

theorem isDigits_take (h : digitCount cs ≠ 0) : IsDigits (cs.take (digitCount cs)) := by
  refine ⟨fun hnil => ?_, isDecimal_of_mem_take cs⟩
  rcases List.take_eq_nil_iff.mp hnil with hzero | rfl
  · exact h hzero
  · exact h rfl

theorem isExponent_take (h : exponentLength cs ≠ 0) : IsExponent (cs.take (exponentLength cs)) := by
  cases cs with
  | nil => exact absurd rfl h
  | cons c rest =>
      by_cases hletter : (c == 'e' || c == 'E') = true
      · have hc : c = 'e' ∨ c = 'E' := by simpa using hletter
        cases rest with
        | nil => simp [exponentLength, digitCount] at h
        | cons d ds =>
            by_cases hsign : (d == '+' || d == '-') = true
            · have hlength : exponentLength (c :: d :: ds)
                  = if digitCount ds = 0 then 0 else 1 + 1 + digitCount ds := by
                simp [exponentLength, hletter, hsign]
              rw [hlength] at h ⊢
              obtain ⟨hcount, -⟩ := ite_ne_left_iff.mp h
              rw [if_neg hcount, Nat.add_comm, List.take_succ_cons, List.take_succ_cons]
              exact .signed hc (by simpa using hsign) (isDigits_take hcount)
            · have hlength : exponentLength (c :: d :: ds)
                  = if digitCount (d :: ds) = 0 then 0 else 1 + digitCount (d :: ds) := by
                simp [exponentLength, hletter, hsign]
              rw [hlength] at h ⊢
              obtain ⟨hcount, -⟩ := ite_ne_left_iff.mp h
              rw [if_neg hcount, Nat.add_comm, List.take_succ_cons]
              exact .unsigned hc (isDigits_take hcount)
      · exact absurd (if_neg hletter) h

/-- A text is digits, and a part that no digit starts. -/
theorem exists_digits_eq (cs : List Char) : ∃ whole after, cs = whole ++ after ∧
    (∀ d ∈ whole, isDecimal d = true) ∧ ∀ d ∈ after.head?, isDecimal d = false := by
  refine ⟨cs.takeWhile isDecimal, cs.dropWhile isDecimal, List.takeWhile_append_dropWhile.symm,
    fun d hd => List.mem_takeWhile_imp hd, fun d hd => ?_⟩
  have hhead := List.head?_dropWhile_not isDecimal cs
  rw [Option.mem_def.mp hd] at hhead
  simpa using hhead

theorem isFloat_take (h : floatMore? c rest = some n) : IsFloat (c :: rest.take n) := by
  have hc : isDecimal c = true := by
    by_contra hc
    rw [floatMore?, if_neg hc] at h
    cases h
  obtain ⟨whole, after, hrest, hdecimal, hafter⟩ := exists_digits_eq rest
  have hwhole : ∀ d ∈ c :: whole, isDecimal d = true := List.forall_mem_cons.mpr ⟨hc, hdecimal⟩
  have hdigits : IsDigits (c :: whole) := ⟨List.cons_ne_nil _ _, hwhole⟩
  subst hrest
  rw [floatMore?_append hwhole hafter] at h
  split at h
  · rename_i hfraction
    obtain ⟨digits, rfl, hcount⟩ : ∃ digits, after = '.' :: digits ∧ digitCount digits ≠ 0 := by
      revert hfraction
      rw [fractionCount.eq_def]
      split
      · intro hcount
        exact ⟨_, rfl, bne_iff_ne.mp hcount⟩
      · intro hcount
        cases hcount
    have hn : whole.length + (1 + (digitCount digits
        + exponentLength (digits.drop (digitCount digits)))) = n := by
      rw [← Option.some.inj h, fractionCount, Nat.add_comm 1 (digitCount digits), List.drop_succ_cons]
      omega
    rw [← hn, List.take_length_add_append, Nat.add_comm 1, List.take_succ_cons, List.take_add]
    refine .fraction hdigits (isDigits_take hcount) ?_
    by_cases hexponent : exponentLength (digits.drop (digitCount digits)) = 0
    · exact Or.inl (by rw [hexponent, List.take_zero])
    · exact Or.inr (isExponent_take hexponent)
  · split at h
    · rename_i hexponent
      rw [← Option.some.inj h, List.take_length_add_append]
      exact .exponent hdigits (isExponent_take (bne_iff_ne.mp hexponent))
    · cases h

theorem isBody_take (h : stringMore? rest = some n) : IsBody (rest.take n) := by
  fun_induction stringMore? rest generalizing n with
  | case1 => cases h
  | case2 =>
      obtain rfl := Option.some.inj h
      exact .close
  | case3 => cases h
  | case4 c rest hline ih =>
      obtain ⟨k, hk, rfl⟩ := Option.map_eq_some_iff.mp h
      rw [List.take_succ_cons, List.take_succ_cons]
      exact .escaped (by simpa using hline) (ih hk)
  | case5 => cases h
  | case6 c rest hquote _ hplain ih =>
      obtain ⟨k, hk, rfl⟩ := Option.map_eq_some_iff.mp h
      have hbreaks : c ≠ '\\' ∧ c ≠ '\n' := by simpa using hplain
      rw [List.take_succ_cons]
      exact .plain hquote hbreaks.1 hbreaks.2 (ih hk)

end Scan

/-- The terminals whose texts end up in trees. -/
def Terminal.isLexical : Terminal → Bool
  | .float | .name | .string | .int => true
  | _ => false

theorem spells_of_more? {t : Terminal} {c : Char} {rest : List Char} {n : Nat}
    (ht : t.isLexical = true) (h : t.more? c rest = some n) : t.Spells (c :: rest.take n) := by
  cases t with
  | float => exact isFloat_take h
  | name =>
      rw [Terminal.more?, nameMore?] at h
      split at h
      · obtain rfl := Option.some.inj h
        rename_i hc
        have hrest : ∀ d ∈ rest.takeWhile Value.isLabelRest, Value.isLabelRest d = true :=
          fun d hd => List.mem_takeWhile_imp hd
        rw [Terminal.Spells, isName, String.toList_ofList, take_takeWhile, Bool.and_eq_true,
          List.all_eq_true]
        exact ⟨hc, hrest⟩
      · cases h
  | string =>
      rw [Terminal.more?] at h
      split at h
      · rename_i hc
        obtain rfl := beq_iff_eq.mp hc
        exact ⟨_, rfl, isBody_take h⟩
      · cases h
  | int =>
      rw [Terminal.more?] at h
      split at h
      · rename_i hc
        obtain rfl := Option.some.inj h
        exact isDigits_cons_take hc rest
      · cases h
  | _ => cases ht

theorem more?_of_firstToken? {c : Char} {rest : List Char} {terminals : List Terminal} {t : Terminal}
    {n : Nat} (h : firstToken? c rest terminals = some (.token t n)) : t.more? c rest = some n := by
  obtain ⟨u, -, hu⟩ := List.exists_of_findSome?_eq_some h
  obtain ⟨more, hmore, heq⟩ := Option.map_eq_some_iff.mp hu
  obtain ⟨rfl, rfl⟩ := Lexeme.token.inj heq
  exact hmore

theorem more?_of_lexeme? {accepted : Terminal → Bool} {c : Char} {rest : List Char} {t : Terminal}
    {n : Nat} (h : lexeme? accepted c rest = some (.token t n)) : t.more? c rest = some n := by
  have hskipped {length? : Option Nat} : length?.map Lexeme.skipped ≠ some (.token t n) := by
    cases length? <;> exact nofun
  unfold lexeme? at h
  rcases Option.or_eq_some_iff.mp h with h | ⟨-, h⟩
  · exact more?_of_firstToken? h
  · rcases Option.or_eq_some_iff.mp h with h | ⟨-, h⟩
    · exact absurd h hskipped
    · rcases Option.or_eq_some_iff.mp h with h | ⟨-, h⟩
      · exact absurd h hskipped
      · exact more?_of_firstToken? h

/-- The text of a token is one of its terminal, if it ends up in a tree. -/
def Token.Spelled (t : Token) : Prop :=
  t.terminal.isLexical = true → t.terminal.Spells t.text.toList

/-! ### Constructs that are open

Closing a construct moves an operand from the stack into a tree. Each of the closing functions is one case of
the same fact: if the operand and all open constructs are of the grammar, so are they afterwards. -/

def Frame.Grammatical : Frame → Prop
  | .arith _ left | .test _ left => left.Grammatical
  | .all trees | .any trees => trees ≠ [] ∧ ∀ t ∈ trees, t.Grammatical
  | .index target => target.Grammatical
  | .list items => ∀ item ∈ items, ∀ t ∈ item.value?, t.Grammatical
  | .struct fields | .document fields => Labelled fields ∧ ∀ f ∈ fields, f.2.Grammatical
  | .label name => name.Grammatical
  | _ => True

def Phase.Grammatical : Phase → Prop
  | .complete tree | .selector tree | .finished tree => tree.Grammatical
  | .labelOrOperand label | .labelComplete label => label.Grammatical
  | _ => True

/-- Behind a comma a document has a field. -/
structure Machine.Grammatical (m : Machine) : Prop where
  phase : m.phase.Grammatical
  frames : ∀ frame ∈ m.frames, frame.Grammatical
  separated : m.phase = .documentSeparated → ∀ fields, m.frames = [.document fields] → fields ≠ []

/-- An operand and the constructs around it are of the grammar. -/
structure Closed (p : Tree × List Frame) : Prop where
  tree : p.1.Grammatical
  frames : ∀ frame ∈ p.2, frame.Grammatical

section Close

variable {t : Tree} {frames : List Frame}

theorem Closed.frame {frame : Frame} (h : Closed (t, frame :: frames)) : frame.Grammatical :=
  h.frames frame List.mem_cons_self

theorem Closed.rest {frame : Frame} (h : Closed (t, frame :: frames)) :
    ∀ frame ∈ frames, frame.Grammatical :=
  fun other hother => h.frames other (List.mem_cons_of_mem frame hother)

theorem closed_closeUnary (h : Closed (t, frames)) : Closed (closeUnary t frames) := by
  induction frames generalizing t with
  | nil => exact h
  | cons frame frames ih =>
      cases frame with
      | neg => exact ih ⟨.neg h.tree, h.rest⟩
      | not => exact ih ⟨.not h.tree, h.rest⟩
      | plus => exact ih ⟨h.tree, h.rest⟩
      | _ => exact h

theorem closed_closeProduct (h : Closed (t, frames)) : Closed (closeProduct t frames) := by
  have hunary := closed_closeUnary h
  unfold closeProduct
  split
  · rename_i heq
    rw [heq] at hunary
    exact ⟨.arith hunary.frame hunary.tree, hunary.rest⟩
  · rename_i heq
    rw [heq] at hunary
    exact ⟨.arith hunary.frame hunary.tree, hunary.rest⟩
  · exact hunary

theorem closed_closeSum (h : Closed (t, frames)) : Closed (closeSum t frames) := by
  have hproduct := closed_closeProduct h
  unfold closeSum
  split
  · rename_i heq
    rw [heq] at hproduct
    exact ⟨.arith hproduct.frame hproduct.tree, hproduct.rest⟩
  · rename_i heq
    rw [heq] at hproduct
    exact ⟨.arith hproduct.frame hproduct.tree, hproduct.rest⟩
  · exact hproduct

theorem closed_closeTest (h : Closed (t, frames)) : Closed (closeTest t frames) := by
  have hsum := closed_closeSum h
  unfold closeTest
  split
  · rename_i heq
    rw [heq] at hsum
    exact ⟨.test hsum.frame hsum.tree, hsum.rest⟩
  · rename_i heq
    rw [heq] at hsum
    exact ⟨.bound hsum.tree, hsum.rest⟩
  · exact hsum

theorem forall_mem_append_singleton {α : Type} {P : α → Prop} {xs : List α} {x : α}
    (hxs : ∀ y ∈ xs, P y) (hx : P x) : ∀ y ∈ xs ++ [x], P y := by
  rw [List.forall_mem_append]
  exact ⟨hxs, List.forall_mem_singleton.mpr hx⟩

theorem two_le_length_append {trees : List Tree} (h : trees ≠ []) (t : Tree) :
    2 ≤ (trees ++ [t]).length := by
  rw [List.length_append, List.length_singleton]
  exact Nat.succ_le_succ (List.length_pos_iff.mpr h)

theorem closed_closeAll (h : Closed (t, frames)) : Closed (closeAll t frames) := by
  have htest := closed_closeTest h
  unfold closeAll
  split
  · rename_i heq
    rw [heq] at htest
    obtain ⟨hne, hparts⟩ := htest.frame
    exact ⟨.all (two_le_length_append hne _) (forall_mem_append_singleton hparts htest.tree),
      htest.rest⟩
  · exact htest

theorem closed_closeExpression (h : Closed (t, frames)) : Closed (closeExpression t frames) := by
  have hall := closed_closeAll h
  unfold closeExpression
  split
  · rename_i heq
    rw [heq] at hall
    obtain ⟨hne, hoptions⟩ := hall.frame
    exact ⟨.any (two_le_length_append hne _) (forall_mem_append_singleton hoptions hall.tree),
      hall.rest⟩
  · exact hall

theorem grammatical_closeLabels {labels : List Label} (hlabels : ∀ label ∈ labels, label.Grammatical)
    (h : ∀ frame ∈ frames, frame.Grammatical) :
    (∀ label ∈ (closeLabels labels frames).1, label.Grammatical) ∧
      ∀ frame ∈ (closeLabels labels frames).2, frame.Grammatical := by
  induction frames generalizing labels with
  | nil => exact ⟨hlabels, h⟩
  | cons frame frames ih =>
      cases frame with
      | label label =>
          obtain ⟨hlabel, hframes⟩ := List.forall_mem_cons.mp h
          exact ih (List.forall_mem_cons.mpr ⟨hlabel, hlabels⟩) hframes
      | _ => exact ⟨hlabels, h⟩

theorem grammatical_closeItem? {items : List (Item Tree)} {rest : List Frame}
    (h : Closed (t, frames)) (hclose : closeItem? t frames = some (items, rest)) :
    (∀ item ∈ items, ∀ t ∈ item.value?, t.Grammatical) ∧ ∀ frame ∈ rest, frame.Grammatical := by
  have hexpression := closed_closeExpression h
  unfold closeItem? at hclose
  split at hclose
  · rename_i heq
    rw [heq] at hexpression
    obtain ⟨rfl, rfl⟩ := Prod.mk.inj (Option.some.inj hclose)
    refine ⟨forall_mem_append_singleton hexpression.frame ?_, hexpression.rest⟩
    intro _ hvalue
    exact Option.some.inj hvalue ▸ hexpression.tree
  · rename_i heq
    rw [heq] at hexpression
    obtain ⟨rfl, rfl⟩ := Prod.mk.inj (Option.some.inj hclose)
    have hlist := hexpression.rest _ List.mem_cons_self
    refine ⟨forall_mem_append_singleton hlist ?_, fun frame hframe => ?_⟩
    · intro _ hvalue
      exact Option.some.inj hvalue ▸ hexpression.tree
    · exact hexpression.rest frame (List.mem_cons_of_mem _ hframe)
  · cases hclose

/-- A field that is read stands under a label and has a value of the grammar. -/
structure Field.Grammatical (f : Field) : Prop where
  labels : f.1 ≠ [] ∧ ∀ label ∈ f.1, label.Grammatical
  tree : f.2.Grammatical

theorem Field.Grammatical.append {field : Field} (h : Field.Grammatical field) {fields : List Field}
    (hfields : Labelled fields ∧ ∀ f ∈ fields, f.2.Grammatical) :
    Labelled (fields ++ [field]) ∧ ∀ f ∈ fields ++ [field], f.2.Grammatical :=
  ⟨forall_mem_append_singleton hfields.1 h.labels, forall_mem_append_singleton hfields.2 h.tree⟩

theorem grammatical_closeField? {field : Field} {rest : List Frame} (h : Closed (t, frames))
    (hclose : closeField? t frames = some (field, rest)) :
    Field.Grammatical field ∧ ∀ frame ∈ rest, frame.Grammatical := by
  have hexpression := closed_closeExpression h
  unfold closeField? at hclose
  obtain ⟨tree, around⟩ := closeExpression t frames
  have hlabels := grammatical_closeLabels (List.forall_mem_nil _) hexpression.frames
  dsimp only at hclose hlabels
  split at hclose
  · cases hclose
  · rename_i hne heq
    rw [heq] at hlabels
    obtain ⟨rfl, rfl⟩ := Prod.mk.inj (Option.some.inj hclose)
    exact ⟨⟨⟨hne, hlabels.1⟩, hexpression.tree⟩, hlabels.2⟩

end Close

section Steps

variable {tree : Tree} {frames : List Frame} {t : Token} {m next : Machine}

theorem Token.Spelled.spells (ht : t.Spelled) {terminal : Terminal} (heq : t.terminal = terminal)
    (hlexical : terminal.isLexical = true) : terminal.Spells t.text.toList := by
  rw [← heq] at hlexical ⊢
  exact ht hlexical

theorem Token.Spelled.isName (ht : t.Spelled) (heq : t.terminal = .name) : Expr.isName t.text = true := by
  have h := ht.spells heq rfl
  rwa [Terminal.Spells, String.ofList_toList] at h

theorem grammatical_operand {label : Label} (h : label.Grammatical) : label.operand.Grammatical := by
  cases label with
  | name text => exact .ref (Label.grammatical_name.mp h)
  | quoted lexeme => exact .string h

theorem grammatical_labelOf? {label : Label} (ht : t.Spelled) (h : labelOf? t = some label) :
    label.Grammatical := by
  unfold labelOf? at h
  split at h
  · rename_i heq
    obtain rfl := Option.some.inj h
    exact ht.spells heq rfl
  · rename_i heq
    obtain rfl := Option.some.inj h
    exact ht.spells heq rfl
  · cases h

theorem grammatical_selectorOf? {selector : Selector} (ht : t.Spelled)
    (h : selectorOf? t = some selector) : selector.Grammatical := by
  unfold selectorOf? at h
  split at h
  · rename_i heq
    obtain rfl := Option.some.inj h
    exact ht.spells heq rfl
  · rename_i heq
    obtain rfl := Option.some.inj h
    exact ht.spells heq rfl
  · rename_i heq
    obtain rfl := Option.some.inj h
    exact ht.spells heq rfl
  · cases h

theorem Frame.cons_grammatical {frame : Frame} (hframe : frame.Grammatical)
    (h : ∀ frame ∈ frames, frame.Grammatical) : ∀ f ∈ frame :: frames, f.Grammatical :=
  List.forall_mem_cons.mpr ⟨hframe, h⟩

theorem grammatical_begin? (ht : t.Spelled) (h : ∀ frame ∈ frames, frame.Grammatical)
    (hbegin : begin? frames t = some next) : next.Grammatical := by
  unfold begin? at hbegin
  split at hbegin
  case h_12 => cases hbegin
  all_goals
    rename_i heq
    obtain rfl := Option.some.inj hbegin
  · exact ⟨trivial, Frame.cons_grammatical trivial h, nofun⟩
  · exact ⟨.string (ht.spells heq rfl), h, nofun⟩
  · exact ⟨.int (ht.spells heq rfl), h, nofun⟩
  · exact ⟨.float (ht.spells heq rfl), h, nofun⟩
  · exact ⟨.ref (ht.isName heq), h, nofun⟩
  · exact ⟨trivial, Frame.cons_grammatical trivial h, nofun⟩
  · exact ⟨trivial, Frame.cons_grammatical ⟨nofun, nofun⟩ h, nofun⟩
  · exact ⟨trivial, Frame.cons_grammatical nofun h, nofun⟩
  · exact ⟨trivial, Frame.cons_grammatical trivial h, nofun⟩
  · exact ⟨trivial, Frame.cons_grammatical trivial h, nofun⟩
  · exact ⟨trivial, Frame.cons_grammatical trivial h, nofun⟩

theorem grammatical_beginField? (ht : t.Spelled) (h : ∀ frame ∈ frames, frame.Grammatical)
    (hbegin : beginField? frames t = some next) : next.Grammatical := by
  unfold beginField? at hbegin
  split at hbegin
  · rename_i heq
    obtain rfl := Option.some.inj hbegin
    exact ⟨ht.spells heq rfl, h, nofun⟩
  · rename_i heq
    obtain rfl := Option.some.inj hbegin
    exact ⟨ht.spells heq rfl, h, nofun⟩
  · exact grammatical_begin? ht h hbegin

theorem grammatical_addTest? {test : Test} (h : Closed (tree, frames))
    (hadd : addTest? tree frames test = some next) : next.Grammatical := by
  have hsum := closed_closeSum h
  unfold addTest? at hadd
  split at hadd
  · cases hadd
  · cases hadd
  · obtain rfl := Option.some.inj hadd
    rename_i heq
    rw [heq] at hsum
    exact ⟨trivial, Frame.cons_grammatical hsum.tree hsum.frames, nofun⟩

theorem grammatical_addPart (h : Closed (tree, frames)) : (addPart tree frames).Grammatical := by
  have htest := closed_closeTest h
  unfold addPart
  split
  · rename_i heq
    rw [heq] at htest
    refine ⟨trivial, Frame.cons_grammatical ⟨?_, ?_⟩ htest.rest, nofun⟩
    · exact List.append_ne_nil_of_right_ne_nil _ (List.cons_ne_nil _ _)
    · exact forall_mem_append_singleton htest.frame.2 htest.tree
  · rename_i heq
    rw [heq] at htest
    refine ⟨trivial, Frame.cons_grammatical ⟨List.cons_ne_nil _ _, ?_⟩ htest.frames, nofun⟩
    exact List.forall_mem_singleton.mpr htest.tree

theorem grammatical_addOption (h : Closed (tree, frames)) : (addOption tree frames).Grammatical := by
  have hall := closed_closeAll h
  unfold addOption
  split
  · rename_i heq
    rw [heq] at hall
    refine ⟨trivial, Frame.cons_grammatical ⟨?_, ?_⟩ hall.rest, nofun⟩
    · exact List.append_ne_nil_of_right_ne_nil _ (List.cons_ne_nil _ _)
    · exact forall_mem_append_singleton hall.frame.2 hall.tree
  · rename_i heq
    rw [heq] at hall
    refine ⟨trivial, Frame.cons_grammatical ⟨List.cons_ne_nil _ _, ?_⟩ hall.frames, nofun⟩
    exact List.forall_mem_singleton.mpr hall.tree

theorem grammatical_closeBracket? (h : Closed (tree, frames))
    (hclose : closeBracket? tree frames = some next) : next.Grammatical := by
  have hexpression := closed_closeExpression h
  unfold closeBracket? at hclose
  split at hclose
  · rename_i heq
    rw [heq] at hexpression
    obtain rfl := Option.some.inj hclose
    exact ⟨.index hexpression.frame hexpression.tree, hexpression.rest, nofun⟩
  · obtain ⟨⟨items, rest⟩, hitem, rfl⟩ := Option.map_eq_some_iff.mp hclose
    obtain ⟨hitems, hrest⟩ := grammatical_closeItem? h hitem
    exact ⟨.list hitems, hrest, nofun⟩

theorem grammatical_closeBrace? (h : Closed (tree, frames))
    (hclose : closeBrace? tree frames = some next) : next.Grammatical := by
  unfold closeBrace? at hclose
  split at hclose
  · rename_i heq
    obtain ⟨hfield, hframes⟩ := grammatical_closeField? h heq
    obtain rfl := Option.some.inj hclose
    rw [List.forall_mem_cons] at hframes
    obtain ⟨hlabels, htrees⟩ := hfield.append hframes.1
    exact ⟨.struct hlabels htrees, hframes.2, nofun⟩
  · cases hclose

theorem grammatical_separate? (h : Closed (tree, frames))
    (hseparate : separate? tree frames = some next) : next.Grammatical := by
  unfold separate? at hseparate
  split at hseparate
  · rename_i heq
    obtain ⟨hitems, hrest⟩ := grammatical_closeItem? h heq
    obtain rfl := Option.some.inj hseparate
    exact ⟨trivial, Frame.cons_grammatical hitems hrest, nofun⟩
  · split at hseparate
    · rename_i heq
      obtain ⟨hfield, hframes⟩ := grammatical_closeField? h heq
      obtain rfl := Option.some.inj hseparate
      rw [List.forall_mem_cons] at hframes
      exact ⟨trivial, Frame.cons_grammatical (hfield.append hframes.1) hframes.2, nofun⟩
    · rename_i heq
      obtain ⟨hfield, hframes⟩ := grammatical_closeField? h heq
      obtain rfl := Option.some.inj hseparate
      rw [List.forall_mem_cons] at hframes
      refine ⟨trivial, Frame.cons_grammatical (hfield.append hframes.1) hframes.2, ?_⟩
      intro _ fields hfields
      obtain rfl := Frame.document.inj (List.cons.inj hfields).1
      exact List.append_ne_nil_of_right_ne_nil _ (List.cons_ne_nil _ _)
    · have hexpression := closed_closeExpression h
      split at hseparate
      · rename_i heq
        rw [heq] at hexpression
        obtain rfl := Option.some.inj hseparate
        exact ⟨hexpression.tree, nofun, nofun⟩
      · cases hseparate

theorem grammatical_continue? (h : Closed (tree, frames))
    (hcontinue : continue? tree frames t = some next) : next.Grammatical := by
  have hproduct := closed_closeProduct h
  have hsum := closed_closeSum h
  unfold continue? at hcontinue
  split at hcontinue
  · obtain rfl := Option.some.inj hcontinue
    exact ⟨h.tree, h.frames, nofun⟩
  · obtain rfl := Option.some.inj hcontinue
    exact ⟨trivial, Frame.cons_grammatical h.tree h.frames, nofun⟩
  · obtain rfl := Option.some.inj hcontinue
    exact ⟨trivial, Frame.cons_grammatical hproduct.tree hproduct.frames, nofun⟩
  · obtain rfl := Option.some.inj hcontinue
    exact ⟨trivial, Frame.cons_grammatical hproduct.tree hproduct.frames, nofun⟩
  · obtain rfl := Option.some.inj hcontinue
    exact ⟨trivial, Frame.cons_grammatical hsum.tree hsum.frames, nofun⟩
  · obtain rfl := Option.some.inj hcontinue
    exact ⟨trivial, Frame.cons_grammatical hsum.tree hsum.frames, nofun⟩
  · exact grammatical_addTest? h hcontinue
  · exact Option.some.inj hcontinue ▸ grammatical_addPart h
  · exact Option.some.inj hcontinue ▸ grammatical_addOption h
  · have hexpression := closed_closeExpression h
    split at hcontinue
    · rename_i heq
      rw [heq] at hexpression
      obtain rfl := Option.some.inj hcontinue
      exact ⟨hexpression.tree, hexpression.rest, nofun⟩
    · cases hcontinue
  · exact grammatical_closeBracket? h hcontinue
  · exact grammatical_closeBrace? h hcontinue
  · exact grammatical_separate? h hcontinue
  · cases hcontinue

theorem grammatical_pushLabel {label : Label} (hlabel : label.Grammatical)
    (h : ∀ frame ∈ frames, frame.Grammatical) : (pushLabel label frames).Grammatical := by
  cases frames with
  | nil =>
      have hdocument : Frame.Grammatical (.document []) := ⟨nofun, nofun⟩
      exact ⟨trivial, Frame.cons_grammatical hlabel (Frame.cons_grammatical hdocument h), nofun⟩
  | cons frame frames => exact ⟨trivial, Frame.cons_grammatical hlabel h, nofun⟩

theorem grammatical_continueList? (ht : t.Spelled) (h : ∀ frame ∈ frames, frame.Grammatical)
    (hcontinue : continueList? frames t = some next) : next.Grammatical := by
  rw [continueList?.eq_def] at hcontinue
  split at hcontinue
  · obtain rfl := Option.some.inj hcontinue
    rw [List.forall_mem_cons] at h
    exact ⟨.list h.1, h.2, nofun⟩
  · obtain rfl := Option.some.inj hcontinue
    exact ⟨trivial, Frame.cons_grammatical trivial h, nofun⟩
  · exact grammatical_begin? ht h hcontinue

theorem grammatical_continueStruct? (ht : t.Spelled) (h : ∀ frame ∈ frames, frame.Grammatical)
    (hcontinue : continueStruct? frames t = some next) : next.Grammatical := by
  rw [continueStruct?.eq_def] at hcontinue
  split at hcontinue
  · obtain rfl := Option.some.inj hcontinue
    rw [List.forall_mem_cons] at h
    exact ⟨.struct h.1.1 h.1.2, h.2, nofun⟩
  · obtain ⟨label, hlabel, rfl⟩ := Option.map_eq_some_iff.mp hcontinue
    exact ⟨grammatical_labelOf? ht hlabel, h, nofun⟩

/-- The parser takes a token from one state of the grammar to another. -/
theorem grammatical_feed? (ht : t.Spelled) (h : m.Grammatical) (hfeed : m.feed? t = some next) :
    next.Grammatical := by
  obtain ⟨phase, frames⟩ := m
  obtain ⟨hphase, hframes, -⟩ := h
  cases phase with
  | start =>
      simp only [Machine.feed?] at hfeed
      split at hfeed
      · obtain rfl := Option.some.inj hfeed
        exact ⟨trivial, hframes, nofun⟩
      · exact grammatical_beginField? ht hframes hfeed
  | startSeparated => exact grammatical_beginField? ht hframes hfeed
  | fieldValue => exact grammatical_beginField? ht hframes hfeed
  | operand =>
      simp only [Machine.feed?] at hfeed
      split at hfeed
      · cases hfeed
      · exact grammatical_begin? ht hframes hfeed
  | expression => exact grammatical_begin? ht hframes hfeed
  | complete tree => exact grammatical_continue? ⟨hphase, hframes⟩ hfeed
  | labelOrOperand label =>
      simp only [Machine.feed?] at hfeed
      split at hfeed
      · exact Option.some.inj hfeed ▸ grammatical_pushLabel hphase hframes
      · exact grammatical_continue? ⟨grammatical_operand hphase, hframes⟩ hfeed
  | selector target =>
      obtain ⟨selector, hselector, rfl⟩ := Option.map_eq_some_iff.mp hfeed
      exact ⟨.select hphase (grammatical_selectorOf? ht hselector), hframes, nofun⟩
  | structOpen =>
      simp only [Machine.feed?] at hfeed
      split at hfeed
      · obtain rfl := Option.some.inj hfeed
        exact ⟨trivial, hframes, nofun⟩
      · exact grammatical_continueStruct? ht hframes hfeed
  | structSeparated => exact grammatical_continueStruct? ht hframes hfeed
  | labelComplete label =>
      simp only [Machine.feed?] at hfeed
      split at hfeed
      · exact Option.some.inj hfeed ▸ grammatical_pushLabel hphase hframes
      · cases hfeed
  | listOpen =>
      simp only [Machine.feed?] at hfeed
      split at hfeed
      · obtain rfl := Option.some.inj hfeed
        exact ⟨trivial, hframes, nofun⟩
      · exact grammatical_continueList? ht hframes hfeed
  | listSeparated => exact grammatical_continueList? ht hframes hfeed
  | ellipsis =>
      have hrest : ∀ items : List (Item Tree), (∀ item ∈ items, ∀ t ∈ item.value?, t.Grammatical) →
          ∀ item ∈ items ++ [.rest], ∀ t ∈ item.value?, t.Grammatical :=
        fun items hitems => forall_mem_append_singleton hitems nofun
      simp only [Machine.feed?] at hfeed
      split at hfeed
      · obtain rfl := Option.some.inj hfeed
        rw [List.forall_mem_cons, List.forall_mem_cons] at hframes
        exact ⟨.list (hrest _ hframes.2.1), hframes.2.2, nofun⟩
      · obtain rfl := Option.some.inj hfeed
        rw [List.forall_mem_cons, List.forall_mem_cons] at hframes
        exact ⟨trivial, Frame.cons_grammatical (hrest _ hframes.2.1) hframes.2.2, nofun⟩
      · exact grammatical_begin? ht hframes hfeed
  | documentSeparated =>
      obtain ⟨label, hlabel, rfl⟩ := Option.map_eq_some_iff.mp hfeed
      exact ⟨grammatical_labelOf? ht hlabel, hframes, nofun⟩
  | finished tree => cases hfeed

theorem grammatical_closeDocument {document : Document} (h : Closed (tree, frames))
    (hclose : closeDocument? tree frames = some document) : document.Grammatical := by
  unfold closeDocument? at hclose
  split at hclose
  · rename_i heq
    obtain ⟨hfield, hframes⟩ := grammatical_closeField? h heq
    obtain rfl := Option.some.inj hclose
    refine ⟨List.append_ne_nil_of_right_ne_nil _ (List.cons_ne_nil _ _), ?_⟩
    exact hfield.append (hframes _ List.mem_cons_self)
  · have hexpression := closed_closeExpression h
    split at hclose
    · rename_i heq
      rw [heq] at hexpression
      obtain rfl := Option.some.inj hclose
      exact hexpression.tree
    · cases hclose

theorem grammatical_finish? {document : Document} (h : m.Grammatical)
    (hfinish : m.finish? = some document) : document.Grammatical := by
  obtain ⟨phase, frames⟩ := m
  obtain ⟨hphase, hframes, hseparated⟩ := h
  unfold Machine.finish? at hfinish
  dsimp only at hfinish
  split at hfinish
  · obtain rfl := Option.some.inj hfinish
    trivial
  · obtain rfl := Option.some.inj hfinish
    trivial
  · exact grammatical_closeDocument ⟨hphase, hframes⟩ hfinish
  · exact grammatical_closeDocument ⟨grammatical_operand hphase, hframes⟩ hfinish
  · obtain rfl := Option.some.inj hfinish
    exact ⟨hseparated rfl _ rfl, hframes _ List.mem_cons_self⟩
  · obtain rfl := Option.some.inj hfinish
    exact hphase
  · cases hfinish

theorem grammatical_run {last position : Position} {cs : List Char} {document : Document}
    (h : m.Grammatical) (hrun : m.run last position cs = .ok document) : document.Grammatical := by
  induction hlength : cs.length using Nat.strongRecOn generalizing m last position cs with
  | ind n ih =>
      subst hlength
      cases cs with
      | nil =>
          unfold Machine.run at hrun
          split at hrun
          · rename_i hfinish
            obtain rfl := Except.ok.inj hrun
            exact grammatical_finish? h hfinish
          · cases hrun
      | cons c rest =>
          have hshorter : ∀ more, (rest.drop more).length < (c :: rest).length := by
            intro more
            rw [List.length_drop, List.length_cons]
            omega
          unfold Machine.run at hrun
          split at hrun
          · exact ih _ (hshorter _) h hrun rfl
          · rename_i terminal more hlexeme
            have ht : Token.Spelled ⟨terminal, String.ofList (c :: rest.take more), position⟩ := by
              intro hlexical
              rw [String.toList_ofList]
              exact spells_of_more? hlexical (more?_of_lexeme? hlexeme)
            dsimp only at hrun
            split at hrun
            · rename_i hfeed
              exact ih _ (hshorter _) (grammatical_feed? ht h hfeed) hrun rfl
            · cases hrun
          · split at hrun <;> cases hrun

/-- A text that is parsed is parsed to a document of the grammar. -/
theorem grammatical_parse {text : String} {document : Document} (h : parse text = .ok document) :
    document.Grammatical :=
  have hstart : Machine.start.Grammatical := ⟨trivial, nofun, nofun⟩
  grammatical_run hstart h

end Steps

theorem Tree.Grammatical.wellFormed {t : Tree} (h : t.Grammatical) : t.WellFormed := by
  induction h with
  | string => exact .string
  | int => exact .int
  | float => exact .float
  | ref => exact .ref
  | select _ _ ih => exact .select ih
  | index _ _ ihtarget ihkey => exact .index ihtarget ihkey
  | neg _ ih => exact .neg ih
  | not _ ih => exact .not ih
  | arith _ _ ihleft ihright => exact .arith ihleft ihright
  | test _ _ ihleft ihright => exact .test ihleft ihright
  | bound _ ih => exact .bound ih
  | all _ _ ih => exact .all ih
  | any hlength _ ih => exact .any (List.ne_nil_of_length_pos (by omega)) ih
  | struct _ _ ih => exact .struct ih
  | list _ ih => exact .list ih

theorem wellFormed_parse {text : String} {document : Document} (h : parse text = .ok document) :
    document.WellFormed := by
  have hgrammatical := grammatical_parse h
  cases document with
  | empty => trivial
  | fields all => exact fun f hf => (hgrammatical.2.2 f hf).wellFormed
  | value t => exact Tree.Grammatical.wellFormed hgrammatical

end ApiProbe.Expr
