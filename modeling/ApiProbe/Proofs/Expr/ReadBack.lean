import ApiProbe.Expr.Eval
import ApiProbe.Proofs.Expr.Grammar
import ApiProbe.Proofs.Expr.Nesting

/-!
# Reading back written expressions

Every tree of the grammar is read as a tree of its level, by induction on the tree. A text of its words
is therefore parsed to the tree, and to no other one. The grammar has no other trees than those that
texts are parsed to.
-/

namespace ApiProbe.Expr

theorem operandWords_eq_map (level : Level) (ts : List Tree) :
    operandWords level ts = ts.map fun t => t.place level t.words := by
  induction ts with
  | nil => rfl
  | cons t ts ih => rw [operandWords, ih, List.map_cons]

theorem fieldWords_eq_map (fields : List Field) :
    fieldWords fields = fields.map fun f => labelWords f.1 ++ f.2.words := by
  induction fields with
  | nil => rfl
  | cons f fields ih => rw [fieldWords, ih, List.map_cons]

def Item.words : Item Tree → List Word
  | .value t => t.words
  | .rest => [.ellipsis]
  | .restOf t => .ellipsis :: t.words

theorem itemWords_eq_map (items : List (Item Tree)) : itemWords items = items.map Item.words := by
  induction items with
  | nil => rfl
  | cons item items ih => cases item <;> rw [itemWords, ih] <;> rfl

theorem Level.Reads.value {t : Tree} {words : List Word} (h : t.level.Reads words t) :
    Level.disjunction.Reads words t :=
  h.mono (Nat.zero_le _)

/-- The words of a tree are read as a tree of its level. -/
theorem Tree.Grammatical.reads {t : Tree} (h : t.Grammatical) : t.level.Reads t.words t := by
  induction h with
  | string h => exact readsWhole_word h rfl
  | int h => exact readsWhole_word h rfl
  | float h => exact readsWhole_word h rfl
  | @ref name h =>
      have hspelled : Terminal.name.Spells name.toList := by
        rwa [Terminal.Spells, String.ofList_toList]
      exact readsWhole_word hspelled rfl
  | select _ hselector ih =>
      rw [Tree.words]
      exact readsWhole_select (ih.place .selection) hselector
  | index _ _ ihtarget ihkey =>
      rw [Tree.words]
      exact readsWhole_index (ihtarget.place .selection) ihkey.value
  | neg _ ih =>
      rw [Tree.words]
      exact readsUnary_sign rfl rfl (fun _ _ _ => rfl) (fun _ => rfl) (ih.place .unary)
  | not _ ih =>
      rw [Tree.words]
      exact readsUnary_sign rfl rfl (fun _ _ _ => rfl) (fun _ => rfl) (ih.place .unary)
  | arith _ _ ihleft ihright =>
      rw [Tree.words]
      exact reads_arith (ihleft.place _) (ihright.place _)
  | test _ _ ihleft ihright =>
      rw [Tree.words]
      exact reads_test _ (ihleft.place .sum) (ihright.place .sum)
  | bound _ ih =>
      rw [Tree.words]
      exact reads_bound _ (ih.place .sum)
  | all hlength _ ih =>
      rw [Tree.words, operandWords_eq_map]
      exact Row.all.readsTo_row hlength fun t ht => (ih t ht).place .comparison
  | any hlength _ ih =>
      rw [Tree.words, operandWords_eq_map]
      exact Row.any.readsTo_row hlength fun t ht => (ih t ht).place .conjunction
  | struct hlabels _ ih =>
      rw [Tree.words, fieldWords_eq_map]
      exact Brackets.struct.readsWhole fun f hf =>
        takesWords_field (hlabels f hf).1 (hlabels f hf).2 (ih f hf).value
  | list _ ih =>
      rw [Tree.words, itemWords_eq_map]
      refine Brackets.list.readsWhole fun item hitem => ?_
      cases item with
      | value t => exact takesWords_value (ih _ hitem t rfl).value
      | rest => exact takesWords_rest
      | restOf t => exact takesWords_restOf (ih _ hitem t rfl).value

/-- The words of a document are read up to a state in which the text may end. -/
theorem Document.Grammatical.steps {d : Document} (h : d.Grammatical) :
    ∃ m, Machine.start.Steps d.words m ∧ m.finish? = some d := by
  cases d with
  | empty => exact ⟨.start, .nil, rfl⟩
  | fields all =>
      obtain ⟨hne, hlabels, htrees⟩ := h
      rw [Document.words, fieldWords_eq_map]
      have hstart : Machine.start.OpensFields [] := Or.inl ⟨rfl, rfl⟩
      exact steps_documentFields hstart hne fun f hf =>
        ⟨(hlabels f hf).1, (hlabels f hf).2, (htrees f hf).reads.value⟩
  | value t =>
      obtain ⟨q, fs, u, hsteps, hoperand, hclose⟩ := h.reads.value .start [] rfl (outside_nil 6)
      exact ⟨⟨q, fs⟩, hsteps, hoperand.finish? hclose⟩

theorem Document.Grammatical.parse {d : Document} (h : d.Grammatical) {text : String}
    (htext : Written d.words text.toList) : Expr.parse text = .ok d := by
  obtain ⟨m, hsteps, hfinish⟩ := h.steps
  obtain ⟨last, position, hrun⟩ := hsteps.advances htext .start .start
  rw [Expr.parse, hrun, Machine.run, hfinish]

/-- The documents of the grammar are the ones that the parser makes. -/
theorem Document.grammatical_iff {d : Document} :
    d.Grammatical ↔ ∃ text, Expr.parse text = .ok d := by
  refine ⟨fun h => ?_, fun ⟨text, hparse⟩ => grammatical_parse hparse⟩
  obtain ⟨cs, hwritten⟩ := exists_written d.words
  exact ⟨String.ofList cs, h.parse (by rwa [String.toList_ofList])⟩

/-- **A text of the words of a document, with parentheses where the levels of the grammar ask for them
and any blanks between the words, is parsed to the document. It is a text of no other document, and its
value is the value of the document.** -/
theorem parse_written {d : Document} {text : String} (hd : d.Grammatical)
    (htext : Written d.words text.toList) :
    Expr.parse text = .ok d ∧
      (∀ other : Document, other.Grammatical → Written other.words text.toList → other = d) ∧
      ∀ scope : Scope, compile scope text = match d.eval scope with
        | .ok value => .ok value
        | .error (.refused refusal) => .error (.compile (.refused refusal))
        | .error (.fault fault) => .error (.fault fault) := by
  have hparse := hd.parse htext
  refine ⟨hparse, fun other hother hwritten => ?_, fun scope => ?_⟩
  · have hsame := hother.parse hwritten
    rw [hparse] at hsame
    exact (Except.ok.inj hsame).symm
  · rcases heval : d.eval scope with (refusal | fault) | value <;>
      simp only [compile, hparse, heval]

theorem parse_written_two_fields :
    let total : Tree := .arith .sub
      (.arith .mul (.index (.select (.ref "order") (.quoted "\"price\"")) (.int "0"))
        (.arith .sub (.int "1") (.ref "rate")))
      (.neg (.neg (.ref "fee")))
    let due : Tree := .all
      [.test .eq (.not (.ref "closed")) (.any [.ref "paid", .bound .ne (.ref "null")]), .struct []]
    let parts : Tree := .list [.value (.float "1.5e3"), .restOf (.bound (.order .lt) (.int "7"))]
    let document : Document := .fields [([.name "total"], total),
      ([.name "state", .quoted "\"due\""], due), ([.name "parts"], parts)]
    let text := "total : order . \"price\" [ 0 ]  * (\t1 - rate ) - - - fee , " ++
      "state : \"due\" : ! closed == ( paid | != null ) & \x7b \x7d , parts : [ 1.5e3 , ... < 7 ]"
    document.Grammatical ∧ Written document.words text.toList ∧ Expr.parse text = .ok document ∧
      ∀ other : Document, other.Grammatical → Written other.words text.toList → other = document := by
  intro total due parts document text
  have hstring (body : List Char) (h : ∀ c ∈ body, c ≠ '"' ∧ c ≠ '\\' ∧ c ≠ '\n') :
      IsString ('"' :: (body ++ ['"'])) := by
    refine ⟨_, rfl, ?_⟩
    induction body with
    | nil => exact .close
    | cons c body ih =>
        obtain ⟨⟨hquote, hbackslash, hline⟩, hbody⟩ := List.forall_mem_cons.mp h
        exact .plain hquote hbackslash hline (ih hbody)
  have hpair {α : Type} {P : α → Prop} {a b : α} (ha : P a) (hb : P b) : ∀ x ∈ [a, b], P x :=
    List.forall_mem_cons.mpr ⟨ha, List.forall_mem_singleton.mpr hb⟩
  have hname (name : String) (h : isName name = true) : Label.Grammatical (.name name) := by
    rwa [Label.Grammatical, Word.Spelled, Label.word, Terminal.Spells, String.ofList_toList]
  have hprice : Selector.Grammatical (.quoted "\"price\"") := by
    have hchars : "\"price\"".toList = '"' :: ("price".toList ++ ['"']) := by decide
    rw [Selector.Grammatical, Word.Spelled, Selector.word, Terminal.Spells, hchars]
    exact hstring _ (List.all_iff_forall_prop.mp (by decide))
  have hquoted : Label.Grammatical (.quoted "\"due\"") := by
    have hchars : "\"due\"".toList = '"' :: ("due".toList ++ ['"']) := by decide
    rw [Label.Grammatical, Word.Spelled, Label.word, Terminal.Spells, hchars]
    exact hstring _ (List.all_iff_forall_prop.mp (by decide))
  have hfloat : IsFloat "1.5e3".toList := by
    have hchars : "1.5e3".toList = ['1'] ++ '.' :: (['5'] ++ ['e', '3']) := by decide
    rw [hchars]
    exact .fraction (by decide) (by decide) (Or.inr (.unsigned (Or.inl rfl) (by decide)))
  have htotal : total.Grammatical :=
    .arith (.arith (.index (.select (.ref (by decide)) hprice) (.int (by decide)))
      (.arith (.int (by decide)) (.ref (by decide)))) (.neg (.neg (.ref (by decide))))
  have hdue : due.Grammatical :=
    .all (by decide) (hpair (.test (.not (.ref (by decide)))
        (.any (by decide) (hpair (.ref (by decide)) (.bound (.ref (by decide))))))
      (.struct (List.forall_mem_nil _) (List.forall_mem_nil _)))
  have hparts : parts.Grammatical := by
    refine .list (hpair (fun t ht => ?_) fun t ht => ?_) <;> obtain rfl := Option.some.inj ht
    · exact .float hfloat
    · exact .bound (.int (by decide))
  have hgrammatical : document.Grammatical := by
    refine ⟨List.cons_ne_nil _ _, List.forall_mem_cons.mpr ⟨?_, hpair ?_ ?_⟩,
      List.forall_mem_cons.mpr ⟨htotal, hpair hdue hparts⟩⟩
    · exact ⟨List.cons_ne_nil _ _, List.forall_mem_singleton.mpr (hname "total" (by decide))⟩
    · exact ⟨List.cons_ne_nil _ _, hpair (hname "state" (by decide)) hquoted⟩
    · exact ⟨List.cons_ne_nil _ _, List.forall_mem_singleton.mpr (hname "parts" (by decide))⟩
  have hwritten : Written document.words text.toList := written_of_isWritten (by decide +kernel)
  obtain ⟨hparse, hunique, -⟩ := parse_written hgrammatical hwritten
  exact ⟨hgrammatical, hwritten, hparse, hunique⟩

end ApiProbe.Expr
