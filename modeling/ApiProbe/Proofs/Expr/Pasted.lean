import ApiProbe.Proofs.Expr.RoundTrip
import ApiProbe.Proofs.Expr.Spaced

/-!
# Documents as expressions

A document that is compiled as an expression has the value that the data it is read as are encoded as.
Both fail on whole numbers of too many digits and on numbers out of range, and on nothing else.
-/

namespace ApiProbe

open ApiProbe.Expr

namespace Expr

variable {α : Type}

theorem toOption_refuse (refusal : Refusal) : (refuse refusal : Result α).toOption = none := by
  unfold refuse
  split <;> rfl

/-- A float is a value of the language if it can be encoded. -/
theorem toOption_number (path : String) (x : Binary64) :
    (number (.float x)).toOption = (Value.encodeAt path (.float x)).toOption := by
  rw [number, Value.encodeAt]
  split
  · rfl
  · exact toOption_refuse _

theorem toOption_negate_number (x : Binary64) :
    (number (.float x) >>= negate).toOption = (number (.float x.neg)).toOption := by
  cases x with
  | finite negative mantissa exponent => rfl
  | infinite negative => simp [number, Binary64.isFinite, Binary64.neg, toOption_bind, toOption_refuse]
  | nan => simp [number, Binary64.isFinite, Binary64.neg, toOption_bind, toOption_refuse]

end Expr

namespace Json

theorem readString_quotedPieces (pieces : List Piece) :
    readString (String.ofList (quotedPieces pieces)) = .ok (String.ofList (decode pieces)) := by
  have hread : read (String.ofList (quotedPieces pieces))
      = .ok (.string (String.ofList (decode pieces))) := by
    have htext := toOption_read ⟨⟨[], nofun⟩, .string pieces, ⟨[], nofun⟩⟩ trivial
    rw [Spaced.text, List.nil_append, List.append_nil] at htext
    exact toOption_eq_some_iff.mp htext
  rw [readString, hread]

theorem intOf_digits (n : Number) : intOf (String.ofList n.decimal.whole) =
    if Numeral.digitLimit < n.decimal.whole.length then
      .error (.fault (.numeralTooLong n.decimal.whole.length))
    else .ok (.atom (.int (Numeral.ofDigits n.decimal.whole))) := by
  rw [intOf, Numeral.readInt_ofList n.whole_ne_nil n.whole]
  by_cases hlong : Numeral.digitLimit < n.decimal.whole.length
  · rw [if_pos hlong, if_pos hlong]
  · rw [if_neg hlong, if_neg hlong]

theorem floatOf_decimal {n : Number} (h : ¬ n.isWhole = true) :
    floatOf (String.ofList n.decimal.chars) = number (.float
      (Numeral.ofDecimal false (n.decimal.whole ++ n.decimal.fraction) n.decimal.place)) := by
  rw [floatOf, Numeral.readBinary64?_chars (Number.wellFormed_decimal h), Option.getD_some]

namespace Phrase

/-- The value of the tree is what the data of the phrase are encoded as, or there is neither. -/
def Agrees (p : Phrase) : Prop :=
  ∀ path, (p.tree.eval []).toOption
    = p.datum?.bind fun d => (Value.encodeAt path d).toOption

theorem agrees_number (n : Number) : Agrees (.number n) := by
  intro path
  rw [tree, datum?, Number.tree, Number.datum?]
  split
  · cases n.negative with
    | false =>
        rw [Tree.signed, if_neg Bool.false_ne_true, Tree.eval, intOf_digits]
        split <;> rfl
    | true =>
        rw [Tree.signed, if_pos rfl, Tree.eval, Tree.eval, intOf_digits]
        split <;> rfl
  · rename_i hwhole
    rw [Option.bind_some, ← toOption_number]
    cases n.negative with
    | false => rw [Tree.signed, if_neg Bool.false_ne_true, Tree.eval, floatOf_decimal hwhole]
    | true =>
        rw [Tree.signed, if_pos rfl, Tree.eval, Tree.eval, floatOf_decimal hwhole,
          Numeral.ofDecimal_true]
        exact toOption_negate_number _

theorem toOption_evalItems {items : List (Spaced Phrase)} (hitems : ∀ s ∈ items, s.item.Agrees)
    (path : String) (index : Nat) :
    (evalItems [] (itemTrees items)).toOption = (itemData? items).bind fun ds =>
      ((Value.encodeItems path index ds).toOption.map (·.map .value)) := by
  induction items generalizing index with
  | nil => rfl
  | cons s items ih =>
      obtain ⟨before, p, after⟩ := s
      obtain ⟨hp, hothers⟩ := List.forall_mem_cons.mp hitems
      have hvalue : (p.tree.eval []).toOption = _ := hp (joinPath path (toString index))
      have hrest := ih hothers (index + 1)
      rw [itemTrees, evalItems, toOption_bind, hvalue, itemData?]
      cases p.datum? with
      | none => rfl
      | some d =>
          rw [Option.bind_some, Option.bind_some, Option.bind_map]
          simp only [toOption_bind, hrest]
          cases itemData? items with
          | none => simp
          | some ds =>
              simp only [Option.bind_some, Function.comp_apply]
              rw [Value.encodeItems, toOption_bind]
              cases Value.encodeAt (joinPath path (toString index)) d with
              | error failure => rfl
              | ok v => cases Value.encodeItems path (index + 1) ds <;> rfl

theorem agrees_array (space : Space) {items : List (Spaced Phrase)}
    (hitems : ∀ s ∈ items, s.item.Agrees) : Agrees (.array space items) := by
  intro path
  rw [tree, Tree.eval, toOption_bind, toOption_evalItems hitems path 0, datum?]
  cases itemData? items with
  | none => rfl
  | some ds =>
      rw [Option.bind_some, Option.map_some, Option.bind_some, Value.encodeAt, toOption_map]
      cases Value.encodeItems path 0 ds with
      | error failure => rfl
      | ok values =>
          have hlist := congrArg Except.toOption (listOf_eq values none)
          rw [Option.map_none, Option.toList_none, List.append_nil] at hlist
          exact hlist

theorem eval_label (key : Key) : [key.label].mapM Label.eval = .ok [key.name] := by
  have hlabel : key.label.eval = .ok key.name := by
    rw [Key.label, Label.eval, stringOf, readString_quotedPieces, Key.name]
  rw [List.mapM_cons, hlabel]
  rfl

theorem toOption_evalFields {entries : List (Spaced (Key × Phrase))}
    (hentries : ∀ m ∈ entries, m.item.2.Agrees) (path : String) :
    (evalFields [] (memberTrees entries)).toOption = (memberData? entries).bind fun ds =>
      (Value.encodeEntries path ds).toOption := by
  induction entries with
  | nil => rfl
  | cons m entries ih =>
      obtain ⟨before, ⟨key, p⟩, after⟩ := m
      obtain ⟨hp, hothers⟩ := List.forall_mem_cons.mp hentries
      have hvalue : (p.tree.eval []).toOption = _ := hp (joinPath path key.name)
      have hrest := ih hothers
      rw [memberTrees, evalFields, eval_label]
      change (Tree.eval [] p.tree >>= _).toOption = _
      rw [toOption_bind, hvalue, memberData?]
      cases p.datum? with
      | none => rfl
      | some d =>
          rw [Option.bind_some, Option.bind_some, Option.bind_map]
          simp only [toOption_bind, hrest]
          cases memberData? entries with
          | none => simp
          | some ds =>
              simp only [Option.bind_some, Function.comp_apply]
              rw [Value.encodeEntries, toOption_bind]
              cases Value.encodeAt (joinPath path key.name) d with
              | error failure => rfl
              | ok v => cases Value.encodeEntries path ds <;> rfl

theorem names_evalFields {entries : List (Spaced (Key × Phrase))} {fields : List (String × Value)}
    (h : evalFields [] (memberTrees entries) = .ok fields) :
    fields.map Prod.fst = entries.map (·.item.1.name) := by
  induction entries generalizing fields with
  | nil =>
      obtain rfl := Except.ok.inj h
      rfl
  | cons m entries ih =>
      obtain ⟨before, ⟨key, p⟩, after⟩ := m
      rw [memberTrees, evalFields, eval_label] at h
      obtain ⟨names, hnames, h⟩ := bind_eq_ok_iff.mp h
      obtain ⟨v, -, h⟩ := bind_eq_ok_iff.mp h
      obtain ⟨rest, hrest, h⟩ := bind_eq_ok_iff.mp h
      obtain rfl := Except.ok.inj hnames
      obtain rfl := Except.ok.inj h
      rw [List.map_cons, List.map_cons, ih hrest]

theorem agrees_object (space : Space) {entries : List (Spaced (Key × Phrase))}
    (hentries : ∀ m ∈ entries, m.item.2.Agrees)
    (hdistinct : (entries.map (·.item.1.name)).Nodup) : Agrees (.object space entries) := by
  intro path
  have hfields := toOption_evalFields hentries path
  have hstruct : (evalFields [] (memberTrees entries) >>= structOf).toOption
      = (evalFields [] (memberTrees entries)).toOption.map .struct := by
    cases heval : evalFields [] (memberTrees entries) with
    | error failure => rfl
    | ok fields =>
        rw [← names_evalFields heval] at hdistinct
        exact congrArg Except.toOption (structOf_eq hdistinct)
  rw [tree, Tree.eval, hstruct, hfields, datum?]
  cases memberData? entries with
  | none => rfl
  | some ds => rw [Option.map_some, Option.bind_some, Option.bind_some, Value.encodeAt, toOption_map]

/-- The tree of a value and the data it stands for have the same value, or neither has one. -/
theorem agrees (p : Phrase) (h : p.DistinctNames) : p.Agrees := by
  induction p with
  | null => exact fun _ => rfl
  | bool b =>
      cases b <;> exact fun _ => rfl
  | number n => exact agrees_number n
  | string pieces =>
      intro path
      rw [tree, Tree.eval, stringOf, readString_quotedPieces]
      rfl
  | array space items ih =>
      rw [DistinctNames, Everywhere, everywhereItems_iff] at h
      exact agrees_array space fun s hs => ih s hs (h s hs)
  | object space entries ih =>
      rw [DistinctNames, Everywhere, everywhereMembers_iff, List.map_map] at h
      exact agrees_object space (fun m hm => ih m hm (h.2 m hm)) h.1

end Phrase

end Json

/-- The value of a document as an expression is what the data it is read as are encoded as. -/
theorem Expr.toOption_compile (doc : Json.Spaced Json.Phrase) (hnames : doc.item.DistinctNames)
    (hcolons : doc.item.OneLineColons) :
    (Expr.compile [] doc.text).toOption = (Json.read doc.text).toOption.bind fun d =>
      (Value.encode d).toOption := by
  rw [Json.toOption_read doc hnames, Expr.compile, doc.parse_text hcolons]
  refine Eq.trans ?_ (doc.item.agrees hnames "")
  dsimp only
  rw [Document.eval]
  cases doc.item.tree.eval [] with
  | ok v => rfl
  | error obstacle => cases obstacle <;> rfl

theorem Language.toOption_compile (source : Option String) (text : String) :
    (Language.compile [] source text).toOption = (Expr.compile [] text).toOption := by
  rw [Language.compile]
  cases Expr.compile [] text with
  | ok v => rfl
  | error failure => cases failure <;> rfl

theorem Language.toOption_encode (d : Datum) :
    (Language.encode d).toOption = (Value.encode d).toOption := by
  rw [Language.encode]
  cases Value.encode d with
  | ok v => rfl
  | error failure => cases failure <;> rfl

/-- A document means the same whether it is compiled as an expression or read and encoded: both have
the same value or neither has one. No object may repeat a name, and no line feed may stand next to a
colon. -/
theorem Language.compile_document {doc : Json.Spaced Json.Phrase}
    (hnames : doc.item.DistinctNames) (hcolons : doc.item.OneLineColons) (source : Option String)
    (v : Value) :
    Language.compile [] source doc.text = .ok v ↔
      ∃ d, Json.read doc.text = .ok d ∧ Language.encode d = .ok v := by
  rw [← toOption_eq_some_iff, toOption_compile, Expr.toOption_compile doc hnames hcolons,
    Option.bind_eq_some_iff]
  simp only [toOption_eq_some_iff, ← toOption_encode]

/-- A document with line feeds around brackets and commas, other blanks around colons, escapes by letter
and by code, an exponent, a negative zero and empty brackets. -/
theorem Language.compile_document_spaced :
    let bare : Json.Space := ⟨[], nofun⟩
    let blank : Json.Space := ⟨[' ', '\t', '\r'], List.all_iff_forall_prop.mp rfl⟩
    let line : Json.Space := ⟨['\r', '\n', ' '], List.all_iff_forall_prop.mp rfl⟩
    let total : Json.Number :=
      ⟨true, ⟨['1'], ['5', '0'], some ⟨'E', some false, ['0', '2']⟩⟩, by decide,
        List.all_iff_forall_prop.mp rfl, by decide, List.all_iff_forall_prop.mp rfl,
        fun _ he => Option.some.inj he ▸ ⟨rfl, by decide, List.all_iff_forall_prop.mp rfl⟩⟩
    let zero : Json.Number :=
      ⟨true, ⟨['0'], [], none⟩, by decide, List.all_iff_forall_prop.mp rfl, by decide, nofun, nofun⟩
    let face : List Json.Piece :=
      [.code ['d', '8', '3', 'd'] rfl (List.all_iff_forall_prop.mp rfl),
        .code ['D', 'E', '0', '0'] rfl (List.all_iff_forall_prop.mp rfl)]
    let items : List (Json.Spaced Json.Phrase) :=
      [⟨line, .number zero, blank⟩, ⟨bare, .bool true, line⟩, ⟨bare, .string face, bare⟩,
        ⟨bare, .object bare [], line⟩]
    let id : Json.Key :=
      ⟨[.plain 'i' (by decide), .code ['0', '0', '6', '4'] rfl (List.all_iff_forall_prop.mp rfl)],
        blank, blank⟩
    let feed : Json.Key := ⟨[.letter 'n' (by decide)], bare, blank⟩
    let doc : Json.Spaced Json.Phrase :=
      ⟨line, .object line [⟨bare, (id, .number total), line⟩,
        ⟨line, (feed, .array line items), blank⟩], line⟩
    let v : Value := .struct [("id", .atom (.float (.finite true 5277655813324800 (-45)))),
      ("\n", .list [.atom (.int 0), .atom (.bool true), .atom (.string "😀"), .struct []] none)]
    doc.text = "\r\n \x7b\r\n \"i\\u0064\" \t\r: \t\r-1.50E+02\r\n ,\r\n \"\\n\": \t\r[\r\n \r\n -0 \t\r," ++
        "true\r\n ,\"\\ud83d\\uDE00\",\x7b\x7d\r\n ] \t\r\x7d\r\n " ∧
      Language.compile [] none doc.text = .ok v := by
  intro bare blank line total zero face items id feed doc v
  have hnames : doc.item.DistinctNames := by
    refine ⟨by decide +kernel, trivial, ⟨trivial, trivial, trivial, ⟨?_, trivial⟩, trivial⟩, trivial⟩
    exact List.nodup_nil
  have hcolons : doc.item.OneLineColons := by
    refine ⟨?_, trivial, ⟨trivial, trivial, trivial, ⟨nofun, trivial⟩, trivial⟩, trivial⟩
    exact List.forall_mem_cons.mpr ⟨⟨by decide, by decide⟩,
      List.forall_mem_singleton.mpr ⟨by decide, by decide⟩⟩
  refine ⟨by decide +kernel, (compile_document hnames hcolons none v).mpr ?_⟩
  have hid : id.name = "id" := by decide +kernel
  have hfeed : feed.name = "\n" := by decide +kernel
  have hface : String.ofList (Json.decode face) = "😀" := by decide +kernel
  have htotal : Numeral.ofDecimal true ['1', '5', '0'] 0
      = .finite true 5277655813324800 (-45) := by decide +kernel
  have hdata : doc.item.datum? = some (.dict [(.string id.name,
      .float (Numeral.ofDecimal true ['1', '5', '0'] 0)), (.string feed.name,
        .list [.int 0, .bool true, .string (String.ofList (Json.decode face)), .dict []])]) := rfl
  rw [hid, hfeed, hface, htotal] at hdata
  exact ⟨_, toOption_eq_some_iff.mp ((Json.toOption_read doc hnames).trans hdata), rfl⟩

end ApiProbe
