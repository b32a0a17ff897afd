import ApiProbe.Proofs.Expr.RoundTrip

/-!
# Printed labels

A label stands bare in a printed struct if it is an identifier with no meaning of its own, and in quotes
otherwise; either way it is read back. The one exception is an identifier with a line feed behind it,
which stands bare and cannot be read: the line feed separates it from its colon.
-/

namespace ApiProbe

open ApiProbe.Expr

namespace Value

/-- An identifier with a line feed behind it. -/
def LineBroken (label : String) : Prop :=
  ∃ name, isName name = true ∧ label = name ++ "\n"

theorem toList_append_line (name : String) : (name ++ "\n").toList = name.toList ++ ['\n'] := by
  rw [String.toList_append]
  rfl

theorem notMem_reserved_of_lineBroken {label : String} (h : LineBroken label) : label ∉ reserved := by
  obtain ⟨name, -, rfl⟩ := h
  have hlines : ∀ word ∈ reserved, '\n' ∉ word.toList :=
    List.all_iff_forall_prop.mp (by decide)
  intro hmem
  apply hlines _ hmem
  rw [toList_append_line]
  exact List.mem_append_right _ List.mem_cons_self

/-- A label stands bare if it is an identifier with no meaning of its own, or any identifier with a line
feed behind it. -/
theorem isBareLabel_iff {label : String} :
    isBareLabel label = true ↔ (isName label = true ∧ label ∉ reserved) ∨ LineBroken label := by
  constructor
  · intro hbare
    cases hlabel : label.toList with
    | nil => simp [isBareLabel, hlabel] at hbare
    | cons c rest =>
        simp only [isBareLabel, hlabel, Bool.and_eq_true, Bool.or_eq_true, Bool.not_eq_true',
          Bool.eq_false_iff, ne_eq, List.contains_iff_mem] at hbare
        obtain ⟨⟨hc, hall | ⟨hlast, hall⟩⟩, hplain⟩ := hbare
        · refine Or.inl ⟨?_, hplain⟩
          simp [isName, hlabel, hc, hall]
        · refine Or.inr ⟨String.ofList (c :: rest.dropLast), ?_, String.toList_inj.mp ?_⟩
          · simp [isName, hc, hall]
          · have hrest := List.dropLast_append_getLast? '\n' (beq_iff_eq.mp hlast)
            rw [toList_append_line, String.toList_ofList, List.cons_append, hrest, hlabel]
  · rintro (⟨hname, hplain⟩ | hbroken)
    · obtain ⟨c, cs, hlabel, hc, hcs⟩ := exists_isName hname
      simp [isBareLabel, hlabel, hc, hplain, List.all_eq_true.mpr hcs]
    · have hplain := notMem_reserved_of_lineBroken hbroken
      obtain ⟨name, hname, rfl⟩ := hbroken
      obtain ⟨c, cs, hlabel, hc, hcs⟩ := exists_isName hname
      have hlabel' : (name ++ "\n").toList = c :: (cs ++ ['\n']) := by
        rw [toList_append_line, hlabel, List.cons_append]
      simp [isBareLabel, hlabel', hc, hplain, List.all_eq_true.mpr hcs]

theorem text_single (label : String) :
    (Value.struct [(label, .atom (.int 1))]).text = "\x7b" ++ labelText label ++ ": 1\x7d" := by
  rw [text, fieldTexts_eq_map]
  simp [String.intercalate_singleton, String.append_assoc, text, Atom.text]
  rfl

end Value

namespace Expr

/-- Behind a label that waits for its colon, a line feed is no token that may come next. -/
theorem run_labelComplete (label : Label) (frames : List Frame) (last position : Position)
    {rest : List Char} (hrest : Solid rest) :
    Machine.run ⟨.labelComplete label, frames⟩ last position ('\n' :: rest)
      = .error (.token ⟨.separator, "\n", position⟩) := by
  have hnone : lexeme? (Phase.labelComplete label).accepts '\n' rest = none := by
    rw [lexeme?, commentMore?_eq_none (by decide)]
    rfl
  have hother : ∀ u ∈ [Terminal.float, .test, .name], u.more? '\n' rest = none := by
    have hstarts : ∀ u ∈ [Terminal.float, .test, .name], u.startsWith '\n' = false :=
      List.all_iff_forall_prop.mp (by decide)
    exact fun u hu => Terminal.more?_eq_none (hstarts u hu)
  have hmore : Terminal.separator.more? '\n' ([] ++ rest) = some 0 :=
    separatorMore?_layout (by decide) (List.forall_mem_nil _) hrest
  have hfirst : firstToken? '\n' rest (([Terminal.float, .test, .name] ++ Terminal.separator ::
      Terminal.string :: Terminal.late).filter fun _ => true) = some (.token .separator 0) :=
    firstToken?_eq_some hother hmore rfl
  rw [List.filter_true] at hfirst
  have hall : firstToken? '\n' rest (Terminal.early ++ Terminal.late) = some (.token .separator 0) :=
    hfirst
  rw [Machine.run, hnone]
  dsimp only
  rw [hall]
  rfl

theorem parse_lineBroken {label : String} (h : Value.LineBroken label) :
    ∃ position, parse ("\x7b" ++ label ++ ": 1\x7d") = .error (.token ⟨.separator, "\n", position⟩) := by
  obtain ⟨name, hname, rfl⟩ := h
  have htext : ("\x7b" ++ (name ++ "\n") ++ ": 1\x7d").toList
      = '\x7b' :: (name.toList ++ '\n' :: [':', ' ', '1', '\x7d']) := by
    simp [String.toList_append]
  have hopening := Brackets.struct.advances_opening (p := .start) rfl []
    (name.toList ++ '\n' :: [':', ' ', '1', '\x7d'])
  have hlabel : Advances ⟨.structOpen, [.struct []]⟩ (name.toList ++ '\n' :: [':', ' ', '1', '\x7d'])
      ⟨.labelComplete (.name (String.ofList name.toList)), [.struct []]⟩
      ('\n' :: [':', ' ', '1', '\x7d']) :=
    Advances.token (lexes_isName hname (ends_cons (by decide) _)) rfl fun position => rfl
  obtain ⟨last, position, hrun⟩ := (hopening.trans hlabel) .start .start
  refine ⟨position, ?_⟩
  rw [parse, Machine.start, htext]
  exact hrun.trans (run_labelComplete _ _ _ _ (solid_cons (by decide) _))

end Expr

/-- **Labels survive printing**, but for identifiers with a line feed behind them. A label stands bare
if it is one of these, or an identifier with no meaning of its own. A struct of one field is read back as
it is printed unless its label is one of these: then the line feed is a token that may not stand in
front of the colon. -/
theorem Language.compile_label (label : String) (source : Option String) :
    let text := "\x7b" ++ Value.labelText label ++ ": 1\x7d"
    (Value.isBareLabel label = true ↔
        (isName label = true ∧ label ∉ Value.reserved) ∨ Value.LineBroken label) ∧
      (compile [] source text = .ok (.struct [(label, .atom (.int 1))]) ↔ ¬ Value.LineBroken label) ∧
      (¬ Value.LineBroken label →
        parse text = .ok (.value (.struct [([Value.labelTree label], .int "1")]))) ∧
      (Value.LineBroken label →
        ∃ position, parse text = .error (.token ⟨.separator, "\n", position⟩)) := by
  intro text
  have hbroken (h : Value.LineBroken label) :
      ∃ position, parse text = .error (.token ⟨.separator, "\n", position⟩) := by
    have hbare := Value.isBareLabel_iff.mpr (Or.inr h)
    have htext : text = "\x7b" ++ label ++ ": 1\x7d" := by
      rw [← if_pos (c := Value.isBareLabel label = true) (t := label) (e := Text.quoted label) hbare]
      rfl
    rw [htext]
    exact parse_lineBroken h
  let v : Value := .struct [(label, .atom (.int 1))]
  have hprinted (h : ¬ Value.LineBroken label) : parse text = .ok (.value v.tree) := by
    have hname (hbare : Value.isBareLabel label = true) : isName label = true :=
      ((Value.isBareLabel_iff.mp hbare).resolve_right h).1
    have hone : (Value.atom (.int 1)).Printed := Value.WellFormed.printed (.atom trivial) rfl
    have hv : v.Printed := Value.printed_struct (List.forall_mem_singleton.mpr ⟨hname, hone⟩)
    have htext : text = v.text := (Value.text_single label).symm
    rw [htext]
    exact parse_of_readsValue hv.value
  refine ⟨Value.isBareLabel_iff, ⟨fun hcompile h => ?_, fun h => ?_⟩, hprinted, hbroken⟩
  · obtain ⟨position, hparse⟩ := hbroken h
    rw [compile_eq_ok_iff, Expr.compile, hparse] at hcompile
    cases hcompile
  · have hwell : v.WellFormed := by simp [v, Atom.WellFormed]
    have hone : (Value.atom (.int 1)).printable = true := by decide +kernel
    have hwords : v.printable = true :=
      Value.printable_struct.mpr (List.forall_mem_singleton.mpr hone)
    rw [compile_eq_ok_iff, Expr.compile_eq_ok_iff (hprinted h)]
    exact Value.eval_tree hwell hwords

/-- A struct whose label is an identifier with a line feed behind it does not compile as printed. -/
theorem Language.compile_label_line :
    let label := "a\n"
    compile [] none ("\x7b" ++ Value.labelText label ++ ": 1\x7d")
      ≠ .ok (.struct [(label, .atom (.int 1))]) := by
  intro label hcompile
  have hbare : Value.labelText label = label := by decide
  have hbroken : Value.LineBroken label := ⟨"a", by decide, rfl⟩
  obtain ⟨position, hparse⟩ := parse_lineBroken hbroken
  rw [hbare, compile_eq_ok_iff, Expr.compile, hparse] at hcompile
  cases hcompile

end ApiProbe
