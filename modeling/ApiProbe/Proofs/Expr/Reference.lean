import ApiProbe.Proofs.Expr.Printed
import ApiProbe.Run.Session

/-!
# References to the history

The names of the history and of the newest value, as expressions of a session. An index counts from the
newest value, and one that is out of range is a problem with the expression.
-/

namespace ApiProbe

namespace Expr

theorem parse_name {name : String} (h : isName name = true) :
    parse name = .ok (.value (.ref name)) :=
  parse_of_readsValue (readsOperand_name h).part.option.value

/-- A name with an index behind it, token by token. -/
theorem parse_index {name : String} (hname : isName name = true) (k : Nat) :
    parse (name ++ "[" ++ toString k ++ "]")
      = .ok (.value (.index (.ref name) (.int (toString k)))) := by
  obtain ⟨c, cs, hchars, hc, hcs⟩ := exists_isName hname
  obtain ⟨d, ds, hdigits⟩ := List.exists_cons_of_ne_nil (Nat.toDigits_ne_nil (n := k) (b := 10))
  have hdecimal := Text.isAsciiDigit_of_mem_toDigits (n := k)
  have htext : (name ++ "[" ++ toString k ++ "]").toList
      = (c :: cs) ++ (['['] ++ ((d :: ds) ++ ([']'] ++ []))) := by
    have hk : (toString k).toList = d :: ds := Nat.toList_repr.trans hdigits
    simp only [String.toList_append, hchars, hk]
    simp
  have hopening : Advances Machine.start ((c :: cs) ++ (['['] ++ ((d :: ds) ++ ([']'] ++ []))))
      ⟨.labelOrOperand (.name name), []⟩ (['['] ++ ((d :: ds) ++ ([']'] ++ []))) := by
    refine Advances.token (lexes_name_of_stop hc hcs fun e he => ?_) rfl fun position => ?_
    · obtain rfl := Option.some.inj he
      decide
    · rw [← hchars, String.ofList_toList]
      rfl
  have hbracket : Advances ⟨.labelOrOperand (.name name), []⟩ (['['] ++ ((d :: ds) ++ ([']'] ++ [])))
      ⟨.expression, [.index (.ref name)]⟩ ((d :: ds) ++ ([']'] ++ [])) :=
    Advances.token (lexes_symbol (t := .leftBracket) rfl (by decide) _) rfl fun _ => rfl
  have hindex : Advances ⟨.expression, [.index (.ref name)]⟩ ((d :: ds) ++ ([']'] ++ []))
      ⟨.complete (.int (toString k)), [.index (.ref name)]⟩ ([']'] ++ []) := by
    refine Advances.token (lexes_int (hdigits ▸ hdecimal) (ends_cons (by decide) _)) rfl
      fun position => ?_
    rw [← hdigits]
    rfl
  have hclosing : Advances ⟨.complete (.int (toString k)), [.index (.ref name)]⟩ ([']'] ++ [])
      ⟨.complete (.index (.ref name) (.int (toString k))), []⟩ [] :=
    Advances.token (lexes_symbol (t := .rightBracket) rfl (by decide) _) rfl fun _ => rfl
  obtain ⟨last, position, hrun⟩ :=
    (((hopening.trans hbracket).trans hindex).trans hclosing) .start .start
  rw [parse, htext, hrun, Machine.run]
  rfl

end Expr

open ApiProbe.Expr

namespace Session

variable (s : Session)

/-- What an index makes of the history, if the index itself can be read. -/
theorem compile_history {k : Nat} (hk : (toString k).length ≤ Numeral.digitLimit) :
    s.compile s!"$history[{k}]" = match s.history.values[k]? with
      | some v => .ok v
      | none => .error (.problem
          { kind := .compile s!"$history[{k}]"
            message := (Refusal.indexOutOfRange k s.history.values.length).message
            source := s.sourceName? }) := by
  have hdigits : toString k = String.ofList (Nat.toDigits 10 k) := rfl
  have hread : Numeral.readInt (toString k) = .ok (k : Int) := by
    rw [hdigits, String.length_ofList] at hk
    rw [hdigits, Numeral.readInt_ofList Nat.toDigits_ne_nil Text.isAsciiDigit_of_mem_toDigits,
      if_neg (Nat.not_lt.mpr hk), Numeral.ofDigits_toDigits]
  have hint : intOf (toString k) = .ok (.atom (.int k)) := by
    rw [intOf, hread]
  have hparse : parse s!"$history[{k}]"
      = .ok (.value (.index (.ref "$history") (.int (toString k)))) := by
    have hfront : "$history[" = "$history" ++ "[" := by decide
    have htext : s!"$history[{k}]" = "$history[" ++ toString k ++ "]" := rfl
    rw [htext, hfront]
    exact parse_index (by decide) k
  have heval : Document.eval s.scope (.value (.index (.ref "$history") (.int (toString k))))
      = itemAt s.history.values none k := by
    rw [Document.eval, Tree.eval, Tree.eval, Tree.eval, hint]
    rfl
  have hitem : itemAt s.history.values none k = match s.history.values[k]? with
      | some v => .ok v
      | none => .error (.refused (.indexOutOfRange k s.history.values.length)) := by
    have hfits : (Refusal.indexOutOfRange k s.history.values.length).printable = true :=
      Numeral.fits_of_readInt hread
    rw [itemAt, if_neg (Int.not_lt.mpr (Int.natCast_nonneg k)), Int.toNat_natCast, Option.or_none]
    cases s.history.values[k]? <;> dsimp only
    rw [refuse, if_pos hfits]
  rw [compile, Language.compile, Expr.compile, hparse]
  dsimp only
  rw [heval, hitem]
  cases s.history.values[k]? <;> rfl

theorem compile_newest : s.compile "$" = match s.newest? with
    | some v => .ok v
    | none => .error (.problem
        { kind := .compile "$"
          message := (Refusal.unknownName "$").message
          source := s.sourceName? }) := by
  have hparse : parse "$" = .ok (.value (.ref "$")) := parse_name (by decide)
  rw [compile, Language.compile, Expr.compile, hparse, scope]
  cases s.newest? <;> rfl

end Session

end ApiProbe
