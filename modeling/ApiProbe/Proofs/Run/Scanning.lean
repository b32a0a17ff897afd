import ApiProbe.Proofs.Run.Placeholders
import ApiProbe.Run.Expand

/-!
# Scanning a text

The scanner is simulated by the recursion over what can stand at a place. Where nothing is open, what it has
copied and the literal run that it has not copied yet are, one behind the other, the expansion of what it
has read: where the run starts makes no difference to what comes out in the end.
-/

namespace ApiProbe.Expand

namespace Scanner

variable {eval : Nat → String → Except Failure String} {text run rest expr out : List Char}
  {s : Scanner} {position part start depth : Nat} {c : Char}

theorem scan_cons : s.scan eval text position (c :: rest) =
    (s.step eval text position c).bind fun next => next.scan eval text (position + 1) rest :=
  rfl

theorem step_literal (hc : c ≠ '\\') :
    step eval text ⟨.literal, out, part, start, depth⟩ position c
      = .ok ⟨.literal, out, part, start, depth⟩ :=
  congrArg Except.ok (if_neg hc)

theorem step_other (hescape : c ≠ '\\') (hopening : c ≠ '(') (hclosing : c ≠ ')') :
    step eval text ⟨.sawEscape, out, part, start, depth⟩ position c
      = .ok ⟨.literal, out, part, start, depth⟩ :=
  (if_neg hescape).trans ((if_neg hopening).trans (if_neg hclosing))

theorem step_inExpr (hopening : c ≠ '(') (hclosing : c ≠ ')') :
    step eval text ⟨.inExpr, out, part, start, depth⟩ position c
      = .ok ⟨.inExpr, out, part, start, depth⟩ :=
  (if_neg hopening).trans (if_neg hclosing)

theorem step_closing :
    step eval text ⟨.inExpr, out, part, start, depth + 1⟩ position ')'
      = .ok ⟨.inExpr, out, part, start, depth⟩ :=
  rfl

/-- A balanced text inside an expression leaves the scanner as it is. -/
theorem scan_balanced (h : Balanced expr) (position : Nat) (more : List Char) :
    scan eval text ⟨.inExpr, out, part, start, depth⟩ position (expr ++ more)
      = scan eval text ⟨.inExpr, out, part, start, depth⟩ (position + expr.length) more := by
  induction h generalizing depth position more with
  | nil => rfl
  | plain hopening hclosing _ ih =>
      rw [List.cons_append, scan_cons, step_inExpr hopening hclosing]
      refine (ih _ _).trans ?_
      rw [List.length_cons, Nat.add_assoc, Nat.add_comm 1]
  | @group inner tail _ _ ihInner ihTail =>
      have hlength : position + ('(' :: inner ++ ')' :: tail).length
          = position + 1 + inner.length + 1 + tail.length := by
        simp only [List.length_cons, List.length_append]
        omega
      rw [hlength, List.append_assoc, List.cons_append, List.cons_append, scan_cons]
      refine (ihInner _ _).trans ?_
      rw [scan_cons, step_closing]
      exact ihTail _ _

/-- In an expression that is not closed nothing is copied. -/
theorem scan_unclosed (h : exprLength? depth rest = none) (position : Nat) :
    ∃ more, scan eval text ⟨.inExpr, out, part, start, depth⟩ position rest
      = .ok ⟨.inExpr, out, part, start, more⟩ := by
  induction rest generalizing depth position with
  | nil => exact ⟨depth, rfl⟩
  | cons c rest ih =>
      by_cases hopening : c = '('
      · obtain rfl := hopening
        rw [exprLength?_opening, Option.map_eq_none_iff] at h
        exact ih h (position + 1)
      by_cases hclosing : c = ')'
      · obtain rfl := hclosing
        cases depth with
        | zero => cases h
        | succ depth =>
            rw [exprLength?_closing, Option.map_eq_none_iff] at h
            exact ih h (position + 1)
      · rw [exprLength?_plain hopening hclosing, Option.map_eq_none_iff] at h
        rw [scan_cons, step_inExpr hopening hclosing]
        exact ih h (position + 1)

/-! ### Places in the text

A place is known by what stands in front of it, from the start of a run on. The run is what is cut out of
the text between the two places, and what is left of the text is the rest. -/

theorem drop_eq (hdrop : text.drop part = run ++ rest) (hposition : position = part + run.length) :
    text.drop position = rest := by
  rw [hposition, ← List.drop_drop, hdrop, List.drop_left]

theorem extract_eq (hdrop : text.drop part = run ++ rest) (hposition : position = part + run.length) :
    text.extract part position = run := by
  rw [hposition, List.extract_eq_take_drop, Nat.add_sub_cancel_left, hdrop, List.take_left]

/-- An escape starts. -/
theorem scan_escape :
    scan eval text ⟨.literal, out, part, start, depth⟩ position ('\\' :: rest)
      = scan eval text ⟨.sawEscape, out, part, start, depth⟩ (position + 1) rest :=
  rfl

/-- A second backslash: the run up to it is copied, with the first one. -/
theorem scan_backslash (hrun : text.extract part position = run) :
    scan eval text ⟨.sawEscape, out, part, start, depth⟩ position ('\\' :: rest)
      = scan eval text ⟨.literal, out ++ run, position + 1, start, depth⟩ (position + 1) rest := by
  rw [← hrun]
  rfl

/-- A placeholder starts: the run in front of it is copied. -/
theorem scan_opening (hrun : text.extract part position = run) :
    scan eval text ⟨.sawEscape, out, part, start, depth⟩ (position + 1) ('(' :: rest)
      = scan eval text ⟨.inExpr, out ++ run, position, position + 2, 0⟩ (position + 2) rest := by
  rw [← hrun]
  rfl

/-- A placeholder ends: it gives way to the text of its expression. -/
theorem scan_value (hexpr : text.extract start position = expr) :
    scan eval text ⟨.inExpr, out, part, start, 0⟩ position (')' :: rest)
      = (eval start (String.ofList expr)).bind fun value =>
          scan eval text ⟨.literal, out ++ value.toList, position + 1, start, 0⟩ (position + 1) rest := by
  have hstep : step eval text ⟨.inExpr, out, part, start, 0⟩ position ')'
      = (eval start (String.ofList expr)).bind fun value =>
          .ok ⟨.literal, out ++ value.toList, position + 1, start, 0⟩ := by
    rw [← hexpr]
    rfl
  rw [scan_cons, hstep]
  cases eval start (String.ofList expr) <;> rfl

/-- From a place on where nothing is open the scanner gives what the recursion gives, behind what is copied
and the literal run that is not. -/
theorem map_finish_scan (hdrop : text.drop part = run ++ rest)
    (hposition : position = part + run.length) :
    (scan eval text ⟨.literal, out, part, start, depth⟩ position rest).map (·.finish text)
      = (chars eval position rest).map (out ++ run ++ ·) := by
  induction position, rest using Expand.stretches generalizing part run out start depth with
  | nil position =>
      rw [chars]
      exact congrArg Except.ok (by simp [finish, hdrop])
  | plain position c rest hc ih =>
      have hrun : text.drop part = (run ++ [c]) ++ rest := by simpa using hdrop
      rw [scan_cons, step_literal hc, chars_plain hc, map_map]
      calc (scan eval text ⟨.literal, out, part, start, depth⟩ (position + 1) rest).map (·.finish text)
          = (chars eval (position + 1) rest).map (out ++ (run ++ [c]) ++ ·) :=
            ih hrun (by simp [hposition, Nat.add_assoc])
        _ = (chars eval (position + 1) rest).map fun more => out ++ run ++ c :: more := by simp
  | backslash position rest ih =>
      have hrun : text.drop part = (run ++ ['\\']) ++ '\\' :: rest := by simpa using hdrop
      have hcopied : text.extract part (position + 1) = run ++ ['\\'] :=
        extract_eq hrun (by simp [hposition, Nat.add_assoc])
      have hboth : text.drop part = (run ++ ['\\', '\\']) ++ rest := by simpa using hdrop
      have hrest : text.drop (position + 2) = [] ++ rest :=
        drop_eq hboth (by simp [hposition, Nat.add_assoc])
      rw [scan_escape, scan_backslash hcopied, chars, map_map]
      calc (scan eval text ⟨.literal, out ++ (run ++ ['\\']), position + 2, start, depth⟩ (position + 2)
              rest).map (·.finish text)
          = (chars eval (position + 2) rest).map (out ++ (run ++ ['\\']) ++ [] ++ ·) := ih hrest rfl
        _ = (chars eval (position + 2) rest).map fun more => out ++ run ++ '\\' :: more := by simp
  | invalid position rest =>
      rw [chars]
      rfl
  | value position expr after hexpr ih =>
      have hopen : text.drop part = (run ++ ['\\', '(']) ++ (expr ++ ')' :: after) := by
        simpa using hdrop
      have hplaceholder : text.drop (position + 2) = expr ++ ')' :: after :=
        drop_eq hopen (by simp [hposition, Nat.add_assoc])
      have hclosed : text.drop (position + 2) = (expr ++ [')']) ++ after := by simpa using hplaceholder
      have hrest : text.drop (position + expr.length + 3) = [] ++ after := by
        refine drop_eq hclosed ?_
        rw [List.length_append, List.length_singleton]
        omega
      have hbehind : position + 2 + expr.length + 1 = position + expr.length + 3 := by omega
      rw [scan_escape, scan_opening (extract_eq hdrop hposition), scan_balanced hexpr,
        scan_value (extract_eq hplaceholder rfl), chars_value (encloses_of_balanced hexpr after),
        hbehind]
      cases eval (position + 2) (String.ofList expr) with
      | error failure => rfl
      | ok value =>
          calc (scan eval text ⟨.literal, out ++ run ++ value.toList, position + expr.length + 3,
                  position + 2, 0⟩ (position + expr.length + 3) after).map (·.finish text)
              = (chars eval (position + expr.length + 3) after).map
                  (out ++ run ++ value.toList ++ [] ++ ·) := ih hrest rfl
            _ = ((chars eval (position + expr.length + 3) after).map (value.toList ++ ·)).map
                  (out ++ run ++ ·) := by simp [map_map]
  | unclosed position rest hrest =>
      -- The run ends where the placeholder starts, and finishing copies all from there on.
      have hscan : ∃ more, scan eval text ⟨.inExpr, out ++ run, position, position + 2, 0⟩ (position + 2) rest
          = .ok ⟨.inExpr, out ++ run, position, position + 2, more⟩ :=
        scan_unclosed (unclosed_iff.mp hrest) (position + 2)
      obtain ⟨more, hscan⟩ := hscan
      rw [scan_escape, scan_opening (extract_eq hdrop hposition), hscan, chars_unclosed hrest]
      exact congrArg Except.ok (congrArg (out ++ run ++ ·) (drop_eq hdrop hposition))
  | other position c rest hescape hopening hclosing ih =>
      have hrun : text.drop part = (run ++ ['\\', c]) ++ rest := by simpa using hdrop
      rw [scan_escape, scan_cons, step_other hescape hopening hclosing,
        chars_other hescape hopening hclosing, map_map]
      calc (scan eval text ⟨.literal, out, part, start, depth⟩ (position + 2) rest).map (·.finish text)
          = (chars eval (position + 2) rest).map (out ++ (run ++ ['\\', c]) ++ ·) :=
            ih hrun (by simp [hposition, Nat.add_assoc])
        _ = (chars eval (position + 2) rest).map fun more => out ++ run ++ '\\' :: c :: more := by simp
  | trailing position =>
      rw [chars_trailing]
      exact congrArg Except.ok (by simp [finish, hdrop])

end Scanner

theorem chars_of_notMem {eval : Nat → String → Except Failure String} {text : List Char}
    (h : '\\' ∉ text) (position : Nat) : chars eval position text = .ok text := by
  induction text generalizing position with
  | nil => rw [chars]
  | cons c rest ih =>
      obtain ⟨hc, hrest⟩ := not_or.mp (mt List.mem_cons.mpr h)
      rw [chars_plain (Ne.symm hc), ih hrest]
      rfl

/-- The scanner's way through a whole text, or past it, comes out at the recursion. -/
theorem expansion_eq_chars (eval : Nat → String → Except Failure String) (text : List Char) :
    expansion eval text = chars eval 0 text := by
  unfold expansion
  split
  · have hscan : ({ : Scanner }.scan eval text 0 text).map (·.finish text)
        = (chars eval 0 text).map ([] ++ [] ++ ·) :=
      Scanner.map_finish_scan rfl rfl
    rw [hscan]
    cases chars eval 0 text <;> rfl
  · rename_i hescape
    rw [List.contains_iff_mem] at hescape
    exact (chars_of_notMem hescape 0).symm

end ApiProbe.Expand
