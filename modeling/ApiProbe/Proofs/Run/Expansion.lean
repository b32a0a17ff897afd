import ApiProbe.Proofs.Run.Scanning

/-!
# Expanding a text

The reader of a text with placeholders is stated as a relation, one rule for each thing that can stand at
the place that is read next. Expanding a text gives what this reader gives. A failure is that of the
first place that has one: what stands behind it is not looked at, and no expression there is evaluated.
-/

namespace ApiProbe

open Expand

/-- What the expression of a placeholder stands for. A problem with it is reported with the expression
and its place; any other failure is passed on. -/
inductive Session.Evaluates (s : Session) (position : Nat) (expr : String) :
    Except Failure String → Prop
  | text {v : Value} {text : String} (hv : s.compile expr = .ok v)
      (htext : Language.display v = .ok text) : s.Evaluates position expr (.ok text)
  | refused {p : Problem} (hp : s.compile expr = .error (.problem p)) :
      s.Evaluates position expr (.error (.problem (.expand expr position p)))
  | broken {failure : Failure} (hfailure : s.compile expr = .error failure)
      (hp : ∀ p, failure ≠ .problem p) : s.Evaluates position expr (.error failure)
  | unprintable {v : Value} {failure : Failure} (hv : s.compile expr = .ok v)
      (hfailure : Language.display v = .error failure) :
      s.Evaluates position expr (.error failure)

/-- What a reader makes of the text behind what it has read: the expressions that it evaluates, each with
its place in the whole text, and the expansion or what it fails with. -/
inductive Session.Expands (s : Session) :
    List Char → List Char → List (Nat × String) → Except Failure (List Char) → Prop
  | done {before : List Char} : s.Expands before [] [] (.ok [])
  | plain {before rest : List Char} {c : Char} {exprs : List (Nat × String)}
      {result : Except Failure (List Char)} (hc : c ≠ '\\')
      (hrest : s.Expands (before ++ [c]) rest exprs result) :
      s.Expands before (c :: rest) exprs (result.map (c :: ·))
  | backslash {before rest : List Char} {exprs : List (Nat × String)}
      {result : Except Failure (List Char)}
      (hrest : s.Expands (before ++ ['\\', '\\']) rest exprs result) :
      s.Expands before ('\\' :: '\\' :: rest) exprs (result.map ('\\' :: ·))
  | invalid {before rest : List Char} :
      s.Expands before ('\\' :: ')' :: rest) []
        (.error (.problem (.escape (before.length + 1) ")")))
  | value {before rest expr after : List Char} {text : String} {exprs : List (Nat × String)}
      {result : Except Failure (List Char)} (hexpr : Encloses rest expr after)
      (htext : s.Evaluates (before.length + 2) (String.ofList expr) (.ok text))
      (hrest : s.Expands (before ++ '\\' :: '(' :: (expr ++ [')'])) after exprs result) :
      s.Expands before ('\\' :: '(' :: rest) ((before.length + 2, String.ofList expr) :: exprs)
        (result.map (text.toList ++ ·))
  | failed {before rest expr after : List Char} {failure : Failure}
      (hexpr : Encloses rest expr after)
      (hfailure : s.Evaluates (before.length + 2) (String.ofList expr) (.error failure)) :
      s.Expands before ('\\' :: '(' :: rest) [(before.length + 2, String.ofList expr)]
        (.error failure)
  | unclosed {before rest : List Char} (hrest : Unclosed rest) :
      s.Expands before ('\\' :: '(' :: rest) [] (.ok ('\\' :: '(' :: rest))
  | other {before rest : List Char} {c : Char} {exprs : List (Nat × String)}
      {result : Except Failure (List Char)} (hescape : c ≠ '\\') (hopening : c ≠ '(')
      (hclosing : c ≠ ')') (hrest : s.Expands (before ++ ['\\', c]) rest exprs result) :
      s.Expands before ('\\' :: c :: rest) exprs (result.map ('\\' :: c :: ·))
  | trailing {before : List Char} : s.Expands before ['\\'] [] (.ok ['\\'])

namespace Session

variable {s : Session}

theorem evaluates_evalText (position : Nat) (expr : String) :
    s.Evaluates position expr (s.evalText position expr) := by
  unfold evalText
  split
  · rename_i v hv
    cases htext : Language.display v with
    | ok text => exact .text hv htext
    | error failure => exact .unprintable hv htext
  · rename_i p hp
    exact .refused hp
  · rename_i failure hp hfailure
    exact .broken hfailure hp

theorem Evaluates.evalText_eq {position : Nat} {expr : String} {result : Except Failure String}
    (h : s.Evaluates position expr result) : s.evalText position expr = result := by
  unfold evalText
  cases h with
  | text hv htext => rw [hv, ← htext]
  | refused hp => rw [hp]
  | unprintable hv hfailure => rw [hv, ← hfailure]
  | @broken failure hfailure hp =>
      rw [hfailure]
      cases failure with
      | problem p => exact absurd rfl (hp p)
      | fault fault => rfl
      | evaluation fault => rfl

theorem exists_expands_value {before rest expr after : List Char} (h : Encloses rest expr after)
    (ih : ∃ exprs, s.Expands (before ++ '\\' :: '(' :: (expr ++ [')'])) after exprs
      (chars s.evalText (before.length + expr.length + 3) after)) :
    ∃ exprs, s.Expands before ('\\' :: '(' :: rest) exprs
      (chars s.evalText before.length ('\\' :: '(' :: rest)) := by
  have hvalue := evaluates_evalText (s := s) (before.length + 2) (String.ofList expr)
  rw [chars_value h]
  cases htext : s.evalText (before.length + 2) (String.ofList expr) with
  | error failure =>
      rw [htext] at hvalue
      exact ⟨_, .failed h hvalue⟩
  | ok text =>
      rw [htext] at hvalue
      obtain ⟨exprs, hexprs⟩ := ih
      exact ⟨_, .value h hvalue hexprs⟩

theorem exists_expands (before rest : List Char) :
    ∃ exprs, s.Expands before rest exprs (chars s.evalText before.length rest) := by
  generalize hposition : before.length = position
  induction position, rest using Expand.stretches generalizing before with
  | nil position =>
      rw [chars]
      exact ⟨[], .done⟩
  | plain position c rest hc ih =>
      obtain ⟨exprs, h⟩ := ih (before ++ [c]) (by rw [List.length_append, hposition]; rfl)
      rw [chars_plain hc]
      exact ⟨exprs, .plain hc h⟩
  | backslash position rest ih =>
      obtain ⟨exprs, h⟩ := ih (before ++ ['\\', '\\']) (by rw [List.length_append, hposition]; rfl)
      rw [chars]
      exact ⟨exprs, .backslash h⟩
  | invalid position rest =>
      obtain rfl := hposition
      rw [chars]
      exact ⟨[], .invalid⟩
  | value position expr after hexpr ih =>
      obtain rfl := hposition
      refine exists_expands_value (encloses_of_balanced hexpr after) (ih _ ?_)
      simp only [List.length_append, List.length_cons, List.length_nil]
      omega
  | unclosed position rest hrest =>
      rw [chars_unclosed hrest]
      exact ⟨[], .unclosed hrest⟩
  | other position c rest hescape hopening hclosing ih =>
      obtain ⟨exprs, h⟩ := ih (before ++ ['\\', c]) (by rw [List.length_append, hposition]; rfl)
      rw [chars_other hescape hopening hclosing]
      exact ⟨exprs, .other hescape hopening hclosing h⟩
  | trailing position =>
      rw [chars_trailing]
      exact ⟨[], .trailing⟩

/-- The expansion is the one of the reader, however the expressions that the reader does not come to
are evaluated. -/
theorem Expands.chars_eq {before rest : List Char} {exprs : List (Nat × String)}
    {result : Except Failure (List Char)} (h : s.Expands before rest exprs result)
    {eval : Nat → String → Except Failure String}
    (heval : ∀ e ∈ exprs, eval e.1 e.2 = s.evalText e.1 e.2) :
    chars eval before.length rest = result := by
  induction h with
  | done => rw [chars]
  | plain hc _ ih =>
      rw [chars_plain hc, ← ih heval, List.length_append, List.length_singleton]
  | backslash _ ih =>
      rw [chars, ← ih heval, List.length_append]
      rfl
  | invalid => rw [chars]
  | @value before rest expr after text exprs result hexpr htext _ ih =>
      obtain ⟨hfirst, hothers⟩ := List.forall_mem_cons.mp heval
      have hlength : (before ++ '\\' :: '(' :: (expr ++ [')'])).length
          = before.length + expr.length + 3 := by
        simp only [List.length_append, List.length_cons, List.length_nil]
        omega
      rw [chars_value hexpr, hfirst, htext.evalText_eq, ← ih hothers, hlength]
      rfl
  | failed hexpr hfailure =>
      rw [chars_value hexpr, heval _ List.mem_cons_self, hfailure.evalText_eq]
      rfl
  | unclosed hrest => exact chars_unclosed hrest
  | other hescape hopening hclosing _ ih =>
      rw [chars_other hescape hopening hclosing, ← ih heval, List.length_append]
      rfl
  | trailing => exact chars_trailing

/-- A failure is found in a beginning of the text, whatever stands behind it. -/
theorem Expands.error {before rest : List Char} {exprs : List (Nat × String)}
    {result : Except Failure (List Char)} (h : s.Expands before rest exprs result)
    {failure : Failure} (hresult : result = .error failure) :
    ∃ read after, rest = read ++ after ∧
      ∀ other, s.Expands before (read ++ other) exprs (.error failure) := by
  induction h with
  | done => cases hresult
  | plain hc _ ih =>
      obtain ⟨read, after, rfl, h⟩ := ih (map_eq_error_iff.mp hresult)
      exact ⟨_ :: read, after, rfl, fun other => .plain hc (h other)⟩
  | backslash _ ih =>
      obtain ⟨read, after, rfl, h⟩ := ih (map_eq_error_iff.mp hresult)
      exact ⟨'\\' :: '\\' :: read, after, rfl, fun other => .backslash (h other)⟩
  | @invalid before rest =>
      obtain rfl := Except.error.inj hresult
      exact ⟨['\\', ')'], rest, rfl, fun _ => .invalid⟩
  | @value before rest expr after text exprs result hexpr htext _ ih =>
      obtain ⟨read, more, rfl, h⟩ := ih (map_eq_error_iff.mp hresult)
      refine ⟨'\\' :: '(' :: (expr ++ ')' :: read), more, ?_, fun other => ?_⟩
      · rw [hexpr.split, List.cons_append, List.cons_append, List.append_assoc, List.cons_append]
      · rw [List.cons_append, List.cons_append, List.append_assoc, List.cons_append]
        exact .value (encloses_of_balanced hexpr.balanced _) htext (h other)
  | @failed before rest expr after failure hexpr hfailure =>
      obtain rfl := Except.error.inj hresult
      refine ⟨'\\' :: '(' :: (expr ++ [')']), after, ?_, fun other => ?_⟩
      · rw [hexpr.split, List.cons_append, List.cons_append, List.append_assoc,
          List.singleton_append]
      · rw [List.cons_append, List.cons_append, List.append_assoc, List.singleton_append]
        exact .failed (encloses_of_balanced hexpr.balanced other) hfailure
  | unclosed => cases hresult
  | other hescape hopening hclosing _ ih =>
      obtain ⟨read, after, rfl, h⟩ := ih (map_eq_error_iff.mp hresult)
      exact ⟨'\\' :: _ :: read, after, rfl, fun other => .other hescape hopening hclosing (h other)⟩
  | trailing => cases hresult

theorem expand_toList (text : String) :
    (s.expand text).map String.toList = chars s.evalText 0 text.toList := by
  rw [expand, expansion_eq_chars]
  cases chars s.evalText 0 text.toList with
  | error failure => rfl
  | ok cs => exact congrArg Except.ok String.toList_ofList

/-- **Expanding a text is reading it from left to right**: the reader has an answer for each text, it has
no other, and the expansion is that answer. Only the expressions that the reader comes to count, and a
failure is decided by a beginning of the text, whatever stands behind it. -/
theorem expand_reads (s : Session) (text : String) :
    (∃ exprs, s.Expands [] text.toList exprs ((s.expand text).map String.toList)) ∧
      (∀ exprs result, s.Expands [] text.toList exprs result →
        (s.expand text).map String.toList = result ∧
          ∀ eval : Nat → String → Except Failure String,
            (∀ e ∈ exprs, eval e.1 e.2 = s.evalText e.1 e.2) →
            (expansion eval text.toList).map String.ofList = s.expand text) ∧
      ∀ failure, s.expand text = .error failure → ∃ read after, text.toList = read ++ after ∧
        ∀ other, s.expand (String.ofList (read ++ other)) = .error failure := by
  refine ⟨?_, ?_, ?_⟩
  · rw [expand_toList]
    exact exists_expands [] text.toList
  · intro exprs result h
    refine ⟨(expand_toList text).trans (h.chars_eq fun _ _ => rfl), fun eval heval => ?_⟩
    have heq : chars eval 0 text.toList = chars s.evalText 0 text.toList :=
      (h.chars_eq heval).trans (h.chars_eq fun _ _ => rfl).symm
    rw [expand, expansion_eq_chars, expansion_eq_chars, heq]
  · intro failure hfailure
    have hchars : chars s.evalText 0 text.toList = .error failure :=
      (expansion_eq_chars _ _).symm.trans (map_eq_error_iff.mp hfailure)
    obtain ⟨exprs, h⟩ := exists_expands (s := s) [] text.toList
    obtain ⟨read, after, hsplit, h⟩ := h.error hchars
    refine ⟨read, after, hsplit, fun other => ?_⟩
    have hother : chars s.evalText 0 (read ++ other) = .error failure :=
      (h other).chars_eq fun _ _ => rfl
    rw [expand, expansion_eq_chars, String.toList_ofList, hother]
    rfl

example :
    expansion (fun position expr => .ok s!"{position}:{expr}") "\\\\\\(f(1))\\n\\(2".toList
      = .ok "\\4:f(1)\\n\\(2".toList := by
  cbv

end Session

end ApiProbe
