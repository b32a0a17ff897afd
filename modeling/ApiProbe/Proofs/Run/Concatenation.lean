import ApiProbe.Proofs.Run.Expansion

/-!
# Texts that are joined

Where a text ends outside of a placeholder, and not in the middle of an escape, what stands behind it is
expanded as it is expanded alone. Only the places that failures name are further on. So any text can be put
in front literally, with each of its backslashes written twice.
-/

namespace ApiProbe

namespace Expand

/-! ### Where a text ends

Whether a text can be continued is decided by what its last character is part of, and that is found by a walk
over the text that evaluates nothing. -/

/-- What the next character is part of, as the walk has it. -/
inductive Mode where
  | text
  /-- A backslash stands in front of it. -/
  | escape
  /-- It is in a placeholder, with so many parentheses open inside the expression. -/
  | placeholder (depth : Nat)
  /-- It is behind an escape that is none, where nothing is read any more. -/
  | stopped
  deriving DecidableEq

def Mode.next : Mode → Char → Mode
  | .text, c => if c = '\\' then .escape else .text
  | .escape, c => if c = '(' then .placeholder 0 else if c = ')' then .stopped else .text
  | .placeholder depth, c =>
    if c = '(' then .placeholder (depth + 1)
    else if c = ')' then
      match depth with
      | 0 => .text
      | depth + 1 => .placeholder depth
    else .placeholder depth
  | .stopped, _ => .stopped

def Mode.after (mode : Mode) (cs : List Char) : Mode :=
  cs.foldl Mode.next mode

/-- Nothing is open where the text ends: no placeholder and no escape. Nothing is open either where nothing
is read any more. -/
def IsComplete (cs : List Char) : Prop :=
  Mode.text.after cs = .text ∨ Mode.text.after cs = .stopped

instance (cs : List Char) : Decidable (IsComplete cs) :=
  inferInstanceAs (Decidable (_ ∨ _))

namespace Mode

theorem after_cons (mode : Mode) (c : Char) (cs : List Char) :
    mode.after (c :: cs) = (mode.next c).after cs :=
  rfl

theorem after_append (mode : Mode) (cs more : List Char) :
    mode.after (cs ++ more) = (mode.after cs).after more :=
  List.foldl_append

theorem next_placeholder {c : Char} (hopening : c ≠ '(') (hclosing : c ≠ ')') (depth : Nat) :
    (placeholder depth).next c = .placeholder depth :=
  (if_neg hopening).trans (if_neg hclosing)

section Scanner

variable {eval : Nat → String → Except Failure String} {text cs : List Char} {s behind : Scanner}
  {position : Nat} {c : Char}

/-- What the scanner takes the next character for. -/
def ofScanner (s : Scanner) : Mode :=
  match s.mode with
  | .literal => .text
  | .sawEscape => .escape
  | .inExpr => .placeholder s.depth

theorem ofScanner_step (h : s.step eval text position c = .ok behind) :
    ofScanner behind = (ofScanner s).next c := by
  obtain ⟨mode, out, part, start, depth⟩ := s
  cases mode with
  | literal =>
      obtain rfl := Except.ok.inj h
      by_cases hc : c = '\\'
      · obtain rfl := hc
        rfl
      · dsimp only [ofScanner, next]
        rw [if_neg hc, if_neg hc]
  | sawEscape =>
      by_cases hescape : c = '\\'
      · obtain rfl := hescape
        obtain rfl := Except.ok.inj h
        rfl
      by_cases hopening : c = '('
      · obtain rfl := hopening
        obtain rfl := Except.ok.inj h
        rfl
      by_cases hclosing : c = ')'
      · obtain rfl := hclosing
        cases h
      · obtain rfl := Except.ok.inj ((Scanner.step_other hescape hopening hclosing).symm.trans h)
        exact ((if_neg hopening).trans (if_neg hclosing)).symm
  | inExpr =>
      by_cases hopening : c = '('
      · obtain rfl := hopening
        obtain rfl := Except.ok.inj h
        rfl
      by_cases hclosing : c = ')'
      · obtain rfl := hclosing
        cases depth with
        | zero =>
            obtain ⟨value, -, hvalue⟩ := bind_eq_ok_iff.mp h
            obtain rfl := Except.ok.inj hvalue
            rfl
        | succ depth =>
            obtain rfl := Except.ok.inj h
            rfl
      · obtain rfl := Except.ok.inj ((Scanner.step_inExpr hopening hclosing).symm.trans h)
        exact (next_placeholder hopening hclosing depth).symm

/-- The walk is in the mode of the scanner, as far as the scanner comes. -/
theorem ofScanner_scan (h : s.scan eval text position cs = .ok behind) :
    ofScanner behind = (ofScanner s).after cs := by
  induction cs generalizing s position with
  | nil =>
      obtain rfl := Except.ok.inj h
      rfl
  | cons c cs ih =>
      rw [Scanner.scan_cons] at h
      obtain ⟨between, hstep, hscan⟩ := bind_eq_ok_iff.mp h
      rw [ih hscan, ofScanner_step hstep, after_cons]

end Scanner

theorem after_balanced {expr : List Char} (h : Balanced expr) (depth : Nat) :
    (placeholder depth).after expr = .placeholder depth := by
  let inside : Scanner := { mode := .inExpr, depth }
  have hscan : inside.scan (fun _ _ => .ok "") [] 0 (expr ++ []) = .ok inside :=
    Scanner.scan_balanced h 0 []
  rw [List.append_nil] at hscan
  exact (ofScanner_scan hscan).symm

/-- A placeholder that is not closed goes on to the end. -/
theorem after_unclosed {cs : List Char} {depth : Nat} (h : exprLength? depth cs = none) :
    ∃ more, (placeholder depth).after cs = .placeholder more := by
  let inside : Scanner := { mode := .inExpr, depth }
  obtain ⟨more, hscan⟩ : ∃ more, inside.scan (fun _ _ => .ok "") [] 0 cs
      = .ok { mode := .inExpr, depth := more } :=
    Scanner.scan_unclosed h 0
  exact ⟨more, (ofScanner_scan hscan).symm⟩

end Mode

section IsComplete

variable {c : Char} {rest expr after : List Char}

theorem isComplete_plain (hc : c ≠ '\\') : IsComplete (c :: rest) ↔ IsComplete rest := by
  have hnext : Mode.text.next c = .text := if_neg hc
  unfold IsComplete
  rw [Mode.after_cons, hnext]

theorem isComplete_escape (hopening : c ≠ '(') (hclosing : c ≠ ')') :
    IsComplete ('\\' :: c :: rest) ↔ IsComplete rest := by
  have hnext : (Mode.text.next '\\').next c = .text := (if_neg hopening).trans (if_neg hclosing)
  unfold IsComplete
  rw [Mode.after_cons, Mode.after_cons, hnext]

theorem isComplete_value (h : Balanced expr) :
    IsComplete ('\\' :: '(' :: (expr ++ ')' :: after)) ↔ IsComplete after := by
  have hopen : (Mode.text.next '\\').next '(' = .placeholder 0 := rfl
  have hclose : (Mode.placeholder 0).next ')' = .text := rfl
  unfold IsComplete
  rw [Mode.after_cons, Mode.after_cons, hopen, Mode.after_append, Mode.after_balanced h,
    Mode.after_cons, hclose]

theorem not_isComplete_unclosed (h : Unclosed rest) : ¬ IsComplete ('\\' :: '(' :: rest) := by
  have hopen : (Mode.text.next '\\').next '(' = .placeholder 0 := rfl
  obtain ⟨depth, hafter⟩ := Mode.after_unclosed (unclosed_iff.mp h)
  unfold IsComplete
  rw [Mode.after_cons, Mode.after_cons, hopen, hafter]
  exact nofun

theorem not_isComplete_trailing : ¬ IsComplete ['\\'] :=
  nofun

end IsComplete

/-- A text that the scanner comes through is complete just if the scanner ends where it copies literally. -/
theorem isComplete_iff_literal {eval : Nat → String → Except Failure String} {text : List Char}
    {s : Scanner} (h : { : Scanner }.scan eval text 0 text = .ok s) :
    IsComplete text ↔ s.mode = .literal := by
  have hafter : Mode.ofScanner s = Mode.text.after text := Mode.ofScanner_scan h
  unfold IsComplete
  rw [← hafter]
  obtain ⟨mode, out, part, start, depth⟩ := s
  cases mode <;> simp [Mode.ofScanner]

/-- Both results, one behind the other. -/
def joined (x y : Except Failure (List Char)) : Except Failure (List Char) :=
  x.bind fun first => y.map (first ++ ·)

theorem map_joined (front : List Char) (x y : Except Failure (List Char)) :
    (joined x y).map (front ++ ·) = joined (x.map (front ++ ·)) y := by
  cases x with
  | error failure => rfl
  | ok first =>
      cases y with
      | error failure => rfl
      | ok second => exact congrArg Except.ok (List.append_assoc front first second).symm

/-- A complete text is expanded by itself, and so is what stands behind it, from its place on. -/
theorem chars_append {eval : Nat → String → Except Failure String} (position : Nat)
    {first : List Char} (h : IsComplete first) (second : List Char) :
    chars eval position (first ++ second) =
      joined (chars eval position first) (chars eval (position + first.length) second) := by
  induction position, first using Expand.stretches with
  | nil position =>
      rw [chars, List.nil_append, List.length_nil, Nat.add_zero]
      cases chars eval position second <;> rfl
  | plain position c rest hc ih =>
      rw [isComplete_plain hc] at h
      rw [List.cons_append, chars_plain hc, chars_plain hc, ih h]
      refine (map_joined [c] _ _).trans ?_
      rw [Nat.add_assoc, Nat.add_comm 1]
      rfl
  | backslash position rest ih =>
      rw [isComplete_escape (by decide) (by decide)] at h
      rw [List.cons_append, List.cons_append, chars, chars, ih h]
      refine (map_joined ['\\'] _ _).trans ?_
      rw [Nat.add_assoc, Nat.add_comm 2]
      rfl
  | invalid position rest =>
      rw [List.cons_append, List.cons_append, chars, chars]
      rfl
  | value position expr after hexpr ih =>
      rw [isComplete_value hexpr] at h
      have hlength : position + ('\\' :: '(' :: (expr ++ ')' :: after)).length
          = position + expr.length + 3 + after.length := by
        simp only [List.length_cons, List.length_append]
        omega
      rw [List.cons_append, List.cons_append, List.append_assoc, List.cons_append,
        chars_value (encloses_of_balanced hexpr after),
        chars_value (encloses_of_balanced hexpr (after ++ second)), hlength]
      cases eval (position + 2) (String.ofList expr) with
      | error failure => rfl
      | ok text =>
          dsimp only [Except.bind]
          rw [ih h, map_joined]
  | unclosed position rest hrest => exact absurd h (not_isComplete_unclosed hrest)
  | other position c rest hescape hopening hclosing ih =>
      rw [isComplete_escape hopening hclosing] at h
      rw [List.cons_append, List.cons_append, chars_other hescape hopening hclosing,
        chars_other hescape hopening hclosing, ih h]
      refine (map_joined ['\\', c] _ _).trans ?_
      rw [Nat.add_assoc, Nat.add_comm 2]
      rfl
  | trailing position => exact absurd h not_isComplete_trailing

def escapeChars (cs : List Char) : List Char :=
  cs.flatMap fun c => if c = '\\' then ['\\', '\\'] else [c]

/-- The text with each backslash written twice. -/
def escape (text : String) : String :=
  String.ofList (escapeChars text.toList)

theorem escapeChars_cons (c : Char) (cs : List Char) :
    escapeChars (c :: cs) = (if c = '\\' then ['\\', '\\'] else [c]) ++ escapeChars cs :=
  List.flatMap_cons

theorem isComplete_escapeChars (cs : List Char) : IsComplete (escapeChars cs) := by
  induction cs with
  | nil => exact Or.inl rfl
  | cons c cs ih =>
      rw [escapeChars_cons]
      split
      · exact (isComplete_escape (by decide) (by decide)).mpr ih
      · rename_i hc
        exact (isComplete_plain hc).mpr ih

theorem chars_escapeChars (eval : Nat → String → Except Failure String) (position : Nat)
    (cs : List Char) : chars eval position (escapeChars cs) = .ok cs := by
  induction cs generalizing position with
  | nil =>
      rw [escapeChars, List.flatMap_nil, chars]
  | cons c cs ih =>
      rw [escapeChars_cons]
      split
      · rename_i hc
        rw [List.cons_append, List.singleton_append, chars, ih, hc]
        rfl
      · rename_i hc
        rw [List.singleton_append, chars_plain hc, ih]
        rfl

end Expand

/-- The second failure is the first one, with the place that it names moved by some characters. -/
inductive Failure.Moved (n : Nat) : Failure → Failure → Prop
  | expand {expr : String} {position : Int} {cause : Problem} :
      Moved n (.problem (.expand expr position cause)) (.problem (.expand expr (position + n) cause))
  | escape {position : Int} {char : String} :
      Moved n (.problem (.escape position char)) (.problem (.escape (position + n) char))
  | fault {fault : Fault} : Moved n (.fault fault) (.fault fault)
  | evaluation {fault : Fault} : Moved n (.evaluation fault) (.evaluation fault)

/-- The same result, or the same failure further on. -/
inductive MovedBy {α : Type} (n : Nat) : Except Failure α → Except Failure α → Prop
  | ok {a : α} : MovedBy n (.ok a) (.ok a)
  | error {failure moved : Failure} (h : failure.Moved n moved) :
      MovedBy n (.error failure) (.error moved)

section MovedBy

variable {α β : Type} {n : Nat} {x y : Except Failure α}

theorem MovedBy.map (h : MovedBy n x y) (f : α → β) : MovedBy n (x.map f) (y.map f) := by
  cases h with
  | ok => exact .ok
  | error h => exact .error h

theorem MovedBy.bind (h : MovedBy n x y) {f g : α → Except Failure β}
    (hfg : ∀ a, MovedBy n (f a) (g a)) : MovedBy n (x.bind f) (y.bind g) := by
  cases h with
  | ok => exact hfg _
  | error h => exact .error h

end MovedBy

open Expand

namespace Session

variable {s : Session}

theorem movedBy_display (n : Nat) (v : Value) :
    MovedBy n (Language.display v) (Language.display v) := by
  unfold Language.display
  split
  · exact .ok
  · exact .error .fault

theorem movedBy_evalText (n position : Nat) (expr : String) :
    MovedBy n (s.evalText position expr) (s.evalText (position + n) expr) := by
  unfold evalText
  cases s.compile expr with
  | ok v => exact movedBy_display n v
  | error failure =>
      cases failure with
      | problem p =>
          dsimp only
          rw [Int.natCast_add]
          exact .error .expand
      | fault fault => exact .error .fault
      | evaluation fault => exact .error .evaluation

/-- Further on in a text the same is expanded to the same. -/
theorem movedBy_chars (n position : Nat) (cs : List Char) :
    MovedBy n (chars s.evalText position cs) (chars s.evalText (position + n) cs) := by
  induction position, cs using Expand.stretches with
  | nil position =>
      rw [chars, chars]
      exact .ok
  | plain position c rest hc ih =>
      rw [chars_plain hc, chars_plain hc, Nat.add_right_comm]
      exact ih.map _
  | backslash position rest ih =>
      rw [chars, chars, Nat.add_right_comm]
      exact ih.map _
  | invalid position rest =>
      rw [chars, chars, Int.natCast_add, Int.add_right_comm]
      exact .error .escape
  | value position expr after hexpr ih =>
      have hencloses := encloses_of_balanced hexpr after
      rw [chars_value hencloses, chars_value hencloses, Nat.add_right_comm position n 2,
        Nat.add_right_comm position n expr.length, Nat.add_right_comm (position + expr.length) n 3]
      exact (movedBy_evalText n (position + 2) _).bind fun text => ih.map _
  | unclosed position rest hrest =>
      rw [chars_unclosed hrest, chars_unclosed hrest]
      exact .ok
  | other position c rest hescape hopening hclosing ih =>
      rw [chars_other hescape hopening hclosing, chars_other hescape hopening hclosing,
        Nat.add_right_comm]
      exact ih.map _
  | trailing position =>
      rw [chars_trailing, chars_trailing]
      exact .ok

/-- Behind the first text the second one is expanded as it is alone, with `front` in front of it. A failure
is the same failure, further on by the length of the first text. -/
def ExpandsBehind (s : Session) (first front second : String) : Prop :=
  (∀ back, s.expand second = .ok back → s.expand (first ++ second) = .ok (front ++ back)) ∧
    ∀ failure, s.expand second = .error failure →
      ∃ moved, failure.Moved first.length moved ∧ s.expand (first ++ second) = .error moved

/-- What stands behind a complete text is expanded by itself. -/
theorem exists_expand_append {first : String} (h : IsComplete first.toList) (second : String) :
    ∃ moved, MovedBy first.length (s.expand second) moved ∧
      s.expand (first ++ second) = (s.expand first).bind fun front => moved.map (front ++ ·) := by
  have hmoved := movedBy_chars (s := s) first.toList.length 0 second.toList
  rw [expand, expansion_eq_chars]
  refine ⟨_, hmoved.map String.ofList, ?_⟩
  rw [expand, expand, expansion_eq_chars, expansion_eq_chars, String.toList_append, chars_append 0 h]
  cases chars s.evalText 0 first.toList with
  | error failure => rfl
  | ok front =>
      dsimp only [joined, Except.bind, Except.map]
      cases chars s.evalText (0 + first.toList.length) second.toList with
      | error failure => rfl
      | ok back => exact congrArg Except.ok String.ofList_append

theorem expandsBehind_of_isComplete {first front : String} (h : IsComplete first.toList)
    (hfirst : s.expand first = .ok front) (second : String) : s.ExpandsBehind first front second := by
  obtain ⟨result, hmoved, hboth⟩ := exists_expand_append (s := s) h second
  rw [hfirst] at hboth
  constructor
  · intro back hsecond
    rw [hsecond] at hmoved
    cases hmoved
    exact hboth
  · intro failure hsecond
    rw [hsecond] at hmoved
    obtain - | ⟨hmoved⟩ := hmoved
    exact ⟨_, hmoved, hboth⟩

theorem expand_escape (literal : String) : s.expand (escape literal) = .ok literal := by
  rw [expand, expansion_eq_chars, escape, String.toList_ofList, chars_escapeChars]
  exact congrArg Except.ok String.ofList_toList

/-- **The expansion of two texts is that of the one and that of the other**, if the first one is complete;
the second is not looked at where the first one fails. So any text can be put in front literally, with each
of its backslashes written twice. -/
theorem expand_append (s : Session) :
    (∀ literal text : String, s.ExpandsBehind (escape literal) literal text) ∧
      ∀ first second : String, IsComplete first.toList →
        (∀ front, s.expand first = .ok front → s.ExpandsBehind first front second) ∧
        ∀ failure, s.expand first = .error failure → s.expand (first ++ second) = .error failure := by
  refine ⟨fun literal text => ?_, fun first second h => ⟨fun front hfirst => ?_, ?_⟩⟩
  · refine expandsBehind_of_isComplete ?_ (expand_escape literal) text
    rw [escape, String.toList_ofList]
    exact isComplete_escapeChars literal.toList
  · exact expandsBehind_of_isComplete h hfirst second
  · intro failure hfirst
    obtain ⟨result, -, hboth⟩ := exists_expand_append (s := s) h second
    rw [hboth, hfirst]
    rfl

/-- What looks like a placeholder, literally, in front of a placeholder and of an escape that is none, and
either of these in front of the other. -/
theorem expand_append_literal_placeholder :
    let s : Session := { now := .zero false }
    let invalid : Failure := .problem (.escape 2 ")")
    s.expand "\\(1 + 2)" = .ok "3" ∧ s.expand "a\\)" = .error invalid ∧
      s.expand (escape "\\(" ++ "\\(1 + 2)") = .ok "\\(3" ∧
      (∃ moved, invalid.Moved 3 moved ∧ s.expand (escape "\\(" ++ "a\\)") = .error moved) ∧
      IsComplete "\\(1 + 2)".toList ∧
      (∃ moved, invalid.Moved 8 moved ∧ s.expand "\\(1 + 2)a\\)" = .error moved) ∧
      IsComplete "\\\\".toList ∧ s.expand "\\\\\\(1 + 2)" = .ok "\\3" ∧
      IsComplete "\\(b)".toList ∧
      ∃ failure, s.expand "\\(b)" = .error failure ∧ s.expand "\\(b)a\\)" = .error failure := by
  intro s invalid
  obtain ⟨hliteral, hcomplete⟩ := expand_append s
  have hvalue : s.expand "\\(1 + 2)" = .ok "3" := toOption_eq_some_iff.mp (by decide +kernel)
  have hinvalid : s.expand "a\\)" = .error invalid := by cbv
  have hbackslash : s.expand "\\\\" = .ok "\\" := expand_escape "\\"
  refine ⟨hvalue, hinvalid, (hliteral "\\(" _).1 _ hvalue, (hliteral "\\(" _).2 _ hinvalid, by decide, ?_,
    by decide, ?_, by decide, ?_⟩
  · exact ((hcomplete "\\(1 + 2)" "a\\)" (by decide)).1 _ hvalue).2 _ hinvalid
  · exact ((hcomplete "\\\\" "\\(1 + 2)" (by decide)).1 _ hbackslash).1 _ hvalue
  · have hfails : (s.expand "\\(b)").toOption = none := by decide +kernel
    cases hfirst : s.expand "\\(b)" with
    | ok front =>
        rw [hfirst] at hfails
        cases hfails
    | error failure =>
        exact ⟨failure, rfl, (hcomplete "\\(b)" "a\\)" (by decide)).2 failure hfirst⟩

end Session

end ApiProbe
