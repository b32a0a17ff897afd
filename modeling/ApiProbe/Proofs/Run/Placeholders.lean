import ApiProbe.Proofs.Result
import ApiProbe.Run.Session

/-!
# Placeholders

The expansion of a text by recursion over what can stand at a place: a placeholder up to the parenthesis
that closes it, another escape, or a single character. The expression of a placeholder is the shortest
beginning of the text behind it that is balanced and has a closing parenthesis behind it.
-/

namespace ApiProbe.Expand

/-- The length of an expression up to the parenthesis that closes the placeholder, `depth` being how
many are open inside it. -/
def exprLength? (depth : Nat) : List Char → Option Nat
  | [] => none
  | c :: rest =>
    if c == '(' then (exprLength? (depth + 1) rest).map (· + 1)
    else if c == ')' then
      match depth with
      | 0 => some 0
      | depth + 1 => (exprLength? depth rest).map (· + 1)
    else
      (exprLength? depth rest).map (· + 1)

/-- The expansion of the characters from a position on; `eval` gives the text of an expression that
starts at a position. -/
def chars (eval : Nat → String → Except Failure String) (position : Nat) :
    List Char → Except Failure (List Char)
  | [] => .ok []
  | '\\' :: '\\' :: rest => (chars eval (position + 2) rest).map ('\\' :: ·)
  | '\\' :: '(' :: rest =>
    match exprLength? 0 rest with
    | none => .ok ('\\' :: '(' :: rest)
    | some n => do
      let text ← eval (position + 2) (String.ofList (rest.take n))
      let more ← chars eval (position + n + 3) (rest.drop (n + 1))
      return text.toList ++ more
  | '\\' :: ')' :: _ => .error (.problem (.escape (position + 1) ")"))
  | '\\' :: c :: rest => (chars eval (position + 2) rest).map ('\\' :: c :: ·)
  | c :: rest => (chars eval (position + 1) rest).map (c :: ·)
  termination_by cs => cs.length
  decreasing_by
    all_goals
      simp only [List.length_cons, List.length_drop]
      omega

/-- A text in which each parenthesis has its partner. -/
inductive Balanced : List Char → Prop
  | nil : Balanced []
  | plain {c : Char} {rest : List Char} (hopening : c ≠ '(') (hclosing : c ≠ ')')
      (hrest : Balanced rest) : Balanced (c :: rest)
  | group {inner rest : List Char} (hinner : Balanced inner) (hrest : Balanced rest) :
      Balanced ('(' :: inner ++ ')' :: rest)

/-- The expression is the shortest beginning of the text that is balanced and has a closing parenthesis
behind it. -/
structure Encloses (text expr after : List Char) : Prop where
  split : text = expr ++ ')' :: after
  balanced : Balanced expr
  shortest : ∀ other rest, text = other ++ ')' :: rest → Balanced other →
    expr.length ≤ other.length

/-- No balanced beginning of the text has a closing parenthesis behind it. -/
def Unclosed (text : List Char) : Prop :=
  ∀ expr after, text = expr ++ ')' :: after → ¬ Balanced expr

theorem exprLength?_opening (depth : Nat) (rest : List Char) :
    exprLength? depth ('(' :: rest) = (exprLength? (depth + 1) rest).map (· + 1) :=
  rfl

theorem exprLength?_closing (depth : Nat) (rest : List Char) :
    exprLength? (depth + 1) (')' :: rest) = (exprLength? depth rest).map (· + 1) :=
  rfl

theorem exprLength?_plain {c : Char} (hopening : c ≠ '(') (hclosing : c ≠ ')') (depth : Nat)
    (rest : List Char) :
    exprLength? depth (c :: rest) = (exprLength? depth rest).map (· + 1) := by
  rw [exprLength?.eq_def]
  exact (if_neg (by simpa using hopening)).trans (if_neg (by simpa using hclosing))

theorem exprLength?_append {expr : List Char} (h : Balanced expr) :
    ∀ (depth : Nat) (rest : List Char),
      exprLength? depth (expr ++ rest) = (exprLength? depth rest).map (· + expr.length) := by
  induction h with
  | nil =>
      intro depth rest
      exact Option.map_id'.symm
  | plain hopening hclosing _ ih =>
      intro depth rest
      rw [List.cons_append, exprLength?_plain hopening hclosing, ih, Option.map_map]
      rfl
  | @group inner tail _ _ ihInner ihTail =>
      intro depth rest
      rw [List.cons_append, List.cons_append, List.append_assoc, List.cons_append,
        exprLength?_opening, ihInner, exprLength?_closing, ihTail, Option.map_map, Option.map_map,
        Option.map_map]
      congr 1
      funext n
      simp only [Function.comp_apply, List.length_cons, List.length_append]
      omega

theorem exprLength?_eq_some {expr : List Char} (h : Balanced expr) (after : List Char) :
    exprLength? 0 (expr ++ ')' :: after) = some expr.length := by
  rw [exprLength?_append h]
  exact congrArg some (Nat.zero_add _)

/-- Balanced texts with a closing parenthesis between each two, one more than the depth. -/
inductive Closes : Nat → List Char → Prop
  | last {expr : List Char} (h : Balanced expr) : Closes 0 expr
  | more {depth : Nat} {expr rest : List Char} (h : Balanced expr) (hrest : Closes depth rest) :
      Closes (depth + 1) (expr ++ ')' :: rest)

theorem Closes.plain {depth : Nat} {c : Char} {rest : List Char} (hopening : c ≠ '(')
    (hclosing : c ≠ ')') (h : Closes depth rest) : Closes depth (c :: rest) := by
  cases h with
  | last hexpr => exact .last (.plain hopening hclosing hexpr)
  | more hexpr hrest => exact .more (.plain hopening hclosing hexpr) hrest

theorem Closes.group {depth : Nat} {rest : List Char} (h : Closes (depth + 1) rest) :
    Closes depth ('(' :: rest) := by
  obtain - | @⟨_, inner, rest, hinner, hrest⟩ := h
  cases hrest with
  | last hexpr => exact .last (.group hinner hexpr)
  | @more depth expr rest hexpr hrest =>
      have hgroup := Closes.more (Balanced.group hinner hexpr) hrest
      rwa [List.cons_append, List.cons_append, List.append_assoc, List.cons_append] at hgroup

theorem closes_of_exprLength? {depth n : Nat} {text : List Char}
    (h : exprLength? depth text = some n) :
    ∃ expr after, text = expr ++ ')' :: after ∧ expr.length = n ∧ Closes depth expr := by
  induction text generalizing depth n with
  | nil => cases h
  | cons c rest ih =>
      by_cases hopening : c = '('
      · obtain rfl := hopening
        rw [exprLength?_opening, Option.map_eq_some_iff] at h
        obtain ⟨m, hm, rfl⟩ := h
        obtain ⟨expr, after, rfl, rfl, hexpr⟩ := ih hm
        exact ⟨'(' :: expr, after, rfl, rfl, hexpr.group⟩
      by_cases hclosing : c = ')'
      · obtain rfl := hclosing
        cases depth with
        | zero =>
            obtain rfl := Option.some.inj h
            exact ⟨[], rest, rfl, rfl, .last .nil⟩
        | succ depth =>
            rw [exprLength?_closing, Option.map_eq_some_iff] at h
            obtain ⟨m, hm, rfl⟩ := h
            obtain ⟨expr, after, rfl, rfl, hexpr⟩ := ih hm
            exact ⟨')' :: expr, after, rfl, rfl, .more .nil hexpr⟩
      · rw [exprLength?_plain hopening hclosing, Option.map_eq_some_iff] at h
        obtain ⟨m, hm, rfl⟩ := h
        obtain ⟨expr, after, rfl, rfl, hexpr⟩ := ih hm
        exact ⟨c :: expr, after, rfl, rfl, hexpr.plain hopening hclosing⟩

/-- All balanced beginnings in front of a closing parenthesis are as long, so each is the shortest. -/
theorem encloses_of_balanced {expr : List Char} (h : Balanced expr) (after : List Char) :
    Encloses (expr ++ ')' :: after) expr after := by
  refine ⟨rfl, h, fun other rest hsplit hother => ?_⟩
  have hlength := exprLength?_eq_some h after
  rw [hsplit, exprLength?_eq_some hother] at hlength
  exact Nat.le_of_eq (Option.some.inj hlength).symm

theorem Encloses.exprLength? {text expr after : List Char} (h : Encloses text expr after) :
    exprLength? 0 text = some expr.length := by
  rw [h.split]
  exact exprLength?_eq_some h.balanced after

theorem Encloses.take_eq {text expr after : List Char} (h : Encloses text expr after) :
    text.take expr.length = expr := by
  rw [h.split]
  exact List.take_left

theorem Encloses.drop_eq {text expr after : List Char} (h : Encloses text expr after) :
    text.drop (expr.length + 1) = after := by
  rw [h.split, List.append_cons]
  exact List.drop_left' (by rw [List.length_append, List.length_singleton])

theorem exists_encloses {text : List Char} {n : Nat} (h : exprLength? 0 text = some n) :
    ∃ expr after, Encloses text expr after ∧ expr.length = n := by
  obtain ⟨expr, after, rfl, hlength, hexpr⟩ := closes_of_exprLength? h
  obtain ⟨hbalanced⟩ := hexpr
  exact ⟨expr, after, encloses_of_balanced hbalanced after, hlength⟩

theorem unclosed_iff {text : List Char} : Unclosed text ↔ exprLength? 0 text = none := by
  constructor
  · intro h
    rw [Option.eq_none_iff_forall_ne_some]
    intro n hn
    obtain ⟨expr, after, hexpr, -⟩ := exists_encloses hn
    exact h expr after hexpr.split hexpr.balanced
  · rintro h expr after rfl hexpr
    rw [exprLength?_eq_some hexpr] at h
    cases h

section Steps

variable {eval : Nat → String → Except Failure String} {position : Nat} {c : Char}
  {rest expr after : List Char}

theorem chars_plain (hc : c ≠ '\\') :
    chars eval position (c :: rest) = (chars eval (position + 1) rest).map (c :: ·) :=
  chars.eq_6 _ _ _ _ (fun _ h => absurd h hc) (fun _ h => absurd h hc) (fun _ h => absurd h hc)
    fun _ _ h => absurd h hc

theorem chars_trailing : chars eval position ['\\'] = .ok ['\\'] := by
  have hnil : ∀ d (tail : List Char), ([] : List Char) ≠ d :: tail := fun _ _ h => by cases h
  rw [chars.eq_6 _ _ _ _ (fun _ _ => hnil _ _) (fun _ _ => hnil _ _) (fun _ _ => hnil _ _)
    fun _ _ _ => hnil _ _, chars]
  rfl

theorem chars_other (hescape : c ≠ '\\') (hopening : c ≠ '(') (hclosing : c ≠ ')') :
    chars eval position ('\\' :: c :: rest)
      = (chars eval (position + 2) rest).map ('\\' :: c :: ·) :=
  chars.eq_5 _ _ _ _ (fun h => absurd h hescape) (fun h => absurd h hopening)
    fun h => absurd h hclosing

theorem chars_unclosed (h : Unclosed rest) :
    chars eval position ('\\' :: '(' :: rest) = .ok ('\\' :: '(' :: rest) := by
  rw [chars, unclosed_iff.mp h]

theorem chars_value (h : Encloses rest expr after) :
    chars eval position ('\\' :: '(' :: rest) =
      (eval (position + 2) (String.ofList expr)).bind fun text =>
        (chars eval (position + expr.length + 3) after).map (text.toList ++ ·) := by
  rw [chars, h.exprLength?]
  simp only [h.take_eq, h.drop_eq]
  rfl

end Steps

/-- A property of what stands behind a place holds if it passes on to it over each thing that can stand
there. -/
theorem stretches {P : Nat → List Char → Prop} (nil : ∀ position, P position [])
    (plain : ∀ position c rest, c ≠ '\\' → P (position + 1) rest → P position (c :: rest))
    (backslash : ∀ position rest, P (position + 2) rest → P position ('\\' :: '\\' :: rest))
    (invalid : ∀ position rest, P position ('\\' :: ')' :: rest))
    (value : ∀ position expr after, Balanced expr → P (position + expr.length + 3) after →
      P position ('\\' :: '(' :: (expr ++ ')' :: after)))
    (unclosed : ∀ position rest, Unclosed rest → P position ('\\' :: '(' :: rest))
    (other : ∀ position c rest, c ≠ '\\' → c ≠ '(' → c ≠ ')' → P (position + 2) rest →
      P position ('\\' :: c :: rest))
    (trailing : ∀ position, P position ['\\']) (position : Nat) (cs : List Char) :
    P position cs := by
  induction position, cs using Expand.chars.induct with
  | case1 position => exact nil position
  | case2 position rest ih => exact backslash position rest ih
  | case3 position rest hlength => exact unclosed position rest (unclosed_iff.mpr hlength)
  | case4 position rest n hlength ih =>
      obtain ⟨expr, after, hexpr, rfl⟩ := exists_encloses hlength
      rw [hexpr.drop_eq] at ih
      rw [hexpr.split]
      exact value position expr after hexpr.balanced ih
  | case5 position rest => exact invalid position rest
  | case6 position c rest hescape hopening hclosing ih =>
      exact other position c rest hescape hopening hclosing ih
  | case7 position c rest hescape hopening hclosing hother ih =>
      by_cases hc : c = '\\'
      · cases rest with
        | nil => exact hc ▸ trailing position
        | cons d rest => exact (hother d rest hc rfl).elim
      · exact plain position c rest hc ih

end ApiProbe.Expand
