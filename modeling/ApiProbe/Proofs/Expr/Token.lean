import ApiProbe.Proofs.Expr.Grammar

/-!
# Tokens in front of a gap

A blank behind a text leaves the tokens in the text as they are, and the only thing that a blank may
end up in is a string that the text leaves open.
-/

namespace ApiProbe.Expr

open Text (isDecimal)

section Number

variable {c : Char} {rest gap : List Char} {n : Nat}

theorem digitCount_append_apart (hgap : Apart gap) (cs : List Char) :
    digitCount (cs ++ gap) = digitCount cs := by
  rw [digitCount, Text.takeWhile_append_of_head (decimal_of_ends hgap.ends), digitCount]

theorem digitCount_le (cs : List Char) : digitCount cs ≤ cs.length :=
  (List.takeWhile_prefix isDecimal).length_le

def signLength : List Char → Nat
  | d :: _ => if d == '+' || d == '-' then 1 else 0
  | [] => 0

theorem signLength_append (hgap : Apart gap) (cs : List Char) :
    signLength (cs ++ gap) = signLength cs := by
  cases cs with
  | cons d ds => rfl
  | nil =>
      cases gap with
      | nil => rfl
      | cons d ds => rcases hgap d rfl with rfl | rfl <;> rfl

theorem signLength_le (cs : List Char) : signLength cs ≤ cs.length := by
  cases cs with
  | nil => exact Nat.le.refl
  | cons d ds =>
      rw [signLength, List.length_cons]
      split <;> omega

theorem exponentLength_cons (c : Char) (cs : List Char) : exponentLength (c :: cs) =
    if c == 'e' || c == 'E' then
      if digitCount (cs.drop (signLength cs)) = 0 then 0
      else 1 + signLength cs + digitCount (cs.drop (signLength cs))
    else 0 :=
  rfl

theorem exponentLength_append (hgap : Apart gap) (cs : List Char) :
    exponentLength (cs ++ gap) = exponentLength cs := by
  cases cs with
  | nil => exact exponentLength_of_ends hgap.ends
  | cons c cs =>
      rw [List.cons_append, exponentLength_cons, exponentLength_cons, signLength_append hgap,
        List.drop_append_of_le_length (signLength_le cs), digitCount_append_apart hgap]

theorem exponentLength_le (cs : List Char) : exponentLength cs ≤ cs.length := by
  cases cs with
  | nil => exact Nat.le.refl
  | cons c cs =>
      have hsign := signLength_le cs
      have hcount := digitCount_le (cs.drop (signLength cs))
      rw [List.length_drop] at hcount
      rw [exponentLength_cons, List.length_cons]
      split
      · split <;> omega
      · exact Nat.zero_le _

theorem fractionCount_append (hgap : Apart gap) (cs : List Char) :
    fractionCount (cs ++ gap) = fractionCount cs := by
  cases cs with
  | nil => exact fractionCount_of_ends hgap.ends
  | cons c cs =>
      by_cases hc : c = '.'
      · subst hc
        exact digitCount_append_apart hgap cs
      · simp [fractionCount, hc]

theorem fractionCount_le (cs : List Char) (h : fractionCount cs ≠ 0) :
    1 + fractionCount cs ≤ cs.length := by
  unfold fractionCount at h ⊢
  split at h
  · rename_i digits
    have hcount := digitCount_le digits
    simp only [List.length_cons]
    omega
  · exact absurd rfl h

theorem floatMore?_append_apart (hgap : Apart gap) (c : Char) (cs : List Char) :
    floatMore? c (cs ++ gap) = floatMore? c cs := by
  by_cases hc : isDecimal c = true
  · obtain ⟨whole, after, rfl, hwhole, hafter⟩ := exists_digits_eq cs
    have hdigits : ∀ d ∈ c :: whole, isDecimal d = true := List.forall_mem_cons.mpr ⟨hc, hwhole⟩
    have hstop : ∀ d ∈ (after ++ gap).head?, isDecimal d = false := by
      cases after with
      | nil => exact decimal_of_ends hgap.ends
      | cons d ds => exact hafter
    rw [List.append_assoc, floatMore?_append hdigits hstop, floatMore?_append hdigits hafter,
      fractionCount_append hgap, exponentLength_append hgap]
    split
    · rename_i hfraction
      rw [List.drop_append_of_le_length (fractionCount_le after (bne_iff_ne.mp hfraction)),
        exponentLength_append hgap]
    · rfl
  · rw [floatMore?, floatMore?, if_neg hc, if_neg hc]

theorem floatMore?_le (h : floatMore? c rest = some n) : n ≤ rest.length := by
  by_cases hc : isDecimal c = true
  · obtain ⟨whole, after, rfl, hwhole, hafter⟩ := exists_digits_eq rest
    rw [floatMore?_append (List.forall_mem_cons.mpr ⟨hc, hwhole⟩) hafter] at h
    rw [List.length_append]
    split at h
    · rename_i hfraction
      have hcount := fractionCount_le after (bne_iff_ne.mp hfraction)
      have hexponent := exponentLength_le (after.drop (1 + fractionCount after))
      rw [List.length_drop] at hexponent
      obtain rfl := Option.some.inj h
      omega
    · split at h
      · have hexponent := exponentLength_le after
        obtain rfl := Option.some.inj h
        omega
      · cases h
  · rw [floatMore?, if_neg hc] at h
    cases h

end Number

section Token

variable {c : Char} {rest gap : List Char} {t : Terminal} {n : Nat} {accepted : Terminal → Bool}

theorem testMore?_append (hgap : Apart gap) (c : Char) (rest : List Char) :
    testMore? c (rest ++ gap) = testMore? c rest := by
  by_cases hc : Terminal.test.startsWith c = true
  · have hsigns : c ∈ ['=', '!', '<', '>'] := List.contains_iff_mem.mp hc
    cases rest with
    | cons d ds =>
        simp only [List.mem_cons, List.not_mem_nil, or_false] at hsigns
        rcases hsigns with rfl | rfl | rfl | rfl <;>
          (rw [List.cons_append, testMore?.eq_def, testMore?.eq_def]; split <;> simp_all)
    | nil =>
        cases gap with
        | nil => rfl
        | cons d ds =>
            simp only [List.mem_cons, List.not_mem_nil, or_false] at hsigns
            rcases hgap d rfl with rfl | rfl <;> rcases hsigns with rfl | rfl | rfl | rfl <;> rfl
  · rw [Bool.not_eq_true] at hc
    exact (Terminal.more?_eq_none (t := .test) hc).trans
      (Terminal.more?_eq_none (t := .test) hc).symm

theorem isPrefixOf_dots_append (hgap : Apart gap) (rest : List Char) :
    ['.', '.'].isPrefixOf (rest ++ gap) = ['.', '.'].isPrefixOf rest := by
  have hhead {ds : List Char} : ['.'].isPrefixOf (ds ++ gap) = ['.'].isPrefixOf ds := by
    cases ds with
    | cons d ds => rfl
    | nil =>
        cases gap with
        | nil => rfl
        | cons d ds => rcases hgap d rfl with rfl | rfl <;> rfl
  cases rest with
  | cons d ds => rw [List.cons_append, List.isPrefixOf, List.isPrefixOf, hhead]
  | nil =>
      cases gap with
      | nil => rfl
      | cons d ds => rcases hgap d rfl with rfl | rfl <;> rfl

theorem stringMore?_append {cs : List Char} (h : stringMore? cs = some n) (rest : List Char) :
    n ≤ cs.length ∧ stringMore? (cs ++ rest) = some n := by
  fun_induction stringMore? cs generalizing n with
  | case1 => cases h
  | case2 =>
      obtain rfl := Option.some.inj h
      exact ⟨Nat.succ_le_succ (Nat.zero_le _), rfl⟩
  | case3 => cases h
  | case4 c cs hline ih =>
      obtain ⟨k, hk, rfl⟩ := Option.map_eq_some_iff.mp h
      obtain ⟨hle, hmore⟩ := ih hk
      refine ⟨by simpa using hle, ?_⟩
      rw [List.cons_append, List.cons_append, stringMore?_escaped _ (by simpa using hline), hmore]
      rfl
  | case5 => cases h
  | case6 c cs hquote _ hplain ih =>
      obtain ⟨k, hk, rfl⟩ := Option.map_eq_some_iff.mp h
      obtain ⟨hle, hmore⟩ := ih hk
      have hbreaks : c ≠ '\\' ∧ c ≠ '\n' := by simpa using hplain
      refine ⟨by simpa using hle, ?_⟩
      rw [List.cons_append, stringMore?_plain _ hquote hbreaks.1 hbreaks.2, hmore]
      rfl

/-- A gap behind a text changes nothing about the tokens in it, but for an open string. -/
theorem more?_append (h : AtToken c rest) (hclosed : c = '"' → (stringMore? rest).isSome)
    (hgap : Apart gap) (t : Terminal) : t.more? c (rest ++ gap) = t.more? c rest := by
  have hmarks : ∀ d ∈ [' ', '\t'], Value.isLabelRest d = false :=
    List.all_iff_forall_prop.mp (by decide)
  cases t with
  | float => exact floatMore?_append_apart hgap c rest
  | test => exact testMore?_append hgap c rest
  | name =>
      rw [Terminal.more?, Terminal.more?, nameMore?, nameMore?, Text.takeWhile_append_of_head]
      intro d hd
      exact hmarks d (List.mem_pair.mpr (hgap d hd))
  | separator =>
      exact (h.append hgap).separatorMore?_eq_none.trans h.separatorMore?_eq_none.symm
  | string =>
      rw [Terminal.more?, Terminal.more?]
      split
      · rename_i hc
        obtain ⟨n, hn⟩ := Option.isSome_iff_exists.mp (hclosed (beq_iff_eq.mp hc))
        rw [hn, (stringMore?_append hn gap).2]
      · rfl
  | int => rw [Terminal.more?, Terminal.more?, digitCount_append_apart hgap]
  | ellipsis => rw [Terminal.more?, Terminal.more?, isPrefixOf_dots_append hgap]
  | _ => rfl

theorem lexeme?_eq (h : AtToken c rest) (accepted : Terminal → Bool) : lexeme? accepted c rest =
    (firstToken? c rest (Terminal.early.filter accepted)).or
      (firstToken? c rest (Terminal.late.filter accepted)) := by
  rw [lexeme?, h.commentMore?_eq_none, blankMore?, if_neg (by simp [h.notSkipped])]
  rfl

theorem lexeme?_append (h : AtToken c rest) (hclosed : c = '"' → (stringMore? rest).isSome)
    (hgap : Apart gap) (accepted : Terminal → Bool) :
    lexeme? accepted c (rest ++ gap) = lexeme? accepted c rest := by
  have hfirst (terminals : List Terminal) :
      firstToken? c (rest ++ gap) terminals = firstToken? c rest terminals := by
    simp only [firstToken?, more?_append h hclosed hgap]
  rw [lexeme?_eq (h.append hgap), lexeme?_eq h, hfirst, hfirst]

theorem exists_more?_of_lexeme? (h : AtToken c rest) {lexeme : Lexeme}
    (hlexeme : lexeme? accepted c rest = some lexeme) :
    ∃ t n, lexeme = .token t n ∧ t.more? c rest = some n := by
  have hfirst {terminals : List Terminal} (hfound : firstToken? c rest terminals = some lexeme) :
      ∃ t n, lexeme = .token t n ∧ t.more? c rest = some n := by
    obtain ⟨t, -, ht⟩ := List.exists_of_findSome?_eq_some hfound
    obtain ⟨n, hn, rfl⟩ := Option.map_eq_some_iff.mp ht
    exact ⟨t, n, rfl, hn⟩
  rw [lexeme?_eq h] at hlexeme
  exact (Option.or_eq_some_iff.mp hlexeme).elim hfirst fun hlate => hfirst hlate.2

theorem stringMore?_of_more? (h : t.more? '"' rest = some n) : stringMore? rest = some n := by
  have hother : ∀ t : Terminal, t ≠ .string → t.startsWith '"' = false := by
    intro t ht
    cases t <;> first | rfl | exact absurd rfl ht
  by_cases ht : t = .string
  · subst ht
    exact h
  · rw [Terminal.more?_eq_none (hother t ht)] at h
    cases h

/-- The characters start no string and no comment. -/
def Plain (cs : List Char) : Prop :=
  ∀ c ∈ cs, c ≠ '"' ∧ c ≠ '/'

theorem plain_nil : Plain [] :=
  List.forall_mem_nil _

theorem plain_of_forall {p : Char → Bool} (hquote : p '"' = false) (hslash : p '/' = false)
    {cs : List Char} (h : ∀ c ∈ cs, p c = true) : Plain cs := by
  intro c hc
  constructor
  · rintro rfl
    exact Bool.false_ne_true (hquote.symm.trans (h _ hc))
  · rintro rfl
    exact Bool.false_ne_true (hslash.symm.trans (h _ hc))

theorem plain_takeWhile {p : Char → Bool} (hquote : p '"' = false) (hslash : p '/' = false)
    (cs : List Char) : Plain (cs.takeWhile p) :=
  plain_of_forall hquote hslash fun _ hc => List.mem_takeWhile_imp hc

theorem IsDigits.plain {cs : List Char} (h : IsDigits cs) : Plain cs :=
  plain_of_forall (p := isDecimal) (by decide) (by decide) h.2

theorem IsExponent.plain {cs : List Char} (h : IsExponent cs) : Plain cs := by
  have hletters : ∀ c ∈ ['e', 'E'], c ≠ '"' ∧ c ≠ '/' :=
    List.all_iff_forall_prop.mp (by decide)
  have hsigns : ∀ c ∈ ['+', '-'], c ≠ '"' ∧ c ≠ '/' :=
    List.all_iff_forall_prop.mp (by decide)
  cases h with
  | unsigned hletter h =>
      exact List.forall_mem_cons.mpr ⟨hletters _ (List.mem_pair.mpr hletter), h.plain⟩
  | signed hletter hsign h =>
      exact List.forall_mem_cons.mpr ⟨hletters _ (List.mem_pair.mpr hletter),
        List.forall_mem_cons.mpr ⟨hsigns _ (List.mem_pair.mpr hsign), h.plain⟩⟩

theorem IsFloat.plain {cs : List Char} (h : IsFloat cs) : Plain cs := by
  cases h with
  | fraction hwhole hdigits h =>
      refine List.forall_mem_append.mpr ⟨hwhole.plain, List.forall_mem_cons.mpr ⟨by decide, ?_⟩⟩
      refine List.forall_mem_append.mpr ⟨hdigits.plain, ?_⟩
      rcases h with rfl | h
      · exact plain_nil
      · exact h.plain
  | exponent hwhole h => exact List.forall_mem_append.mpr ⟨hwhole.plain, h.plain⟩

theorem testMore?_inside (h : testMore? c rest = some n) : n ≤ rest.length ∧ Plain (rest.take n) := by
  rw [testMore?.eq_def] at h
  split at h
  all_goals cases h
  all_goals first
    | exact ⟨Nat.zero_le _, plain_nil⟩
    | exact ⟨Nat.succ_le_succ (Nat.zero_le _), List.forall_mem_singleton.mpr (by decide)⟩

/-- A token is inside the text and, unless it is a string, no string and no comment starts in it. -/
theorem more?_inside (h : AtToken c rest) (hmore : t.more? c rest = some n) :
    n ≤ rest.length ∧ (c ≠ '"' → Plain (rest.take n)) := by
  suffices hinside : c ≠ '"' → n ≤ rest.length ∧ Plain (rest.take n) by
    by_cases hquote : c = '"'
    · subst hquote
      have hlength := (stringMore?_append (stringMore?_of_more? hmore) []).1
      exact ⟨hlength, fun hquote => absurd rfl hquote⟩
    · exact ⟨(hinside hquote).1, fun _ => (hinside hquote).2⟩
  intro hquote
  cases t with
  | float => exact ⟨floatMore?_le hmore, (List.forall_mem_cons.mp (isFloat_take hmore).plain).2⟩
  | test => exact testMore?_inside hmore
  | name =>
      rw [Terminal.more?, nameMore?] at hmore
      split at hmore
      · obtain rfl := Option.some.inj hmore
        rw [take_takeWhile]
        exact ⟨(List.takeWhile_prefix _).length_le, plain_takeWhile (by decide) (by decide) rest⟩
      · cases hmore
  | separator =>
      rw [Terminal.more?, h.separatorMore?_eq_none] at hmore
      cases hmore
  | string =>
      rw [Terminal.more?, if_neg (by simpa using hquote)] at hmore
      cases hmore
  | int =>
      rw [Terminal.more?] at hmore
      split at hmore
      · obtain rfl := Option.some.inj hmore
        rw [digitCount, take_takeWhile]
        exact ⟨(List.takeWhile_prefix _).length_le, plain_takeWhile (by decide) (by decide) rest⟩
      · cases hmore
  | ellipsis =>
      rw [Terminal.more?] at hmore
      split at hmore
      · rename_i hdots
        rw [Bool.and_eq_true] at hdots
        obtain ⟨cs, rfl⟩ := List.isPrefixOf_iff_prefix.mp hdots.2
        obtain rfl := Option.some.inj hmore
        exact ⟨Nat.le_add_left _ _, List.forall_mem_cons.mpr ⟨by decide,
          List.forall_mem_singleton.mpr (by decide)⟩⟩
      · cases hmore
  | finish => cases hmore
  | _ =>
      obtain rfl := Option.some.inj (Option.ite_none_right_eq_some.mp hmore).2
      exact ⟨Nat.zero_le _, plain_nil⟩

end Token

end ApiProbe.Expr
