import ApiProbe.Proofs.Http.ReadBack

/-!
# Headers that are injected

An injector puts headers into a request, for each name the first or the last one that it has of it. The
headers that arguments give come from a list in which every spelling of a name stands for itself, so it is
the spelling given first that counts.
-/

namespace ApiProbe.Http

/-- The values of the headers of a name, in order. -/
def valuesOf (name : String) (headers : List Header) : List String :=
  (headers.filter (sameName ·.name name)).map (·.value)

section Names

variable {name : String} {h : Header} {headers : List Header}

theorem sameName_comm (a b : String) : sameName a b = sameName b a :=
  Bool.beq_comm

theorem sameName_congr {a b : String} (h : sameName a b = true) (c : String) :
    sameName c a = sameName c b := by
  rw [sameName, sameName, sameName_iff.mp h]

theorem header?_congr {a b : String} (h : sameName a b = true) (headers : List Header) :
    header? a headers = header? b headers := by
  induction headers with
  | nil => rfl
  | cons k headers ih => rw [header?, header?, sameName_congr h, ih]

theorem header?_cons (h : Header) (headers : List Header) :
    header? name (h :: headers)
      = (if sameName h.name name then some h.value else none).or (header? name headers) := by
  rw [header?]
  split <;> rfl

theorem header?_append (first second : List Header) :
    header? name (first ++ second) = (header? name first).or (header? name second) := by
  induction first with
  | nil => rfl
  | cons h first ih => rw [List.cons_append, header?_cons, header?_cons, ih, Option.or_assoc]

theorem valuesOf_cons (h : Header) (headers : List Header) :
    valuesOf name (h :: headers) = (if sameName h.name name then [h.value] else []) ++
      valuesOf name headers := by
  rw [valuesOf, List.filter_cons]
  split <;> rfl

theorem header?_eq_head? : header? name headers = (valuesOf name headers).head? := by
  induction headers with
  | nil => rfl
  | cons h headers ih =>
      rw [header?_cons, valuesOf_cons, List.head?_append, ih]
      split <;> rfl

theorem header?_eq_none_iff :
    header? name headers = none ↔ ∀ h ∈ headers, sameName h.name name = false := by
  rw [header?_eq_head?, List.head?_eq_none_iff, valuesOf, List.map_eq_nil_iff, List.filter_eq_nil_iff]
  simp only [Bool.not_eq_true]

theorem getLast?_valuesOf_cons (h : Header) (headers : List Header) :
    (valuesOf name (h :: headers)).getLast?
      = (valuesOf name headers).getLast?.or (if sameName h.name name then some h.value else none) := by
  rw [valuesOf_cons, List.getLast?_append]
  split <;> rfl

theorem header?_setHeader (h : Header) (headers : List Header) :
    header? name (setHeader h.name h.value headers)
      = (if sameName h.name name then some h.value else none).or (header? name headers) := by
  rw [setHeader, header?_append]
  by_cases hsame : sameName h.name name = true
  · have hgone : header? name (headers.filter fun k => !sameName k.name h.name) = none := by
      refine header?_eq_none_iff.mpr fun k hk => ?_
      rw [← sameName_congr hsame]
      simpa using (List.mem_filter.mp hk).2
    rw [hgone, Option.none_or, header?, if_pos hsame, if_pos hsame, Option.some_or]
  · have hkept : header? name (headers.filter fun k => !sameName k.name h.name)
        = header? name headers := by
      rw [header?_eq_head?, header?_eq_head?, valuesOf, valuesOf, List.filter_filter]
      congr 2
      refine List.filter_congr fun k _ => ?_
      cases hname : sameName k.name name with
      | false => rfl
      | true =>
          rw [sameName_comm, sameName_congr hname, Bool.eq_false_of_not_eq_true hsame]
          rfl
    rw [hkept, header?, if_neg hsame, if_neg hsame, Option.none_or]
    exact Option.or_none

end Names

/-- Puts a header in, unless one of that name is there that stays. -/
def putHeader (override : Bool) (headers : List Header) (h : Header) : List Header :=
  if override || (header? h.name headers).isNone then setHeader h.name h.value headers else headers

theorem Injector.apply_eq (injector : Injector) (r : Request) :
    injector.apply r
      = { r with headers := injector.headers.foldl (putHeader injector.override) r.headers } := by
  obtain ⟨headers, override⟩ := injector
  rw [Injector.apply]
  dsimp only
  induction headers generalizing r with
  | nil => rfl
  | cons h headers ih =>
      rw [List.foldl_cons, List.foldl_cons, ih, putHeader]
      unfold Request.header? Request.withHeader
      split <;> rfl

section Injection

variable {override : Bool} {name : String} {headers : List Header}

theorem namesDiffer_foldl_putHeader (injected : List Header) (h : NamesDiffer headers) :
    NamesDiffer (injected.foldl (putHeader override) headers) := by
  refine List.foldlRecOn injected _ h fun done hdone k _ => ?_
  rw [putHeader]
  split
  · exact namesDiffer_setHeader hdone
  · exact hdone

/-- A header that is put in without overriding is seen where there was none. -/
theorem header?_putHeader_false (h : Header) :
    header? name (putHeader false headers h)
      = (header? name headers).or (if sameName h.name name then some h.value else none) := by
  rw [putHeader, Bool.false_or]
  split <;> rename_i hnone
  · rw [header?_setHeader]
    split <;> rename_i hsame
    · rw [header?_congr hsame, Option.isNone_iff_eq_none] at hnone
      rw [hnone]
      rfl
    · rw [Option.or_none, Option.none_or]
  · split <;> rename_i hsame
    · rw [header?_congr hsame, Bool.not_eq_true, Option.isNone_eq_false_iff] at hnone
      obtain ⟨value, hvalue⟩ := Option.isSome_iff_exists.mp hnone
      rw [hvalue, Option.some_or]
    · rw [Option.or_none]

theorem header?_foldl_putHeader_false (injected : List Header) :
    header? name (injected.foldl (putHeader false) headers)
      = (header? name headers).or (header? name injected) := by
  induction injected generalizing headers with
  | nil => rw [List.foldl_nil, header?, Option.or_none]
  | cons h injected ih =>
      rw [List.foldl_cons, ih, header?_putHeader_false, header?_cons, Option.or_assoc]

theorem foldl_putHeader_true (injected : List Header) :
    injected.foldl (putHeader true) headers
      = headers.filter (fun h => !injected.any (sameName h.name ·.name)) ++ lastOfEach injected :=
  foldl_setHeader injected headers

theorem header?_foldl_putHeader_true (injected : List Header) :
    header? name (injected.foldl (putHeader true) headers)
      = (valuesOf name injected).getLast?.or (header? name headers) := by
  induction injected generalizing headers with
  | nil => rfl
  | cons h injected ih =>
      rw [List.foldl_cons, ih, getLast?_valuesOf_cons, Option.or_assoc]
      exact congrArg _ (header?_setHeader h headers)

/-- Headers whose names are all there already change nothing. -/
theorem foldl_putHeader_of_present {injected : List Header}
    (h : ∀ k ∈ injected, (header? k.name headers).isSome = true) :
    injected.foldl (putHeader false) headers = headers := by
  induction injected with
  | nil => rfl
  | cons k injected ih =>
      rw [List.forall_mem_cons] at h
      have hkeep : putHeader false headers k = headers := by
        rw [putHeader, Bool.false_or, Option.isNone_eq_false_iff.mpr h.1, if_neg Bool.false_ne_true]
      rw [List.foldl_cons, hkeep, ih h.2]

theorem lastOfEach_subset (headers : List Header) : lastOfEach headers ⊆ headers := by
  induction headers with
  | nil => exact List.Subset.refl _
  | cons h headers ih =>
      rw [lastOfEach]
      split
      · exact List.subset_cons_of_subset _ ih
      · exact List.cons_subset_cons _ ih

theorem foldl_putHeader_twice (injected : List Header) :
    injected.foldl (putHeader override) (injected.foldl (putHeader override) headers)
      = injected.foldl (putHeader override) headers := by
  cases override with
  | false =>
      refine foldl_putHeader_of_present fun k hk => ?_
      have hk : (header? k.name injected).isSome = true := by
        rw [Option.isSome_iff_ne_none, Ne, header?_eq_none_iff]
        intro hnone
        exact absurd (sameName_iff.mpr rfl) (Bool.not_eq_true _ ▸ hnone k hk)
      rw [header?_foldl_putHeader_false, Option.isSome_or, hk, Bool.or_true]
  | true =>
      have hlast : (lastOfEach injected).filter
          (fun h => !injected.any (sameName h.name ·.name)) = [] := by
        refine List.filter_eq_nil_iff.mpr fun k hk => ?_
        have hself : injected.any (sameName k.name ·.name) = true :=
          List.any_eq_true.mpr ⟨k, lastOfEach_subset injected hk, sameName_iff.mpr rfl⟩
        rw [hself]
        exact Bool.false_ne_true
      rw [foldl_putHeader_true, foldl_putHeader_true, List.filter_append, List.filter_filter, hlast,
        List.append_nil]
      simp only [Bool.and_self]

end Injection

/-- **Injection goes by names up to letter case.** Names that are different stay so, and nothing but the
headers changes. A header of the request counts more than any that is injected, of which the first one
counts; with override the last one that is injected counts more than the request's. To inject the same
headers again changes nothing. -/
theorem apply_respectsNames (injector : Injector) (r : Request) :
    let out := injector.apply r
    (NamesDiffer r.headers → NamesDiffer out.headers) ∧
      out.method = r.method ∧ out.url = r.url ∧ out.body = r.body ∧
      (injector.override = false → ∀ name,
        out.header? name = (r.header? name).or (valuesOf name injector.headers).head?) ∧
      (injector.override = true → ∀ name,
        out.header? name = (valuesOf name injector.headers).getLast?.or (r.header? name)) ∧
      injector.apply out = out := by
  obtain ⟨headers, override⟩ := injector
  intro out
  have hout : out = { r with headers := headers.foldl (putHeader override) r.headers } :=
    Injector.apply_eq _ r
  rw [hout]
  refine ⟨namesDiffer_foldl_putHeader headers, rfl, rfl, rfl, ?_, ?_, ?_⟩
  · rintro rfl name
    rw [← header?_eq_head?]
    exact header?_foldl_putHeader_false headers
  · rintro rfl name
    exact header?_foldl_putHeader_true headers
  · rw [Injector.apply_eq]
    exact congrArg (fun headers => { r with headers }) (foldl_putHeader_twice headers)

/-- Headers with two spellings of one name, put into a request that has a third. -/
theorem apply_respectsNames_three_spellings :
    let r : Request :=
      { method := "GET", url := "/", headers := [⟨"x-env", "local"⟩, ⟨"Accept", "*/*"⟩] }
    let headers : List Header := [⟨"X-Env", "ci"⟩, ⟨"X-Id", "1"⟩, ⟨"X-ENV", "dev"⟩, ⟨"x-id", "2"⟩]
    let kept := Injector.apply ⟨headers, false⟩ r
    let overridden := Injector.apply ⟨headers, true⟩ r
    NamesDiffer r.headers ∧ NamesDiffer kept.headers ∧ NamesDiffer overridden.headers ∧
      kept.header? "X-Env" = some "local" ∧ kept.header? "X-Id" = some "1" ∧
      overridden.header? "X-Env" = some "dev" ∧ overridden.header? "X-Id" = some "2" ∧
      Injector.apply ⟨headers, true⟩ overridden = overridden := by
  intro r headers kept overridden
  have hdiffer : NamesDiffer r.headers := by
    unfold NamesDiffer
    decide +kernel
  obtain ⟨hkeptNames, -, -, -, hkept, -, -⟩ := apply_respectsNames ⟨headers, false⟩ r
  obtain ⟨hnames, -, -, -, -, hlast, hagain⟩ := apply_respectsNames ⟨headers, true⟩ r
  refine ⟨hdiffer, hkeptNames hdiffer, hnames hdiffer, ?_, ?_, ?_, ?_, hagain⟩
  · rw [hkept rfl]
    decide +kernel
  · rw [hkept rfl]
    decide +kernel
  · rw [hlast rfl]
    decide +kernel
  · rw [hlast rfl]
    decide +kernel

/-! ### Arguments

Arguments are put one after the other into a list in which spellings of a name do not replace each other, so
the value of a name is found in two steps: the spelling that comes first, and the last value given in it. -/

/-- A header as an argument gives it: a name that is not blank, the first colon, and a value. -/
structure Argument where
  front : String
  back : String
  colon_notMem : ':' ∉ front.toList
  name_ne : Text.trim front ≠ ""

namespace Argument

def text (a : Argument) : String :=
  a.front ++ ":" ++ a.back

def header (a : Argument) : Header :=
  ⟨Text.trim a.front, Text.trim a.back⟩

end Argument

theorem ofLine?_text (a : Argument) : Header.ofLine? a.text = some a.header := by
  have hfront (c : Char) (hc : c ∈ a.front.toList) : (c != ':') = true :=
    bne_iff_ne.mpr fun heq => a.colon_notMem (heq ▸ hc)
  have hchars : a.text.toList = a.front.toList ++ ':' :: a.back.toList := by
    rw [Argument.text, String.toList_append, String.toList_append, List.append_assoc]
    rfl
  have hsplit : splitColon? a.text = some (a.front, a.back) := by
    rw [splitColon?, hchars, List.span_eq_takeWhile_dropWhile, List.takeWhile_append_of_pos hfront,
      List.dropWhile_append_of_pos hfront, List.takeWhile_cons_of_neg (by decide),
      List.dropWhile_cons_of_neg (by decide), List.append_nil]
    dsimp only
    rw [String.ofList_toList, String.ofList_toList]
  rw [Header.ofLine?, hsplit]
  exact if_neg (mt String.isEmpty_iff.mp a.name_ne)

theorem headersOfTexts_arguments (arguments : List Argument) :
    headersOfTexts (arguments.map Argument.text) = .ok (ofPairs (arguments.map Argument.header)) := by
  rw [headersOfTexts, ofPairs, List.foldlM_map, List.foldl_map]
  refine foldlM_eq_ok (fun done a _ => ?_) []
  rw [ofLine?_text]

/-- The first spelling of a name. -/
def spelling? (name : String) (headers : List Header) : Option String :=
  (headers.map (·.name)).find? (sameName · name)

/-- The values of exactly this spelling, in order. -/
def valuesSpelt (spelling : String) (headers : List Header) : List String :=
  (headers.filter (·.name == spelling)).map (·.value)

section Spellings

variable {name spelling : String} {headers : List Header}

theorem spelling?_cons (h : Header) (headers : List Header) :
    spelling? name (h :: headers)
      = (if sameName h.name name then some h.name else none).or (spelling? name headers) := by
  rw [spelling?, List.map_cons, List.find?_cons]
  cases sameName h.name name <;> rfl

theorem sameName_spelling? (h : spelling? name headers = some spelling) :
    sameName spelling name = true :=
  List.find?_some (p := (sameName · name)) h

theorem valuesSpelt_cons (h : Header) (headers : List Header) :
    valuesSpelt spelling (h :: headers) = (if h.name == spelling then [h.value] else []) ++
      valuesSpelt spelling headers := by
  rw [valuesSpelt, List.filter_cons]
  split <;> rfl

/-- The header of a name is the first one of its first spelling. -/
theorem header?_eq_bind : header? name headers
    = (spelling? name headers).bind fun spelling => (valuesSpelt spelling headers).head? := by
  induction headers with
  | nil => rfl
  | cons h headers ih =>
      rw [header?, spelling?_cons]
      split <;> rename_i hsame
      · rw [Option.some_or, Option.bind_some, valuesSpelt_cons, if_pos (beq_self_eq_true h.name)]
        rfl
      · rw [Option.none_or, ih]
        refine Option.bind_congr fun other hother => ?_
        have hne : ¬ (h.name == other) = true := fun heq =>
          hsame (eq_of_beq heq ▸ sameName_spelling? hother)
        rw [valuesSpelt_cons, if_neg hne, List.nil_append]

/-- A spelling that is there already changes nothing in which one is the first. -/
theorem spelling?_putExact (h : Header) (done : List Header) :
    spelling? name (putExact h done)
      = (spelling? name done).or (if sameName h.name name then some h.name else none) := by
  induction done with
  | nil =>
      rw [putExact, spelling?_cons]
      split <;> rfl
  | cons k done ih =>
      rw [putExact]
      split <;> rename_i heq
      · rw [spelling?_cons, spelling?_cons, eq_of_beq heq]
        split
        · rfl
        · exact Option.or_none.symm
      · rw [spelling?_cons, spelling?_cons, ih, Option.or_assoc]

theorem valuesSpelt_putExact (h : Header) (done : List Header) :
    (valuesSpelt spelling (putExact h done)).head?
      = (if h.name == spelling then some h.value else none).or (valuesSpelt spelling done).head? := by
  induction done with
  | nil =>
      rw [putExact, valuesSpelt_cons]
      split <;> rfl
  | cons k done ih =>
      rw [putExact]
      split <;> rename_i heq
      · rw [valuesSpelt_cons, valuesSpelt_cons, eq_of_beq heq]
        split <;> rfl
      · rw [valuesSpelt_cons, valuesSpelt_cons, List.head?_append, List.head?_append, ih]
        split <;> rename_i hk
        · have hne : ¬ (h.name == spelling) = true := fun hname =>
            heq (beq_iff_eq.mpr ((eq_of_beq hk).trans (eq_of_beq hname).symm))
          rw [if_neg hne]
          rfl
        · rfl

theorem spelling?_foldl_putExact (done : List Header) :
    spelling? name (headers.foldl (fun done h => putExact h done) done)
      = (spelling? name done).or (spelling? name headers) := by
  induction headers generalizing done with
  | nil => exact Option.or_none.symm
  | cons h headers ih => rw [List.foldl_cons, ih, spelling?_putExact, spelling?_cons, Option.or_assoc]

theorem valuesSpelt_foldl_putExact (done : List Header) :
    (valuesSpelt spelling (headers.foldl (fun done h => putExact h done) done)).head?
      = (valuesSpelt spelling headers).getLast?.or (valuesSpelt spelling done).head? := by
  induction headers generalizing done with
  | nil => rfl
  | cons h headers ih =>
      rw [List.foldl_cons, ih, valuesSpelt_putExact, valuesSpelt_cons, List.getLast?_append,
        Option.or_assoc]
      split <;> rfl

/-- Of headers that are put by their spelling, the one of a name is the last that is spelt as the first. -/
theorem header?_ofPairs : header? name (ofPairs headers)
    = (spelling? name headers).bind fun spelling => (valuesSpelt spelling headers).getLast? := by
  rw [header?_eq_bind, ofPairs, spelling?_foldl_putExact]
  exact Option.bind_congr fun spelling _ =>
    (valuesSpelt_foldl_putExact []).trans Option.or_none

/-- Where a name is spelt in one way only, its last value is the last of that spelling. -/
theorem getLast?_of_oneSpelling
    (h : ∀ a ∈ headers, ∀ b ∈ headers, sameName a.name name = true → sameName b.name name = true →
      a.name = b.name) :
    ((spelling? name headers).bind fun spelling => (valuesSpelt spelling headers).getLast?)
      = (valuesOf name headers).getLast? := by
  cases hspelling : spelling? name headers with
  | none =>
      have hnone : valuesOf name headers = [] := by
        rw [← List.head?_eq_none_iff, ← header?_eq_head?, header?_eq_bind, hspelling]
        rfl
      rw [hnone]
      rfl
  | some spelling =>
      obtain ⟨first, hfirst, rfl⟩ := List.mem_map.mp (List.mem_of_find?_eq_some hspelling)
      have hsame := sameName_spelling? hspelling
      rw [Option.bind_some, valuesSpelt, valuesOf]
      congr 2
      refine List.filter_congr fun k hk => ?_
      rw [Bool.eq_iff_iff, beq_iff_eq]
      exact ⟨fun heq => heq ▸ hsame, fun hname => h k hk first hfirst hname hsame⟩

end Spellings

/-- **Arguments are injected by spelling.** All arguments are accepted. A header that the request does not
have gets the last value that is given under the spelling that is given first, so the last value of all if
the name is spelt in one way only, and there is none if no argument names it. -/
theorem apply_arguments (arguments : List Argument) (r : Request) (name : String)
    (hnone : r.header? name = none) :
    ∃ headers, headersOfTexts (arguments.map Argument.text) = .ok headers ∧
      let given := arguments.map Argument.header
      let value := (Injector.apply ⟨headers, false⟩ r).header? name
      (value = (spelling? name given).bind fun spelling => (valuesSpelt spelling given).getLast?) ∧
        ((∀ a ∈ given, ∀ b ∈ given, sameName a.name name = true → sameName b.name name = true →
          a.name = b.name) → value = (valuesOf name given).getLast?) ∧
        ((∀ a ∈ given, sameName a.name name = false) → value = none) := by
  refine ⟨_, headersOfTexts_arguments arguments, ?_⟩
  intro given value
  have hinjected : value = header? name ((ofPairs given).foldl (putHeader false) r.headers) :=
    congrArg (Request.header? · name) (Injector.apply_eq _ r)
  have hvalue : value
      = (spelling? name given).bind fun spelling => (valuesSpelt spelling given).getLast? := by
    rw [hinjected, header?_foldl_putHeader_false, ← Request.header?, hnone, Option.none_or,
      header?_ofPairs]
  refine ⟨hvalue, fun hspelt => hvalue.trans (getLast?_of_oneSpelling hspelt), fun hnames => ?_⟩
  have hunspelt : spelling? name given = none := by
    rw [spelling?, List.find?_eq_none, List.forall_mem_map]
    exact fun a ha => Bool.not_eq_true _ ▸ hnames a ha
  rw [hvalue, hunspelt]
  rfl

/-- A name that is given three times, in two spellings, and one that is given twice in the same. -/
theorem apply_arguments_name_thrice :
    let arguments : List Argument :=
      [⟨"X-Id", " 1", by decide, by decide +kernel⟩, ⟨"x-id ", "2", by decide, by decide +kernel⟩,
        ⟨" X-Id", "3:4", by decide, by decide +kernel⟩, ⟨"Accept", "a", by decide, by decide +kernel⟩,
        ⟨"Accept", "b", by decide, by decide +kernel⟩]
    let r : Request := { method := "GET", url := "/", headers := [⟨"X-Env", "local"⟩] }
    r.header? "x-id" = none ∧ r.header? "ACCEPT" = none ∧ r.header? "X-No" = none ∧
      ∃ headers, headersOfTexts (arguments.map Argument.text) = .ok headers ∧
        (Injector.apply ⟨headers, false⟩ r).header? "x-id" = some "3:4" ∧
        (Injector.apply ⟨headers, false⟩ r).header? "ACCEPT" = some "b" ∧
        (Injector.apply ⟨headers, false⟩ r).header? "X-No" = none := by
  intro arguments r
  have hid : r.header? "x-id" = none := by decide +kernel
  have haccept : r.header? "ACCEPT" = none := by decide +kernel
  have hno : r.header? "X-No" = none := by decide +kernel
  obtain ⟨headers, hheaders, hfirst, -, -⟩ := apply_arguments arguments r "x-id" hid
  obtain ⟨headers', hheaders', -, hspelt, -⟩ := apply_arguments arguments r "ACCEPT" haccept
  obtain rfl := Except.ok.inj (hheaders.symm.trans hheaders')
  obtain ⟨headers', hheaders', -, -, hunnamed⟩ := apply_arguments arguments r "X-No" hno
  obtain rfl := Except.ok.inj (hheaders.symm.trans hheaders')
  refine ⟨hid, haccept, hno, headers, hheaders, ?_, ?_, hunnamed (by decide +kernel)⟩
  · rw [hfirst]
    decide +kernel
  · rw [hspelt (by decide +kernel)]
    decide +kernel

/-- Of two spellings of a name the one given last does not win, though it does where a request is read. -/
theorem apply_arguments_spellings :
    let arguments : List Argument :=
      [⟨"X-Id", " 1", by decide, by decide +kernel⟩, ⟨"x-id", " 2", by decide, by decide +kernel⟩]
    let r : Request := { method := "GET", url := "/" }
    r.header? "X-Id" = none ∧
      (valuesOf "X-Id" (arguments.map Argument.header)).getLast? = some "2" ∧
      (∃ headers, readHeaders [] (arguments.map Argument.text) = .ok (headers, []) ∧
        header? "X-Id" headers = some "2") ∧
      ∃ headers, headersOfTexts (arguments.map Argument.text) = .ok headers ∧
        (Injector.apply ⟨headers, false⟩ r).header? "X-Id" = some "1" := by
  intro arguments r
  refine ⟨rfl, by decide +kernel, ⟨[⟨"x-id", "2"⟩], ?_, by decide +kernel⟩, _,
    headersOfTexts_arguments arguments, by decide +kernel⟩
  have hread : (readHeaders [] (arguments.map Argument.text)).toOption = some ([⟨"x-id", "2"⟩], []) := by
    decide +kernel
  exact toOption_eq_some_iff.mp hread

end ApiProbe.Http
