import ApiProbe.Proofs.Result
import ApiProbe.Script.Section

/-!
# What parsers read

The parsers of the language read the lines that they report as taken and no others, and whatever they
refuse can be reported at the line of the command.
-/

namespace ApiProbe

/-- A result that takes lines says how many. It is the same whatever stands behind these, unless they go
up to the end. -/
def Script.Confined {α : Type} (read : List Script.Line → Except Failure (Script.Taken α)) : Prop :=
  ∀ lines taken, read lines = .ok taken → taken.count ≤ lines.length ∧
    (taken.count = lines.length ∨ ∀ others, read (lines.take taken.count ++ others) = .ok taken)

def Parser.Confined (parser : Parser) : Prop :=
  ∀ remainder, Script.Confined (parser remainder)

namespace Script

theorem confined_takeUntil (terminator : String) : Confined (takeUntil terminator) := by
  intro lines
  induction lines with
  | nil =>
      intro taken h
      obtain rfl := Except.ok.inj h
      exact ⟨Nat.le_refl 0, Or.inl rfl⟩
  | cons line lines ih =>
      intro taken h
      cases line with
      | error error => cases h
      | ok raw =>
          rw [takeUntil] at h
          split at h
          · rename_i hterminator
            obtain rfl := Except.ok.inj h
            refine ⟨Nat.succ_le_succ (Nat.zero_le _), Or.inr fun others => ?_⟩
            rw [List.take_succ_cons, List.take_zero, List.singleton_append, takeUntil]
            exact if_pos hterminator
          · rename_i hterminator
            obtain ⟨first, hfirst, rfl⟩ := map_eq_ok_iff.mp h
            obtain ⟨hle, hends⟩ := ih first hfirst
            refine ⟨Nat.succ_le_succ hle, hends.imp (congrArg (· + 1)) fun hothers others => ?_⟩
            rw [List.take_succ_cons, List.cons_append, takeUntil, hothers others]
            exact if_neg hterminator

theorem Confined.const {α : Type} (result : α) : Confined fun _ => .ok ⟨result, 0⟩ := by
  intro lines taken h
  obtain rfl := Except.ok.inj h
  exact ⟨Nat.zero_le _, Or.inr fun _ => rfl⟩

theorem Confined.error {α : Type} (failure : Failure) :
    Confined (α := α) fun _ => .error failure :=
  nofun

/-- What is made of a result that is confined is confined. -/
theorem Confined.bind {α β γ : Type} {read : List Line → Except Failure (Taken α)}
    (h : Confined read) (make : α → Except Failure β) (build : β → γ) :
    Confined fun lines => do
      let taken ← read lines
      let result ← make taken.result
      return ⟨build result, taken.count⟩ := by
  intro lines taken hread
  obtain ⟨first, hfirst, hread⟩ := bind_eq_ok_iff.mp hread
  obtain ⟨result, hresult, hread⟩ := bind_eq_ok_iff.mp hread
  obtain rfl := Except.ok.inj hread
  obtain ⟨hle, hends⟩ := h lines first hfirst
  refine ⟨hle, hends.imp id fun hothers others => ?_⟩
  exact bind_eq_ok_iff.mpr ⟨first, hothers others, bind_eq_ok_iff.mpr ⟨result, hresult, rfl⟩⟩

theorem Confined.map {α β : Type} {read : List Line → Except Failure (Taken α)}
    (h : Confined read) (build : α → β) :
    Confined fun lines => (read lines).map fun taken => ⟨build taken.result, taken.count⟩ := by
  intro lines taken hread
  obtain ⟨first, hfirst, rfl⟩ := map_eq_ok_iff.mp hread
  obtain ⟨hle, hends⟩ := h lines first hfirst
  refine ⟨hle, hends.imp id fun hothers others => ?_⟩
  exact map_eq_ok_iff.mpr ⟨first, hothers others, rfl⟩

theorem confined_takePayload (remainder : String) : Confined (takePayload remainder) := by
  unfold takePayload
  split
  · cases terminatorOf remainder with
    | error failure => exact Confined.error failure
    | ok terminator => exact (confined_takeUntil terminator).map ("\n".intercalate ·)
  · exact Confined.const remainder

end Script

theorem Http.confined_readRequest (remainder : String) : Script.Confined (readRequest remainder) := by
  unfold readRequest
  cases requestWords remainder with
  | error failure => exact Script.Confined.error failure
  | ok words =>
      obtain ⟨terminator, method, url⟩ := words
      dsimp only [Bind.bind, Except.bind]
      split
      · exact Script.Confined.error _
      · cases terminator with
        | none => exact Script.Confined.const _
        | some terminator =>
            exact (Script.confined_takeUntil terminator).bind (readHeaders []) fun read =>
              Request.mk (Text.upper method) url read.1 ("\n".intercalate read.2)

namespace Parser

theorem confined_ofText (make : String → Command) : (ofText make).Confined :=
  fun remainder => (Script.confined_takePayload remainder).map make

theorem confined_http : http.Confined :=
  fun remainder => (Http.confined_readRequest remainder).map Command.http

end Parser

/-- Something that is reported at the line of the command that it comes from. -/
inductive Failure.Reportable : Failure → Prop
  | problem {p : Problem} (hkind : p.kind.isParse = true) (hsource : p.source = none)
      (hline : p.line = none) : Reportable (.problem p)
  | fault {fault : Fault} (h : fault.isInvalid = true) : Reportable (.fault fault)

def FailsReportably {α : Type} (x : Except Failure α) : Prop :=
  ∀ failure, x = .error failure → failure.Reportable

def Parser.Reports (parser : Parser) : Prop :=
  ∀ remainder lines, FailsReportably (parser remainder lines)

theorem Failure.Reportable.report {failure : Failure} (h : failure.Reportable)
    (source keyword : String) (line : Nat) :
    ∃ p, Script.reportParse source keyword line failure = .problem p ∧ p.kind.isParse = true ∧
      p.source = some source ∧ p.line = some (line : Int) := by
  cases h with
  | problem hkind hsource hline =>
      refine ⟨_, if_pos hkind, hkind, ?_, ?_⟩
      · rw [Problem.locate, hsource, Option.none_or]
      · rw [Problem.locate, hline, Option.none_or]
  | fault h => exact ⟨_, if_pos h, rfl, rfl, rfl⟩

section Reports

variable {α β : Type}

theorem FailsReportably.bind {x : Except Failure α} {f : α → Except Failure β}
    (hx : FailsReportably x) (hf : ∀ a, FailsReportably (f a)) : FailsReportably (x >>= f) := by
  intro failure h
  rcases bind_eq_error_iff.mp h with h | ⟨a, -, h⟩
  · exact hx failure h
  · exact hf a failure h

theorem FailsReportably.map {x : Except Failure α} (hx : FailsReportably x) (f : α → β) :
    FailsReportably (x.map f) :=
  fun failure h => hx failure (map_eq_error_iff.mp h)

theorem failsReportably_ok (a : α) : FailsReportably (.ok a) :=
  nofun

theorem failsReportably_problem {kind : ProblemKind} (h : kind.isParse = true) (message : String) :
    FailsReportably (α := α) (.error (.problem { kind, message })) := by
  intro failure hfailure
  obtain rfl := Except.error.inj hfailure
  exact .problem h rfl rfl

end Reports

namespace Script

theorem failsReportably_takeUntil (terminator : String) (lines : List Line) :
    FailsReportably (takeUntil terminator lines) := by
  induction lines with
  | nil => exact failsReportably_ok _
  | cons line lines ih =>
      cases line with
      | error error =>
          intro failure h
          obtain rfl := Except.error.inj h
          exact .fault rfl
      | ok raw =>
          rw [takeUntil]
          split
          · exact failsReportably_ok _
          · exact ih.map _

theorem failsReportably_terminatorOf (token : String) : FailsReportably (terminatorOf token) := by
  unfold terminatorOf
  dsimp only
  split
  · exact failsReportably_problem rfl _
  · exact failsReportably_ok _

theorem failsReportably_takePayload (remainder : String) (lines : List Line) :
    FailsReportably (takePayload remainder lines) := by
  unfold takePayload
  split
  · exact (failsReportably_terminatorOf remainder).bind fun terminator =>
      (failsReportably_takeUntil terminator lines).bind fun _ => failsReportably_ok _
  · exact failsReportably_ok _

end Script

namespace Http

theorem failsReportably_requestWords (remainder : String) :
    FailsReportably (requestWords remainder) := by
  unfold requestWords
  split
  · split
    · exact (Script.failsReportably_terminatorOf _).map _
    · exact failsReportably_problem rfl _
  · split
    · exact failsReportably_problem rfl _
    · exact failsReportably_ok _
  · exact failsReportably_problem rfl _

theorem failsReportably_readHeaders (headers : List Header) (lines : List String) :
    FailsReportably (readHeaders headers lines) := by
  induction lines generalizing headers with
  | nil => exact failsReportably_ok _
  | cons line lines ih =>
      rw [readHeaders]
      split
      · exact failsReportably_ok _
      · split
        · exact ih _
        · exact failsReportably_problem rfl _

theorem failsReportably_readRequest (remainder : String) (lines : List Script.Line) :
    FailsReportably (readRequest remainder lines) := by
  unfold readRequest
  apply (failsReportably_requestWords remainder).bind
  rintro ⟨terminator, method, url⟩
  dsimp only
  split
  · exact failsReportably_problem rfl _
  · cases terminator with
    | none => exact failsReportably_ok _
    | some terminator =>
        exact (Script.failsReportably_takeUntil terminator lines).bind fun taken =>
          (failsReportably_readHeaders [] taken.result).bind fun _ => failsReportably_ok _

end Http

namespace Parser

theorem reports_ofText (make : String → Command) : (ofText make).Reports :=
  fun remainder lines => (Script.failsReportably_takePayload remainder lines).map _

theorem reports_http : http.Reports :=
  fun remainder lines => (Http.failsReportably_readRequest remainder lines).map _

end Parser

end ApiProbe
