import ApiProbe.Engine
import ApiProbe.Proofs.Run.FailFast
import ApiProbe.Proofs.Script.Sections

/-!
# Where failures are reported

A script fails in reading or in running. Either way the failure is reported at the line of the command
that it comes from, which is the first one that is refused or the first one that fails.
-/

namespace ApiProbe

theorem Dict.mem_of_get? {α : Type} {name : String} {value : α} {dict : Dict α}
    (h : dict.get? name = some value) : (name, value) ∈ dict := by
  induction dict with
  | nil => cases h
  | cons entry dict ih =>
      obtain ⟨n, first⟩ := entry
      unfold get? at h
      split at h
      · rename_i hname
        obtain rfl := Option.some.inj h
        obtain rfl := eq_of_beq hname
        exact List.mem_cons_self
      · exact List.mem_cons_of_mem _ (ih h)

/-- The only parsers are those of the language. -/
def Registry.Plain (registry : Registry) : Prop :=
  ∀ keyword parser, registry.get? keyword = some parser →
    parser ∈ [Parser.value, Parser.expect, Parser.http]

/-- An engine with the parsers that most scripts need has no others. -/
theorem Engine.plain_registry {e : Engine} (h : e.parsers = Registry.common) : e.registry.Plain := by
  have hregistry : e.registry
      = [("VALUE", Parser.value), ("MATCH", Parser.expect), ("HTTP", Parser.http)] := by
    rw [registry, h]
    rfl
  intro keyword parser hparser
  rw [hregistry] at hparser
  exact List.mem_map_of_mem (f := Prod.snd) (Dict.mem_of_get? hparser)

namespace Parser

variable {parser : Parser}

theorem reports_of_mem (h : parser ∈ [Parser.value, Parser.expect, Parser.http]) :
    parser.Reports := by
  rcases List.mem_cons.mp h with rfl | h
  · exact reports_ofText .value
  rcases List.mem_cons.mp h with rfl | h
  · exact reports_ofText .expect
  · obtain rfl := List.mem_singleton.mp h
    exact reports_http

theorem isBuiltin_of_mem (h : parser ∈ [Parser.value, Parser.expect, Parser.http])
    {remainder : String} {lines : List Script.Line} {taken : Script.Taken Command}
    (htaken : parser remainder lines = .ok taken) : taken.result.isBuiltin = true := by
  rcases List.mem_cons.mp h with rfl | h
  · obtain ⟨payload, -, rfl⟩ := map_eq_ok_iff.mp htaken
    rfl
  rcases List.mem_cons.mp h with rfl | h
  · obtain ⟨payload, -, rfl⟩ := map_eq_ok_iff.mp htaken
    rfl
  · obtain rfl := List.mem_singleton.mp h
    obtain ⟨request, -, rfl⟩ := map_eq_ok_iff.mp htaken
    rfl

end Parser

namespace Script

section Plain

variable {registry : Registry} {lines : List Line} {source : String}

/-- What is refused is reported at its line. -/
theorem Rejects.placed (hplain : registry.Plain) {i : Nat} {failure : Failure}
    (h : Rejects registry lines source i failure) :
    ∃ p, failure = .problem p ∧ p.kind.isParse = true ∧ p.source = some source ∧
      p.line = some ((i + 1 : Nat) : Int) := by
  obtain ⟨raw, keyword, remainder, -, -, ⟨-, rfl⟩ | ⟨parser, cause, hparser, hcause, rfl⟩⟩ := h
  · exact ⟨_, rfl, rfl, rfl, rfl⟩
  · exact (Parser.reports_of_mem (hplain keyword parser hparser) _ _ cause hcause).report _ _ _

theorem Accepts.isBuiltin (hplain : registry.Plain) {i : Nat} {taken : Taken Command}
    (h : Accepts registry lines i taken) : taken.result.isBuiltin = true := by
  obtain ⟨raw, keyword, remainder, parser, -, -, hparser, htaken⟩ := h
  exact Parser.isBuiltin_of_mem (hplain keyword parser hparser) htaken

end Plain

/-- The line is the first command that is refused, with the problem that is reported of it. -/
structure RefusedAt (registry : Registry) (lines : List Line) (source : String) (i : Nat)
    (p : Problem) : Prop where
  command : CommandAt registry lines i
  rejected : Rejects registry lines source i (.problem p)
  first : ∀ j < i, CommandAt registry lines j → ∃ taken, Accepts registry lines j taken

theorem refusedAt_of_read {registry : Registry} {lines : List Line} {source : String} {p : Problem}
    (h : read registry source lines = .error (.problem p)) :
    ∃ i, RefusedAt registry lines source i p := by
  have hread := map_eq_error_iff.mp h
  obtain ⟨n, ms, hms, ⟨-, heq⟩ | ⟨failure, hstuck, heq⟩⟩ :=
    readSections_cases registry source 1 none lines rfl List.drop_zero
  · cases hread.symm.trans heq
  · obtain rfl := Except.error.inj (hread.symm.trans heq)
    rcases hstuck with ⟨error, -, hfailure⟩ | hrejects
    · cases hfailure
    · obtain ⟨raw, keyword, remainder, hline, hinvokes, -⟩ := id hrejects
      refine ⟨n, ⟨hms.topLevel topLevel_zero, raw, hline, hinvokes.1⟩, hrejects, ?_⟩
      intro j hj hcommand
      obtain ⟨taken, haccepts, -⟩ := hms.command_mem hj hcommand
      exact ⟨taken, haccepts⟩

end Script

namespace Session

section Fails

variable {s t : Session} {commands : List LocatedCommand}

theorem Completes.resources (h : s.Completes commands t)
    (hbuiltin : ∀ c ∈ commands, c.command.isBuiltin = true) : t.resources = s.resources := by
  induction h with
  | nil hend =>
      obtain ⟨_, rfl⟩ := hend
      rfl
  | cons hstart _ _ ih =>
      rw [List.forall_mem_cons] at hbuiltin
      obtain ⟨_, rfl⟩ := hstart
      rw [ih hbuiltin.2, (keeps_run hbuiltin.1).resources]
      rfl

/-- A command of the language that fails is where the session is then, and its problem is placed there. -/
theorem FailsAt.placed {c : LocatedCommand} {p : Problem} (h : s.FailsAt c p t)
    (hbuiltin : c.command.isBuiltin = true) (hfresh : ∀ r ∈ s.resources, r.Fresh) :
    p.source = some c.source ∧ p.line = some (c.line : Int) ∧ t.source = c.source ∧
      t.line = c.line := by
  cases h with
  | @intro u _ q hstart hrun hend =>
      obtain ⟨hresources, hsource, hline⟩ : u.resources = s.resources ∧ u.source = c.source ∧
          u.line = c.line := by
        obtain ⟨_, rfl⟩ := hstart
        exact ⟨rfl, rfl, rfl⟩
      rw [← hresources] at hfresh
      have hunplaced := unplaced_run hfresh hbuiltin hrun q rfl
      rw [hsource] at hunplaced
      obtain ⟨_, rfl⟩ := hend
      have hkeeps : (c.command.run u).Keeps u := keeps_run hbuiltin
      obtain ⟨hpsource, hpline⟩ := hunplaced.locate c.line
      exact ⟨hpsource, hpline, hkeeps.source.trans hsource, hkeeps.line.trans hline⟩

end Fails

end Session

theorem Problem.text_eq {p : Problem} {source : String} {line : Nat} (hsource : p.source = some source)
    (hline : p.line = some (line : Int)) (hname : source ≠ "") :
    p.text = s!"{source}:{line}: " ++ p.message := by
  unfold text
  rw [hsource, hline, Option.getD_some]
  have hempty : source.isEmpty = false := String.isEmpty_eq_false_iff.mpr hname
  simp only [hempty]
  rfl

/-- A run that ends with the failure of a command, at the line of the command. -/
structure FailedAt (e : Engine) (standard : Transport) (s : Session) (source : String)
    (lines : List Script.Line) (i : Nat) (t : Session) (p : Problem) (result : RunResult) : Prop where
  command : Script.CommandAt e.registry lines i
  /-- The commands above it complete, and it is the last one that is run. -/
  stops : ∃ script u, e.read source lines = .ok script ∧ t = u.release ∧
    ((s.locate source s.line).bind (e.resources standard)).StopsIn script.sections u result
  result : result.error = some p ∧ result.source = some source ∧
    result.line = some ((i + 1 : Nat) : Int)
  problem : p.source = some source ∧ p.line = some ((i + 1 : Nat) : Int)
  text : p.text = s!"{source}:{i + 1}: " ++ p.message
  session : t.source = source ∧ t.line = ((i + 1 : Nat) : Int) ∧ t.lastError = some p

section Place

variable {e : Engine} {standard : Transport} {s : Session} {source : String}
  {lines : List Script.Line}

theorem failedAt_of_execute (hplain : e.registry.Plain) (hfresh : (e.resources standard).Fresh)
    (hname : source ≠ "") {script : Script} (hread : e.read source lines = .ok script) {t : Session}
    {result : RunResult}
    (h : e.execute standard (s.locate source s.line) script = ⟨t, .ok result⟩)
    (hfails : result.ok = false) :
    ∃ i p, FailedAt e standard s source lines i t p result := by
  obtain ⟨n, ms, hend, hms, hscript⟩ := Script.marks_of_read hread
  have hsectioned : Script.Sectioned e.registry lines source script.sections := by
    rw [hscript]
    exact hms.sectioned hend
  have hbuiltin : ∀ c ∈ script.sections.flatMap (·.commands), c.command.isBuiltin = true := by
    intro c hc
    obtain ⟨i, taken, -, haccepts, rfl⟩ := hsectioned.sound c hc
    exact haccepts.isBuiltin hplain
  obtain ⟨u, rfl, ⟨-, rfl⟩ | hstops⟩ := Session.execute_cases h
  · cases hfails
  · obtain ⟨before, c, after, v, p, hall, hbefore, hat, hresult⟩ := hstops.exists_failsAt
    have hc : c ∈ script.sections.flatMap (·.commands) := by
      rw [hall]
      exact List.mem_append_right _ List.mem_cons_self
    have hbefore_builtin : ∀ c ∈ before, c.command.isBuiltin = true := by
      rw [hall, List.forall_mem_append] at hbuiltin
      exact hbuiltin.1
    have hv : ∀ r ∈ v.resources, r.Fresh := by
      rw [hbefore.resources hbefore_builtin]
      intro r hr
      obtain rfl := Option.some.inj hr
      exact hfresh
    obtain ⟨hsource, hline, hat_source, hat_line⟩ := hat.placed (hbuiltin c hc) hv
    obtain ⟨i, taken, hcommand, -, rfl⟩ := hsectioned.sound c hc
    refine ⟨i, p, hcommand, ⟨script, u, hread, rfl, hstops⟩, hresult, ⟨hsource, hline⟩,
      Problem.text_eq hsource hline hname, hat_source, hat_line, hat.lastError⟩

end Place

/-- **Every failure is reported at its line.** A script is refused at the first command with an unknown
keyword or a rejected argument; or else a run fails at the first command that does, and session, result
and message name its line. Running with and without a report of refusals agree. -/
theorem failure_placed (e : Engine) (standard : Transport) (s : Session) (source : String)
    (lines : List Script.Line) (hplain : e.registry.Plain) (hfresh : (e.resources standard).Fresh)
    (hname : source ≠ "") (session : Option Session) (result : RunResult)
    (h : e.runToResult standard s source lines = ⟨session, .ok result⟩) (hfails : result.ok = false) :
    ∃ i p, (Script.RefusedAt e.registry lines source i p ∧ p.kind.isParse = true ∧
        p.source = some source ∧ p.line = some ((i + 1 : Nat) : Int) ∧ session = none ∧
        result = ⟨some p, some source, some ((i + 1 : Nat) : Int), none⟩ ∧
        e.runScript standard s source lines = ⟨none, .error (.problem p)⟩) ∨
      ∃ t, session = some t ∧ FailedAt e standard s source lines i t p result ∧
        e.runScript standard s source lines = ⟨some t, .ok result⟩ := by
  unfold Engine.runToResult at h
  split at h
  · rename_i p hread
    obtain ⟨rfl, hresult⟩ := Attempt.mk.inj h
    obtain rfl := Except.ok.inj hresult
    obtain ⟨i, hrefused⟩ := Script.refusedAt_of_read hread
    obtain ⟨q, hq, hkind, hsource, hline⟩ := hrefused.rejected.placed hplain
    obtain rfl := Failure.problem.inj hq
    refine ⟨i, p, Or.inl ⟨hrefused, hkind, hsource, hline, rfl, ?_, ?_⟩⟩
    · rw [hsource, hline]
    · rw [Engine.runScript, hread]
  · have hrun := h
    unfold Engine.runScript at h
    split at h
    · cases (Attempt.mk.inj h).2
    · rename_i script hread
      obtain ⟨rfl, hresult⟩ := Attempt.mk.inj h
      obtain ⟨i, p, hfailed⟩ :=
        failedAt_of_execute hplain hfresh hname hread (congrArg (Finished.mk _) hresult) hfails
      exact ⟨i, p, Or.inr ⟨_, rfl, hfailed, hrun⟩⟩

/-- A request that fails below a heredoc, and the same script with an unknown keyword in it. -/
theorem failure_placed_below_heredoc :
    let refuse : Transport := fun _ _ _ =>
      { answer := .error (.problem { kind := .transport, message := "connection refused" }) }
    let e : Engine := { parsers := Registry.common, transport := some refuse }
    let s : Session := { now := .zero false }
    let lines := Script.linesOfText "VALUE ^END\n1\nEND\nHTTP GET http://localhost\nVALUE 2\n"
    let unreadable := Script.linesOfText "VALUE ^END\n1\nEND\nVALU 2\nMATCH 2\n"
    (∃ t result i p, e.runToResult refuse s "order" lines = ⟨some t, .ok result⟩ ∧ result.ok = false ∧
      result.line = some 4 ∧ FailedAt e refuse s "order" lines i t p result) ∧
    ∃ result i p, e.runToResult refuse s "order" unreadable = ⟨none, .ok result⟩ ∧
      result.ok = false ∧ result.line = some 4 ∧ p.text = "order:4: unknown command VALU" ∧
      Script.RefusedAt e.registry unreadable "order" i p := by
  intro refuse e s lines unreadable
  have hplain : e.registry.Plain := Engine.plain_registry rfl
  have hfresh : (e.resources refuse).Fresh := by
    intro transport htransport sent request timeout failure hfailure
    obtain rfl := Option.some.inj htransport
    obtain rfl := Except.error.inj hfailure
    exact ⟨_, rfl, rfl, rfl, rfl⟩
  constructor
  · have hends : (e.runToResult refuse s "order" lines).result.toOption.map
        (fun result => (result.ok, result.line)) = some (false, some 4) := by decide +kernel
    have hsession : (e.runToResult refuse s "order" lines).session.isSome = true := by
      decide +kernel
    cases hrun : e.runToResult refuse s "order" lines with
    | mk session ends =>
      rw [hrun] at hends hsession
      cases ends with
      | error failure => cases hends
      | ok result =>
        obtain ⟨hok, hline⟩ := Prod.mk.inj (Option.some.inj hends)
        obtain ⟨i, p, ⟨-, -, -, -, rfl, -⟩ | ⟨t, rfl, hfailed, -⟩⟩ :=
          failure_placed e refuse s "order" lines hplain hfresh (by decide) session result hrun hok
        · cases hsession
        · exact ⟨t, result, i, p, rfl, hok, hline, hfailed⟩
  · have hends : (e.runToResult refuse s "order" unreadable).result.toOption.map
        (fun result => (result.ok, result.line, result.error.map (·.text)))
          = some (false, some 4, some "order:4: unknown command VALU") := by decide +kernel
    have hsession : (e.runToResult refuse s "order" unreadable).session.isNone = true := by
      decide +kernel
    cases hrun : e.runToResult refuse s "order" unreadable with
    | mk session ends =>
      rw [hrun] at hends hsession
      cases ends with
      | error failure => cases hends
      | ok result =>
        obtain ⟨hok, hends⟩ := Prod.mk.inj (Option.some.inj hends)
        obtain ⟨hline, htext⟩ := Prod.mk.inj hends
        obtain ⟨i, p, ⟨hrefused, -, -, -, rfl, rfl, -⟩ | ⟨t, rfl, -⟩⟩ :=
          failure_placed e refuse s "order" unreadable hplain hfresh (by decide) session result hrun
            hok
        · exact ⟨_, i, p, rfl, hok, hline, Option.some.inj htext, hrefused⟩
        · cases hsession

end ApiProbe
