import Mathlib.Data.List.Forall2
import ApiProbe.Proofs.Run.Breakdown
import ApiProbe.Proofs.Run.Placement
import ApiProbe.Proofs.Script.Decoding
import ApiProbe.Run.Report

/-!
# Reports on files

Files are run one after the other. Where all commands only compute, a run leaves nothing behind for the
next one, so that each file gets the report that it gets alone. A run that breaks off has no report, and
the files behind it are not run.
-/

namespace ApiProbe

/-- Whether all that a command does is to compute a value. -/
def Command.computes : Command → Bool
  | .value _ | .expect _ => true
  | _ => false

/-- What can break off a run that only computes: evaluation, or a number that is too long to be shown. -/
inductive Failure.Breaking : Failure → Prop
  | evaluation (fault : Fault) : Breaking (.evaluation fault)
  | unprintable : Breaking (.fault .unprintable)

section Computes

variable {s t : Session} {c : Command} {failure : Failure}

theorem sent_run (hc : c.computes = true) : (c.run s).session.sent = s.sent := by
  have hof (result : Except Failure Value) : (Outcome.of s s.push result).session.sent = s.sent := by
    cases result <;> rfl
  cases c with
  | value text => exact hof _
  | expect text => exact hof _
  | http request => cases hc
  | custom => cases hc

theorem breaking_of_display {v : Value} (h : Language.display v = .error failure) :
    failure.Breaking := by
  rw [Language.display] at h
  split at h
  · cases h
  · obtain rfl := Except.error.inj h
    exact .unprintable

theorem breaking_of_compile {text : String} (h : s.compile text = .error failure)
    (hp : ∀ p, failure ≠ .problem p) : failure.Breaking := by
  rw [Session.compile, Language.compile] at h
  split at h
  · cases h
  · obtain rfl := Except.error.inj h
    exact absurd rfl (hp _)
  · obtain rfl := Except.error.inj h
    exact .evaluation _

theorem breaking_of_unify {v : Value} (h : s.unify v = .error failure)
    (hp : ∀ p, failure ≠ .problem p) : failure.Breaking := by
  rw [Session.unify, Language.unify] at h
  split at h
  · cases h
  · obtain rfl := Except.error.inj h
    exact absurd rfl (hp _)
  · obtain rfl := Except.error.inj h
    exact .unprintable

theorem breaking_of_matchValue {text : String} (h : Command.matchValue s text = .error failure)
    (hp : ∀ p, failure ≠ .problem p) : failure.Breaking := by
  rcases bind_eq_error_iff.mp h with h | ⟨v, -, h⟩
  · exact breaking_of_compile h hp
  · split at h
    · obtain rfl := Except.error.inj h
      exact absurd rfl (hp _)
    · exact breaking_of_unify h hp

theorem breaking_of_run (hc : c.computes = true) (h : (c.run s).failure = some failure)
    (hp : ∀ p, failure ≠ .problem p) : failure.Breaking := by
  have hof {result : Except Failure Value}
      (h : (Outcome.of s s.push result).failure = some failure) : result = .error failure := by
    cases result with
    | ok v => cases h
    | error e => exact congrArg Except.error (Option.some.inj h)
  cases c with
  | value text => exact breaking_of_compile (hof h) hp
  | expect text => exact breaking_of_matchValue (hof h) hp
  | http request => cases hc
  | custom => cases hc

theorem Session.breaking_of_newestDatum (h : s.newestDatum = .error failure) : failure.Breaking := by
  rw [newestDatum] at h
  split at h
  · cases h
  · exact breaking_of_display (map_eq_error_iff.mp h)

end Computes

namespace Session

section Runs

variable {s t : Session} {before after commands : List LocatedCommand} {failure : Failure}

theorem LogsTo.sent (h : s.LogsTo t) : t.sent = s.sent := by
  obtain ⟨more, rfl⟩ := h
  rfl

theorem Completes.sent (h : s.Completes commands t)
    (hcommands : ∀ c ∈ commands, c.command.computes = true) : t.sent = s.sent := by
  induction h with
  | nil hend => exact hend.sent
  | cons hstart _ _ ih =>
      rw [List.forall_mem_cons] at hcommands
      rw [ih hcommands.2, sent_run hcommands.1, hstart.sent]
      rfl

theorem FailsAt.sent {c : LocatedCommand} {p : Problem} (h : s.FailsAt c p t)
    (hc : c.command.computes = true) : t.sent = s.sent := by
  cases h with
  | intro hstart _ hend =>
      have hrun := (sent_run hc).trans hstart.sent
      exact hend.sent.trans hrun

theorem BreaksAt.sent {c : LocatedCommand} (h : s.BreaksAt c failure t)
    (hc : c.command.computes = true) : t.sent = s.sent := by
  cases h with
  | intro hstart _ _ => exact (sent_run hc).trans hstart.sent

theorem Ends.sent (h : s.Ends before after t)
    (hcommands : ∀ c ∈ before ++ after, c.command.computes = true) : t.sent = s.sent := by
  rw [List.forall_mem_append] at hcommands
  obtain ⟨hcommands, hrest⟩ := hcommands
  cases h with
  | between hbefore => exact hbefore.sent hcommands
  | failed hbefore hfails =>
      exact (hfails.sent (hrest _ List.mem_cons_self)).trans (hbefore.sent hcommands)
  | broken hbefore hbreaks =>
      exact (hbreaks.sent (hrest _ List.mem_cons_self)).trans (hbefore.sent hcommands)

theorem BreaksOff.breaking (h : s.BreaksOff commands failure t)
    (hcommands : ∀ c ∈ commands, c.command.computes = true) : failure.Breaking := by
  cases h with
  | @command before after c u hsplit _ hbreaks =>
      have hc : c.command.computes = true := hcommands c (by rw [hsplit]; simp)
      cases hbreaks with
      | intro _ hrun hproblem => exact breaking_of_run hc hrun hproblem
  | sectionEnd _ _ hfailure => exact breaking_of_newestDatum hfailure

end Runs

end Session

/-! ### Scripts of commands that compute

Nothing is sent where the only parsers are those of commands that compute. So a run leaves
nothing behind, and the reports on files do not depend on each other. -/

/-- The only parsers are those of the commands that compute. -/
def Registry.Basic (registry : Registry) : Prop :=
  ∀ keyword parser, registry.get? keyword = some parser → parser ∈ [Parser.value, Parser.expect]

/-- An engine that is given no parsers has those of the commands that compute. -/
theorem Engine.basic_registry {e : Engine} (h : e.parsers = []) : e.registry.Basic := by
  have hregistry : e.registry = Registry.builtin := by
    rw [registry, h]
    rfl
  intro keyword parser hparser
  rw [hregistry] at hparser
  exact List.mem_map_of_mem (f := Prod.snd) (Dict.mem_of_get? hparser)

namespace Registry.Basic

variable {registry : Registry}

theorem plain (h : registry.Basic) : registry.Plain := by
  intro keyword parser hparser
  exact List.mem_append_left [Parser.http] (h keyword parser hparser)

/-- The parsers read a payload and make a command of it that computes. -/
theorem parse (h : registry.Basic) {keyword remainder : String} {parser : Parser}
    {lines : List Script.Line} {taken : Script.Taken Command}
    (hparser : registry.get? keyword = some parser) (htaken : parser remainder lines = .ok taken) :
    taken.result.computes = true ∧
      ∃ payload, Script.takePayload remainder lines = .ok payload ∧ payload.count = taken.count := by
  rcases List.mem_pair.mp (h keyword parser hparser) with rfl | rfl
  all_goals
    obtain ⟨payload, hpayload, rfl⟩ := map_eq_ok_iff.mp htaken
    exact ⟨rfl, payload, hpayload, rfl⟩

end Registry.Basic

namespace Script

section Read

variable {registry : Registry} {source : String} {lines : List Line}

theorem isOk_of_takeUntil {terminator : String} {taken : Taken (List String)}
    (h : takeUntil terminator lines = .ok taken) :
    ∀ line ∈ lines.take taken.count, line.isOk = true := by
  induction lines generalizing taken with
  | nil => exact fun _ hline => by simp at hline
  | cons line lines ih =>
      cases line with
      | error error => cases h
      | ok raw =>
          rw [takeUntil] at h
          split at h
          · obtain rfl := Except.ok.inj h
            exact List.forall_mem_singleton.mpr rfl
          · obtain ⟨rest, hrest, rfl⟩ := map_eq_ok_iff.mp h
            rw [List.take_succ_cons]
            exact List.forall_mem_cons.mpr ⟨rfl, ih hrest⟩

theorem isOk_of_takePayload {remainder : String} {taken : Taken String}
    (h : takePayload remainder lines = .ok taken) :
    ∀ line ∈ lines.take taken.count, line.isOk = true := by
  unfold takePayload at h
  split at h
  · obtain ⟨terminator, -, h⟩ := bind_eq_ok_iff.mp h
    obtain ⟨body, hbody, h⟩ := bind_eq_ok_iff.mp h
    obtain rfl := Except.ok.inj h
    exact isOk_of_takeUntil hbody
  · obtain rfl := Except.ok.inj h
    exact List.forall_mem_nil _

/-- A script is read to its last line, and no line can be left out. -/
theorem isOk_of_readSections (hbasic : registry.Basic) {number : Nat} {current : Option Section}
    {sections : List Section}
    (h : readSections registry source number current lines = .ok sections) :
    ∀ line ∈ lines, line.isOk = true := by
  induction number, current, lines using readSections.induct registry source
    generalizing sections with
  | case1 => exact List.forall_mem_nil _
  | case2 number current error lines =>
      rw [readSections] at h
      cases h
  | case3 number current raw lines hentry ih =>
      rw [readSections, hentry] at h
      exact List.forall_mem_cons.mpr ⟨rfl, ih h⟩
  | case4 number current raw lines name hentry ih =>
      rw [readSections, hentry] at h
      obtain ⟨rest, hrest, -⟩ := map_eq_ok_iff.mp h
      exact List.forall_mem_cons.mpr ⟨rfl, ih hrest⟩
  | case5 number current raw lines keyword remainder hentry hunknown =>
      rw [readSections, hentry] at h
      dsimp only at h
      rw [hunknown] at h
      cases h
  | case6 number current raw lines keyword remainder hentry parser hparser failure hfailure =>
      rw [readSections, hentry] at h
      dsimp only at h
      rw [hparser] at h
      dsimp only at h
      rw [hfailure] at h
      cases h
  | case7 number current raw lines keyword remainder hentry parser hparser taken htaken =>
      rename_i ih
      rw [readSections, hentry] at h
      dsimp only at h
      rw [hparser] at h
      dsimp only at h
      rw [htaken] at h
      obtain ⟨-, payload, hpayload, hcount⟩ := hbasic.parse hparser htaken
      refine List.forall_mem_cons.mpr ⟨rfl, ?_⟩
      rw [← List.take_append_drop taken.count lines, List.forall_mem_append]
      refine ⟨?_, ih h⟩
      rw [← hcount]
      exact isOk_of_takePayload hpayload

/-- The line is at top level and not UTF-8, and all commands in front of it are accepted. -/
structure UndecodableAt (registry : Registry) (lines : List Line) (i : Nat)
    (error : Utf8.DecodeError) : Prop where
  topLevel : TopLevel registry lines i
  line : lines[i]? = some (.error error)
  first : ∀ j < i, CommandAt registry lines j → ∃ taken, Accepts registry lines j taken

/-- A script that cannot be read has a problem, or a line at top level that is not UTF-8. -/
theorem read_eq_error (hplain : registry.Plain) {failure : Failure}
    (h : read registry source lines = .error failure) :
    (∃ p, failure = .problem p) ∨
      ∃ i error, failure = .fault (.notUtf8 error) ∧ UndecodableAt registry lines i error := by
  have hread := map_eq_error_iff.mp h
  obtain ⟨n, ms, hms, ⟨-, heq⟩ | ⟨failure, hstuck, heq⟩⟩ :=
    readSections_cases registry source 1 none lines rfl List.drop_zero
  · cases hread.symm.trans heq
  · obtain rfl := Except.error.inj (hread.symm.trans heq)
    rcases hstuck with ⟨error, hline, rfl⟩ | hrejects
    · refine Or.inr ⟨n, error, rfl, hms.topLevel topLevel_zero, hline, ?_⟩
      intro j hj hcommand
      obtain ⟨taken, haccepts, -⟩ := hms.command_mem hj hcommand
      exact ⟨taken, haccepts⟩
    · obtain ⟨p, rfl, -⟩ := hrejects.placed hplain
      exact Or.inl ⟨p, rfl⟩

theorem computes_of_read (hbasic : registry.Basic) {script : Script}
    (h : read registry source lines = .ok script) :
    ∀ c ∈ script.sections.flatMap (·.commands), c.command.computes = true := by
  obtain ⟨n, ms, hend, hms, rfl⟩ := marks_of_read h
  intro c hc
  obtain ⟨i, taken, -, ⟨raw, keyword, remainder, parser, -, -, hparser, htaken⟩, rfl⟩ :=
    (hms.sectioned hend).sound c hc
  exact (hbasic.parse hparser htaken).1

end Read

end Script

/-- The file is not there, its bytes are not UTF-8, or its text is no script. -/
inductive Engine.Unreadable (e : Engine) (tree : FileTree) (p : Path) : Prop
  | absent {fault : ReadFault} (hfault : tree.read p = .error fault) : Unreadable e tree p
  | notUtf8 {content : List UInt8} {error : Utf8.DecodeError} (hcontent : tree.read p = .ok content)
      (herror : Utf8.decode content = .error error) : Unreadable e tree p
  | refused {content : List UInt8} {problem : Problem} (hcontent : tree.read p = .ok content)
      (hproblem : e.read p.text (Script.linesOfFile content) = .error (.problem problem)) :
      Unreadable e tree p

/-- There is no report on the file: reading its script comes to a line that is not UTF-8, or its run
breaks off. -/
inductive Engine.BreaksOff (e : Engine) (standard : Transport) (tree : FileTree) (s : Session)
    (p : Path) : Failure → Prop
  | reading {content : List UInt8} {i : Nat} {error : Utf8.DecodeError}
      (hcontent : tree.read p = .ok content)
      (hline : Script.UndecodableAt e.registry (Script.linesOfFile content) i error) :
      BreaksOff e standard tree s p (.fault (.notUtf8 error))
  | running {content : List UInt8} {script : Script} {t : Session} {failure : Failure}
      (hcontent : tree.read p = .ok content)
      (hscript : e.read p.text (Script.linesOfFile content) = .ok script)
      (hrun : ((s.locate p.text s.line).bind (e.resources standard)).BreaksOff
        (script.sections.flatMap (·.commands)) failure t)
      (hfailure : failure.Breaking) : BreaksOff e standard tree s p failure

namespace Engine

section Files

variable {e : Engine} (standard : Transport) (tree : FileTree) (s : Session) (p : Path)

theorem not_unreadable {content : List UInt8} {script : Script} (hbasic : e.registry.Basic)
    (hcontent : tree.read p = .ok content)
    (hscript : e.read p.text (Script.linesOfFile content) = .ok script) : ¬ e.Unreadable tree p := by
  rintro (hfault | ⟨hcontent', herror⟩ | ⟨hcontent', hproblem⟩)
  · cases hcontent.symm.trans hfault
  · obtain rfl := Except.ok.inj (hcontent.symm.trans hcontent')
    obtain ⟨texts, failed, hlines⟩ := Script.linesOfFile_of_error herror
    obtain ⟨sections, hread, -⟩ := map_eq_ok_iff.mp hscript
    have hok := Script.isOk_of_readSections hbasic hread (.error failed) (by rw [hlines]; simp)
    cases hok
  · obtain rfl := Except.ok.inj (hcontent.symm.trans hcontent')
    cases hscript.symm.trans hproblem

/-- A file has a report, which is a bad one if the file cannot be read, or its run breaks off. -/
theorem report_runFile (hbasic : e.registry.Basic) :
    (∃ report, (e.runFile standard tree s p).report = .ok report ∧ report.name = p.text ∧
        (e.Unreadable tree p → report.ok = false)) ∨
      ∃ failure, (e.runFile standard tree s p).report = .error failure ∧
        e.BreaksOff standard tree s p failure := by
  unfold runFile
  cases hcontent : tree.read p with
  | error fault => exact Or.inl ⟨_, rfl, rfl, fun _ => rfl⟩
  | ok content =>
      dsimp only
      unfold runScript
      cases hread : e.read p.text (Script.linesOfFile content) with
      | error failure =>
          rcases Script.read_eq_error hbasic.plain hread with ⟨q, rfl⟩ | ⟨i, error, rfl, hline⟩
          · exact Or.inl ⟨_, rfl, rfl, fun _ => rfl⟩
          · exact Or.inr ⟨_, rfl, .reading hcontent hline⟩
      | ok script =>
          have hreadable := not_unreadable tree p hbasic hcontent hread
          dsimp only [execute]
          cases hrun : (s.locate p.text s.line).execute (e.resources standard) script.sections with
          | mk t ends =>
            cases ends with
            | ok result =>
                refine Or.inl ⟨_, rfl, ?_, fun h => absurd h hreadable⟩
                dsimp only
                split <;> rfl
            | error failure =>
                obtain ⟨u, -, hbreaks⟩ := Session.execute_broken hrun
                have hbreaking := hbreaks.breaking (Script.computes_of_read hbasic hread)
                refine Or.inr ⟨failure, ?_, .running hcontent hread hbreaks hbreaking⟩
                cases hbreaking <;> rfl

/-- Whatever becomes of the file, nothing is sent. -/
theorem sentAfter_runFile (hbasic : e.registry.Basic) :
    (e.runFile standard tree s p).sentAfter s.sent = s.sent := by
  unfold runFile
  cases tree.read p with
  | error fault => rfl
  | ok content =>
      dsimp only
      unfold runScript
      cases hread : e.read p.text (Script.linesOfFile content) with
      | error failure => rfl
      | ok script =>
          obtain ⟨before, after, u, hcommands, hsession, hends, -⟩ :=
            Session.execute_ends (s.locate p.text s.line) (e.resources standard) script.sections
          have hcomputes := Script.computes_of_read hbasic hread
          rw [hcommands] at hcomputes
          have hsent : ((s.locate p.text s.line).execute (e.resources standard)
              script.sections).session.sent = s.sent := by
            rw [hsession]
            exact hends.sent hcomputes
          exact hsent

/-- Each file gets the report that it gets alone. -/
theorem reports_runFiles (hbasic : e.registry.Basic) (paths : List Path) :
    FileRun.reports (e.runFiles standard tree s paths)
      = FileRun.reports (paths.map (e.runFile standard tree s)) := by
  induction paths with
  | nil => rfl
  | cons p paths ih =>
      rw [runFiles, List.map_cons]
      cases hreport : (e.runFile standard tree s p).report with
      | error failure => rw [FileRun.reports.eq_2, FileRun.reports.eq_2, hreport]
      | ok report =>
          dsimp only
          rw [sentAfter_runFile standard tree s p hbasic, FileRun.reports, FileRun.reports, ih]

end Files

end Engine

/-- The reports of runs are those up to the first that breaks off. -/
theorem FileRun.reports_cases (runs : List FileRun) :
    ∃ all, List.Forall₂ (fun run report => run.report = .ok report) (runs.take all.length) all ∧
      ((reports runs = (all, none) ∧ all.length = runs.length) ∨
        ∃ run failure, runs[all.length]? = some run ∧ run.report = .error failure ∧
          reports runs = (all, some failure)) := by
  induction runs with
  | nil => exact ⟨[], .nil, Or.inl ⟨rfl, rfl⟩⟩
  | cons run runs ih =>
      cases hreport : run.report with
      | error failure =>
          refine ⟨[], .nil, Or.inr ⟨run, failure, rfl, hreport, ?_⟩⟩
          rw [reports, hreport]
      | ok report =>
          obtain ⟨all, hall, hends⟩ := ih
          have hreports : reports (run :: runs) = (report :: (reports runs).1, (reports runs).2) := by
            rw [reports, hreport]
          refine ⟨report :: all, .cons hreport hall, ?_⟩
          rw [hreports]
          rcases hends with ⟨heq, hlength⟩ | ⟨last, failure, hlast, hfailure, heq⟩
          · rw [heq]
            exact Or.inl ⟨rfl, congrArg (· + 1) hlength⟩
          · rw [heq]
            exact Or.inr ⟨last, failure, hlast, hfailure, rfl⟩

/-- **Files are reported on one by one.** Each file has a report or breaks off, whatever it is, and a
file that cannot be read has no good one. The reports on a list of files are those that each file gets
alone, in order: on all of them, or on those in front of the first that breaks off. -/
theorem Engine.runFiles_reports (e : Engine) (he : e.parsers = []) (standard : Transport)
    (tree : FileTree) (s : Session) (paths : List Path) :
    (∀ p, (∃ report, (e.runFile standard tree s p).report = .ok report ∧ report.name = p.text ∧
          (e.Unreadable tree p → report.ok = false)) ∨
        ∃ failure, (e.runFile standard tree s p).report = .error failure ∧
          e.BreaksOff standard tree s p failure) ∧
      ∃ reports, List.Forall₂ (fun p report => (e.runFile standard tree s p).report = .ok report)
          (paths.take reports.length) reports ∧
        ((FileRun.reports (e.runFiles standard tree s paths) = (reports, none) ∧
            reports.length = paths.length) ∨
          ∃ p failure, paths[reports.length]? = some p ∧
            (e.runFile standard tree s p).report = .error failure ∧
            FileRun.reports (e.runFiles standard tree s paths) = (reports, some failure)) := by
  have hbasic := basic_registry he
  refine ⟨fun p => report_runFile standard tree s p hbasic, ?_⟩
  obtain ⟨reports, hreports, hends⟩ :=
    FileRun.reports_cases (paths.map (e.runFile standard tree s))
  rw [← List.map_take, List.forall₂_map_left_iff] at hreports
  refine ⟨reports, hreports, ?_⟩
  rw [reports_runFiles standard tree s hbasic]
  rcases hends with ⟨heq, hlength⟩ | ⟨run, failure, hrun, hfailure, heq⟩
  · exact Or.inl ⟨heq, by rw [hlength, List.length_map]⟩
  · rw [List.getElem?_map, Option.map_eq_some_iff] at hrun
    obtain ⟨p, hp, rfl⟩ := hrun
    exact Or.inr ⟨p, failure, hp, hfailure, heq⟩

/-- A file that is not there, one that is no script and a good one have reports. The next one is not
UTF-8, and no file behind it is run. -/
theorem Engine.runFiles_reports_missing_file :
    let silent : Transport := fun _ _ _ => { answer := .ok { status := 200 } }
    let tree : FileTree := ⟨[(["text"], some (Utf8.encode "VALU 1\n")),
      (["good"], some (Utf8.encode "VALUE 1\n")), (["bytes"], some [0xFF, 0x0A])]⟩
    let s : Session := { now := .zero false }
    let paths : List Path := [⟨["absent"]⟩, ⟨["text"]⟩, ⟨["good"]⟩, ⟨["bytes"]⟩, ⟨["good"]⟩]
    let e : Engine := {}
    ∃ reports failure, FileRun.reports (e.runFiles silent tree s paths) = (reports, some failure) ∧
      reports.map (·.ok) = [false, false, true] ∧
      List.Forall₂ (fun p report => (e.runFile silent tree s p).report = .ok report)
        (paths.take 3) reports := by
  intro silent tree s paths e
  obtain ⟨-, reports, hreports, hends⟩ := e.runFiles_reports rfl silent tree s paths
  have hok : (FileRun.reports (e.runFiles silent tree s paths)).1.map (·.ok)
      = [false, false, true] := by decide +kernel
  have hlength : reports.length = 3 := by
    rcases hends with ⟨heq, -⟩ | ⟨p, failure, -, -, heq⟩
    · rw [heq] at hok
      simpa using congrArg List.length hok
    · rw [heq] at hok
      simpa using congrArg List.length hok
  rw [hlength] at hreports hends
  obtain ⟨-, hall⟩ | ⟨p, failure, -, -, heq⟩ := hends
  · cases hall
  · rw [heq] at hok
    exact ⟨reports, failure, heq, hok, hreports⟩

/-- A good file has no report behind one that is not UTF-8. -/
theorem Engine.runFiles_undecodable :
    let silent : Transport := fun _ _ _ => { answer := .ok { status := 200 } }
    let tree : FileTree := ⟨[(["bad.testdrive"], some [0xFF, 0x0A]),
      (["good.testdrive"], some (Utf8.encode "VALUE 1\n"))]⟩
    let s : Session := { now := .zero false }
    let paths : List Path := [⟨["bad.testdrive"]⟩, ⟨["good.testdrive"]⟩]
    let e : Engine := {}
    (e.runFile silent tree s ⟨["good.testdrive"]⟩).report.isOk = true ∧
      (FileRun.reports (e.runFiles silent tree s paths)).1.length = 0 ∧
      ¬ ∃ reports, FileRun.reports (e.runFiles silent tree s paths) = (reports, none) ∧
        reports.length = paths.length := by
  intro silent tree s paths e
  have hgood : (e.runFile silent tree s ⟨["good.testdrive"]⟩).report.isOk = true := by
    decide +kernel
  have hlength : (FileRun.reports (e.runFiles silent tree s paths)).1.length = 0 := by
    decide +kernel
  refine ⟨hgood, hlength, ?_⟩
  rintro ⟨reports, heq, hall⟩
  rw [heq] at hlength
  cases hlength.symm.trans hall

end ApiProbe
