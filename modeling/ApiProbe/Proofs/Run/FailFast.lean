import ApiProbe.Proofs.Run.Trace
import ApiProbe.Proofs.Run.Unlogged

/-!
# Runs end at the first failure

How commands are divided into sections, and sections into runs, shows in the log and in the name of the
section that a failure is reported in, and nowhere else.
-/

namespace ApiProbe

namespace Session

/-- Runs sections, and then others unless one of the first fails. -/
def executeBoth (s : Session) (r : Resources) (first second : List Section) : Finished RunResult :=
  match s.execute r first with
  | ⟨t, .ok result⟩ => if result.ok then t.execute r second else ⟨t, .ok result⟩
  | ⟨t, .error failure⟩ => ⟨t, .error failure⟩

theorem runCommands_cons (s : Session) (c : LocatedCommand) (commands : List LocatedCommand) :
    s.runCommands (c :: commands) = match s.runCommand c with
      | ⟨s, .ok none⟩ => s.runCommands commands
      | ⟨s, .ok (some p)⟩ => ⟨s, .ok (some (c, p))⟩
      | ⟨s, .error failure⟩ => ⟨s, .error failure⟩ := rfl

/-- Runs that differ in their logs only end alike. -/
theorem exists_of_unlogged_eq {α : Type} {f g : Finished α} (h : f.unlogged = g.unlogged) :
    ∃ u v result, f = ⟨u, result⟩ ∧ g = ⟨v, result⟩ ∧ u.unlogged = v.unlogged := by
  obtain ⟨u, result⟩ := f
  obtain ⟨v, result'⟩ := g
  obtain ⟨hsession, hresult⟩ := Finished.mk.inj h
  dsimp only at hsession hresult
  subst hresult
  exact ⟨u, v, result, rfl, rfl, hsession⟩

section Congr

variable {s t : Session}

theorem runCommand_congr {c : LocatedCommand} (hc : c.command.LogBlind)
    (h : s.unlogged = t.unlogged) :
    (s.runCommand c).unlogged = (t.runCommand c).unlogged := by
  have hstart : ((s.locate c.source c.line).logStart c).unlogged
      = ((t.locate c.source c.line).logStart c).unlogged :=
    congrArg (·.locate c.source c.line) h
  obtain ⟨hsession, hfailure⟩ := Outcome.mk.inj (hc _ _ hstart)
  unfold runCommand
  dsimp only
  rw [hfailure]
  split
  · exact congrArg (Finished.mk · _) hsession
  · rename_i p _
    exact congrArg (fun u : Session =>
      Finished.mk { u with lastError := some (p.locate c.source c.line) } _) hsession
  · exact congrArg (Finished.mk · _) hsession

theorem runCommands_congr {commands : List LocatedCommand}
    (hcommands : ∀ c ∈ commands, c.command.LogBlind) (h : s.unlogged = t.unlogged) :
    (s.runCommands commands).unlogged = (t.runCommands commands).unlogged := by
  induction commands generalizing s t with
  | nil => exact congrArg (Finished.mk · _) h
  | cons c commands ih =>
      rw [List.forall_mem_cons] at hcommands
      obtain ⟨u, v, ends, hu, hv, hsession⟩ :=
        exists_of_unlogged_eq (runCommand_congr hcommands.1 h)
      rw [runCommands_cons, runCommands_cons, hu, hv]
      cases ends with
      | error failure => exact congrArg (Finished.mk · _) hsession
      | ok p =>
          cases p with
          | none => exact ih hcommands.2 hsession
          | some p => exact congrArg (Finished.mk · _) hsession

theorem newestDatum_congr (h : s.unlogged = t.unlogged) : s.newestDatum = t.newestDatum := by
  unfold newestDatum
  rw [newest?_congr h]

theorem runSections_congr {sections : List Section}
    (hsections : ∀ sec ∈ sections, ∀ c ∈ sec.commands, c.command.LogBlind)
    (h : s.unlogged = t.unlogged) :
    (s.runSections sections).unlogged = (t.runSections sections).unlogged := by
  induction sections generalizing s t with
  | nil => exact congrArg (Finished.mk · _) h
  | cons sec sections ih =>
      rw [List.forall_mem_cons] at hsections
      have hstart : (s.logSection sec).unlogged = (t.logSection sec).unlogged := h
      obtain ⟨u, v, ends, hu, hv, hsession⟩ :=
        exists_of_unlogged_eq (runCommands_congr hsections.1 hstart)
      unfold runSections
      rw [hu, hv]
      cases ends with
      | error failure => exact congrArg (Finished.mk · _) hsession
      | ok failed =>
          cases failed with
          | some failed => exact congrArg (Finished.mk · _) hsession
          | none =>
              dsimp only
              rw [newestDatum_congr hsession]
              split
              · exact congrArg (Finished.mk · _) hsession
              · exact ih hsections.2 hsession

end Congr

/-! ### Sections and the commands in them

The run of sections is compared with that of their commands in a row. The two differ in the log only, and as
the commands cannot read it, each of them does the same in both. -/

section Flat

variable {s t : Session}

theorem runCommands_append (first second : List LocatedCommand) :
    s.runCommands (first ++ second) = match s.runCommands first with
      | ⟨t, .ok none⟩ => t.runCommands second
      | f => f := by
  induction first generalizing s with
  | nil => rfl
  | cons c first ih =>
      rw [List.cons_append, runCommands_cons, runCommands_cons]
      split
      · exact ih
      · rfl
      · rfl

/-- Sections that run to an end do as their commands do without them. -/
theorem runCommands_of_runSections {sections : List Section} {result : RunResult}
    (hsections : ∀ sec ∈ sections, ∀ c ∈ sec.commands, c.command.LogBlind)
    (h : s.runSections sections = ⟨t, .ok result⟩) :
    ∃ failed : Option (LocatedCommand × Problem),
      (s.runCommands (sections.flatMap (·.commands))).unlogged = ⟨t.unlogged, .ok failed⟩ ∧
      result.error = failed.map (·.2) ∧ result.source = failed.map (·.1.source) ∧
      result.line = failed.map (·.1.line) := by
  induction sections generalizing s with
  | nil =>
      obtain ⟨rfl, hresult⟩ := Finished.mk.inj h
      obtain rfl := Except.ok.inj hresult
      exact ⟨none, rfl, rfl, rfl, rfl⟩
  | cons sec sections ih =>
      rw [List.forall_mem_cons] at hsections
      have hlogged : (s.logSection sec).unlogged = s.unlogged := unlogged_logSection s sec
      obtain ⟨u, v, ends, hu, hv, hsession⟩ :=
        exists_of_unlogged_eq (runCommands_congr hsections.1 hlogged)
      rw [List.flatMap_cons, runCommands_append, hv]
      unfold runSections at h
      rw [hu] at h
      cases ends with
      | error failure => cases (Finished.mk.inj h).2
      | ok failed =>
          cases failed with
          | some failed =>
              obtain ⟨rfl, hresult⟩ := Finished.mk.inj h
              obtain rfl := Except.ok.inj hresult
              exact ⟨some failed, congrArg (Finished.mk · _) hsession.symm, rfl, rfl, rfl⟩
          | none =>
              dsimp only at h ⊢
              split at h
              · cases (Finished.mk.inj h).2
              · obtain ⟨failed, hrest, hresult⟩ := ih hsections.2 h
                have hrestart : ∀ c ∈ sections.flatMap (·.commands), c.command.LogBlind := by
                  intro c hc
                  obtain ⟨sec, hsec, hc⟩ := List.mem_flatMap.mp hc
                  exact hsections.2 sec hsec c hc
                refine ⟨failed, ?_, hresult⟩
                rw [← hrest]
                exact runCommands_congr hrestart hsession.symm

/-- Sections one after another: the second ones run where the first ended, if these complete. -/
theorem runSections_append (first second : List Section) :
    (∃ u : Session, s.runSections first = ⟨u.logOver true, .ok {}⟩ ∧
      s.runSections (first ++ second) = u.runSections second) ∨
    (s.runSections (first ++ second) = s.runSections first ∧
      ∀ result, (s.runSections first).result = .ok result → result.ok = false) := by
  induction first generalizing s with
  | nil => exact Or.inl ⟨s, rfl, rfl⟩
  | cons sec first ih =>
      simp only [List.cons_append, runSections]
      split
      · refine Or.inr ⟨rfl, fun result hresult => ?_⟩
        cases hresult
      · refine Or.inr ⟨rfl, fun result hresult => ?_⟩
        obtain rfl := Except.ok.inj hresult
        rfl
      · split
        · refine Or.inr ⟨rfl, fun result hresult => ?_⟩
          cases hresult
        · exact ih

theorem resources_runCommands {commands : List LocatedCommand}
    (h : ∀ c ∈ commands, c.command.KeepsResources) :
    (s.runCommands commands).session.resources = s.resources := by
  induction commands generalizing s with
  | nil => rfl
  | cons c commands ih =>
      rw [List.forall_mem_cons] at h
      have hrun : (s.runCommand c).session.resources = s.resources := by
        have hcommand := h.1 ((s.locate c.source c.line).logStart c)
        unfold runCommand
        dsimp only
        split <;> exact hcommand
      unfold runCommands
      split
      · rename_i hfirst
        rw [hfirst] at hrun
        exact (ih h.2).trans hrun
      · rename_i hfirst
        rwa [hfirst] at hrun
      · rename_i hfirst
        rwa [hfirst] at hrun

theorem resources_runSections {sections : List Section}
    (h : ∀ sec ∈ sections, ∀ c ∈ sec.commands, c.command.KeepsResources) :
    (s.runSections sections).session.resources = s.resources := by
  induction sections generalizing s with
  | nil => rfl
  | cons sec sections ih =>
      rw [List.forall_mem_cons] at h
      have hfirst : ((s.logSection sec).runCommands sec.commands).session.resources = s.resources :=
        resources_runCommands h.1
      unfold runSections
      split
      · rename_i heq
        rwa [heq] at hfirst
      · rename_i heq
        rwa [heq] at hfirst
      · rename_i heq
        rw [heq] at hfirst
        split
        · exact hfirst
        · exact (ih h.2).trans hfirst

end Flat

section Execute

variable {s t : Session} {r : Resources} {sections : List Section} {result : RunResult}

theorem execute_cases (h : s.execute r sections = ⟨t, .ok result⟩) :
    ∃ u : Session, t = u.release ∧
      (((s.bind r).Completes (sections.flatMap (·.commands)) u ∧ result = {}) ∨
        (s.bind r).StopsIn sections u result) := by
  obtain ⟨rfl, hresult⟩ := Finished.mk.inj h
  have hrun := runSections_cases (congrArg (Finished.mk _) hresult)
  refine ⟨_, rfl, ?_⟩
  rcases hrun with ⟨hcompletes, rfl⟩ | hstops
  · exact Or.inl ⟨hcompletes.after_log (.log _ _ _ _), rfl⟩
  · exact Or.inr (hstops.after_log (.log _ _ _ _))

/-- What is left of a run is what its commands leave, however they are divided into sections. -/
theorem runCommands_of_execute
    (hblind : ∀ c ∈ sections.flatMap (·.commands), c.command.LogBlind)
    (h : s.execute r sections = ⟨t, .ok result⟩) :
    ∃ (u : Session) (failed : Option (LocatedCommand × Problem)), t = u.release ∧
      ((s.bind r).runCommands (sections.flatMap (·.commands))).unlogged = ⟨u.unlogged, .ok failed⟩ ∧
      result.error = failed.map (·.2) ∧ result.source = failed.map (·.1.source) ∧
      result.line = failed.map (·.1.line) := by
  have hsections : ∀ sec ∈ sections, ∀ c ∈ sec.commands, c.command.LogBlind := by
    intro sec hsec c hc
    exact hblind c (List.mem_flatMap.mpr ⟨sec, hsec, hc⟩)
  obtain ⟨rfl, hresult⟩ := Finished.mk.inj h
  obtain ⟨failed, hrun, hfailed⟩ :=
    runCommands_of_runSections hsections (congrArg (Finished.mk _) hresult)
  refine ⟨_, failed, rfl, ?_, hfailed⟩
  rw [← hrun]
  exact runCommands_congr hblind rfl

/-- A session that was released can be bound again, and only its marks may differ. -/
theorem unlogged_rebind {marks : Dict Datum} (h : s.resources = some { r with bound := marks }) :
    (s.release.bind r).unlogged = s.unlogged := by
  have hunmarked : s.resources.map Resources.unmarked = some { r with bound := [] } := by
    rw [h]
    rfl
  change { s with events := [], resources := some { r with bound := [] } } = s.unlogged
  rw [← hunmarked]
  rfl

theorem execute_append {first second : List Section}
    (hblind : ∀ sec ∈ first ++ second, ∀ c ∈ sec.commands, c.command.LogBlind)
    (hkeeps : ∀ sec ∈ first, ∀ c ∈ sec.commands, c.command.KeepsResources) :
    (s.execute r (first ++ second)).unlogged = (s.executeBoth r first second).unlogged := by
  let start (sections : List Section) : Session :=
    (s.bind r).log .info "run.start" [("sections", .int sections.length)]
  have hrelease {f g : Finished RunResult} (h : f.unlogged = g.unlogged) :
      Finished.unlogged ⟨f.session.release, f.result⟩
        = Finished.unlogged ⟨g.session.release, g.result⟩ := by
    obtain ⟨u, v, result, rfl, rfl, hsession⟩ := exists_of_unlogged_eq h
    exact congrArg (fun u : Session => Finished.mk u.release result) hsession
  have hstart : (start (first ++ second)).unlogged = (start first).unlogged := rfl
  refine (hrelease (runSections_congr hblind hstart)).trans ?_
  have hexecute : s.execute r first = ⟨((start first).runSections first).session.release,
      ((start first).runSections first).result⟩ := rfl
  have hresources : ((start first).runSections first).session.resources
      = some { r with bound := [("run_id", .string s.runId)] } :=
    resources_runSections hkeeps
  unfold executeBoth
  rw [hexecute]
  rcases runSections_append (s := start first) first second with ⟨u, hfirst, hboth⟩ | ⟨hboth, hnot⟩
  · -- The second sections go on from a session that differs from a fresh start in its log only.
    rw [hfirst] at hresources ⊢
    rw [hboth]
    apply hrelease
    apply runSections_congr
    · exact fun sec hsec => hblind sec (List.mem_append_right first hsec)
    · exact (unlogged_rebind hresources).symm
  · rw [hboth]
    split
    · rename_i t result heq
      obtain ⟨hsession, hresult⟩ := Finished.mk.inj heq
      have hok : result.ok = false := hnot result hresult
      rw [hok, if_neg Bool.false_ne_true, heq]
    · rename_i heq
      rw [heq]

end Execute

/-- **A run ends at the first failure.** It runs the commands of its sections in order, each in the
session that the one before left and at its own place, up to the first that fails; that one is reported.
Sections with the same commands do the same, and so do sections that are run in two parts, as far as the
commands neither read the log nor replace the resources. Resources are released whatever happens. -/
theorem execute_failFast :
    (∀ (s t : Session) (r : Resources) (sections : List Section) (result : RunResult),
      s.execute r sections = ⟨t, .ok result⟩ → ∃ u : Session, t = u.release ∧
        (result.ok = true → (s.bind r).Completes (sections.flatMap (·.commands)) u ∧ result = {}) ∧
        (result.ok = false → (s.bind r).StopsIn sections u result ∧ t.lastError = result.error)) ∧
    (∀ (s t u : Session) (r : Resources) (first second : List Section) (a b : RunResult),
      first.flatMap (·.commands) = second.flatMap (·.commands) →
      (∀ c ∈ first.flatMap (·.commands), c.command.LogBlind) →
      s.execute r first = ⟨t, .ok a⟩ → s.execute r second = ⟨u, .ok b⟩ →
      t.unlogged = u.unlogged ∧ a.ok = b.ok ∧ a.error = b.error ∧ a.source = b.source ∧
        a.line = b.line) ∧
    (∀ (s : Session) (r : Resources) (first second : List Section),
      (∀ sec ∈ first ++ second, ∀ c ∈ sec.commands, c.command.LogBlind) →
      (∀ sec ∈ first, ∀ c ∈ sec.commands, c.command.KeepsResources) →
      (s.execute r (first ++ second)).unlogged = (s.executeBoth r first second).unlogged) ∧
    (∀ (s : Session) (r : Resources) (sections : List Section),
      (s.execute r sections).session.resources = none) := by
  refine ⟨?_, ?_, fun s r first second => execute_append, fun _ _ _ => rfl⟩
  · intro s t r sections result h
    obtain ⟨u, rfl, ⟨hcompletes, rfl⟩ | hstops⟩ := execute_cases h
    · exact ⟨u, rfl, fun _ => ⟨hcompletes, rfl⟩, nofun⟩
    · refine ⟨u, rfl, fun hok => ?_, fun _ => ⟨hstops, hstops.lastError⟩⟩
      rw [hstops.not_ok] at hok
      cases hok
  · intro s t u r first second a b hflat hblind hfirst hsecond
    obtain ⟨t, failed, rfl, hrun, herror, hsource, hline⟩ := runCommands_of_execute hblind hfirst
    rw [hflat] at hblind hrun
    obtain ⟨u, failed', rfl, hrun', herror', hsource', hline'⟩ :=
      runCommands_of_execute hblind hsecond
    obtain ⟨hsession, hends⟩ := Finished.mk.inj (hrun.symm.trans hrun')
    obtain rfl := Except.ok.inj hends
    have herrors : a.error = b.error := herror.trans herror'.symm
    refine ⟨congrArg release hsession, ?_, herrors, hsource.trans hsource'.symm,
      hline.trans hline'.symm⟩
    rw [RunResult.ok, RunResult.ok, herrors]

/-- Two values at once, another value, a match that fails and a value that is never computed: in four
sections, in one, and in two runs. -/
theorem execute_failFast_four_sections :
    let s : Session := { now := .zero false }
    let twice : Command := .custom "Twice" "" fun s => ⟨(s.push .top).push .top, none⟩
    let first : List Section :=
      [⟨"", 1, [⟨twice, "order", 1⟩]⟩, ⟨"one", 2, [⟨.value "1", "order", 3⟩]⟩]
    let second : List Section :=
      [⟨"two", 4, []⟩, ⟨"three", 5, [⟨.expect "2", "order", 6⟩, ⟨.value "3", "order", 7⟩]⟩]
    let whole : List Section := [⟨"all", 1, (first ++ second).flatMap (·.commands)⟩]
    ∃ t u a b, s.execute {} (first ++ second) = ⟨t, .ok a⟩ ∧ s.execute {} whole = ⟨u, .ok b⟩ ∧
      a.ok = false ∧ a.line = some 6 ∧ t.history.values.length = 3 ∧
      (∃ v : Session, t = v.release ∧ (s.bind {}).StopsIn (first ++ second) v a) ∧
      t.unlogged = u.unlogged ∧
      (s.execute {} (first ++ second)).unlogged = (s.executeBoth {} first second).unlogged ∧
      t.resources = none := by
  intro s twice first second whole
  obtain ⟨hcases, hflat, happend, hresources⟩ := execute_failFast
  have hblind : ∀ c ∈ (first ++ second).flatMap (·.commands), c.command.LogBlind := by
    intro c hc
    by_cases hbuiltin : c.command.isBuiltin = true
    · exact Command.logBlind_of_isBuiltin hbuiltin
    · have htwice : c = ⟨twice, "order", 1⟩ := by
        simp only [first, second, List.cons_append, List.nil_append, List.flatMap_cons,
          List.flatMap_nil, List.append_nil, List.mem_cons, List.not_mem_nil, or_false] at hc
        rcases hc with rfl | rfl | rfl | rfl
        · rfl
        all_goals exact absurd rfl hbuiltin
      rw [htwice]
      intro s t h
      exact congrArg (fun u : Session => Outcome.mk ((u.push .top).push .top) none) h
  have hkeeps : ∀ sec ∈ first, ∀ c ∈ sec.commands, c.command.KeepsResources := by
    simp only [first, List.forall_mem_cons, List.not_mem_nil, false_implies, implies_true, and_true]
    exact ⟨fun _ => rfl, Command.keepsResources_of_isBuiltin rfl⟩
  have hends : (s.execute {} (first ++ second)).result.toOption.map (fun a => (a.ok, a.line))
      = some (false, some 6) := by decide +kernel
  have hwhole : (s.execute {} whole).result.isOk = true := by decide +kernel
  have hlength : (s.execute {} (first ++ second)).session.history.values.length = 3 := by
    decide +kernel
  cases hfirst : s.execute {} (first ++ second) with
  | mk t ends =>
    cases hsecond : s.execute {} whole with
    | mk u ends' =>
      rw [hfirst] at hends hlength
      rw [hsecond] at hwhole
      cases ends with
      | error failure => cases hends
      | ok a =>
        cases ends' with
        | error failure => cases hwhole
        | ok b =>
          obtain ⟨hok, hline⟩ := Prod.mk.inj (Option.some.inj hends)
          obtain ⟨v, hv, -, hstops⟩ := hcases s t {} _ a hfirst
          have hsame := hflat s t u {} _ whole a b (by simp [whole]) hblind hfirst hsecond
          refine ⟨t, u, a, b, rfl, rfl, hok, hline, hlength, ⟨v, hv, (hstops hok).1⟩, hsame.1, ?_, ?_⟩
          · rw [← hfirst]
            apply happend s {} first second _ hkeeps
            intro sec hsec c hc
            exact hblind c (List.mem_flatMap.mpr ⟨sec, hsec, hc⟩)
          · have hreleased := hresources s {} (first ++ second)
            rwa [hfirst] at hreleased

end Session

end ApiProbe
