import ApiProbe.Proofs.Run.Command
import ApiProbe.Run.Execute

/-!
# What a run of sections does

The commands of a run form a chain: each runs where the one before left off, at its own place, and the
chain ends with the first that fails. Sections add nothing to it but entries of the log.
-/

namespace ApiProbe.Session

/-- The second session is the first with more entries in its log. -/
def LogsTo (s t : Session) : Prop :=
  ∃ more, t = { s with events := s.events ++ more }

namespace LogsTo

variable {s t u : Session}

theorem refl (s : Session) : s.LogsTo s :=
  ⟨[], by rw [List.append_nil]⟩

theorem log (s : Session) (level : Level) (name : String) (fields : Dict Datum) :
    s.LogsTo (s.log level name fields) :=
  ⟨_, rfl⟩

theorem trans (hst : s.LogsTo t) (htu : t.LogsTo u) : s.LogsTo u := by
  obtain ⟨first, rfl⟩ := hst
  obtain ⟨second, rfl⟩ := htu
  exact ⟨first ++ second, by rw [List.append_assoc]⟩

theorem locate (h : s.LogsTo t) (source : String) (line : Int) :
    (s.locate source line).LogsTo (t.locate source line) := by
  obtain ⟨more, rfl⟩ := h
  exact ⟨more, rfl⟩

end LogsTo

/-- The commands run one after another, each where the one before left off and at its own place, and
none fails. -/
inductive Completes : Session → List LocatedCommand → Session → Prop
  | nil {s t : Session} (hend : s.LogsTo t) : Completes s [] t
  | cons {s u t : Session} {c : LocatedCommand} {commands : List LocatedCommand}
      (hstart : (s.locate c.source c.line).LogsTo u) (hrun : (c.command.run u).failure = none)
      (hrest : Completes (c.command.run u).session commands t) : Completes s (c :: commands) t

/-- The command runs at its place and fails, with a problem that is then at its place as well. -/
inductive FailsAt (s : Session) (c : LocatedCommand) : Problem → Session → Prop
  | intro {u t : Session} {p : Problem} (hstart : (s.locate c.source c.line).LogsTo u)
      (hrun : (c.command.run u).failure = some (.problem p))
      (hend : LogsTo
        { (c.command.run u).session with lastError := some (p.locate c.source c.line) } t) :
      FailsAt s c (p.locate c.source c.line) t

/-- The commands run up to the one that is given, which fails. -/
def StopsAt (s : Session) (commands : List LocatedCommand) (c : LocatedCommand) (p : Problem)
    (t : Session) : Prop :=
  ∃ before after u, commands = before ++ c :: after ∧ s.Completes before u ∧ u.FailsAt c p t

section Chains

variable {s t u : Session} {c : LocatedCommand} {commands : List LocatedCommand} {p : Problem}

theorem Completes.after_log (hst : s.LogsTo t) (h : t.Completes commands u) :
    s.Completes commands u := by
  cases h with
  | nil hend => exact .nil (hst.trans hend)
  | cons hstart hrun hrest => exact .cons ((hst.locate _ _).trans hstart) hrun hrest

theorem Completes.then_log (h : s.Completes commands t) (htu : t.LogsTo u) :
    s.Completes commands u := by
  induction h with
  | nil hend => exact .nil (hend.trans htu)
  | cons hstart hrun _ ih => exact .cons hstart hrun (ih htu)

theorem Completes.append {more : List LocatedCommand} (hfirst : s.Completes commands t)
    (hrest : t.Completes more u) : s.Completes (commands ++ more) u := by
  induction hfirst with
  | nil hend => exact hrest.after_log hend
  | cons hstart hrun _ ih => exact .cons hstart hrun (ih hrest)

theorem FailsAt.then_log (h : s.FailsAt c p t) (htu : t.LogsTo u) : s.FailsAt c p u := by
  cases h with
  | intro hstart hrun hend => exact .intro hstart hrun (hend.trans htu)

theorem FailsAt.lastError (h : s.FailsAt c p t) : t.lastError = some p := by
  cases h with
  | intro _ _ hend =>
      obtain ⟨_, rfl⟩ := hend
      rfl

/-- A command of the language that fails leaves the values computed before it. -/
theorem FailsAt.history (h : s.FailsAt c p t) (hc : c.command.isBuiltin = true) :
    t.history = s.history := by
  cases h with
  | @intro u _ q hstart hrun hend =>
      obtain ⟨_, rfl⟩ := hend
      obtain ⟨_, rfl⟩ := hstart
      apply (keeps_run hc).history
      rw [hrun]
      exact nofun

theorem StopsAt.then_log (h : s.StopsAt commands c p t) (htu : t.LogsTo u) :
    s.StopsAt commands c p u := by
  obtain ⟨before, after, v, hcommands, hbefore, hfails⟩ := h
  exact ⟨before, after, v, hcommands, hbefore, hfails.then_log htu⟩

theorem StopsAt.after {before : List LocatedCommand} (hbefore : s.Completes before t)
    (h : t.StopsAt commands c p u) : s.StopsAt (before ++ commands) c p u := by
  obtain ⟨front, after, v, rfl, hfront, hfails⟩ := h
  exact ⟨before ++ front, after, v, by rw [List.append_assoc], hbefore.append hfront, hfails⟩

end Chains

section Runs

variable {s t : Session} {c : LocatedCommand} {p : Problem}

theorem completes_of_runCommand (h : s.runCommand c = ⟨t, .ok none⟩) : s.Completes [c] t := by
  unfold runCommand at h
  dsimp only at h
  split at h
  · rename_i hrun
    obtain ⟨rfl, _⟩ := Finished.mk.inj h
    exact .cons (.log _ _ _ _) hrun (.nil (.log _ _ _ _))
  · cases (Finished.mk.inj h).2
  · cases (Finished.mk.inj h).2

theorem failsAt_of_runCommand (h : s.runCommand c = ⟨t, .ok (some p)⟩) : s.FailsAt c p t := by
  unfold runCommand at h
  dsimp only at h
  split at h
  · cases (Finished.mk.inj h).2
  · rename_i hrun
    obtain ⟨rfl, hp⟩ := Finished.mk.inj h
    obtain rfl := Option.some.inj (Except.ok.inj hp)
    exact .intro (.log _ _ _ _) hrun (.refl _)
  · cases (Finished.mk.inj h).2

theorem completes_of_runCommands {commands : List LocatedCommand}
    (h : s.runCommands commands = ⟨t, .ok none⟩) : s.Completes commands t := by
  induction commands generalizing s with
  | nil =>
      obtain ⟨rfl, _⟩ := Finished.mk.inj h
      exact .nil (.refl _)
  | cons c commands ih =>
      unfold runCommands at h
      split at h
      · rename_i hfirst
        exact (completes_of_runCommand hfirst).append (ih h)
      · cases (Finished.mk.inj h).2
      · cases (Finished.mk.inj h).2

theorem stopsAt_of_runCommands {commands : List LocatedCommand}
    (h : s.runCommands commands = ⟨t, .ok (some (c, p))⟩) : s.StopsAt commands c p t := by
  induction commands generalizing s with
  | nil => cases (Finished.mk.inj h).2
  | cons first commands ih =>
      unfold runCommands at h
      split at h
      · rename_i hfirst
        exact .after (completes_of_runCommand hfirst) (ih h)
      · rename_i q hfirst
        obtain ⟨rfl, hp⟩ := Finished.mk.inj h
        obtain ⟨rfl, rfl⟩ := Prod.mk.inj (Option.some.inj (Except.ok.inj hp))
        exact ⟨[], commands, s, rfl, .nil (.refl _), failsAt_of_runCommand hfirst⟩
      · cases (Finished.mk.inj h).2

/-- The run stops in the section of the first command that fails. It is reported with its problem and
its place, and what was computed before it stays. -/
inductive StopsIn (s : Session) (sections : List Section) (t : Session) : RunResult → Prop
  | intro {front back : List Section} {sec : Section} {before after : List LocatedCommand}
      {c : LocatedCommand} {u : Session} {p : Problem} (hsections : sections = front ++ sec :: back)
      (hcommands : sec.commands = before ++ c :: after)
      (hbefore : s.Completes (front.flatMap (·.commands) ++ before) u) (hfails : u.FailsAt c p t)
      (hhistory : c.command.isBuiltin = true → t.history = u.history) :
      StopsIn s sections t ⟨some p, some c.source, some c.line, some sec.name⟩

theorem StopsAt.stopsIn {front back : List Section} {sec : Section} {u : Session}
    (hfront : s.Completes (front.flatMap (·.commands)) u) (h : u.StopsAt sec.commands c p t) :
    s.StopsIn (front ++ sec :: back) t ⟨some p, some c.source, some c.line, some sec.name⟩ := by
  obtain ⟨before, after, v, hcommands, hbefore, hfails⟩ := h
  exact .intro rfl hcommands (hfront.append hbefore) hfails hfails.history

theorem StopsIn.cons {sections : List Section} {sec : Section} {u : Session} {result : RunResult}
    (hsection : s.Completes sec.commands u) (h : u.StopsIn sections t result) :
    s.StopsIn (sec :: sections) t result := by
  cases h with
  | @intro front back last before after c v p hsections hcommands hbefore hfails hhistory =>
      subst hsections
      have hall : sec :: (front ++ last :: back) = (sec :: front) ++ last :: back := rfl
      refine .intro hall hcommands ?_ hfails hhistory
      rw [List.flatMap_cons, List.append_assoc]
      exact hsection.append hbefore

/-- Sections that run to an end either run all their commands or stop at the first that fails. -/
theorem runSections_cases {sections : List Section} {result : RunResult}
    (h : s.runSections sections = ⟨t, .ok result⟩) :
    (s.Completes (sections.flatMap (·.commands)) t ∧ result = {}) ∨ s.StopsIn sections t result := by
  induction sections generalizing s with
  | nil =>
      obtain ⟨rfl, hresult⟩ := Finished.mk.inj h
      obtain rfl := Except.ok.inj hresult
      exact Or.inl ⟨.nil (.log _ _ _ _), rfl⟩
  | cons sec sections ih =>
      unfold runSections at h
      split at h
      · cases (Finished.mk.inj h).2
      · rename_i u c p hcommands
        obtain ⟨rfl, hresult⟩ := Finished.mk.inj h
        obtain rfl := Except.ok.inj hresult
        have hstops : (s.logSection sec).StopsAt sec.commands c p
            ((u.logFailed sec.name c p).logOver false) :=
          (stopsAt_of_runCommands hcommands).then_log ((LogsTo.log _ _ _ _).trans (.log _ _ _ _))
        have hfront : s.Completes ([].flatMap Section.commands) (s.logSection sec) :=
          .nil (.log _ _ _ _)
        exact Or.inr (hstops.stopsIn hfront)
      · rename_i u hcommands
        have hfirst : s.Completes sec.commands u :=
          (completes_of_runCommands hcommands).after_log (.log _ _ _ _)
        split at h
        · cases (Finished.mk.inj h).2
        · rename_i d _
          have hsection : s.Completes sec.commands
              (u.log .info "section.end" [("section", .string sec.name), ("value", d)]) :=
            hfirst.then_log (.log _ _ _ _)
          rcases ih h with ⟨hrest, rfl⟩ | hstops
          · exact Or.inl ⟨hsection.append hrest, rfl⟩
          · exact Or.inr (hstops.cons hsection)

theorem StopsIn.after_log {sections : List Section} {result : RunResult} {u : Session}
    (hst : s.LogsTo t) (h : t.StopsIn sections u result) : s.StopsIn sections u result := by
  cases h with
  | intro hsections hcommands hbefore hfails hhistory =>
      exact .intro hsections hcommands (hbefore.after_log hst) hfails hhistory

/-- Of all the commands in order it is the first that fails. -/
theorem StopsIn.exists_failsAt {sections : List Section} {result : RunResult}
    (h : s.StopsIn sections t result) :
    ∃ before c after u p, sections.flatMap (·.commands) = before ++ c :: after ∧
      s.Completes before u ∧ u.FailsAt c p t ∧ result.error = some p ∧
      result.source = some c.source ∧ result.line = some (c.line : Int) := by
  cases h with
  | @intro front back sec before after c u p hsections hcommands hbefore hfails _ =>
      refine ⟨_, c, after ++ back.flatMap (·.commands), u, p, ?_, hbefore, hfails, rfl, rfl, rfl⟩
      rw [hsections, List.flatMap_append, List.flatMap_cons, hcommands, List.append_assoc,
        List.append_assoc, List.cons_append]

theorem StopsIn.lastError {sections : List Section} {result : RunResult}
    (h : s.StopsIn sections t result) : t.lastError = result.error := by
  cases h with
  | intro _ _ _ hfails _ => exact hfails.lastError

theorem StopsIn.not_ok {sections : List Section} {result : RunResult}
    (h : s.StopsIn sections t result) : result.ok = false := by
  cases h
  rfl

end Runs

end ApiProbe.Session
