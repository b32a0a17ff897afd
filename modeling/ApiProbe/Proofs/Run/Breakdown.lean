import ApiProbe.Proofs.Run.FailFast

/-!
# Runs that break off

A failure that is no problem ends a run without a result. It comes from the command that ran last, or
from the newest value, which is shown at the end of a section. With these, all ends of a run are known.
-/

namespace ApiProbe.Session

/-- The command runs at its place and breaks off. -/
inductive BreaksAt (s : Session) (c : LocatedCommand) : Failure → Session → Prop
  | intro {u : Session} {failure : Failure} (hstart : (s.locate c.source c.line).LogsTo u)
      (hrun : (c.command.run u).failure = some failure) (hfailure : ∀ p, failure ≠ .problem p) :
      BreaksAt s c failure (c.command.run u).session

/-- The commands run up to one that breaks off, or up to the end of a section whose newest value cannot
be shown. -/
inductive BreaksOff (s : Session) (commands : List LocatedCommand) (failure : Failure) (t : Session) :
    Prop
  | command {before after : List LocatedCommand} {c : LocatedCommand} {u : Session}
      (hcommands : commands = before ++ c :: after) (hbefore : s.Completes before u)
      (hbreaks : u.BreaksAt c failure t) : BreaksOff s commands failure t
  | sectionEnd {before after : List LocatedCommand} (hcommands : commands = before ++ after)
      (hbefore : s.Completes before t) (hfailure : t.newestDatum = .error failure) :
      BreaksOff s commands failure t

section

variable {s t u : Session} {commands : List LocatedCommand} {c : LocatedCommand} {failure : Failure}

theorem LogsTo.history (h : s.LogsTo t) : t.history = s.history := by
  obtain ⟨more, rfl⟩ := h
  rfl

theorem BreaksAt.history (h : s.BreaksAt c failure t) (hc : c.command.isBuiltin = true) :
    t.history = s.history := by
  cases h with
  | @intro u _ hstart hrun _ =>
      have hkeeps : (c.command.run u).session.history = u.history := by
        apply (keeps_run hc).history
        rw [hrun]
        exact nofun
      exact hkeeps.trans hstart.history

theorem BreaksOff.after {before : List LocatedCommand} (hbefore : s.Completes before t)
    (h : t.BreaksOff commands failure u) : s.BreaksOff (before ++ commands) failure u := by
  cases h with
  | command hcommands hfront hbreaks =>
      obtain rfl := hcommands
      exact .command (by rw [List.append_assoc]) (hbefore.append hfront) hbreaks
  | sectionEnd hcommands hfront hfailure =>
      obtain rfl := hcommands
      exact .sectionEnd (by rw [List.append_assoc]) (hbefore.append hfront) hfailure

theorem BreaksOff.append (h : s.BreaksOff commands failure t) (more : List LocatedCommand) :
    s.BreaksOff (commands ++ more) failure t := by
  cases h with
  | command hcommands hfront hbreaks =>
      obtain rfl := hcommands
      exact .command (by rw [List.append_assoc, List.cons_append]) hfront hbreaks
  | sectionEnd hcommands hfront hfailure =>
      obtain rfl := hcommands
      exact .sectionEnd (by rw [List.append_assoc]) hfront hfailure

theorem BreaksOff.after_log (hst : s.LogsTo t) (h : t.BreaksOff commands failure u) :
    s.BreaksOff commands failure u :=
  h.after (.nil hst)

theorem breaksAt_of_runCommand (h : s.runCommand c = ⟨t, .error failure⟩) :
    s.BreaksAt c failure t := by
  unfold runCommand at h
  dsimp only at h
  split at h
  · cases (Finished.mk.inj h).2
  · cases (Finished.mk.inj h).2
  · rename_i e hproblem hrun
    obtain ⟨rfl, hfailure⟩ := Finished.mk.inj h
    obtain rfl := Except.error.inj hfailure
    exact .intro (.log _ _ _ _) hrun hproblem

theorem breaksOff_of_runCommands (h : s.runCommands commands = ⟨t, .error failure⟩) :
    s.BreaksOff commands failure t := by
  induction commands generalizing s with
  | nil => cases (Finished.mk.inj h).2
  | cons c commands ih =>
      unfold runCommands at h
      split at h
      · rename_i hfirst
        exact .after (completes_of_runCommand hfirst) (ih h)
      · cases (Finished.mk.inj h).2
      · rename_i hfirst
        obtain ⟨rfl, hfailure⟩ := Finished.mk.inj h
        obtain rfl := Except.error.inj hfailure
        exact .command rfl (.nil (.refl s)) (breaksAt_of_runCommand hfirst)

theorem breaksOff_of_runSections {sections : List Section}
    (h : s.runSections sections = ⟨t, .error failure⟩) :
    s.BreaksOff (sections.flatMap (·.commands)) failure t := by
  induction sections generalizing s with
  | nil => cases (Finished.mk.inj h).2
  | cons sec sections ih =>
      rw [List.flatMap_cons]
      unfold runSections at h
      split at h
      · rename_i hcommands
        obtain ⟨rfl, hfailure⟩ := Finished.mk.inj h
        obtain rfl := Except.error.inj hfailure
        have hbreaks := breaksOff_of_runCommands hcommands
        exact (hbreaks.after_log (.log _ _ _ _)).append _
      · cases (Finished.mk.inj h).2
      · rename_i u hcommands
        have hfirst : s.Completes sec.commands u :=
          (completes_of_runCommands hcommands).after_log (.log _ _ _ _)
        split at h
        · rename_i hdatum
          obtain ⟨rfl, hfailure⟩ := Finished.mk.inj h
          obtain rfl := Except.error.inj hfailure
          exact .sectionEnd rfl hfirst hdatum
        · exact .after (hfirst.then_log (.log _ _ _ _)) (ih h)

theorem execute_broken {r : Resources} {sections : List Section}
    (h : s.execute r sections = ⟨t, .error failure⟩) :
    ∃ u : Session, t = u.release ∧
      (s.bind r).BreaksOff (sections.flatMap (·.commands)) failure u := by
  obtain ⟨rfl, hresult⟩ := Finished.mk.inj h
  have hbreaks := breaksOff_of_runSections (congrArg (Finished.mk _) hresult)
  exact ⟨_, rfl, hbreaks.after_log (.log _ _ _ _)⟩

/-- The commands run up to a point, and then the next one too if it is the last to run: it fails or
breaks off. -/
inductive Ends (s : Session) : List LocatedCommand → List LocatedCommand → Session → Prop
  | between {before after : List LocatedCommand} {t : Session} (hbefore : s.Completes before t) :
      Ends s before after t
  | failed {before after : List LocatedCommand} {c : LocatedCommand} {u t : Session} {p : Problem}
      (hbefore : s.Completes before u) (hfails : u.FailsAt c p t) : Ends s before (c :: after) t
  | broken {before after : List LocatedCommand} {c : LocatedCommand} {u t : Session}
      {failure : Failure} (hbefore : s.Completes before u) (hbreaks : u.BreaksAt c failure t) :
      Ends s before (c :: after) t

theorem execute_ends (s : Session) (r : Resources) (sections : List Section) :
    ∃ before after u, sections.flatMap (·.commands) = before ++ after ∧
      (s.execute r sections).session = u.release ∧ (s.bind r).Ends before after u ∧
      ∀ result, (s.execute r sections).result = .ok result → result.ok = true → after = [] := by
  cases hrun : s.execute r sections with
  | mk t ends =>
    cases ends with
    | error failure =>
        obtain ⟨u, rfl, hbreaks⟩ := execute_broken hrun
        cases hbreaks with
        | command hcommands hbefore hat =>
            exact ⟨_, _, u, hcommands, rfl, .broken hbefore hat, nofun⟩
        | sectionEnd hcommands hbefore _ =>
            exact ⟨_, _, u, hcommands, rfl, .between hbefore, nofun⟩
    | ok result =>
        obtain ⟨u, rfl, ⟨hcompletes, rfl⟩ | hstops⟩ := execute_cases hrun
        · exact ⟨_, [], u, (List.append_nil _).symm, rfl, .between hcompletes, fun _ _ _ => rfl⟩
        · obtain ⟨before, c, after, v, p, hcommands, hbefore, hfails, -⟩ := hstops.exists_failsAt
          refine ⟨before, c :: after, u, hcommands, rfl, .failed hbefore hfails, ?_⟩
          intro result' hresult hok
          obtain rfl := Except.ok.inj hresult
          rw [hstops.not_ok] at hok
          cases hok

/-- Only commands that succeed change the history of a run. -/
theorem Ends.history {before after : List LocatedCommand} (h : s.Ends before after t)
    (hbuiltin : ∀ c ∈ after, c.command.isBuiltin = true) :
    ∃ u, s.Completes before u ∧ t.history = u.history := by
  cases h with
  | between hbefore => exact ⟨t, hbefore, rfl⟩
  | failed hbefore hfails =>
      exact ⟨_, hbefore, hfails.history (hbuiltin _ List.mem_cons_self)⟩
  | broken hbefore hbreaks =>
      exact ⟨_, hbefore, hbreaks.history (hbuiltin _ List.mem_cons_self)⟩

end

end ApiProbe.Session
