import ApiProbe.Proofs.Run.Breakdown
import ApiProbe.Proofs.Value.WellFormed

/-!
# Values that are shown

At the end of a section the newest value is shown in the log. A value with a number that has too many digits
cannot be, and this ends a run without a result though all its commands succeed. Nothing else does, as
long as the commands fail with problems only.
-/

namespace ApiProbe.Session

/-- Of the commands none breaks off where the run comes to it. -/
def NoneBreaks (s : Session) (commands : List LocatedCommand) : Prop :=
  ∀ before c after t u failure, commands = before ++ c :: after → s.Completes before t →
    ¬ t.BreaksAt c failure u

/-- The sections in front run to their end and the commands of the next one succeed, but what is then the
newest value cannot be shown. -/
inductive Unshowable (s : Session) (sections : List Section) : Prop
  | intro {front back : List Section} {sec : Section} {u t : Session} {v : Value}
      (hsections : sections = front ++ sec :: back)
      (hfront : s.runSections front = ⟨u.logOver true, .ok {}⟩)
      (hcommands : (u.logSection sec).runCommands sec.commands = ⟨t, .ok none⟩)
      (hnewest : t.newest? = some v) (hv : v.printable = false) : Unshowable s sections

variable {s t u : Session} {commands : List LocatedCommand} {sections : List Section}
  {failure : Failure}

theorem newestDatum_of_unprintable {v : Value} (hnewest : s.newest? = some v)
    (hv : v.printable = false) : s.newestDatum = .error (.fault .unprintable) := by
  unfold newestDatum
  rw [hnewest]
  dsimp only
  rw [Language.display, hv]
  rfl

theorem unprintable_of_newestDatum (h : s.newestDatum = .error failure) :
    failure = .fault .unprintable ∧ ∃ v, s.newest? = some v ∧ v.printable = false := by
  unfold newestDatum at h
  split at h
  · cases h
  · rename_i v hnewest
    have hdisplay := map_eq_error_iff.mp h
    unfold Language.display at hdisplay
    split at hdisplay
    · cases hdisplay
    · rename_i hv
      exact ⟨(Except.error.inj hdisplay).symm, v, hnewest, Bool.eq_false_of_not_eq_true hv⟩

theorem logOver_injective {ok : Bool} (h : s.logOver ok = t.logOver ok) : s = t := by
  have hevents : s.events = t.events := (List.append_inj' (congrArg events h) rfl).1
  calc s = { s.logOver ok with events := s.events } := rfl
    _ = { t.logOver ok with events := t.events } := by rw [h, hevents]
    _ = t := rfl

theorem runSections_front {front : List Section}
    (hfront : s.runSections front = ⟨u.logOver true, .ok {}⟩) (rest : List Section) :
    s.runSections (front ++ rest) = u.runSections rest := by
  rcases runSections_append (s := s) front rest with ⟨v, hv, hrest⟩ | ⟨-, hnot⟩
  · obtain rfl := logOver_injective (Finished.mk.inj (hv.symm.trans hfront)).1
    exact hrest
  · have hok := hnot {} (by rw [hfront])
    cases hok

theorem completes_of_runSections (h : s.runSections sections = ⟨u.logOver true, .ok {}⟩) :
    s.Completes (sections.flatMap (·.commands)) u := by
  induction sections generalizing s with
  | nil =>
      obtain rfl := logOver_injective (Finished.mk.inj h).1
      exact .nil (.refl s)
  | cons sec sections ih =>
      unfold runSections at h
      split at h
      · cases (Finished.mk.inj h).2
      · cases (Finished.mk.inj h).2
      · rename_i v hcommands
        split at h
        · cases (Finished.mk.inj h).2
        · have hfirst : s.Completes sec.commands v :=
            (completes_of_runCommands hcommands).after_log (.log _ _ _ _)
          rw [List.flatMap_cons]
          exact (hfirst.then_log (.log _ _ _ _)).append (ih h)

theorem Unshowable.result (h : s.Unshowable sections) :
    (s.runSections sections).result = .error (.fault .unprintable) := by
  cases h with
  | intro hsections hfront hcommands hnewest hv =>
      rw [hsections, runSections_front hfront, runSections, hcommands]
      dsimp only
      rw [newestDatum_of_unprintable hnewest hv]

/-- All commands up to the end of the section succeed. -/
theorem Unshowable.completes (h : s.Unshowable sections) :
    ∃ front sec back t v, sections = front ++ sec :: back ∧
      s.Completes (front.flatMap (·.commands) ++ sec.commands) t ∧ t.newest? = some v ∧
      v.printable = false := by
  cases h with
  | @intro front back sec u t v hsections hfront hcommands hnewest hv =>
      have hsec : u.Completes sec.commands t :=
        (completes_of_runCommands hcommands).after_log (.log _ _ _ _)
      exact ⟨front, sec, back, t, v, hsections, (completes_of_runSections hfront).append hsec, hnewest,
        hv⟩

theorem Unshowable.cons {sec : Section} {d : Datum}
    (hcommands : (s.logSection sec).runCommands sec.commands = ⟨t, .ok none⟩)
    (hdatum : t.newestDatum = .ok d)
    (h : (t.log .info "section.end" [("section", .string sec.name), ("value", d)]).Unshowable
      sections) : s.Unshowable (sec :: sections) := by
  cases h with
  | @intro front back last u v value hsections hfront hlast hnewest hvalue =>
      have hall : sec :: sections = (sec :: front) ++ last :: back := congrArg (sec :: ·) hsections
      refine .intro hall ?_ hlast hnewest hvalue
      rw [runSections, hcommands]
      dsimp only
      rw [hdatum]
      exact hfront

/-- Commands that always return or fail with a problem break off nowhere. -/
theorem noneBreaks_of_problems (h : ∀ c ∈ commands, ∀ u failure,
    (c.command.run u).failure = some failure → ∃ p, failure = .problem p) : s.NoneBreaks commands := by
  rintro before c after t u failure rfl - ⟨_, hrun, hfailure⟩
  obtain ⟨p, hp⟩ := h c (by simp) _ failure hrun
  exact hfailure p hp

theorem NoneBreaks.after (before : List LocatedCommand) (h : s.NoneBreaks (before ++ commands))
    (hbefore : s.Completes before t) : t.NoneBreaks commands := by
  intro front c back u v failure hcommands hfront
  refine h (before ++ front) c back u v failure ?_ (hbefore.append hfront)
  rw [hcommands, List.append_assoc]

theorem NoneBreaks.front {after : List LocatedCommand} (h : s.NoneBreaks (commands ++ after)) :
    s.NoneBreaks commands := by
  intro front c back u v failure hcommands hfront
  refine h front c (back ++ after) u v failure ?_ hfront
  rw [hcommands, List.append_assoc, List.cons_append]

theorem NoneBreaks.runCommands (h : s.NoneBreaks commands) :
    s.runCommands commands ≠ ⟨t, .error failure⟩ := by
  intro hrun
  induction commands generalizing s with
  | nil => cases (Finished.mk.inj hrun).2
  | cons c commands ih =>
      unfold Session.runCommands at hrun
      split at hrun
      · rename_i hfirst
        exact ih (NoneBreaks.after [c] h (completes_of_runCommand hfirst)) hrun
      · cases (Finished.mk.inj hrun).2
      · rename_i hfirst
        exact h [] c commands s _ _ rfl (.nil (.refl s)) (breaksAt_of_runCommand hfirst)

theorem NoneBreaks.unshowable (h : s.NoneBreaks (sections.flatMap (·.commands)))
    (hrun : (s.runSections sections).result = .error failure) :
    failure = .fault .unprintable ∧ s.Unshowable sections := by
  induction sections generalizing s with
  | nil => cases hrun
  | cons sec sections ih =>
      rw [List.flatMap_cons] at h
      have hstart : s.Completes [] (s.logSection sec) := .nil (.log _ _ _ _)
      have hsec : (s.logSection sec).NoneBreaks (sec.commands ++ sections.flatMap (·.commands)) :=
        NoneBreaks.after [] h hstart
      unfold runSections at hrun
      split at hrun
      · rename_i hcommands
        exact absurd hcommands hsec.front.runCommands
      · cases hrun
      · rename_i t hcommands
        split at hrun
        · rename_i hdatum
          obtain rfl := Except.error.inj hrun
          obtain ⟨hfailure, v, hnewest, hv⟩ := unprintable_of_newestDatum hdatum
          have hall : sec :: sections = [] ++ sec :: sections := rfl
          exact ⟨hfailure, .intro hall rfl hcommands hnewest hv⟩
        · rename_i d hdatum
          have hend := (completes_of_runCommands hcommands).then_log (LogsTo.log t .info "section.end"
            [("section", .string sec.name), ("value", d)])
          obtain ⟨hfailure, hunshowable⟩ := ih (NoneBreaks.after _ hsec hend) hrun
          exact ⟨hfailure, hunshowable.cons hcommands hdatum⟩

/-- **Only a value that cannot be shown ends a run without a result.** If no command breaks off, a run has
no result just if at the end of some section, when all commands so far have succeeded, the newest
value has a number with too many digits. Otherwise it is reported as successful if all its commands succeed,
and else with the first that fails. -/
theorem execute_shown (s : Session) (r : Resources) (sections : List Section)
    (h : (s.bind r).NoneBreaks (sections.flatMap (·.commands))) :
    let start := (s.bind r).log .info "run.start" [("sections", .int sections.length)]
    (∀ failure, (s.execute r sections).result = .error failure ↔
      failure = .fault .unprintable ∧ start.Unshowable sections) ∧
    (start.Unshowable sections → ∃ front sec back t v, sections = front ++ sec :: back ∧
      (s.bind r).Completes (front.flatMap (·.commands) ++ sec.commands) t ∧ t.newest? = some v ∧
      v.printable = false) ∧
    (¬ start.Unshowable sections → ∃ u result, s.execute r sections = ⟨u.release, .ok result⟩ ∧
      (((s.bind r).Completes (sections.flatMap (·.commands)) u ∧ result = {}) ∨
        (s.bind r).StopsIn sections u result)) := by
  intro start
  have hstart : (s.bind r).LogsTo start := .log _ _ _ _
  have hnone : start.NoneBreaks (sections.flatMap (·.commands)) :=
    NoneBreaks.after [] h (.nil hstart)
  have hbreaks : ∀ failure, (s.execute r sections).result = .error failure ↔
      failure = .fault .unprintable ∧ start.Unshowable sections := by
    intro failure
    refine ⟨hnone.unshowable, ?_⟩
    rintro ⟨rfl, hunshowable⟩
    exact hunshowable.result
  refine ⟨hbreaks, fun hunshowable => ?_, fun hshowable => ?_⟩
  · obtain ⟨front, sec, back, t, v, hsections, hcompletes, hv⟩ := hunshowable.completes
    exact ⟨front, sec, back, t, v, hsections, hcompletes.after_log hstart, hv⟩
  · cases hrun : s.execute r sections with
    | mk t ends =>
      cases ends with
      | error failure =>
          have hresult := (hbreaks failure).mp (by rw [hrun])
          exact absurd hresult.2 hshowable
      | ok result =>
          obtain ⟨u, rfl, hends⟩ := execute_cases hrun
          exact ⟨u, result, rfl, hends⟩

/-- A number that is too long does no harm in the middle of a section, but it does at the end of one. -/
theorem execute_shown_long_number :
    let push (n : Int) : Command := .custom "Push" "" fun s => ⟨s.push (.atom (.int n)), none⟩
    let s : Session := { now := .zero false }
    let short : List Section :=
      [⟨"one", 1, [⟨push 1, "order", 2⟩]⟩,
        ⟨"two", 3, [⟨push (10 ^ 4300), "order", 4⟩, ⟨push 1, "order", 5⟩]⟩]
    let long : List Section := short ++ [⟨"three", 6, [⟨push (10 ^ 4300), "order", 7⟩]⟩, ⟨"four", 8, []⟩]
    (s.bind {}).NoneBreaks (short.flatMap (·.commands)) ∧
      (s.bind {}).NoneBreaks (long.flatMap (·.commands)) ∧
      (∃ u result, s.execute {} short = ⟨u.release, .ok result⟩ ∧ result.ok = true ∧
        (s.bind {}).Completes (short.flatMap (·.commands)) u) ∧
      (s.execute {} long).result = .error (.fault .unprintable) ∧
      ∃ front sec back t v, long = front ++ sec :: back ∧
        (s.bind {}).Completes (front.flatMap (·.commands) ++ sec.commands) t ∧ t.newest? = some v ∧
        v.printable = false := by
  intro push s short long
  have hpush {c : LocatedCommand} (hc : c ∈ long.flatMap (·.commands)) (u : Session) :
      (c.command.run u).failure = none := by
    simp only [long, short, List.cons_append, List.nil_append, List.flatMap_cons, List.flatMap_nil,
      List.append_nil, List.mem_cons, List.not_mem_nil, or_false] at hc
    rcases hc with rfl | rfl | rfl | rfl <;> rfl
  have hlong : (s.bind {}).NoneBreaks (long.flatMap (·.commands)) := by
    refine noneBreaks_of_problems fun c hc u failure hfailure => ?_
    rw [hpush hc] at hfailure
    cases hfailure
  have hshort : (s.bind {}).NoneBreaks (short.flatMap (·.commands)) := by
    have hfront := hlong
    rw [show long = short ++ _ from rfl, List.flatMap_append] at hfront
    exact hfront.front
  have hok : (s.execute {} short).result.toOption.map (·.ok) = some true := by decide +kernel
  have hbroken : (s.execute {} long).result.isOk = false := by decide +kernel
  obtain ⟨hbreaks, hwhere, -⟩ := execute_shown s {} long hlong
  obtain ⟨hbreaksShort, -, hreported⟩ := execute_shown s {} short hshort
  refine ⟨hshort, hlong, ?_, ?_⟩
  · have hshowable : ¬ ((s.bind {}).log .info "run.start"
        [("sections", .int short.length)]).Unshowable short := by
      intro hunshowable
      rw [(hbreaksShort _).mpr ⟨rfl, hunshowable⟩] at hok
      cases hok
    obtain ⟨u, result, hrun, ⟨hcompletes, rfl⟩ | hstops⟩ := hreported hshowable
    · exact ⟨u, {}, hrun, rfl, hcompletes⟩
    · rw [hrun] at hok
      cases hok.symm.trans (congrArg some hstops.not_ok)
  · cases hresult : (s.execute {} long).result with
    | ok result =>
        rw [hresult] at hbroken
        cases hbroken
    | error failure =>
        obtain ⟨rfl, hunshowable⟩ := (hbreaks failure).mp hresult
        exact ⟨rfl, hwhere hunshowable⟩

/-- A command that succeeds takes the newest value from the most digits that there may be to one more. -/
theorem execute_unshown :
    let newest : Value := .atom (.int (10 ^ 4299))
    let s : Session :=
      { now := .zero false
        history := { capacity := History.standardCapacity, values := [newest] } }
    let c : LocatedCommand := ⟨.value "$ * 10", "order", 2⟩
    newest.WellFormed ∧ newest.printable = true ∧
      (∃ t, (s.bind {}).runCommands [c] = ⟨t, .ok none⟩) ∧
      (s.execute {} [⟨"order", 1, [c]⟩]).result.isOk = false := by
  intro newest s c
  have hnewest : newest.WellFormed := .atom trivial
  have hsucceeds : ((s.bind {}).runCommands [c]).result.toOption.map Option.isNone = some true := by
    decide +kernel
  refine ⟨hnewest, by decide +kernel, ?_, by decide +kernel⟩
  cases hrun : (s.bind {}).runCommands [c] with
  | mk t ends =>
    rw [hrun] at hsucceeds
    cases ends with
    | error failure => cases hsucceeds
    | ok failed =>
        cases failed with
        | none => exact ⟨t, rfl⟩
        | some failed => cases hsucceeds

end ApiProbe.Session
