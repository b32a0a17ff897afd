import ApiProbe.Proofs.Run.FailFast

/-!
# The log of a run

What a run logs tells how it went: each section and each command in it with its start and its end, what a
command logs itself in between, and a failure only where the run ends.
-/

namespace ApiProbe

/-- What an event says: its level, its name and its own fields. -/
structure Entry where
  level : Level
  name : String
  fields : Dict Datum

def Event.entry (e : Event) : Entry :=
  ⟨e.level, e.name, e.fields⟩

namespace Entry

def runStart (count : Nat) : Entry :=
  ⟨.info, "run.start", [("sections", .int count)]⟩

def runEnd (ok : Bool) : Entry :=
  ⟨.info, "run.end", [("ok", .bool ok)]⟩

def sectionStart (sec : Section) : Entry :=
  ⟨.info, "section.start", [("section", .string sec.name), ("line", .int sec.startLine),
    ("message", .string s!"Executing section \"{sec.name}\"")]⟩

def sectionEnd (sec : Section) (newest : Datum) : Entry :=
  ⟨.info, "section.end", [("section", .string sec.name), ("value", newest)]⟩

def commandStart (c : LocatedCommand) : Entry :=
  ⟨.debug, "command.start",
    [("command", .string c.command.title), ("source", .string c.source), ("line", .int c.line)]⟩

/-- Clocks play no part in a session, so no time is seen to pass. -/
def commandEnd (c : LocatedCommand) : Entry :=
  ⟨.debug, "command.end", [("line", .int c.line), ("elapsed_ms", .int 0)]⟩

def commandFailed (sectionName : String) (c : LocatedCommand) (p : Problem) : Entry :=
  ⟨.error, "command.failed",
    [("section", .string sectionName), ("source", .string c.source), ("line", .int c.line),
      ("command", .string c.command.title), ("error", .string p.text)]⟩

def request (r : Http.Request) : Entry :=
  ⟨.debug, "http.request",
    [("method", .string r.method), ("url", .string r.url), ("headers", headersDatum r.headers),
      ("body_len", .int r.body.length)]⟩

def response (r : Http.Request) (status : Int) : Entry :=
  ⟨.info, "http.response",
    [("method", .string r.method), ("url", .string r.url), ("status", .int status)]⟩

end Entry

def Session.entries (s : Session) : List Entry :=
  s.events.map Event.entry

/-- Nothing but a request is logged by a command of the language, and a response only behind its
request. -/
inductive Command.Own : Command → List Entry → Prop
  | value (text : String) : Own (.value text) []
  | expect (text : String) : Own (.expect text) []
  | unsent (request : Http.Request) : Own (.http request) []
  | unanswered (request sent : Http.Request) : Own (.http request) [.request sent]
  | answered (request sent : Http.Request) (status : Int) :
      Own (.http request) [.request sent, .response sent status]
  | custom (title argument : String) (effect : Session → Outcome) (own : List Entry) :
      Own (.custom title argument effect) own

/-- The command adds its own entries to the log, where it runs in the session. -/
structure Command.Adds (c : Command) (s : Session) (own : List Entry) : Prop where
  entries : (c.run s).session.entries = s.entries ++ own
  own : c.Own own

/-- The command takes nothing out of the log. -/
def Command.Appends (c : Command) : Prop :=
  ∀ s : Session, ∃ own, (c.run s).session.entries = s.entries ++ own

section Own

variable {s : Session}

theorem entries_log (s : Session) (level : Level) (name : String) (fields : Dict Datum) :
    (s.log level name fields).entries = s.entries ++ [⟨level, name, fields⟩] :=
  List.map_append

theorem entries_of (result : Except Failure Value) :
    (Outcome.of s s.push result).session.entries = s.entries := by
  cases result <;> rfl

theorem entries_receive (request : Http.Request) (answer : Except Failure Http.Response) :
    (s.receive request answer).session.entries = s.entries ∨
      ∃ status, (s.receive request answer).session.entries =
        s.entries ++ [.response request status] := by
  unfold Session.receive
  split
  · exact Or.inl rfl
  · exact Or.inl rfl
  · rename_i response _
    exact Or.inr ⟨response.status, (entries_of _).trans (entries_log _ _ _ _)⟩

theorem adds_send (request : Http.Request) : ∃ own, (Command.http request).Adds s own := by
  have hsend : ((Command.http request).run s) = s.send request := rfl
  rw [Session.send_eq] at hsend
  split at hsend
  · exact ⟨[], by rw [hsend, List.append_nil], .unsent request⟩
  · rename_i transport sent _
    have hsent : ∀ exchange, ((s.logRequest sent).sentOut sent exchange).entries
        = s.entries ++ [.request sent] := fun _ => entries_log _ _ _ _
    rcases entries_receive (s := (s.logRequest sent).sentOut sent _) sent _ with h | ⟨status, h⟩
    · exact ⟨_, by rw [hsend]; exact h.trans (hsent _), .unanswered request sent⟩
    · refine ⟨_, ?_, .answered request sent status⟩
      rw [hsend]
      refine h.trans ?_
      rw [hsent, List.append_assoc]
      rfl

/-- A command of the language appends to the log, and what it logs is its own. -/
theorem Command.Appends.exists_adds {c : Command} (hc : c.Appends) (s : Session) :
    ∃ own, c.Adds s own := by
  cases c with
  | value text => exact ⟨[], (entries_of _).trans (List.append_nil _).symm, .value text⟩
  | expect text => exact ⟨[], (entries_of _).trans (List.append_nil _).symm, .expect text⟩
  | http request => exact adds_send request
  | custom title argument effect =>
      obtain ⟨own, hown⟩ := hc s
      exact ⟨own, hown, .custom title argument effect own⟩

theorem Command.appends_of_isBuiltin {c : Command} (hc : c.isBuiltin = true) : c.Appends := by
  intro s
  cases c with
  | value text => exact ⟨[], (entries_of _).trans (List.append_nil _).symm⟩
  | expect text => exact ⟨[], (entries_of _).trans (List.append_nil _).symm⟩
  | http request =>
      obtain ⟨own, hadds⟩ := adds_send (s := s) request
      exact ⟨own, hadds.entries⟩
  | custom => cases hc

end Own

namespace Session

/-! ### What a run logs

The log of a run is stated as a relation with the run, one rule for each way in which a command or a section
can go: it is built up from the events that commands add, and each of its theorems is an induction over these
rules. -/

/-- The session that a command runs in. -/
def entering (s : Session) (c : LocatedCommand) : Session :=
  (s.locate c.source c.line).logStart c

/-- The commands run one after another and none fails. Each logs its start, its own entries and its
end. -/
inductive Passes : Session → List LocatedCommand → List Entry → Session → Prop
  | nil {s : Session} : Passes s [] [] s
  | cons {s t : Session} {c : LocatedCommand} {commands : List LocatedCommand} {own rest : List Entry}
      (hadds : c.command.Adds (s.entering c) own)
      (hrun : (c.command.run (s.entering c)).failure = none)
      (hrest : Passes ((c.command.run (s.entering c)).session.logEnd c) commands rest t) :
      Passes s (c :: commands) (.commandStart c :: own ++ .commandEnd c :: rest) t

/-- The sections run one after another, up to the end or to the command that fails. -/
inductive Logs : Session → List Section → List Entry → RunResult → Prop
  | completed {s : Session} : Logs s [] [.runEnd true] {}
  | passed {s u : Session} {sec : Section} {sections : List Section} {entries rest : List Entry}
      {newest : Datum} {result : RunResult} (hcommands : (s.logSection sec).Passes sec.commands entries u)
      (hnewest : u.newestDatum = .ok newest)
      (hrest : Logs (u.log .info "section.end" [("section", .string sec.name), ("value", newest)])
        sections rest result) :
      Logs s (sec :: sections) (.sectionStart sec :: entries ++ .sectionEnd sec newest :: rest) result
  | failed {s u : Session} {sec : Section} {sections : List Section}
      {before after : List LocatedCommand} {c : LocatedCommand} {entries own : List Entry} {p : Problem}
      (hsplit : sec.commands = before ++ c :: after)
      (hbefore : (s.logSection sec).Passes before entries u)
      (hadds : c.command.Adds (u.entering c) own)
      (hrun : (c.command.run (u.entering c)).failure = some (.problem p)) :
      Logs s (sec :: sections)
        (.sectionStart sec :: entries ++ .commandStart c :: own ++
          [.commandFailed sec.name c (p.locate c.source c.line), .runEnd false])
        ⟨some (p.locate c.source c.line), some c.source, some (c.line : Int), some sec.name⟩

section Runs

variable {s t u : Session} {c : LocatedCommand} {commands : List LocatedCommand} {p : Problem}
  {own : List Entry}

theorem entries_entering (s : Session) (c : LocatedCommand) :
    (s.entering c).entries = s.entries ++ [.commandStart c] :=
  entries_log _ _ _ _

/-- A command that succeeds is the one after which its end is logged. -/
theorem runCommand_eq_ok_none (h : s.runCommand c = ⟨t, .ok none⟩) :
    (c.command.run (s.entering c)).failure = none ∧
      t = (c.command.run (s.entering c)).session.logEnd c := by
  unfold runCommand at h
  dsimp only at h
  split at h
  · rename_i hrun
    exact ⟨hrun, (Finished.mk.inj h).1.symm⟩
  · cases (Finished.mk.inj h).2
  · cases (Finished.mk.inj h).2

theorem runCommand_eq_ok_some (h : s.runCommand c = ⟨t, .ok (some p)⟩) :
    ∃ q, (c.command.run (s.entering c)).failure = some (.problem q) ∧ p = q.locate c.source c.line ∧
      t.entries = (c.command.run (s.entering c)).session.entries := by
  unfold runCommand at h
  dsimp only at h
  split at h
  · cases (Finished.mk.inj h).2
  · rename_i q hrun
    obtain ⟨rfl, hp⟩ := Finished.mk.inj h
    exact ⟨q, hrun, (Option.some.inj (Except.ok.inj hp)).symm, rfl⟩
  · cases (Finished.mk.inj h).2

theorem Passes.entries_eq {entries : List Entry} (h : s.Passes commands entries t) :
    t.entries = s.entries ++ entries := by
  induction h with
  | nil => exact (List.append_nil _).symm
  | @cons s t c commands own rest hadds _ _ ih =>
      rw [ih]
      have hend : ((c.command.run (s.entering c)).session.logEnd c).entries
          = (c.command.run (s.entering c)).session.entries ++ [.commandEnd c] := entries_log _ _ _ _
      rw [hend, hadds.entries, entries_entering]
      simp only [List.append_assoc, List.cons_append, List.nil_append]

/-- Commands run to the end, or up to the first that fails. -/
theorem passes_of_runCommands (happends : ∀ c ∈ commands, c.command.Appends)
    (h : s.runCommands commands = ⟨t, .ok none⟩) : ∃ entries, s.Passes commands entries t := by
  induction commands generalizing s with
  | nil =>
      obtain ⟨rfl, _⟩ := Finished.mk.inj h
      exact ⟨[], .nil⟩
  | cons c commands ih =>
      rw [List.forall_mem_cons] at happends
      rw [runCommands_cons] at h
      split at h
      · rename_i u hfirst
        obtain ⟨hrun, rfl⟩ := runCommand_eq_ok_none hfirst
        obtain ⟨own, hadds⟩ := happends.1.exists_adds (s.entering c)
        obtain ⟨rest, hrest⟩ := ih happends.2 h
        exact ⟨_, .cons hadds hrun hrest⟩
      · cases (Finished.mk.inj h).2
      · cases (Finished.mk.inj h).2

theorem exists_fails_of_runCommands (happends : ∀ c ∈ commands, c.command.Appends)
    (h : s.runCommands commands = ⟨t, .ok (some (c, p))⟩) :
    ∃ before after entries u own q, commands = before ++ c :: after ∧ s.Passes before entries u ∧
      c.command.Adds (u.entering c) own ∧
      (c.command.run (u.entering c)).failure = some (.problem q) ∧ p = q.locate c.source c.line ∧
      t.entries = u.entries ++ .commandStart c :: own := by
  induction commands generalizing s with
  | nil => cases (Finished.mk.inj h).2
  | cons first commands ih =>
      rw [List.forall_mem_cons] at happends
      rw [runCommands_cons] at h
      split at h
      · rename_i v hfirst
        obtain ⟨hrun, rfl⟩ := runCommand_eq_ok_none hfirst
        obtain ⟨own, hadds⟩ := happends.1.exists_adds (s.entering first)
        obtain ⟨before, after, entries, u, own', q, rfl, hbefore, hfails⟩ := ih happends.2 h
        exact ⟨first :: before, after, _, u, own', q, rfl, .cons hadds hrun hbefore, hfails⟩
      · rename_i q hfirst
        obtain ⟨rfl, hp⟩ := Finished.mk.inj h
        obtain ⟨rfl, rfl⟩ := Prod.mk.inj (Option.some.inj (Except.ok.inj hp))
        obtain ⟨own, hadds⟩ := happends.1.exists_adds (s.entering first)
        obtain ⟨r, hrun, rfl, hentries⟩ := runCommand_eq_ok_some hfirst
        refine ⟨[], commands, [], s, own, r, rfl, .nil, hadds, hrun, rfl, ?_⟩
        rw [hentries, hadds.entries, entries_entering, List.append_assoc]
        rfl
      · cases (Finished.mk.inj h).2

theorem logs_of_runSections {sections : List Section} {result : RunResult}
    (happends : ∀ sec ∈ sections, ∀ c ∈ sec.commands, c.command.Appends)
    (h : s.runSections sections = ⟨t, .ok result⟩) :
    ∃ trace, s.Logs sections trace result ∧ t.entries = s.entries ++ trace := by
  induction sections generalizing s with
  | nil =>
      obtain ⟨rfl, hresult⟩ := Finished.mk.inj h
      obtain rfl := Except.ok.inj hresult
      exact ⟨_, .completed, entries_log _ _ _ _⟩
  | cons sec sections ih =>
      rw [List.forall_mem_cons] at happends
      have hstart : (s.logSection sec).entries = s.entries ++ [.sectionStart sec] := entries_log _ _ _ _
      unfold runSections at h
      split at h
      · cases (Finished.mk.inj h).2
      · rename_i u c p hcommands
        obtain ⟨rfl, hresult⟩ := Finished.mk.inj h
        obtain rfl := Except.ok.inj hresult
        obtain ⟨before, after, entries, v, own, q, hsplit, hbefore, hadds, hrun, rfl, hentries⟩ :=
          exists_fails_of_runCommands happends.1 hcommands
        refine ⟨_, .failed hsplit hbefore hadds hrun, ?_⟩
        have hover : ((u.logFailed sec.name c (q.locate c.source c.line)).logOver false).entries
            = u.entries ++ [.commandFailed sec.name c (q.locate c.source c.line)]
              ++ [.runEnd false] := by
          refine (entries_log _ _ _ _).trans ?_
          exact congrArg (· ++ [Entry.runEnd false]) (entries_log _ _ _ _)
        rw [hover, hentries, hbefore.entries_eq, hstart]
        simp only [List.append_assoc, List.cons_append, List.nil_append]
      · rename_i u hcommands
        obtain ⟨entries, hpasses⟩ := passes_of_runCommands happends.1 hcommands
        split at h
        · cases (Finished.mk.inj h).2
        · rename_i newest hnewest
          obtain ⟨rest, hrest, hentries⟩ := ih happends.2 h
          refine ⟨_, .passed hpasses hnewest hrest, ?_⟩
          rw [hentries]
          have hover : (u.log .info "section.end"
              [("section", .string sec.name), ("value", newest)]).entries
                = u.entries ++ [.sectionEnd sec newest] := entries_log _ _ _ _
          rw [hover, hpasses.entries_eq, hstart]
          simp only [List.append_assoc, List.cons_append, List.nil_append]

end Runs

end Session

/-! ### Names of entries

What encloses what is a matter of the names of events. A command of the language adds requests and responses
only, so that none of its events closes or fails anything. -/

namespace Entry

/-- The names that a run opens, closes or fails under. -/
def endings : List String :=
  ["run.start", "run.end", "command.failed"]

def ofRequests : List String :=
  ["http.request", "http.response"]

section Names

variable (c : LocatedCommand) (sec : Section) (r : Http.Request)

@[simp]
theorem name_sectionStart : (sectionStart sec).name = "section.start" := rfl

@[simp]
theorem name_sectionEnd (newest : Datum) : (sectionEnd sec newest).name = "section.end" := rfl

@[simp]
theorem name_commandStart : (commandStart c).name = "command.start" := rfl

@[simp]
theorem name_commandEnd : (commandEnd c).name = "command.end" := rfl

@[simp]
theorem name_commandFailed (sectionName : String) (p : Problem) :
    (commandFailed sectionName c p).name = "command.failed" := rfl

@[simp]
theorem name_runEnd (ok : Bool) : (runEnd ok).name = "run.end" := rfl

@[simp]
theorem name_request : (request r).name = "http.request" := rfl

@[simp]
theorem name_response (status : Int) : (response r status).name = "http.response" := rfl

end Names

/-- The row has one end, which is its last entry, and a failure only just before it. -/
inductive Closes : List Entry → RunResult → Prop
  | completed {front : List Entry} (h : ∀ e ∈ front, e.name ∉ endings) :
      Closes (front ++ [.runEnd true]) {}
  | failed {front : List Entry} {sectionName : String} {c : LocatedCommand} {p : Problem}
      (h : ∀ e ∈ front, e.name ∉ endings) :
      Closes (front ++ [.commandFailed sectionName c p, .runEnd false])
        ⟨some p, some c.source, some (c.line : Int), some sectionName⟩

/-- The entry is one that a request logs, between the start of its command and the end or the failure
of it, and a response has its request before it. -/
inductive Enclosed : List Entry → Entry → List Entry → Prop
  | intro {before first last after : List Entry} {c : LocatedCommand} {request : Http.Request}
      {e closing : Entry} (hc : c.command = .http request) (hown : c.command.Own (first ++ e :: last))
      (hresponse : e.name = "http.response" → ∃ sent, first = [.request sent])
      (hclosing : closing = .commandEnd c ∨
        ∃ sectionName p, closing = .commandFailed sectionName c p) :
      Enclosed (before ++ .commandStart c :: first) e (last ++ closing :: after)

def Encloses (entries : List Entry) : Prop :=
  ∀ front e back, entries = front ++ e :: back → e.name ∈ ofRequests → Enclosed front e back

section Enclosed

variable {entries others front back : List Entry} {e : Entry}

theorem Closes.after {trace : List Entry} {result : RunResult} (h : Closes trace result)
    (hfront : ∀ e ∈ front, e.name ∉ endings) : Closes (front ++ trace) result := by
  cases h with
  | completed hrest =>
      rw [← List.append_assoc]
      exact .completed (List.forall_mem_append.mpr ⟨hfront, hrest⟩)
  | failed hrest =>
      rw [← List.append_assoc]
      exact .failed (List.forall_mem_append.mpr ⟨hfront, hrest⟩)

theorem Enclosed.between (h : Enclosed front e back) (before after : List Entry) :
    Enclosed (before ++ front) e (back ++ after) := by
  cases h with
  | @intro own first last rest c request _ closing hc hown hresponse hclosing =>
      rw [← List.append_assoc, List.append_assoc last, List.cons_append]
      exact .intro hc hown hresponse hclosing

theorem Encloses.append (h : Encloses entries) (hothers : Encloses others) :
    Encloses (entries ++ others) := by
  intro front e back hsplit he
  rcases List.append_eq_append_iff.mp hsplit with ⟨more, rfl, hrest⟩ | ⟨more, hfront, hrest⟩
  · have := (hothers more e back hrest he).between entries []
    rwa [List.append_nil] at this
  · cases more with
    | nil =>
        rw [List.append_nil] at hfront
        obtain rfl := hfront
        have := (hothers [] e back hrest.symm he).between entries []
        rwa [List.append_nil, List.append_nil] at this
    | cons _ more =>
        obtain ⟨rfl, rfl⟩ := List.cons.inj hrest
        exact (h front e more hfront he).between [] others

theorem eq_of_singleton {other : Entry} (h : [e] = front ++ other :: back) : e = other := by
  cases front with
  | nil => exact (List.cons.inj h).1
  | cons _ front => simp at h

theorem encloses_single (h : e.name ∉ ofRequests) : Encloses [e] := by
  intro front other back hsplit he
  exact absurd he (eq_of_singleton hsplit ▸ h)

theorem encloses_nil : Encloses [] := by
  intro front e back hsplit
  simp at hsplit

end Enclosed

end Entry

/-- The command is of the language, or it logs under names of its own. -/
def Command.Apart (c : Command) : Prop :=
  c.isBuiltin = true ∨ ∀ (s : Session) (own : List Entry),
    (c.run s).session.entries = s.entries ++ own →
      ∀ e ∈ own, e.name ∉ Entry.endings ∧ e.name ∉ Entry.ofRequests

section Apart

variable {s : Session} {own : List Entry}

theorem Command.Own.notMem_endings {c : Command} (hown : c.Own own) (hc : c.isBuiltin = true) :
    ∀ e ∈ own, e.name ∉ Entry.endings := by
  cases hown with
  | value | expect | unsent => exact nofun
  | unanswered | answered => simp [Entry.endings]
  | custom => cases hc

theorem Command.Adds.notMem_endings {c : Command} (hadds : c.Adds s own) (hc : c.Apart) :
    ∀ e ∈ own, e.name ∉ Entry.endings := by
  rcases hc with hbuiltin | hnames
  · exact hadds.own.notMem_endings hbuiltin
  · exact fun e he => (hnames s own hadds.entries e he).1

/-- Only a request logs what requests log, and a response only behind its request. -/
theorem Command.Adds.request_of_mem {c : Command} (hadds : c.Adds s own) (hc : c.Apart)
    {first last : List Entry} {e : Entry} (hsplit : own = first ++ e :: last)
    (he : e.name ∈ Entry.ofRequests) :
    ∃ request, c = .http request ∧
      (e.name = "http.response" → ∃ sent, first = [.request sent]) := by
  have hmem : e ∈ own := by
    rw [hsplit]
    exact List.mem_append_right first List.mem_cons_self
  have hbuiltin : c.isBuiltin = true := by
    refine hc.resolve_right fun hnames => ?_
    exact (hnames s own hadds.entries e hmem).2 he
  cases hadds.own with
  | value | expect | unsent => cases hmem
  | unanswered request sent =>
      obtain rfl := List.mem_singleton.mp hmem
      exact ⟨request, rfl, fun hname => absurd hname (by simp)⟩
  | answered request sent status =>
      refine ⟨request, rfl, fun hname => ⟨sent, ?_⟩⟩
      rcases first with _ | ⟨own, _ | ⟨other, first⟩⟩
      · obtain ⟨rfl, -⟩ := List.cons.inj hsplit
        exact absurd hname (by simp)
      · obtain ⟨rfl, -⟩ := List.cons.inj hsplit
        rfl
      · simp at hsplit
  | custom => cases hbuiltin

end Apart

namespace Entry

/-- What a command logs stands between its start and what closes it. -/
theorem encloses_command {s : Session} {c : LocatedCommand} {own : List Entry} {closing : Entry}
    (hadds : c.command.Adds s own) (hc : c.command.Apart)
    (hclosing : closing = .commandEnd c ∨ ∃ sectionName p, closing = .commandFailed sectionName c p) :
    Encloses (.commandStart c :: own ++ [closing]) := by
  intro front e back hsplit he
  have hother : closing.name ∉ ofRequests := by
    rcases hclosing with rfl | ⟨_, _, rfl⟩ <;> simp [ofRequests]
  cases front with
  | nil =>
      obtain ⟨rfl, -⟩ := List.cons.inj hsplit
      exact absurd he (by simp [ofRequests])
  | cons start first =>
      obtain ⟨rfl, hrest⟩ := List.cons.inj hsplit
      rcases List.append_eq_append_iff.mp hrest with ⟨more, -, hrest⟩ | ⟨more, hown, hrest⟩
      · exact absurd he (eq_of_singleton hrest ▸ hother)
      · cases more with
        | nil =>
            obtain ⟨rfl, -⟩ := List.cons.inj hrest
            exact absurd he hother
        | cons e' last =>
            obtain ⟨rfl, rfl⟩ := List.cons.inj hrest
            obtain ⟨request, hrequest, hresponse⟩ := hadds.request_of_mem hc hown he
            change Enclosed ([] ++ commandStart c :: first) e (last ++ closing :: [])
            exact .intro hrequest (hown ▸ hadds.own) hresponse hclosing

end Entry

namespace Session

section Names

open Entry

variable {s t : Session} {commands : List LocatedCommand} {entries : List Entry}

theorem Passes.notMem_endings (h : s.Passes commands entries t)
    (hapart : ∀ c ∈ commands, c.command.Apart) : ∀ e ∈ entries, e.name ∉ endings := by
  induction h with
  | nil => exact nofun
  | cons hadds _ _ ih =>
      rw [List.forall_mem_cons] at hapart
      rw [List.forall_mem_append, List.forall_mem_cons, List.forall_mem_cons]
      exact ⟨⟨by simp [endings], hadds.notMem_endings hapart.1⟩, by simp [endings], ih hapart.2⟩

theorem Passes.encloses (h : s.Passes commands entries t)
    (hapart : ∀ c ∈ commands, c.command.Apart) : Encloses entries := by
  induction h with
  | nil => exact encloses_nil
  | @cons s t c commands own rest hadds _ _ ih =>
      rw [List.forall_mem_cons] at hapart
      have hcommand := encloses_command hadds hapart.1 (Or.inl rfl)
      have hall := hcommand.append (ih hapart.2)
      rwa [List.append_assoc] at hall

theorem Logs.getLast?_eq {sections : List Section} {trace : List Entry} {result : RunResult}
    (h : s.Logs sections trace result) : trace.getLast? = some (.runEnd result.ok) := by
  induction h with
  | completed => rfl
  | passed _ _ _ ih =>
      rw [List.getLast?_append, List.getLast?_cons, ih]
      rfl
  | failed =>
      rw [List.getLast?_append]
      rfl

theorem Logs.closes {sections : List Section} {trace : List Entry} {result : RunResult}
    (h : s.Logs sections trace result)
    (hapart : ∀ sec ∈ sections, ∀ c ∈ sec.commands, c.command.Apart) : Closes trace result := by
  induction h with
  | completed =>
      change Closes ([] ++ [runEnd true]) {}
      exact .completed nofun
  | @passed s u sec sections entries rest newest result hcommands _ _ ih =>
      rw [List.forall_mem_cons] at hapart
      have hfront : ∀ e ∈ sectionStart sec :: entries ++ [sectionEnd sec newest], e.name ∉ endings := by
        rw [List.forall_mem_append, List.forall_mem_cons, List.forall_mem_singleton]
        exact ⟨⟨by simp [endings], hcommands.notMem_endings hapart.1⟩, by simp [endings]⟩
      have hall := (ih hapart.2).after hfront
      rwa [List.append_assoc] at hall
  | failed hsplit hbefore hadds _ =>
      rw [List.forall_mem_cons, hsplit, List.forall_mem_append, List.forall_mem_cons] at hapart
      obtain ⟨⟨hbefores, hc, -⟩, -⟩ := hapart
      refine .failed ?_
      rw [List.forall_mem_append, List.forall_mem_cons, List.forall_mem_cons]
      exact ⟨⟨by simp [endings], hbefore.notMem_endings hbefores⟩, by simp [endings],
        hadds.notMem_endings hc⟩

theorem Logs.encloses {sections : List Section} {trace : List Entry} {result : RunResult}
    (h : s.Logs sections trace result)
    (hapart : ∀ sec ∈ sections, ∀ c ∈ sec.commands, c.command.Apart) : Encloses trace := by
  induction h with
  | completed => exact encloses_single (by simp [ofRequests])
  | @passed s u sec sections entries rest newest result hcommands _ _ ih =>
      rw [List.forall_mem_cons] at hapart
      have hstart : Encloses [sectionStart sec] := encloses_single (by simp [ofRequests])
      have hend : Encloses [sectionEnd sec newest] := encloses_single (by simp [ofRequests])
      have hsection := hstart.append (hcommands.encloses hapart.1)
      exact hsection.append (hend.append (ih hapart.2))
  | @failed s u sec sections before after c entries own p hsplit hbefore hadds _ =>
      rw [List.forall_mem_cons, hsplit, List.forall_mem_append, List.forall_mem_cons] at hapart
      obtain ⟨⟨hbefores, hc, -⟩, -⟩ := hapart
      have hstart : Encloses [sectionStart sec] := encloses_single (by simp [ofRequests])
      have hover : Encloses [runEnd false] := encloses_single (by simp [ofRequests])
      have hfailed : Encloses (commandStart c :: own
          ++ [commandFailed sec.name c (p.locate c.source c.line)]) :=
        encloses_command hadds hc (Or.inr ⟨_, _, rfl⟩)
      have hall := (hstart.append (hbefore.encloses hbefores)).append (hfailed.append hover)
      simpa only [List.append_assoc, List.cons_append, List.nil_append] using hall

end Names

/-- **The log mirrors the run.** A run that ends with a result adds to the log its start, with the number
of sections, and then, section by section, the start of the section, for each command that is run its
start, what it logs itself and its end, and the end of the section with its newest value; or, where a
command fails, that failure in the place of the end. The end of the run comes last and says whether it
went well. If commands that are not of the language log under names of their own, there is no other start,
end or failure, and what requests log stands within their commands, no response without its request. -/
theorem execute_logs {s t : Session} {r : Resources} {sections : List Section} {result : RunResult}
    (happends : ∀ sec ∈ sections, ∀ c ∈ sec.commands, c.command.Appends)
    (h : s.execute r sections = ⟨t, .ok result⟩) :
    ∃ trace, t.entries = s.entries ++ .runStart sections.length :: trace ∧
      ((s.bind r).log .info "run.start" [("sections", .int sections.length)]).Logs sections trace
        result ∧ trace.getLast? = some (.runEnd result.ok) ∧
      ((∀ sec ∈ sections, ∀ c ∈ sec.commands, c.command.Apart) →
        Entry.Closes trace result ∧ Entry.Encloses trace) := by
  obtain ⟨rfl, hresult⟩ := Finished.mk.inj h
  obtain ⟨trace, hlogs, hentries⟩ :=
    logs_of_runSections happends (congrArg (Finished.mk _) hresult)
  have hstart : ((s.bind r).log .info "run.start" [("sections", .int sections.length)]).entries
      = s.entries ++ [.runStart sections.length] := entries_log _ _ _ _
  refine ⟨trace, ?_, hlogs, hlogs.getLast?_eq, fun hapart => ?_⟩
  · refine Eq.trans hentries ?_
    rw [hstart, List.append_assoc]
    rfl
  · exact ⟨hlogs.closes hapart, hlogs.encloses hapart⟩

/-- A command that is not of the language, and a request that fails behind its response. -/
theorem execute_logs_failing_request :
    let answer : Transport := fun _ _ _ =>
      { answer := .ok { status := 200, headers := [("Content-Type", ["application/json"])], content := [91] } }
    let note : Command := .custom "Note" "" fun s => ⟨s.log .info "note" [], none⟩
    let get : Command := .http { method := "GET", url := "http://localhost" }
    let sections : List Section := [⟨"first", 1, [⟨.value "1", "order", 2⟩]⟩,
      ⟨"second", 3, [⟨note, "order", 4⟩, ⟨get, "order", 5⟩, ⟨.value "2", "order", 6⟩]⟩,
      ⟨"third", 7, []⟩]
    let r : Resources := { transport := some answer }
    let s : Session := { now := .zero false }
    (∀ sec ∈ sections, ∀ c ∈ sec.commands, c.command.Appends ∧ c.command.Apart) ∧
      ∃ t result trace, s.execute r sections = ⟨t, .ok result⟩ ∧
        t.entries = .runStart 3 :: trace ∧ Entry.Closes trace result ∧ Entry.Encloses trace ∧
        trace.map (·.name) = ["section.start", "command.start", "command.end", "section.end",
          "section.start", "command.start", "note", "command.end", "command.start", "http.request",
          "http.response", "command.failed", "run.end"] := by
  intro answer note get sections r s
  have hcommands : ∀ sec ∈ sections, ∀ c ∈ sec.commands, c.command.Appends ∧ c.command.Apart := by
    have hbuiltin : ∀ c : Command, c.isBuiltin = true → c.Appends ∧ c.Apart :=
      fun c hc => ⟨Command.appends_of_isBuiltin hc, Or.inl hc⟩
    have hnote : note.Appends ∧ note.Apart := by
      have hentries : ∀ s : Session, (note.run s).session.entries = s.entries ++ [⟨.info, "note", []⟩] :=
        fun s => entries_log s _ _ _
      refine ⟨fun s => ⟨_, hentries s⟩, Or.inr fun s own hown => ?_⟩
      rw [hentries s] at hown
      rw [← List.append_cancel_left hown, List.forall_mem_singleton]
      decide
    simp only [sections, List.forall_mem_cons, List.not_mem_nil, IsEmpty.forall_iff, implies_true,
      and_true]
    exact ⟨hbuiltin _ rfl, hnote, hbuiltin _ rfl, hbuiltin _ rfl⟩
  refine ⟨hcommands, ?_⟩
  have hnames : (s.execute r sections).session.events.map (·.name)
      = ["run.start", "section.start", "command.start", "command.end", "section.end",
        "section.start", "command.start", "note", "command.end", "command.start", "http.request",
        "http.response", "command.failed", "run.end"] := by decide +kernel
  have hok : (s.execute r sections).result.isOk = true := by decide +kernel
  cases hrun : s.execute r sections with
  | mk t ends =>
    rw [hrun] at hnames hok
    cases ends with
    | error failure => cases hok
    | ok result =>
        obtain ⟨trace, hentries, -, -, hapart⟩ :=
          execute_logs (fun sec hsec c hc => (hcommands sec hsec c hc).1) hrun
        obtain ⟨hcloses, hencloses⟩ := hapart fun sec hsec c hc => (hcommands sec hsec c hc).2
        refine ⟨t, result, trace, rfl, hentries, hcloses, hencloses, ?_⟩
        have hall : t.entries.map (·.name) = t.events.map (·.name) := by
          rw [entries, List.map_map]
          rfl
        rw [hentries, hnames] at hall
        exact (List.cons.inj hall).2

end Session

end ApiProbe
