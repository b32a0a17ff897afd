import Mathlib.Data.List.Forall2
import ApiProbe.Engine
import ApiProbe.Proofs.Run.FailFast

/-!
# Secrets do not show

The values of secret headers are sent and go nowhere else. Two runs that differ in such values only, of
requests or of the headers that are set on all of them, log the same events and have the same result.
-/

namespace ApiProbe

namespace Http

/-- The same header, but for the value if that is a secret. -/
structure Header.Alike (h k : Header) : Prop where
  name : h.name = k.name
  value : isSensitive h.name = false → h.value = k.value

/-- The same request, but for the values of secret headers. -/
structure Request.Alike (r q : Request) : Prop where
  method : r.method = q.method
  url : r.url = q.url
  headers : List.Forall₂ Header.Alike r.headers q.headers
  body : r.body = q.body

structure Injector.Alike (i j : Injector) : Prop where
  headers : List.Forall₂ Header.Alike i.headers j.headers
  override : i.override = j.override

/-- What is made of a request depends on secrets in secret places only. -/
def Interceptor.Alike (i j : Interceptor) : Prop :=
  ∀ r q : Request, r.Alike q → (i.apply r).Alike (j.apply q)

section Headers

variable {h k : Header} {headers others : List Header}

theorem Header.Alike.maskValue_eq (hk : h.Alike k) :
    maskValue h.name (some h.value) = maskValue k.name (some k.value) := by
  unfold maskValue
  rw [← hk.name]
  split
  · rfl
  · rename_i hplain
    rw [hk.value (Bool.not_eq_true _ ▸ hplain)]

/-- Whether a header is present does not depend on values. -/
theorem isNone_header?_eq (hs : List.Forall₂ Header.Alike headers others) (name : String) :
    (header? name headers).isNone = (header? name others).isNone := by
  induction hs with
  | nil => rfl
  | cons hfirst _ ih =>
      unfold header?
      rw [hfirst.name]
      split
      · rfl
      · exact ih

theorem alike_setHeader (hs : List.Forall₂ Header.Alike headers others) (hk : h.Alike k) :
    List.Forall₂ Header.Alike (setHeader h.name h.value headers)
      (setHeader k.name k.value others) := by
  unfold setHeader
  refine List.rel_append (List.rel_filter ?_ hs) (.cons hk .nil)
  intro a b hab
  dsimp only
  rw [hab.name, hk.name]

theorem Injector.Alike.apply {i j : Injector} {r q : Request} (hi : i.Alike j) (hr : r.Alike q) :
    (i.apply r).Alike (j.apply q) := by
  unfold Injector.apply
  refine List.rel_foldl ?_ hr hi.headers
  intro r q hr h k hk
  have hpresent : (r.header? h.name).isNone = (q.header? k.name).isNone := by
    rw [hk.name]
    exact isNone_header?_eq hr.headers k.name
  dsimp only
  rw [hi.override, hpresent]
  split
  · exact ⟨hr.method, hr.url, alike_setHeader hr.headers hk, hr.body⟩
  · exact hr

theorem Injector.Alike.interceptor {i j : Injector} (hi : i.Alike j) :
    i.interceptor.Alike j.interceptor :=
  fun _ _ hr => hi.apply hr

end Headers

end Http

/-- What is logged of headers does not show secrets. -/
theorem headersDatum_eq {headers others : List Http.Header}
    (h : List.Forall₂ Http.Header.Alike headers others) : headersDatum headers = headersDatum others := by
  unfold headersDatum
  congr 1
  induction h with
  | nil => rfl
  | cons hfirst _ ih => rw [List.map_cons, List.map_cons, ih, hfirst.maskValue_eq, hfirst.name]

/-! ### Sessions

Two sessions are alike if they differ in what was sent and in the resources only, and in these only by secret
values. Every field that a command can read or write has its lemma here, so that a command is alike in both
sessions if it goes through these fields. -/

structure Sent.Alike (a b : Sent) : Prop where
  request : a.request.Alike b.request
  timeout : a.timeout = b.timeout

/-- Answers do not depend on the values of secret headers. -/
def Transport.Alike (one other : Transport) : Prop :=
  ∀ sent sent' request request' timeout, List.Forall₂ Sent.Alike sent sent' →
    request.Alike request' → one sent request timeout = other sent' request' timeout

structure Resources.Alike (r q : Resources) : Prop where
  transport : Option.Rel Transport.Alike r.transport q.transport
  baseUrl : r.baseUrl = q.baseUrl
  injector : Option.Rel Http.Interceptor.Alike r.injector q.injector
  bound : r.bound = q.bound

/-- The same session, but for secrets in what was sent and in the resources. -/
inductive Session.Alike (s : Session) : Session → Prop
  | intro {sent : List Sent} {resources : Option Resources}
      (hsent : List.Forall₂ Sent.Alike s.sent sent)
      (hresources : Option.Rel Resources.Alike s.resources resources) :
      Alike s { s with sent, resources }

structure Outcome.Alike (o p : Outcome) : Prop where
  session : o.session.Alike p.session
  failure : o.failure = p.failure

namespace Session.Alike

variable {s t : Session} (h : s.Alike t)
include h

theorem events : s.events = t.events := by
  cases h
  rfl

theorem push (v : Value) : (s.push v).Alike (t.push v) := by
  obtain ⟨hsent, hresources⟩ := h
  exact .intro hsent hresources

theorem locate (source : String) (line : Int) : (s.locate source line).Alike (t.locate source line) := by
  obtain ⟨hsent, hresources⟩ := h
  exact .intro hsent hresources

theorem failed (p : Option Problem) :
    Session.Alike { s with lastError := p } { t with lastError := p } := by
  obtain ⟨hsent, hresources⟩ := h
  exact .intro hsent hresources

theorem release : s.release.Alike t.release := by
  obtain ⟨hsent, -⟩ := h
  exact .intro hsent .none

theorem log (level : Level) (name : String) (fields : Dict Datum) :
    (s.log level name fields).Alike (t.log level name fields) := by
  obtain @⟨sent, resources, hsent, hresources⟩ := h
  have hbound : s.resources.map (·.bound) = resources.map (·.bound) := by
    generalize s.resources = own at hresources
    cases hresources with
    | none => rfl
    | some hr => exact congrArg some hr.bound
  unfold Session.log
  dsimp only
  rw [hbound]
  exact .intro hsent hresources

theorem compile_eq (text : String) : s.compile text = t.compile text := by
  cases h
  rfl

theorem matchValue_eq (text : String) : Command.matchValue s text = Command.matchValue t text := by
  cases h
  rfl

theorem filled_eq : s.filled = t.filled := by
  cases h
  rfl

theorem resources : Option.Rel Resources.Alike s.resources t.resources := by
  obtain ⟨-, hresources⟩ := h
  exact hresources

theorem newestDatum_eq : s.newestDatum = t.newestDatum := by
  cases h
  rfl

theorem problemUnlessAlive_eq : s.problemUnlessAlive = t.problemUnlessAlive := by
  cases h
  rfl

theorem outcome (result : Except Failure Value) :
    (Outcome.of s s.push result).Alike (Outcome.of t t.push result) := by
  cases result with
  | error failure => exact ⟨h, rfl⟩
  | ok v => exact ⟨h.push v, rfl⟩

section Request

variable {request request' : Http.Request} (hr : request.Alike request')
include hr

theorem logRequest : (s.logRequest request).Alike (t.logRequest request') := by
  unfold Session.logRequest
  rw [hr.method, hr.url, hr.body, headersDatum_eq hr.headers]
  exact h.log _ _ _

theorem sentOut (exchange : Exchange) :
    (s.sentOut request exchange).Alike (t.sentOut request' exchange) := by
  obtain ⟨hsent, hresources⟩ := h
  exact .intro (List.rel_append hsent (.cons ⟨hr, rfl⟩ .nil)) hresources

theorem receive (answer : Except Failure Http.Response) :
    (s.receive request answer).Alike (t.receive request' answer) := by
  unfold Session.receive
  rw [h.problemUnlessAlive_eq]
  split
  · exact ⟨h, rfl⟩
  · exact ⟨h, rfl⟩
  · rw [hr.method, hr.url]
    exact (h.log _ _ _).outcome _

theorem exchange {transport transport' : Transport} (htransport : transport.Alike transport') :
    (s.exchange transport request).Alike (t.exchange transport' request') := by
  have hexchange : transport s.sent request (s.lifetime.remaining s.now)
      = transport' t.sent request' (t.lifetime.remaining t.now) := by
    obtain ⟨hsent, -⟩ := h
    exact htransport _ _ _ _ _ hsent hr
  unfold Session.exchange
  rw [hexchange]
  exact (h.sentOut hr _).receive hr _

/-- Requests are prepared alike, or for the same reason they are not. -/
theorem prepare :
    (∃ failure, s.prepare request = .error failure ∧ t.prepare request' = .error failure) ∨
      ∃ transport transport' prepared prepared', s.prepare request = .ok (transport, prepared) ∧
        t.prepare request' = .ok (transport', prepared') ∧ transport.Alike transport' ∧
        prepared.Alike prepared' := by
  rw [prepare_eq, prepare_eq, ← h.problemUnlessAlive_eq, ← hr.url, ← hr.body]
  have hresources := h.resources
  have hfilled := h.filled_eq
  generalize s.resources = own at hresources ⊢
  generalize t.resources = other at hresources ⊢
  cases hresources with
  | none => exact Or.inl ⟨_, rfl, rfl⟩
  | @some own other hown =>
      obtain ⟨transport, baseUrl, injector, bound⟩ := own
      obtain ⟨transport', baseUrl', injector', bound'⟩ := other
      obtain ⟨htransport, rfl, hinjector, -⟩ := hown
      cases htransport with
      | none => exact Or.inl ⟨_, rfl, rfl⟩
      | some htransport =>
          dsimp only
          rw [← hfilled]
          cases s.problemUnlessAlive with
          | error failure => exact Or.inl ⟨failure, rfl, rfl⟩
          | ok _ =>
              cases s.filled baseUrl request.url request.body with
              | error failure => exact Or.inl ⟨failure, rfl, rfl⟩
              | ok filled =>
                  refine Or.inr ⟨_, _, _, _, rfl, rfl, htransport, ?_⟩
                  have hrequest : Http.Request.Alike { request with url := filled.1, body := filled.2 }
                      { request' with url := filled.1, body := filled.2 } :=
                    ⟨hr.method, rfl, hr.headers, rfl⟩
                  cases hinjector with
                  | none => exact hrequest
                  | some hinjector => exact hinjector _ _ hrequest

theorem send : (s.send request).Alike (t.send request') := by
  rw [send_eq, send_eq]
  rcases h.prepare hr with ⟨failure, hs, ht⟩ | ⟨transport, transport', prepared, prepared', hs, ht,
    htransport, hprepared⟩
  · rw [hs, ht]
    exact ⟨h, rfl⟩
  · rw [hs, ht]
    exact (h.logRequest hprepared).exchange hprepared htransport

end Request

end Session.Alike

/-- The same command, but for the values of secret headers. One that is not of the language must not
show them either. -/
inductive Command.Alike : Command → Command → Prop
  | value (text : String) : Alike (.value text) (.value text)
  | expect (text : String) : Alike (.expect text) (.expect text)
  | http {request request' : Http.Request} (h : request.Alike request') :
      Alike (.http request) (.http request')
  | custom (title argument : String) {effect : Session → Outcome}
      (h : ∀ s t : Session, s.Alike t → (effect s).Alike (effect t)) :
      Alike (.custom title argument effect) (.custom title argument effect)

inductive LocatedCommand.Alike : LocatedCommand → LocatedCommand → Prop
  | intro {command command' : Command} (source : String) (line : Nat) (h : command.Alike command') :
      Alike ⟨command, source, line⟩ ⟨command', source, line⟩

inductive Section.Alike : Section → Section → Prop
  | intro (name : String) (startLine : Nat) {commands commands' : List LocatedCommand}
      (h : List.Forall₂ LocatedCommand.Alike commands commands') :
      Alike ⟨name, startLine, commands⟩ ⟨name, startLine, commands'⟩

inductive Script.Alike : Script → Script → Prop
  | intro (source : String) {sections sections' : List Section}
      (h : List.Forall₂ Section.Alike sections sections') :
      Alike ⟨source, sections⟩ ⟨source, sections'⟩

section Commands

variable {s t : Session} {c d : LocatedCommand}

theorem Command.Alike.title_eq {c d : Command} (hc : c.Alike d) : c.title = d.title := by
  cases hc <;> rfl

theorem Command.Alike.run {c d : Command} (hc : c.Alike d) (h : s.Alike t) :
    (c.run s).Alike (d.run t) := by
  cases hc with
  | value text =>
      simp only [Command.run]
      rw [h.compile_eq]
      exact h.outcome _
  | expect text =>
      simp only [Command.run]
      rw [h.matchValue_eq]
      exact h.outcome _
  | http hr => exact h.send hr
  | custom _ _ heffect => exact heffect s t h

/-- What is left of two runs is the same, but for secrets. -/
structure Finished.Alike {α : Type} (f g : Finished α) : Prop where
  session : f.session.Alike g.session
  result : f.result = g.result

theorem LocatedCommand.Alike.run (hc : c.Alike d) (h : s.Alike t) :
    (s.runCommand c).Alike (t.runCommand d) := by
  obtain ⟨source, line, hc⟩ := hc
  obtain ⟨hsession, hfailure⟩ := hc.run ((h.locate source line).log .debug "command.start"
    [("command", .string _), ("source", .string source), ("line", .int line)])
  unfold Session.runCommand Session.logStart
  dsimp only
  rw [← hc.title_eq, ← hfailure]
  split
  · exact ⟨hsession.log _ _ _, rfl⟩
  · exact ⟨hsession.failed _, rfl⟩
  · exact ⟨hsession, rfl⟩

/-- Rows of commands run to the end, or the same command fails, or the runs break off. -/
inductive StopsAlike : Finished (Option (LocatedCommand × Problem)) →
    Finished (Option (LocatedCommand × Problem)) → Prop
  | completed {s t : Session} (h : s.Alike t) : StopsAlike ⟨s, .ok none⟩ ⟨t, .ok none⟩
  | failed {s t : Session} {c d : LocatedCommand} (h : s.Alike t) (hc : c.Alike d) (p : Problem) :
      StopsAlike ⟨s, .ok (some (c, p))⟩ ⟨t, .ok (some (d, p))⟩
  | broken {s t : Session} (h : s.Alike t) (failure : Failure) :
      StopsAlike ⟨s, .error failure⟩ ⟨t, .error failure⟩

theorem stopsAlike_runCommands {commands others : List LocatedCommand}
    (hcommands : List.Forall₂ LocatedCommand.Alike commands others) (h : s.Alike t) :
    StopsAlike (s.runCommands commands) (t.runCommands others) := by
  induction hcommands generalizing s t with
  | nil => exact .completed h
  | @cons c d commands others hc _ ih =>
      rw [Session.runCommands_cons, Session.runCommands_cons]
      obtain ⟨hsession, hresult⟩ := hc.run h
      generalize s.runCommand c = f at hsession hresult ⊢
      generalize t.runCommand d = g at hsession hresult ⊢
      obtain ⟨u, ends⟩ := f
      obtain ⟨v, ends'⟩ := g
      dsimp only at hsession hresult
      subst hresult
      cases ends with
      | error failure => exact .broken hsession failure
      | ok p =>
          cases p with
          | none => exact ih hsession
          | some p => exact .failed hsession hc p

theorem Session.Alike.runSections {sections others : List Section}
    (hsections : List.Forall₂ Section.Alike sections others) (h : s.Alike t) :
    (s.runSections sections).Alike (t.runSections others) := by
  induction hsections generalizing s t with
  | nil => exact ⟨h.log _ _ _, rfl⟩
  | @cons sec sec' sections others hsec _ ih =>
      obtain @⟨name, startLine, commands, commands', hcommands⟩ := hsec
      have hstart : (s.logSection ⟨name, startLine, commands⟩).Alike
          (t.logSection ⟨name, startLine, commands'⟩) := h.log _ _ _
      have hstops := stopsAlike_runCommands hcommands hstart
      unfold Session.runSections
      dsimp only
      generalize (s.logSection _).runCommands commands = f at hstops ⊢
      generalize (t.logSection _).runCommands commands' = g at hstops ⊢
      cases hstops with
      | completed hsession =>
          dsimp only
          rw [hsession.newestDatum_eq]
          split
          · exact ⟨hsession, rfl⟩
          · exact ih (hsession.log _ _ _)
      | failed hsession hc p =>
          obtain ⟨source, line, hc⟩ := hc
          dsimp only
          unfold Session.logFailed Session.logOver
          dsimp only
          rw [hc.title_eq]
          exact ⟨(hsession.log _ _ _).log _ _ _, rfl⟩
      | broken hsession failure => exact ⟨hsession, rfl⟩

theorem alike_execute {r q : Resources} (hr : r.Alike q) {sections others : List Section}
    (hsections : List.Forall₂ Section.Alike sections others) :
    (s.execute r sections).Alike (s.execute q others) := by
  have hsent : List.Forall₂ Sent.Alike s.sent s.sent := by
    refine List.forall₂_same.mpr fun sent _ => ⟨⟨rfl, rfl, ?_, rfl⟩, rfl⟩
    exact List.forall₂_same.mpr fun _ _ => ⟨rfl, fun _ => rfl⟩
  have hbind : (s.bind r).Alike (s.bind q) :=
    .intro (s := s.bind r) hsent (.some ⟨hr.transport, hr.baseUrl, hr.injector, rfl⟩)
  unfold Session.execute
  dsimp only
  rw [hsections.length_eq]
  obtain ⟨hsession, hresult⟩ := (hbind.log _ _ _).runSections hsections
  exact ⟨hsession.release, hresult⟩

end Commands

/-- **Secret headers do not show.** Two scripts that differ in the values of secret headers only, run from
the same session with resources that differ so, log the same events, with the same level, name and
fields, and have the same result: the verdict, the place and the problem, or the same failure that breaks
both runs off. -/
theorem Engine.execute_secret {e f : Engine} {standard other : Transport}
    (hresources : (e.resources standard).Alike (f.resources other)) {script script' : Script}
    (hscripts : script.Alike script') (s : Session) :
    (e.execute standard s script).session.events = (f.execute other s script').session.events ∧
      (e.execute standard s script).result = (f.execute other s script').result := by
  obtain ⟨_, hsections⟩ := hscripts
  obtain ⟨hsession, hresult⟩ := alike_execute (s := s) hresources hsections
  exact ⟨hsession.events, hresult⟩

/-- A request with a secret of its own and one that is set on all requests, a command that is not of the
language, and a match that fails. -/
theorem Engine.execute_secret_failing_match :
    let answer : Transport := fun _ _ _ => { answer := .ok { status := 200 } }
    let e (secret : String) : Engine :=
      { transport := some answer, injector := some ⟨[⟨"Cookie", secret⟩], false⟩ }
    let request (secret : String) : Http.Request :=
      ⟨"GET", "http://localhost", [⟨"Accept", "text/plain"⟩, ⟨"Authorization", secret⟩], ""⟩
    let twice : Command := .custom "Twice" "" fun s => ⟨(s.push .top).push .top, none⟩
    let script (secret : String) : Script := ⟨"order", [⟨"requests", 1,
      [⟨.http (request secret), "order", 2⟩, ⟨twice, "order", 3⟩, ⟨.value "1", "order", 4⟩,
        ⟨.expect "2", "order", 5⟩]⟩]⟩
    let s : Session := { now := .zero false }
    let one := (e "a").execute answer s (script "b")
    let other := (e "c").execute answer s (script "d")
    one.session.sent.map (·.request) ≠ other.session.sent.map (·.request) ∧
      ((e "a").resources answer).Alike ((e "c").resources answer) ∧ (script "b").Alike (script "d") ∧
      one.session.events.length = 13 ∧ one.session.events = other.session.events ∧
      one.result.toOption.map (·.line) = some (some 5) ∧ one.result = other.result := by
  intro answer e request twice script s one other
  have hresources : ((e "a").resources answer).Alike ((e "c").resources answer) := by
    refine ⟨.some fun _ _ _ _ _ _ _ => rfl, rfl,
      .some (Http.Injector.Alike.interceptor ⟨.cons ⟨rfl, ?_⟩ .nil, rfl⟩), rfl⟩
    exact fun hplain => absurd hplain (by decide)
  have hrequest : (request "b").Alike (request "d") := by
    refine ⟨rfl, rfl, .cons ⟨rfl, fun _ => rfl⟩ (.cons ⟨rfl, ?_⟩ .nil), rfl⟩
    exact fun hplain => absurd hplain (by decide)
  have hscripts : (script "b").Alike (script "d") := by
    refine .intro _ (.cons (.intro _ _ ?_) .nil)
    refine .cons (.intro _ _ (.http hrequest)) (.cons (.intro _ _ (.custom _ _ ?_))
      (.cons (.intro _ _ (.value _)) (.cons (.intro _ _ (.expect _)) .nil)))
    exact fun _ _ h => ⟨(h.push .top).push .top, rfl⟩
  obtain ⟨hevents, hresult⟩ := execute_secret hresources hscripts s
  refine ⟨?_, hresources, hscripts, ?_, hevents, ?_, hresult⟩
  · decide +kernel
  · decide +kernel
  · decide +kernel

end ApiProbe
