import ApiProbe.Proofs.Run.Reports
import ApiProbe.Proofs.Run.Sending

/-!
# What a request can break a run off with

A request fails with a problem, which is reported at its line, but for four exceptions: an address that is
malformed, a body that cannot be evaluated, a text that cannot be decoded and a status that cannot be
written. These break the run off.
-/

namespace ApiProbe

/-- The failure is reported where it occurs. -/
def Failure.isProblem : Failure → Bool
  | problem _ => true
  | fault _ | evaluation _ => false

/-- A problem, or something that breaks off whatever is run. -/
def Failure.ProblemOrBreaking (failure : Failure) : Prop :=
  (∃ p, failure = .problem p) ∨ failure.Breaking

namespace Session

variable {s : Session} {request : Http.Request} {failure : Failure}

theorem failsWith_evalText (position : Nat) (text : String) :
    FailsWith Failure.ProblemOrBreaking (s.evalText position text) := by
  intro failure h
  unfold evalText at h
  cases hcompile : s.compile text with
  | ok v =>
      rw [hcompile] at h
      exact Or.inr (breaking_of_display h)
  | error cause =>
      rw [hcompile] at h
      cases cause with
      | problem p => exact Or.inl ⟨_, (Except.error.inj h).symm⟩
      | fault | evaluation =>
          obtain rfl := Except.error.inj h
          exact Or.inr (breaking_of_compile hcompile nofun)

theorem failsWith_expand (text : String) :
    FailsWith Failure.ProblemOrBreaking (s.expand text) :=
  (failsWith_expansion (fun _ => Or.inl ⟨_, rfl⟩) failsWith_evalText text.toList).map _

end Session

namespace Http.Response

variable {r : Response} {failure : Failure}

/-- The response has no data: its body is text that cannot be decoded, or its status has too many
digits. -/
inductive Undecodable (r : Response) : Failure → Prop
  | text {fault : Fault} (hjson : r.isJson = false) (hfault : r.textFault? = some fault) :
      Undecodable r (.fault fault)
  | status {d : Datum} (hbody : r.body = .ok d) (hstatus : Numeral.fits r.status = false) :
      Undecodable r (.fault .unprintable)

theorem body_eq_error (h : r.body = .error failure) :
    (∃ p, failure = .problem p) ∨
      r.isJson = false ∧ ∃ fault, r.textFault? = some fault ∧ failure = .fault fault := by
  unfold body at h
  split at h
  · rename_i hjson
    split at h
    · rename_i fault htext
      obtain rfl := Except.error.inj h
      unfold readText at htext
      split at htext
      · rename_i hfault
        obtain rfl := Except.error.inj htext
        exact Or.inr ⟨Bool.not_eq_true' _ ▸ hjson, _, hfault, rfl⟩
      · cases htext
    · cases h
  · split at h
    · cases h
    · split at h
      · exact Or.inl ⟨_, (Except.error.inj h).symm⟩
      · split at h
        · cases h
        · exact Or.inl ⟨_, (Except.error.inj h).symm⟩

/-- JSON that cannot be decoded is a problem, and so is what cannot be encoded. -/
theorem value_eq_error (h : (r.data >>= Language.encode) = .error failure) :
    (∃ p, failure = .problem p) ∨ r.Undecodable failure := by
  rcases bind_eq_error_iff.mp h with h | ⟨d, hdata, h⟩
  · unfold data at h
    rcases bind_eq_error_iff.mp h with h | ⟨d, hbody, h⟩
    · rcases body_eq_error h with hproblem | ⟨hjson, fault, hfault, rfl⟩
      · exact Or.inl hproblem
      · exact Or.inr (.text hjson hfault)
    · split at h
      · rename_i hstatus
        obtain rfl := Except.error.inj h
        exact Or.inr (.status hbody (Bool.not_eq_true' _ ▸ hstatus))
      · cases h
  · have hrefused := failsRefused_data hdata
    unfold Language.encode at h
    split at h
    · cases h
    · exact Or.inl ⟨_, (Except.error.inj h).symm⟩
    · rename_i hencode
      exact absurd hencode hrefused

theorem Undecodable.value_eq (h : r.Undecodable failure) :
    (r.data >>= Language.encode) = .error failure := by
  cases h with
  | @text fault hjson hfault =>
      have hbody : r.body = .error (.fault fault) := by
        unfold body readText
        rw [hjson, hfault]
        rfl
      unfold data
      rw [hbody]
      rfl
  | status hbody hstatus =>
      unfold data
      rw [hbody, hstatus]
      rfl

theorem Undecodable.ne_problem (h : r.Undecodable failure) (p : Problem) : failure ≠ .problem p := by
  cases h <;> exact nofun

end Http.Response

namespace Session

variable {s : Session} {request : Http.Request} {failure : Failure}

/-- What a request fails with, other than a problem, while the run goes on. -/
inductive Escapes (s : Session) (request : Http.Request) : Failure → Prop
  | address {r : Resources} {base : String} {fault : Fault} (hr : r ∈ s.resources)
      (htransport : r.transport.isSome) (halive : s.lifetime.problem? s.now = none)
      (hbase : base ∈ r.baseUrl) (hfault : Url.resolve base request.url = .error fault) :
      Escapes s request (.fault fault)
  | body {r : Resources} {url : String} {failure : Failure} (hr : r ∈ s.resources)
      (htransport : r.transport.isSome) (halive : s.lifetime.problem? s.now = none)
      (hurl : r.resolve request.url = .ok url) (hbody : s.expand request.body = .error failure)
      (hbreaking : failure.Breaking) : Escapes s request failure
  | answer {transport : Transport} {out : Http.Request} {exchange : Exchange}
      {response : Http.Response} {failure : Failure}
      (hprepare : s.prepare request = .ok (transport, out))
      (hexchange : transport s.sent out (s.lifetime.remaining s.now) = exchange)
      (halive : (exchange.lifetime s.lifetime).problem? s.now = none)
      (hanswer : exchange.answer = .ok response) (hundecodable : response.Undecodable failure) :
      Escapes s request failure

theorem Escapes.ne_problem (h : s.Escapes request failure) (p : Problem) : failure ≠ .problem p := by
  cases h with
  | address => exact nofun
  | body _ _ _ _ _ hbreaking => cases hbreaking <;> exact nofun
  | answer _ _ _ _ hundecodable => exact hundecodable.ne_problem p

theorem resolve_eq_error {r : Resources} {url : String} (h : r.resolve url = .error failure) :
    ∃ base ∈ r.baseUrl, ∃ fault, Url.resolve base url = .error fault ∧ failure = .fault fault := by
  unfold Resources.resolve at h
  cases hbase : r.baseUrl with
  | none =>
      rw [hbase] at h
      cases h
  | some base =>
      rw [hbase, Option.map_some, Option.getD_some] at h
      cases hresolve : Url.resolve base url with
      | ok resolved =>
          rw [hresolve] at h
          cases h
      | error fault =>
          rw [hresolve] at h
          exact ⟨base, rfl, fault, hresolve, (Except.error.inj h).symm⟩

theorem resolve_of_fault {r : Resources} {base url : String} {fault : Fault} (hbase : base ∈ r.baseUrl)
    (h : Url.resolve base url = .error fault) : r.resolve url = .error (.fault fault) := by
  unfold Resources.resolve
  rw [Option.mem_def.mp hbase, Option.map_some, Option.getD_some, h]
  rfl

theorem alive_iff : s.problemUnlessAlive = .ok () ↔ s.lifetime.problem? s.now = none := by
  unfold problemUnlessAlive
  cases s.lifetime.problem? s.now <;> simp

/-- A request that is not prepared is so for a problem, or it has an address or a body that escapes. -/
theorem escapes_of_prepare (h : s.prepare request = .error failure) :
    (∃ p, failure = .problem p) ∨ s.Escapes request failure := by
  cases htransport : s.transport? with
  | none =>
      rw [prepare_of_none htransport] at h
      exact Or.inl ⟨_, (Except.error.inj h).symm⟩
  | some transport =>
      obtain ⟨r, hr, hbound⟩ := Option.bind_eq_some_iff.mp htransport
      have hsome : r.transport.isSome = true := Option.isSome_iff_exists.mpr ⟨transport, hbound⟩
      rw [prepare_of_transport hr hbound] at h
      cases hlifetime : s.lifetime.problem? s.now with
      | some p =>
          unfold problemUnlessAlive at h
          rw [hlifetime] at h
          exact Or.inl ⟨p, (Except.error.inj h).symm⟩
      | none =>
          rw [alive_iff.mpr hlifetime] at h
          obtain ⟨_, -, h⟩ := (bind_eq_error_iff.mp h).resolve_left nofun
          rcases bind_eq_error_iff.mp h with h | ⟨url, hurl, h⟩
          · obtain ⟨base, hbase, fault, hfault, rfl⟩ := resolve_eq_error h
            exact Or.inr (.address hr hsome hlifetime hbase hfault)
          · rcases bind_eq_error_iff.mp h with h | ⟨body, -, h⟩
            · rcases failsWith_expand _ _ h with hproblem | hbreaking
              · exact Or.inl hproblem
              · exact Or.inr (.body hr hsome hlifetime hurl h hbreaking)
            · cases h

theorem Escapes.failure_send (h : s.Escapes request failure) :
    (s.send request).failure = some failure := by
  cases h with
  | address hr htransport halive hbase hfault =>
      obtain ⟨transport, hbound⟩ := Option.isSome_iff_exists.mp htransport
      rw [send_eq, prepare_of_transport hr hbound, alive_iff.mpr halive, resolve_of_fault hbase hfault]
      rfl
  | body hr htransport halive hurl hbody hbreaking =>
      obtain ⟨transport, hbound⟩ := Option.isSome_iff_exists.mp htransport
      rw [send_eq, prepare_of_transport hr hbound, alive_iff.mpr halive, hurl, hbody]
      rfl
  | answer hprepare hexchange halive hanswer hundecodable =>
      obtain ⟨-, hfailure, -, -⟩ := send_of_prepare hprepare
      rw [hfailure, hexchange, setbacks, halive, Exchange.value_of_answer hanswer, hanswer,
        hundecodable.value_eq]
      rfl

/-- A request fails with a problem or escapes, if the transport fails with problems only. -/
theorem escapes_of_send (hfresh : ∀ r ∈ s.resources, r.Fresh)
    (h : (s.send request).failure = some failure) :
    (∃ p, failure = .problem p) ∨ s.Escapes request failure := by
  cases hprepare : s.prepare request with
  | error cause =>
      rw [send_eq, hprepare] at h
      obtain rfl := Option.some.inj h
      exact escapes_of_prepare hprepare
  | ok prepared =>
      obtain ⟨transport, out⟩ := prepared
      obtain ⟨-, hfailure, -, -⟩ := send_of_prepare hprepare
      rw [hfailure, setbacks] at h
      generalize hexchange : transport s.sent out (s.lifetime.remaining s.now) = exchange at h
      cases hlifetime : (exchange.lifetime s.lifetime).problem? s.now with
      | some p =>
          rw [hlifetime] at h
          exact Or.inl ⟨p, (Option.some.inj h).symm⟩
      | none =>
          rw [hlifetime] at h
          cases hanswer : exchange.answer with
          | error cause =>
              rw [hanswer] at h
              obtain rfl := Option.some.inj h
              obtain ⟨r, hr, hbound⟩ := exists_resources_of_prepare hprepare
              obtain ⟨p, hp, -⟩ := hfresh r hr transport hbound _ _ _ _ (hexchange ▸ hanswer)
              exact Or.inl ⟨p, hp⟩
          | ok response =>
              rw [hanswer, Exchange.value_of_answer hanswer] at h
              cases hvalue : response.data >>= Language.encode with
              | ok v =>
                  rw [hvalue] at h
                  cases h
              | error cause =>
                  rw [hvalue] at h
                  obtain rfl := Option.some.inj h
                  rcases Http.Response.value_eq_error hvalue with hproblem | hundecodable
                  · exact Or.inl hproblem
                  · exact Or.inr (.answer hprepare hexchange hlifetime hanswer hundecodable)

end Session

namespace Session

variable {s t : Session} {commands : List LocatedCommand} {failure : Failure}

/-- Commands of the language break a run off for a number that cannot be shown or for a failed
evaluation, or one of them is a request that escapes. -/
theorem BreaksOff.escapes (hfresh : ∀ r ∈ s.resources, r.Fresh)
    (hbuiltin : ∀ c ∈ commands, c.command.isBuiltin = true) (h : s.BreaksOff commands failure t) :
    failure.Breaking ∨ ∃ before c after u v request, commands = before ++ c :: after ∧
      c.command = .http request ∧ s.Completes before u ∧ (u.locate c.source c.line).LogsTo v ∧
      v.Escapes request failure := by
  cases h with
  | sectionEnd _ _ hfailure => exact Or.inl (breaking_of_newestDatum hfailure)
  | @command before after c u hcommands hbefore hbreaks =>
      obtain rfl := hcommands
      rw [List.forall_mem_append, List.forall_mem_cons] at hbuiltin
      obtain ⟨hbuiltin, hc, -⟩ := hbuiltin
      cases hbreaks with
      | @intro v _ hstart hrun hproblem =>
          cases hcommand : c.command with
          | http request =>
              rw [hcommand] at hrun
              have hresources : v.resources = s.resources := by
                obtain ⟨_, rfl⟩ := hstart
                exact hbefore.resources hbuiltin
              rcases escapes_of_send (hresources ▸ hfresh) hrun with ⟨p, hp⟩ | hescapes
              · exact absurd hp (hproblem p)
              · exact Or.inr ⟨before, c, after, u, v, request, rfl, hcommand, hbefore, hstart, hescapes⟩
          | value text =>
              rw [hcommand] at hrun
              exact Or.inl (breaking_of_run rfl hrun hproblem)
          | expect text =>
              rw [hcommand] at hrun
              exact Or.inl (breaking_of_run rfl hrun hproblem)
          | custom =>
              rw [hcommand] at hc
              cases hc

section Command

variable {c : LocatedCommand} {request : Http.Request}

/-- A request breaks off with what escapes, and with nothing else. -/
theorem runCommand_eq_error (hc : c.command = .http request) (hfresh : ∀ r ∈ s.resources, r.Fresh) :
    (s.runCommand c).result = .error failure ↔
      ((s.locate c.source c.line).logStart c).Escapes request failure := by
  have hstart : ∀ r ∈ ((s.locate c.source c.line).logStart c).resources, r.Fresh := hfresh
  unfold runCommand
  dsimp only
  rw [hc, Command.run]
  generalize (s.locate c.source c.line).logStart c = start at hstart ⊢
  constructor
  · intro h
    split at h
    · cases h
    · cases h
    · rename_i cause hproblem hfailure
      obtain rfl := Except.error.inj h
      refine (escapes_of_send hstart hfailure).resolve_left ?_
      rintro ⟨p, hp⟩
      exact hproblem p hp
  · intro hescapes
    rw [hescapes.failure_send]
    cases failure with
    | problem p => exact absurd rfl (hescapes.ne_problem p)
    | fault | evaluation => rfl

/-- A request that does not break off gives a value, or it has a problem at its place. -/
theorem runCommand_reports (hc : c.command = .http request) (hfresh : ∀ r ∈ s.resources, r.Fresh)
    (hreports : ∀ failure, (s.runCommand c).result ≠ .error failure) :
    ((s.runCommand c).result = .ok none ∧
        ∃ v, (s.runCommand c).session.history = s.history.push v) ∨
      ∃ p, (s.runCommand c).result = .ok (some p) ∧ p.source = some c.source ∧
        p.line = some (c.line : Int) ∧ (s.runCommand c).session.lastError = some p ∧
        (s.runCommand c).session.history = s.history := by
  have hbuiltin : c.command.isBuiltin = true := by
    rw [hc]
    rfl
  cases hrun : s.runCommand c with
  | mk t ends =>
    cases ends with
    | error failure => exact absurd (by rw [hrun]) (hreports failure)
    | ok failed =>
        cases failed with
        | none =>
            have hcompletes := completes_of_runCommand hrun
            cases hcompletes with
            | @cons _ u _ _ _ hstart hrun hrest =>
                cases hrest with
                | nil hend =>
                    obtain ⟨v, -, hhistory⟩ := history_run hbuiltin hrun
                    have hbefore : u.history = s.history := hstart.history
                    exact Or.inl ⟨rfl, v, by rw [hend.history, hhistory, hbefore]⟩
        | some p =>
            have hfails := failsAt_of_runCommand hrun
            obtain ⟨hsource, hline, -⟩ := hfails.placed hbuiltin hfresh
            exact Or.inr ⟨p, rfl, hsource, hline, hfails.lastError, hfails.history hbuiltin⟩

end Command

/-- **Requests are reported or escape.** A request breaks a run off with exactly the failures that escape:
a malformed address where there is a base, a body that breaks off when it is expanded, a body that
is not JSON and cannot be decoded, and a status with too many digits. Otherwise its value is pushed, or it
has a problem, which is placed at its line and leaves the history as it is. So a run breaks off only for
a command that computes, for a number that cannot be shown, or for a request that escapes. -/
theorem execute_requests (s : Session) :
    (∀ (c : LocatedCommand) (request : Http.Request), c.command = .http request →
      (∀ r ∈ s.resources, r.Fresh) →
      let start := (s.locate c.source c.line).logStart c
      let run := s.runCommand c
      (∀ failure, run.result = .error failure ↔ start.Escapes request failure) ∧
      ((∀ failure, ¬ start.Escapes request failure) →
        (run.result = .ok none ∧ ∃ v, run.session.history = s.history.push v) ∨
        ∃ p, run.result = .ok (some p) ∧ p.source = some c.source ∧ p.line = some (c.line : Int) ∧
          run.session.lastError = some p ∧ run.session.history = s.history)) ∧
    (∀ (t : Session) (r : Resources) (sections : List Section) (failure : Failure), r.Fresh →
      (∀ c ∈ sections.flatMap (·.commands), c.command.isBuiltin = true) →
      s.execute r sections = ⟨t, .error failure⟩ →
      failure.Breaking ∨ ∃ before c after u v request,
        sections.flatMap (·.commands) = before ++ c :: after ∧ c.command = .http request ∧
        (s.bind r).Completes before u ∧ (u.locate c.source c.line).LogsTo v ∧
        v.Escapes request failure) := by
  refine ⟨?_, ?_⟩
  · intro c request hc hfresh start run
    have hbreaks : ∀ failure, run.result = .error failure ↔ start.Escapes request failure :=
      fun failure => runCommand_eq_error hc hfresh
    refine ⟨hbreaks, fun hnone => runCommand_reports hc hfresh fun failure h => ?_⟩
    exact hnone failure ((hbreaks failure).mp h)
  · intro t r sections failure hfresh hbuiltin h
    obtain ⟨u, -, hbreaks⟩ := execute_broken h
    exact hbreaks.escapes (fun r' hr => Option.some.inj hr ▸ hfresh) hbuiltin

/-- An answer that is labelled with a character set for host names. -/
theorem execute_requests_host_charset :
    let answer : Transport := fun _ _ _ =>
      { answer := .ok { status := 200, content := [97], encoding := some "idna" } }
    let r : Resources := { transport := some answer }
    let s : Session := { now := .zero false }
    let request : Http.Request := { method := "GET", url := "http://localhost" }
    let c : LocatedCommand := ⟨.http request, "order", 2⟩
    let start := ((s.bind r).locate c.source c.line).logStart c
    r.Fresh ∧ (∃ failure, ((s.bind r).runCommand c).result = .error failure ∧
        start.Escapes request failure) ∧
      ∃ t failure, s.execute r [⟨"order", 1, [c]⟩] = ⟨t, .error failure⟩ ∧
        (failure.Breaking ∨ ∃ before c' after u v request, [c] = before ++ c' :: after ∧
          c'.command = .http request ∧ (s.bind r).Completes before u ∧
          (u.locate c'.source c'.line).LogsTo v ∧ v.Escapes request failure) := by
  intro answer r s request c start
  have hfresh : r.Fresh := by
    intro transport htransport sent request timeout failure hfailure
    obtain rfl := Option.some.inj htransport
    cases hfailure
  obtain ⟨hcommand, -⟩ := execute_requests (s.bind r)
  obtain ⟨-, hexecute⟩ := execute_requests s
  refine ⟨hfresh, ?_, ?_⟩
  · have hbreaks : ((s.bind r).runCommand c).result.toOption.isNone = true := by decide +kernel
    cases hresult : ((s.bind r).runCommand c).result with
    | ok failed =>
        rw [hresult] at hbreaks
        cases hbreaks
    | error failure =>
        have hbound : ∀ r' ∈ (s.bind r).resources, r'.Fresh :=
          fun r' hr => Option.some.inj hr ▸ hfresh
        obtain ⟨hiff, -⟩ := hcommand c request rfl hbound
        exact ⟨failure, rfl, (hiff failure).mp hresult⟩
  · have hbreaks : (s.execute r [⟨"order", 1, [c]⟩]).result.toOption.isNone = true := by
      decide +kernel
    cases hrun : s.execute r [⟨"order", 1, [c]⟩] with
    | mk t ends =>
      rw [hrun] at hbreaks
      cases ends with
      | ok result => cases hbreaks
      | error failure =>
          exact ⟨t, failure, rfl, hexecute t r _ failure hfresh (by decide) hrun⟩

/-- An address with half a bracket, where there is a base: neither a value nor a problem comes of it, and
no script behind it is run. -/
theorem send_malformed_address :
    let answer : Transport := fun _ _ _ => { answer := .ok { status := 200 } }
    let r : Resources := { transport := some answer, baseUrl := some "http://localhost" }
    let s : Session := { now := .zero false, resources := some r }
    let request : Http.Request := { method := "GET", url := "http://[" }
    let e : Engine :=
      { parsers := Registry.common, transport := some answer, baseUrl := some "http://localhost" }
    let tree : FileTree := ⟨[(["bad.testdrive"], some (Utf8.encode "HTTP GET http://[\n")),
      (["good.testdrive"], some (Utf8.encode "HTTP GET /\n"))]⟩
    let paths : List Path := [⟨["bad.testdrive"]⟩, ⟨["good.testdrive"]⟩]
    r.Fresh ∧ s.lifetime.problem? s.now = none ∧
      (s.send request).failure.map Failure.text = some "Invalid IPv6 URL" ∧
      ¬ ((∃ v, (s.send request).session.history = s.history.push v) ∨
        ∃ p, (s.send request).failure = some (.problem p)) ∧
      (e.runFile answer tree { now := .zero false } ⟨["good.testdrive"]⟩).report.isOk = true ∧
      (FileRun.reports (e.runFiles answer tree { now := .zero false } paths)).1.length = 0 := by
  intro answer r s request e tree paths
  have hfresh : r.Fresh := by
    intro transport htransport sent request timeout failure hfailure
    obtain rfl := Option.some.inj htransport
    cases hfailure
  have hhistory : (s.send request).session.history.values.length = 0 := by decide +kernel
  refine ⟨hfresh, rfl, ?_, ?_, ?_, ?_⟩
  · decide +kernel
  · rintro (⟨v, hv⟩ | ⟨p, hp⟩)
    · rw [hv] at hhistory
      cases hhistory
    · have hfault : (s.send request).failure.any Failure.isProblem = false := by decide +kernel
      rw [hp] at hfault
      cases hfault
  · decide +kernel
  · decide +kernel

end Session

end ApiProbe
