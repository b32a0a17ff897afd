import ApiProbe.Proofs.Result
import ApiProbe.Proofs.Run.Lifetime
import ApiProbe.Settings.Basic

/-!
# Settings as deadlines

Variables that give no settings are refused. The limit that settings have is the number that its text
stands for, and it is positive or a NaN. A lifetime with a positive limit is a deadline, and all that is
asked of it agrees at every time; one whose limit is a NaN has no time left from the beginning on, and
never ends.
-/

namespace ApiProbe.Settings

open Binary64

variable {vars : Variables} {settings : Settings} {text : String}

def IsRefusal (fault : Fault) : Prop :=
  ∃ message, fault = .invalid message

theorem failsWith_refuse {α : Type} (setting message : String) :
    FailsWith IsRefusal (refuse setting message : Except Fault α) :=
  failsWith_error ⟨_, rfl⟩

theorem failsWith_readTimeout (text : String) : FailsWith IsRefusal (readTimeout text) := by
  unfold readTimeout
  split
  · exact failsWith_refuse _ _
  · split
    · exact failsWith_refuse _ _
    · exact failsWith_refuse _ _
    · exact failsWith_ok _

theorem failsWith_readLogFormat (text : String) : FailsWith IsRefusal (readLogFormat text) := by
  unfold readLogFormat
  split
  · exact failsWith_ok _
  · exact failsWith_refuse _ _

theorem failsWith_ofVariables (vars : Variables) : FailsWith IsRefusal (ofVariables vars) := by
  unfold ofVariables
  refine FailsWith.bind ?_ fun timeout _ => ?_
  · cases text? vars "TIMEOUT_SEC" with
    | none => exact failsWith_ok _
    | some text => exact (failsWith_readTimeout text).map some
  · exact FailsWith.bind (failsWith_readLogFormat _) fun format _ => failsWith_ok _

/-- A limit that is accepted is not at most zero, which leaves the positive numbers and NaN. -/
theorem readTimeout_eq_ok {t : Binary64} (h : readTimeout text = .ok t) :
    Numeral.readBinary64? text = some t ∧ (t = .nan ∨ t.compare? (.zero false) = some .gt) := by
  unfold readTimeout at h
  split at h
  · cases h
  · rename_i x hx
    split at h
    · cases h
    · cases h
    · rename_i hlt heq
      obtain rfl := Except.ok.inj h
      refine ⟨hx, ?_⟩
      by_contra hnot
      rw [not_or] at hnot
      exact (atMost_of_ne_gt hnot.1 (zero_isProper false).ne_nan hnot.2).elim hlt heq

theorem readLogFormat_eq_ok {format : LogFormat} (h : readLogFormat text = .ok format) :
    format.name = Text.lower text := by
  unfold readLogFormat LogFormat.ofName? at h
  split at h
  · rename_i found hfound
    obtain rfl := Except.ok.inj h
    have hname := List.find?_some hfound
    exact beq_iff_eq.mp hname
  · cases h

theorem ofVariables_eq_ok (h : ofVariables vars = .ok settings) :
    (text? vars "TIMEOUT_SEC").mapM readTimeout = .ok settings.timeout ∧
      readLogFormat ((text? vars "LOG_FORMAT").getD "text") = .ok settings.logFormat := by
  obtain ⟨timeout, htimeout, h⟩ := bind_eq_ok_iff.mp h
  obtain ⟨format, hformat, h⟩ := bind_eq_ok_iff.mp h
  obtain rfl := Except.ok.inj h
  exact ⟨htimeout, hformat⟩

theorem timeout_of_ofVariables (h : ofVariables vars = .ok settings) :
    settings.timeout = (text? vars "TIMEOUT_SEC").bind Numeral.readBinary64? ∧
      ∀ t ∈ settings.timeout, t = .nan ∨ t.compare? (.zero false) = some .gt := by
  have htimeout := (ofVariables_eq_ok h).1
  cases htext : text? vars "TIMEOUT_SEC" with
  | none =>
      rw [htext] at htimeout
      obtain hnone : none = settings.timeout := Except.ok.inj htimeout
      simp [← hnone]
  | some text =>
      rw [htext] at htimeout
      obtain ⟨t, ht, hsome⟩ := map_eq_ok_iff.mp htimeout
      obtain ⟨hread, hpositive⟩ := readTimeout_eq_ok ht
      rw [← hsome, Option.bind_some, hread]
      exact ⟨rfl, fun t' ht' => Option.some.inj ht' ▸ hpositive⟩

/-- **Settings give deadlines.** Variables are refused, or they give settings with a known format of the
log and with a limit, if any, that is positive or a NaN. At every time of a lifetime with this limit, its end
is a problem just if it has ended, and once it has it stays so; and unless it is cancelled, no time is left just
if it has ended or its limit is a NaN. -/
theorem ofVariables_deadline (vars : Variables) :
    (∃ message, ofVariables vars = .error (.invalid message)) ∨
      ∃ settings, ofVariables vars = .ok settings ∧
        (settings.logFormat.name = "json" ∨ settings.logFormat.name = "text") ∧
        settings.logFormat.name = Text.lower ((text? vars "LOG_FORMAT").getD "text") ∧
        settings.timeout = (text? vars "TIMEOUT_SEC").bind Numeral.readBinary64? ∧
        (∀ t ∈ settings.timeout, t = .nan ∨ t.compare? (.zero false) = some .gt) ∧
        ∀ begun : Binary64, begun.IsProper →
          ∀ m, (Moment.start begun settings.timeout).Later m →
            (m.lifetime.cancelReason = none →
              (m.lifetime.NothingLeft m.now ↔ m.Ended ∨ settings.timeout = some .nan)) ∧
            (m.Ended → ∃ reason, m.lifetime.problem? m.now = some (.cancelled reason)) ∧
            (¬ m.Ended → m.lifetime.problem? m.now = none) ∧
            (m.Ended → ∀ n, m.Later n → n.Ended) := by
  cases h : ofVariables vars with
  | error fault =>
      obtain ⟨message, rfl⟩ := failsWith_ofVariables vars fault h
      exact Or.inl ⟨message, rfl⟩
  | ok settings =>
      obtain ⟨htimeout, hpositive⟩ := timeout_of_ofVariables h
      have hformat := readLogFormat_eq_ok (ofVariables_eq_ok h).2
      have hname : settings.logFormat.name = "json" ∨ settings.logFormat.name = "text" := by
        cases settings.logFormat
        · exact Or.inl rfl
        · exact Or.inr rfl
      refine Or.inr ⟨settings, rfl, hname, hformat, htimeout, hpositive, fun begun hbegun m hlater => ?_⟩
      exact ⟨Moment.nothingLeft_iff_of_later hbegun hlater, Lifetime.exists_problem_of_ended,
        Lifetime.problem?_eq_none, fun hended n hn => hn.ended hended⟩

/-- A limit of two and a half seconds, with a sign, an underscore and an exponent. It is looked at a second
and three seconds after the start, and then the run is cancelled. -/
theorem ofVariables_deadline_three_seconds :
    let vars : Variables := [("TESTDRIVE_TIMEOUT_SEC", some " +2_5.0e-1"), ("TESTDRIVE_LOG_FORMAT", some "JSON")]
    let limit : Binary64 := .ofQuotient false 5 2
    let before : Moment := ⟨.start (.ofInt 7) (some limit), .ofInt 8⟩
    let behind : Moment := ⟨.start (.ofInt 7) (some limit), .ofInt 10⟩
    let cancelled : Moment := ⟨behind.lifetime.cancel "stop", .ofInt 10⟩
    ∃ settings, ofVariables vars = .ok settings ∧ settings.logFormat.name = "json" ∧
      settings.timeout = some limit ∧ limit.compare? (.zero false) = some .gt ∧
      ¬ before.lifetime.NothingLeft before.now ∧ ¬ before.Ended ∧
      before.lifetime.problem? before.now = none ∧ behind.lifetime.NothingLeft behind.now ∧
      (∃ reason, behind.lifetime.problem? behind.now = some (.cancelled reason)) ∧
      cancelled.Ended := by
  intro vars limit before behind cancelled
  have hread : (ofVariables vars).toOption.map (fun s => (s.timeout, s.logFormat))
      = some (some limit, .json) := by decide +kernel
  obtain ⟨settings, hsettings, hpair⟩ := Option.map_eq_some_iff.mp hread
  obtain ⟨htimeout, hformat⟩ := Prod.mk.inj hpair
  have hok := toOption_eq_some_iff.mp hsettings
  rcases ofVariables_deadline vars with ⟨message, herror⟩ | ⟨settings', hok', _, _, _, hpositive, hall⟩
  · rw [hok] at herror
    cases herror
  · obtain rfl := Except.ok.inj (hok.symm.trans hok')
    rw [htimeout] at hpositive hall
    have hbegun : (Binary64.ofInt 7).IsProper := by decide +kernel
    have hbefore : (Moment.start (.ofInt 7) (some limit)).Later before :=
      .single (.tick (by decide +kernel) (Or.inl (by decide +kernel)))
    have hbehind : before.Later behind :=
      .single (.tick (by decide +kernel) (Or.inl (by decide +kernel)))
    have hcancelled : behind.Later cancelled := .single (.cancel "stop")
    have hstill : ¬ before.lifetime.ended before.now = true := by decide +kernel
    have hended : behind.lifetime.ended behind.now = true := by decide +kernel
    obtain ⟨hleft, -, hnone, -⟩ := hall _ hbegun before hbefore
    obtain ⟨hleft', hproblem, -, hstays⟩ := hall _ hbegun behind (hbefore.trans hbehind)
    refine ⟨settings, hok, congrArg LogFormat.name hformat, htimeout,
      (hpositive limit rfl).resolve_left (by decide +kernel), ?_, hstill, hnone hstill,
      (hleft' rfl).mpr (Or.inl hended), hproblem hended, hstays hended cancelled hcancelled⟩
    rw [hleft rfl, not_or]
    exact ⟨hstill, by decide +kernel⟩

/-- A NaN is accepted as a limit though it is not positive; then no time is left, at a time when the
lifetime has not ended. -/
theorem ofVariables_nan_deadline :
    let vars : Variables := [("TESTDRIVE_TIMEOUT_SEC", some "nan")]
    let m : Moment := ⟨.start (.ofInt 7) (some .nan), .ofInt 8⟩
    (∃ settings, ofVariables vars = .ok settings ∧ settings.timeout = some .nan) ∧
      Binary64.nan.compare? (.zero false) ≠ some .gt ∧
      (Moment.start (.ofInt 7) (some .nan)).Later m ∧ m.lifetime.cancelReason = none ∧
      m.lifetime.remaining m.now = some (.zero false) ∧ ¬ m.Ended := by
  intro vars m
  have hread : (ofVariables vars).toOption.map (·.timeout) = some (some .nan) := by decide +kernel
  obtain ⟨settings, hsettings, htimeout⟩ := Option.map_eq_some_iff.mp hread
  refine ⟨⟨settings, toOption_eq_some_iff.mp hsettings, htimeout⟩, nofun, ?_, rfl, rfl, nofun⟩
  exact .single (.tick (by decide +kernel) (Or.inl (by decide +kernel)))

end ApiProbe.Settings
