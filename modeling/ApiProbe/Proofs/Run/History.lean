import ApiProbe.Proofs.Expr.Reference
import ApiProbe.Proofs.Run.Breakdown

/-!
# The history of a run

At every point of a run the history holds the results of the latest commands that succeeded, the newest
first. The names of the history stand for these results and for nothing else.
-/

namespace ApiProbe

/-- The value that a command of the language computes, if nothing goes wrong. -/
def Command.result? (s : Session) : Command → Option Value
  | .value text => (s.compile text).toOption
  | .expect text => (s.compile text >>= s.unify).toOption
  | .http request =>
    Except.toOption do
      let (transport, prepared) ← s.prepare request
      let response ← (transport s.sent prepared (s.lifetime.remaining s.now)).answer
      response.data >>= Language.encode
  | .custom .. => none

namespace Session

section Command

variable {s : Session} {c : Command}

theorem history_of_pushed {result : Except Failure Value}
    (h : (Outcome.of s s.push result).failure = none) :
    ∃ v, result = .ok v ∧ (Outcome.of s s.push result).session.history = s.history.push v := by
  cases result with
  | error failure => cases h
  | ok v => exact ⟨v, rfl, rfl⟩

theorem unify_of_matchValue {text : String} {v : Value} (h : Command.matchValue s text = .ok v) :
    (s.compile text >>= s.unify) = .ok v := by
  obtain ⟨expected, hexpected, h⟩ := bind_eq_ok_iff.mp h
  refine bind_eq_ok_iff.mpr ⟨expected, hexpected, ?_⟩
  split at h
  · cases h
  · exact h

theorem history_receive {request : Http.Request} {answer : Except Failure Http.Response}
    (h : (s.receive request answer).failure = none) :
    ∃ response v, answer = .ok response ∧ (response.data >>= Language.encode) = .ok v ∧
      (s.receive request answer).session.history = s.history.push v := by
  unfold receive at h ⊢
  split at h
  · cases h
  · cases h
  · rename_i response _
    dsimp only at h ⊢
    obtain ⟨v, hv, hhistory⟩ := history_of_pushed h
    refine ⟨response, v, rfl, hv, ?_⟩
    rw [hhistory, log]

theorem history_send {request : Http.Request} (h : (s.send request).failure = none) :
    ∃ v, (Command.http request).result? s = some v ∧
      (s.send request).session.history = s.history.push v := by
  rw [send_eq] at h ⊢
  split at h
  · cases h
  · rename_i transport prepared hprepare
    obtain ⟨response, v, hanswer, hv, hhistory⟩ := history_receive h
    refine ⟨v, ?_, hhistory⟩
    have hanswer : (transport s.sent prepared (s.lifetime.remaining s.now)).answer = .ok response :=
      hanswer
    rw [Command.result?, toOption_eq_some_iff]
    exact bind_eq_ok_iff.mpr ⟨_, hprepare, bind_eq_ok_iff.mpr ⟨response, hanswer, hv⟩⟩

/-- A command that succeeds adds its result to the history, and nothing else. -/
theorem history_run (hc : c.isBuiltin = true) (h : (c.run s).failure = none) :
    ∃ v, c.result? s = some v ∧ (c.run s).session.history = s.history.push v := by
  cases c with
  | value text =>
      obtain ⟨v, hv, hhistory⟩ := history_of_pushed h
      exact ⟨v, toOption_eq_some_iff.mpr hv, hhistory⟩
  | expect text =>
      obtain ⟨v, hv, hhistory⟩ := history_of_pushed h
      exact ⟨v, toOption_eq_some_iff.mpr (unify_of_matchValue hv), hhistory⟩
  | http request => exact history_send h
  | custom => cases hc

end Command

/-- The commands run one after another, none fails, and these are their results. -/
inductive Produces : Session → List LocatedCommand → List Value → Session → Prop
  | nil {s t : Session} (hend : s.LogsTo t) : Produces s [] [] t
  | cons {s u t : Session} {c : LocatedCommand} {commands : List LocatedCommand} {v : Value}
      {values : List Value} (hstart : (s.locate c.source c.line).LogsTo u)
      (hrun : (c.command.run u).failure = none) (hresult : c.command.result? u = some v)
      (hrest : Produces (c.command.run u).session commands values t) :
      Produces s (c :: commands) (v :: values) t

section Produces

variable {s t : Session} {commands : List LocatedCommand} {values : List Value}

/-- What is pushed counts before what was there, up to the capacity. -/
theorem take_append_take {α : Type} (xs ys : List α) (n : Nat) :
    (xs ++ ys.take n).take n = (xs ++ ys).take n := by
  rw [List.take_append, List.take_append, List.take_take, Nat.min_eq_left (Nat.sub_le n xs.length)]

theorem Produces.length (h : s.Produces commands values t) : values.length = commands.length := by
  induction h with
  | nil => rfl
  | cons _ _ _ _ ih => exact congrArg (· + 1) ih

/-- The results of the commands stand in front of the history, the last one first. What exceeds the
capacity is gone. -/
theorem Produces.history (h : s.Produces commands values t)
    (hbuiltin : ∀ c ∈ commands, c.command.isBuiltin = true)
    (hs : s.history.values.length ≤ s.history.capacity) :
    t.history = { s.history with
      values := (values.reverse ++ s.history.values).take s.history.capacity } := by
  induction h with
  | nil hend =>
      rw [hend.history, List.reverse_nil, List.nil_append, List.take_of_length_le hs]
  | @cons s u t c commands v values hstart hrun hresult _ ih =>
      obtain ⟨hc, hcommands⟩ := List.forall_mem_cons.mp hbuiltin
      obtain ⟨w, hw, hhistory⟩ := history_run hc hrun
      obtain rfl := Option.some.inj (hresult.symm.trans hw)
      have hpushed : (c.command.run u).session.history = s.history.push v := by
        rw [hhistory, hstart.history]
        rfl
      rw [ih hcommands (by rw [hpushed]; exact List.length_take_le _ _), hpushed, History.push]
      dsimp only
      rw [take_append_take, List.reverse_cons, List.append_assoc, List.singleton_append]

theorem Completes.exists_produces (h : s.Completes commands t)
    (hbuiltin : ∀ c ∈ commands, c.command.isBuiltin = true) :
    ∃ values, s.Produces commands values t := by
  induction h with
  | nil hend => exact ⟨[], .nil hend⟩
  | cons hstart hrun _ ih =>
      obtain ⟨hc, hcommands⟩ := List.forall_mem_cons.mp hbuiltin
      obtain ⟨v, hv, -⟩ := history_run hc hrun
      obtain ⟨values, hvalues⟩ := ih hcommands
      exact ⟨v :: values, .cons hstart hrun hv hvalues⟩

end Produces

/-- The session recalls the results of the commands up to here, given in the order of the commands: its
history, and what the names of the history stand for. -/
structure Recalls (s : Session) (results : List Value) : Prop where
  history : s.history.values = results.reverse.take 10
  value : ∀ (k : Nat) (v : Value), (results.reverse.take 10)[k]? = some v →
    s.compile s!"$history[{k}]" = .ok v
  newest : results ≠ [] → s.compile "$" = s.compile "$history[0]"
  outOfRange : ∀ k : Nat, min results.length 10 ≤ k → (toString k).length ≤ Numeral.digitLimit →
    ∃ p, s.compile s!"$history[{k}]" = .error (.problem p) ∧ p.kind = .compile s!"$history[{k}]"
  empty : results = [] → ∃ p, s.compile "$" = .error (.problem p) ∧ p.kind = .compile "$"

theorem recalls_of_history {s : Session} {results : List Value}
    (h : s.history.values = results.reverse.take 10) : s.Recalls results := by
  have hlength : s.history.values.length = min 10 results.length := by
    rw [h, List.length_take, List.length_reverse]
  have hnewest : s.newest? = s.history.values[0]? := List.head?_eq_getElem?
  refine ⟨h, fun k v hv => ?_, fun hne => ?_, fun k hk hdigits => ?_, fun hnil => ?_⟩
  · rw [← h] at hv
    obtain ⟨hk, -⟩ := List.getElem?_eq_some_iff.mp hv
    have hdigits : (toString k).length ≤ Numeral.digitLimit := by
      rw [show toString k = String.ofList (Nat.toDigits 10 k) from rfl, String.length_ofList,
        Nat.toDigits_of_lt_base (by omega)]
      exact (show 1 ≤ 4300 by decide)
    rw [compile_history s hdigits, hv]
  · have hcompile := compile_history s (k := 0) (by decide)
    rw [show s!"$history[{0}]" = "$history[0]" by decide] at hcompile
    rw [compile_newest, hnewest]
    cases hv : s.history.values[0]? with
    | none =>
        rw [List.getElem?_eq_none_iff, hlength] at hv
        have hpos := List.length_pos_iff.mpr hne
        omega
    | some v =>
        rw [hv] at hcompile
        exact hcompile.symm
  · have hnone : s.history.values[k]? = none := by
      rw [List.getElem?_eq_none_iff, hlength, Nat.min_comm]
      exact hk
    rw [compile_history s hdigits, hnone]
    exact ⟨_, rfl, rfl⟩
  · have hnone : s.newest? = none := by
      rw [newest?, History.newest?, h, hnil]
      rfl
    rw [compile_newest, hnone]
    exact ⟨_, rfl, rfl⟩

/-- **The history holds the latest results.** After any number of commands that succeeded a session
recalls the results of the last ten, and a command that fails changes nothing about that. A run ends with
such a session, whether it succeeds, fails or breaks off. -/
theorem execute_recalls (s : Session) (hs : s.history = { capacity := History.standardCapacity })
    (r : Resources) (sections : List Section)
    (hbuiltin : ∀ c ∈ sections.flatMap (·.commands), c.command.isBuiltin = true) :
    (∀ before after t, sections.flatMap (·.commands) = before ++ after →
      (s.bind r).Completes before t → ∃ results, (s.bind r).Produces before results t ∧
        results.length = before.length ∧ t.Recalls results ∧
        ∀ c ∈ after, ∀ u, (t.locate c.source c.line).LogsTo u → (c.command.run u).failure ≠ none →
          (c.command.run u).session.Recalls results) ∧
      ∃ before after t results, sections.flatMap (·.commands) = before ++ after ∧
        (s.bind r).Produces before results t ∧ (s.execute r sections).session.Recalls results ∧
        ∀ result, (s.execute r sections).result = .ok result → result.ok = true → after = [] := by
  have hpoint : ∀ before after t, sections.flatMap (·.commands) = before ++ after →
      (s.bind r).Completes before t → ∃ results, (s.bind r).Produces before results t ∧
        t.history.values = results.reverse.take 10 := by
    intro before after t hcommands hbefore
    have hbuiltin' : ∀ c ∈ before, c.command.isBuiltin = true := fun c hc =>
      hbuiltin c (by rw [hcommands]; exact List.mem_append_left after hc)
    have hstart : (s.bind r).history = { capacity := History.standardCapacity } := hs
    obtain ⟨results, hresults⟩ := hbefore.exists_produces hbuiltin'
    refine ⟨results, hresults, ?_⟩
    rw [hresults.history hbuiltin' (by rw [hstart]; exact Nat.zero_le _), hstart]
    exact congrArg (List.take 10) (List.append_nil results.reverse)
  constructor
  · intro before after t hcommands hbefore
    obtain ⟨results, hresults, hhistory⟩ := hpoint before after t hcommands hbefore
    refine ⟨results, hresults, hresults.length, recalls_of_history hhistory, ?_⟩
    intro c hc u hu hfails
    have hcbuiltin : c.command.isBuiltin = true :=
      hbuiltin c (by rw [hcommands]; exact List.mem_append_right before hc)
    apply recalls_of_history
    rw [(keeps_run hcbuiltin).history hfails, hu.history]
    exact hhistory
  · obtain ⟨before, after, u, hcommands, hsession, hends, hok⟩ := execute_ends s r sections
    have hafter : ∀ c ∈ after, c.command.isBuiltin = true := fun c hc =>
      hbuiltin c (by rw [hcommands]; exact List.mem_append_right before hc)
    obtain ⟨t, hbefore, hkept⟩ := hends.history hafter
    obtain ⟨results, hresults, hhistory⟩ := hpoint before after t hcommands hbefore
    have hlast : (s.execute r sections).session.history.values = results.reverse.take 10 := by
      rw [hsession, ← hhistory, ← hkept, release]
    exact ⟨before, after, t, results, hcommands, hresults, recalls_of_history hlast, hok⟩

/-- Ten values, a response and a match, of which the history forgets the first two, and a match that
fails. -/
theorem execute_recalls_twelve_results :
    let transport : Transport := fun _ _ _ => { answer := .ok { status := 200 } }
    let s : Session := { now := .zero false }
    let numbers : List LocatedCommand :=
      (List.range 10).map fun k => ⟨.value (toString k), "order", k + 1⟩
    let sections : List Section := [⟨"numbers", 1, numbers⟩,
      ⟨"request", 12, [⟨.http ⟨"GET", "http://localhost", [], ""⟩, "order", 13⟩,
        ⟨.expect "\x7bstatus: \x7bcode: 200\x7d\x7d", "order", 14⟩, ⟨.expect "1", "order", 15⟩]⟩]
    let finished := s.execute { transport } sections
    ∃ before after t results, sections.flatMap (·.commands) = before ++ after ∧
      (s.bind { transport }).Produces before results t ∧ finished.session.Recalls results ∧
      10 ≤ results.length ∧ finished.session.history.values.length = 10 := by
  intro transport s numbers sections finished
  have hbuiltin : ∀ c ∈ sections.flatMap (·.commands), c.command.isBuiltin = true :=
    List.all_eq_true.mp rfl
  obtain ⟨-, before, after, t, results, hcommands, hproduces, hrecalls, -⟩ :=
    execute_recalls s rfl { transport } sections hbuiltin
  have hlength : finished.session.history.values.length = 10 := by decide +kernel
  refine ⟨before, after, t, results, hcommands, hproduces, hrecalls, ?_, hlength⟩
  rw [hrecalls.history, List.length_take, List.length_reverse] at hlength
  omega

end Session

end ApiProbe
