import Mathlib.Logic.Relation
import ApiProbe.Proofs.Expr.Evaluation
import ApiProbe.Proofs.Http.Response
import ApiProbe.Run.Execute

/-!
# The values of a session

A session only ever holds well-formed values: each command of the language pushes a value that is
compiled, unified or encoded, and nothing else touches the history. The invariant takes in the
transport, whose responses become values.
-/

namespace ApiProbe

namespace Language

theorem unify_eq_ok {a b r : Value} (h : unify a b = .ok r) : Value.unify a b = .ok r := by
  unfold unify at h
  split at h
  · rename_i hunify
    exact Except.ok.inj h ▸ hunify
  · cases h
  · cases h

theorem encode_eq_ok {d : Datum} {v : Value} (h : encode d = .ok v) : Value.encode d = .ok v := by
  unfold encode at h
  split at h
  · rename_i hencode
    exact Except.ok.inj h ▸ hencode
  · cases h
  · cases h

end Language

/-- Every response that a request is answered with has each header once. -/
def Transport.WellFormed (transport : Transport) : Prop :=
  ∀ sent request timeout response,
    (transport sent request timeout).answer = .ok response → response.WellFormed

def Resources.WellFormed (r : Resources) : Prop :=
  ∀ transport ∈ r.transport, transport.WellFormed

def Command.isBuiltin : Command → Bool
  | .custom .. => false
  | _ => true

namespace Session

structure WellFormed (s : Session) : Prop where
  values : ∀ v ∈ s.history.values, v.WellFormed
  logged : ∀ event ∈ s.events, ∀ v ∈ event.values, v.WellFormed
  resources : ∀ r ∈ s.resources, r.WellFormed

section Steps

variable {s : Session}

theorem WellFormed.newest (h : s.WellFormed) : ∀ v ∈ s.newest?, v.WellFormed :=
  fun v hv => h.values v (List.mem_of_mem_head? hv)

theorem WellFormed.scope (h : s.WellFormed) : ∀ f ∈ s.scope, f.2.WellFormed := by
  rw [Session.scope, List.forall_mem_cons]
  refine ⟨Value.wellFormed_list.mpr ⟨h.values, nofun⟩, fun f hf => ?_⟩
  obtain ⟨v, hv, rfl⟩ := Option.map_eq_some_iff.mp (Option.mem_toList.mp hf)
  exact h.newest v hv

theorem WellFormed.push (h : s.WellFormed) {v : Value} (hv : v.WellFormed) :
    (s.push v).WellFormed := by
  refine ⟨fun w hw => ?_, h.logged, h.resources⟩
  exact List.forall_mem_cons.mpr ⟨hv, h.values⟩ w (List.mem_of_mem_take hw)

theorem WellFormed.log (h : s.WellFormed) (level : Level) (name : String) (fields : Dict Datum) :
    (s.log level name fields).WellFormed := by
  refine ⟨h.values, ?_, h.resources⟩
  rw [Session.log, List.forall_mem_append]
  exact ⟨h.logged, List.forall_mem_singleton.mpr h.values⟩

theorem WellFormed.locate (h : s.WellFormed) (source : String) (line : Int) :
    (s.locate source line).WellFormed :=
  ⟨h.values, h.logged, h.resources⟩

theorem WellFormed.bind (h : s.WellFormed) {r : Resources} (hr : r.WellFormed) :
    (s.bind r).WellFormed :=
  ⟨h.values, h.logged, fun _ hresources => Option.some.inj hresources ▸ hr⟩

theorem WellFormed.release (h : s.WellFormed) : s.release.WellFormed :=
  ⟨h.values, h.logged, nofun⟩

theorem WellFormed.outcome (h : s.WellFormed) {result : Except Failure Value}
    (hresult : ∀ v, result = .ok v → v.WellFormed) :
    (Outcome.of s s.push result).session.WellFormed := by
  cases result with
  | error failure => exact h
  | ok v => exact h.push (hresult v rfl)

theorem WellFormed.compile (h : s.WellFormed) {text : String} {v : Value}
    (hcompile : s.compile text = .ok v) : v.WellFormed :=
  Expr.wellFormed_compile h.scope (Language.compile_eq_ok_iff.mp hcompile)

theorem WellFormed.matchValue (h : s.WellFormed) {text : String} {v : Value}
    (hmatch : Command.matchValue s text = .ok v) : v.WellFormed := by
  obtain ⟨expected, hcompile, hmatch⟩ := bind_eq_ok_iff.mp hmatch
  have hunify : s.unify expected = .ok v := by
    split at hmatch
    · cases hmatch
    · exact hmatch
  have hnewest : (s.newest?.getD .top).WellFormed := by
    cases hlatest : s.newest? with
    | none => exact .top
    | some w => exact h.newest w hlatest
  exact Value.wellFormed_unify hnewest (h.compile hcompile) (Language.unify_eq_ok hunify)

theorem WellFormed.receive (h : s.WellFormed) (request : Http.Request)
    {answer : Except Failure Http.Response}
    (hanswer : ∀ response, answer = .ok response → response.WellFormed) :
    (s.receive request answer).session.WellFormed := by
  rw [Session.receive.eq_def]
  split
  · exact h
  · exact h
  · rename_i response _
    apply (h.log _ _ _).outcome
    intro v hv
    obtain ⟨d, hd, hencode⟩ := bind_eq_ok_iff.mp hv
    have hdata := Http.Response.wellFormed_data (hanswer response rfl) hd
    exact Value.wellFormed_encode hdata (Language.encode_eq_ok hencode)

/-- The transport that a request is prepared for is the one of the resources. -/
theorem WellFormed.prepare (h : s.WellFormed) {request prepared : Http.Request}
    {transport : Transport} (hprepare : s.prepare request = .ok (transport, prepared)) :
    transport.WellFormed := by
  unfold Session.prepare at hprepare
  split at hprepare
  · rename_i own _ _ _ hresources
    obtain ⟨_, _, hprepare⟩ := bind_eq_ok_iff.mp hprepare
    dsimp only at hprepare
    split at hprepare
    all_goals
      obtain ⟨url, _, hprepare⟩ := bind_eq_ok_iff.mp hprepare
      split at hprepare
      all_goals
        obtain ⟨body, _, hprepare⟩ := bind_eq_ok_iff.mp hprepare
        obtain ⟨rfl, _⟩ := Prod.mk.inj (Except.ok.inj hprepare)
        exact h.resources _ hresources own rfl
  · cases hprepare

theorem WellFormed.send (h : s.WellFormed) (request : Http.Request) :
    (s.send request).session.WellFormed := by
  unfold Session.send
  split
  · exact h
  · rename_i hprepare
    have htransport := h.prepare hprepare
    refine WellFormed.receive ?_ _ fun response hresponse => htransport _ _ _ response hresponse
    exact ⟨h.values, (h.log _ _ _).logged, h.resources⟩

/-- A command of the language leaves the session well formed, whether it succeeds or fails. -/
theorem WellFormed.run (h : s.WellFormed) {c : Command} (hc : c.isBuiltin = true) :
    (c.run s).session.WellFormed := by
  cases c with
  | value text => exact h.outcome fun v hv => h.compile hv
  | expect text => exact h.outcome fun v hv => h.matchValue hv
  | http request => exact h.send request
  | custom => cases hc

end Steps

/-- What happens to a session in a run, one thing at a time. -/
inductive Step : Session → Session → Prop
  | bind {s : Session} {r : Resources} (hr : r.WellFormed) : Step s (s.bind r)
  | release {s : Session} : Step s s.release
  | log {s : Session} (level : Level) (name : String) (fields : Dict Datum) :
      Step s (s.log level name fields)
  | locate {s : Session} (source : String) (line : Int) : Step s (s.locate source line)
  | fail {s : Session} (p : Problem) : Step s { s with lastError := some p }
  | command {s : Session} {c : Command} (hc : c.isBuiltin = true) : Step s (c.run s).session

/-- The sessions that a run of commands of the language comes to. -/
abbrev Reaches : Session → Session → Prop :=
  Relation.ReflTransGen Step

theorem WellFormed.step {s t : Session} (h : s.WellFormed) (hstep : Step s t) : t.WellFormed := by
  cases hstep with
  | bind hr => exact h.bind hr
  | release => exact h.release
  | log level name fields => exact h.log level name fields
  | locate source line => exact h.locate source line
  | fail p => exact ⟨h.values, h.logged, h.resources⟩
  | command hc => exact h.run hc

theorem WellFormed.reaches {s t : Session} (h : s.WellFormed) (hreaches : Reaches s t) :
    t.WellFormed := by
  induction hreaches with
  | refl => exact h
  | tail _ hstep ih => exact ih.step hstep

section Runs

variable {s : Session}

theorem reaches_runCommand {c : LocatedCommand} (hc : c.command.isBuiltin = true) :
    Reaches s (s.runCommand c).session := by
  have hrun : Reaches s (c.command.run ((s.locate c.source c.line).logStart c)).session :=
    ((Relation.ReflTransGen.single (.locate _ _)).tail (.log _ _ _)).tail (.command hc)
  unfold runCommand
  dsimp only
  split
  · exact hrun.tail (.log _ _ _)
  · exact hrun.tail (.fail _)
  · exact hrun

theorem reaches_runCommands {commands : List LocatedCommand}
    (h : ∀ c ∈ commands, c.command.isBuiltin = true) :
    Reaches s (s.runCommands commands).session := by
  induction commands generalizing s with
  | nil => exact .refl
  | cons c commands ih =>
      rw [List.forall_mem_cons] at h
      have hfirst : Reaches s (s.runCommand c).session := reaches_runCommand h.1
      unfold runCommands
      split
      · rename_i heq
        rw [heq] at hfirst
        exact hfirst.trans (ih h.2)
      · rename_i heq
        rwa [heq] at hfirst
      · rename_i heq
        rwa [heq] at hfirst

theorem reaches_runSections {sections : List Section}
    (h : ∀ sec ∈ sections, ∀ c ∈ sec.commands, c.command.isBuiltin = true) :
    Reaches s (s.runSections sections).session := by
  induction sections generalizing s with
  | nil => exact .single (.log _ _ _)
  | cons sec sections ih =>
      rw [List.forall_mem_cons] at h
      have hfirst : Reaches s ((s.logSection sec).runCommands sec.commands).session :=
        (Relation.ReflTransGen.single (.log _ _ _)).trans (reaches_runCommands h.1)
      unfold runSections
      split
      · rename_i heq
        rwa [heq] at hfirst
      · rename_i heq
        rw [heq] at hfirst
        exact (hfirst.tail (.log _ _ _)).tail (.log _ _ _)
      · rename_i heq
        rw [heq] at hfirst
        split
        · exact hfirst
        · exact (hfirst.tail (.log _ _ _)).trans (ih h.2)

theorem reaches_execute {r : Resources} (hr : r.WellFormed) {sections : List Section}
    (h : ∀ sec ∈ sections, ∀ c ∈ sec.commands, c.command.isBuiltin = true) :
    Reaches s (s.execute r sections).session := by
  have hstart : Reaches s ((s.bind r).log .info "run.start" [("sections", .int sections.length)]) :=
    (Relation.ReflTransGen.single (.bind hr)).tail (.log _ _ _)
  exact (hstart.trans (reaches_runSections h)).tail .release

end Runs

end Session

/-- **Every value is well formed**: what a text compiles to in a scope of well-formed values, what
well-formed data are encoded as, the common value of two well-formed values, and so every value in the
history of a session that a run comes to, at its end and whenever something is logged. -/
theorem values_wellFormed :
    (∀ (scope : Expr.Scope) (text : String) (v : Value), (∀ f ∈ scope, f.2.WellFormed) →
      Expr.compile scope text = .ok v → v.WellFormed) ∧
    (∀ (d : Datum) (v : Value), d.WellFormed → Value.encode d = .ok v → v.WellFormed) ∧
    (∀ a b r : Value, a.WellFormed → b.WellFormed → Value.unify a b = .ok r → r.WellFormed) ∧
    (∀ s t : Session, s.WellFormed → s.Reaches t → ∀ v ∈ t.history.values, v.WellFormed) ∧
    (∀ (s : Session) (r : Resources) (sections : List Section), s.WellFormed → r.WellFormed →
      (∀ sec ∈ sections, ∀ c ∈ sec.commands, c.command.isBuiltin = true) →
      (∀ v ∈ (s.execute r sections).session.history.values, v.WellFormed) ∧
        ∀ event ∈ (s.execute r sections).session.events, ∀ v ∈ event.values, v.WellFormed) := by
  refine ⟨fun scope text v hscope h => Expr.wellFormed_compile hscope h,
    fun d v hd h => Value.wellFormed_encode hd h,
    fun a b r ha hb h => Value.wellFormed_unify ha hb h,
    fun s t hs hreaches => (hs.reaches hreaches).values, fun s r sections hs hr hsections => ?_⟩
  have hfinal := hs.reaches (Session.reaches_execute hr hsections)
  exact ⟨hfinal.values, hfinal.logged⟩

/-- A struct with a repeated label, data of two fields, two constraints with a kind in common, and a run
that pushes a value, gets a response of JSON and matches it. -/
theorem values_wellFormed_json_response :
    let text := "\x7bn: int, n: > 0 | \"a\" | 5, xs: [1] + [2.5]\x7d"
    let d : Datum := .dict [(.string "a", .int 1), (.string "b", .list [.float (.zero true)])]
    let a : Value := .constraint ⟨some .number, [.order .gt (.int 0)]⟩
    let b : Value := .ofKind .int
    let response : Http.Response :=
      { status := 200, headers := [("Content-Type", ["application/json"])],
        content := "[1, 2]".toUTF8.toList }
    let transport : Transport := fun _ _ _ => { answer := .ok response }
    let s : Session := { now := .zero false }
    let sections : List Section :=
      [⟨"order", 1, [⟨.value "1 | 2", "", 2⟩, ⟨.http ⟨"GET", "http://localhost", [], ""⟩, "", 3⟩,
        ⟨.expect "\x7bbody: [1, ...int]\x7d", "", 4⟩]⟩]
    let finished := s.execute { transport } sections
    (∃ v, Expr.compile [] text = .ok v ∧ v.WellFormed) ∧
      (∃ v, Value.encode d = .ok v ∧ v.WellFormed) ∧
      (∃ r, Value.unify a b = .ok r ∧ r.WellFormed) ∧
      s.Reaches finished.session ∧ finished.session.history.values.length = 3 ∧
      ∀ v ∈ finished.session.history.values, v.WellFormed := by
  intro text d a b response transport s sections finished
  obtain ⟨hcompiled, hencoded, hunified, -, hexecuted⟩ := values_wellFormed
  have hs : s.WellFormed := ⟨nofun, nofun, nofun⟩
  have hr : Resources.WellFormed { transport } := by
    intro _ htransport _ _ _ _ hresponse
    obtain rfl := Option.some.inj htransport
    obtain rfl := Except.ok.inj hresponse
    exact List.nodup_singleton _
  have hsections : ∀ sec ∈ sections, ∀ c ∈ sec.commands, c.command.isBuiltin = true := by
    simp [sections, Command.isBuiltin]
  refine ⟨?_, ?_, ?_, Session.reaches_execute hr hsections, by decide +kernel, ?_⟩
  · have hok : (Expr.compile [] text).isOk = true := by decide +kernel
    cases hcompile : Expr.compile [] text with
    | error failure =>
        rw [hcompile] at hok
        cases hok
    | ok v => exact ⟨v, rfl, hcompiled [] text v nofun hcompile⟩
  · have hd : d.WellFormed := by
      refine .dict (by simp [Datum.DistinctKeys, Datum.same_string]) ?_
      rw [List.forall_mem_cons, List.forall_mem_singleton]
      refine ⟨.int, .list (List.forall_mem_singleton.mpr (.float fun _ => ?_))⟩
      exact Binary64.zero_isProper true
    exact ⟨_, rfl, hencoded d _ hd rfl⟩
  · have ha : a.WellFormed := by
      simp [a, Constraint.wellFormed_iff, Bound.WellFormed, Atom.WellFormed, Kind.Suits,
        Atom.isNumber]
    have hb : b.WellFormed := by simp [b, Value.ofKind, Constraint.wellFormed_iff]
    exact ⟨_, rfl, hunified a b _ ha hb rfl⟩
  · exact (hexecuted s _ sections hs hr hsections).1

end ApiProbe
