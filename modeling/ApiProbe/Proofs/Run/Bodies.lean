import ApiProbe.Proofs.Json.Acceptance
import ApiProbe.Proofs.Json.Documents
import ApiProbe.Proofs.Run.Sending
import ApiProbe.Proofs.Value.Data

/-!
# Bodies that are JSON

The body of a response that is JSON is the data of the document that its text is, and a text that is no
document is a problem of decoding the response, unless NaN or an infinity is all that is wrong with it:
these are read, and only encoding refuses them, where they have not been replaced by then.
-/

namespace ApiProbe

open Json (DenotesDocument literals words)

namespace Datum

/-- All numbers in the data are finite. -/
def Finite (d : Datum) : Prop :=
  ∀ x, (Datum.float x).Within d → x.isFinite = true

theorem Plain.defective_iff {d : Datum} (hd : d.Plain) : d.Defective ↔ ¬ d.Finite := by
  constructor
  · intro hdefective hfinite
    obtain ⟨v, hv, -⟩ := Value.exists_encodeAt_plain hd hfinite
    exact Value.not_defective_of_encodeAt (hv "") hdefective
  · intro h
    obtain ⟨x, hx, hfinite⟩ : ∃ x, (Datum.float x).Within d ∧ ¬ x.isFinite = true := by
      simpa [Finite] using h
    exact ⟨_, hx, .float (Bool.eq_false_of_not_eq_true hfinite)⟩

end Datum

namespace Http.Response

variable {r : Response} {d : Datum}

/-- The text of the content is one of a value, with these words for values, that stands for the data. -/
def Carries (r : Response) (known : List (String × Datum)) (d : Datum) : Prop :=
  ∃ text, r.readText = .ok text ∧ DenotesDocument known text (some d)

/-- The response is said to be JSON, and its content is not blank. -/
structure HasJson (r : Response) : Prop where
  isJson : r.isJson = true
  notBlank : r.content.all isBlankByte = false

/-- A body is read, or it is refused. -/
theorem body_cases (h : r.HasJson) :
    (∃ d, r.body = .ok d ∧ r.Carries words d) ∨
      (∃ message, r.body = refuseBody message) ∧ ∀ d, ¬ r.Carries words d := by
  unfold body
  rw [if_neg (by rw [h.isJson]; decide), if_neg (by rw [h.notBlank]; decide)]
  cases htext : r.readText with
  | error fault =>
      refine Or.inr ⟨⟨_, rfl⟩, ?_⟩
      rintro d ⟨text, hother, -⟩
      cases htext.symm.trans hother
  | ok text =>
      dsimp only
      cases hread : Json.read text with
      | ok d => exact Or.inl ⟨d, rfl, text, htext, Json.read_eq_ok_iff.mp hread⟩
      | error message =>
          refine Or.inr ⟨⟨_, rfl⟩, ?_⟩
          rintro d ⟨other, hother, hdenotes⟩
          obtain rfl := Except.ok.inj (htext.symm.trans hother)
          cases hread.symm.trans (Json.read_eq_ok_iff.mpr hdenotes)

theorem Carries.mono {known more : List (String × Datum)} (hsubset : known ⊆ more)
    (hd : r.Carries known d) : r.Carries more d := by
  obtain ⟨text, htext, hdenotes⟩ := hd
  exact ⟨text, htext, hdenotes.mono hsubset⟩

theorem Carries.unique {d e : Datum} (hd : r.Carries words d) (he : r.Carries words e) : d = e := by
  obtain ⟨text, htext, hd⟩ := hd
  obtain ⟨other, hother, he⟩ := he
  obtain rfl := Except.ok.inj (htext.symm.trans hother)
  have hread := (Json.read_eq_ok_iff.mpr hd).symm.trans (Json.read_eq_ok_iff.mpr he)
  exact Except.ok.inj hread

theorem Carries.body (h : r.HasJson) (hd : r.Carries words d) : r.body = .ok d := by
  rcases body_cases h with ⟨e, hbody, he⟩ | ⟨-, hnone⟩
  · exact hbody.trans (congrArg Except.ok (he.unique hd))
  · exact absurd hd (hnone d)

/-- The value of the response, given the value of its body. -/
def valueOf (r : Response) (body : Value) : Value :=
  .struct
    [("status", .struct [("code", .atom (.int r.status)), ("line", .atom (.string r.statusLine))]),
      ("headers",
        .struct (r.headers.map fun h => (h.1, .list (h.2.map fun s => .atom (.string s)) none))),
      ("body", body)]

theorem encode_dict {body : Value} (hbody : ∀ path, Value.encodeAt path d = .ok body) :
    Value.encode (.dict
      [(.string "status",
          .dict [(.string "code", .int r.status), (.string "line", .string r.statusLine)]),
        (.string "headers",
          .dict (r.headers.map fun h => (.string h.1, .list (h.2.map .string)))),
        (.string "body", d)]) = .ok (r.valueOf body) := by
  have hvalues (values : List String) (path : String) : Value.encodeAt path
      (.list (values.map .string)) = .ok (.list (values.map fun s => .atom (.string s)) none) := by
    have hitems : List.Forall₂ (fun d v => ∀ q, Value.encodeAt q d = .ok v)
        (values.map Datum.string) (values.map fun s => .atom (.string s)) := by
      rw [List.forall₂_map_left_iff, List.forall₂_map_right_iff, List.forall₂_same]
      exact fun _ _ _ => rfl
    rw [Value.encodeAt, Value.encodeItems_of_forall₂ hitems]
    rfl
  have hheaders (path : String) : Value.encodeAt path
      (.dict (r.headers.map fun h => (.string h.1, .list (h.2.map .string)))) = .ok (.struct
        (r.headers.map fun h => (h.1, .list (h.2.map fun s => .atom (.string s)) none))) := by
    have hentries : List.Forall₂ (fun (e : Datum × Datum) (f : String × Value) =>
        e.1 = .string f.1 ∧ ∀ q, Value.encodeAt q e.2 = .ok f.2)
        (r.headers.map fun h => (.string h.1, .list (h.2.map .string)))
        (r.headers.map fun h => (h.1, .list (h.2.map fun s => .atom (.string s)) none)) := by
      rw [List.forall₂_map_left_iff, List.forall₂_map_right_iff, List.forall₂_same]
      exact fun h _ => ⟨rfl, hvalues h.2⟩
    rw [Value.encodeAt, Value.encodeEntries_of_forall₂ hentries]
    rfl
  rw [Value.encode, Value.encodeAt]
  refine map_eq_ok_iff.mpr ⟨_, ?_, rfl⟩
  exact Value.encodeEntries_of_forall₂
    (.cons ⟨rfl, fun _ => rfl⟩ (.cons ⟨rfl, hheaders⟩ (.cons ⟨rfl, hbody⟩ .nil)))

theorem Carries.plain (hd : r.Carries words d) : d.Plain := by
  obtain ⟨text, -, hdenotes⟩ := hd
  exact Json.plain_read (Json.read_eq_ok_iff.mpr hdenotes)

theorem Carries.exists_value (h : r.HasJson) (hstatus : Numeral.fits r.status = true)
    (hd : r.Carries words d) (hfinite : d.Finite) :
    ∃ body, r.data >>= Language.encode = .ok (r.valueOf body) ∧ Language.data body = .ok d := by
  obtain ⟨body, hbody, hdata⟩ := Value.exists_encodeAt_plain hd.plain hfinite
  refine ⟨body, bind_eq_ok_iff.mpr ⟨_, data_eq_ok_iff.mpr ⟨hstatus, d, hd.body h, rfl⟩, ?_⟩,
    Language.data_eq_ok_iff.mpr hdata⟩
  exact Language.encode_eq_ok_iff.mpr (encode_dict hbody)

theorem Carries.exists_problem (h : r.HasJson) (hstatus : Numeral.fits r.status = true)
    (hd : r.Carries words d) (hfinite : ¬ d.Finite) :
    ∃ p : Problem, r.data >>= Language.encode = .error (.problem p) ∧ p.kind = .encode := by
  obtain ⟨whole, hdata, hdefective⟩ : ∃ whole, r.data = .ok whole ∧ whole.Defective := by
    refine ⟨_, data_eq_ok_iff.mpr ⟨hstatus, d, hd.body h, rfl⟩, Datum.defective_dict.mpr (Or.inr ?_)⟩
    exact ⟨(.string "body", d), by simp, hd.plain.defective_iff.mpr hfinite⟩
  obtain ⟨failure, hfailure⟩ := Value.exists_encodeAt_error_iff.mpr hdefective
  obtain ⟨p, hp, hkind⟩ := Language.refuses_iff.mpr ⟨failure, hfailure, fun hunprintable =>
    failsRefused_data hdata (hunprintable ▸ hfailure)⟩
  exact ⟨p, bind_eq_error_iff.mpr (Or.inr ⟨_, hdata, hp⟩), hkind⟩

theorem exists_problem_of_none (h : r.HasJson) (hnone : ∀ d, ¬ r.Carries words d) :
    ∃ p : Problem, r.data >>= Language.encode = .error (.problem p) ∧ p.kind = .responseDecode := by
  rcases body_cases h with ⟨d, -, hd⟩ | ⟨⟨message, hbody⟩, -⟩
  · exact absurd hd (hnone d)
  · have hdata : r.data >>= Language.encode = refuseBody message >>= Language.encode := by
      rw [data, hbody]
      rfl
    exact ⟨_, hdata, rfl⟩

end Http.Response

namespace Session

/-- The request is sent, and the response comes while the run is alive. -/
def Answers (s : Session) (request : Http.Request) (response : Http.Response) : Prop :=
  ∃ transport out, s.prepare request = .ok (transport, out) ∧
    let exchange := transport s.sent out (s.lifetime.remaining s.now)
    exchange.answer = .ok response ∧ (exchange.lifetime s.lifetime).problem? s.now = none

/-- The value of the response is pushed, and its body stands for the data. -/
def PushesBody (s : Session) (request : Http.Request) (response : Http.Response) (d : Datum) : Prop :=
  (s.send request).failure = none ∧ ∃ body, Language.data body = .ok d ∧
    (s.send request).session.history = s.history.push (response.valueOf body)

/-- The request fails with a problem of the kind, and nothing is pushed. -/
def RefusesBody (s : Session) (request : Http.Request) (kind : ProblemKind) : Prop :=
  (∃ p : Problem, (s.send request).failure = some (.problem p) ∧ p.kind = kind) ∧
    (s.send request).session.history = s.history

variable {s : Session} {request : Http.Request} {response : Http.Response} {d : Datum}

theorem Answers.failure_send (h : s.Answers request response) :
    (s.send request).failure = failure? (response.data >>= Language.encode) := by
  obtain ⟨transport, out, hprepare, hanswer, halive⟩ := h
  rw [(send_of_prepare hprepare).2.1, setbacks, halive, hanswer, Exchange.value_of_answer hanswer]
  exact firstFailure?_singleton _

theorem Answers.refusesBody (h : s.Answers request response) {kind : ProblemKind}
    (hproblem : ∃ p : Problem, response.data >>= Language.encode = .error (.problem p) ∧ p.kind = kind) :
    s.RefusesBody request kind := by
  obtain ⟨p, hp, hkind⟩ := hproblem
  have hfailure := h.failure_send
  rw [hp, failure?] at hfailure
  obtain ⟨transport, out, hprepare, -, -⟩ := h
  refine ⟨⟨p, hfailure, hkind⟩, (send_of_prepare hprepare).2.2.2 ?_⟩
  rw [hfailure]
  exact Option.some_ne_none _

theorem Answers.pushesBody (h : s.Answers request response) {body : Value}
    (hvalue : response.data >>= Language.encode = .ok (response.valueOf body))
    (hdata : Language.data body = .ok d) : s.PushesBody request response d := by
  have hfailure := h.failure_send
  rw [hvalue, failure?] at hfailure
  obtain ⟨transport, out, hprepare, hanswer, -⟩ := h
  obtain ⟨v, hv, hhistory⟩ := (send_of_prepare hprepare).2.2.1 hfailure
  rw [Exchange.value_of_answer hanswer, hvalue] at hv
  obtain rfl := Except.ok.inj hv
  exact ⟨hfailure, body, hdata, hhistory⟩

/-- **A body that is JSON is its data, or a problem of decoding.** A request is answered with a response
that is said to be JSON and not blank. If its text is that of a document with numbers that can be read and
are finite, the value of the response is pushed, and its body has the data of the document. If its text is
none of a document, and neither NaN nor Infinity occurs in it, it is decoding the response that fails, and
nothing is pushed. These two are read as values besides: with them among the words, decoding fails just
where no data have the text, and data that have it are pushed if they are finite and else refused as they
are encoded. -/
theorem send_decodes (s : Session) (request : Http.Request) (response : Http.Response)
    (hanswers : s.Answers request response) (hjson : response.HasJson)
    (hstatus : Numeral.fits response.status = true) :
    (∀ d, response.Carries literals d → d.Finite → s.PushesBody request response d) ∧
    (∀ text, response.readText = .ok text → (∀ doc : Json.Spaced Json.Phrase, doc.text ≠ text) →
      ¬ "NaN".toList <:+: text.toList → ¬ "Infinity".toList <:+: text.toList →
        s.RefusesBody request .responseDecode) ∧
    ((∀ d, ¬ response.Carries words d) → s.RefusesBody request .responseDecode) ∧
    ∀ d, response.Carries words d → (d.Finite → s.PushesBody request response d) ∧
      (¬ d.Finite → s.RefusesBody request .encode) := by
  have hpushed : ∀ d, response.Carries words d → d.Finite → s.PushesBody request response d := by
    intro d hd hfinite
    obtain ⟨body, hvalue, hdata⟩ := hd.exists_value hjson hstatus hfinite
    exact hanswers.pushesBody hvalue hdata
  have hrefused (hnone : ∀ d, ¬ response.Carries words d) : s.RefusesBody request .responseDecode :=
    hanswers.refusesBody (Http.Response.exists_problem_of_none hjson hnone)
  refine ⟨fun d hd => hpushed d (hd.mono Json.literals_subset_words),
    fun text htext hdoc hnan hinfinite => hrefused ?_, hrefused, fun d hd => ⟨hpushed d hd,
      fun hfinite => hanswers.refusesBody (hd.exists_problem hjson hstatus hfinite)⟩⟩
  rintro d ⟨other, hother, hdenotes⟩
  obtain rfl := Except.ok.inj (htext.symm.trans hother)
  obtain ⟨doc, hdoctext⟩ :=
    Json.exists_denotesDocument_iff.mp ⟨some d, hdenotes.literal hnan hinfinite⟩
  exact hdoc doc hdoctext

/-- Bodies of JSON that are a document, no document, and one but for a NaN that counts or is replaced. -/
theorem send_decodes_five_bodies :
    let response (body : String) : Http.Response :=
      { status := 200, headers := [("Content-Type", ["application/json"])], content := Utf8.encode body }
    let s (body : String) : Session :=
      { now := .zero false
        resources := some { transport := some fun _ _ _ => ⟨.ok (response body), none⟩ } }
    let request : Http.Request := { method := "GET", url := "/" }
    let pushes (body : String) := (s body).PushesBody request (response body)
    let refuses (body : String) := (s body).RefusesBody request
    let replaced := "\x7b\"n\": NaN, \"n\": null\x7d"
    (∀ body, (s body).Answers request (response body)) ∧
      (∀ body ∈ ["[true, \"NaN\"]", "oops", "[01]", replaced, "[NaN]"], (response body).HasJson) ∧
      pushes "[true, \"NaN\"]" (.list [.bool true, .string "NaN"]) ∧ refuses "oops" .responseDecode ∧
      refuses "[01]" .responseDecode ∧ pushes replaced (.dict [(.string "n", .null)]) ∧
      refuses "[NaN]" .encode := by
  intro response s request pushes refuses replaced
  have hanswers (body : String) : (s body).Answers request (response body) := ⟨_, _, rfl, rfl, rfl⟩
  have hstatus : Numeral.fits 200 = true := by decide +kernel
  have hjson : ∀ body ∈ ["[true, \"NaN\"]", "oops", "[01]", replaced, "[NaN]"],
      (response body).HasJson := by
    simp only [List.forall_mem_cons]
    exact ⟨⟨by decide +kernel, by decide +kernel⟩, ⟨by decide +kernel, by decide +kernel⟩,
      ⟨by decide +kernel, by decide +kernel⟩, ⟨by decide +kernel, by decide +kernel⟩,
      ⟨by decide +kernel, by decide +kernel⟩, List.forall_mem_nil _⟩
  have hdecodes (body : String) (hbody : body ∈ _) :=
    send_decodes (s body) request (response body) (hanswers body) (hjson body hbody) hstatus
  have hfinite {d : Datum} {v : Value} (hd : d.Plain) (hv : Value.encodeAt "" d = .ok v) : d.Finite :=
    not_not.mp (mt hd.defective_iff.mpr (Value.not_defective_of_encodeAt hv))
  let bare : Json.Space := ⟨[], List.forall_mem_nil _⟩
  let blank : Json.Space := ⟨[' '], List.forall_mem_singleton.mpr (by simp [Json.spaceChars])⟩
  refine ⟨hanswers, hjson, ?_, ?_, ?_, ?_, ?_⟩
  · let pieces : List Json.Piece := [.plain 'N' (by decide), .plain 'a' (by decide), .plain 'N' (by decide)]
    let items : List (Json.Spaced Json.Spelling) :=
      [⟨bare, ⟨"true".toList, some (.bool true)⟩, bare⟩,
        ⟨blank, ⟨Json.quotedPieces pieces, some (.string (String.ofList (Json.decode pieces)))⟩, bare⟩]
    have hitems : ∀ s ∈ items, Json.Denotes literals s.item.chars s.item.datum? :=
      List.forall_mem_cons.mpr
        ⟨.word (by simp [literals]), List.forall_mem_singleton.mpr (.string pieces)⟩
    have hcarries : (response "[true, \"NaN\"]").Carries literals (.list [.bool true, .string "NaN"]) :=
      ⟨"[true, \"NaN\"]", toOption_eq_some_iff.mp (by decide +kernel),
        bare, bare, _, .array bare items hitems, rfl⟩
    exact (hdecodes "[true, \"NaN\"]" (by simp)).1 _ hcarries
      (hfinite (hcarries.mono Json.literals_subset_words).plain rfl)
  · refine (hdecodes "oops" (by simp)).2.1 "oops" ?_ ?_ (by decide +kernel) (by decide +kernel)
    · exact toOption_eq_some_iff.mp (by decide +kernel)
    · intro doc h
      have hstart := doc.start_text 'o' (by rw [h]; rfl)
      revert hstart
      decide
  · refine (hdecodes "[01]" (by simp)).2.2.1 ?_
    rintro d ⟨text, htext, hdenotes⟩
    have hown : (response "[01]").readText = .ok "[01]" :=
      toOption_eq_some_iff.mp (by decide +kernel)
    obtain rfl := Except.ok.inj (hown.symm.trans htext)
    have hfails : (Json.read "[01]").isOk = false := by decide +kernel
    rw [Json.read_eq_ok_iff.mpr hdenotes] at hfails
    cases hfails
  · have hcarries : (response replaced).Carries words (.dict [(.string "n", .null)]) := by
      let key : Json.Key := ⟨[.plain 'n' (by decide)], bare, blank⟩
      let members : List (Json.Spaced (Json.Key × Json.Spelling)) :=
        [⟨bare, (key, ⟨"NaN".toList, some (.float .nan)⟩), bare⟩,
          ⟨blank, (key, ⟨"null".toList, some .null⟩), bare⟩]
      have hmembers : ∀ m ∈ members, Json.Denotes words m.item.2.chars m.item.2.datum? :=
        List.forall_mem_cons.mpr
          ⟨.word (by simp [words]), List.forall_mem_singleton.mpr (.word (by simp [words]))⟩
      exact ⟨replaced, toOption_eq_some_iff.mp (by decide +kernel),
        bare, bare, _, .object bare members hmembers, by decide +kernel⟩
    exact ((hdecodes replaced (by simp)).2.2.2 _ hcarries).1
      (hfinite hcarries.plain rfl)
  · let items : List (Json.Spaced Json.Spelling) :=
      [⟨bare, ⟨"NaN".toList, some (.float .nan)⟩, bare⟩]
    have hitems : ∀ s ∈ items, Json.Denotes words s.item.chars s.item.datum? :=
      List.forall_mem_singleton.mpr (.word (by simp [words]))
    have hcarries : (response "[NaN]").Carries words (.list [.float .nan]) :=
      ⟨"[NaN]", toOption_eq_some_iff.mp (by decide +kernel), bare, bare, _, .array bare items hitems, rfl⟩
    have hinfinite : ¬ (Datum.list [.float .nan]).Finite := fun h =>
      absurd (h .nan (.list (List.mem_singleton_self _) .self)) (by decide)
    exact ((hdecodes "[NaN]" (by simp)).2.2.2 _ hcarries).2 hinfinite

/-- A body that is no document is read, and the problem is one of encoding. -/
theorem send_nan :
    let response : Http.Response :=
      { status := 200, headers := [("Content-Type", ["application/json"])], content := Utf8.encode "NaN" }
    let s : Session :=
      { now := .zero false, resources := some { transport := some fun _ _ _ => ⟨.ok response, none⟩ } }
    let request : Http.Request := { method := "GET", url := "/" }
    s.Answers request response ∧ response.HasJson ∧ response.readText = .ok "NaN" ∧
      (∀ doc : Json.Spaced Json.Phrase, doc.text ≠ "NaN") ∧
      ∃ p : Problem, (s.send request).failure = some (.problem p) ∧ p.kind = .encode := by
  intro response s request
  have hdoc (doc : Json.Spaced Json.Phrase) : doc.text ≠ "NaN" := by
    intro h
    have hstart := doc.start_text 'N' (by rw [h]; rfl)
    revert hstart
    decide
  have hanswers : s.Answers request response := ⟨_, _, rfl, rfl, rfl⟩
  have hjson : response.HasJson := ⟨by decide +kernel, by decide +kernel⟩
  have htext : response.readText = .ok "NaN" := toOption_eq_some_iff.mp (by decide +kernel)
  have hword : ("NaN", Datum.float .nan) ∈ words := by simp [words]
  have hcarries : response.Carries words (.float .nan) :=
    let bare : Json.Space := ⟨[], List.forall_mem_nil _⟩
    ⟨"NaN", htext, bare, bare, _, .word hword, rfl⟩
  have hinfinite : ¬ (Datum.float .nan).Finite := fun h => absurd (h .nan .self) (by decide)
  refine ⟨hanswers, hjson, htext, hdoc, ?_⟩
  exact (hanswers.refusesBody (hcarries.exists_problem hjson (by decide +kernel) hinfinite)).1

end Session

end ApiProbe
