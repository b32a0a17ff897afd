import Mathlib.Data.List.Nodup
import ApiProbe.Http.Exchange
import ApiProbe.Proofs.Json.Reader

/-!
# Responses

A response holds each header name once, as the fields that a client hands back are gathered under
their names. So the data that it gives to expressions are well formed.
-/

namespace ApiProbe.Http

/-- Each header name occurs once. -/
def Response.WellFormed (r : Response) : Prop :=
  (r.headers.map Prod.fst).Nodup

section Fields

def lowerNames {α : Type} (fields : List (String × α)) : List String :=
  fields.map fun field => Text.lower field.1

theorem lowerNames_cons {α : Type} (field : String × α) (fields : List (String × α)) :
    lowerNames (field :: fields) = Text.lower field.1 :: lowerNames fields :=
  rfl

theorem sameName_iff {a b : String} : sameName a b = true ↔ Text.lower a = Text.lower b := by
  rw [sameName, beq_iff_eq]

theorem lowerNames_addField (h : Header) (fields : List (String × List String)) :
    lowerNames (addField h fields) =
      if Text.lower h.name ∈ lowerNames fields then lowerNames fields
      else lowerNames fields ++ [Text.lower h.name] := by
  induction fields with
  | nil => rfl
  | cons field fields ih =>
      obtain ⟨name, values⟩ := field
      unfold addField
      by_cases hname : Text.lower name = Text.lower h.name
      · rw [if_pos (sameName_iff.mpr hname)]
        simp [lowerNames_cons, hname]
      · rw [if_neg (mt sameName_iff.mp hname), lowerNames_cons, lowerNames_cons, ih]
        by_cases hmem : Text.lower h.name ∈ lowerNames fields
        · rw [if_pos hmem, if_pos (List.mem_cons_of_mem _ hmem)]
        · have hnew : Text.lower h.name ∉ Text.lower name :: lowerNames fields := by
            rw [List.mem_cons, not_or]
            exact ⟨Ne.symm hname, hmem⟩
          rw [if_neg hmem, if_neg hnew, List.cons_append]

theorem nodup_names_of_lowerNames {α : Type} {fields : List (String × α)}
    (h : (lowerNames fields).Nodup) : (fields.map Prod.fst).Nodup := by
  have hmap : lowerNames fields = (fields.map Prod.fst).map Text.lower := by
    rw [lowerNames, List.map_map]
    rfl
  rw [hmap] at h
  exact List.Nodup.of_map Text.lower h

theorem nodup_lowerNames_gatherFields (headers : List Header) :
    (lowerNames (gatherFields headers)).Nodup := by
  have hfold : ∀ fields : List (String × List String), (lowerNames fields).Nodup →
      (lowerNames (headers.foldl (fun fields h => addField h fields) fields)).Nodup := by
    induction headers with
    | nil => exact fun _ h => h
    | cons header headers ih =>
        intro fields h
        apply ih _
        rw [lowerNames_addField]
        split
        · exact h
        · rename_i hnew
          exact h.append (List.nodup_singleton _) (List.disjoint_singleton.mpr hnew)
  exact hfold [] List.nodup_nil

theorem nodup_names_foldFields (headers : List Header) :
    ((foldFields headers).map fun h => Text.lower h.name).Nodup := by
  have hfold : ∀ done : List Header, (done.map fun h => Text.lower h.name).Nodup →
      ((headers.foldl (fun done h =>
        if done.any fun other => sameName other.name h.name then
          done.map fun other => if sameName other.name h.name then h else other
        else done ++ [h]) done).map fun h => Text.lower h.name).Nodup := by
    induction headers with
    | nil => exact fun _ h => h
    | cons header headers ih =>
        intro done h
        apply ih _
        dsimp only
        split
        · have hnames : (done.map fun other =>
              if sameName other.name header.name then header else other).map
                (fun h => Text.lower h.name) = done.map fun h => Text.lower h.name := by
            rw [List.map_map]
            apply List.map_congr_left
            intro other _
            by_cases hsame : sameName other.name header.name = true
            · simp [hsame, sameName_iff.mp hsame]
            · simp [hsame]
          rwa [hnames]
        · rename_i hnew
          rw [List.map_append]
          refine h.append (List.nodup_singleton _) (List.disjoint_singleton.mpr fun hmem => hnew ?_)
          obtain ⟨other, hother, hname⟩ := List.mem_map.mp hmem
          exact List.any_eq_true.mpr ⟨other, hother, sameName_iff.mpr hname⟩
  exact hfold [] List.nodup_nil

end Fields

/-- What a client hands back makes a well-formed response. -/
theorem Reply.wellFormed_response (reply : Reply) : reply.response.WellFormed := by
  rw [Response.WellFormed, Reply.response]
  dsimp only
  split
  · exact nodup_names_of_lowerNames (nodup_lowerNames_gatherFields _)
  · apply nodup_names_of_lowerNames
    rw [lowerNames, List.map_map]
    exact nodup_names_foldFields _

namespace Response

theorem plain_body {r : Response} {d : Datum} (h : r.body = .ok d) : d.Plain := by
  unfold body at h
  split at h
  · split at h
    · cases h
    · obtain rfl := Except.ok.inj h
      exact .string
  · split at h
    · obtain rfl := Except.ok.inj h
      exact .null
    · split at h
      · cases h
      · split at h
        · rename_i hread
          obtain rfl := Except.ok.inj h
          exact Json.plain_read hread
        · cases h

theorem data_eq_ok_iff {r : Response} {d : Datum} :
    r.data = .ok d ↔ Numeral.fits r.status = true ∧ ∃ body, r.body = .ok body ∧ d = .dict
      [(.string "status",
          .dict [(.string "code", .int r.status), (.string "line", .string r.statusLine)]),
        (.string "headers",
          .dict (r.headers.map fun h => (.string h.1, .list (h.2.map .string)))),
        (.string "body", body)] := by
  unfold data
  rw [bind_eq_ok_iff]
  cases Numeral.fits r.status with
  | true => simp [eq_comm, pure, Except.pure]
  | false => simp [bind, Except.bind]

/-- Entries under distinct labels make a dictionary. -/
theorem wellFormed_dict_of_labels (fields : List (String × Datum))
    (hlabels : (fields.map Prod.fst).Nodup) (h : ∀ f ∈ fields, f.2.WellFormed) :
    (Datum.dict (fields.map fun f => (.string f.1, f.2))).WellFormed := by
  refine .dict ?_ ?_
  · rw [Datum.DistinctKeys, List.map_map, List.pairwise_map]
    refine (List.pairwise_map.mp hlabels).imp fun {a b} hne => ?_
    simpa [Datum.same_string] using hne
  · rw [List.forall_mem_map]
    exact h

theorem wellFormed_data {r : Response} {d : Datum} (hr : r.WellFormed) (h : r.data = .ok d) :
    d.WellFormed := by
  obtain ⟨_, body, hbody, rfl⟩ := data_eq_ok_iff.mp h
  have hstatus := wellFormed_dict_of_labels
    [("code", .int r.status), ("line", .string r.statusLine)] (by simp) (by
      simp only [List.mem_cons, List.not_mem_nil, or_false, forall_eq_or_imp, forall_eq]
      exact ⟨.int, .string⟩)
  have hheaders := wellFormed_dict_of_labels
    (r.headers.map fun h => (h.1, .list (h.2.map .string))) (by rwa [List.map_map]) (by
      rw [List.forall_mem_map]
      refine fun h _ => .list ?_
      rw [List.forall_mem_map]
      intro s _
      exact .string)
  rw [List.map_map] at hheaders
  refine wellFormed_dict_of_labels
    [("status", _), ("headers", _), ("body", body)] (by simp) ?_
  simp only [List.mem_cons, List.not_mem_nil, or_false, forall_eq_or_imp, forall_eq]
  exact ⟨hstatus, hheaders, (plain_body hbody).wellFormed⟩

/-- All keys of the data are texts, so whatever cannot be encoded in it can be shown. -/
theorem failsRefused_data {r : Response} {d : Datum} (h : r.data = .ok d) :
    Value.FailsRefused (Value.encode d) := by
  obtain ⟨_, body, hbody, rfl⟩ := data_eq_ok_iff.mp h
  have htexts : ∀ fields : List (String × Datum),
      ∀ e ∈ fields.map fun f => (Datum.string f.1, f.2), ∃ label, e.1 = .string label := by
    intro fields
    rw [List.forall_mem_map]
    exact fun f _ => ⟨f.1, rfl⟩
  have hstatus : ∀ path, Value.FailsRefused (Value.encodeAt path
      (.dict [(.string "code", .int r.status), (.string "line", .string r.statusLine)])) :=
    Value.failsRefused_dict (htexts [("code", _), ("line", _)]) (by
      simp only [List.mem_cons, List.not_mem_nil, or_false, forall_eq_or_imp, forall_eq]
      exact ⟨Value.failsRefused_encodeAt .int, Value.failsRefused_encodeAt .string⟩)
  have hheaders : ∀ path, Value.FailsRefused (Value.encodeAt path
      (.dict (r.headers.map fun h => (.string h.1, .list (h.2.map .string))))) := by
    refine Value.failsRefused_dict ?_ ?_
    · rw [List.forall_mem_map]
      exact fun h _ => ⟨h.1, rfl⟩
    · rw [List.forall_mem_map]
      intro h _
      refine Value.failsRefused_encodeAt (.list ?_)
      rw [List.forall_mem_map]
      exact fun _ _ => .string
  refine Value.failsRefused_dict (htexts [("status", _), ("headers", _), ("body", body)]) ?_ ""
  intro e he
  simp only [List.map_cons, List.map_nil, List.mem_cons, List.not_mem_nil, or_false] at he
  rcases he with rfl | rfl | rfl
  · exact hstatus
  · exact hheaders
  · exact Value.failsRefused_encodeAt (plain_body hbody)

end Response

end ApiProbe.Http
