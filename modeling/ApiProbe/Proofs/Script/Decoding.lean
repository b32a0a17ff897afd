import ApiProbe.Script.Line

/-!
# Decoding files

A file is decoded chunk by chunk, and a character may be divided between two chunks. The chunks make no
difference to what is decoded and where it stops, so a file has a line that cannot be read just if it is not
UTF-8 as a whole.
-/

namespace ApiProbe

namespace Utf8

theorem length_of_step {first : UInt8} {rest : List UInt8} {c : Char} {more : Nat}
    (h : step first rest = .char c more) : more ≤ rest.length := by
  rw [step.eq_def] at h
  repeat' split at h
  all_goals cases h <;> simp

/-- What has been seen of a character decides, unless the bytes end too early. The cases are those of
the number of bytes that the first one announces. -/
theorem step_append {first : UInt8} {rest : List UInt8} (later : List UInt8)
    (h : ∀ more, step first rest ≠ .malformed .unexpectedEnd more) :
    step first (rest ++ later) = step first rest := by
  revert h
  rw [step.eq_def first rest, step.eq_def first (rest ++ later)]
  by_cases hone : first < 0x80
  · rw [if_pos hone, if_pos hone]
    exact fun _ => rfl
  rw [if_neg hone, if_neg hone]
  by_cases hnone : first < 0xC2
  · rw [if_pos hnone, if_pos hnone]
    exact fun _ => rfl
  rw [if_neg hnone, if_neg hnone]
  by_cases htwo : first < 0xE0
  · rw [if_pos htwo, if_pos htwo]
    cases rest with
    | nil => exact fun h => absurd rfl (h 0)
    | cons b rest => exact fun _ => rfl
  rw [if_neg htwo, if_neg htwo]
  by_cases hthree : first < 0xF0
  · rw [if_pos hthree, if_pos hthree]
    rcases rest with _ | ⟨b, _ | ⟨c, rest⟩⟩
    · exact fun h => absurd rfl (h 0)
    · dsimp only [List.cons_append, List.nil_append]
      split
      · exact fun _ => rfl
      · exact fun h => absurd rfl (h 1)
    · exact fun _ => rfl
  rw [if_neg hthree, if_neg hthree]
  by_cases hfour : first < 0xF5
  · rw [if_pos hfour, if_pos hfour]
    rcases rest with _ | ⟨b, _ | ⟨c, _ | ⟨d, rest⟩⟩⟩
    · exact fun h => absurd rfl (h 0)
    · dsimp only [List.cons_append, List.nil_append]
      split
      · exact fun _ => rfl
      · exact fun h => absurd rfl (h 1)
    · dsimp only [List.cons_append, List.nil_append]
      split
      · exact fun _ => rfl
      · split
        · exact fun _ => rfl
        · exact fun h => absurd rfl (h 2)
    · exact fun _ => rfl
  · rw [if_neg hfour, if_neg hfour]
    exact fun _ => rfl

/-- The bytes encode the characters, one after the other, up to the rest. -/
inductive Decodes : List UInt8 → List Char → List UInt8 → Prop
  | nil {bytes : List UInt8} : Decodes bytes [] bytes
  | char {b : UInt8} {rest after : List UInt8} {c : Char} {more : Nat} {cs : List Char}
      (hstep : step b rest = .char c more) (hrest : Decodes (rest.drop more) cs after) :
      Decodes (b :: rest) (c :: cs) after

section Decodes

variable {bytes between : List UInt8} {cs : List Char}

theorem Decodes.append {after : List UInt8} (h : Decodes bytes cs after) (later : List UInt8) :
    Decodes (bytes ++ later) cs (after ++ later) := by
  induction h with
  | nil => exact .nil
  | @char b rest after c more cs hstep _ ih =>
      have hlater : step b (rest ++ later) = .char c more := by
        rw [step_append later, hstep]
        intro other hother
        cases hstep.symm.trans hother
      have hrest : Decodes ((rest ++ later).drop more) cs (after ++ later) := by
        rwa [List.drop_append_of_le_length (length_of_step hstep)]
      exact .char hlater hrest

theorem Decodes.trans {after : List UInt8} {more : List Char} (h : Decodes bytes cs between)
    (hrest : Decodes between more after) : Decodes bytes (cs ++ more) after := by
  induction h with
  | nil => exact hrest
  | char hstep _ ih => exact .char hstep (ih hrest)

/-- What is decoded up to the end is decoded up to any point on the way. -/
theorem Decodes.split {all : List Char} (h : Decodes bytes cs between) (hall : Decodes bytes all []) :
    ∃ more, all = cs ++ more ∧ Decodes between more [] := by
  induction h generalizing all with
  | nil => exact ⟨all, rfl, hall⟩
  | char hstep _ ih =>
      cases hall with
      | char hstep' hrest =>
          obtain ⟨rfl, rfl⟩ := Step.char.inj (hstep.symm.trans hstep')
          obtain ⟨more, rfl, hmore⟩ := ih hrest
          exact ⟨more, rfl, hmore⟩

theorem decodes_append_iff {later : List UInt8} {all : List Char} (h : Decodes bytes cs between) :
    Decodes (bytes ++ later) all [] ↔
      ∃ more, all = cs ++ more ∧ Decodes (between ++ later) more [] := by
  constructor
  · exact (h.append later).split
  · rintro ⟨more, rfl, hmore⟩
    exact (h.append later).trans hmore

theorem decodeFrom_eq_iff (position : Nat) :
    decodeFrom position bytes = (cs, none) ↔ Decodes bytes cs [] := by
  induction position, bytes using decodeFrom.induct generalizing cs with
  | case1 position =>
      rw [decodeFrom]
      constructor
      · rintro ⟨⟩
        exact .nil
      · rintro ⟨⟩
        rfl
  | case2 position b rest c more hstep _ _ _ ih =>
      rw [decodeFrom, hstep]
      dsimp only
      constructor
      · intro h
        obtain ⟨rfl, herror⟩ := Prod.mk.inj h
        exact .char hstep (ih.mp (Prod.ext rfl herror))
      · intro h
        cases h with
        | char hstep' hrest =>
            obtain ⟨rfl, rfl⟩ := Step.char.inj (hstep.symm.trans hstep')
            rw [ih.mpr hrest]
  | case3 position b rest reason more hstep =>
      rw [decodeFrom, hstep]
      constructor
      · intro h
        cases (Prod.mk.inj h).2
      · intro h
        cases h with
        | char hstep' _ => cases hstep.symm.trans hstep'

/-- Where decoding stops with an error, the bytes from there on start no character. -/
theorem decodes_of_error {position : Nat} {error : DecodeError}
    (h : decodeFrom position bytes = (cs, some error)) :
    ∃ b rest more, position ≤ error.start ∧ bytes.drop (error.start - position) = b :: rest ∧
      Decodes bytes cs (b :: rest) ∧ step b rest = .malformed error.reason more := by
  induction position, bytes using decodeFrom.induct generalizing cs with
  | case1 position =>
      rw [decodeFrom] at h
      cases (Prod.mk.inj h).2
  | case2 position b rest c more hstep _ _ _ ih =>
      rw [decodeFrom, hstep] at h
      obtain ⟨rfl, herror⟩ := Prod.mk.inj h
      obtain ⟨b', rest', more', hstart, hdrop, hdecodes, hmalformed⟩ := ih (Prod.ext rfl herror)
      refine ⟨b', rest', more', by omega, ?_, .char hstep hdecodes, hmalformed⟩
      have hcount : error.start - position = error.start - (position + 1 + more) + more + 1 := by
        omega
      rw [hcount, List.drop_succ_cons, Nat.add_comm, ← List.drop_drop]
      exact hdrop
  | case3 position b rest reason more hstep =>
      rw [decodeFrom, hstep] at h
      obtain ⟨rfl, herror⟩ := Prod.mk.inj h
      obtain rfl := Option.some.inj herror
      exact ⟨b, rest, more, Nat.le_refl _, by rw [Nat.sub_self]; rfl, .nil, hstep⟩

end Decodes

theorem decode_eq_ok_iff {bytes : List UInt8} {text : String} :
    decode bytes = .ok text ↔ Decodes bytes text.toList [] := by
  rw [← decodeFrom_eq_iff 0, decode]
  cases hdecode : decodeFrom 0 bytes with
  | mk cs error =>
      cases error with
      | none =>
          constructor
          · rintro ⟨⟩
            rw [String.toList_ofList]
          · intro h
            obtain rfl := (Prod.mk.inj h).1
            exact congrArg Except.ok String.ofList_toList
      | some error =>
          constructor
          · intro h
            cases h
          · intro h
            cases (Prod.mk.inj h).2

end Utf8

namespace Script

open Utf8

theorem append_chunks (pending : List UInt8) (b : UInt8) (rest : List UInt8) (n : Nat) :
    pending ++ b :: rest = (pending ++ b :: rest.take n) ++ rest.drop n := by
  rw [List.append_assoc, List.cons_append, List.take_append_drop]

/-- A file is decoded in chunks as it is decoded at once. -/
theorem decodeChunks_eq_iff {pending bytes : List UInt8} {cs : List Char} :
    decodeChunks pending bytes = (cs, none) ↔ Decodes (pending ++ bytes) cs [] := by
  induction pending, bytes using decodeChunks.induct generalizing cs with
  | case1 pending =>
      rw [decodeChunks, List.append_nil]
      exact decodeFrom_eq_iff 0
  | case2 pending b rest chunk later front hchunk _ _ _ =>
      rename_i ih
      rw [decodeChunks, append_chunks pending b rest (chunkSize - 1),
        decodes_append_iff ((decodeFrom_eq_iff 0).mp hchunk), hchunk]
      constructor
      · intro h
        obtain ⟨rfl, herror⟩ := Prod.mk.inj h
        exact ⟨_, rfl, ih.mp (Prod.ext rfl herror)⟩
      · rintro ⟨more, rfl, hmore⟩
        dsimp only
        rw [ih.mpr hmore]
  | case3 pending b rest chunk later front error hchunk hends =>
      rename_i ih
      obtain ⟨c, tail, _, -, hdrop, hfront, -⟩ := decodes_of_error hchunk
      have hrest : chunk.drop error.start = c :: tail := hdrop
      rw [decodeChunks, append_chunks pending b rest (chunkSize - 1), decodes_append_iff hfront,
        hchunk]
      dsimp only
      rw [if_pos hends]
      rw [hrest] at ih ⊢
      constructor
      · intro h
        obtain ⟨rfl, herror⟩ := Prod.mk.inj h
        exact ⟨_, rfl, ih.mp (Prod.ext rfl herror)⟩
      · rintro ⟨more, rfl, hmore⟩
        rw [ih.mpr hmore]
  | case4 pending b rest chunk front error hchunk =>
      rename_i hends
      obtain ⟨c, tail, _, -, -, hfront, hmalformed⟩ := decodes_of_error hchunk
      rw [decodeChunks, append_chunks pending b rest (chunkSize - 1), decodes_append_iff hfront,
        hchunk]
      dsimp only
      rw [if_neg hends]
      constructor
      · intro h
        cases (Prod.mk.inj h).2
      · rintro ⟨more, -, hmore⟩
        rw [List.cons_append] at hmore
        cases hmore with
        | char hstep _ =>
            rw [step_append, hmalformed] at hstep
            · cases hstep
            · intro count hcount
              rw [hmalformed] at hcount
              exact hends (Step.malformed.inj hcount).1

/-- Of a file that is not UTF-8 a line cannot be read, and it is the last. -/
theorem linesOfFile_of_error {bytes : List UInt8} {error : DecodeError}
    (h : decode bytes = .error error) :
    ∃ (texts : List String) (failed : DecodeError),
      linesOfFile bytes = texts.map .ok ++ [.error failed] := by
  cases hchunks : decodeChunks [] bytes with
  | mk cs failed =>
      cases failed with
      | none =>
          have hdecode : decode bytes = .ok (String.ofList cs) := by
            rw [decode_eq_ok_iff, String.toList_ofList]
            exact decodeChunks_eq_iff.mp hchunks
          cases h.symm.trans hdecode
      | some failed =>
          rw [linesOfFile, hchunks]
          exact ⟨_, failed, rfl⟩

end Script

end ApiProbe
