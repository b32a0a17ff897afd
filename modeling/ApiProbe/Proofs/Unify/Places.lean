import ApiProbe.Proofs.Number.Digits
import ApiProbe.Proofs.Unify.Completeness
import ApiProbe.Proofs.Unify.Symmetry

/-!
# The places of conflicts

Unification goes down into two structs or two lists as far as it can and stops where it cannot. Each
place where it stops has its own names, and every conflict that is found belongs to one of these
places: there is a conflict at a place where the two values found there clash, and only one.
-/

namespace ApiProbe

namespace Unified

variable {α : Type}

/-- The conflicts that a result is made of, where they can be put in words. -/
def found : Unified α → List Conflict
  | .error (.conflicts all) => all
  | _ => []

theorem eq_conflicts_of_found {r : Unified α} (h : r.found ≠ []) :
    r = .error (.conflicts r.found) := by
  match r with
  | .ok a => exact absurd rfl h
  | .error .unprintable => exact absurd rfl h
  | .error (.conflicts all) => rfl

theorem exists_all_eq_ok_iff {rs : List (Unified α)} :
    (∃ xs, all rs = .ok xs) ↔ ∀ r ∈ rs, ∃ x, r = .ok x := by
  induction rs with
  | nil => simp [all]
  | cons r rs ih =>
      rw [List.forall_mem_cons, ← ih]
      simp only [all, map_eq_ok_iff, both_eq_ok_iff]
      constructor
      · rintro ⟨_, ⟨x, rest⟩, ⟨hx, hrest⟩, rfl⟩
        exact ⟨⟨x, hx⟩, rest, hrest⟩
      · rintro ⟨⟨x, hx⟩, rest, hrest⟩
        exact ⟨_, (x, rest), ⟨hx, hrest⟩, rfl⟩

/-- Conflicts of several results are the conflicts of each of them, one result after the other. -/
theorem eq_flatMap_found {rs : List (Unified α)} {cs : List Conflict}
    (h : all rs = .error (.conflicts cs)) : cs = rs.flatMap found := by
  induction rs generalizing cs with
  | nil => cases h
  | cons r rs ih =>
      rw [all, map_eq_error_iff] at h
      rw [List.flatMap_cons]
      cases hrest : all rs with
      | ok xs =>
          have hnone : rs.flatMap found = [] := by
            rw [List.flatMap_eq_nil_iff]
            intro s hs
            obtain ⟨x, rfl⟩ := exists_all_eq_ok_iff.mp ⟨xs, hrest⟩ s hs
            rfl
          rw [hrest] at h
          rw [hnone, List.append_nil]
          cases r with
          | ok x => cases h
          | error c =>
              obtain rfl : c = .conflicts cs := Except.error.inj h
              rfl
      | error d =>
          rw [hrest] at h
          cases r with
          | ok x =>
              obtain rfl : d = .conflicts cs := Except.error.inj h
              exact ih hrest
          | error c =>
              cases c with
              | unprintable => cases h
              | conflicts front =>
                  cases d with
                  | unprintable => cases h
                  | conflicts back =>
                      obtain rfl : front ++ back = cs := Clash.conflicts.inj (Except.error.inj h)
                      rw [← ih hrest]
                      rfl

/-- Equal tallies come of conflicts at the same places, in whatever order. -/
theorem exists_conflicts_of_tally_eq {β : Type} {r : Unified α} {s : Unified β}
    (h : tally r = tally s) {cs : List Conflict} (hr : r = .error (.conflicts cs)) :
    ∃ ds, s = .error (.conflicts ds) ∧ (cs.map Conflict.path).Perm (ds.map Conflict.path) := by
  subst hr
  match s with
  | .ok b => cases h
  | .error .unprintable => cases h
  | .error (.conflicts ds) =>
      have hpaths := WithTop.coe_injective (WithZero.coe_injective h)
      exact ⟨ds, rfl, Multiset.coe_eq_coe.mp hpaths⟩

/-- There is no conflict but one at the path. -/
def Local (path : String) (r : Unified α) : Prop :=
  ∀ all, r = .error (.conflicts all) → ∃ reason, all = [⟨path, reason⟩]

theorem local_ok (path : String) (a : α) : Local path (.ok a) :=
  nofun

theorem local_of (path : String) (reason : Reason) :
    Local path (.error (.of path reason) : Unified α) := by
  intro all hall
  rw [Clash.of] at hall
  split at hall
  · exact ⟨_, (Clash.conflicts.inj (Except.error.inj hall)).symm⟩
  · cases hall

theorem Local.paths_found {path : String} {r : Unified α} (h : Local path r) (place : String) :
    place ∈ r.found.map Conflict.path ↔ (∃ all, r = .error (.conflicts all)) ∧ path = place := by
  match r with
  | .ok a => simp [found]
  | .error .unprintable => simp [found]
  | .error (.conflicts all) =>
      obtain ⟨reason, rfl⟩ := h all rfl
      simp [found, eq_comm]

theorem Local.nodup_found {path : String} {r : Unified α} (h : Local path r) :
    (r.found.map Conflict.path).Nodup := by
  match r with
  | .ok a => exact List.nodup_nil
  | .error .unprintable => exact List.nodup_nil
  | .error (.conflicts all) =>
      obtain ⟨reason, rfl⟩ := h all rfl
      exact List.nodup_singleton path

end Unified

/-! ### Stops

The way down is stated on the two values alone, without unifying anything. A stop is where it cannot go
further: at different shapes, at scalars and alternatives, and at lists whose lengths clash. -/

namespace Value

open Unified (tally)

/-- A place at which unification stops: the names on the way to it, and the two values there. -/
structure Stop where
  names : List String
  left : Value
  right : Value

namespace Stop

def under (name : String) (s : Stop) : Stop :=
  ⟨name :: s.names, s.left, s.right⟩

/-- The names with dots between them. -/
def place (s : Stop) : String :=
  ".".intercalate s.names

/-- What unification makes of the two values, with the conflicts at their place under a path. -/
def result (path : String) (s : Stop) : Unified Value :=
  unifyAt (s.names.foldl joinPath path) s.left s.right

end Stop

/-- Whether the parts of two values are unified instead of the values. -/
def descends : Value → Value → Bool
  | .struct _, .struct _ => true
  | .list items tail, .list others rest =>
    !lengthsClash items.length others.length tail.isSome rest.isSome
  | _, _ => false

/-- The places at which the unification of two values stops. Down a struct it goes by the labels of
both structs; down a list by the indices of the longer one, where the tail of the other stands for the
items that it lacks, and to the tails if both lists are open. -/
inductive Stops : Value → Value → Stop → Prop
  | here {a b : Value} (h : descends a b = false) : Stops a b ⟨[], a, b⟩
  | field {fields others : List (String × Value)} {label : String} {x y : Value} {s : Stop}
      (hx : lookup? label fields = some x) (hy : lookup? label others = some y) (h : Stops x y s) :
      Stops (.struct fields) (.struct others) (s.under label)
  | item {items others : List Value} {tail rest : Option Value} {i : Nat} {x y : Value} {s : Stop}
      (hlengths : lengthsClash items.length others.length tail.isSome rest.isSome = false)
      (hi : i < max items.length others.length) (hx : itemAt? items tail i = some x)
      (hy : itemAt? others rest i = some y) (h : Stops x y s) :
      Stops (.list items tail) (.list others rest) (s.under (toString i))
  | tails {items others : List Value} {x y : Value} {s : Stop} (h : Stops x y s) :
      Stops (.list items (some x)) (.list others (some y)) (s.under "...")

/-- Two values that are unified under a name. -/
abbrev Part := String × Value × Value

namespace Part

def tallyAt (path : String) (p : Part) : WithZero (WithTop (Multiset String)) :=
  tally (unifyAt (joinPath path p.1) p.2.1 p.2.2)

end Part

/-- The stops of two values, each once, and all conflicts accounted for by them. -/
structure Enumerates (a b : Value) (stops : List Stop) : Prop where
  nodup : (stops.map Stop.names).Nodup
  mem_iff : ∀ s, s ∈ stops ↔ Stops a b s
  tally_eq : ∀ path, tally (unifyAt path a b) = (stops.map fun s => tally (s.result path)).sum

theorem enumerates_here {a b : Value} (h : descends a b = false) :
    Enumerates a b [⟨[], a, b⟩] := by
  refine ⟨List.nodup_singleton _, fun s => ?_, fun path => ?_⟩
  · rw [List.mem_singleton]
    constructor
    · rintro rfl
      exact .here h
    · intro hs
      cases hs with
      | here => rfl
      | field => cases h
      | item hlengths =>
          rw [descends, hlengths] at h
          cases h
      | tails =>
          rw [descends] at h
          simp [lengthsClash] at h
  · rw [List.map_singleton, List.sum_singleton]
    rfl

/-- The stops of parts with different names, each under its name, are the stops of all of them. -/
theorem exists_stops_of_parts {parts : List Part} (hnames : (parts.map Prod.fst).Nodup)
    (h : ∀ p ∈ parts, ∃ stops, Enumerates p.2.1 p.2.2 stops) :
    ∃ stops : List Stop, (stops.map Stop.names).Nodup ∧
      (∀ s, s ∈ stops ↔ ∃ p ∈ parts, ∃ t, Stops p.2.1 p.2.2 t ∧ t.under p.1 = s) ∧
      ∀ path, (parts.map (Part.tallyAt path)).sum
        = (stops.map fun s => tally (s.result path)).sum := by
  induction parts with
  | nil => exact ⟨[], List.nodup_nil, by simp, fun path => rfl⟩
  | cons p parts ih =>
      obtain ⟨hnew, hnames⟩ := List.nodup_cons.mp hnames
      obtain ⟨hp, hparts⟩ := List.forall_mem_cons.mp h
      obtain ⟨first, hfirst⟩ := hp
      obtain ⟨stops, hnodup, hmem, htally⟩ := ih hnames hparts
      refine ⟨first.map (Stop.under p.1) ++ stops, ?_, fun s => ?_, fun path => ?_⟩
      · rw [List.map_append, List.map_map]
        refine List.Nodup.append ?_ hnodup ?_
        · rw [← List.map_map]
          have hcons := hfirst.nodup.map (List.cons_injective (a := p.1))
          rwa [List.map_map] at hcons ⊢
        · intro names hleft hright
          obtain ⟨t, -, rfl⟩ := List.mem_map.mp hleft
          obtain ⟨s, hs, heq⟩ := List.mem_map.mp hright
          obtain ⟨q, hq, u, -, rfl⟩ := (hmem s).mp hs
          have hname : q.1 = p.1 := (List.cons.inj heq).1
          exact hnew (hname ▸ List.mem_map_of_mem hq)
      · rw [List.mem_append, hmem, List.mem_map]
        simp only [hfirst.mem_iff, List.mem_cons, exists_eq_or_imp]
      · rw [List.map_cons, List.sum_cons, List.map_append, List.sum_append, htally, List.map_map]
        exact congrArg (· + _) (hfirst.tally_eq (joinPath path p.1))

section Structs

variable {fields others : List (String × Value)}

/-- The values that stand under one label in two structs. -/
def sharedFields (fields others : List (String × Value)) : List Part :=
  fields.filterMap fun f => (lookup? f.1 others).map fun y => (f.1, f.2, y)

theorem mem_sharedFields (hlabels : (fields.map Prod.fst).Nodup) {p : Part} :
    p ∈ sharedFields fields others ↔
      lookup? p.1 fields = some p.2.1 ∧ lookup? p.1 others = some p.2.2 := by
  obtain ⟨label, x, y⟩ := p
  rw [sharedFields, List.mem_filterMap]
  constructor
  · rintro ⟨f, hf, hp⟩
    obtain ⟨z, hz, heq⟩ := Option.map_eq_some_iff.mp hp
    obtain ⟨rfl, rfl, rfl⟩ : f.1 = label ∧ f.2 = x ∧ z = y := by simpa using heq
    exact ⟨lookup?_eq_some_of_mem hlabels hf, hz⟩
  · rintro ⟨hx, hy⟩
    exact ⟨(label, x), mem_of_lookup? hx, Option.map_eq_some_iff.mpr ⟨y, hy, rfl⟩⟩

theorem nodup_sharedFields (hlabels : (fields.map Prod.fst).Nodup) :
    ((sharedFields fields others).map Prod.fst).Nodup := by
  have hsublist : ((sharedFields fields others).map Prod.fst).Sublist (fields.map Prod.fst) := by
    clear hlabels
    induction fields with
    | nil => exact .slnil
    | cons f fields ih =>
        rw [sharedFields, List.filterMap_cons] at *
        cases lookup? f.1 others with
        | none => exact .cons _ ih
        | some y => exact .cons_cons _ ih
  exact hlabels.sublist hsublist

theorem tally_unifyFields_sharedFields (path : String) :
    tally (unifyFields path fields others)
      = ((sharedFields fields others).map (Part.tallyAt path)).sum := by
  induction fields with
  | nil =>
      rw [unifyFields]
      rfl
  | cons f fields ih =>
      obtain ⟨label, x⟩ := f
      rw [unifyFields, Unified.tally_map, Unified.tally_both, ih, sharedFields, sharedFields,
        List.filterMap_cons]
      cases lookup? label others with
      | none => exact zero_add _
      | some y => rfl

theorem exists_enumerates_struct (hlabels : (fields.map Prod.fst).Nodup)
    (ih : ∀ f ∈ fields, ∀ y, ∃ stops, Enumerates f.2 y stops) :
    ∃ stops, Enumerates (.struct fields) (.struct others) stops := by
  have hparts : ∀ p ∈ sharedFields fields others, ∃ stops, Enumerates p.2.1 p.2.2 stops := by
    intro p hp
    exact ih (p.1, p.2.1) (mem_of_lookup? ((mem_sharedFields hlabels).mp hp).1) p.2.2
  obtain ⟨stops, hnodup, hmem, htally⟩ :=
    exists_stops_of_parts (nodup_sharedFields hlabels) hparts
  refine ⟨stops, hnodup, fun s => ?_, fun path => ?_⟩
  · rw [hmem]
    constructor
    · rintro ⟨p, hp, t, ht, rfl⟩
      obtain ⟨hx, hy⟩ := (mem_sharedFields hlabels).mp hp
      exact .field hx hy ht
    · intro hs
      cases hs with
      | here h => cases h
      | @field _ _ label x y t hx hy ht =>
          exact ⟨(label, x, y), (mem_sharedFields hlabels).mpr ⟨hx, hy⟩, t, ht, rfl⟩
  · rw [← htally, unifyAt_struct, Unified.tally_map, tally_unifyFields_sharedFields]

end Structs

section Lists

variable {items others : List Value} {tail rest : Option Value}

/-- The pairs of items under their indices. -/
def indexed (pairs : List (Value × Value)) : List Part :=
  pairs.zipIdx.map fun p => (toString p.2, p.1)

def tailParts : Option Value → Option Value → List Part
  | some x, some y => [("...", x, y)]
  | _, _ => []

theorem mem_indexed {pairs : List (Value × Value)} {p : Part} :
    p ∈ indexed pairs ↔ ∃ i : Nat, pairs[i]? = some p.2 ∧ toString i = p.1 := by
  rw [indexed, List.mem_map]
  constructor
  · rintro ⟨⟨pair, i⟩, hpair, rfl⟩
    exact ⟨i, List.mem_zipIdx_iff_getElem?.mp hpair, rfl⟩
  · rintro ⟨i, hpair, hname⟩
    exact ⟨(p.2, i), List.mem_zipIdx_iff_getElem?.mpr hpair, Prod.ext hname rfl⟩

theorem mem_tailParts {p : Part} :
    p ∈ tailParts tail rest ↔ p.1 = "..." ∧ tail = some p.2.1 ∧ rest = some p.2.2 := by
  obtain ⟨name, x, y⟩ := p
  cases tail with
  | none => simp [tailParts]
  | some x' =>
      cases rest with
      | none => simp [tailParts]
      | some y' => simp [tailParts, eq_comm]

/-- A name with characters, none of which is a dot. -/
def IsPlain (name : String) : Prop :=
  name ≠ "" ∧ '.' ∉ name.toList

theorem isPlain_toString (i : Nat) : IsPlain (toString i) := by
  have hdigits : (toString i).toList = Nat.toDigits 10 i := Nat.toList_repr
  constructor
  · intro hempty
    rw [hempty] at hdigits
    exact Nat.toDigits_ne_nil hdigits.symm
  · intro hdot
    rw [hdigits] at hdot
    exact absurd (Text.isAsciiDigit_of_mem_toDigits _ hdot) (by decide)

theorem nodup_listParts (pairs : List (Value × Value)) :
    ((indexed pairs ++ tailParts tail rest).map Prod.fst).Nodup := by
  have hindices : (indexed pairs).map Prod.fst = (List.range pairs.length).map toString := by
    rw [indexed, List.map_map, List.range_eq_range', ← List.zipIdx_map_snd, List.map_map]
    rfl
  have hinjective : Function.Injective (toString : Nat → String) := by
    intro i j hij
    have hdigits : Nat.toDigits 10 i = Nat.toDigits 10 j := by
      rw [← Nat.toList_repr, ← Nat.toList_repr]
      exact congrArg String.toList hij
    rw [← Numeral.ofDigits_toDigits i, hdigits, Numeral.ofDigits_toDigits]
  rw [List.map_append, hindices]
  refine (List.nodup_range.map hinjective).append ?_ ?_
  · cases tail with
    | none => exact List.nodup_nil
    | some x =>
        cases rest with
        | none => exact List.nodup_nil
        | some y => exact List.nodup_singleton _
  · intro name hindex htail
    obtain ⟨i, -, rfl⟩ := List.mem_map.mp hindex
    obtain ⟨p, hp, heq⟩ := List.mem_map.mp htail
    have hdots : '.' ∈ (toString i).toList := by
      rw [← heq, (mem_tailParts.mp hp).1]
      decide
    exact (isPlain_toString i).2 hdots

theorem tally_listParts (path : String) (pairs : List (Value × Value)) :
    tally (listResult path (Unified.all (itemResults path 0 pairs)) tail rest)
      = ((indexed pairs ++ tailParts tail rest).map (Part.tallyAt path)).sum := by
  have hitems : (itemResults path 0 pairs).map tally = (indexed pairs).map (Part.tallyAt path) := by
    rw [itemResults, indexed, List.mapIdx_eq_zipIdx_map, List.map_map, List.map_map]
    simp only [Nat.zero_add]
    rfl
  rw [tally_listResult, Unified.tally_all, hitems, List.map_append, List.sum_append]
  cases tail with
  | none => cases rest <;> rfl
  | some x =>
      cases rest with
      | none => rfl
      | some y => exact congrArg (_ + ·) (add_zero _).symm

theorem exists_enumerates_list
    (hlengths : lengthsClash items.length others.length tail.isSome rest.isSome = false)
    (ih : ∀ x, x ∈ items ∨ x ∈ tail → ∀ y, ∃ stops, Enumerates x y stops) :
    ∃ stops, Enumerates (.list items tail) (.list others rest) stops := by
  have hparts : ∀ p ∈ indexed (pairUp tail rest items others) ++ tailParts tail rest,
      ∃ stops, Enumerates p.2.1 p.2.2 stops := by
    intro p hp
    refine ih p.2.1 ?_ p.2.2
    rcases List.mem_append.mp hp with hitem | htail
    · obtain ⟨i, hpair, -⟩ := mem_indexed.mp hitem
      exact mem_of_itemAt? (itemAt?_of_mem_pairUp hlengths hpair).2.1
    · exact Or.inr (mem_tailParts.mp htail).2.1
  obtain ⟨stops, hnodup, hmem, htally⟩ := exists_stops_of_parts (nodup_listParts _) hparts
  refine ⟨stops, hnodup, fun s => ?_, fun path => ?_⟩
  · rw [hmem]
    constructor
    · rintro ⟨⟨name, x, y⟩, hp, t, ht, rfl⟩
      rcases List.mem_append.mp hp with hitem | htail
      · obtain ⟨i, hpair, rfl⟩ := mem_indexed.mp hitem
        obtain ⟨hi, hx, hy⟩ := itemAt?_of_mem_pairUp hlengths hpair
        exact .item hlengths hi hx hy ht
      · obtain ⟨rfl, rfl, rfl⟩ := mem_tailParts.mp htail
        exact .tails ht
    · intro hs
      cases hs with
      | here h =>
          rw [descends, hlengths] at h
          cases h
      | @item _ _ _ _ i x y t _ hi hx hy ht =>
          refine ⟨(toString i, x, y), List.mem_append_left _ (mem_indexed.mpr ⟨i, ?_, rfl⟩), t, ht, rfl⟩
          rw [getElem?_pairUp hlengths, if_pos hi, hx, hy]
          rfl
      | @tails _ _ x y t ht =>
          exact ⟨("...", x, y), List.mem_append_right _ (mem_tailParts.mpr ⟨rfl, rfl, rfl⟩), t, ht, rfl⟩
  · rw [← htally, unifyAt_list hlengths, tally_listParts]

end Lists

/-- The stops of two values can be listed. -/
theorem exists_enumerates {a b : Value} (ha : a.WellFormed) : ∃ stops, Enumerates a b stops := by
  induction a generalizing b with
  | struct fields ih =>
      obtain ⟨hlabels, hfields⟩ := wellFormed_struct.mp ha
      cases b with
      | struct others =>
          exact exists_enumerates_struct hlabels fun f hf y => ih f hf (hfields f hf)
      | _ => exact ⟨_, enumerates_here rfl⟩
  | list items tail ih ihtail =>
      obtain ⟨hitems, htail⟩ := wellFormed_list.mp ha
      cases b with
      | list others rest =>
          cases hlengths : lengthsClash items.length others.length tail.isSome rest.isSome with
          | true => exact ⟨_, enumerates_here (by rw [descends, hlengths]; rfl)⟩
          | false =>
              refine exists_enumerates_list hlengths fun x hx y => ?_
              exact hx.elim (fun hx => ih x hx (hitems x hx)) fun hx => ihtail x hx (htail x hx)
      | _ => exact ⟨_, enumerates_here rfl⟩
  | _ => exact ⟨_, enumerates_here (by cases b <;> rfl)⟩

/-! ### Names of places

Two stops have different names if labels can be told apart from indices and from the dots between names. That
is all that is asked of labels: they are not empty and have no dot. -/

/-- No label in the value is empty or has a dot. -/
inductive PlainLabels : Value → Prop
  | top : PlainLabels .top
  | atom {a : Atom} : PlainLabels (.atom a)
  | constraint {c : Constraint} : PlainLabels (.constraint c)
  | any {options : List Value} (h : ∀ x ∈ options, PlainLabels x) : PlainLabels (.any options)
  | struct {fields : List (String × Value)} (hlabels : ∀ f ∈ fields, IsPlain f.1)
      (h : ∀ f ∈ fields, PlainLabels f.2) : PlainLabels (.struct fields)
  | list {items : List Value} {tail : Option Value} (hitems : ∀ x ∈ items, PlainLabels x)
      (htail : ∀ x ∈ tail, PlainLabels x) : PlainLabels (.list items tail)

/-- The names that stand between the dots of a place. -/
def IsStep (name : String) : Prop :=
  name = "..." ∨ IsPlain name

theorem IsStep.ne_empty {name : String} (h : IsStep name) : name ≠ "" := by
  rcases h with rfl | h
  · decide
  · exact h.1

theorem Stops.isStep {a b : Value} {s : Stop} (h : Stops a b s) (ha : a.PlainLabels) :
    ∀ name ∈ s.names, IsStep name := by
  induction h with
  | here => exact nofun
  | field hx _ _ ih =>
      cases ha with
      | struct hlabels h =>
          have hmem := mem_of_lookup? hx
          exact List.forall_mem_cons.mpr ⟨Or.inr (hlabels _ hmem), ih (h _ hmem)⟩
  | item _ _ hx _ _ ih =>
      cases ha with
      | list hitems htail =>
          refine List.forall_mem_cons.mpr ⟨Or.inr (isPlain_toString _), ih ?_⟩
          exact (mem_of_itemAt? hx).elim (hitems _) (htail _)
  | tails _ ih =>
      cases ha with
      | list _ htail => exact List.forall_mem_cons.mpr ⟨Or.inl rfl, ih (htail _ rfl)⟩

theorem joinPath_eq {path : String} (h : path ≠ "") (name : String) :
    joinPath path name = path ++ "." ++ name := by
  rw [joinPath, if_neg (by simpa using h)]
  rfl

theorem foldl_joinPath {path : String} (h : path ≠ "") (names : List String) :
    names.foldl joinPath path = ".".intercalate (path :: names) := by
  induction names generalizing path with
  | nil => exact (String.intercalate_singleton ..).symm
  | cons name names ih =>
      have hnext : path ++ "." ++ name ≠ "" := by simp
      have hpath : ".".intercalate ((path ++ "." ++ name) :: names)
          = path ++ "." ++ ".".intercalate (name :: names) := by
        cases names <;> simp [String.intercalate_cons_cons, String.append_assoc]
      rw [List.foldl_cons, joinPath_eq h, ih hnext, hpath, String.intercalate_cons_cons]

/-- The path of the conflict at a stop is its place. -/
theorem Stop.foldl_names {s : Stop} (h : ∀ name ∈ s.names, IsStep name) :
    s.names.foldl joinPath "" = s.place := by
  rw [Stop.place]
  cases hnames : s.names with
  | nil => rfl
  | cons name names =>
      have hname := (h name (hnames ▸ List.mem_cons_self)).ne_empty
      rw [List.foldl_cons, ← foldl_joinPath hname]
      rfl

/-- The characters of names with a dot in front of each. -/
def dotted : List String → List Char
  | [] => []
  | name :: names => '.' :: (name.toList ++ dotted names)

theorem toList_intercalate_cons (name : String) (names : List String) :
    (".".intercalate (name :: names)).toList = name.toList ++ dotted names := by
  induction names generalizing name with
  | nil => rw [String.intercalate_singleton, dotted, List.append_nil]
  | cons next names ih =>
      have hdot : ".".toList = ['.'] := by decide
      rw [String.intercalate_cons_cons, String.toList_append, String.toList_append, ih, hdot, dotted,
        List.append_assoc, List.singleton_append]

theorem head?_dotted (names : List String) : ∀ c ∈ (dotted names).head?, c = '.' := by
  cases names with
  | nil => exact nofun
  | cons name names =>
      intro c hc
      exact (Option.some.inj hc).symm

theorem IsPlain.not_dots {name : String} (h : IsPlain name) {front back : List Char} :
    name.toList ++ front ≠ "...".toList ++ back := by
  obtain ⟨c, cs, hchars⟩ := List.exists_cons_of_ne_nil (mt String.toList_eq_nil_iff.mp h.1)
  rw [hchars]
  intro heq
  obtain rfl : c = '.' := (List.cons.inj heq).1
  exact h.2 (hchars ▸ List.mem_cons_self)

/-- A name in front of a dot is told from what follows it: it has no dot, or it is the three dots of a
tail. -/
theorem IsStep.append_inj {name other : String} (hname : IsStep name) (hother : IsStep other)
    {front back : List Char} (hfront : ∀ c ∈ front.head?, c = '.') (hback : ∀ c ∈ back.head?, c = '.')
    (h : name.toList ++ front = other.toList ++ back) : name = other ∧ front = back := by
  rcases hname with rfl | hname <;> rcases hother with rfl | hother
  · exact ⟨rfl, List.append_cancel_left h⟩
  · exact absurd h.symm hother.not_dots
  · exact absurd h hname.not_dots
  · have hstop {name : String} (hplain : IsPlain name) : ∀ c ∈ name.toList, (c != '.') = true := by
      intro c hc
      rw [bne_iff_ne]
      rintro rfl
      exact hplain.2 hc
    have hdot {rest : List Char} (hrest : ∀ c ∈ rest.head?, c = '.') :
        ∀ c ∈ rest.head?, (c != '.') = false := fun c hc => by simp [hrest c hc]
    constructor
    · rw [← String.toList_inj, ← Text.takeWhile_append_of_stop (hstop hname) (hdot hfront), h,
        Text.takeWhile_append_of_stop (hstop hother) (hdot hback)]
    · rw [← Text.dropWhile_append_of_stop (hstop hname) (hdot hfront), h,
        Text.dropWhile_append_of_stop (hstop hother) (hdot hback)]

theorem dotted_injective {names others : List String} (hnames : ∀ name ∈ names, IsStep name)
    (hothers : ∀ name ∈ others, IsStep name) (h : dotted names = dotted others) :
    names = others := by
  induction names generalizing others with
  | nil =>
      cases others with
      | nil => rfl
      | cons other others => cases h
  | cons name names ih =>
      cases others with
      | nil => cases h
      | cons other others =>
          rw [List.forall_mem_cons] at hnames hothers
          obtain ⟨rfl, hrest⟩ := hnames.1.append_inj hothers.1 (head?_dotted names)
            (head?_dotted others) (List.cons.inj h).2
          rw [ih hnames.2 hothers.2 hrest]

theorem Stop.place_injective {s t : Stop} (hs : ∀ name ∈ s.names, IsStep name)
    (ht : ∀ name ∈ t.names, IsStep name) (h : s.place = t.place) : s.names = t.names := by
  have hempty {name : String} (names : List String) (hname : IsStep name) :
      ".".intercalate (name :: names) ≠ "" := by
    intro heq
    have hchars := toList_intercalate_cons name names
    rw [heq, String.toList_empty, eq_comm, List.append_eq_nil_iff] at hchars
    exact hname.ne_empty (String.toList_eq_nil_iff.mp hchars.1)
  rw [place, place] at h
  generalize s.names = names, t.names = others at hs ht h
  cases names with
  | nil =>
      cases others with
      | nil => rfl
      | cons other others => exact absurd h.symm (hempty others (List.forall_mem_cons.mp ht).1)
  | cons name names =>
      cases others with
      | nil => exact absurd h (hempty names (List.forall_mem_cons.mp hs).1)
      | cons other others =>
          apply dotted_injective hs ht
          rw [dotted, dotted, ← toList_intercalate_cons, ← toList_intercalate_cons, h]

theorem local_choose (path : String) (a b : Value) (results : List (Unified Value)) :
    (choose path a b results).Local path := by
  by_cases hwords : Except.error Clash.unprintable ∈ results
  · rw [choose_of_unprintable hwords]
    exact nofun
  · by_cases hnone : successes results = []
    · rw [choose_of_none hwords hnone]
      exact Unified.local_of path _
    · rw [choose_of_some hwords hnone]
      exact Unified.local_ok path _

theorem local_restrict (path : String) (a : Atom) (c : Constraint) :
    (restrict path a c).Local path := by
  rw [restrict]
  split
  · exact Unified.local_ok path _
  · exact Unified.local_of path _

/-- Where unification stops, there is one conflict at most. -/
theorem local_unifyAt {a b : Value} (h : descends a b = false) (path : String) :
    (unifyAt path a b).Local path := by
  induction a, b using induct₂ with
  | topLeft b =>
      rw [unifyAt_top_left]
      exact Unified.local_ok path b
  | topRight a =>
      rw [unifyAt_top_right]
      exact Unified.local_ok path a
  | any a b ha hb hany _ =>
      rw [unifyAt_any path ha hb hany]
      exact local_choose path a b _
  | shapes a b s t hs ht hne =>
      rw [unifyAt_of_shape_ne path hs ht hne]
      exact Unified.local_of path _
  | atoms a b =>
      rw [unifyAt_atom]
      split
      · exact Unified.local_ok path _
      · exact Unified.local_of path _
  | atomConstraint a c =>
      rw [unifyAt_atom_constraint]
      exact local_restrict path a c
  | constraintAtom c a =>
      rw [unifyAt_constraint_atom]
      exact local_restrict path a c
  | constraints c d =>
      rw [unifyAt_constraint]
      split
      · exact Unified.local_ok path _
      · exact Unified.local_of path _
  | struct => cases h
  | list items tail others rest =>
      rw [descends, Bool.not_eq_false'] at h
      rw [unifyAt_list_of_clash h]
      exact Unified.local_of path _

theorem Stops.stopped {a b : Value} {s : Stop} (h : Stops a b s) : descends s.left s.right = false := by
  induction h with
  | here h => exact h
  | field _ _ _ ih => exact ih
  | item _ _ _ _ _ ih => exact ih
  | tails _ ih => exact ih

section Enumerated

variable {a b : Value} {stops : List Stop}

theorem Stop.result_eq_ok_iff {s : Stop} {path : String} {r : Value} :
    s.result path = .ok r ↔ unify s.left s.right = .ok r :=
  unifyAt_eq_ok_iff

theorem Stop.result_eq_unprintable_iff {s : Stop} {path : String} :
    s.result path = .error .unprintable ↔ unify s.left s.right = .error .unprintable :=
  (agree_unifyAt _ "" s.left s.right).eq_unprintable_iff

/-- The conflict at a stop is there if the values clash, and its path is the place of the stop. -/
theorem Stops.mem_paths_iff {s : Stop} (hs : Stops a b s) (ha : a.PlainLabels) (place : String) :
    place ∈ (s.result "").found.map Conflict.path ↔ Clashes s.left s.right ∧ s.place = place := by
  rw [Stop.result, Stop.foldl_names (hs.isStep ha),
    (local_unifyAt hs.stopped s.place).paths_found place, unifyAt_eq_conflicts_iff]

namespace Enumerates

variable (h : Enumerates a b stops)
include h

theorem tally_all :
    tally (unify a b) = tally (Unified.all (stops.map fun s => s.result "")) := by
  rw [Unified.tally_all, List.map_map]
  exact h.tally_eq ""

theorem exists_eq_ok_iff :
    (∃ r, unify a b = .ok r) ↔ ∀ s, Stops a b s → ∃ r, unify s.left s.right = .ok r := by
  rw [← Unified.tally_eq_zero_iff, h.tally_all, Unified.tally_eq_zero_iff,
    Unified.exists_all_eq_ok_iff, List.forall_mem_map]
  simp only [Stop.result_eq_ok_iff, h.mem_iff]

theorem eq_unprintable_iff :
    unify a b = .error .unprintable ↔
      ∃ s, Stops a b s ∧ unify s.left s.right = .error .unprintable := by
  rw [← Unified.tally_eq_top_iff, h.tally_all, Unified.tally_eq_top_iff,
    Unified.all_eq_unprintable_iff, List.mem_map]
  simp only [Stop.result_eq_unprintable_iff, h.mem_iff]

theorem eq_of_place_eq (ha : a.PlainLabels) {s t : Stop} (hs : Stops a b s) (ht : Stops a b t)
    (hplace : s.place = t.place) : s = t :=
  List.inj_on_of_nodup_map h.nodup ((h.mem_iff s).mpr hs) ((h.mem_iff t).mpr ht)
    (Stop.place_injective (hs.isStep ha) (ht.isStep ha) hplace)

theorem perm_paths {all : List Conflict} (hall : unify a b = .error (.conflicts all)) :
    (all.map Conflict.path).Perm
      (stops.flatMap fun s => (s.result "").found.map Conflict.path) := by
  obtain ⟨found, hfound, hperm⟩ := Unified.exists_conflicts_of_tally_eq h.tally_all hall
  rw [Unified.eq_flatMap_found hfound, List.flatMap_map, List.map_flatMap] at hperm
  exact hperm

theorem mem_paths_iff (ha : a.PlainLabels) {all : List Conflict}
    (hall : unify a b = .error (.conflicts all)) (place : String) :
    place ∈ all.map Conflict.path ↔ ∃ s, Stops a b s ∧ Clashes s.left s.right ∧ s.place = place := by
  rw [(h.perm_paths hall).mem_iff, List.mem_flatMap]
  refine exists_congr fun s => ?_
  rw [h.mem_iff]
  exact and_congr_right fun hs => hs.mem_paths_iff ha place

theorem nodup_paths (ha : a.PlainLabels) {all : List Conflict}
    (hall : unify a b = .error (.conflicts all)) : (all.map Conflict.path).Nodup := by
  rw [(h.perm_paths hall).nodup_iff, List.nodup_flatMap]
  refine ⟨fun s hs => (local_unifyAt ((h.mem_iff s).mp hs).stopped _).nodup_found, ?_⟩
  have hdistinct : stops.Pairwise fun s t => s.names ≠ t.names := List.pairwise_map.mp h.nodup
  refine hdistinct.imp_of_mem fun {s t} hs ht hne place hleft hright => hne ?_
  rw [h.mem_iff] at hs ht
  obtain ⟨-, hs'⟩ := (hs.mem_paths_iff ha place).mp hleft
  obtain ⟨-, ht'⟩ := (ht.mem_paths_iff ha place).mp hright
  rw [h.eq_of_place_eq ha hs ht (hs'.trans ht'.symm)]

end Enumerates

end Enumerated

theorem clashes_iff {a b : Value} :
    Clashes a b ↔ (¬ ∃ r, unify a b = .ok r) ∧ unify a b ≠ .error .unprintable := by
  rw [Clashes]
  match unify a b with
  | .ok r => simp
  | .error .unprintable => simp
  | .error (.conflicts all) => simp

/-- **Conflicts are reported exactly.** Two values have a common value if the values at all stops have
one. If they do not all have one, there is a conflict for each stop whose values clash, exactly one,
and its path is the place of the stop; the stops have different places. The exception is a stop with a
conflict that cannot be put in words, which leaves no conflict to report at all; there is none where
every whole number of both values is within the digit limit. -/
theorem unify_places {a b : Value} (ha : a.WellFormed) (hlabels : a.PlainLabels) :
    ((∃ r, unify a b = .ok r) ↔ ∀ s, Stops a b s → ∃ r, unify s.left s.right = .ok r) ∧
      ((∀ s, Stops a b s → unify s.left s.right ≠ .error .unprintable) →
        (Clashes a b ↔ ∃ s, Stops a b s ∧ ¬ ∃ r, unify s.left s.right = .ok r)) ∧
      (∀ all, unify a b = .error (.conflicts all) → (all.map Conflict.path).Nodup ∧
        ∀ place, place ∈ all.map Conflict.path ↔
          ∃ s, Stops a b s ∧ (¬ ∃ r, unify s.left s.right = .ok r) ∧ s.place = place) ∧
      (∀ s t, Stops a b s → Stops a b t → s.place = t.place → s = t) ∧
      (unify a b = .error .unprintable ↔
        ∃ s, Stops a b s ∧ unify s.left s.right = .error .unprintable) ∧
      (a.printable = true → b.printable = true →
        ∀ s, Stops a b s → unify s.left s.right ≠ .error .unprintable) := by
  obtain ⟨stops, h⟩ := exists_enumerates (b := b) ha
  have hwords : unify a b ≠ .error .unprintable ↔
      ∀ s, Stops a b s → unify s.left s.right ≠ .error .unprintable := by
    rw [ne_eq, h.eq_unprintable_iff]
    push Not
    rfl
  refine ⟨h.exists_eq_ok_iff, fun hall => ?_, fun all hall => ⟨h.nodup_paths hlabels hall, ?_⟩,
    fun s t hs ht => h.eq_of_place_eq hlabels hs ht, h.eq_unprintable_iff, fun hap hbp => ?_⟩
  · rw [clashes_iff, h.exists_eq_ok_iff, and_iff_left (hwords.mpr hall)]
    push Not
    rfl
  · intro place
    rw [h.mem_paths_iff hlabels hall]
    refine exists_congr fun s => and_congr_right fun hs => and_congr_left fun _ => ?_
    have hall' : unify a b ≠ .error .unprintable := by simp [hall]
    rw [clashes_iff, and_iff_left (hwords.mp hall' s hs)]
  · exact hwords.mp (unifyAt_ne_unprintable hap hbp)

/-- An order with another count, another code and codes of another kind behind it. -/
theorem unify_places_other_codes :
    let a : Value := .struct [("count", .atom (.int 1)),
      ("codes", .list [.atom (.int 7), .atom (.int 8)] (some (ofKind .int)))]
    let b : Value := .struct [("codes", .list [.atom (.int 7), .atom (.string "k")] (some (ofKind .string))),
      ("note", .top), ("count", .atom (.int 2))]
    a.WellFormed ∧ a.PlainLabels ∧
      (∃ all, unify a b = .error (.conflicts all) ∧
        all.map Conflict.path = ["count", "codes.1", "codes...."] ∧ (all.map Conflict.path).Nodup) ∧
      ∃ s, Stops a b s ∧ (¬ ∃ r, unify s.left s.right = .ok r) ∧ s.place = "codes...." := by
  intro a b
  have ha : a.WellFormed := by simp [a, ofKind, Constraint.wellFormed_iff, Atom.WellFormed]
  have hscalars : ∀ x ∈ [Value.atom (.int 7), .atom (.int 8)], x.PlainLabels :=
    List.forall_mem_cons.mpr ⟨.atom, List.forall_mem_singleton.mpr .atom⟩
  have hcodes : (Value.list [.atom (.int 7), .atom (.int 8)] (some (ofKind .int))).PlainLabels :=
    .list hscalars fun x hx => Option.some.inj hx ▸ .constraint
  have hlabels : a.PlainLabels := by
    refine .struct (List.forall_mem_cons.mpr ⟨?_, List.forall_mem_singleton.mpr ?_⟩)
      (List.forall_mem_cons.mpr ⟨.atom, List.forall_mem_singleton.mpr hcodes⟩)
    · exact ⟨by decide, by decide⟩
    · exact ⟨by decide, by decide⟩
  have hpaths : (unify a b).found.map Conflict.path = ["count", "codes.1", "codes...."] := by
    decide +kernel
  have hall : unify a b = .error (.conflicts (unify a b).found) := by
    apply Unified.eq_conflicts_of_found
    intro hnone
    rw [hnone] at hpaths
    cases hpaths
  obtain ⟨-, -, hreported, -⟩ := unify_places (b := b) ha hlabels
  obtain ⟨hnodup, hmem⟩ := hreported _ hall
  refine ⟨ha, hlabels, ⟨_, hall, hpaths, hnodup⟩, (hmem "codes....").mp ?_⟩
  rw [hpaths]
  decide

/-- The conflict with a whole number of too many digits lacks words. -/
theorem unifyAt_of_long_atom {m n : Int} (hne : n ≠ m) (hn : Numeral.fits n = false)
    (path : String) :
    unifyAt path (.atom (.int n)) (.atom (.int m)) = .error .unprintable := by
  have hsame : ¬ (Atom.int n).same (.int m) = true := by simpa [Atom.same] using hne
  rw [unifyAt_atom, if_neg hsame, Clash.of, if_neg]
  simp [Reason.printable, Atom.printable, hn]

/-- Two counts differ, but no conflict is reported: it would have to show one of too many digits. -/
theorem unify_places_unprintable :
    let a : Value := .struct [("count", .atom (.int (10 ^ 4300)))]
    let b : Value := .struct [("count", .atom (.int 5))]
    a.WellFormed ∧ b.WellFormed ∧ a.PlainLabels ∧ b.PlainLabels ∧
      (∃ s, Stops a b s ∧ ¬ ∃ r, unify s.left s.right = .ok r) ∧ ¬ Clashes a b := by
  intro a b
  have hwell (k : Int) : (Value.struct [("count", .atom (.int k))]).WellFormed := by
    simp [Atom.WellFormed]
  have hcount : IsPlain "count" := ⟨by decide, by decide⟩
  have hlabels (k : Int) : (Value.struct [("count", .atom (.int k))]).PlainLabels :=
    .struct (List.forall_mem_singleton.mpr hcount) (List.forall_mem_singleton.mpr .atom)
  have hstop : Stops a b (Stop.under "count" ⟨[], .atom (.int (10 ^ 4300)), .atom (.int 5)⟩) :=
    .field rfl rfl (.here rfl)
  have hwords : unify (.atom (.int (10 ^ 4300))) (.atom (.int 5)) = .error .unprintable :=
    unifyAt_of_long_atom (by decide +kernel) (by decide +kernel) ""
  obtain ⟨stops, h⟩ := exists_enumerates (b := b) (hwell (10 ^ 4300))
  have hunify : unify a b = .error .unprintable := h.eq_unprintable_iff.mpr ⟨_, hstop, hwords⟩
  refine ⟨hwell _, hwell 5, hlabels _, hlabels 5, ⟨_, hstop, ?_⟩, fun hclash => ?_⟩
  · rintro ⟨r, hr⟩
    cases hwords.symm.trans hr
  · exact (clashes_iff.mp hclash).2 hunify

end Value

end ApiProbe
