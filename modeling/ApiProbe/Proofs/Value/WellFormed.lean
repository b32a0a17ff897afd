import ApiProbe.Proofs.Number.Proper
import ApiProbe.Proofs.Value.Sameness
import ApiProbe.Value.Check

/-!
# Well-formed values

The values that expressions, data and unification give rise to. Structs have each label once,
alternatives have at least two options, none of which is an alternative or the same as another, and
constraints are not empty, repeat no bound, and have no bound that their kind rules out.
-/

namespace ApiProbe

/-- Every atom but a float is well formed; a float has to be a finite number of the format. -/
def Atom.WellFormed : Atom → Prop
  | .float x => x.IsProper
  | _ => True

/-- No atom but a float can differ from itself, and no well-formed float does. -/
theorem Atom.same_self {a : Atom} (h : a.WellFormed) : a.same a = true := by
  cases a with
  | float x =>
      cases x with
      | finite negative mantissa exponent => exact float_same_iff.mpr ⟨_, rfl, rfl⟩
      | infinite => cases h
      | nan => cases h
  | _ => simp [same]

/-- Whether a kind and a bound speak of atoms of the same type. -/
def Kind.Suits (kind : Kind) : Bound → Prop
  | .order _ limit =>
    (limit.isNumber = true ∧ (kind = .int ∨ kind = .float ∨ kind = .number)) ∨
      (limit.kind = .string ∧ kind = .string)
  | .ne _ => True
  | .pattern .. => kind = .string

/-- An order is one of numbers or of strings, and a pattern is one that can be searched for. -/
def Bound.WellFormed : Bound → Prop
  | .order _ limit => limit.WellFormed ∧ (limit.isNumber = true ∨ limit.kind = .string)
  | .ne limit => limit.WellFormed
  | .pattern _ source => (Pattern.compile source).isOk = true

/-- A constraint has a part, no bound twice, and no bound that its kind rules out. -/
@[mk_iff]
structure Constraint.WellFormed (c : Constraint) : Prop where
  nonempty : c.kind ≠ none ∨ c.bounds ≠ []
  bounds : ∀ bound ∈ c.bounds, bound.WellFormed
  distinct : c.bounds.Pairwise fun a b => b.same a = false
  suits : ∀ kind ∈ c.kind, ∀ bound ∈ c.bounds, kind.Suits bound

namespace Value

def isAny : Value → Bool
  | .any _ => true
  | _ => false

inductive WellFormed : Value → Prop
  | top : WellFormed .top
  | atom {a : Atom} (h : a.WellFormed) : WellFormed (.atom a)
  | constraint {c : Constraint} (h : c.WellFormed) : WellFormed (.constraint c)
  | any {options : List Value} (hlength : 2 ≤ options.length)
      (hdistinct : options.Pairwise fun x y => y.same x = false)
      (hflat : ∀ x ∈ options, x.isAny = false) (h : ∀ x ∈ options, WellFormed x) :
      WellFormed (.any options)
  | struct {fields : List (String × Value)} (hlabels : (fields.map Prod.fst).Nodup)
      (h : ∀ f ∈ fields, WellFormed f.2) : WellFormed (.struct fields)
  | list {items : List Value} {tail : Option Value} (hitems : ∀ x ∈ items, WellFormed x)
      (htail : ∀ x ∈ tail, WellFormed x) : WellFormed (.list items tail)

@[simp]
theorem wellFormed_top : Value.top.WellFormed :=
  .top

@[simp]
theorem wellFormed_atom {a : Atom} : (Value.atom a).WellFormed ↔ a.WellFormed :=
  ⟨fun | .atom h => h, .atom⟩

@[simp]
theorem wellFormed_constraint {c : Constraint} : (Value.constraint c).WellFormed ↔ c.WellFormed :=
  ⟨fun | .constraint h => h, .constraint⟩

@[simp]
theorem wellFormed_any {options : List Value} :
    (Value.any options).WellFormed ↔ 2 ≤ options.length ∧
      (options.Pairwise fun x y => y.same x = false) ∧
      (∀ x ∈ options, x.isAny = false) ∧ ∀ x ∈ options, x.WellFormed :=
  ⟨fun | .any hlength hdistinct hflat h => ⟨hlength, hdistinct, hflat, h⟩,
    fun ⟨hlength, hdistinct, hflat, h⟩ => .any hlength hdistinct hflat h⟩

@[simp]
theorem wellFormed_struct {fields : List (String × Value)} :
    (Value.struct fields).WellFormed ↔
      (fields.map Prod.fst).Nodup ∧ ∀ f ∈ fields, f.2.WellFormed :=
  ⟨fun | .struct hlabels h => ⟨hlabels, h⟩, fun ⟨hlabels, h⟩ => .struct hlabels h⟩

@[simp]
theorem wellFormed_list {items : List Value} {tail : Option Value} :
    (Value.list items tail).WellFormed ↔
      (∀ x ∈ items, x.WellFormed) ∧ ∀ x ∈ tail, x.WellFormed :=
  ⟨fun | .list hitems htail => ⟨hitems, htail⟩, fun ⟨hitems, htail⟩ => .list hitems htail⟩

theorem WellFormed.options {v : Value} (h : v.WellFormed) : ∀ x ∈ v.options, x.WellFormed := by
  cases h with
  | any _ _ _ h => exact h
  | _ => simp only [Value.options, List.mem_singleton, forall_eq]; constructor <;> assumption

theorem WellFormed.options_ne_nil {v : Value} (h : v.WellFormed) : v.options ≠ [] := by
  cases h with
  | any hlength _ _ _ => exact List.ne_nil_of_length_pos (Nat.zero_lt_of_lt hlength)
  | _ => exact List.cons_ne_nil _ _

theorem WellFormed.isAny_of_mem_options {v : Value} (h : v.WellFormed) :
    ∀ x ∈ v.options, x.isAny = false := by
  cases h with
  | any _ _ hflat _ => exact hflat
  | _ => simp [Value.options, isAny]

end Value

end ApiProbe
