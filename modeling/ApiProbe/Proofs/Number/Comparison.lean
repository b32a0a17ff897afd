import Mathlib.Algebra.Order.Field.Power
import Mathlib.Algebra.Order.Ring.Rat
import Mathlib.Data.Rat.Cast.Order
import Mathlib.Order.WithBot
import Mathlib.Tactic.Linarith
import Mathlib.Tactic.Positivity
import ApiProbe.Value.Atom

/-!
# The order of numbers

Numbers of both kinds are compared on a common grid of powers of two. What that decides is the order
of their exact values, with one value below and one above all others for the infinities. Equality and
order of atoms are read off these magnitudes, so that each of their laws is a law of one linear order.
-/

namespace ApiProbe

/-- Two comparisons agree if they agree on what is less and on what is equal. -/
theorem compare_eq_compare {α β : Type} [LinearOrder α] [LinearOrder β] {a b : α} {c d : β}
    (hlt : a < b ↔ c < d) (heq : a = b ↔ c = d) : compare a b = compare c d := by
  rcases lt_trichotomy a b with h | h | h
  · rw [compare_lt_iff_lt.mpr h, compare_lt_iff_lt.mpr (hlt.mp h)]
  · rw [compare_eq_iff_eq.mpr h, compare_eq_iff_eq.mpr (heq.mp h)]
  · have hcd : d < c := by
      refine lt_of_le_of_ne (not_lt.mp fun hlt' => (hlt.mpr hlt').asymm h) fun heq' => ?_
      exact h.ne' (heq.mpr heq'.symm)
    rw [compare_gt_iff_gt.mpr h, compare_gt_iff_gt.mpr hcd]

theorem swap_compare {α : Type} [LinearOrder α] (a b : α) : (compare a b).swap = compare b a := by
  rcases lt_trichotomy a b with h | h | h
  · rw [compare_lt_iff_lt.mpr h, compare_gt_iff_gt.mpr h, Ordering.swap]
  · rw [compare_eq_iff_eq.mpr h, compare_eq_iff_eq.mpr h.symm, Ordering.swap]
  · rw [compare_gt_iff_gt.mpr h, compare_lt_iff_lt.mpr h, Ordering.swap]

/-- What numbers are ordered by: the rational numbers between two infinities. -/
abbrev Magnitude := WithBot (WithTop ℚ)

namespace Magnitude

def ofRat (q : ℚ) : Magnitude := ((q : WithTop ℚ) : WithBot (WithTop ℚ))

@[simp]
theorem ofRat_lt_ofRat {p q : ℚ} : ofRat p < ofRat q ↔ p < q := by
  simp [ofRat]

@[simp]
theorem ofRat_inj {p q : ℚ} : ofRat p = ofRat q ↔ p = q := by
  simp [ofRat]

theorem compare_ofRat (p q : ℚ) : compare (ofRat p) (ofRat q) = compare p q :=
  compare_eq_compare ofRat_lt_ofRat ofRat_inj

theorem compare_bot {m : Magnitude} (h : m ≠ ⊥) : compare ⊥ m = .lt :=
  compare_lt_iff_lt.mpr (bot_lt_iff_ne_bot.mpr h)

theorem compare_top {m : Magnitude} (h : m ≠ ⊤) : compare ⊤ m = .gt :=
  compare_gt_iff_gt.mpr (lt_top_iff_ne_top.mpr h)

theorem ofRat_ne_bot (q : ℚ) : ofRat q ≠ ⊥ := WithBot.coe_ne_bot

theorem ofRat_ne_top (q : ℚ) : ofRat q ≠ ⊤ := fun h => by
  have : ((q : WithTop ℚ)) = ⊤ := WithBot.coe_injective h
  exact WithTop.coe_ne_top this

end Magnitude

namespace Binary64

def exact (negative : Bool) (mantissa : Nat) (exponent : Int) : ℚ :=
  (signed negative mantissa : ℚ) * 2 ^ exponent

theorem units_mul_two_zpow (negative : Bool) (mantissa : Nat) {exponent unit : Int}
    (hunit : unit ≤ exponent) :
    (units negative mantissa exponent unit : ℚ) * 2 ^ unit = exact negative mantissa exponent := by
  have hsigned : (units negative mantissa exponent unit : ℚ)
      = signed negative mantissa * 2 ^ (exponent - unit).toNat := by
    cases negative <;> simp [units, signed]
  have hpower : (2 : ℚ) ^ (exponent - unit).toNat = 2 ^ (exponent - unit) := by
    rw [← zpow_natCast, Int.toNat_of_nonneg (by omega)]
  rw [hsigned, hpower, exact, mul_assoc, ← zpow_add₀ (by norm_num), Int.sub_add_cancel]

theorem compare_units (s t : Bool) (m n : Nat) {e f unit : Int} (he : unit ≤ e) (hf : unit ≤ f) :
    compare (units s m e unit) (units t n f unit) = compare (exact s m e) (exact t n f) := by
  have hpos : (0 : ℚ) < 2 ^ unit := by positivity
  rw [← units_mul_two_zpow s m he, ← units_mul_two_zpow t n hf]
  refine compare_eq_compare ?_ ?_
  · rw [mul_lt_mul_iff_left₀ hpos, Int.cast_lt]
  · rw [mul_left_inj' hpos.ne', Int.cast_inj]

/-- The magnitude of a number; a NaN has none. -/
def magnitude? : Binary64 → Option Magnitude
  | .finite negative mantissa exponent => some (.ofRat (exact negative mantissa exponent))
  | .infinite negative => some (if negative then ⊥ else ⊤)
  | .nan => none

/-- Two numbers are compared by their magnitudes. -/
theorem compare?_eq (x y : Binary64) :
    x.compare? y = x.magnitude?.bind fun a => y.magnitude?.map fun b => compare a b := by
  cases x with
  | nan => cases y <;> rfl
  | infinite s =>
      cases y with
      | nan => cases s <;> rfl
      | infinite t =>
          cases s <;> cases t <;>
            simp [compare?, magnitude?, Magnitude.compare_bot, Magnitude.compare_top]
      | finite t n f =>
          cases s <;>
            simp [compare?, magnitude?, Magnitude.compare_bot, Magnitude.compare_top,
              Magnitude.ofRat_ne_bot, Magnitude.ofRat_ne_top]
  | finite s m e =>
      cases y with
      | nan => rfl
      | infinite t =>
          simp only [compare?, magnitude?, Option.bind_some, Option.map_some]
          rw [← swap_compare]
          cases t <;>
            simp [Magnitude.compare_bot, Magnitude.compare_top, Magnitude.ofRat_ne_bot,
              Magnitude.ofRat_ne_top]
      | finite t n f =>
          simp only [compare?, magnitude?, Option.bind_some, Option.map_some]
          rw [compare_units s t m n (min_le_left e f) (min_le_right e f), Magnitude.compare_ofRat]

theorem signed_natAbs (n : Int) : signed (n < 0) n.natAbs = n := by
  by_cases h : n < 0
  · simp only [signed, h, decide_true, if_true]
    omega
  · simp only [signed, h, decide_false, Bool.false_eq_true, if_false]
    omega

theorem exact_natAbs (n : Int) : exact (n < 0) n.natAbs 0 = n := by
  rw [exact, signed_natAbs, zpow_zero, mul_one]

/-- A whole number is compared with a number by their magnitudes. -/
theorem compareInt?_eq (n : Int) (x : Binary64) :
    compareInt? n x = x.magnitude?.map fun b => compare (Magnitude.ofRat n) b := by
  cases x with
  | nan => rfl
  | infinite s =>
      simp only [compareInt?, magnitude?, Option.map_some]
      rw [← swap_compare]
      cases s <;>
        simp [Magnitude.compare_bot, Magnitude.compare_top, Magnitude.ofRat_ne_bot,
          Magnitude.ofRat_ne_top]
  | finite s m e =>
      simp only [compareInt?, magnitude?, Option.map_some]
      rw [compare_units _ s n.natAbs m (min_le_right e 0) (min_le_left e 0), exact_natAbs,
        Magnitude.compare_ofRat]

section AtMost

/-- The first number is not above the second one. -/
def AtMost (x y : Binary64) : Prop :=
  x.compare? y = some .lt ∨ x.compare? y = some .eq

variable {x y z : Binary64}

theorem atMost_iff :
    x.AtMost y ↔ ∃ a b, x.magnitude? = some a ∧ y.magnitude? = some b ∧ a ≤ b := by
  rw [AtMost, compare?_eq]
  cases x.magnitude? with
  | none => simp
  | some a =>
      cases y.magnitude? with
      | none => simp
      | some b => simp [compare_lt_iff_lt, le_iff_lt_or_eq]

theorem atMost_iff_swap : x.AtMost y ↔ y.compare? x = some .gt ∨ y.compare? x = some .eq := by
  rw [AtMost, compare?_eq, compare?_eq]
  cases x.magnitude? with
  | none => cases y.magnitude? <;> simp
  | some a =>
      cases y.magnitude? with
      | none => simp
      | some b =>
          simp only [Option.bind_some, Option.map_some, Option.some.injEq]
          rw [← swap_compare a b]
          cases compare a b <;> simp

theorem AtMost.trans (hxy : x.AtMost y) (hyz : y.AtMost z) : x.AtMost z := by
  obtain ⟨a, b, ha, hb, hab⟩ := atMost_iff.mp hxy
  obtain ⟨b', c, hb', hc, hbc⟩ := atMost_iff.mp hyz
  obtain rfl := Option.some.inj (hb.symm.trans hb')
  exact atMost_iff.mpr ⟨a, c, ha, hc, hab.trans hbc⟩

theorem exists_magnitude?_eq (h : x ≠ .nan) : ∃ a, x.magnitude? = some a := by
  cases x with
  | nan => exact absurd rfl h
  | infinite negative => exact ⟨_, rfl⟩
  | finite negative mantissa exponent => exact ⟨_, rfl⟩

/-- Of two numbers the first is above the second one or at most the second one. -/
theorem atMost_of_ne_gt (hx : x ≠ .nan) (hy : y ≠ .nan) (h : x.compare? y ≠ some .gt) :
    x.AtMost y := by
  obtain ⟨a, ha⟩ := exists_magnitude?_eq hx
  obtain ⟨b, hb⟩ := exists_magnitude?_eq hy
  refine atMost_iff.mpr ⟨a, b, ha, hb, not_lt.mp fun hlt => h ?_⟩
  rw [compare?_eq, ha, hb]
  exact congrArg some (compare_gt_iff_gt.mpr hlt)

end AtMost

end Binary64

namespace Atom

/-- The magnitude of a number; a NaN has none, and neither has any other atom. -/
def magnitude? : Atom → Option Magnitude
  | .int n => some (.ofRat n)
  | .float x => x.magnitude?
  | _ => none

theorem compare?_eq_of_isNumber {a b : Atom} (ha : a.isNumber = true) (hb : b.isNumber = true) :
    a.compare? b = a.magnitude?.bind fun x => b.magnitude?.map fun y => compare x y := by
  cases a with
  | null | bool | string => simp [isNumber] at ha
  | int m =>
      cases b with
      | null | bool | string => simp [isNumber] at hb
      | int n =>
          simp only [compare?, magnitude?, Option.bind_some, Option.map_some]
          rw [Magnitude.compare_ofRat]
          exact congrArg some (compare_eq_compare (by simp) (by simp))
      | float y => simp [compare?, magnitude?, Binary64.compareInt?_eq]
  | float x =>
      cases b with
      | null | bool | string => simp [isNumber] at hb
      | int n =>
          simp only [compare?, magnitude?, Binary64.compareInt?_eq, Option.map_map]
          cases x.magnitude? with
          | none => rfl
          | some a => exact congrArg some (swap_compare ..)
      | float y => exact Binary64.compare?_eq x y

theorem float_same_iff {x y : Binary64} :
    (Atom.float x).same (.float y) = true ↔ ∃ m, x.magnitude? = some m ∧ y.magnitude? = some m := by
  rw [same, Binary64.same, Binary64.compare?_eq]
  cases x.magnitude? with
  | none => simp
  | some a =>
      cases y.magnitude? with
      | none => simp
      | some b =>
          simp only [Option.bind_some, Option.map_some, beq_iff_eq, Option.some.injEq,
            compare_eq_iff_eq]
          exact ⟨fun h => ⟨a, rfl, h.symm⟩, fun ⟨_, ha, hb⟩ => ha.trans hb.symm⟩

/-- Atoms that are the same are equal, or floats of one magnitude. -/
theorem same_iff {a b : Atom} :
    a.same b = true ↔ (a = b ∧ ∀ x, a ≠ .float x) ∨
      ∃ x y m, a = .float x ∧ b = .float y ∧ x.magnitude? = some m ∧ y.magnitude? = some m := by
  cases a <;> cases b <;> simp [float_same_iff] <;> simp [same]

theorem same_symm {a b : Atom} (h : a.same b = true) : b.same a = true := by
  rw [same_iff] at h ⊢
  rcases h with ⟨rfl, hfloat⟩ | ⟨x, y, m, rfl, rfl, hx, hy⟩
  · exact Or.inl ⟨rfl, hfloat⟩
  · exact Or.inr ⟨y, x, m, rfl, rfl, hy, hx⟩

theorem same_trans {a b c : Atom} (hab : a.same b = true) (hbc : b.same c = true) :
    a.same c = true := by
  rw [same_iff] at hab
  rcases hab with ⟨rfl, _⟩ | ⟨x, y, m, rfl, rfl, hx, hy⟩
  · exact hbc
  · rw [same_iff] at hbc
    rcases hbc with ⟨_, hfloat⟩ | ⟨y', z, n, hy', rfl, hyn, hz⟩
    · exact absurd rfl (hfloat y)
    · obtain rfl : y = y' := Atom.float.inj hy'
      obtain rfl : m = n := Option.some.inj (hy.symm.trans hyn)
      exact float_same_iff.mpr ⟨m, hx, hz⟩

theorem same_congr_left {a b : Atom} (h : a.same b = true) (c : Atom) : a.same c = b.same c :=
  Bool.eq_iff_iff.mpr ⟨same_trans (same_symm h), same_trans h⟩

theorem same_congr_right {a b : Atom} (h : a.same b = true) (c : Atom) : c.same a = c.same b :=
  Bool.eq_iff_iff.mpr ⟨fun hc => same_trans hc h, fun hc => same_trans hc (same_symm h)⟩

theorem kind_eq_of_same {a b : Atom} (h : a.same b = true) : a.kind = b.kind := by
  rcases same_iff.mp h with ⟨rfl, _⟩ | ⟨x, y, m, rfl, rfl, _, _⟩ <;> rfl

theorem isNumber_eq_of_same {a b : Atom} (h : a.same b = true) : a.isNumber = b.isNumber := by
  rcases same_iff.mp h with ⟨rfl, _⟩ | ⟨x, y, m, rfl, rfl, _, _⟩ <;> rfl

/-- Atoms that are the same have the same order to all others. -/
theorem compare?_congr_left {a b : Atom} (h : a.same b = true) (c : Atom) :
    a.compare? c = b.compare? c := by
  rcases same_iff.mp h with ⟨rfl, _⟩ | ⟨x, y, m, rfl, rfl, hx, hy⟩
  · rfl
  · by_cases hc : c.isNumber = true
    · rw [compare?_eq_of_isNumber rfl hc, compare?_eq_of_isNumber rfl hc]
      simp only [magnitude?, hx, hy]
    · cases c <;> simp [isNumber] at hc <;> rfl

theorem compare?_congr_right {a b : Atom} (h : a.same b = true) (c : Atom) :
    c.compare? a = c.compare? b := by
  rcases same_iff.mp h with ⟨rfl, _⟩ | ⟨x, y, m, rfl, rfl, hx, hy⟩
  · rfl
  · by_cases hc : c.isNumber = true
    · rw [compare?_eq_of_isNumber hc rfl, compare?_eq_of_isNumber hc rfl]
      simp only [magnitude?, hx, hy]
    · cases c <;> simp [isNumber] at hc <;> rfl

end Atom

end ApiProbe
