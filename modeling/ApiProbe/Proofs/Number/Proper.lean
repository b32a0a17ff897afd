import ApiProbe.Number.Binary64

/-!
# Proper numbers

The finite numbers of the format, each in the one form that it has: a mantissa of 53 bits, or a
smaller one at the least exponent. Every operation that yields a finite number yields a proper one.
-/

namespace ApiProbe.Binary64

/-- A finite number of the format, in its own form. -/
def IsProper : Binary64 → Prop
  | .finite _ mantissa exponent =>
    mantissa < mantissaBound ∧ minExponent ≤ exponent ∧ exponent ≤ maxExponent ∧
      (twoTo 52 ≤ mantissa ∨ exponent = minExponent)
  | _ => False

instance (x : Binary64) : Decidable x.IsProper := by
  cases x <;> unfold IsProper <;> infer_instance

/-- A number is proper if it is finite. -/
def InFormat (x : Binary64) : Prop :=
  x.isFinite = true → x.IsProper

theorem zero_isProper (negative : Bool) : (zero negative).IsProper := by
  cases negative <;> decide

theorem IsProper.ne_nan {x : Binary64} (h : x.IsProper) : x ≠ .nan := by
  rintro rfl
  exact h

end ApiProbe.Binary64
