import ApiProbe.Fault

/-!
The history of a run: the latest values, the newest first. What goes beyond the capacity is dropped at
the old end.
-/
namespace ApiProbe

structure History (α : Type) where
  capacity : Nat
  values : List α := []

namespace History

/-- How many values a run keeps. -/
def standardCapacity : Nat := 10

def ofCapacity {α : Type} (capacity : Int) : Except Fault (History α) :=
  if capacity < 1 then .error (.invalid "history capacity must be positive")
  else .ok { capacity := capacity.toNat }

variable {α : Type}

def push (h : History α) (value : α) : History α :=
  { h with values := (value :: h.values).take h.capacity }

def newest? (h : History α) : Option α :=
  h.values.head?

def size (h : History α) : Nat :=
  h.values.length

/-- The value at an index, counted from the newest one, or from the oldest one if negative. -/
def get (h : History α) (index : Int) : Except Fault α :=
  let place := if index < 0 then index + h.values.length else index
  if place < 0 then .error .indexOutOfRange
  else
    match h.values[place.toNat]? with
    | some value => .ok value
    | none => .error .indexOutOfRange

end History

end ApiProbe
