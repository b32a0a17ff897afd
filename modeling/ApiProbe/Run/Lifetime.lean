import ApiProbe.Number.Binary64
import ApiProbe.Problem

/-!
The lifetime of a run: it ends when it is cancelled or when its deadline is reached. Times are in
seconds on a clock that only goes forward.
-/
namespace ApiProbe

structure Lifetime where
  cancelReason : Option String := none
  deadline : Option Binary64 := none

namespace Lifetime

/-- A lifetime that starts now and may have a limit. -/
def start (now : Binary64) (limit : Option Binary64) : Lifetime :=
  { deadline := limit.map now.add }

/-- Cancels the run; the last reason counts. -/
def cancel (l : Lifetime) (reason : String) : Lifetime :=
  { l with cancelReason := some reason }

/-- The reason of a cancellation that comes with none. -/
def standardReason : String := "run cancelled"

def expired (l : Lifetime) (now : Binary64) : Bool :=
  match l.deadline with
  | none => false
  | some deadline => now.compare? deadline == some .gt || now.compare? deadline == some .eq

def ended (l : Lifetime) (now : Binary64) : Bool :=
  l.cancelReason.isSome || l.expired now

/-- The time up to the deadline, never below zero. -/
def remaining (l : Lifetime) (now : Binary64) : Option Binary64 :=
  l.deadline.map fun deadline =>
    let left := deadline.sub now
    if left.compare? (.zero false) == some .gt then left else .zero false

/-- The problem that the end of the lifetime is, if it has ended. -/
def problem? (l : Lifetime) (now : Binary64) : Option Problem :=
  match l.cancelReason with
  | some reason => some (.cancelled reason)
  | none => if l.expired now then some (.cancelled "deadline exceeded") else none

end Lifetime

end ApiProbe
