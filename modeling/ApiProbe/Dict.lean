/-!
Dictionaries: values by name, in the order in which the names were first set.
-/
namespace ApiProbe

abbrev Dict (α : Type) := List (String × α)

namespace Dict

variable {α : Type}

def get? (name : String) : Dict α → Option α
  | [] => none
  | (n, value) :: dict => if n == name then some value else get? name dict

/-- Sets a name: one that is there already keeps its place. -/
def set (name : String) (value : α) : Dict α → Dict α
  | [] => [(name, value)]
  | (n, old) :: dict => if n == name then (n, value) :: dict else (n, old) :: set name value dict

/-- The values of one dictionary, and those of another one over them. -/
def merge (dict others : Dict α) : Dict α :=
  others.foldl (fun done entry => set entry.1 entry.2 done) dict

/-- Sets a name that is not there yet. -/
def setNew (name : String) (value : α) (dict : Dict α) : Dict α :=
  if (get? name dict).isSome then dict else set name value dict

def erase (name : String) (dict : Dict α) : Dict α :=
  dict.filter fun entry => entry.1 != name

end Dict

end ApiProbe
