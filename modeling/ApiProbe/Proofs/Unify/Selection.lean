import ApiProbe.Language
import ApiProbe.Proofs.Unify.Parts

/-!
# Selecting from a common value

What is selected from the common value of two structs or lists is the common value of what is selected
from both of them.
-/

namespace ApiProbe.Expr

open Value (itemAt? lookup? unify)

/-- There is no field of that label. -/
def undefined (label : String) : Result Value :=
  .error (.refused (.unknownField label))

section Common

variable {r : Value}

end Common

end ApiProbe.Expr
