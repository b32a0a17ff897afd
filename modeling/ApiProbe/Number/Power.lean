/-!
Powers of the two bases in which numbers are computed and written.
-/
namespace ApiProbe

abbrev twoTo (n : Nat) : Nat := Nat.pow 2 n

abbrev tenTo (n : Nat) : Nat := Nat.pow 10 n

end ApiProbe
