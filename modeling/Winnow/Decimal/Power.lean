/-!
# Powers of two and ten

The powers that binary and decimal numbers are counted in, as natural numbers.
-/

namespace Winnow

abbrev twoTo (n : Nat) : Nat := Nat.pow 2 n

abbrev tenTo (n : Nat) : Nat := Nat.pow 10 n

end Winnow
