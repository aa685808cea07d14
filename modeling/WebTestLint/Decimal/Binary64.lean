/-!
Numbers of double precision, held exactly: a magnitude is a count of units of 2⁻¹⁰⁷⁴, the least
positive number of the format. Results are rounded to 53 significant bits, and halfway cases go to the
even neighbour.
-/

namespace WebTestLint

structure Binary64 where
  negative : Bool
  units : Nat
deriving DecidableEq, Repr

namespace Binary64

def one : Nat := Nat.pow 2 1074

def limit : Nat := Nat.pow 2 1024 * one

def roundDiv (numerator denominator : Nat) : Nat :=
  let floor := numerator / denominator
  let twice := 2 * (numerator % denominator)
  if denominator < twice || (twice == denominator && floor % 2 == 1) then floor + 1 else floor

def gap (units : Nat) : Nat := units.log2 - 52

def round (numerator denominator : Nat) : Nat :=
  let step := Nat.pow 2 (gap (numerator / denominator))
  roundDiv numerator (denominator * step) * step

def ofNat (number : Nat) : Nat := round (number * one) 1

def mul (first second : Nat) : Nat := round (first * second) one

def div (first second : Nat) : Nat := round (first * one) second

def powerOfTen (exponent : Nat) : Nat := ofNat (Nat.pow 10 exponent)

end Binary64

end WebTestLint
