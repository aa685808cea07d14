import WebTestLint.Decimal.Binary64

/-!
The shortest decimal that rounds to a given magnitude, and of several the nearest one. Digit by digit
the magnitude's two neighbours on the decimal grid are tried; seventeen digits always suffice.
-/

namespace WebTestLint

structure Decimal where
  digits : Nat
  exponent : Int
deriving DecidableEq, Repr

namespace Decimal

def digitCount (number : Nat) : Nat := (Nat.toDigits 10 number).length

def leadingExponent (units : Nat) : Int :=
  if Binary64.one ≤ units then digitCount (units / Binary64.one) - 1
  else -digitCount ((Binary64.one - 1) / units)

/-- Compares a decimal with a quarter of a count of units. -/
def compareQuarters (decimal : Decimal) (quarters : Nat) : Ordering :=
  compare (decimal.digits * Nat.pow 10 decimal.exponent.toNat * (4 * Binary64.one))
    (quarters * Nat.pow 10 (-decimal.exponent).toNat)

/-- Whether a decimal is among the numbers that round to a magnitude: those no further away than half
the gap on either side, where a number halfway rounds to the even magnitude. -/
def roundsTo (decimal : Decimal) (units : Nat) : Bool :=
  let step := Nat.pow 2 (Binary64.gap units)
  let below := if step * Nat.pow 2 52 = units && 1 < step then step else 2 * step
  let least := compareQuarters decimal (4 * units - below)
  let greatest := compareQuarters decimal (4 * units + 2 * step)
  if units / step % 2 = 0 then least != .lt && greatest != .gt else least == .gt && greatest == .lt

def floor (units : Nat) (exponent : Int) : Decimal :=
  ⟨units * Nat.pow 10 (-exponent).toNat / (Binary64.one * Nat.pow 10 exponent.toNat), exponent⟩

/-- The neighbour of a magnitude on a decimal grid that rounds to it: the nearer one if both do, and
halfway the even one. -/
def neighbour? (units : Nat) (exponent : Int) : Option Decimal :=
  let low := floor units exponent
  let high : Decimal := ⟨low.digits + 1, exponent⟩
  match low.roundsTo units, high.roundsTo units with
  | true, true =>
    match compareQuarters ⟨low.digits + high.digits, exponent⟩ (8 * units) with
    | .gt => some low
    | .lt => some high
    | .eq => some (if low.digits % 2 = 0 then low else high)
  | true, false => some low
  | false, true => some high
  | false, false => none

def strip : Nat → Decimal → Decimal
  | 0, decimal => decimal
  | fuel + 1, decimal =>
    if decimal.digits % 10 = 0 then strip fuel ⟨decimal.digits / 10, decimal.exponent + 1⟩
    else decimal

def shortest (units : Nat) : Decimal :=
  let leading := leadingExponent units
  let found := (List.range 17).findSome? fun (further : Nat) => neighbour? units (leading - further)
  strip 17 (found.getD (floor units (leading - 16)))

end Decimal

end WebTestLint
