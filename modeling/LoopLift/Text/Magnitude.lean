/-!
# Magnitude of decimal numbers

Decides whether a decimal number is small enough for a floating-point number of
64 bits, without computing with one.
-/

namespace LoopLift.Text

/-- The natural number that decimal digits stand for. -/
def natOfDigits (digits : List Char) : Nat :=
  digits.foldl (fun value digit => value * 10 + (digit.toNat - '0'.toNat)) 0

/-- Whether `mantissa` times ten to the power `exponent` rounds to a finite
number. -/
def isFinite (mantissa : Nat) (exponent : Int) : Bool :=
  let size := (Nat.toDigits 10 mantissa).length
  if mantissa = 0 ∨ exponent + size < 300 then true
  else if exponent + size > 320 then false
  else
    let limit := Nat.pow 2 1024 - Nat.pow 2 970
    mantissa * Nat.pow 10 exponent.toNat < limit * Nat.pow 10 (-exponent).toNat

/-- Whether a written number rounds to a finite number. Its parts are digits, a
point, and an exponent behind an `e`. -/
def isFiniteDecimal (written : List Char) : Bool :=
  let (mantissa, power) := written.span fun char => char != 'e' && char != 'E'
  let fraction := (mantissa.dropWhile (· != '.')).filter Char.isDigit
  let size := natOfDigits (power.filter Char.isDigit)
  let power : Int := if power.contains '-' then -size else size
  isFinite (natOfDigits (mantissa.filter Char.isDigit)) (power - fraction.length)

end LoopLift.Text
