/-!
# Sizes in kilobytes

A kilobyte has 1024 bytes, so a size has at most ten decimals and can be written
exactly.
-/

namespace LoopLift.Text

/-- A natural number with leading zeros up to a width. -/
def zeroPadded (width value : Nat) : String :=
  let digits := Nat.toDigits 10 value
  String.ofList (List.replicate (width - digits.length) '0' ++ digits)

/-- Zeros at the end of decimals do not count, except for the first decimal. -/
def withoutFinalZeros (decimals : List Char) : List Char :=
  match (decimals.reverse.dropWhile (· == '0')).reverse with
  | [] => ['0']
  | kept => kept

/-- Number of units of the tenth decimal in one byte. -/
def tenthDecimals : Nat := 9765625

/-- A number of bytes in kilobytes, with all decimals and at least one. -/
def exactKilobytes (bytes : Nat) : String :=
  let units := bytes * tenthDecimals
  let decimals := zeroPadded 10 (units % Nat.pow 10 10)
  toString (units / Nat.pow 10 10) ++ "." ++ String.ofList (withoutFinalZeros decimals.toList)

/-- A number of bytes in hundredths of a kilobyte. A half goes to the even
neighbour. -/
def hundredths (bytes : Nat) : Nat :=
  let whole := bytes * 100 / 1024
  let rest := bytes * 100 % 1024
  if 512 < rest ∨ (rest = 512 ∧ whole % 2 = 1) then whole + 1 else whole

/-- A number of bytes in kilobytes, with two decimals. -/
def roundedKilobytes (bytes : Nat) : String :=
  toString (hundredths bytes / 100) ++ "." ++ zeroPadded 2 (hundredths bytes % 100)

end LoopLift.Text
