/-!
# Decimal numbers

Numbers are written in base ten without leading zeros and read from any run of digits; reading undoes writing
(`value_decimal`).
-/

namespace AccessorGen.Text

/-- The decimal digits of a number, without leading zeros. -/
def decimal (n : Nat) : List Char :=
  Nat.toDigits 10 n

/-- The number that a run of decimal digits denotes, leading zeros allowed. -/
def value (digits : List Char) : Nat :=
  Nat.ofDigitChars 10 digits 0

/-- Reading undoes writing. -/
@[simp] theorem value_decimal (n : Nat) : value (decimal n) = n :=
  Nat.ofDigitChars_toDigits (by decide) (by decide)

end AccessorGen.Text
