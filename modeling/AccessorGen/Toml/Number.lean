import AccessorGen.Text.Decimal
import AccessorGen.Toml.Layout
import AccessorGen.Toml.Value

/-!
# Numbers

Integers are signed 64-bit numbers in base ten, or without a sign in base two, eight or sixteen. A number with a
fraction or an exponent has to stay below the largest 64-bit floating-point number, rounding included; only the
positive side is bounded. Single underscores may stand between digits.
-/

namespace AccessorGen.Toml

open Text

/-- The digits at the start of a text that follow a digit; an underscore goes with the digit after it. -/
def moreDigits (isDigit : Char → Bool) : List Char → List Char × List Char
  | [] => ([], [])
  | '_' :: c :: s =>
    if isDigit c then let (ds, rest) := moreDigits isDigit s; (c :: ds, rest) else ([], '_' :: c :: s)
  | c :: s =>
    if isDigit c then let (ds, rest) := moreDigits isDigit s; (c :: ds, rest) else ([], c :: s)

/-- One digit or more, without the underscores between them. -/
def digits (isDigit : Char → Bool) : Reader (List Char)
  | c :: s => if isDigit c then let (ds, rest) := moreDigits isDigit s; some (c :: ds, rest) else none
  | [] => none

/-- A sign that may be left out; whether it is a minus. -/
def optionalSign : List Char → Bool × List Char
  | '-' :: s => (true, s)
  | '+' :: s => (false, s)
  | s => (false, s)

/-- A whole number in base ten: a sign and digits without a leading zero. -/
def wholeNumber (s : List Char) : Option ((Bool × List Char) × List Char) := do
  let (negative, s) := optionalSign s
  match s with
  | '0' :: s => some ((negative, ['0']), s)
  | s =>
    let (ds, s) ← digits Char.isDigit s
    some ((negative, ds), s)

/-- An exponent after its letter. -/
def exponent (s : List Char) : Option (Int × List Char) := do
  let (negative, s) := optionalSign s
  let (ds, s) ← digits Char.isDigit s
  some (if negative then -(value ds : Int) else value ds, s)

/-- An exponent, or zero if there is none. -/
def optionalExponent : List Char → Option (Int × List Char)
  | 'e' :: s | 'E' :: s => exponent s
  | s => some (0, s)

/-- The least number that rounds to infinity as a 64-bit floating-point number. -/
def overflowBound : Nat :=
  Nat.pow 2 1024 - Nat.pow 2 970

/-- A mantissa times a power of ten rounds to infinity. The number of digits in front of the decimal point settles
all cases but one, so no huge power is computed. -/
def overflows (mantissa : Nat) (exponent : Int) : Bool :=
  let order := (decimal mantissa).length + exponent
  if mantissa = 0 ∨ order < 309 then false
  else if 309 < order then true
  else overflowBound * Nat.pow 10 (-exponent).toNat ≤ mantissa * Nat.pow 10 exponent.toNat

/-- A number with a fraction, an exponent or both. -/
def finiteReal (s : List Char) : Option (Real × List Char) := do
  let ((negative, whole), s) ← wholeNumber s
  let (fraction, e, s) ← match s with
    | '.' :: s => do
      let (fraction, s) ← digits Char.isDigit s
      let (e, s) ← optionalExponent s
      some (fraction, e, s)
    | 'e' :: s | 'E' :: s => do
      let (e, s) ← exponent s
      some ([], e, s)
    | _ => none
  let mantissa := value (whole ++ fraction)
  let e := e - fraction.length
  if !negative && overflows mantissa e then none else some (.finite negative mantissa e, s)

/-- The words for infinity and for what is not a number. -/
def specialReal (s : List Char) : Option (Real × List Char) :=
  let (negative, s) := optionalSign s
  match expectWord "inf".toList s with
  | some s => some (.infinity negative, s)
  | none => (expectWord "nan".toList s).map fun s => (.notANumber, s)

/-- The digits of base sixteen. -/
def isHexDigit (c : Char) : Bool :=
  c.isDigit || ('a' ≤ c && c ≤ 'f') || ('A' ≤ c && c ≤ 'F')

/-- The value of a digit of base sixteen. -/
def hexDigitValue (c : Char) : Nat :=
  if c.isDigit then c.toNat - '0'.toNat
  else if 'a' ≤ c then c.toNat - 'a'.toNat + 10
  else c.toNat - 'A'.toNat + 10

/-- The value of a run of digits in a base up to sixteen. -/
def valueInBase (base : Nat) (ds : List Char) : Nat :=
  ds.foldl (fun n c => base * n + hexDigitValue c) 0

/-- A number that fits a signed 64-bit word. -/
def fitWord (n : Int) : Option Int :=
  if Int64.minValue.toInt ≤ n ∧ n ≤ Int64.maxValue.toInt then some n else none

/-- An integer in base sixteen, eight or two after its mark, else in base ten. -/
def integer (s : List Char) : Option (Int × List Char) := do
  match s with
  | '0' :: 'x' :: s =>
    let (ds, s) ← digits isHexDigit s
    return (← fitWord (valueInBase 16 ds), s)
  | '0' :: 'o' :: s =>
    let (ds, s) ← digits (fun c => '0' ≤ c && c ≤ '7') s
    return (← fitWord (valueInBase 8 ds), s)
  | '0' :: 'b' :: s =>
    let (ds, s) ← digits (fun c => c == '0' || c == '1') s
    return (← fitWord (valueInBase 2 ds), s)
  | s =>
    let ((negative, ds), s) ← wholeNumber s
    return (← fitWord (if negative then -(value ds : Int) else value ds), s)

/-- Any number. -/
def number (s : List Char) : Option (Value × List Char) :=
  match finiteReal s <|> specialReal s with
  | some (x, s) => some (.real x, s)
  | none => (integer s).map fun (n, s) => (.integer n, s)

end AccessorGen.Toml
