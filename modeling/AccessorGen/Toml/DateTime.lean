import AccessorGen.Text.Decimal
import AccessorGen.Toml.Layout
import AccessorGen.Toml.Value

/-!
# Dates and times

Dates are those of the Gregorian calendar, times may have a second 60, and an offset from UTC may follow a date
with a time.
-/

namespace AccessorGen.Toml

open Text

/-- A number of exactly `n` digits between two bounds. -/
def fixedNumber (n low high : Nat) (s : List Char) : Option (Nat × List Char) :=
  let ds := s.take n
  if ds.length = n ∧ ds.all Char.isDigit ∧ low ≤ value ds ∧ value ds ≤ high then some (value ds, s.drop n)
  else none

/-- The number of days of a month. -/
def daysInMonth (year month : Nat) : Nat :=
  if month = 2 then (if year % 4 = 0 ∧ (year % 100 ≠ 0 ∨ year % 400 = 0) then 29 else 28)
  else if month = 4 ∨ month = 6 ∨ month = 9 ∨ month = 11 then 30
  else 31

/-- A date. -/
def date (s : List Char) : Option (Date × List Char) := do
  let (year, s) ← fixedNumber 4 0 9999 s
  let s ← expect '-' s
  let (month, s) ← fixedNumber 2 1 12 s
  let s ← expect '-' s
  let (day, s) ← fixedNumber 2 1 (daysInMonth year month) s
  some (⟨year, month, day⟩, s)

/-- A decimal point with digits, if there is a point. -/
def secondFraction : List Char → Option (List Char × List Char)
  | '.' :: s =>
    match s.takeWhile Char.isDigit with
    | [] => none
    | ds => some (ds, s.dropWhile Char.isDigit)
  | s => some ([], s)

/-- A time of day. -/
def time (s : List Char) : Option (Time × List Char) := do
  let (hour, s) ← fixedNumber 2 0 23 s
  let s ← expect ':' s
  let (minute, s) ← fixedNumber 2 0 59 s
  let s ← expect ':' s
  let (second, s) ← fixedNumber 2 0 60 s
  let (fraction, s) ← secondFraction s
  some (⟨hour, minute, second, fraction⟩, s)

/-- Hours and minutes, as minutes. -/
def minutes (s : List Char) : Option (Nat × List Char) := do
  let (hour, s) ← fixedNumber 2 0 23 s
  let s ← expect ':' s
  let (minute, s) ← fixedNumber 2 0 59 s
  some (60 * hour + minute, s)

/-- An offset from UTC, if there is one. -/
def offset : List Char → Option (Option Int × List Char)
  | 'Z' :: s | 'z' :: s => some (some 0, s)
  | '+' :: s => (minutes s).map fun (n, s) => (some (n : Int), s)
  | '-' :: s => (minutes s).map fun (n, s) => (some (-(n : Int)), s)
  | s => some (none, s)

/-- What may follow a date: a `T` or a blank, and a time. -/
def timeAfterDate : List Char → Option ((Time × Option Int) × List Char)
  | 'T' :: s | 't' :: s | ' ' :: s => do
    let (t, s) ← time s
    let (o, s) ← offset s
    some ((t, o), s)
  | _ => none

/-- A date, a time, or both. -/
def dateTime (s : List Char) : Option (DateTime × List Char) :=
  match date s with
  | some (d, s) =>
    match timeAfterDate s with
    | some ((t, o), s) => some (⟨some d, some t, o⟩, s)
    | none => some (⟨some d, none, none⟩, s)
  | none => (time s).map fun (t, s) => (⟨none, some t, none⟩, s)

end AccessorGen.Toml
