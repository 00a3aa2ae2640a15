/-!
# Blank characters

A character is blank when it has the Unicode property `White_Space`. Trimming drops blanks at the ends of a
text, and a text is blank when nothing is left (`trim_eq_nil_iff`).
-/

namespace AccessorGen.Text

/-- The characters of the Unicode property `White_Space`. -/
def isBlank (c : Char) : Bool :=
  let n := c.toNat
  (0x09 ≤ n && n ≤ 0x0D) || n == 0x20 || n == 0x85 || n == 0xA0 || n == 0x1680 || (0x2000 ≤ n && n ≤ 0x200A)
    || n == 0x2028 || n == 0x2029 || n == 0x202F || n == 0x205F || n == 0x3000

/-- The text without its leading blanks. -/
def trimStart (s : List Char) : List Char :=
  s.dropWhile isBlank

/-- The text without its trailing blanks. -/
def trimEnd (s : List Char) : List Char :=
  (s.reverse.dropWhile isBlank).reverse

/-- The text without blanks at either end. -/
def trim (s : List Char) : List Char :=
  trimEnd (trimStart s)

/-- The text without blanks at either end, if anything is left of it. -/
def trim? (s : List Char) : Option (List Char) :=
  if trim s = [] then none else some (trim s)

/-- Dropping leading blanks leaves nothing exactly when every character is blank. -/
theorem trimStart_eq_nil_iff {s : List Char} : trimStart s = [] ↔ ∀ c ∈ s, isBlank c := by
  rw [trimStart]
  induction s with
  | nil => simp
  | cons c s ih => by_cases h : isBlank c <;> simp [h, ih]

/-- Dropping trailing blanks leaves nothing exactly when every character is blank. -/
theorem trimEnd_eq_nil_iff {s : List Char} : trimEnd s = [] ↔ ∀ c ∈ s, isBlank c := by
  rw [trimEnd, List.reverse_eq_nil_iff]
  exact (trimStart_eq_nil_iff (s := s.reverse)).trans (by simp)

/-- Trimming leaves nothing exactly when every character is blank. -/
theorem trim_eq_nil_iff {s : List Char} : trim s = [] ↔ ∀ c ∈ s, isBlank c := by
  rw [trim, trimEnd_eq_nil_iff, trimStart]
  induction s with
  | nil => simp
  | cons c s ih => by_cases h : isBlank c <;> simp [h, ih]

end AccessorGen.Text
