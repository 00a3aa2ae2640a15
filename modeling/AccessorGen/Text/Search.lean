/-!
# Search

`occurs word s` says that `word` stands somewhere in `s`; it decides core's relation `word <:+: s`
(`occurs_iff`).
-/

namespace AccessorGen.Text

/-- The word stands somewhere in the text. -/
def occurs (word : List Char) : List Char → Bool
  | [] => word.isEmpty
  | c :: s => word.isPrefixOf (c :: s) || occurs word s

/-- A word occurs in a text exactly when it is an infix of it. -/
theorem occurs_iff {word s : List Char} : occurs word s ↔ word <:+: s := by
  induction s with
  | nil => simp [occurs]
  | cons c s ih => rw [occurs, Bool.or_eq_true, ih, List.isPrefixOf_iff_prefix, List.infix_cons_iff]

end AccessorGen.Text
