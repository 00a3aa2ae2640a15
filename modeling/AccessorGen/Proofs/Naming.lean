import AccessorGen.Naming
import AccessorGen.Proofs.Grammar
import AccessorGen.TypeCode

/-!
# Names made from a member name

- The meaningful part of a name holds no underscore and is all that follows the last one
  (`not_mem_meaningfulName`, `eq_or_suffix_meaningfulName`);
- in a word only the first character changes when it is capitalized (`capitalize_eq_modifyHead`), so that word
  characters stay word characters (`isWordChar_of_mem_capitalize`);
- what a parameter starts with is one of sixteen prefixes (`basePrefix_mem`), none of which starts as that of a
  pointer does (`head?_inferPrefix_iff`).
-/

namespace AccessorGen

open Text

/-! ## Meaningful names -/

section MeaningfulNames

/-- The meaningful part of a name has no underscore. -/
theorem not_mem_meaningfulName (name : List Char) : '_' ∉ meaningfulName name := by
  rw [meaningfulName, List.mem_reverse]
  exact not_mem_takeWhile_ne _ _

/-- A name is its meaningful part or ends in an underscore and that part. -/
theorem eq_or_suffix_meaningfulName (name : List Char) :
    name = meaningfulName name ∨ '_' :: meaningfulName name <:+ name := by
  cases hd : name.reverse.dropWhile (· ≠ '_') with
  | nil =>
    left
    have h := List.takeWhile_append_dropWhile (p := (· ≠ '_')) (l := name.reverse)
    rw [hd, List.append_nil] at h
    rw [meaningfulName, h, List.reverse_reverse]
  | cons c before =>
    right
    refine ⟨before.reverse, ?_⟩
    have h := congrArg List.reverse (eq_append_of_dropWhile_ne hd)
    simp only [List.reverse_reverse, List.reverse_append, List.reverse_cons, List.append_assoc] at h
    exact h.symm

/-- The meaningful part of a word is made of word characters. -/
theorem isWordChar_of_mem_meaningfulName {name : List Char} (h : ∀ c ∈ name, isWordChar c) :
    ∀ c ∈ meaningfulName name, isWordChar c := by
  intro c hc
  rw [meaningfulName, List.mem_reverse] at hc
  exact h c (List.mem_reverse.mp ((List.takeWhile_sublist _).subset hc))

end MeaningfulNames

/-! ## Capitalized names -/

section CapitalizedNames

variable {name : List Char}

/-- The upper case of a word character is one, and no lower-case letter. -/
theorem isWordChar_toUpper {c : Char} (h : isWordChar c) : isWordChar c.toUpper ∧ ¬ c.toUpper.isLower :=
  of_isWordChar (p := fun c => isWordChar c.toUpper ∧ ¬ c.toUpper.isLower) (by decide) h

/-- Capitalizing word characters changes the first of them. -/
theorem capitalize_eq_modifyHead (h : ∀ c ∈ name, isWordChar c) : capitalize name = name.modifyHead Char.toUpper := by
  cases name with
  | nil => rfl
  | cons c name =>
    have hc : c.toNat < 128 := toNat_lt_of_isWordChar (h c List.mem_cons_self)
    rw [capitalize, upper_ascii hc, List.singleton_append, List.modifyHead_cons]

/-- Word characters stay word characters when they are capitalized. -/
theorem isWordChar_of_mem_capitalize (h : ∀ c ∈ name, isWordChar c) : ∀ c ∈ capitalize name, isWordChar c := by
  rw [capitalize_eq_modifyHead h]
  cases name with
  | nil => exact h
  | cons c name =>
    obtain ⟨hc, hname⟩ := List.forall_mem_cons.mp h
    exact List.forall_mem_cons.mpr ⟨(isWordChar_toUpper hc).1, hname⟩

/-- A capitalized name does not start with a lower-case letter. -/
theorem not_isLower_of_head?_capitalize (h : ∀ c ∈ name, isWordChar c) :
    ∀ c ∈ (capitalize name).head?, ¬ c.isLower := by
  rw [capitalize_eq_modifyHead h]
  cases name with
  | nil => simp
  | cons c name =>
    rintro _ ⟨⟩
    exact (isWordChar_toUpper (h c List.mem_cons_self)).2

end CapitalizedNames

/-! ## Prefixes -/

section Prefixes

/-- What a parameter can start with, behind the `p` of a pointer: the prefix of structures and those of the type
codes. -/
def basePrefixes : List (List Char) :=
  ["SL".toList, "bL".toList, "cL".toList, "scL".toList, "siL".toList, "iL".toList, "slL".toList, "fL".toList,
   "dL".toList, "ldL".toList, "ullL".toList, "ulL".toList, "uiL".toList, "usL".toList, "ucL".toList, "CL".toList]

/-- Every prefix is one of the sixteen. -/
theorem basePrefix_mem (name : List Char) : basePrefix name ∈ basePrefixes := by
  unfold basePrefix
  split
  · decide
  · split
    · rename_i t _
      cases t <;> decide
    · decide

/-- The prefix starts with a `p` exactly for a pointer. -/
theorem head?_inferPrefix_iff (name : List Char) (isPointer : Bool) :
    (inferPrefix name isPointer).head? = some 'p' ↔ isPointer := by
  have hne : ∀ s ∈ basePrefixes, s.head? ≠ some 'p' := by decide
  cases isPointer with
  | true => simp [inferPrefix]
  | false => simpa [inferPrefix] using hne _ (basePrefix_mem name)

/-- Prefixes are made of word characters. -/
theorem isWordChar_of_mem_inferPrefix (name : List Char) (isPointer : Bool) :
    ∀ c ∈ inferPrefix name isPointer, isWordChar c := by
  have hall : ∀ s ∈ basePrefixes, s.all isWordChar := by decide
  have hbase := List.all_eq_true.mp (hall _ (basePrefix_mem name))
  cases isPointer with
  | true => exact List.forall_mem_cons.mpr ⟨by decide, hbase⟩
  | false => exact hbase

end Prefixes

end AccessorGen
