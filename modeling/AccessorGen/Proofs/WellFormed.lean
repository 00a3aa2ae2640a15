import AccessorGen.Proofs.Accepted
import AccessorGen.Proofs.Naming

/-!
# Well-formed declarations

Every declaration that a text gives is well-formed (`wellFormed_of_mem_generate`): its names, its type, its category,
its size and its prefix are as the generated code needs them, and they agree with each other.

The spaces of a type stand singly between words because none of the pieces between spaces is empty
(`IsTypeText.spaces`).
-/

namespace AccessorGen

open Text

/-! ## Spaces -/

section Spaces

/-- Two separators in a row, one at the front and one at the end leave an empty piece. -/
theorem nil_mem_splitOn {sep : Char} {s : List Char}
    (h : s.head? = some sep ∨ s.getLast? = some sep ∨ [sep, sep] <:+: s) : [] ∈ s.splitOn sep := by
  rcases h with h | h | ⟨before, after, rfl⟩
  · obtain ⟨rest, rfl⟩ := List.head?_eq_some_iff.mp h
    have := List.splitOn_append_cons_self (a := sep) [] rest
    rw [List.nil_append] at this
    simp [this]
  · obtain ⟨front, rfl⟩ := List.getLast?_eq_some_iff.mp h
    simp [List.splitOn_append_cons_self]
  · have hs : before ++ [sep, sep] ++ after = before ++ sep :: ([] ++ sep :: after) := by simp
    rw [hs, List.splitOn_append_cons_self, List.splitOn_append_cons_self]
    simp

/-- The spaces of a type stand singly between words. -/
theorem IsTypeText.spaces {s : List Char} (hs : IsTypeText s) :
    s.head? ≠ some ' ' ∧ s.getLast? ≠ some ' ' ∧ ¬ "  ".toList <:+: s := by
  have hnil : [] ∉ s.splitOn ' ' := by
    obtain ⟨type, hne, hproper, rfl⟩ := hs
    have hspace : ∀ w ∈ type.map (·.text), ' ' ∉ w := by
      intro w hw hm
      obtain ⟨q, hq, rfl⟩ := List.mem_map.mp hw
      rcases (hproper q hq).mem_text hm with h | h
      · exact absurd h (by decide)
      · exact absurd h (by decide)
    rw [List.splitOn_intercalate ' ' hspace (by simpa using hne)]
    intro hm
    obtain ⟨q, hq, ht⟩ := List.mem_map.mp hm
    exact QualifiedWord.text_ne_nil (hproper q hq).1.1 ht
  refine ⟨?_, ?_, ?_⟩
  · intro h
    exact hnil (nil_mem_splitOn (.inl h))
  · intro h
    exact hnil (nil_mem_splitOn (.inr (.inl h)))
  · intro h
    exact hnil (nil_mem_splitOn (.inr (.inr h)))

end Spaces

/-! ## Declarations -/

/-- A declaration whose parts are as the generated code needs them. -/
structure Declaration.WellFormed (d : Declaration) : Prop where
  /-- The name is a word. -/
  variableName_isWord : IsWord d.variableName
  /-- The type is a sequence of words that may be glued by `::`. -/
  dataType_isTypeText : IsTypeText d.dataType
  star_not_mem_dataType : '*' ∉ d.dataType
  lineFeed_not_mem_dataType : '\n' ∉ d.dataType
  dataType_spaces : d.dataType.head? ≠ some ' ' ∧ d.dataType.getLast? ≠ some ' ' ∧ ¬ "  ".toList <:+: d.dataType
  /-- The meaningful name is what follows the last underscore of the name. -/
  underscore_not_mem_meaningfulName : '_' ∉ d.meaningfulName
  variableName_eq_or_suffix : d.variableName = d.meaningfulName ∨ '_' :: d.meaningfulName <:+ d.variableName
  /-- The capitalized name differs from it in the first character at most. -/
  capitalizedName_length : d.capitalizedName.length = d.meaningfulName.length
  capitalizedName_tail : d.capitalizedName.tail = d.meaningfulName.tail
  capitalizedName_head : ∀ c ∈ d.capitalizedName.head?, ¬ c.isLower
  category_eq_pointer_iff : d.category = .pointer ↔ d.isPointer
  category_eq_charArray_iff : d.category = .charArray ↔ ¬ d.isPointer ∧ d.arraySize.isSome
  char_of_charArray : d.category = .charArray → "char".toList <:+: d.dataType
  arraySize_pos : ∀ n, d.arraySize = some n → 1 ≤ n
  paramPrefix_head_iff : d.paramPrefix.head? = some 'p' ↔ d.isPointer
  /-- Without the `p` of a pointer the prefix is one of those that there are. -/
  paramPrefix_base : ∃ base ∈ basePrefixes, d.paramPrefix = (if d.isPointer then ['p'] else []) ++ base

/-- The type of an accepted char array names characters. -/
theorem Declaration.Accepted.char_of_charArray {d : Declaration} (h : d.Accepted) (hc : d.category = .charArray) :
    "char".toList <:+: d.dataType := by
  have ha := h.category_eq_charArray_iff.mp hc
  rcases h.category_cases with ⟨hp, -⟩ | ⟨-, -, ho, -⟩ | ⟨-, hn, -⟩
  · exact absurd hp ha.1
  · exact ho
  · rw [hn] at ha
    cases ha.2

/-- **Well-formedness**: every declaration of a text is well-formed. -/
theorem wellFormed_of_mem_generate {raw : List Char} {className : Option (List Char)} {d : Declaration}
    (hd : d ∈ (generate raw className).declarations) : d.WellFormed := by
  have h := accepted_of_mem_declarations hd
  have hchar := isWordChar_of_mem_meaningfulName h.name.2
  have hcap := capitalize_eq_modifyHead hchar
  refine
    { variableName_isWord := h.name
      dataType_isTypeText := h.type
      star_not_mem_dataType := ?_
      lineFeed_not_mem_dataType := ?_
      dataType_spaces := h.type.spaces
      underscore_not_mem_meaningfulName := ?_
      variableName_eq_or_suffix := ?_
      capitalizedName_length := ?_
      capitalizedName_tail := ?_
      capitalizedName_head := ?_
      category_eq_pointer_iff := h.category_eq_pointer_iff
      category_eq_charArray_iff := h.category_eq_charArray_iff
      char_of_charArray := h.char_of_charArray
      arraySize_pos := fun n hn => (h.size n hn).1
      paramPrefix_head_iff := ?_
      paramPrefix_base := ?_ }
  · exact h.not_mem_dataType (by decide) (by decide) (by decide)
  · exact h.not_mem_dataType (by decide) (by decide) (by decide)
  · rw [h.meaningfulName_eq]
    exact not_mem_meaningfulName _
  · rw [h.meaningfulName_eq]
    exact eq_or_suffix_meaningfulName _
  · rw [h.capitalizedName_eq, h.meaningfulName_eq, hcap, List.length_modifyHead]
  · rw [h.capitalizedName_eq, h.meaningfulName_eq, hcap, List.tail_modifyHead]
  · rw [h.capitalizedName_eq]
    exact not_isLower_of_head?_capitalize hchar
  · rw [h.paramPrefix_eq]
    exact head?_inferPrefix_iff _ _
  · refine ⟨basePrefix d.variableName, basePrefix_mem _, ?_⟩
    rw [h.paramPrefix_eq]
    cases d.isPointer <;> rfl

/-- A size with leading zeros and a name in small letters, below a line that is rejected. -/
theorem wellFormed_charArray :
    ∃ d ∈ (generate "bad\n unsigned  char mcac_buf [ 007 ];".toList none).declarations,
      d.category = .charArray ∧ d.capitalizedName = "Buf".toList ∧ d.WellFormed := by
  have hd : ⟨⟨⟨2, ⟨5, 37⟩⟩, "unsigned  char mcac_buf [ 007 ];".toList, "unsigned char".toList, "mcac_buf".toList,
      false, some 7⟩, "buf".toList, "Buf".toList, .charArray, "CL".toList⟩ ∈
      (generate "bad\n unsigned  char mcac_buf [ 007 ];".toList none).declarations := by decide +kernel
  exact ⟨_, hd, rfl, rfl, wellFormed_of_mem_generate hd⟩

end AccessorGen
