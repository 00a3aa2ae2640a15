import AccessorGen.Proofs.AccessorLines

/-!
# Reading accessors back

The accessors of a text tell all that matters about its declarations, so no line can pass its code off as that of
other lines: texts with the same accessors have declarations that say the same, one by one, hence the same initializers
and the same inline accessors for every class (`sameCode_of_accessors_eq`).

A text of accessors is read in lines, and the lines in fours. The comment gives the name and with it all names that are
made from it, the getter gives the type and whether a star follows it (`star_mem_returnType_iff`), and the setter tells
a char array by the bracket in its body (`bracket_mem_setterLine_iff`). The category of all other declarations follows
from the type.
-/

namespace AccessorGen

open Text

/-! ## One declaration -/

section Declarations

namespace Declaration.Accepted

variable {d d' : Declaration}

/-- The getter returns a pointer for pointers and char arrays. -/
theorem star_mem_returnType_iff (h : d.Accepted) :
    '*' ∈ d.returnType ↔ d.category = .pointer ∨ d.category = .charArray := by
  have ht : '*' ∉ d.dataType := h.not_mem_dataType (by decide) (by decide) (by decide)
  unfold Declaration.returnType
  split
  · rename_i hc
    simp [hc]
  · rename_i hc
    simp [hc]
  · rename_i hp ha
    constructor
    · intro hm
      exact absurd hm ht
    · rintro (hc | hc)
      · exact absurd hc hp
      · exact absurd hc ha

/-- The type that the getter returns is the type of the variable and its star. -/
theorem returnType_eq (h : d.Accepted) :
    d.returnType = d.dataType ++ if '*' ∈ d.returnType then ['*'] else [] := by
  by_cases hc : d.category = .pointer ∨ d.category = .charArray
  · rw [if_pos (h.star_mem_returnType_iff.mpr hc)]
    rcases hc with hc | hc
    · rw [Declaration.returnType, hc]
    · rw [Declaration.returnType, hc]
  · rw [if_neg (fun hm => hc (h.star_mem_returnType_iff.mp hm)), List.append_nil]
    unfold Declaration.returnType
    split
    · rename_i hp
      exact absurd (.inl hp) hc
    · rename_i ha
      exact absurd (.inr ha) hc
    · rfl

/-- The setter has a bracket in its body for char arrays only. -/
theorem bracket_mem_setterLine_iff (h : d.Accepted) : '[' ∈ d.setterLine [] ↔ d.category = .charArray := by
  obtain ⟨hv, -, hp⟩ := h.not_mem_names (c := '[') (by decide)
  obtain ⟨-, hset⟩ := h.not_mem_accessorNames (c := '[') (by decide)
  have hparam : '[' ∉ d.param := h.not_mem_param (by decide) (by decide) (by decide) (by decide) (by decide)
  have hbody : '[' ∈ d.setterBody ↔ d.category = .charArray := by
    unfold Declaration.setterBody
    split
    · rename_i hc
      simp [hc]
    · rename_i hc
      have hc : d.category ≠ .charArray := hc
      simp [hv, hp, hc]
  unfold Declaration.setterLine
  simp [hset, hparam, hbody]

/-- Declarations with the same lines say the same. -/
theorem sameCode_of_accessorLines_eq (h : d.Accepted) (h' : d'.Accepted) (he : d.accessorLines = d'.accessorLines) :
    d.SameCode d' := by
  simp only [accessorLines, List.cons.injEq] at he
  obtain ⟨hcomment, hgetter, hsetter, -⟩ := he
  have hv : d.variableName = d'.variableName := List.append_cancel_left hcomment
  have hcap : d.capitalizedName = d'.capitalizedName := by
    rw [h.capitalizedName_eq, h'.capitalizedName_eq, hv]
  have hret : d.returnType = d'.returnType := by
    unfold getterLine at hgetter
    rw [hv, hcap] at hgetter
    exact List.append_cancel_right (List.append_cancel_right hgetter)
  have ht : d.dataType = d'.dataType := by
    have hr := h.returnType_eq
    rw [hret] at hr
    exact List.append_cancel_right (hr.symm.trans h'.returnType_eq)
  have harray : d.category = .charArray ↔ d'.category = .charArray := by
    rw [← h.bracket_mem_setterLine_iff, ← h'.bracket_mem_setterLine_iff, hsetter]
  have hstar : (d.category = .pointer ∨ d.category = .charArray) ↔
      d'.category = .pointer ∨ d'.category = .charArray := by
    rw [← h.star_mem_returnType_iff, ← h'.star_mem_returnType_iff, hret]
  have hcat : d.category = d'.category := by
    by_cases ha : d.category = .charArray
    · rw [ha, harray.mp ha]
    · by_cases hp : d.category = .pointer
      · rw [hp, (hstar.mp (.inl hp)).resolve_right fun ha' => ha (harray.mpr ha')]
      · have hn' := mt hstar.mpr (not_or.mpr ⟨hp, ha⟩)
        rw [h.category_eq_of_ne hp ha, h'.category_eq_of_ne (not_or.mp hn').1 (not_or.mp hn').2, ht]
  have hpointer : d.isPointer = d'.isPointer := by
    rw [Bool.eq_iff_iff, ← h.category_eq_pointer_iff, ← h'.category_eq_pointer_iff, hcat]
  refine ⟨ht, hv, hpointer, hcat, ?_, hcap, ?_⟩
  · rw [h.meaningfulName_eq, h'.meaningfulName_eq, hv]
  · rw [h.paramPrefix_eq, h'.paramPrefix_eq, hv, hpointer]

end Declaration.Accepted

end Declarations

/-! ## All declarations -/

section Texts

/-- Declarations with the same lines, all together, say the same, one by one. -/
theorem forall₂_sameCode_of_flatMap_eq : ∀ {ds ds' : List Declaration}, (∀ d ∈ ds, d.Accepted) →
    (∀ d ∈ ds', d.Accepted) → ds.flatMap (·.accessorLines) = ds'.flatMap (·.accessorLines) →
    List.Forall₂ Declaration.SameCode ds ds'
  | [], [], _, _, _ => .nil
  | [], d' :: ds', _, _, he => by cases he
  | d :: ds, [], _, _, he => by cases he
  | d :: ds, d' :: ds', h, h', he => by
    obtain ⟨hd, hds⟩ := List.forall_mem_cons.mp h
    obtain ⟨hd', hds'⟩ := List.forall_mem_cons.mp h'
    -- each declaration has four lines
    obtain ⟨hlines, hrest⟩ := List.append_inj he rfl
    exact .cons (hd.sameCode_of_accessorLines_eq hd' hlines) (forall₂_sameCode_of_flatMap_eq hds hds' hrest)

/-- **Accessors are read in one way**: texts with the same accessors have declarations that say the same, one by one,
and therefore the same initializers and, for every class, the same inline accessors. -/
theorem sameCode_of_accessors_eq (raw₁ raw₂ : List Char)
    (h : (generate raw₁ none).accessors = (generate raw₂ none).accessors) :
    List.Forall₂ Declaration.SameCode (generate raw₁ none).declarations (generate raw₂ none).declarations ∧
      (generate raw₁ none).initializers = (generate raw₂ none).initializers ∧
      ∀ className, (generate raw₁ className).inline = (generate raw₂ className).inline := by
  have hsame : List.Forall₂ Declaration.SameCode (generate raw₁ none).declarations
      (generate raw₂ none).declarations := by
    apply forall₂_sameCode_of_flatMap_eq
    · exact fun d hd => accepted_of_mem_declarations hd
    · exact fun d hd => accepted_of_mem_declarations hd
    · have hl := splitOn_accessors raw₁ none
      rw [h, splitOn_accessors] at hl
      exact (List.append_cancel_right hl).symm
  have htexts := fun className => Generated.ofDeclarations_texts_eq className hsame
  refine ⟨hsame, ?_, ?_⟩
  · rw [generate_eq_ofDeclarations raw₁ none none, generate_eq_ofDeclarations raw₂ none none]
    exact (htexts _ _ _).2.2
  · intro className
    rw [generate_eq_ofDeclarations raw₁ className none, generate_eq_ofDeclarations raw₂ className none]
    exact (htexts _ _ _).2.1

/-- The same declaration written in two ways, once above a line that is rejected. -/
theorem sameCode_of_accessors_eq_spaced :
    (generate "char mcac_Buf [ 8 ] ; // a\nbad".toList none).accessors =
        (generate "char mcac_Buf[16];".toList none).accessors ∧
      List.Forall₂ Declaration.SameCode (generate "char mcac_Buf [ 8 ] ; // a\nbad".toList none).declarations
        (generate "char mcac_Buf[16];".toList none).declarations ∧
      (generate "char mcac_Buf [ 8 ] ; // a\nbad".toList (some "CHello".toList)).inline =
        (generate "char mcac_Buf[16];".toList (some "CHello".toList)).inline := by
  have heq : (generate "char mcac_Buf [ 8 ] ; // a\nbad".toList none).accessors =
      (generate "char mcac_Buf[16];".toList none).accessors := by decide +kernel
  have h := sameCode_of_accessors_eq _ _ heq
  exact ⟨heq, h.1, h.2.2 _⟩

end Texts

end AccessorGen
