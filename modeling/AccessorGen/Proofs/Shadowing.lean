import AccessorGen.Proofs.Accepted
import AccessorGen.Proofs.Naming
import AccessorGen.Accessor

/-!
# Parameters that shadow their member

The parameter of a setter is named after the member it is copied into, so the two names may meet. They meet in one
way only (`paramName_eq_variableName_iff`): the member itself is called as a parameter of its category would be if
nothing were known about its type (`Category.ownPrefix`), `CL_Hello`, `pCL_Hello` or `pscL_Buf`. The reason is that
no prefix has an `m`, so a name that starts with a prefix and has no underscore but the one behind it carries no
type code (`basePrefix_eq_default`).
-/

namespace AccessorGen

open Text

/-! ## Names without a marker -/

section Markers

/-- A marker ends in an underscore. -/
theorem markerCode?_eq_none {s : List Char} (h : '_' ∉ s) : markerCode? s = none := by
  unfold markerCode?
  split
  · rename_i letter rest
    have hr : '_' ∉ rest := fun hm => h (by simp [hm])
    simp [hr]
  · rfl

/-- A text without an underscore has no marker. -/
theorem lastMarkerCode?_eq_none : ∀ {s : List Char}, '_' ∉ s → lastMarkerCode? s = none
  | [], _ => rfl
  | c :: s, h => by
    rw [lastMarkerCode?, lastMarkerCode?_eq_none (fun hm => h (List.mem_cons_of_mem _ hm)), markerCode?_eq_none h]
    rfl

/-- A marker starts with an `m`, so that one must stand in front of the last underscore. -/
theorem lastMarkerCode?_append {rest : List Char} (hr : '_' ∉ rest) : ∀ {front : List Char}, 'm' ∉ front →
    lastMarkerCode? (front ++ '_' :: rest) = none
  | [], _ => by
    rw [List.nil_append, lastMarkerCode?, lastMarkerCode?_eq_none hr]
    rfl
  | c :: front, h => by
    have hc : c ≠ 'm' := fun e => h (by simp [e])
    have hf : 'm' ∉ front := fun hm => h (List.mem_cons_of_mem _ hm)
    have hm : markerCode? (c :: (front ++ '_' :: rest)) = none := by
      unfold markerCode?
      split
      · rename_i heq
        exact absurd (List.cons.inj heq).1 hc
      · rfl
    rw [List.cons_append, lastMarkerCode?, lastMarkerCode?_append hr hf, hm]
    rfl

/-- A word with no `m` in front of its last underscore has the prefix of a class. -/
theorem basePrefix_eq_default {front rest : List Char} (hw : ∀ c ∈ front ++ '_' :: rest, isWordChar c)
    (hf : 'm' ∉ front) (hr : '_' ∉ rest) : basePrefix (front ++ '_' :: rest) = "CL".toList := by
  have hstruct : "mcS_".toList.isPrefixOf (front ++ '_' :: rest) = false := by
    cases front with
    | nil => rfl
    | cons c front =>
      have hc : ('m' == c) = false := beq_false_of_ne fun e => hf (by simp [← e])
      simp [List.isPrefixOf, hc]
  have hline : (front ++ '_' :: rest).takeWhile (· ≠ '\n') = front ++ '_' :: rest := by
    refine List.takeWhile_eq_self_iff.mpr ?_
    intro c hc
    refine decide_eq_true ?_
    rintro rfl
    exact absurd (hw _ hc) (by decide)
  have hcode : embeddedCode? (front ++ '_' :: rest) = none := by
    rw [embeddedCode?, hline, lastMarkerCode?_append hr hf]
  simp only [basePrefix, hstruct, hcode]
  rfl

/-- No prefix has an `m`. -/
theorem not_mem_basePrefix (name : List Char) : 'm' ∉ basePrefix name := by
  have hall : ∀ s ∈ basePrefixes, 'm' ∉ s := by decide
  exact hall _ (basePrefix_mem name)

end Markers

/-! ## Names that meet -/

/-- The prefix that a member of the category has to start with to be called as the parameter of its setter. -/
def Category.ownPrefix : Category → List Char
  | .pointer => "pCL".toList
  | .charArray => "pscL".toList
  | .structOrClass | .primitive _ => "CL".toList

/-- No prefix of a category has an `m`. -/
theorem Category.not_mem_ownPrefix (category : Category) : 'm' ∉ category.ownPrefix := by
  cases category with
  | pointer | charArray | structOrClass => decide
  | primitive _ => exact (by decide : 'm' ∉ "CL".toList)

section Names

variable {name : List Char}

/-- The meaningful part of a name is what stands behind its last underscore. -/
theorem meaningfulName_append {front rest : List Char} (hr : '_' ∉ rest) :
    meaningfulName (front ++ '_' :: rest) = rest := by
  rw [meaningfulName, List.reverse_append, List.reverse_cons, List.append_assoc, List.singleton_append,
    (takeWhile_ne_append _ (by simpa using hr)).1, List.reverse_reverse]

/-- Capitalizing brings no underscore into a word. -/
theorem not_mem_capitalize (hw : ∀ c ∈ name, isWordChar c) (h : '_' ∉ name) : '_' ∉ capitalize name := by
  rw [capitalize_eq_modifyHead hw]
  cases name with
  | nil => exact h
  | cons c name =>
    have hupper : c.toUpper = '_' → c = '_' :=
      of_isWordChar (p := fun c => c.toUpper = '_' → c = '_') (by decide) (hw c List.mem_cons_self)
    rw [List.modifyHead_cons, List.mem_cons, not_or]
    exact ⟨fun e => h (by simp [hupper e.symm]), fun hm => h (List.mem_cons_of_mem _ hm)⟩

/-- A word that does not start with a lower-case letter stays as it is. -/
theorem capitalize_eq_self (hw : ∀ c ∈ name, isWordChar c) (h : ∀ c ∈ name.head?, ¬ c.isLower) :
    capitalize name = name := by
  rw [capitalize_eq_modifyHead hw]
  cases name with
  | nil => rfl
  | cons c name =>
    have hupper : ¬ c.isLower → c.toUpper = c :=
      of_isWordChar (p := fun c => ¬ c.isLower → c.toUpper = c) (by decide) (hw c List.mem_cons_self)
    rw [List.modifyHead_cons, hupper (h c rfl)]

end Names

namespace Declaration.Accepted

variable {d : Declaration} (h : d.Accepted)
include h

/-- The parameter is called by its prefix and the capitalized name, and no prefix has an `m`. -/
theorem exists_paramName_eq : ∃ front, 'm' ∉ front ∧ d.paramName = front ++ '_' :: d.capitalizedName := by
  have hm : 'm' ∉ d.paramPrefix := by
    rw [h.paramPrefix_eq, inferPrefix]
    split
    · exact List.not_mem_cons_of_ne_of_not_mem (by decide) (not_mem_basePrefix _)
    · exact not_mem_basePrefix _
  unfold Declaration.paramName
  split
  · exact ⟨"pscL".toList, by decide, rfl⟩
  · exact ⟨d.paramPrefix, hm, rfl⟩

/-- If the name of a member tells nothing about its type, its category decides how the parameter is called. -/
theorem paramName_eq_ownPrefix (hbase : basePrefix d.variableName = "CL".toList) :
    d.paramName = d.category.ownPrefix ++ '_' :: d.capitalizedName := by
  have hp := h.category_eq_pointer_iff
  have hstart := h.paramPrefix_eq
  rw [inferPrefix, hbase] at hstart
  unfold Declaration.paramName
  cases hc : d.category with
  | charArray => rfl
  | pointer =>
    rw [hstart, hp.mp hc]
    rfl
  | structOrClass | primitive _ =>
    have hstar : d.isPointer = false := by simpa [hc] using hp
    rw [hstart, hstar]
    rfl

end Declaration.Accepted

/-- **When a setter assigns a member to itself**: the parameter is called as the member exactly if the member starts
with the own prefix of its category and goes on, behind the only underscore, with anything but a lower-case letter. -/
theorem paramName_eq_variableName_iff {raw : List Char} {className : Option (List Char)} {d : Declaration}
    (hd : d ∈ (generate raw className).declarations) :
    d.paramName = d.variableName ↔
      ∃ rest, d.variableName = d.category.ownPrefix ++ '_' :: rest ∧ '_' ∉ rest ∧ ∀ c ∈ rest.head?, ¬ c.isLower := by
  have h := accepted_of_mem_declarations hd
  have hword := h.name.2
  have hcap := h.capitalizedName_eq
  constructor
  · intro heq
    obtain ⟨front, hm, hfront⟩ := h.exists_paramName_eq
    have hmean := isWordChar_of_mem_meaningfulName hword
    have hunder : '_' ∉ d.capitalizedName := by
      rw [hcap]
      exact not_mem_capitalize hmean (not_mem_meaningfulName _)
    have hname : d.variableName = front ++ '_' :: d.capitalizedName := heq.symm.trans hfront
    -- the name starts with a prefix, so it has no marker of its own
    have hbase : basePrefix d.variableName = "CL".toList := by
      rw [hname]
      exact basePrefix_eq_default (hname ▸ hword) hm hunder
    refine ⟨d.capitalizedName, heq.symm.trans (h.paramName_eq_ownPrefix hbase), hunder, ?_⟩
    rw [hcap]
    exact not_isLower_of_head?_capitalize hmean
  · rintro ⟨rest, hname, hunder, hupper⟩
    have hbase : basePrefix d.variableName = "CL".toList := by
      rw [hname]
      exact basePrefix_eq_default (hname ▸ hword) d.category.not_mem_ownPrefix hunder
    have hrest : ∀ c ∈ rest, isWordChar c := by
      intro c hc
      exact hword c (by simp [hname, hc])
    rw [h.paramName_eq_ownPrefix hbase, hcap, hname, meaningfulName_append hunder, capitalize_eq_self hrest hupper]

/-- A pointer without a Hungarian name, whose setter assigns it to itself. -/
theorem paramName_eq_variableName_pointer :
    ∃ d ∈ (generate "\nstd::size_t * pCL_;".toList (some "CHello".toList)).declarations,
      d.category = .pointer ∧ d.paramName = d.variableName := by
  have hd : ⟨⟨⟨2, ⟨1, 20⟩⟩, "std::size_t * pCL_;".toList, "std::size_t".toList, "pCL_".toList, true, none⟩,
      [], [], .pointer, "pCL".toList⟩ ∈
      (generate "\nstd::size_t * pCL_;".toList (some "CHello".toList)).declarations := by decide +kernel
  exact ⟨_, hd, rfl, (paramName_eq_variableName_iff hd).mpr ⟨[], rfl, by decide, nofun⟩⟩

/-- A member with the prefix of a class is called as the parameter of its setter. -/
theorem exists_paramName_eq_variableName :
    ∃ d ∈ (generate "CHello CL_Hello;".toList none).declarations,
      d.paramName = d.variableName ∧ d.setterBody = "CL_Hello = CL_Hello;".toList := by
  have hd : ⟨⟨⟨1, ⟨0, 16⟩⟩, "CHello CL_Hello;".toList, "CHello".toList, "CL_Hello".toList, false, none⟩,
      "Hello".toList, "Hello".toList, .structOrClass, "CL".toList⟩ ∈
      (generate "CHello CL_Hello;".toList none).declarations := by decide +kernel
  exact ⟨_, hd, rfl, rfl⟩

end AccessorGen
