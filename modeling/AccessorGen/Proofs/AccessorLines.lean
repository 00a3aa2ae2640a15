import AccessorGen.Proofs.Accepted
import AccessorGen.Proofs.Lines
import AccessorGen.Proofs.Naming

/-!
# The accessors of a text, line by line

- The accessors of a declaration are four lines: a comment, the getter, the setter and an empty line
  (`accessors_outOfLine`); none of them holds a line feed (`Declaration.Accepted.lineFeed_not_mem`), so the lines of
  the accessors of a text can be told apart (`splitOn_accessors`).
- The inline accessors can be made from that text and the name of the class alone: `inlineText` copies the first and
  the last line of each four, and puts a line `inline` before the two between and the class before the names that they
  define. That place is found without reading the declaration, since no type and no name holds a parenthesis and no
  name holds a space (`inline_eq_inlineText`).
-/

namespace AccessorGen

open Text

/-! ## The lines of a declaration -/

namespace Declaration

/-- The comment above the accessors. -/
def commentLine (d : Declaration) : List Char :=
  "// For ".toList ++ d.variableName

/-- The getter, with a qualifier before its name. -/
def getterLine (qualifier : List Char) (d : Declaration) : List Char :=
  d.returnType ++ ' ' :: (qualifier ++ getterName d.capitalizedName)
    ++ '(' :: (") \x7breturn ".toList ++ d.variableName ++ "; \x7d".toList)

/-- The setter, with a qualifier before its name. -/
def setterLine (qualifier : List Char) (d : Declaration) : List Char :=
  "void".toList ++ ' ' :: (qualifier ++ setterName d.capitalizedName)
    ++ '(' :: (d.param ++ ") \x7b".toList ++ d.setterBody ++ " \x7d".toList)

/-- The lines of the accessors of a declaration. -/
def accessorLines (d : Declaration) : List (List Char) :=
  [d.commentLine, d.getterLine [], d.setterLine [], []]

/-- The lines of the inline accessors of a declaration. -/
def inlineAccessorLines (className : List Char) (d : Declaration) : List (List Char) :=
  [d.commentLine, "inline".toList, d.getterLine (className ++ "::".toList),
   "inline".toList, d.setterLine (className ++ "::".toList), []]

/-- The accessors of a declaration are four lines. -/
theorem accessors_outOfLine (d : Declaration) : d.accessors .outOfLine = unlines d.accessorLines := by
  unfold accessors accessorLines unlines commentLine getterLine setterLine
  simp

/-- The inline accessors of a declaration are six lines. -/
theorem accessors_inline (className : List Char) (d : Declaration) :
    d.accessors (.inline className) = unlines (d.inlineAccessorLines className) := by
  unfold accessors inlineAccessorLines unlines commentLine getterLine setterLine
  simp

end Declaration

/-! ## The characters of a declaration -/

section Characters

namespace Declaration.Accepted

variable {d : Declaration} (h : d.Accepted) {c : Char}
include h

/-- The capitalized name is made of word characters. -/
theorem isWordChar_of_mem_capitalizedName (hc : c ∈ d.capitalizedName) : isWordChar c := by
  rw [h.capitalizedName_eq] at hc
  exact isWordChar_of_mem_capitalize (isWordChar_of_mem_meaningfulName h.name.2) c hc

/-- The parameter of the setter is made of word characters. -/
theorem isWordChar_of_mem_paramName (hc : c ∈ d.paramName) : isWordChar c := by
  have hprefix : ∀ p, (∀ c ∈ p, isWordChar c) → c ∈ AccessorGen.paramName p d.capitalizedName → isWordChar c := by
    intro p hp hc
    rcases List.mem_append.mp hc with hc | hc
    · exact hp c hc
    · rcases List.mem_cons.mp hc with rfl | hc
      · decide
      · exact h.isWordChar_of_mem_capitalizedName hc
  unfold Declaration.paramName at hc
  split at hc
  · exact hprefix _ (List.all_eq_true.mp (by decide)) hc
  · rw [h.paramPrefix_eq] at hc
    exact hprefix _ (isWordChar_of_mem_inferPrefix _ _) hc

/-- A character that stands in no name stands neither in the name of the variable nor in those made from it. -/
theorem not_mem_names (hc : ¬ isWordChar c) : c ∉ d.variableName ∧ c ∉ d.capitalizedName ∧ c ∉ d.paramName :=
  ⟨fun hm => hc (h.name.2 c hm), fun hm => hc (h.isWordChar_of_mem_capitalizedName hm),
    fun hm => hc (h.isWordChar_of_mem_paramName hm)⟩

/-- A character that stands in no type, and is no star, does not stand in the type that the getter returns. -/
theorem not_mem_returnType (hc : ¬ isWordChar c) (hcolon : c ≠ ':') (hspace : c ≠ ' ') (hstar : c ≠ '*') :
    c ∉ d.returnType := by
  have ht := h.not_mem_dataType hc hcolon hspace
  unfold Declaration.returnType
  split <;> simp [ht, hstar]

/-- A character that stands in no type and is no mark of a pointer or reference does not stand in the parameter. -/
theorem not_mem_param (hc : ¬ isWordChar c) (hcolon : c ≠ ':') (hspace : c ≠ ' ') (hstar : c ≠ '*') (hand : c ≠ '&') :
    c ∉ d.param := by
  have ht := h.not_mem_dataType hc hcolon hspace
  obtain ⟨-, -, hp⟩ := h.not_mem_names hc
  unfold Declaration.param
  split
  · simp [ht, hp, hstar, hspace]
  · simp [ht, hp, hstar, hspace]
  · split <;> simp [ht, hp, hspace, hand]

/-- A character that stands in no name does not stand in the names of the accessors. -/
theorem not_mem_accessorNames (hc : ¬ isWordChar c) :
    c ∉ getterName d.capitalizedName ∧ c ∉ setterName d.capitalizedName := by
  have hget : ∀ c ∈ "mcfn_get".toList, isWordChar c := List.all_eq_true.mp (by decide)
  have hset : ∀ c ∈ "mcfn_set".toList, isWordChar c := List.all_eq_true.mp (by decide)
  obtain ⟨-, hcap, -⟩ := h.not_mem_names hc
  constructor
  · intro hm
    rcases List.mem_append.mp hm with hm | hm
    · exact hc (hget c hm)
    · exact hcap hm
  · intro hm
    rcases List.mem_append.mp hm with hm | hm
    · exact hc (hset c hm)
    · exact hcap hm

/-- The lines of the accessors hold no line feed. -/
theorem lineFeed_not_mem : ∀ line ∈ d.accessorLines, '\n' ∉ line := by
  obtain ⟨hv, -, hp⟩ := h.not_mem_names (c := '\n') (by decide)
  obtain ⟨hget, hset⟩ := h.not_mem_accessorNames (c := '\n') (by decide)
  have hret : '\n' ∉ d.returnType := h.not_mem_returnType (by decide) (by decide) (by decide) (by decide)
  have hparam : '\n' ∉ d.param := h.not_mem_param (by decide) (by decide) (by decide) (by decide) (by decide)
  have hbody : '\n' ∉ d.setterBody := by
    unfold Declaration.setterBody
    split <;> simp [hv, hp]
  unfold accessorLines commentLine getterLine setterLine
  simp [hv, hget, hset, hret, hparam, hbody]

end Declaration.Accepted

end Characters

/-! ## Inline accessors -/

/-- The line with a qualifier put in after the last space before its first parenthesis. -/
def qualifyLine (qualifier line : List Char) : List Char :=
  let before := (line.takeWhile (· ≠ '(')).reverse
  (before.dropWhile (· ≠ ' ')).reverse ++ qualifier ++ (before.takeWhile (· ≠ ' ')).reverse
    ++ line.dropWhile (· ≠ '(')

/-- The inline form of lines in fours: a line `inline` goes before the second and before the third, and into both the
qualifier. -/
def inlineLines (qualifier : List Char) : List (List Char) → List (List Char)
  | comment :: getter :: setter :: blank :: lines =>
    comment :: "inline".toList :: qualifyLine qualifier getter :: "inline".toList :: qualifyLine qualifier setter
      :: blank :: inlineLines qualifier lines
  | lines => lines

/-- The inline form of a text of accessors, for a class. -/
def inlineText (className accessors : List Char) : List Char :=
  ['\n'].intercalate (inlineLines (className ++ "::".toList) (accessors.splitOn '\n'))

section Inline

/-- The qualifier goes before the name that the parenthesis follows. -/
theorem qualifyLine_append (qualifier rest : List Char) {front name : List Char} (hf : '(' ∉ front) (hn : '(' ∉ name)
    (hs : ' ' ∉ name) :
    qualifyLine qualifier (front ++ ' ' :: name ++ '(' :: rest) =
      front ++ ' ' :: (qualifier ++ name) ++ '(' :: rest := by
  have hparen : '(' ∉ front ++ ' ' :: name := by simp [hf, hn]
  have hspace : ' ' ∉ name.reverse := by simpa using hs
  have hrev : (front ++ ' ' :: name).reverse = name.reverse ++ ' ' :: front.reverse := by simp
  obtain ⟨ht, hd⟩ := takeWhile_ne_append rest hparen
  obtain ⟨ht', hd'⟩ := takeWhile_ne_append front.reverse hspace
  simp only [qualifyLine, ht, hd, hrev, ht', hd']
  simp

/-- The lines of a declaration get their inline form. -/
theorem inlineLines_accessorLines {d : Declaration} (h : d.Accepted) (className : List Char)
    (lines : List (List Char)) :
    inlineLines (className ++ "::".toList) (d.accessorLines ++ lines) =
      d.inlineAccessorLines className ++ inlineLines (className ++ "::".toList) lines := by
  obtain ⟨hget, hset⟩ := h.not_mem_accessorNames (c := '(') (by decide)
  obtain ⟨hget', hset'⟩ := h.not_mem_accessorNames (c := ' ') (by decide)
  have hret : '(' ∉ d.returnType := h.not_mem_returnType (by decide) (by decide) (by decide) (by decide)
  have hvoid : '(' ∉ "void".toList := by decide
  have hg := qualifyLine_append (className ++ "::".toList)
    (") \x7breturn ".toList ++ d.variableName ++ "; \x7d".toList) hret hget hget'
  have hs := qualifyLine_append (className ++ "::".toList)
    (d.param ++ ") \x7b".toList ++ d.setterBody ++ " \x7d".toList) hvoid hset hset'
  simp only [Declaration.accessorLines, Declaration.inlineAccessorLines, List.cons_append, List.nil_append, inlineLines]
  unfold Declaration.getterLine Declaration.setterLine
  rw [List.nil_append, List.nil_append, hg, hs]

/-- The lines of many declarations get their inline form. -/
theorem inlineLines_flatMap (className : List Char) : ∀ {ds : List Declaration}, (∀ d ∈ ds, d.Accepted) →
    inlineLines (className ++ "::".toList) (ds.flatMap (·.accessorLines) ++ [[]]) =
      ds.flatMap (·.inlineAccessorLines className) ++ [[]]
  | [], _ => rfl
  | d :: ds, h => by
    obtain ⟨hd, hds⟩ := List.forall_mem_cons.mp h
    rw [List.flatMap_cons, List.flatMap_cons, List.append_assoc, List.append_assoc, inlineLines_accessorLines hd,
      inlineLines_flatMap className hds]

end Inline

/-! ## The accessors of a text -/

section Texts

variable (raw : List Char) (className : Option (List Char))

/-- The accessors of a text are the lines of its declarations. -/
theorem generate_accessors :
    (generate raw className).accessors = unlines ((generate raw className).declarations.flatMap (·.accessorLines)) := by
  rw [generate_eq_ofDeclarations raw className none]
  simp only [Generated.ofDeclarations, Declaration.accessors_outOfLine, flatMap_unlines]

/-- The lines of the accessors of a text can be told apart. -/
theorem splitOn_accessors : (generate raw className).accessors.splitOn '\n' =
    (generate raw className).declarations.flatMap (·.accessorLines) ++ [[]] := by
  rw [generate_accessors]
  apply splitOn_unlines
  intro line hl
  obtain ⟨d, hd, hl⟩ := List.mem_flatMap.mp hl
  exact (accepted_of_mem_declarations hd).lineFeed_not_mem line hl

/-- The inline accessors for a class are the inline lines of the declarations. -/
theorem generate_inline {c : List Char} (h : className.bind trim? = some c) :
    (generate raw className).inline = .scoped
      (['\n'].intercalate ((generate raw className).declarations.flatMap (·.inlineAccessorLines c) ++ [[]])) := by
  rw [generate_eq_ofDeclarations raw className none, h, ← unlines_eq_intercalate]
  simp only [Generated.ofDeclarations, Declaration.accessors_inline, flatMap_unlines]

/-- **Inline accessors mirror the others**: the accessors of a text are four lines for each declaration, and the inline
accessors for a class are made from that text and the class alone. Without a class there are none, and all else is the
same as for any class. -/
theorem inline_eq_inlineText (raw : List Char) :
    (∀ className, (generate raw className).accessors.splitOn '\n' =
        (generate raw className).declarations.flatMap (·.accessorLines) ++ [[]]) ∧
      (∀ s, trim s ≠ [] →
        (generate raw (some s)).inline = .scoped (inlineText (trim s) (generate raw (some s)).accessors)) ∧
      ∀ className, (∀ s ∈ className, trim s = []) →
        (generate raw className).inline = .skipped ∧
        ∀ other, (generate raw className).accessors = (generate raw other).accessors ∧
          (generate raw className).initializers = (generate raw other).initializers ∧
          (generate raw className).declarations = (generate raw other).declarations ∧
          (generate raw className).diagnostics = (generate raw other).diagnostics := by
  refine ⟨splitOn_accessors raw, ?_, ?_⟩
  · intro s hs
    have hc : (some s).bind trim? = some (trim s) := by simp [trim?, hs]
    rw [generate_inline raw _ hc, inlineText, splitOn_accessors,
      inlineLines_flatMap _ fun d hd => accepted_of_mem_declarations hd]
  · intro className hs
    have hc : className.bind trim? = none := by
      cases className with
      | none => rfl
      | some s => simp [trim?, hs s rfl]
    constructor
    · rw [generate_eq_ofDeclarations raw className none, hc]
      rfl
    · intro other
      rw [generate_eq_ofDeclarations raw className other, generate_eq_ofDeclarations raw other other]
      exact ⟨rfl, rfl, rfl, rfl⟩

/-- A class that holds a space and a parenthesis, for a member named after `inline`; and a blank one. -/
theorem inline_eq_inlineText_oddClass :
    trim " Class::U (v ".toList = "Class::U (v".toList ∧
      (generate "Class::T x_inline;".toList (some " Class::U (v ".toList)).inline =
        .scoped (inlineText "Class::U (v".toList
          (generate "Class::T x_inline;".toList (some " Class::U (v ".toList)).accessors) ∧
      (∀ s ∈ some "\t ".toList, trim s = []) ∧
      (generate "Class::T x_inline;".toList (some "\t ".toList)).inline = .skipped := by
  have htrim : trim " Class::U (v ".toList = "Class::U (v".toList := by decide
  have hblank : ∀ s ∈ some "\t ".toList, trim s = [] := by decide
  have h := inline_eq_inlineText "Class::T x_inline;".toList
  have hscoped := h.2.1 " Class::U (v ".toList (by decide)
  rw [htrim] at hscoped
  exact ⟨htrim, hscoped, hblank, (h.2.2 _ hblank).1⟩

end Texts

end AccessorGen
