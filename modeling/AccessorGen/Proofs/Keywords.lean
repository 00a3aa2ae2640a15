import AccessorGen.Proofs.Accepted
import Mathlib.Data.List.Infix
import Mathlib.Data.List.Perm.Basic

/-!
# Keywords of a type

Keywords are looked for in the whole text of a type, blanks and `::` included. Since a keyword is made of word
characters, it never reaches over a character that is none (`infix_append_cons_iff`): it stands in the text exactly if
it stands in one run of word characters of one word (`infix_typeText_iff`).

Hence the runs alone decide about the category, and the order of the words does not matter (`ofType?_typeText`).
-/

namespace AccessorGen

open Text

/-! ## Types and their runs -/

/-- The runs of word characters in a qualified word. -/
def QualifiedWord.runs (q : QualifiedWord) : List (List Char) :=
  q.first :: q.glued

/-- The text of a type: its words, separated by single spaces. -/
def typeText (type : List QualifiedWord) : List Char :=
  [' '].intercalate (type.map (·.text))

/-- The keyword stands in some run of some word of the type. -/
def HasKeyword (type : List QualifiedWord) (keyword : List Char) : Prop :=
  ∃ q ∈ type, ∃ run ∈ q.runs, keyword <:+: run

instance (type : List QualifiedWord) (keyword : List Char) : Decidable (HasKeyword type keyword) :=
  inferInstanceAs (Decidable (∃ q ∈ type, ∃ run ∈ q.runs, keyword <:+: run))

/-! ## No keyword reaches over a separator -/

section Search

variable {keyword : List Char}

/-- A text that lacks a character stands on one side of it. -/
theorem infix_append_cons_iff {c : Char} (hc : c ∉ keyword) (a b : List Char) :
    keyword <:+: a ++ c :: b ↔ keyword <:+: a ∨ keyword <:+: b := by
  have hnil : ∀ s, s <+: c :: b → c ∉ s → s = [] := by
    intro s hs hcs
    rcases List.prefix_cons_iff.mp hs with rfl | ⟨t, rfl, -⟩
    · rfl
    · exact absurd List.mem_cons_self hcs
  constructor
  · intro h
    rcases List.infix_append_iff.mp h with h | h | ⟨s, t, rfl, hs, ht⟩
    · exact .inl h
    · rcases List.infix_cons_iff.mp h with h | h
      · rw [hnil keyword h hc]
        exact .inl List.nil_infix
      · exact .inr h
    · have : t = [] := hnil t ht fun hm => hc (List.mem_append_right s hm)
      rw [this, List.append_nil]
      exact .inl hs.isInfix
  · rintro (h | h)
    · exact List.infix_append_iff.mpr (.inl h)
    · exact List.infix_append_iff.mpr (.inr (.inl (List.infix_cons h)))

/-- A keyword without colons stands in a qualified word exactly if it stands in one of its runs. -/
theorem infix_glued_iff (hne : keyword ≠ []) (hc : ':' ∉ keyword) : ∀ (glued : List (List Char)) (first : List Char),
    keyword <:+: first ++ QualifiedWord.gluedText glued ↔ ∃ run ∈ first :: glued, keyword <:+: run
  | [], first => by simp [QualifiedWord.gluedText]
  | w :: glued, first => by
    have ih := infix_glued_iff hne hc glued w
    have htext : first ++ QualifiedWord.gluedText (w :: glued) =
        first ++ ':' :: ([] ++ ':' :: (w ++ QualifiedWord.gluedText glued)) := by
      simp [QualifiedWord.gluedText]
    rw [htext, infix_append_cons_iff hc, infix_append_cons_iff hc, ih, List.infix_nil]
    simp only [hne, false_or, List.exists_mem_cons_iff]

/-- A keyword without spaces stands in words with spaces between them exactly if it stands in one of the words. -/
theorem infix_intercalate_iff (hne : keyword ≠ []) (hs : ' ' ∉ keyword) : ∀ words : List (List Char),
    keyword <:+: [' '].intercalate words ↔ ∃ word ∈ words, keyword <:+: word
  | [] => by simp [hne]
  | [word] => by simp
  | word :: next :: words => by
    have ih := infix_intercalate_iff hne hs (next :: words)
    have htext : [' '].intercalate (word :: next :: words) = word ++ ' ' :: [' '].intercalate (next :: words) := by
      simp [List.intercalate_cons_cons]
    rw [htext, infix_append_cons_iff hs, ih, List.exists_mem_cons_iff (l := next :: words)]

/-- **Keywords do not straddle words**: a word stands in the text of a type exactly if it stands in one of the runs. -/
theorem infix_typeText_iff (hk : IsWord keyword) (type : List QualifiedWord) :
    keyword <:+: typeText type ↔ HasKeyword type keyword := by
  have hnot : ∀ c, ¬ isWordChar c → c ∉ keyword := fun c hc hm => hc (hk.2 c hm)
  have hword : ∀ q : QualifiedWord, keyword <:+: q.text ↔ ∃ run ∈ q.runs, keyword <:+: run :=
    fun q => infix_glued_iff hk.1 (hnot ':' (by decide)) q.glued q.first
  rw [typeText, infix_intercalate_iff hk.1 (hnot ' ' (by decide)), HasKeyword]
  simp only [← hword, List.mem_map, exists_exists_and_eq_and]

/-- The order of the words does not matter to a keyword. -/
theorem HasKeyword.perm {type type' : List QualifiedWord} (h : type'.Perm type) :
    HasKeyword type' keyword ↔ HasKeyword type keyword := by
  simp only [HasKeyword, h.mem_iff]

end Search

/-! ## Categories -/

section Categories

/-- The built-in family that the runs of a type name, the first in the order of the rules. -/
def primitiveByRuns (type : List QualifiedWord) : Option Primitive :=
  if HasKeyword type "bool".toList then some .bool
  else if HasKeyword type "char".toList then some .char
  else if HasKeyword type "string".toList then some .string
  else if ∃ keyword ∈ ["int", "short", "long", "double", "float"], HasKeyword type keyword.toList then some .numeric
  else none

theorem ofType?_eq_primitiveByRuns (type : List QualifiedWord) :
    Primitive.ofType? (typeText type) = primitiveByRuns type := by
  have hiff : ∀ keyword : String, IsWord keyword.toList →
      (occurs keyword.toList (typeText type) = true ↔ HasKeyword type keyword.toList) :=
    fun keyword hk => occurs_iff.trans (infix_typeText_iff hk type)
  have hnumeric : Primitive.numericKeywords.any (occurs · (typeText type)) = true ↔
      ∃ keyword ∈ ["int", "short", "long", "double", "float"], HasKeyword type keyword.toList := by
    have hall : ∀ keyword ∈ ["int", "short", "long", "double", "float"], IsWord keyword.toList := by decide
    rw [show Primitive.numericKeywords = ["int", "short", "long", "double", "float"].map String.toList from rfl,
      List.any_map, List.any_eq_true]
    exact exists_congr fun keyword => and_congr_right fun hk => hiff keyword (hall keyword hk)
  simp only [Primitive.ofType?, primitiveByRuns, hiff "bool" (by decide), hiff "char" (by decide),
    hiff "string" (by decide), hnumeric]

/-- Keywords and their absence decide about the category, apart from the star and the size. -/
theorem category_eq_ok_of_keywords {p p' : ParsedDeclaration} (hpointer : p'.isPointer = p.isPointer)
    (hsize : p'.arraySize = p.arraySize)
    (hprimitive : Primitive.ofType? p'.dataType = Primitive.ofType? p.dataType)
    (hchar : "char".toList <:+: p'.dataType ↔ "char".toList <:+: p.dataType) (c : Category) :
    p'.category = .ok c ↔ p.category = .ok c := by
  rw [category_eq_ok_iff, category_eq_ok_iff, hpointer, hsize, hprimitive, hchar]

/-- A declaration without a category is refused for its array elements. -/
theorem kind_of_category_error {p : ParsedDeclaration} {e : Diagnostic} (h : p.category = .error e) :
    e.kind = .unsupportedArrayElement := by
  rcases category_cases p with ⟨c, hc⟩ | hc
  · cases h.symm.trans (hc p.location)
  · cases h.symm.trans (hc p.location)
    rfl

/-- Two declarations are resolved alike: both to the same category and with the same initializer, or none of them
because it is an array of something other than characters. -/
inductive ResolvedAlike (p p' : ParsedDeclaration) : Prop
  | accepted (d d' : Declaration) (resolved : p.resolve = .ok d) (resolved' : p'.resolve = .ok d')
      (category : p.category = .ok d.category) (category' : p'.category = .ok d.category)
      (initializer_eq : d'.initializer = d.initializer)
  | refused (e e' : Diagnostic) (category : p.category = .error e) (category' : p'.category = .error e')
      (kind : e.kind = .unsupportedArrayElement) (kind' : e'.kind = .unsupportedArrayElement)

/-- A declaration with a category is resolved to it. -/
theorem exists_resolve_eq_ok {p : ParsedDeclaration} {c : Category} (h : p.category = .ok c) :
    ∃ d, p.resolve = .ok d ∧ d.category = c ∧ d.variableName = p.variableName := by
  refine ⟨⟨p, meaningfulName p.variableName, capitalize (meaningfulName p.variableName), c,
    inferPrefix p.variableName p.isPointer⟩, ?_, rfl, rfl⟩
  exact resolve_eq_ok_iff.mpr ⟨h, rfl⟩

/-- Declarations of one name that have the same categories are resolved alike. -/
theorem resolvedAlike_of_category {p p' : ParsedDeclaration} (hname : p'.variableName = p.variableName)
    (h : ∀ c, p'.category = .ok c ↔ p.category = .ok c) : ResolvedAlike p p' := by
  cases hp : p.category with
  | ok c =>
    have hp' := (h c).mpr hp
    obtain ⟨d, hd, rfl, hv⟩ := exists_resolve_eq_ok hp
    obtain ⟨d', hd', hc', hv'⟩ := exists_resolve_eq_ok hp'
    refine .accepted d d' hd hd' hp hp' ?_
    rw [Declaration.initializer, Declaration.initializer, hc', hv', hname, hv]
  | error e =>
    cases hp' : p'.category with
    | ok c => cases hp.symm.trans ((h c).mp hp')
    | error e' => exact .refused e e' hp hp' (kind_of_category_error hp) (kind_of_category_error hp')

/-- **Keywords are found by run, in any order**: the runs of a type decide about its built-in family, and with its words
in another order a declaration is resolved alike. -/
theorem ofType?_typeText (type : List QualifiedWord) :
    Primitive.ofType? (typeText type) = primitiveByRuns type ∧
      ∀ type' : List QualifiedWord, type'.Perm type → ∀ p p' : ParsedDeclaration,
        p.dataType = typeText type → p'.dataType = typeText type' → p'.variableName = p.variableName →
        p'.isPointer = p.isPointer → p'.arraySize = p.arraySize → ResolvedAlike p p' := by
  refine ⟨ofType?_eq_primitiveByRuns type, ?_⟩
  intro type' hperm p p' htype htype' hname hpointer hsize
  have hkeyword : ∀ keyword, HasKeyword type' keyword ↔ HasKeyword type keyword := fun _ => HasKeyword.perm hperm
  refine resolvedAlike_of_category hname (category_eq_ok_of_keywords hpointer hsize ?_ ?_)
  · rw [htype, htype', ofType?_eq_primitiveByRuns, ofType?_eq_primitiveByRuns]
    simp only [primitiveByRuns, hkeyword]
  · rw [htype, htype', infix_typeText_iff (by decide), infix_typeText_iff (by decide), hkeyword]

/-- The two halves of `int` in words of their own are no keyword, and a char array stays one with its words swapped. -/
theorem ofType?_typeText_swapped :
    Primitive.ofType? "in t::ing".toList = none ∧
      ResolvedAlike
        ⟨⟨1, ⟨0, 27⟩⟩, "unsigned my::uchar_t a[4];".toList, "unsigned my::uchar_t".toList, "a".toList, false, some 4⟩
        ⟨⟨2, ⟨0, 27⟩⟩, "my::uchar_t unsigned a[4];".toList, "my::uchar_t unsigned".toList, "a".toList, false,
          some 4⟩ := by
  refine ⟨(ofType?_typeText [⟨"in".toList, []⟩, ⟨"t".toList, ["ing".toList]⟩]).1.trans (by decide), ?_⟩
  exact (ofType?_typeText [⟨"unsigned".toList, []⟩, ⟨"my".toList, ["uchar_t".toList]⟩]).2
    [⟨"my".toList, ["uchar_t".toList]⟩, ⟨"unsigned".toList, []⟩] (.swap _ _ []) _ _ (by decide) (by decide) rfl rfl rfl

end Categories

end AccessorGen
