import AccessorGen.Proofs.Accepted
import AccessorGen.Proofs.LineResults

/-!
# What the log tells

The log of a run is an account of its results. Each line that is not blank leaves the events of its result (`Tells`,
`SourceLine.tells`), and nothing else is logged but the counts at the end. Since a line has one result and one event
with its number, the events of one kind are those of the declarations, or of the diagnostics, in their order
(`forall₂_filterMap_flatMap`), and their lines grow.
-/

namespace AccessorGen

open Text

/-! ## Reading a log -/

namespace Event

/-- The level and the message of an event. -/
def heading (e : Event) : Level × List Char :=
  (e.level, e.message)

/-- What an event tells about the prefix of a member: its name, the prefix before a `p` goes in front, and whether it is
a pointer. -/
def inferred? : Event → Option (List Char × List Char × Bool)
  | prefixInferred name base isPointer => some (name, base, isPointer)
  | _ => none

/-- What an event tells about a declaration: its line, name, category and prefix. -/
def classified? : Event → Option (UInt32 × List Char × Category × List Char)
  | classified line name category paramPrefix => some (line, name, category, paramPrefix)
  | _ => none

/-- What an event tells about a diagnostic: its line and kind. -/
def rejected? : Event → Option (UInt32 × Diagnostic.Kind)
  | rejected line kind => some (line, kind)
  | _ => none

/-- The line that an event is about. -/
def line? : Event → Option UInt32
  | classified line .. | rejected line _ => some line
  | _ => none

end Event

/-! ## Events and results -/

/-- What the log tells of the prefix is right for the declaration: the parameter starts with it, behind a `p` exactly
for a pointer. -/
def Declaration.HasInferred (d : Declaration) : List Char × List Char × Bool → Prop
  | (name, base, isPointer) =>
    name = d.variableName ∧ isPointer = d.isPointer ∧ d.paramPrefix = (if isPointer then ['p'] else []) ++ base

/-- What the log tells of a declaration is right. -/
def Declaration.HasClassified (d : Declaration) : UInt32 × List Char × Category × List Char → Prop
  | (line, name, category, paramPrefix) =>
    line = d.location.line ∧ name = d.variableName ∧ category = d.category ∧ paramPrefix = d.paramPrefix

/-- What the log tells of a diagnostic is right. -/
def Diagnostic.HasRejected (e : Diagnostic) : UInt32 × Diagnostic.Kind → Prop
  | (line, kind) => e.location.map (·.line) = some line ∧ kind = e.kind

/-- The events that a result leaves: those of the prefix and of the declaration one right after the other, or that of
the diagnostic. -/
inductive Tells : Except Diagnostic Declaration → List Event → Prop
  | accepted {d : Declaration} {base : List Char} (inferred : d.HasInferred (d.variableName, base, d.isPointer)) :
      Tells (.ok d) [.prefixInferred d.variableName base d.isPointer,
        .classified d.location.line d.variableName d.category d.paramPrefix]
  | rejected {e : Diagnostic} {line : UInt32} (located : e.HasRejected (line, e.kind)) :
      Tells (.error e) [.rejected line e.kind]

/-- The levels and messages of the events that a result leaves. -/
def headings : Except Diagnostic Declaration → List (Event.Level × List Char)
  | .ok _ => [(.trace, "parameter prefix".toList), (.debug, "declaration classified".toList)]
  | .error _ => [(.debug, "line rejected".toList)]

/-- The log is an account of what a text gave: the events of the results, one for each line that is not blank and in
their order, and then the counts. -/
structure IsAccountOf (raw : List Char) (className : Option (List Char)) (g : Generated) (log : List Event) : Prop where
  blocks : ∃ (blocks : List (List Event)) (inline : Bool),
    List.Forall₂ (IsResultOf raw) (numberedLines raw) g.results ∧ List.Forall₂ Tells g.results blocks ∧
    log = blocks.flatten ++ [.finished g.declarations.length g.diagnostics.length inline] ∧
    (inline = true ↔ ∃ c, className = some c ∧ trim c ≠ [])
  /-- The events of each kind go with the declarations or the diagnostics, one by one. -/
  inferred : List.Forall₂ Declaration.HasInferred g.declarations (log.filterMap Event.inferred?)
  classified : List.Forall₂ Declaration.HasClassified g.declarations (log.filterMap Event.classified?)
  rejected : List.Forall₂ Diagnostic.HasRejected g.diagnostics (log.filterMap Event.rejected?)
  lines_pairwise : (log.filterMap Event.line?).Pairwise (· < ·)
  headings_eq : log.map Event.heading = g.results.flatMap headings ++ [(.debug, "generation finished".toList)]

/-! ## One line -/

section Line

/-- A parsed declaration leaves the events of its result. -/
theorem ParsedDeclaration.tells (p : ParsedDeclaration) : Tells p.outcome.result p.outcome.events := by
  unfold ParsedDeclaration.outcome
  split
  · rename_i e he
    rcases resolve_cases p with ⟨d, -, hd⟩ | hk
    · cases he.symm.trans (hd p.location)
    · cases he.symm.trans (hk p.location)
      exact .rejected ⟨rfl, rfl⟩
  · rename_i d hd
    obtain ⟨-, hd⟩ := resolve_eq_ok_iff.mp hd
    rw [hd]
    refine .accepted ⟨rfl, rfl, ?_⟩
    show inferPrefix p.variableName p.isPointer = _
    unfold inferPrefix
    split
    · rfl
    · rfl

/-- A line leaves the events of its result. -/
theorem SourceLine.tells (l : SourceLine) : Tells l.outcome.result l.outcome.events := by
  unfold SourceLine.outcome
  split
  · rename_i e he
    rcases parseLine_cases l.text with ⟨d, -, hd⟩ | ⟨kind, -, hk⟩
    · cases he.symm.trans (hd l.location)
    · cases he.symm.trans (hk l.location)
      exact .rejected ⟨rfl, rfl⟩
  · rename_i p hp
    exact p.tells

variable {o : LineOutcome}

/-- Only a declaration leaves an event about its prefix. -/
theorem Tells.inferred (h : Tells o.result o.events) :
    List.Forall₂ Declaration.HasInferred o.declaration?.toList (o.events.filterMap Event.inferred?) := by
  obtain ⟨result, events⟩ := o
  cases h with
  | accepted hi => exact .cons hi .nil
  | rejected => exact .nil

/-- Only a declaration leaves an event about itself. -/
theorem Tells.classified (h : Tells o.result o.events) :
    List.Forall₂ Declaration.HasClassified o.declaration?.toList (o.events.filterMap Event.classified?) := by
  obtain ⟨result, events⟩ := o
  cases h with
  | accepted => exact .cons ⟨rfl, rfl, rfl, rfl⟩ .nil
  | rejected => exact .nil

/-- Only a diagnostic leaves an event about itself. -/
theorem Tells.rejected_events (h : Tells o.result o.events) :
    List.Forall₂ Diagnostic.HasRejected o.diagnostic?.toList (o.events.filterMap Event.rejected?) := by
  obtain ⟨result, events⟩ := o
  cases h with
  | accepted => exact .nil
  | rejected he => exact .cons he .nil

/-- Every result leaves one event with its line. -/
theorem Tells.line (h : Tells o.result o.events) :
    List.Forall₂ (fun r line => lineOf r = line.toNat) [o.result] (o.events.filterMap Event.line?) := by
  obtain ⟨result, events⟩ := o
  cases h with
  | accepted => exact .cons rfl .nil
  | rejected he =>
    refine .cons ?_ .nil
    obtain ⟨location, hl, rfl⟩ := Option.map_eq_some_iff.mp he.1
    simp [lineOf, locationOf?, hl]

/-- The events of a result have its levels and messages. -/
theorem Tells.map_heading {r : Except Diagnostic Declaration} {block : List Event} (h : Tells r block) :
    block.map Event.heading = headings r := by
  cases h with
  | accepted => rfl
  | rejected => rfl

end Line

/-! ## All lines -/

section Lines

/-- What is picked from the events of each line, picked from the events of all of them. -/
theorem forall₂_filterMap_flatMap {γ δ : Type} {R : γ → δ → Prop} {f : Event → Option δ} {h : SourceLine → Option γ}
    (hstep : ∀ l, List.Forall₂ R (h l).toList (l.outcome.events.filterMap f)) :
    ∀ ls : List SourceLine, List.Forall₂ R (ls.filterMap h) ((ls.flatMap (·.outcome.events)).filterMap f)
  | [] => .nil
  | l :: ls => by
    have ih := forall₂_filterMap_flatMap hstep ls
    have hcons : (l :: ls).filterMap h = (h l).toList ++ ls.filterMap h := by
      rw [List.filterMap_cons]
      cases h l with
      | none => rfl
      | some x => rfl
    rw [hcons, List.flatMap_cons, List.filterMap_append]
    exact List.rel_append (hstep l) ih

/-- The events of the results of a text tell of each of them. -/
theorem forall₂_tells (ls : List SourceLine) :
    List.Forall₂ Tells (ls.map (·.outcome.result)) (ls.map (·.outcome.events)) := by
  rw [List.forall₂_map_left_iff, List.forall₂_map_right_iff]
  exact List.forall₂_same.mpr fun l _ => l.tells

/-- The log of a text with source lines is made of their events. -/
theorem generateLogged_of_ne_nil {raw : List Char} (className : Option (List Char)) (h : sourceLines raw ≠ []) :
    (generateLogged raw className).2 = (sourceLines raw).flatMap (·.outcome.events) ++
      [.finished (generate raw className).declarations.length (generate raw className).diagnostics.length
        (className.bind trim?).isSome] := by
  have hne : ((sourceLines raw).map (·.outcome)).isEmpty = false := by simpa using h
  simp only [generate, generateLogged, hne, Bool.false_eq_true, if_false, List.flatMap_map, Generated.ofDeclarations]

/-- The lines of the events of a text grow. -/
theorem lines_events_pairwise {raw : List Char} (h : byteLength raw < 2 ^ 32) :
    (((sourceLines raw).flatMap (·.outcome.events)).filterMap Event.line?).Pairwise (· < ·) := by
  have hlines := forall₂_filterMap_flatMap (f := Event.line?) (h := fun l => some l.outcome.result)
    (fun l => l.tells.line) (sourceLines raw)
  have hresults : (sourceLines raw).filterMap (fun l => some l.outcome.result) =
      (sourceLines raw).map (·.outcome.result) := by
    rw [← List.filterMap_eq_map]
    rfl
  have hmap : ((sourceLines raw).map (·.outcome.result)).map lineOf =
      (((sourceLines raw).flatMap (·.outcome.events)).filterMap Event.line?).map UInt32.toNat := by
    rw [← List.forall₂_eq_eq_eq, List.forall₂_map_left_iff, List.forall₂_map_right_iff, ← hresults]
    exact hlines
  have hp := map_result_pairwise h
  rw [← List.pairwise_map, hmap, List.pairwise_map] at hp
  exact hp.imp UInt32.lt_iff_toNat_lt.mpr

/-- The counts at the end are about no line. -/
theorem filterMap_append_finished {δ : Type} (f : Event → Option δ) (hf : ∀ n m b, f (.finished n m b) = none)
    (events : List Event) (n m : Nat) (b : Bool) :
    (events ++ [Event.finished n m b]).filterMap f = events.filterMap f := by
  simp [hf]

/-- The levels and messages of the events of lines are those of their results. -/
theorem map_heading_events (ls : List SourceLine) :
    (ls.flatMap (·.outcome.events)).map Event.heading = (ls.map (·.outcome.result)).flatMap headings := by
  rw [List.map_flatMap, List.flatMap_map]
  exact congrArg ls.flatMap (funext fun l => l.tells.map_heading)

/-- A class is named if something is left of it without its blanks. -/
theorem isSome_bind_trim?_iff (className : Option (List Char)) :
    (className.bind trim?).isSome = true ↔ ∃ c, className = some c ∧ trim c ≠ [] := by
  cases className with
  | none => simp
  | some c => simp [trim?]

/-- **The log is a faithful account**: of a blank text it says that there is nothing, and of any other it tells the
results line by line and counts them. -/
theorem generateLogged_isAccount (raw : List Char) (className : Option (List Char)) (h : byteLength raw < 2 ^ 32) :
    ((∀ c ∈ raw, isBlank c) → (generateLogged raw className).2 = [.noDeclarations] ∧
        (generateLogged raw className).2.map Event.heading = [(.warn, "no declarations supplied".toList)]) ∧
      ((∃ c ∈ raw, ¬ isBlank c) →
        IsAccountOf raw className (generate raw className) (generateLogged raw className).2) := by
  constructor
  · intro hblank
    have hlog : (generateLogged raw className).2 = [.noDeclarations] := by
      simp [generateLogged, sourceLines_eq_nil_iff.mpr hblank]
    rw [hlog]
    exact ⟨rfl, rfl⟩
  · rintro ⟨c, hc, hblank⟩
    have hne : sourceLines raw ≠ [] := fun hnil => hblank (sourceLines_eq_nil_iff.mp hnil c hc)
    have hresults := results_generate className h hne
    have hdeclarations : (generate raw className).declarations =
        (sourceLines raw).filterMap (·.outcome.declaration?) := by
      rw [generate_of_ne_nil className hne]
      rfl
    have hdiagnostics : (generate raw className).diagnostics = (sourceLines raw).filterMap (·.outcome.diagnostic?) := by
      rw [generate_of_ne_nil className hne]
      rfl
    rw [generateLogged_of_ne_nil className hne]
    refine
      { blocks := ⟨(sourceLines raw).map (·.outcome.events), (className.bind trim?).isSome, ?_, ?_, rfl,
          isSome_bind_trim?_iff className⟩
        inferred := ?_
        classified := ?_
        rejected := ?_
        lines_pairwise := ?_
        headings_eq := ?_ }
    · rw [hresults]
      exact map_result_forall₂ h
    · rw [hresults]
      exact forall₂_tells (sourceLines raw)
    · rw [filterMap_append_finished Event.inferred? fun _ _ _ => rfl, hdeclarations]
      exact forall₂_filterMap_flatMap (fun l => l.tells.inferred) (sourceLines raw)
    · rw [filterMap_append_finished Event.classified? fun _ _ _ => rfl, hdeclarations]
      exact forall₂_filterMap_flatMap (fun l => l.tells.classified) (sourceLines raw)
    · rw [filterMap_append_finished Event.rejected? fun _ _ _ => rfl, hdiagnostics]
      exact forall₂_filterMap_flatMap (fun l => l.tells.rejected_events) (sourceLines raw)
    · rw [filterMap_append_finished Event.line? fun _ _ _ => rfl]
      exact lines_events_pairwise h
    · rw [List.map_append, map_heading_events, hresults]
      rfl

/-- A pointer, an empty line, and two lines that are rejected by different stages. -/
theorem generateLogged_isAccount_mixed :
    let raw := "int *mcsi_a;\n\nbad\nint b[2];".toList
    let run := generateLogged raw (some " C".toList)
    byteLength raw < 2 ^ 32 ∧ (∃ c ∈ raw, ¬ isBlank c) ∧
      run.2 = [.prefixInferred "mcsi_a".toList "siL".toList true,
        .classified 1 "mcsi_a".toList .pointer "psiL".toList, .rejected 3 .grammarMismatch,
        .rejected 4 .unsupportedArrayElement, .finished 1 2 true] ∧
      IsAccountOf raw (some " C".toList) run.1 run.2 := by
  have hfit : byteLength "int *mcsi_a;\n\nbad\nint b[2];".toList < 2 ^ 32 := by decide
  have hne : ∃ c ∈ "int *mcsi_a;\n\nbad\nint b[2];".toList, ¬ isBlank c := ⟨'i', by decide, by decide⟩
  exact ⟨hfit, hne, by decide +kernel, (generateLogged_isAccount _ _ hfit).2 hne⟩

end Lines

end AccessorGen
