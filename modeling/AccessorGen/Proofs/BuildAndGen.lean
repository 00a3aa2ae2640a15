import AccessorGen.Proofs.Commands
import AccessorGen.Proofs.ManifestRoundTrip

/-!
# Building and printing agree

For the declarations of a project, `build` and `gen` find the same errors and print the same diagnostics, and what `gen`
prints are the files that `build` writes, under headings (`build_agrees_with_gen`).

- `gen` reads the declarations and prints the report of the code for them (`exec_runGen_of_exists`);
- if the output paths name different files (`FileSystem.TakesOutput`), each of these files holds its part of the code
  after a build (`readText_of_mem_placed`), so the report is made of their texts (`PrintsBuilt`,
  `printsBuilt_report`).
-/

namespace AccessorGen

open Text

variable {standardInput : ByteArray} {fs fs₁ fs' : FileSystem} {o : Output} {p file root : Path} {m : Manifest}
  {source : List Char} {className : Option (List Char)} {accessors inline init : Place}

/-! ## Printing the code for a file -/

section Printing

open Session Command

theorem exec_runGen (hfile : fs.readText file = .ok source) (hdash : ¬ file.same ['-']) :
    exec (runGen (FileSystem.host standardInput) (some file) className) o fs =
      exec (do
        let g ← generateReporting source file className
        print (g.report className)) o fs := by
  have hsource : exec (genSource (FileSystem.host standardInput) (some file)) o fs = (.ok (source, file), o, fs) := by
    simp only [genSource]
    rw [if_neg hdash, exec_bind, exec_attempt, run_readDeclarations, hfile]
    rfl
  rw [runGen, exec_bind, hsource]

theorem exec_runGen_of_blank (hfile : fs.readText file = .ok source) (hdash : ¬ file.same ['-'])
    (hblank : ∀ c ∈ source, isBlank c) :
    exec (runGen (FileSystem.host standardInput) (some file) className) o fs =
      (.error .generationFailed,
        { o with stderr := o.stderr ++ printedDiagnostics source file (generate source className).diagnostics },
        fs) := by
  rw [exec_runGen hfile hdash, exec_bind, exec_generateReporting_of_blank _ _ _ _ hblank]

theorem exec_runGen_of_exists (hfile : fs.readText file = .ok source) (hdash : ¬ file.same ['-'])
    (hsome : ∃ c ∈ source, ¬ isBlank c) :
    exec (runGen (FileSystem.host standardInput) (some file) className) o fs =
      (.ok (), ⟨o.stdout ++ (generate source className).report className,
        o.stderr ++ printedDiagnostics source file (generate source className).diagnostics⟩, fs) := by
  rw [exec_runGen hfile hdash, exec_bind, exec_generateReporting_of_exists _ _ _ _ hsome]
  rfl

end Printing

/-! ## Different output files -/

/-- The output directory of a project can be made, and then the output paths name files at three different places. -/
def FileSystem.TakesOutput (standardInput : ByteArray) (fs : FileSystem) (root : Path) (output : OutputPaths)
    (accessors inline init : Place) : Prop :=
  [accessors, inline, init].Nodup ∧ ∃ fs₁,
    ((FileSystem.host standardInput).makeDirs (output.dirPath root)).run fs = (.ok (), fs₁) ∧
      fs₁.NamesFile (output.accessorsPath root) accessors ∧ fs₁.NamesFile (output.inlinePath root) inline ∧
      fs₁.NamesFile (output.initPath root) init

/-- The text is made of what the files of a build hold, under headings. Without a class, nothing has changed where the
inline accessors would be, and a notice stands for them. -/
inductive PrintsBuilt (fs fs' : FileSystem) (root : Path) (m : Manifest) (inline : Place) : List Char → Prop
  | ofClass {c accessors inlineAccessors initializers : List Char} (hclass : m.className = some c) (hc : trim c ≠ [])
      (haccessors : fs'.readText (m.output.accessorsPath root) = .ok accessors)
      (hinline : fs'.readText (m.output.inlinePath root) = .ok inlineAccessors)
      (hinit : fs'.readText (m.output.initPath root) = .ok initializers) :
      PrintsBuilt fs fs' root m inline
        ("// ===== Generated Getters/Setters =====\n".toList ++ accessors ++
          "// ===== Inline (with ".toList ++ trim c ++ "::) =====\n".toList ++ inlineAccessors ++
          "// ===== Initialization Code =====\n".toList ++ initializers)
  | ofNone {accessors initializers : List Char} (hclass : ∀ c, m.className = some c → trim c = [])
      (haccessors : fs'.readText (m.output.accessorsPath root) = .ok accessors)
      (hinline : fs'.get? inline = fs.get? inline)
      (hinit : fs'.readText (m.output.initPath root) = .ok initializers) :
      PrintsBuilt fs fs' root m inline
        ("// ===== Generated Getters/Setters =====\n".toList ++ accessors ++
          "// No class name provided - inline version skipped.\n\n".toList ++
          "// ===== Initialization Code =====\n".toList ++ initializers)

/-- The report with inline accessors for a class. -/
theorem report_eq_of_scoped {g : Generated} {s c : List Char} (h : g.inline = .scoped s) (hc : className = some c) :
    g.report className = "// ===== Generated Getters/Setters =====\n".toList ++ g.accessors ++
      "// ===== Inline (with ".toList ++ trim c ++ "::) =====\n".toList ++ s ++
      "// ===== Initialization Code =====\n".toList ++ g.initializers := by
  unfold Generated.report
  rw [h, hc]
  simp only [List.append_assoc, Option.getD_some]

/-- The report without inline accessors. -/
theorem report_eq_of_skipped {g : Generated} (h : g.inline = .skipped) :
    g.report className = "// ===== Generated Getters/Setters =====\n".toList ++ g.accessors ++
      "// No class name provided - inline version skipped.\n\n".toList ++
      "// ===== Initialization Code =====\n".toList ++ g.initializers := by
  have hnotice : "// No class name provided - inline version skipped.\n\n".toList =
      "// ".toList ++ inlineSkipped ++ "\n\n".toList := by decide
  unfold Generated.report
  rw [h, hnotice]

/-- The generated files, each with a place for it. -/
def OutputPaths.placed (output : OutputPaths) (root : Path) (g : Generated) (accessors inline init : Place) :
    List ((Path × List Char) × Place) :=
  [((output.accessorsPath root, g.accessors), accessors)]
    ++ (match g.inline with
      | .scoped s => [((output.inlinePath root, s), inline)]
      | .skipped => [])
    ++ [((output.initPath root, g.initializers), init)]

section Placed

variable (output : OutputPaths) (root : Path) (g : Generated) (accessors inline init : Place)

theorem OutputPaths.map_placed : (output.placed root g accessors inline init).map (·.1) = output.files root g := by
  unfold placed files
  rcases g.inline with s | _ <;> rfl

theorem OutputPaths.places_sublist :
    List.Sublist ((output.placed root g accessors inline init).map (·.2)) [accessors, inline, init] := by
  unfold placed
  rcases g.inline with s | _
  · exact .refl _
  · exact .cons_cons _ (.cons _ (.refl _))

theorem OutputPaths.accessors_mem_placed :
    ((output.accessorsPath root, g.accessors), accessors) ∈ output.placed root g accessors inline init := by
  simp [placed]

theorem OutputPaths.inline_mem_placed {s : List Char} (hg : g.inline = .scoped s) :
    ((output.inlinePath root, s), inline) ∈ output.placed root g accessors inline init := by
  simp [placed, hg]

theorem OutputPaths.init_mem_placed :
    ((output.initPath root, g.initializers), init) ∈ output.placed root g accessors inline init := by
  simp [placed]

end Placed

section Files

variable {g : Generated} (hnodup : [accessors, inline, init].Nodup)
  (haccessors : fs₁.NamesFile (m.output.accessorsPath root) accessors)
  (hinline : fs₁.NamesFile (m.output.inlinePath root) inline) (hinit : fs₁.NamesFile (m.output.initPath root) init)
include haccessors hinline hinit

theorem namesFile_of_mem_placed : ∀ f ∈ m.output.placed root g accessors inline init, fs₁.NamesFile f.1.1 f.2 := by
  unfold OutputPaths.placed
  rcases g.inline with s | _
  · simp [haccessors, hinline, hinit]
  · simp [haccessors, hinit]

/-- The generated files can be written. -/
theorem exists_writes_files : ∃ fs', fs₁.Writes (m.output.files root g) fs' := by
  apply FileSystem.exists_writes
  intro f hf
  rw [← m.output.map_placed root g accessors inline init] at hf
  obtain ⟨placed, hmem, rfl⟩ := List.mem_map.mp hf
  exact ⟨placed.2, namesFile_of_mem_placed haccessors hinline hinit placed hmem⟩

include hnodup

/-- Each of the files holds its part of the code. -/
theorem readText_of_mem_placed (hwrites : fs₁.Writes (m.output.files root g) fs') {f : Path × List Char} {place : Place}
    (hf : (f, place) ∈ m.output.placed root g accessors inline init) : fs'.readText f.1 = .ok f.2 := by
  rw [← m.output.map_placed root g accessors inline init] at hwrites
  have hnames := namesFile_of_mem_placed (g := g) haccessors hinline hinit
  have hplaces := hnodup.sublist (m.output.places_sublist root g accessors inline init)
  exact FileSystem.readText_of_find (hwrites.find_of_nodup hnames hplaces (f, place) hf)

/-- Without inline accessors nothing has changed at their place. -/
theorem get?_inline_eq (hg : g.inline = .skipped)
    (hmade : FileSystem.DirectoriesMade fs (m.output.dirPath root) fs₁)
    (hwrites : fs₁.Writes (m.output.files root g) fs') : fs'.get? inline = fs.get? inline := by
  rw [← m.output.map_placed root g accessors inline init] at hwrites
  have hnames := namesFile_of_mem_placed (g := g) haccessors hinline hinit
  have hother : inline ∉ (m.output.placed root g accessors inline init).map (·.2) := by
    simp only [List.nodup_cons, List.mem_cons, not_or] at hnodup
    simpa [OutputPaths.placed, hg] using ⟨Ne.symm hnodup.1.1, hnodup.2.1.1⟩
  obtain ⟨-, -, -, -, -, hdirectory⟩ := hinline
  exact (hwrites.get?_of_not_mem hnames hother).trans (hmade.get?_eq hdirectory)

/-- The report of the code is made of what the files hold in which it was written. -/
theorem printsBuilt_report (hmade : FileSystem.DirectoriesMade fs (m.output.dirPath root) fs₁)
    (hwrites : fs₁.Writes (m.output.files root (generate source m.className)) fs') :
    PrintsBuilt fs fs' root m inline ((generate source m.className).report m.className) := by
  have haccessors' := readText_of_mem_placed hnodup haccessors hinline hinit hwrites
    (m.output.accessors_mem_placed root _ accessors inline init)
  have hinit' := readText_of_mem_placed hnodup haccessors hinline hinit hwrites
    (m.output.init_mem_placed root _ accessors inline init)
  have hclass := exists_inline_eq_iff source m.className
  rcases hg : (generate source m.className).inline with s | _
  · obtain ⟨c, hc, hne⟩ := hclass.mp ⟨s, hg⟩
    have hinline' := readText_of_mem_placed hnodup haccessors hinline hinit hwrites
      (m.output.inline_mem_placed root _ accessors inline init hg)
    rw [report_eq_of_scoped hg hc]
    exact .ofClass hc hne haccessors' hinline' hinit'
  · have hblank : ∀ c, m.className = some c → trim c = [] := by
      intro c hc
      by_contra hne
      obtain ⟨s, hs⟩ := hclass.mpr ⟨c, hc, hne⟩
      rw [hg] at hs
      cases hs
    rw [report_eq_of_skipped hg]
    exact .ofNone hblank haccessors' (get?_inline_eq hnodup haccessors hinline hinit hg hmade hwrites) hinit'

end Files

/-! ## Agreement -/

/-- **Building and printing agree**: a build of a project whose output paths name different files succeeds exactly if
the code for its declarations can be printed, which is so exactly if the declarations are not blank. Both print the
same diagnostics, and what is printed are the files of the build under headings. -/
theorem build_agrees_with_gen (hproject : fs.HasProject (projectRoot p) m source)
    (houtput : fs.TakesOutput standardInput (projectRoot p) m.output accessors inline init)
    (hfile : fs.readText file = .ok source) (hdash : ¬ file.same ['-']) :
    let build := (Command.run (FileSystem.host standardInput) (.build p)).run fs
    let gen := (Command.run (FileSystem.host standardInput) (.gen (some file) m.className)).run fs
    (build.1.failure = none ↔ gen.1.failure = none) ∧
      (gen.1.failure = none ↔ ∃ c ∈ source, ¬ isBlank c) ∧
      build.1.output.stderr =
        printedDiagnostics source (m.inputPath (projectRoot p)) (generate source m.className).diagnostics ∧
      gen.1.output.stderr = printedDiagnostics source file (generate source m.className).diagnostics ∧
      (file = m.inputPath (projectRoot p) → gen.1.stderr = build.1.stderr) ∧
      gen.2 = fs ∧
      (gen.1.failure = none → PrintsBuilt fs build.2 (projectRoot p) m inline gen.1.output.stdout) := by
  intro build gen
  obtain ⟨hnodup, fs₁, hdirs, haccessors, hinline, hinit⟩ := houtput
  by_cases hblank : ∀ c ∈ source, isBlank c
  · have hbuild : build = _ := Session.run_report_of_error (exec_runBuild_of_blank hproject hblank)
    have hgen : gen = _ := Session.run_report_of_error (exec_runGen_of_blank hfile hdash hblank)
    rw [hbuild, hgen]
    refine ⟨by simp, by simpa using hblank, rfl, rfl, ?_, rfl, nofun⟩
    rintro rfl
    rfl
  · have hsome : ∃ c ∈ source, ¬ isBlank c := by simpa using hblank
    obtain ⟨fs', hwrites⟩ := exists_writes_files haccessors hinline hinit
    have hbuild : build = _ := Session.run_report_of_ok
      (exec_runBuild_eq_ok_iff.mpr ⟨m, source, fs₁, hproject, hsome, hdirs, hwrites, rfl⟩)
    have hgen : gen = _ := Session.run_report_of_ok (exec_runGen_of_exists hfile hdash hsome)
    rw [hbuild, hgen]
    refine ⟨by simp, by simpa using hsome, rfl, rfl, ?_, rfl, fun _ => ?_⟩
    · rintro rfl
      rfl
    · exact printsBuilt_report hnodup haccessors hinline hinit (FileSystem.makeDirs_eq_ok hdirs).1 hwrites

/-- The manifest of `spacedProject`. -/
def spacedManifest : Manifest where
  name := "x".toList
  className := some "\u3000C D\t".toList

/-- A project whose class is in odd blanks, with a line that is no declaration. -/
def spacedProject : FileSystem :=
  ⟨[(["p".toList], .directory), (["p".toList, Manifest.fileName], .file (encode spacedManifest.toToml)),
    (["p".toList, "members.decl".toList], .file (encode "int n_x;\nbad".toList))], []⟩

theorem build_agrees_with_gen_spaced :
    let build := (Command.run (FileSystem.host .empty) (.build "p".toList)).run spacedProject
    let gen := (Command.run (FileSystem.host .empty) (.gen (some "p/members.decl".toList) spacedManifest.className)).run
      spacedProject
    build.1.failure = none ∧ gen.1.stderr = build.1.stderr ∧
      PrintsBuilt spacedProject build.2 "p".toList spacedManifest
        ["p".toList, "dist".toList, "accessors_inline.hpp".toList] gen.1.output.stdout := by
  have hroot : projectRoot "p".toList = "p".toList := by decide
  have hmanifest : spacedProject.find "p/gsgen.toml".toList =
      .ok (["p".toList, Manifest.fileName], .file (encode spacedManifest.toToml)) := rfl
  have hsource : spacedProject.find "p/members.decl".toList =
      .ok (["p".toList, "members.decl".toList], .file (encode "int n_x;\nbad".toList)) := rfl
  have hfile := FileSystem.readText_of_find hsource
  have hproject : spacedProject.HasProject (projectRoot "p".toList) spacedManifest "int n_x;\nbad".toList :=
    ⟨⟨_, FileSystem.readText_of_find hmanifest, Manifest.ofToml?_toToml spacedManifest⟩, hfile⟩
  have houtput : spacedProject.TakesOutput .empty (projectRoot "p".toList) spacedManifest.output
      ["p".toList, "dist".toList, "accessors.hpp".toList] ["p".toList, "dist".toList, "accessors_inline.hpp".toList]
      ["p".toList, "dist".toList, "init.inc".toList] := by
    refine ⟨by decide, spacedProject.put ["p".toList, "dist".toList] .directory, rfl, ?_, ?_, ?_⟩
    · exact ⟨["p".toList, "dist".toList], "accessors.hpp".toList, rfl, by decide, rfl, by decide +kernel⟩
    · exact ⟨["p".toList, "dist".toList], "accessors_inline.hpp".toList, rfl, by decide, rfl, by decide +kernel⟩
    · exact ⟨["p".toList, "dist".toList], "init.inc".toList, rfl, by decide, rfl, by decide +kernel⟩
  obtain ⟨hbuild, hgen, -, -, hstderr, -, hprints⟩ :=
    build_agrees_with_gen hproject houtput hfile (by decide)
  have hok := hgen.mpr ⟨'i', by decide, by decide⟩
  rw [hroot] at hprints
  exact ⟨hbuild.mpr hok, hstderr (by decide), hprints hok⟩

end AccessorGen
