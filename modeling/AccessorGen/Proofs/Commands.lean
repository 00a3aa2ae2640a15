import AccessorGen.Command
import AccessorGen.Proofs.FileSystem
import AccessorGen.Proofs.LineResults
import Mathlib.Data.List.DropRight

/-!
# What commands do on a file system

- A project is there when its manifest can be loaded and its declarations read (`FileSystem.HasProject`). Then a
  build generates code from them (`exec_runBuild`); if it is not, or if the declarations are blank
  (`FileSystem.Unbuildable`), a build fails and leaves all as it was (`exec_runBuild_of_unbuildable`);
- generating fails exactly for blank declarations, after the diagnostics were printed (`exec_generateReporting`);
- the generated files are written in the order of `OutputPaths.files`, after their directory was made
  (`exec_writeOutputs_eq_ok_iff`), and this is all that a build does (`exec_runBuild_eq_ok_iff`).
-/

namespace AccessorGen

open Text

variable {standardInput : ByteArray} {fs fs' : FileSystem} {o o' : Output}

/-! ## Sessions that succeed -/

namespace Session

variable {α β ε : Type}

theorem exec_bind_eq_ok_iff {s : Session (StateM FileSystem) α} {k : α → Session (StateM FileSystem) β} {b : β} :
    exec (s >>= k) o fs = (.ok b, o', fs') ↔
      ∃ a o₁ fs₁, exec s o fs = (.ok a, o₁, fs₁) ∧ exec (k a) o₁ fs₁ = (.ok b, o', fs') := by
  rw [exec_bind]
  constructor
  · intro h
    split at h
    · rename_i a o₁ fs₁ hs
      exact ⟨a, o₁, fs₁, hs, h⟩
    · cases h
  · rintro ⟨a, o₁, fs₁, hs, hk⟩
    rw [hs]
    exact hk

theorem exec_attempt_eq_ok_iff {failure : ε → Failure} {action : StateM FileSystem (Except ε α)} {a : α} :
    exec (attempt failure action) o fs = (.ok a, o', fs') ↔ action.run fs = (.ok a, fs') ∧ o' = o := by
  rw [exec_attempt]
  constructor
  · intro h
    split at h
    · rename_i hrun
      cases h
      exact ⟨hrun, rfl⟩
    · cases h
  · rintro ⟨hrun, rfl⟩
    rw [hrun]

section Reports

variable {s : Session (StateM FileSystem) Unit}

theorem run_report_of_ok (h : exec s {} fs = (.ok (), o, fs')) : s.report.run fs = (⟨o, none⟩, fs') := by
  rw [run_report, h]

theorem run_report_of_error {f : Failure} (h : exec s {} fs = (.error f, o, fs')) :
    s.report.run fs = (⟨o, some f⟩, fs') := by
  rw [run_report, h]

/-- A session succeeds if its report tells no failure. -/
theorem exec_eq_of_report (h : (s.report.run fs).1.failure = none) :
    exec s {} fs = (.ok (), (s.report.run fs).1.output, (s.report.run fs).2) := by
  rcases he : exec s {} fs with ⟨r, o, fs'⟩
  cases r with
  | ok u => rw [run_report_of_ok he]
  | error f =>
    rw [run_report_of_error he] at h
    cases h

end Reports

end Session

/-! ## Reading -/

namespace FileSystem

/-- The text of the file at a path. -/
def readText (fs : FileSystem) (p : Path) : Except IoError (List Char) :=
  match fs.readFile p with
  | .error e => .error e
  | .ok bytes =>
    match decode? bytes with
    | some s => .ok s
    | none => .error .invalidText

/-- A file that holds the encoding of a text has that text. -/
theorem readText_of_readFile {p : Path} {s : List Char} (h : fs.readFile p = .ok (encode s)) :
    fs.readText p = .ok s := by
  rw [readText, h]
  simp

theorem readText_of_find {p : Path} {place : Place} {s : List Char} (h : fs.find p = .ok (place, .file (encode s))) :
    fs.readText p = .ok s :=
  readText_of_readFile (readFile_eq_ok_iff.mpr ⟨place, h⟩)

theorem run_readText_eq (standardInput : ByteArray) (fs : FileSystem) (p : Path) :
    ((host standardInput).readText p).run fs = (fs.readText p, fs) := by
  have hread : ((host standardInput).readFile p).run fs = (fs.readFile p, fs) := rfl
  rw [Host.readText, StateT.run_bind, hread]
  unfold readText
  cases fs.readFile p with
  | error e => rfl
  | ok bytes =>
    cases hd : decode? bytes with
    | none =>
      simp only [bind, hd]
      rfl
    | some s =>
      simp only [bind, hd]
      rfl

/-- The manifest of a project can be loaded, and its file of declarations holds the text. -/
structure HasProject (fs : FileSystem) (root : Path) (m : Manifest) (source : List Char) : Prop where
  manifest : ∃ text, fs.readText (root.join Manifest.fileName) = .ok text ∧ Manifest.ofToml? text = some m
  source : fs.readText (m.inputPath root) = .ok source

/-- There is nothing that a build could generate code from. -/
inductive Unbuildable (fs : FileSystem) (root : Path) : Prop
  | manifestUnreadable (e : IoError) (h : fs.readText (root.join Manifest.fileName) = .error e)
  | manifestInvalid (text : List Char) (h : fs.readText (root.join Manifest.fileName) = .ok text)
      (hm : Manifest.ofToml? text = none)
  | sourceUnreadable (text : List Char) (m : Manifest) (e : IoError)
      (h : fs.readText (root.join Manifest.fileName) = .ok text) (hm : Manifest.ofToml? text = some m)
      (hs : fs.readText (m.inputPath root) = .error e)
  | sourceBlank (m : Manifest) (source : List Char) (h : fs.HasProject root m source) (hblank : ∀ c ∈ source, isBlank c)

end FileSystem

section Reading

open Session

theorem run_loadManifest (standardInput : ByteArray) (fs : FileSystem) (p : Path) :
    (loadManifest (FileSystem.host standardInput) p).run fs = (match fs.readText p with
      | .error e => .error (.unreadable ⟨p, e⟩)
      | .ok s => (Manifest.ofToml? s).elim (.error (.invalid p)) .ok, fs) := by
  rw [loadManifest, StateT.run_bind, FileSystem.run_readText_eq]
  cases fs.readText p with
  | error e => rfl
  | ok s =>
    cases hm : Manifest.ofToml? s with
    | none =>
      simp only [bind, hm]
      rfl
    | some m =>
      simp only [bind, hm]
      rfl

theorem run_readDeclarations (standardInput : ByteArray) (fs : FileSystem) (p : Path) :
    (readDeclarations (FileSystem.host standardInput) p).run fs = (match fs.readText p with
      | .error e => .error ⟨p, e⟩
      | .ok s => .ok (s, .read p (byteLength s)), fs) := by
  rw [readDeclarations, StateT.run_bind, FileSystem.run_readText_eq]
  cases fs.readText p with
  | error e => rfl
  | ok s => rfl

end Reading

/-! ## Classes -/

section Classes

/-- A trimmed text does not start with a blank. -/
theorem not_isBlank_head?_trim (s : List Char) : ∀ c ∈ (trim s).head?, ¬ isBlank c := by
  intro c hc
  have hstop := List.head?_dropWhile_not isBlank s
  obtain ⟨trail, hsplit⟩ : trim s <+: trimStart s := by
    rw [trim, trimEnd, ← List.reverse_suffix, List.reverse_reverse]
    exact List.dropWhile_suffix isBlank
  obtain ⟨rest, hrest⟩ := List.head?_eq_some_iff.mp hc
  rw [← trimStart, ← hsplit, hrest] at hstop
  simpa using hstop

theorem trim_trim (s : List Char) : trim (trim s) = trim s := by
  have hstart : trimStart (trim s) = trim s := by
    have hne := not_isBlank_head?_trim s
    cases ht : trim s with
    | nil => rfl
    | cons c rest =>
      rw [ht] at hne
      exact List.dropWhile_cons_of_neg (hne c rfl)
  have hend : trimEnd (trim s) = trim s := by
    simp only [trim, trimEnd, List.reverse_reverse, List.dropWhile_idempotent]
  rw [trim, hstart, hend]

/-- It does not matter whether the name of a class was trimmed before. -/
theorem generate_inlineClass (source : List Char) (m : Manifest) :
    generate source m.inlineClass = generate source m.className := by
  have hbind : m.inlineClass.bind trim? = m.className.bind trim? := by
    unfold Manifest.inlineClass
    cases m.className with
    | none => rfl
    | some c => by_cases h : trim c = [] <;> simp [trim?, h, trim_trim]
  rw [generate_eq_ofDeclarations source m.inlineClass none, generate_eq_ofDeclarations source m.className none, hbind]

/-- There are inline accessors exactly if a class is named. -/
theorem exists_inline_eq_iff (source : List Char) (className : Option (List Char)) :
    (∃ s, (generate source className).inline = .scoped s) ↔ ∃ c, className = some c ∧ trim c ≠ [] := by
  rw [generate_eq_ofDeclarations source className none]
  cases className with
  | none => simp [Generated.ofDeclarations]
  | some c => by_cases h : trim c = [] <;> simp [Generated.ofDeclarations, trim?, h]

end Classes

/-! ## Generating -/

/-- Diagnostics as they are printed. -/
def printedDiagnostics (source origin : List Char) (diagnostics : List Diagnostic) : List Char :=
  diagnostics.flatMap fun d => d.format source origin ++ ['\n']

section Generating

open Session Command

variable (source origin : List Char) (className : Option (List Char)) (o : Output) (fs : FileSystem)

theorem exec_generateReporting :
    exec (generateReporting source origin className) o fs =
      (if (generate source className).hasErrors then .error .generationFailed else .ok (generate source className),
        { o with stderr := o.stderr ++ printedDiagnostics source origin (generate source className).diagnostics },
        fs) := by
  unfold generateReporting
  rw [exec_bind]
  show exec (if (generate source className).hasErrors then throw _ else pure (generate source className)) _ _ = _
  split <;> rfl

variable {source}

/-- Blank declarations give no code. -/
theorem exec_generateReporting_of_blank (h : ∀ c ∈ source, isBlank c) :
    exec (generateReporting source origin className) o fs =
      (.error .generationFailed,
        { o with stderr := o.stderr ++ printedDiagnostics source origin (generate source className).diagnostics },
        fs) := by
  rw [exec_generateReporting, if_pos ((hasErrors_generate_iff className).mpr h)]

/-- All other declarations give code. -/
theorem exec_generateReporting_of_exists (h : ∃ c ∈ source, ¬ isBlank c) :
    exec (generateReporting source origin className) o fs =
      (.ok (generate source className),
        { o with stderr := o.stderr ++ printedDiagnostics source origin (generate source className).diagnostics },
        fs) := by
  obtain ⟨c, hc, hn⟩ := h
  rw [exec_generateReporting, if_neg fun herr => hn ((hasErrors_generate_iff className).mp herr c hc)]

end Generating

/-! ## Building -/

/-- What is said when a file was written. -/
def writtenNotice (p : Path) : List Char :=
  "Wrote ".toList ++ p ++ ['\n']

/-- What is said when the generated files were written. -/
def OutputPaths.notices (output : OutputPaths) (root : Path) (g : Generated) : List Char :=
  writtenNotice (output.accessorsPath root)
    ++ (match g.inline with
      | .scoped _ => writtenNotice (output.inlinePath root)
      | .skipped => inlineSkipped ++ ['\n'])
    ++ writtenNotice (output.initPath root)

/-- The generated files in the order in which they are written, with what they hold. -/
def OutputPaths.files (output : OutputPaths) (root : Path) (g : Generated) : List (Path × List Char) :=
  [(output.accessorsPath root, g.accessors)]
    ++ (match g.inline with
      | .scoped s => [(output.inlinePath root, s)]
      | .skipped => [])
    ++ [(output.initPath root, g.initializers)]

section Building

open Session Command

variable {p root : Path} {output : OutputPaths} {g : Generated} {m : Manifest} {source : List Char}

theorem exec_writeOutput_eq_ok_iff {s : List Char} {u : Unit} :
    exec (writeOutput (FileSystem.host standardInput) p s) o fs = (.ok u, o', fs') ↔
      fs.writeFile p (encode s) = .ok fs' ∧ o' = { o with stdout := o.stdout ++ writtenNotice p } := by
  unfold writeOutput
  simp only [exec_bind_eq_ok_iff, exec_attempt_eq_ok_iff, exec_print]
  constructor
  · rintro ⟨_, o₁, fs₁, ⟨hrun, rfl⟩, h⟩
    cases h
    exact ⟨FileSystem.run_change_eq_ok_iff.mp hrun, rfl⟩
  · rintro ⟨hw, rfl⟩
    exact ⟨(), o, fs', ⟨FileSystem.run_change_eq_ok_iff.mpr hw, rfl⟩, rfl⟩

/-- Writing the generated files makes their directory first and says what was written. -/
theorem exec_writeOutputs_eq_ok_iff :
    exec (writeOutputs (FileSystem.host standardInput) root output g) o fs = (.ok (), o', fs') ↔
      ∃ fs₁, ((FileSystem.host standardInput).makeDirs (output.dirPath root)).run fs = (.ok (), fs₁) ∧
        fs₁.Writes (output.files root g) fs' ∧ o' = { o with stdout := o.stdout ++ output.notices root g } := by
  unfold writeOutputs OutputPaths.files OutputPaths.notices
  rcases g.inline with s | _
  · simp only [exec_bind_eq_ok_iff, exec_attempt_eq_ok_iff, exec_writeOutput_eq_ok_iff, List.cons_append,
      List.nil_append, FileSystem.writes_cons_iff, FileSystem.writes_nil_iff]
    constructor
    · rintro ⟨_, _, fs₁, ⟨hdirs, rfl⟩, _, _, fs₂, ⟨h₂, rfl⟩, _, _, fs₃, ⟨h₃, rfl⟩, h₄, rfl⟩
      exact ⟨fs₁, hdirs, ⟨fs₂, h₂, fs₃, h₃, fs', h₄, rfl⟩, by simp⟩
    · rintro ⟨fs₁, hdirs, ⟨fs₂, h₂, fs₃, h₃, _, h₄, rfl⟩, rfl⟩
      exact ⟨(), _, fs₁, ⟨hdirs, rfl⟩, (), _, fs₂, ⟨h₂, rfl⟩, (), _, fs₃, ⟨h₃, rfl⟩, h₄, by simp⟩
  · simp only [exec_bind_eq_ok_iff, exec_attempt_eq_ok_iff, exec_writeOutput_eq_ok_iff, exec_print, List.cons_append,
      List.nil_append, FileSystem.writes_cons_iff, FileSystem.writes_nil_iff]
    constructor
    · rintro ⟨_, _, fs₁, ⟨hdirs, rfl⟩, _, _, fs₂, ⟨h₂, rfl⟩, _, _, fs₃, hprint, h₄, rfl⟩
      cases hprint
      exact ⟨fs₁, hdirs, ⟨fs₂, h₂, fs', h₄, rfl⟩, by simp⟩
    · rintro ⟨fs₁, hdirs, ⟨fs₂, h₂, _, h₄, rfl⟩, rfl⟩
      exact ⟨(), _, fs₁, ⟨hdirs, rfl⟩, (), _, fs₂, ⟨h₂, rfl⟩, (), _, fs₂, rfl, h₄, by simp⟩

/-- A build of a project generates code from its declarations and writes it. -/
theorem exec_runBuild (h : fs.HasProject (projectRoot p) m source) :
    exec (runBuild (FileSystem.host standardInput) p) o fs =
      exec (do
        let g ← generateReporting source (m.inputPath (projectRoot p)) m.inlineClass
        writeOutputs (FileSystem.host standardInput) (projectRoot p) m.output g) o fs := by
  obtain ⟨⟨text, htext, hm⟩, hsource⟩ := h
  unfold runBuild
  rw [exec_bind, exec_attempt, run_loadManifest, htext]
  simp only [hm, Option.elim_some]
  rw [exec_bind, exec_attempt, run_readDeclarations, hsource]

/-- If the declarations are blank, a build fails after the diagnostics were printed. -/
theorem exec_runBuild_of_blank (h : fs.HasProject (projectRoot p) m source) (hblank : ∀ c ∈ source, isBlank c) :
    exec (runBuild (FileSystem.host standardInput) p) o fs =
      (.error .generationFailed,
        { o with stderr := o.stderr ++
          printedDiagnostics source (m.inputPath (projectRoot p)) (generate source m.className).diagnostics },
        fs) := by
  rw [exec_runBuild h, exec_bind, exec_generateReporting_of_blank _ _ _ _ hblank, generate_inlineClass]

/-- Where there is nothing to build, a build fails and leaves all as it was. -/
theorem exec_runBuild_of_unbuildable (standardInput : ByteArray) (o : Output) (h : fs.Unbuildable (projectRoot p)) :
    ∃ f o', exec (runBuild (FileSystem.host standardInput) p) o fs = (.error f, o', fs) := by
  cases h with
  | manifestUnreadable e h =>
    unfold runBuild
    rw [exec_bind, exec_attempt, run_loadManifest, h]
    exact ⟨_, _, rfl⟩
  | manifestInvalid text h hm =>
    unfold runBuild
    rw [exec_bind, exec_attempt, run_loadManifest, h]
    simp only [hm, Option.elim_none]
    exact ⟨_, _, rfl⟩
  | sourceUnreadable text m e h hm hs =>
    unfold runBuild
    rw [exec_bind, exec_attempt, run_loadManifest, h]
    simp only [hm, Option.elim_some]
    rw [exec_bind, exec_attempt, run_readDeclarations, hs]
    exact ⟨_, _, rfl⟩
  | sourceBlank m source h hblank =>
    exact ⟨_, _, exec_runBuild_of_blank h hblank⟩

/-- Either there is nothing to build, or there is a project with declarations. -/
theorem unbuildable_or_exists (fs : FileSystem) (root : Path) :
    fs.Unbuildable root ∨ ∃ m source, fs.HasProject root m source ∧ ∃ c ∈ source, ¬ isBlank c := by
  cases htext : fs.readText (root.join Manifest.fileName) with
  | error e => exact .inl (.manifestUnreadable e htext)
  | ok text =>
    cases hm : Manifest.ofToml? text with
    | none => exact .inl (.manifestInvalid text htext hm)
    | some m =>
      cases hsource : fs.readText (m.inputPath root) with
      | error e => exact .inl (.sourceUnreadable text m e htext hm hsource)
      | ok source =>
        have hproject : fs.HasProject root m source := ⟨⟨text, htext, hm⟩, hsource⟩
        by_cases hblank : ∀ c ∈ source, isBlank c
        · exact .inl (.sourceBlank m source hproject hblank)
        · exact .inr ⟨m, source, hproject, by simpa using hblank⟩

/-- **What a build does when it succeeds**: there is a project with declarations, its output directory is made, and
the generated files are written in their order. -/
theorem exec_runBuild_eq_ok_iff :
    exec (runBuild (FileSystem.host standardInput) p) o fs = (.ok (), o', fs') ↔
      ∃ m source fs₁, fs.HasProject (projectRoot p) m source ∧ (∃ c ∈ source, ¬ isBlank c) ∧
        ((FileSystem.host standardInput).makeDirs (m.output.dirPath (projectRoot p))).run fs = (.ok (), fs₁) ∧
        fs₁.Writes (m.output.files (projectRoot p) (generate source m.className)) fs' ∧
        o' = ⟨o.stdout ++ m.output.notices (projectRoot p) (generate source m.className),
          o.stderr ++ printedDiagnostics source (m.inputPath (projectRoot p))
            (generate source m.className).diagnostics⟩ := by
  constructor
  · intro h
    rcases unbuildable_or_exists fs (projectRoot p) with hno | ⟨m, source, hproject, hsome⟩
    · obtain ⟨f, o₁, hf⟩ := exec_runBuild_of_unbuildable standardInput o hno
      rw [hf] at h
      cases h
    · rw [exec_runBuild hproject, exec_bind, exec_generateReporting_of_exists _ _ _ _ hsome,
        generate_inlineClass] at h
      obtain ⟨fs₁, hdirs, hwrites, ho⟩ := exec_writeOutputs_eq_ok_iff.mp h
      exact ⟨m, source, fs₁, hproject, hsome, hdirs, hwrites, ho⟩
  · rintro ⟨m, source, fs₁, hproject, hsome, hdirs, hwrites, rfl⟩
    rw [exec_runBuild hproject, exec_bind, exec_generateReporting_of_exists _ _ _ _ hsome, generate_inlineClass]
    exact exec_writeOutputs_eq_ok_iff.mpr ⟨fs₁, hdirs, hwrites, rfl⟩

end Building

end AccessorGen
