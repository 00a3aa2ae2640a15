import AccessorGen.Proofs.Commands

/-!
# What a build changes

Without declarations there is nothing to build, and a build fails and changes nothing
(`exec_runBuild_of_unbuildable`). A build that succeeds makes its output directory and then writes the generated files,
so all that it changes are missing directories on the way to the output directory and the places that the paths of the
generated files lead to; in each of these files is what was written there last (`FileSystem.Built`,
`build_changes`).
-/

namespace AccessorGen

open Text

namespace FileSystem

/-- The second file system is what a build has made of the first: the differences are directories on the way to the
output directory, where nothing was, and the generated files. A generated file holds its text unless a later one was
written at its place, and inline accessors are among them exactly if the manifest names a class. -/
structure Built (fs : FileSystem) (root : Path) (m : Manifest) (g : Generated) (fs' : FileSystem) : Prop where
  workingDirectory_eq : fs'.workingDirectory = fs.workingDirectory
  get?_eq_or : ∀ place, fs'.get? place = fs.get? place ∨
    (fs.get? place = none ∧ ∃ a, a.IsAncestorOf (m.output.dirPath root) ∧ fs'.find a = .ok (place, .directory)) ∨
    ∃ f ∈ m.output.files root g, ∃ content, fs'.find f.1 = .ok (place, .file content)
  exists_directory : m.output.dirPath root ≠ [] → ∃ place, fs'.find (m.output.dirPath root) = .ok (place, .directory)
  inline_iff : (∃ s, g.inline = .scoped s) ↔ ∃ c, m.className = some c ∧ trim c ≠ []
  readFile_eq : ∀ earlier f later, m.output.files root g = earlier ++ f :: later →
    (∀ f' ∈ later, fs'.find f'.1 ≠ fs'.find f.1) → fs'.readFile f.1 = .ok (encode f.2)

variable {fs fs₁ fs' : FileSystem} {root : Path} {m : Manifest} {standardInput : ByteArray} {source : List Char}

/-- Making the output directory and writing the generated files changes no more than a build may. -/
theorem built_of_writes
    (hdirs : ((host standardInput).makeDirs (m.output.dirPath root)).run fs = (.ok (), fs₁))
    (hwrites : fs₁.Writes (m.output.files root (generate source m.className)) fs') :
    fs.Built root m (generate source m.className) fs' := by
  obtain ⟨hmade, hdirectory⟩ := makeDirs_eq_ok hdirs
  have hkeep := hwrites.keepsDirectories
  have hinline := exists_inline_eq_iff source m.className
  refine ⟨hkeep.workingDirectory_eq.trans hmade.workingDirectory_eq, ?_, ?_, hinline, ?_⟩
  · intro place
    by_cases hfile : ∃ f ∈ m.output.files root (generate source m.className), ∃ content,
        fs'.find f.1 = .ok (place, .file content)
    · exact .inr (.inr hfile)
    · -- no file was written at the place, so only the directories may have changed it
      have heq : fs'.get? place = fs₁.get? place :=
        hwrites.get?_eq fun f hf content hfind => hfile ⟨f, hf, content, hfind⟩
      rcases hmade.get?_eq_or place with h | ⟨hnone, a, ha, hfind⟩
      · exact .inl (heq.trans h)
      · exact .inr (.inl ⟨hnone, a, ha, hkeep.find_directory hfind⟩)
  · intro hne
    obtain ⟨place, hfind⟩ := hdirectory hne
    exact ⟨place, hkeep.find_directory hfind⟩
  · intro earlier f later hfiles hlater
    rw [hfiles] at hwrites
    exact readFile_eq_ok_iff.mpr (hwrites.find_eq hlater)

end FileSystem

/-- **What a build may touch**: without a manifest and declarations to build from it fails and changes nothing. If it
succeeds, it has changed missing directories on the way to the output directory and the generated files only, and these
were generated from the declarations that were there before. -/
theorem build_changes (standardInput : ByteArray) (fs : FileSystem) (p : Path) :
    let r := (Command.run (FileSystem.host standardInput) (.build p)).run fs
    (fs.Unbuildable (projectRoot p) → r.1.failure.isSome ∧ r.2 = fs) ∧
      (r.1.failure = none → ∃ m source, fs.HasProject (projectRoot p) m source ∧
        fs.Built (projectRoot p) m (generate source m.className) r.2) := by
  intro r
  constructor
  · intro hno
    obtain ⟨f, o, hf⟩ := exec_runBuild_of_unbuildable standardInput {} hno
    have hr : r = (⟨o, some f⟩, fs) := Session.run_report_of_error hf
    rw [hr]
    exact ⟨rfl, rfl⟩
  · intro hok
    obtain ⟨m, source, fs₁, hproject, -, hdirs, hwrites, -⟩ :=
      exec_runBuild_eq_ok_iff.mp (Session.exec_eq_of_report hok)
    exact ⟨m, source, hproject, FileSystem.built_of_writes hdirs hwrites⟩

/-- A project whose accessors and inline accessors go to one place, in missing directories beside it, and whose
initializers go to a place below the root. -/
def sharedOutput : FileSystem :=
  let manifest :=
    "name = 'x'\nclass = ' C '\n[output]\ndir = '../o/d'\naccessors = 'a'\ninline = './a'\ninit = '/b'".toList
  ⟨[(["p".toList], .directory), (["p".toList, Manifest.fileName], .file (encode manifest)),
    (["p".toList, "members.decl".toList], .file (encode "int n_x;".toList))], []⟩

theorem build_changes_sharedOutput :
    let r := (Command.run (FileSystem.host .empty) (.build "p".toList)).run sharedOutput
    (r.1.failure = none ∧ ∃ m source, sharedOutput.HasProject "p".toList m source ∧
        sharedOutput.Built "p".toList m (generate source m.className) r.2) ∧
      FileSystem.empty.Unbuildable "p".toList ∧
      ((Command.run (FileSystem.host .empty) (.build "p".toList)).run FileSystem.empty).2 = FileSystem.empty := by
  have hroot : projectRoot "p".toList = "p".toList := by decide
  have hok : ((Command.run (FileSystem.host .empty) (.build "p".toList)).run sharedOutput).1.failure = none := by
    decide +kernel
  have hno : FileSystem.empty.Unbuildable (projectRoot "p".toList) :=
    .manifestUnreadable .notFound (by decide +kernel)
  obtain ⟨-, hbuilt⟩ := build_changes .empty sharedOutput "p".toList
  obtain ⟨hsame, -⟩ := build_changes .empty FileSystem.empty "p".toList
  rw [hroot] at hbuilt hsame hno
  exact ⟨⟨hok, hbuilt hok⟩, hno, (hsame hno).2⟩

end AccessorGen
