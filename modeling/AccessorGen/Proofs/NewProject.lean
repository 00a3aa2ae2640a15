import AccessorGen.Proofs.Commands
import AccessorGen.Proofs.ManifestRoundTrip
import AccessorGen.Proofs.Paths

/-!
# A new project builds

- The manifest of a new project is read as the manifest that has its name and nothing else
  (`Manifest.ofToml?_sampleManifest`), since the line above it is a comment;
- what `new` writes is found below the path it was given (`hasProject_of_newFiles`), so a build with the same path has a
  project to build, unless the last component of the path is the name of a manifest: then `build` takes the path for
  that of a manifest and looks for the project above it, where the manifest would be the new directory
  (`readText_of_manifestName`);
- the files of a build are next to each other in a directory, so different names are at different places
  (`FileSystem.place_ne_of_join`).

Together these say what `build` does after `new` (`build_after_new`).
-/

namespace AccessorGen

open Text

variable {standardInput : ByteArray} {fs fs₁ fs' : FileSystem} {o o' : Output} {p d : Path} {name : List Char}

/-! ## The manifest -/

/-- The first line of the manifest is a comment. -/
theorem exists_sampleManifest_eq (name : List Char) :
    ∃ text, sampleManifest name = '#' :: text ++ '\n' :: Manifest.toToml { name } ∧ ∀ c ∈ text, Toml.isPlain c := by
  have hline : "# class = \"CMyClass\"   # uncomment to generate inline accessors\n".toList =
      '#' :: " class = \"CMyClass\"   # uncomment to generate inline accessors".toList ++ ['\n'] := by decide
  have hplain : " class = \"CMyClass\"   # uncomment to generate inline accessors".toList.all Toml.isPlain := by decide
  refine ⟨_, ?_, List.all_eq_true.mp hplain⟩
  exact (congrArg (· ++ Manifest.toToml { name }) hline).trans (List.append_assoc _ _ _)

theorem Manifest.ofToml?_sampleManifest (name : List Char) : ofToml? (sampleManifest name) = some { name } := by
  obtain ⟨text, htext, hplain⟩ := exists_sampleManifest_eq name
  have hmark : Toml.dropByteOrderMark ('#' :: text ++ '\n' :: toToml { name }) =
      '#' :: text ++ '\n' :: toToml { name } := rfl
  have hstatements := Toml.statements_line (Toml.isLine_comment hplain) (statements_toToml { name })
  have hbuild : Toml.Document.build (.blank :: (lines { name }).map (·.2)) = some (entries { name }) :=
    build_lines { name }
  unfold ofToml? Toml.parse
  rw [htext, hmark, hstatements]
  simp only [Option.bind_eq_bind, Option.bind_some, hbuild, ofEntries?_entries]

/-! ## Files in a directory -/

namespace FileSystem

variable {x y : List Char}

/-- Different names in a directory are at different places. -/
theorem place_ne_of_join {a b : Place} {e e' : Entry} (hx : Path.IsName x) (hy : Path.IsName y) (hxy : x ≠ y)
    (hne : d ≠ []) (ha : fs.find (d.join x) = .ok (a, e)) (hb : fs.find (d.join y) = .ok (b, e')) : a ≠ b := by
  obtain ⟨dir, -, rfl⟩ := find_join hx hne ha
  obtain ⟨dir', -, rfl⟩ := find_join hy hne hb
  intro heq
  exact hxy (by simpa using (List.append_inj' heq rfl).2)

/-- Two files with different names in a directory hold what was written to them. -/
theorem Writes.readText_pair {s t : List Char} (h : fs.Writes [(d.join x, s), (d.join y, t)] fs') (hx : Path.IsName x)
    (hy : Path.IsName y) (hxy : x ≠ y) (hne : d ≠ []) :
    fs'.readText (d.join x) = .ok s ∧ fs'.readText (d.join y) = .ok t := by
  have hsecond : fs.Writes ([(d.join x, s)] ++ (d.join y, t) :: []) fs' := h
  have hfirst : fs.Writes ([] ++ (d.join x, s) :: [(d.join y, t)]) fs' := h
  obtain ⟨b, hb⟩ := hsecond.find_eq nofun
  obtain ⟨a, ha⟩ := hfirst.find_eq fun g hg heq => by
    obtain rfl := List.mem_singleton.mp hg
    rw [hb] at heq
    exact place_ne_of_join hx hy hxy hne heq.symm hb rfl
  exact ⟨readText_of_find ha, readText_of_find hb⟩

end FileSystem

/-! ## Starting a project -/

section New

open Session Command

/-- The files of a new project in the order in which they are written. -/
def newFiles (p : Path) (name : List Char) : List (Path × List Char) :=
  [(p.join Manifest.fileName, sampleManifest name), (p.join "members.decl".toList, sampleDeclarations)]

theorem exec_runNew_eq_ok (h : exec (runNew (FileSystem.host standardInput) p) o fs = (.ok (), o', fs')) :
    ∃ name fs₁, p.fileName? = some name ∧
      ((FileSystem.host standardInput).makeDirs p).run fs = (.ok (), fs₁) ∧ fs₁.Writes (newFiles p name) fs' := by
  unfold runNew at h
  obtain ⟨found, o₁, fs₀, hfound, h⟩ := exec_bind_eq_ok_iff.mp h
  cases hfound
  split at h
  · rename_i name hname
    refine ⟨name, ?_⟩
    split at h
    · cases h
    · simp only [exec_bind_eq_ok_iff, exec_attempt_eq_ok_iff] at h
      obtain ⟨_, _, fs₁, ⟨hdirs, -⟩, _, _, fs₂, ⟨hmanifest, -⟩, _, _, fs₃, ⟨hsource, -⟩, hprint⟩ := h
      cases hprint
      refine ⟨fs₁, hname, hdirs, ?_⟩
      exact .cons (FileSystem.run_change_eq_ok_iff.mp hmanifest)
        (.cons (FileSystem.run_change_eq_ok_iff.mp hsource) (.nil _))
  · split at h <;> cases h

theorem ne_nil_of_fileName? (h : p.fileName? = some name) : p ≠ [] := by
  rintro rfl
  cases h

/-- What was written is the project of the manifest with the given name. -/
theorem hasProject_of_newFiles (hname : p.fileName? = some name) (hwrites : fs₁.Writes (newFiles p name) fs') :
    fs'.HasProject p { name } sampleDeclarations := by
  obtain ⟨hmanifest, hsource⟩ :=
    hwrites.readText_pair (by decide) (by decide) (by decide) (ne_nil_of_fileName? hname)
  exact ⟨⟨_, hmanifest, Manifest.ofToml?_sampleManifest name⟩, hsource⟩

/-- In a directory with the name of a manifest, the manifest that a build looks for is the directory itself. -/
theorem readText_of_manifestName {place : Place} (hname : p.fileName? = some Manifest.fileName)
    (hfind : fs.find p = .ok (place, .directory)) :
    fs.readText ((projectRoot p).join Manifest.fileName) = .error .isADirectory := by
  have hmanifest := FileSystem.find_parent_join hname hfind
  rw [projectRoot, if_pos hname, FileSystem.readText, FileSystem.readFile, hmanifest]

end New

/-! ## Building it -/

section Build

open Session Command

/-- The file of accessors and the file of initializers hold the code for the sample declarations, and a file of inline
accessors was there before. -/
structure FileSystem.HoldsSample (fs : FileSystem) (dist : Path) (fs' : FileSystem) : Prop where
  accessors : fs'.readText (dist.join "accessors.hpp".toList) = .ok (generate sampleDeclarations none).accessors
  initializers : fs'.readText (dist.join "init.inc".toList) = .ok (generate sampleDeclarations none).initializers
  inline : ∀ place content, fs'.find (dist.join "accessors_inline.hpp".toList) = .ok (place, .file content) →
    fs.get? place = some (.file content)

/-- The files that are written for the sample declarations. -/
theorem files_sample (p : Path) :
    OutputPaths.files {} p (generate sampleDeclarations none) =
      [((p.join "dist".toList).join "accessors.hpp".toList, (generate sampleDeclarations none).accessors),
        ((p.join "dist".toList).join "init.inc".toList, (generate sampleDeclarations none).initializers)] := by
  have hinline : (generate sampleDeclarations none).inline = .skipped := by
    rw [generate_eq_ofDeclarations sampleDeclarations none none]
    rfl
  rw [OutputPaths.files, hinline]
  rfl

theorem holdsSample_of_writes (hne : d ≠ []) (hmade : FileSystem.DirectoriesMade fs d fs₁)
    (hwrites : fs₁.Writes [(d.join "accessors.hpp".toList, (generate sampleDeclarations none).accessors),
      (d.join "init.inc".toList, (generate sampleDeclarations none).initializers)] fs') :
    fs.HoldsSample d fs' := by
  obtain ⟨haccessors, hinit⟩ := hwrites.readText_pair (by decide) (by decide) (by decide) hne
  refine ⟨haccessors, hinit, fun place content hfind => ?_⟩
  obtain ⟨-, -, -, -, hfile⟩ := FileSystem.find_eq_ok_iff.mp hfind
  have hother : ∀ x, Path.IsName x → x ≠ "accessors_inline.hpp".toList → ∀ content',
      fs'.find (d.join x) ≠ .ok (place, .file content') := by
    intro x hx hne' content' hfind'
    exact FileSystem.place_ne_of_join hx (by decide) hne' hne hfind' hfind rfl
  have hsame : fs'.get? place = fs₁.get? place := by
    refine hwrites.get?_eq ?_
    simp only [List.forall_mem_cons]
    exact ⟨hother _ (by decide) (by decide), hother _ (by decide) (by decide), nofun⟩
  rw [hsame] at hfile
  rw [← hmade.get?_eq (by simp [hfile]), hfile]

/-- A build of a project as `new` leaves it, with output files that can be written. -/
theorem exec_runBuild_sample {accessors init : Place} (hroot : projectRoot p = p) (hne : p ≠ [])
    (hproject : fs.HasProject p { name } sampleDeclarations)
    (hdist : ((FileSystem.host standardInput).makeDirs (p.join "dist".toList)).run fs = (.ok (), fs₁))
    (haccessors : fs₁.NamesFile ((p.join "dist".toList).join "accessors.hpp".toList) accessors)
    (hinit : fs₁.NamesFile ((p.join "dist".toList).join "init.inc".toList) init) :
    ∃ o' fs', exec (runBuild (FileSystem.host standardInput) p) {} fs = (.ok (), o', fs') ∧
      fs.HoldsSample (p.join "dist".toList) fs' := by
  have hnames : ∀ f ∈ OutputPaths.files {} p (generate sampleDeclarations none), ∃ place, fs₁.NamesFile f.1 place := by
    rw [files_sample]
    simp only [List.forall_mem_cons]
    exact ⟨⟨_, haccessors⟩, ⟨_, hinit⟩, nofun⟩
  obtain ⟨fs', hwrites⟩ := FileSystem.exists_writes hnames
  have hsome : ∃ c ∈ sampleDeclarations, ¬ isBlank c := ⟨'i', by decide, by decide⟩
  refine ⟨_, fs', exec_runBuild_eq_ok_iff.mpr ⟨{ name }, sampleDeclarations, fs₁, ?_, hsome, ?_, ?_, rfl⟩, ?_⟩
  · rwa [hroot]
  · rwa [hroot]
  · rwa [hroot]
  · rw [files_sample] at hwrites
    refine holdsSample_of_writes ?_ (FileSystem.makeDirs_eq_ok hdist).1 hwrites
    obtain ⟨rest, hjoin⟩ : ∃ rest, p.join "dist".toList = p ++ rest := Path.join_eq_append (by decide)
    rw [hjoin]
    exact List.append_ne_nil_of_left_ne_nil hne rest

/-- **A new project builds**, unless its directory has the name of a manifest: then `build` looks for the project in the
directory above, and fails. Otherwise its manifest is the default one for its name, and if its output files can be
written, a build writes the code for the sample declarations without inline accessors. -/
theorem build_after_new
    (hnew : ((Command.run (FileSystem.host standardInput) (.new p)).run fs).1.failure = none) :
    let fs₁ := ((Command.run (FileSystem.host standardInput) (.new p)).run fs).2
    let r := (Command.run (FileSystem.host standardInput) (.build p)).run fs₁
    ∃ name, p.fileName? = some name ∧
      (name = Manifest.fileName → r.1.failure.isSome ∧ r.2 = fs₁) ∧
      (name ≠ Manifest.fileName →
        (loadManifest (FileSystem.host standardInput) ((projectRoot p).join Manifest.fileName)).run fs₁ =
          (.ok { name }, fs₁) ∧
        ∀ fs₂ accessors init,
          ((FileSystem.host standardInput).makeDirs (p.join "dist".toList)).run fs₁ = (.ok (), fs₂) →
          fs₂.NamesFile ((p.join "dist".toList).join "accessors.hpp".toList) accessors →
          fs₂.NamesFile ((p.join "dist".toList).join "init.inc".toList) init →
          r.1.failure = none ∧ fs₁.HoldsSample (p.join "dist".toList) r.2) := by
  intro fs₁ r
  obtain ⟨name, fs₀, hname, hdirs, hwrites⟩ := exec_runNew_eq_ok (exec_eq_of_report hnew)
  have hne := ne_nil_of_fileName? hname
  refine ⟨name, hname, ?_, ?_⟩
  · rintro rfl
    obtain ⟨place, hfind⟩ := (FileSystem.makeDirs_eq_ok hdirs).2 hne
    have hmanifest := readText_of_manifestName hname (hwrites.keepsDirectories.find_directory hfind)
    obtain ⟨f, o, hf⟩ := exec_runBuild_of_unbuildable standardInput {} (.manifestUnreadable _ hmanifest)
    have hr : r = (⟨o, some f⟩, fs₁) := run_report_of_error hf
    rw [hr]
    exact ⟨rfl, rfl⟩
  · intro hother
    have hroot : projectRoot p = p := if_neg (by simpa [hname] using hother)
    have hproject : fs₁.HasProject p { name } sampleDeclarations := hasProject_of_newFiles hname hwrites
    constructor
    · obtain ⟨text, htext, hm⟩ := hproject.manifest
      rw [hroot, run_loadManifest, htext]
      simp only [hm, Option.elim_some]
    · intro fs₂ accessors init hdist haccessors hinit
      obtain ⟨o, fs', hexec, hholds⟩ := exec_runBuild_sample hroot hne hproject hdist haccessors hinit
      have hr : r = (⟨o, none⟩, fs') := run_report_of_ok hexec
      rw [hr]
      exact ⟨rfl, hholds⟩

/-- A path to a directory whose name calls for quotes, in one that is missing. -/
def quotedPath : Path :=
  "d/it's \"x\"".toList

theorem build_after_new_quoted :
    let fs₁ := ((Command.run (FileSystem.host .empty) (.new quotedPath)).run FileSystem.empty).2
    ((Command.run (FileSystem.host .empty) (.new quotedPath)).run FileSystem.empty).1.failure = none ∧
      ((Command.run (FileSystem.host .empty) (.build quotedPath)).run fs₁).1.failure = none ∧
      fs₁.HoldsSample (quotedPath.join "dist".toList)
        ((Command.run (FileSystem.host .empty) (.build quotedPath)).run fs₁).2 := by
  have hnew : ((Command.run (FileSystem.host .empty) (.new quotedPath)).run FileSystem.empty).1.failure = none := by
    decide +kernel
  obtain ⟨name, hname, -, hbuild⟩ := build_after_new hnew
  have hother : name ≠ Manifest.fileName := by
    rintro rfl
    cases hname
  obtain ⟨-, hbuild⟩ := hbuild hother
  let dist : Place := ["work".toList, "d".toList, "it's \"x\"".toList, "dist".toList]
  refine ⟨hnew, hbuild _ (dist ++ ["accessors.hpp".toList]) (dist ++ ["init.inc".toList]) rfl ?_ ?_⟩
  · exact ⟨dist, "accessors.hpp".toList, rfl, by decide, rfl, by decide +kernel⟩
  · exact ⟨dist, "init.inc".toList, rfl, by decide, rfl, by decide +kernel⟩

/-- A new project in a directory with the name of a manifest does not build, though its output directory can be made. -/
theorem build_fails_after_new :
    let fs₁ := ((Command.run (FileSystem.host .empty) (.new Manifest.fileName)).run FileSystem.empty).2
    ((Command.run (FileSystem.host .empty) (.new Manifest.fileName)).run FileSystem.empty).1.failure = none ∧
      (((FileSystem.host .empty).makeDirs (Path.join Manifest.fileName "dist".toList)).run fs₁).1 = .ok () ∧
      ((Command.run (FileSystem.host .empty) (.build Manifest.fileName)).run fs₁).1.failure =
        some (.unreadable ⟨Manifest.fileName, .isADirectory⟩) :=
  ⟨by decide +kernel, by decide +kernel, by decide +kernel⟩

end Build

end AccessorGen
