import AccessorGen.Host
import Mathlib.Data.List.TakeWhile

/-!
# What file operations change

- A path that can be followed can be followed in every file system that keeps the directories
  (`KeepsDirectories.follow`), so a file that was written is found again (`NamesFile.find`);
- writing a file puts it at the place that its path names and changes nothing else (`writeFile_eq_ok_iff`); of files
  that are written one after another (`Writes`), the last one at a place stays (`Writes.find_eq`), and other
  places stay as they were (`Writes.get?_eq`);
- making a directory with those above it makes directories where nothing was, all of them on the way to it
  (`makeDirs_eq_ok`).
-/

namespace AccessorGen

open Text

/-- A path and all that is reached from it by going up. -/
inductive Path.IsAncestorOf : Path → Path → Prop
  | self (p : Path) : IsAncestorOf p p
  | up {a p q : Path} (hq : p.parent? = some q) (ha : IsAncestorOf a q) : IsAncestorOf a p

namespace FileSystem

variable {fs fs' fs'' : FileSystem} {p : Path} {place q : Place}

/-! ## Following paths -/

section Following

variable {parts : List (List Char)}

theorem requireDirectory_eq_ok_iff : fs.requireDirectory place = .ok () ↔ fs.get? place = some .directory := by
  unfold requireDirectory
  split <;> simp_all

/-- The first part of a path is looked up in a directory. -/
theorem follow_cons_eq_ok_iff {part : List Char} :
    fs.follow place (part :: parts) = .ok q ↔ fs.get? place = some .directory ∧ byteLength part ≤ nameLimit ∧
      fs.follow (step place part) parts = .ok q := by
  rw [follow, ← requireDirectory_eq_ok_iff]
  cases fs.requireDirectory place with
  | error e => simp
  | ok u =>
    by_cases h : nameLimit < byteLength part
    · have hn : ¬ byteLength part ≤ nameLimit := Nat.not_le_of_lt h
      simp [h, hn]
    · simp [h, Nat.le_of_not_lt h]

/-- A path is followed by following its beginning and then its end. -/
theorem follow_append_eq_ok_iff {before after : List (List Char)} :
    fs.follow place (before ++ after) = .ok q ↔ ∃ r, fs.follow place before = .ok r ∧ fs.follow r after = .ok q := by
  induction before generalizing place with
  | nil => simp [follow]
  | cons part before ih =>
    simp only [List.cons_append, follow_cons_eq_ok_iff, ih]
    constructor
    · rintro ⟨hd, hn, r, hr, hq⟩
      exact ⟨r, ⟨hd, hn, hr⟩, hq⟩
    · rintro ⟨r, ⟨hd, hn, hr⟩, hq⟩
      exact ⟨hd, hn, r, hr, hq⟩

theorem find_eq_ok_iff {e : Entry} :
    fs.find p = .ok (q, e) ↔
      ∃ place parts, fs.start p = .ok (place, parts) ∧ fs.follow place parts = .ok q ∧ fs.get? q = some e := by
  constructor
  · intro h
    unfold find at h
    split at h
    · cases h
    · rename_i place parts hs
      split at h
      · cases h
      · rename_i r hf
        split at h
        · rename_i e' hg
          cases h
          exact ⟨place, parts, hs, hf, hg⟩
        · cases h
  · rintro ⟨place, parts, hs, hf, hg⟩
    simp only [find, hs, hf, hg]

theorem readFile_eq_ok_iff {content : ByteArray} :
    fs.readFile p = .ok content ↔ ∃ place, fs.find p = .ok (place, .file content) := by
  unfold readFile
  rcases fs.find p with e | ⟨place, _ | c⟩ <;> simp

/-- The last part of a path is a name in a directory, with slashes behind it or not. -/
theorem findLast_eq_name_iff {dir : Place} {text : List Char} {slashes : Bool} :
    fs.findLast p = .ok (.name dir text slashes) ↔
      ∃ place parts before, fs.start p = .ok (place, parts) ∧ parts.reverse.dropWhile (· = []) = text :: before ∧
        fs.follow place before.reverse = .ok dir ∧ fs.get? dir = some .directory ∧
        ¬ (text = ['.'] ∨ text = ['.', '.']) ∧ decide (parts.getLast? = some []) = slashes := by
  constructor
  · intro h
    unfold findLast at h
    split at h
    · cases h
    · rename_i place parts hs
      split at h
      · cases h
      · rename_i last before hparts
        split at h
        · cases h
        · rename_i dir' hfollow
          split at h
          · cases h
          · rename_i hdir
            split at h
            · cases h
            · rename_i hname
              cases h
              exact ⟨place, parts, before, hs, hparts, hfollow, requireDirectory_eq_ok_iff.mp hdir, hname, rfl⟩
  · rintro ⟨place, parts, before, hs, hparts, hfollow, hdir, hname, rfl⟩
    simp only [findLast, hs, hparts, hfollow, requireDirectory_eq_ok_iff.mpr hdir, if_neg hname]

/-- Empty parts lead nowhere else, but they need a directory. -/
theorem follow_empty (hempty : ∀ part ∈ parts, part = []) (hd : parts ≠ [] → fs.get? place = some .directory) :
    fs.follow place parts = .ok place := by
  induction parts with
  | nil => rfl
  | cons part parts ih =>
    obtain ⟨rfl, hrest⟩ := List.forall_mem_cons.mp hempty
    refine follow_cons_eq_ok_iff.mpr ⟨hd (by simp), Nat.zero_le _, ?_⟩
    exact ih hrest fun _ => hd (by simp)

/-- The last element that fails a test stands in front of elements that pass it. -/
theorem exists_eq_of_dropWhile_reverse {α : Type} {test : α → Bool} {l before : List α} {x : α}
    (h : l.reverse.dropWhile test = x :: before) :
    ∃ after, l = before.reverse ++ x :: after ∧ ¬ test x ∧ ∀ y ∈ after, test y := by
  have hsplit := List.takeWhile_append_dropWhile (p := test) (l := l.reverse)
  have hhead := List.head?_dropWhile_not test l.reverse
  rw [h] at hsplit hhead
  refine ⟨(l.reverse.takeWhile test).reverse, ?_, by simpa using hhead, fun y hy => ?_⟩
  · simpa using (congrArg List.reverse hsplit).symm
  · exact List.mem_takeWhile_imp (List.mem_reverse.mp hy)

/-- A path leads to what has its last name; with slashes behind the name this is a directory. -/
theorem find_of_findLast {dir : Place} {text : List Char} {slashes : Bool} {e : Entry}
    (h : fs.findLast p = .ok (.name dir text slashes)) (hn : byteLength text ≤ nameLimit)
    (he : fs.get? (dir ++ [text]) = some e) (hslashes : slashes = true → e = .directory) :
    fs.find p = .ok (dir ++ [text], e) := by
  obtain ⟨place, parts, before, hs, hparts, hfollow, hdir, hname, hlast⟩ := findLast_eq_name_iff.mp h
  obtain ⟨after, rfl, htext, hafter⟩ := exists_eq_of_dropWhile_reverse hparts
  have hempty : ∀ part ∈ after, part = [] := fun part hpart => by simpa using hafter part hpart
  have hstep : step dir text = dir ++ [text] := by
    have htext : text ≠ [] := by simpa using htext
    rw [step, if_neg (by simpa [htext] using fun e => hname (.inl e)), if_neg fun e => hname (.inr e)]
  refine find_eq_ok_iff.mpr ⟨place, _, hs, follow_append_eq_ok_iff.mpr ⟨dir, hfollow, ?_⟩, he⟩
  refine follow_cons_eq_ok_iff.mpr ⟨hdir, hn, ?_⟩
  rw [hstep]
  refine follow_empty hempty fun hne => ?_
  -- a part behind the name is empty, so the path ends in a slash
  have hend : (before.reverse ++ text :: after).getLast? = some [] := by
    obtain ⟨front, last, rfl⟩ := (List.eq_nil_or_concat after).resolve_left hne
    rw [List.concat_eq_append, hempty last (by simp), ← List.cons_append, ← List.append_assoc, List.getLast?_concat]
  rw [he, hslashes]
  rw [← hlast, hend]
  rfl

end Following

/-! ## Directories that stay -/

/-- The second file system has the directories of the first, and relative paths start at the same place. -/
structure KeepsDirectories (fs fs' : FileSystem) : Prop where
  workingDirectory_eq : fs'.workingDirectory = fs.workingDirectory
  get?_eq : ∀ place, fs.get? place = some .directory → fs'.get? place = some .directory

namespace KeepsDirectories

theorem refl (fs : FileSystem) : KeepsDirectories fs fs :=
  ⟨rfl, fun _ h => h⟩

theorem trans (h : KeepsDirectories fs fs') (h' : KeepsDirectories fs' fs'') : KeepsDirectories fs fs'' :=
  ⟨h'.1.trans h.1, fun place hd => h'.2 place (h.2 place hd)⟩

/-- Putting an entry keeps the directories if it takes the place of none. -/
theorem put {e : Entry} (h : fs.get? place = some .directory → e = .directory) (hne : place ≠ []) :
    KeepsDirectories fs (fs.put place e) := by
  refine ⟨rfl, fun q hq => ?_⟩
  by_cases hp : q = place
  · subst hp
    rw [get?_put_self fs e hne, h hq]
  · rw [get?_put_of_ne fs e hp, hq]

variable (h : KeepsDirectories fs fs')
include h

theorem start (p : Path) : fs'.start p = fs.start p := by
  unfold FileSystem.start
  rw [h.workingDirectory_eq]

/-- A path that leads somewhere leads there still. -/
theorem follow {parts : List (List Char)} (hf : fs.follow place parts = .ok q) : fs'.follow place parts = .ok q := by
  induction parts generalizing place with
  | nil => exact hf
  | cons part parts ih =>
    obtain ⟨hd, hn, hf⟩ := follow_cons_eq_ok_iff.mp hf
    exact follow_cons_eq_ok_iff.mpr ⟨h.get?_eq _ hd, hn, ih hf⟩

/-- A path leads to the same place, whatever is there now. -/
theorem find {e e' : Entry} (hf : fs.find p = .ok (q, e)) (he : fs'.get? q = some e') :
    fs'.find p = .ok (q, e') := by
  obtain ⟨place, parts, hs, hf, -⟩ := find_eq_ok_iff.mp hf
  exact find_eq_ok_iff.mpr ⟨place, parts, (h.start p).trans hs, h.follow hf, he⟩

/-- A path leads to the same directory. -/
theorem find_directory (hf : fs.find p = .ok (q, .directory)) : fs'.find p = .ok (q, .directory) := by
  obtain ⟨-, -, -, -, hd⟩ := find_eq_ok_iff.mp hf
  exact h.find hf (h.get?_eq _ hd)

/-- The last part of a path is in the same directory. -/
theorem findLast {dir : Place} {text : List Char} {slashes : Bool}
    (hf : fs.findLast p = .ok (.name dir text slashes)) : fs'.findLast p = .ok (.name dir text slashes) := by
  obtain ⟨place, parts, before, hs, hparts, hfollow, hdir, hname, hslashes⟩ := findLast_eq_name_iff.mp hf
  exact findLast_eq_name_iff.mpr
    ⟨place, parts, before, (h.start p).trans hs, hparts, h.follow hfollow, h.get?_eq _ hdir, hname, hslashes⟩

end KeepsDirectories

/-! ## Writing files -/

/-- The path names a file at the place: the directory is there, and no directory has that name in it. -/
def NamesFile (fs : FileSystem) (p : Path) (place : Place) : Prop :=
  ∃ dir text, fs.findLast p = .ok (.name dir text false) ∧ byteLength text ≤ nameLimit ∧ place = dir ++ [text] ∧
    fs.get? place ≠ some .directory

/-- A file is written at the place that its path names. -/
theorem writeFile_eq_ok_iff {content : ByteArray} :
    fs.writeFile p content = .ok fs' ↔ ∃ place, fs.NamesFile p place ∧ fs' = fs.put place (.file content) := by
  constructor
  · intro h
    unfold writeFile at h
    split at h
    · cases h
    · cases h
    · rename_i dir text slashes hlast
      split at h
      · cases h
      · rename_i hslashes
        split at h
        · cases h
        · rename_i hn
          split at h
          · cases h
          · rename_i hd
            cases h
            obtain rfl : slashes = false := by simpa using hslashes
            exact ⟨dir ++ [text], ⟨dir, text, hlast, Nat.le_of_not_lt hn, rfl, hd⟩, rfl⟩
  · rintro ⟨place, ⟨dir, text, hlast, hn, rfl, hd⟩, rfl⟩
    simp only [writeFile, hlast, Nat.not_lt_of_le hn, hd, if_false, Bool.false_eq_true]

namespace NamesFile

variable (h : fs.NamesFile p place)
include h

theorem ne_nil : place ≠ [] := by
  obtain ⟨dir, text, -, -, rfl, -⟩ := h
  simp

/-- A path names one file. -/
theorem place_eq (h' : fs.NamesFile p q) : place = q := by
  obtain ⟨dir, text, hlast, -, rfl, -⟩ := h
  obtain ⟨dir', text', hlast', -, rfl, -⟩ := h'
  rw [hlast] at hlast'
  cases hlast'
  rfl

/-- The path leads to what is at the place. -/
theorem find {e : Entry} (he : fs.get? place = some e) : fs.find p = .ok (place, e) := by
  obtain ⟨dir, text, hlast, hn, rfl, -⟩ := h
  exact find_of_findLast hlast hn he nofun

/-- The path names the file as long as the directories stay and none takes its place. -/
theorem of_keeps (hk : KeepsDirectories fs fs') (hd : fs'.get? place ≠ some .directory) : fs'.NamesFile p place := by
  obtain ⟨dir, text, hlast, hn, rfl, -⟩ := h
  exact ⟨dir, text, hk.findLast hlast, hn, rfl, hd⟩

/-- A file in its place takes the place of no directory. -/
theorem keepsDirectories (content : ByteArray) : KeepsDirectories fs (fs.put place (.file content)) := by
  obtain ⟨-, -, -, -, -, hd⟩ := id h
  exact .put (fun he => absurd he hd) h.ne_nil

/-- Another path names its file still when the file is written. -/
theorem namesFile_put {other : Path} {q : Place} (ho : fs.NamesFile other q) (content : ByteArray) :
    (fs.put place (.file content)).NamesFile other q := by
  refine ho.of_keeps (h.keepsDirectories content) ?_
  by_cases hq : q = place
  · rw [hq, get?_put_self fs _ h.ne_nil]
    simp
  · obtain ⟨-, -, -, -, -, hd⟩ := ho
    rwa [get?_put_of_ne fs _ hq]

end NamesFile

/-! ## Files written one after another -/

/-- The files are written in their order. -/
inductive Writes : FileSystem → List (Path × List Char) → FileSystem → Prop
  | nil (fs : FileSystem) : Writes fs [] fs
  | cons {fs fs₁ fs' : FileSystem} {p : Path} {s : List Char} {files : List (Path × List Char)}
      (first : fs.writeFile p (encode s) = .ok fs₁) (later : Writes fs₁ files fs') : Writes fs ((p, s) :: files) fs'

section Writes

variable {files : List (Path × List Char)}

theorem writes_nil_iff : fs.Writes [] fs' ↔ fs' = fs :=
  ⟨fun h => by cases h; rfl, fun h => h ▸ .nil fs⟩

theorem writes_cons_iff {f : Path × List Char} :
    fs.Writes (f :: files) fs' ↔ ∃ fs₁, fs.writeFile f.1 (encode f.2) = .ok fs₁ ∧ fs₁.Writes files fs' := by
  constructor
  · rintro (_ | ⟨first, later⟩)
    exact ⟨_, first, later⟩
  · rintro ⟨fs₁, first, later⟩
    exact .cons first later

/-- Files whose paths name files can be written. -/
theorem exists_writes (hnames : ∀ f ∈ files, ∃ place, fs.NamesFile f.1 place) : ∃ fs', fs.Writes files fs' := by
  induction files generalizing fs with
  | nil => exact ⟨fs, .nil fs⟩
  | cons f files ih =>
    obtain ⟨⟨place, hf⟩, hfiles⟩ := List.forall_mem_cons.mp hnames
    have hlater : ∀ g ∈ files, ∃ q, (fs.put place (.file (encode f.2))).NamesFile g.1 q := by
      intro g hg
      obtain ⟨q, hq⟩ := hfiles g hg
      exact ⟨q, hf.namesFile_put hq _⟩
    obtain ⟨fs', h⟩ := ih hlater
    exact ⟨fs', .cons (writeFile_eq_ok_iff.mpr ⟨place, hf, rfl⟩) h⟩

theorem Writes.keepsDirectories (h : fs.Writes files fs') : KeepsDirectories fs fs' := by
  induction h with
  | nil fs => exact .refl fs
  | cons first _ ih =>
    obtain ⟨place, hname, rfl⟩ := writeFile_eq_ok_iff.mp first
    exact (hname.keepsDirectories _).trans ih

/-- Where a file was, there is a file. -/
theorem Writes.get?_file (h : fs.Writes files fs') {content : ByteArray} (hc : fs.get? q = some (.file content)) :
    ∃ content', fs'.get? q = some (.file content') := by
  induction h generalizing content with
  | nil fs => exact ⟨content, hc⟩
  | @cons fs _ _ p s _ first _ ih =>
    obtain ⟨place, hname, rfl⟩ := writeFile_eq_ok_iff.mp first
    by_cases hq : q = place
    · subst hq
      exact ih (get?_put_self fs (.file (encode s)) hname.ne_nil)
    · exact ih ((get?_put_of_ne fs _ hq).trans hc)

/-- In the end the path of the first file leads to a file at the place where it was written. -/
theorem Writes.exists_find {s : List Char} (h : fs.Writes ((p, s) :: files) fs') :
    ∃ place, fs.NamesFile p place ∧ (fs.put place (.file (encode s))).Writes files fs' ∧
      ∃ content, fs'.find p = .ok (place, .file content) := by
  obtain _ | ⟨first, later⟩ := h
  obtain ⟨place, hname, rfl⟩ := writeFile_eq_ok_iff.mp first
  have hself := get?_put_self fs (.file (encode s)) hname.ne_nil
  obtain ⟨content, hc⟩ := later.get?_file hself
  have hfind := (hname.namesFile_put hname (encode s)).find hself
  exact ⟨place, hname, later, content, later.keepsDirectories.find hfind hc⟩

/-- A place that no path leads to stays as it was. -/
theorem Writes.get?_eq (h : fs.Writes files fs')
    (hq : ∀ f ∈ files, ∀ content, fs'.find f.1 ≠ .ok (q, .file content)) : fs'.get? q = fs.get? q := by
  induction files generalizing fs with
  | nil =>
    cases h
    rfl
  | cons f files ih =>
    obtain ⟨place, -, later, content, hfind⟩ := h.exists_find
    obtain ⟨hf, hfiles⟩ := List.forall_mem_cons.mp hq
    have hne : q ≠ place := by
      rintro rfl
      exact hf content hfind
    rw [ih later hfiles, get?_put_of_ne fs _ hne]

/-- **The last write stays**: a file holds what was written to it when no later path leads to its place. -/
theorem Writes.find_eq {earlier later : List (Path × List Char)} {f : Path × List Char}
    (h : fs.Writes (earlier ++ f :: later) fs') (hlater : ∀ g ∈ later, fs'.find g.1 ≠ fs'.find f.1) :
    ∃ place, fs'.find f.1 = .ok (place, .file (encode f.2)) := by
  induction earlier generalizing fs with
  | nil =>
    obtain ⟨place, hname, hw, content, hfind⟩ := h.exists_find
    have hself := get?_put_self fs (.file (encode f.2)) hname.ne_nil
    have hkeep : fs'.get? place = some (.file (encode f.2)) := by
      refine (hw.get?_eq fun g hg content' hg' => hlater g hg ?_).trans hself
      obtain ⟨_, _, _, _, h₁⟩ := find_eq_ok_iff.mp hg'
      obtain ⟨_, _, _, _, h₂⟩ := find_eq_ok_iff.mp hfind
      rw [hg', hfind, h₁.symm.trans h₂ |> Option.some.inj]
    exact ⟨place, (KeepsDirectories.refl fs').find hfind hkeep⟩
  | cons g earlier ih =>
    obtain ⟨_, -, hw, -⟩ := h.exists_find
    exact ih hw

section Placed

variable {placed : List ((Path × List Char) × Place)}

/-- Places where no file is written stay as they were. -/
theorem Writes.get?_of_not_mem (h : fs.Writes (placed.map (·.1)) fs') (hnames : ∀ f ∈ placed, fs.NamesFile f.1.1 f.2)
    (hq : q ∉ placed.map (·.2)) : fs'.get? q = fs.get? q := by
  induction placed generalizing fs with
  | nil =>
    cases h
    rfl
  | cons f placed ih =>
    obtain ⟨hf, hlater⟩ := List.forall_mem_cons.mp hnames
    rw [List.map_cons, List.mem_cons, not_or] at hq
    obtain ⟨place, hname, hw, -⟩ := h.exists_find
    obtain rfl := hname.place_eq hf
    rw [ih hw (fun g hg => hf.namesFile_put (hlater g hg) _) hq.2, get?_put_of_ne fs _ hq.1]

/-- Files that are written at different places hold what was written to them. -/
theorem Writes.find_of_nodup (h : fs.Writes (placed.map (·.1)) fs') (hnames : ∀ f ∈ placed, fs.NamesFile f.1.1 f.2)
    (hnodup : (placed.map (·.2)).Nodup) : ∀ f ∈ placed, fs'.find f.1.1 = .ok (f.2, .file (encode f.1.2)) := by
  induction placed generalizing fs with
  | nil => exact fun _ hf => nomatch hf
  | cons f placed ih =>
    obtain ⟨hplace, hnodup⟩ := List.nodup_cons.mp hnodup
    obtain ⟨hf, hlater⟩ := List.forall_mem_cons.mp hnames
    obtain ⟨place, hname, hw, content, hfind⟩ := h.exists_find
    obtain rfl := hname.place_eq hf
    have hnames' := fun g hg => hf.namesFile_put (hlater g hg) (encode f.1.2)
    have hkeep : fs'.get? f.2 = some (.file (encode f.1.2)) :=
      (hw.get?_of_not_mem hnames' hplace).trans (get?_put_self fs _ hf.ne_nil)
    exact List.forall_mem_cons.mpr ⟨(KeepsDirectories.refl fs').find hfind hkeep, ih hw hnames' hnodup⟩

end Placed

end Writes

/-! ## Directories that are made -/

section Directories

/-- A directory is made where nothing was, and its path leads there. -/
theorem makeDir_eq_ok (h : fs.makeDir p = .ok fs') :
    ∃ place, place ≠ [] ∧ fs.get? place = none ∧ fs' = fs.put place .directory ∧
      fs'.find p = .ok (place, .directory) := by
  unfold makeDir at h
  split at h
  · cases h
  · cases h
  · rename_i dir text slashes hlast
    split at h
    · cases h
    · rename_i hn
      split at h
      · cases h
      · rename_i hnone
        cases h
        have hne : dir ++ [text] ≠ [] := by simp
        have hkeep : KeepsDirectories fs (fs.put (dir ++ [text]) .directory) := .put (fun _ => rfl) hne
        refine ⟨dir ++ [text], hne, by simpa using hnone, rfl, ?_⟩
        exact find_of_findLast (hkeep.findLast hlast) (Nat.le_of_not_lt hn) (get?_put_self fs _ hne) fun _ => rfl

theorem isDirectory_iff : fs.isDirectory p ↔ ∃ place, fs.find p = .ok (place, .directory) := by
  unfold isDirectory
  split
  · rename_i place h
    simp [h]
  · rename_i h
    simpa using fun place => h place

/-- The directory is made, or it is there. -/
def MakesDir (fs : FileSystem) (p : Path) (fs' : FileSystem) : Prop :=
  fs.makeDir p = .ok fs' ∨ fs.isDirectory p ∧ fs' = fs

/-- All that has changed are directories where nothing was, and the ways to them are ancestors of the path. -/
structure DirectoriesMade (fs : FileSystem) (p : Path) (fs' : FileSystem) : Prop where
  workingDirectory_eq : fs'.workingDirectory = fs.workingDirectory
  get?_eq_or : ∀ place, fs'.get? place = fs.get? place ∨
    fs.get? place = none ∧ ∃ a, a.IsAncestorOf p ∧ fs'.find a = .ok (place, .directory)

theorem DirectoriesMade.refl (fs : FileSystem) (p : Path) : DirectoriesMade fs p fs :=
  ⟨rfl, fun _ => .inl rfl⟩

/-- What is no directory was there before. -/
theorem DirectoriesMade.get?_eq (h : DirectoriesMade fs p fs') (hn : fs'.get? place ≠ some .directory) :
    fs'.get? place = fs.get? place := by
  rcases h.get?_eq_or place with heq | ⟨-, a, -, hfind⟩
  · exact heq
  · obtain ⟨-, -, -, -, hd⟩ := find_eq_ok_iff.mp hfind
    exact absurd hd hn

/-- Then the path leads to a directory. -/
theorem MakesDir.exists_find (h : fs.MakesDir p fs') : ∃ place, fs'.find p = .ok (place, .directory) := by
  obtain h | ⟨h, rfl⟩ := h
  · obtain ⟨place, -, -, -, hfind⟩ := makeDir_eq_ok h
    exact ⟨place, hfind⟩
  · exact isDirectory_iff.mp h

/-- One more directory is made after those above it. -/
theorem DirectoriesMade.step {fs₁ : FileSystem} {a : Path} (h : DirectoriesMade fs a fs₁)
    (ha : ∀ b : Path, b.IsAncestorOf a → b.IsAncestorOf p) (hp : fs₁.MakesDir p fs') : DirectoriesMade fs p fs' := by
  have hold : ∀ {fs₂ : FileSystem}, KeepsDirectories fs₁ fs₂ → ∀ place, fs₂.get? place = fs₁.get? place →
      fs₂.get? place = fs.get? place ∨
        fs.get? place = none ∧ ∃ b : Path, b.IsAncestorOf p ∧ fs₂.find b = .ok (place, .directory) := by
    intro fs₂ hkeep place heq
    rcases h.get?_eq_or place with h₁ | ⟨hnone, b, hb, hfind⟩
    · exact .inl (heq.trans h₁)
    · exact .inr ⟨hnone, b, ha b hb, hkeep.find_directory hfind⟩
  obtain hmake | ⟨-, rfl⟩ := hp
  · obtain ⟨made, hne, hnone, rfl, hfind⟩ := makeDir_eq_ok hmake
    have hkeep : KeepsDirectories fs₁ (fs₁.put made .directory) := .put (fun _ => rfl) hne
    refine ⟨h.workingDirectory_eq, fun place => ?_⟩
    by_cases hm : place = made
    · subst hm
      refine .inr ⟨?_, p, .self p, hfind⟩
      rcases h.get?_eq_or place with h₁ | ⟨h₁, -⟩
      · exact h₁.symm.trans hnone
      · exact h₁
    · exact hold hkeep place (get?_put_of_ne fs₁ _ hm)
  · exact ⟨h.workingDirectory_eq, fun place => hold (.refl _) place rfl⟩

end Directories

/-! ## On the host -/

section Host

variable {standardInput : ByteArray}

/-- What is done one after the other leaves what the second leaves. -/
theorem run_bind_eq_iff {α β : Type} {x : StateM FileSystem α} {k : α → StateM FileSystem β} {b : β} :
    (x >>= k).run fs = (b, fs') ↔ ∃ a fs₁, x.run fs = (a, fs₁) ∧ (k a).run fs₁ = (b, fs') := by
  constructor
  · intro h
    exact ⟨_, _, rfl, h⟩
  · rintro ⟨a, fs₁, hx, hk⟩
    rw [StateT.run_bind, hx]
    exact hk

theorem run_change_eq_ok_iff {operation : FileSystem → Except IoError FileSystem} :
    (change operation).run fs = (.ok (), fs') ↔ operation fs = .ok fs' := by
  constructor
  · intro h
    replace h : change operation fs = (.ok (), fs') := h
    unfold change at h
    split at h
    · rename_i hop
      cases h
      exact hop
    · cases h
  · intro hop
    show change operation fs = _
    simp only [change, hop]

/-- An operation that fails leaves all as it was. -/
theorem eq_of_run_change_error {operation : FileSystem → Except IoError FileSystem} {e : IoError}
    (h : (change operation).run fs = (.error e, fs')) : fs' = fs := by
  replace h : change operation fs = (.error e, fs') := h
  unfold change at h
  split at h
  · cases h
  · cases h
    rfl

/-- If a directory cannot be made, one that is there will do. -/
theorem eq_of_run_isDirectory {e : IoError}
    (h : (do if ← (host standardInput).isDirectory p then return .ok () else return .error e :
      StateM FileSystem (Except IoError Unit)).run fs = (.ok (), fs')) : fs.isDirectory p ∧ fs' = fs := by
  obtain ⟨b, fs₁, hb, hnext⟩ := run_bind_eq_iff.mp h
  cases hb
  split at hnext
  · rename_i hd
    cases hnext
    exact ⟨hd, rfl⟩
  · cases hnext

/-- A directory is made at once, or after those above it. -/
theorem makeDirsWithin_cases {steps : Nat}
    (h : ((host standardInput).makeDirsWithin (steps + 1) p).run fs = (.ok (), fs')) :
    p = [] ∧ fs' = fs ∨ p ≠ [] ∧ (fs.MakesDir p fs' ∨
      ∃ fs₁, ((host standardInput).makeDirsWithin steps (p.parent?.getD [])).run fs = (.ok (), fs₁) ∧
        fs₁.MakesDir p fs') := by
  unfold Host.makeDirsWithin at h
  split at h
  · rename_i hp
    cases h
    exact .inl ⟨hp, rfl⟩
  · rename_i hp
    refine .inr ⟨hp, ?_⟩
    obtain ⟨r, fs₁, hmake, hnext⟩ := run_bind_eq_iff.mp h
    split at hnext
    · cases hnext
      exact .inl (.inl (run_change_eq_ok_iff.mp hmake))
    · obtain rfl := eq_of_run_change_error hmake
      obtain ⟨r, fs₂, hup, hnext⟩ := run_bind_eq_iff.mp hnext
      split at hnext
      · cases hnext
      · obtain ⟨r, fs₃, hagain, hlast⟩ := run_bind_eq_iff.mp hnext
        refine .inr ⟨fs₂, hup, ?_⟩
        split at hlast
        · cases hlast
          exact .inl (run_change_eq_ok_iff.mp hagain)
        · obtain rfl := eq_of_run_change_error hagain
          exact .inr (eq_of_run_isDirectory hlast)
    · obtain rfl := eq_of_run_change_error hmake
      exact .inl (.inr (eq_of_run_isDirectory hnext))

theorem makeDirsWithin_eq_ok {steps : Nat}
    (h : ((host standardInput).makeDirsWithin steps p).run fs = (.ok (), fs')) :
    DirectoriesMade fs p fs' ∧ (p = [] → fs' = fs) ∧ (p ≠ [] → ∃ place, fs'.find p = .ok (place, .directory)) := by
  induction steps generalizing p fs' with
  | zero => cases h
  | succ steps ih =>
    rcases makeDirsWithin_cases h with ⟨hp, rfl⟩ | ⟨hp, hmake | ⟨fs₁, hup, hmake⟩⟩
    · exact ⟨.refl _ _, fun _ => rfl, fun hne => absurd hp hne⟩
    · exact ⟨(DirectoriesMade.refl fs p).step (fun _ hb => hb) hmake, fun h => absurd h hp, fun _ => hmake.exists_find⟩
    · obtain ⟨hmade, hnil, -⟩ := ih hup
      refine ⟨?_, fun h => absurd h hp, fun _ => hmake.exists_find⟩
      cases hq : p.parent? with
      | none =>
        obtain rfl : fs₁ = fs := hnil (by rw [hq]; rfl)
        exact (DirectoriesMade.refl fs₁ p).step (fun _ hb => hb) hmake
      | some q =>
        rw [hq] at hmade
        exact hmade.step (fun _ hb => .up hq hb) hmake

/-- **Making directories** makes those on the way that are missing, and changes nothing else. -/
theorem makeDirs_eq_ok (h : ((host standardInput).makeDirs p).run fs = (.ok (), fs')) :
    DirectoriesMade fs p fs' ∧ (p ≠ [] → ∃ place, fs'.find p = .ok (place, .directory)) := by
  obtain ⟨hmade, -, hfind⟩ := makeDirsWithin_eq_ok h
  exact ⟨hmade, hfind⟩

end Host

end FileSystem

end AccessorGen
