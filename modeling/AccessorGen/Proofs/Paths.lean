import AccessorGen.Proofs.FileSystem
import AccessorGen.Proofs.Lines

/-!
# Where joined paths and parents lead

A path is followed along all its parts from where it starts (`FileSystem.find_eq_ok_iff_follow`), and parts that stand
for no component lead nowhere else (`FileSystem.eq_of_follow_ignored`). Hence

- a name joined to a path leads to that name in the directory that the path leads to (`FileSystem.find_join`);
- the parent of a path, joined with its last component, leads where the path leads
  (`FileSystem.find_parent_join`), since the parts of the one are those of the other without some that stand for no
  component (`Path.shortens_parent_join`).
-/

namespace AccessorGen

open Text

/-! ## Parts of a path -/

namespace Path

variable {p q : Path} {first name part : List Char} {before after later : List (List Char)}

/-- The path with the given parts. -/
def ofParts (first : List Char) (later : List (List Char)) : Path :=
  first ++ later.flatMap ('/' :: ·)

theorem intercalate_eq_ofParts (first : List Char) (later : List (List Char)) :
    ['/'].intercalate (first :: later) = ofParts first later := by
  induction later generalizing first with
  | nil => simp [ofParts]
  | cons part later ih =>
    rw [List.intercalate_cons_of_ne_nil (List.cons_ne_nil _ _), ih]
    simp [ofParts]

theorem splitOn_ofParts (hfirst : '/' ∉ first) (hlater : ∀ part ∈ later, '/' ∉ part) :
    (ofParts first later).splitOn '/' = first :: later := by
  rw [← intercalate_eq_ofParts]
  exact List.splitOn_intercalate '/' (List.forall_mem_cons.mpr ⟨hfirst, hlater⟩) (List.cons_ne_nil _ _)

theorem eq_ofParts (h : p.splitOn '/' = first :: later) : p = ofParts first later := by
  rw [← intercalate_eq_ofParts, ← h, List.intercalate_splitOn]

/-- An absolute path has an empty part first, and another one. -/
theorem isAbsolute_ofParts (hfirst : '/' ∉ first) : (ofParts first later).isAbsolute ↔ first = [] ∧ later ≠ [] := by
  unfold isAbsolute ofParts
  cases first with
  | nil => cases later <;> simp
  | cons c first =>
    have hc : c ≠ '/' := fun h => hfirst (h ▸ List.mem_cons_self)
    simp [hc]

theorem not_isAbsolute (hname : '/' ∉ name) : ¬ isAbsolute name := by
  intro habs
  exact hname (List.mem_of_head? (by simpa [isAbsolute] using habs))

theorem component?_eq_none_iff : component? part = none ↔ part = [] ∨ part = ['.'] := by
  unfold component?
  split
  · simp [*]
  · split <;> simp [*]

/-- A part that stands for a name is that name. -/
theorem component?_eq_name_iff :
    component? part = some (.name name) ↔ part = name ∧ name ≠ [] ∧ name ≠ ['.'] ∧ name ≠ ['.', '.'] := by
  unfold component?
  by_cases hblank : part = [] ∨ part = ['.']
  · rw [if_pos hblank]
    simp only [reduceCtorEq, false_iff]
    rintro ⟨rfl, hne, hdot, -⟩
    exact hblank.elim hne hdot
  · rw [if_neg hblank]
    rw [not_or] at hblank
    by_cases hdots : part = ['.', '.']
    · rw [if_pos hdots]
      simp only [Option.some.injEq, reduceCtorEq, false_iff]
      rintro ⟨rfl, -, -, hne⟩
      exact hne hdots
    · rw [if_neg hdots, Option.some.injEq, Component.name.injEq]
      constructor
      · rintro rfl
        exact ⟨rfl, hblank.1, hblank.2, hdots⟩
      · exact fun h => h.1

/-- The text is the name of a file, in whatever directory. -/
def IsName (text : List Char) : Prop :=
  component? text = some (.name text) ∧ '/' ∉ text

instance (text : List Char) : Decidable (IsName text) :=
  inferInstanceAs (Decidable (_ ∧ _))

/-- The last component is that of the last part that stands for one. -/
theorem getLast?_components {c : Component} (h : p.splitOn '/' = before ++ part :: after)
    (hpart : component? part = some c) (hafter : ∀ part ∈ after, component? part = none) :
    p.components.getLast? = some c := by
  have hnone : after.filterMap component? = [] := List.filterMap_eq_nil_iff.mpr hafter
  simp [components, h, hpart, hnone]

/-- Joining a name to a path adds it to the parts; an empty part at the end gives way to it. -/
theorem splitOn_join (hname : '/' ∉ name) (hne : p ≠ []) :
    ∃ before, (p.join name).splitOn '/' = before ++ [name] ∧
      (p.splitOn '/' = before ∨ p.splitOn '/' = before ++ [[]]) := by
  unfold join
  rw [if_neg (not_isAbsolute hname)]
  split
  · rename_i hslash
    obtain ⟨base, rfl⟩ := List.getLast?_eq_some_iff.mp (hslash.resolve_left hne)
    refine ⟨base.splitOn '/', ?_, .inr ?_⟩
    · rw [List.append_assoc, List.singleton_append, List.splitOn_append_cons_self, List.splitOn_eq_singleton hname]
    · rw [List.splitOn_append_cons_self, List.splitOn_nil]
  · exact ⟨p.splitOn '/', by rw [List.splitOn_append_cons_self, List.splitOn_eq_singleton hname], .inl rfl⟩

theorem join_eq_append (hname : '/' ∉ name) : ∃ rest, p.join name = p ++ rest := by
  unfold join
  rw [if_neg (not_isAbsolute hname)]
  split
  · exact ⟨name, rfl⟩
  · exact ⟨'/' :: name, rfl⟩

/-- Leaving out parts leaves out characters. -/
theorem ofParts_sublist {later' : List (List Char)} (h : later.Sublist later') :
    (ofParts first later).Sublist (ofParts first later') := by
  refine (List.Sublist.refl first).append ?_
  induction h with
  | slnil => exact .slnil
  | cons part _ ih => exact ih.trans (List.sublist_append_right _ _)
  | cons_cons part _ ih => exact (List.Sublist.refl _).append ih

/-- A path ends in a slash only if its last part is empty. -/
theorem getLast?_ofParts_ne (hfirst : '/' ∉ first) (hlast : ∀ part ∈ later.getLast?, part ≠ [] ∧ '/' ∉ part) :
    (ofParts first later).getLast? ≠ some '/' := by
  intro h
  rcases List.eq_nil_or_concat later with rfl | ⟨front, part, rfl⟩
  · exact hfirst (List.mem_of_getLast? (by simpa [ofParts] using h))
  · rw [List.concat_eq_append] at h hlast
    obtain ⟨hne, hslash⟩ := hlast part (by simp)
    have happend : ofParts first (front ++ [part]) = ofParts first front ++ ['/'] ++ part := by simp [ofParts]
    rw [happend, List.getLast?_append_of_ne_nil _ hne] at h
    exact hslash (List.mem_of_getLast? h)

/-- A path whose last part is not empty takes a slash before the name. -/
theorem join_ofParts (hname : '/' ∉ name) (hfirst : '/' ∉ first) (hne : later = [] → first ≠ [])
    (hlast : ∀ part ∈ later.getLast?, part ≠ [] ∧ '/' ∉ part) :
    (ofParts first later).join name = ofParts first (later ++ [name]) := by
  have hpath : ofParts first later ≠ [] := by
    cases later with
    | nil => simpa [ofParts] using hne
    | cons part later => simp [ofParts]
  unfold join
  rw [if_neg (not_isAbsolute hname), if_neg (by simp [hpath, getLast?_ofParts_ne hfirst hlast])]
  simp [ofParts]

/-- The parent of a path drops its last part that stands for a component, and those before it that stand for none. -/
theorem parent?_eq {last : List Char} {kept : List (List Char)} (hparts : p.splitOn '/' = first :: later)
    (hrev : later.reverse.dropWhile (fun part => (component? part).isNone) = last :: before)
    (hkept : (before.dropWhile fun part => (component? part).isNone).reverse = kept) :
    p.parent? = if kept = [] ∧ first = [] then some ['/'] else some (ofParts first kept) := by
  have hfirst : '/' ∉ first := not_mem_of_mem_splitOn (hparts ▸ List.mem_cons_self)
  have hlater : later ≠ [] := by
    rintro rfl
    cases hrev
  have habs : p.isAbsolute ↔ first = [] := by
    rw [eq_ofParts hparts, isAbsolute_ofParts hfirst]
    simp [hlater]
  unfold parent?
  rw [hparts]
  simp only [hrev, hkept, habs]
  cases kept with
  | nil => simp [ofParts]
  | cons part kept => simp only [intercalate_eq_ofParts, List.cons_ne_nil, false_and, if_false]

theorem parent?_join {last : List Char} {kept : List (List Char)} (hname : '/' ∉ name)
    (hparts : p.splitOn '/' = first :: later)
    (hrev : later.reverse.dropWhile (fun part => (component? part).isNone) = last :: before)
    (hkept : (before.dropWhile fun part => (component? part).isNone).reverse = kept) :
    (p.parent?.getD ['.']).join name = ofParts first (kept ++ [name]) := by
  have hslash : ∀ part ∈ first :: later, '/' ∉ part := fun part hpart => not_mem_of_mem_splitOn (hparts ▸ hpart)
  obtain ⟨hfirst, hlater⟩ := List.forall_mem_cons.mp hslash
  rw [parent?_eq hparts hrev hkept]
  split
  · rename_i hroot
    rw [hroot.1, hroot.2]
    simp [join, not_isAbsolute hname, ofParts]
  · rename_i hroot
    refine join_ofParts hname hfirst (fun hnil hfirst => hroot ⟨hnil, hfirst⟩) fun part hpart => ?_
    rw [← hkept, List.getLast?_reverse] at hpart
    have hstop := List.head?_dropWhile_not (fun part => (component? part).isNone) before
    rw [hpart] at hstop
    constructor
    · rintro rfl
      cases hstop
    · have hmem : part ∈ last :: before :=
        List.mem_cons_of_mem _ ((List.dropWhile_suffix _).subset (List.mem_of_head? hpart))
      rw [← hrev] at hmem
      exact hlater part (List.mem_reverse.mp ((List.dropWhile_suffix _).subset hmem))

theorem fileName?_eq_some_iff : p.fileName? = some name ↔ p.components.getLast? = some (.name name) := by
  unfold fileName?
  constructor
  · intro h
    split at h
    · rename_i hlast
      cases h
      exact hlast
    · cases h
  · intro h
    rw [h]

/-- The last part that stands for a component is the name of the path. -/
theorem eq_of_fileName? (h : p.fileName? = some name) (hparts : p.splitOn '/' = before ++ part :: after)
    (hpart : component? part ≠ none) (hafter : ∀ part ∈ after, component? part = none) : part = name ∧ name ≠ [] := by
  obtain ⟨c, hc⟩ := Option.ne_none_iff_exists'.mp hpart
  have hlast := fileName?_eq_some_iff.mp h
  rw [getLast?_components hparts hc hafter] at hlast
  cases hlast
  obtain ⟨rfl, hne, -⟩ := component?_eq_name_iff.mp hc
  exact ⟨rfl, hne⟩

/-- If no later part stands for a component, the first part is the name of the path. -/
theorem eq_first_of_fileName? (h : p.fileName? = some name) (hparts : p.splitOn '/' = first :: later)
    (hlater : ∀ part ∈ later, component? part = none) : first = name ∧ name ≠ [] := by
  have hnil : p.splitOn '/' = [] ++ first :: later := hparts
  refine eq_of_fileName? h hnil (fun hfirst => ?_) hlater
  have hnone : (first :: later).filterMap component? = [] :=
    List.filterMap_eq_nil_iff.mpr (List.forall_mem_cons.mpr ⟨hfirst, hlater⟩)
  -- then the last component would be the root or the directory itself
  have hlast := fileName?_eq_some_iff.mp h
  rw [components, hparts] at hlast
  simp only [hnone, List.append_nil] at hlast
  split at hlast
  · cases hlast
  · split at hlast <;> cases hlast

/-- The path goes the way of another one to its last name, without parts that stand for no component. -/
structure Shortens (q p : Path) (name : List Char) : Prop where
  ne_nil : q ≠ []
  sublist : q.Sublist p
  isAbsolute_iff : q.isAbsolute ↔ p.isAbsolute
  splitOn_eq : ∃ before between after, p.splitOn '/' = before ++ between ++ name :: after ∧
    q.splitOn '/' = before ++ [name] ∧ (∀ part ∈ between, component? part = none) ∧
    ∀ part ∈ after, component? part = none

theorem shortens_first (hne : name ≠ []) (hparts : p.splitOn '/' = name :: after)
    (hafter : ∀ part ∈ after, component? part = none) : Shortens name p name := by
  have hslash : '/' ∉ name := not_mem_of_mem_splitOn (hparts ▸ List.mem_cons_self)
  refine ⟨hne, ?_, ?_, [], [], after, hparts, List.splitOn_eq_singleton hslash, nofun, hafter⟩
  · rw [eq_ofParts hparts]
    exact List.sublist_append_left _ _
  · rw [eq_ofParts hparts, isAbsolute_ofParts hslash]
    simp [hne, not_isAbsolute hslash]

theorem shortens_ofParts {kept between : List (List Char)}
    (hparts : p.splitOn '/' = first :: (kept ++ between ++ name :: after))
    (hbetween : ∀ part ∈ between, component? part = none) (hafter : ∀ part ∈ after, component? part = none) :
    Shortens (ofParts first (kept ++ [name])) p name := by
  have hslash : ∀ part ∈ first :: (kept ++ between ++ name :: after), '/' ∉ part := fun part hpart =>
    not_mem_of_mem_splitOn (hparts ▸ hpart)
  obtain ⟨hfirst, hlater⟩ := List.forall_mem_cons.mp hslash
  have hsub : (kept ++ [name]).Sublist (kept ++ between ++ name :: after) :=
    (List.sublist_append_left kept between).append (.cons_cons _ (List.nil_sublist after))
  refine ⟨by simp [ofParts], ?_, ?_, first :: kept, between, after, hparts, ?_, hbetween, hafter⟩
  · rw [eq_ofParts hparts]
    exact ofParts_sublist hsub
  · rw [eq_ofParts hparts, isAbsolute_ofParts hfirst, isAbsolute_ofParts hfirst]
    simp
  · exact splitOn_ofParts hfirst fun part hpart => hlater part (hsub.subset hpart)

/-- The parent of a path joined with its last component goes the way of the path. -/
theorem shortens_parent_join (h : p.fileName? = some name) : Shortens ((p.parent?.getD ['.']).join name) p name := by
  obtain ⟨first, later, hparts⟩ := List.exists_cons_of_ne_nil (List.splitOn_ne_nil '/' p)
  have hslash : ∀ part ∈ first :: later, '/' ∉ part := fun part hpart => not_mem_of_mem_splitOn (hparts ▸ hpart)
  obtain ⟨hfirst, hlater⟩ := List.forall_mem_cons.mp hslash
  cases hrev : later.reverse.dropWhile fun part => (component? part).isNone with
  | nil =>
    have hignored : ∀ part ∈ later, component? part = none := by
      simpa using List.dropWhile_eq_nil_iff.mp hrev
    obtain ⟨rfl, hne⟩ := eq_first_of_fileName? h hparts hignored
    have hparent : p.parent? = some [] := by simp [parent?, hparts, hrev, hne]
    have hjoin : Path.join [] first = first := by simp [join, not_isAbsolute hfirst]
    rw [hparent, Option.getD_some, hjoin]
    exact shortens_first hne hparts hignored
  | cons last before =>
    obtain ⟨after, rfl, hlast, hafter⟩ := FileSystem.exists_eq_of_dropWhile_reverse hrev
    replace hafter : ∀ part ∈ after, component? part = none := by simpa using hafter
    have hcons : p.splitOn '/' = (first :: before.reverse) ++ last :: after := hparts
    obtain ⟨rfl, hne⟩ := eq_of_fileName? h hcons (by simpa using hlast) hafter
    have hbefore : before.reverse = (before.dropWhile fun part => (component? part).isNone).reverse ++
        (before.takeWhile fun part => (component? part).isNone).reverse := by
      rw [← List.reverse_append, List.takeWhile_append_dropWhile]
    have hslash : '/' ∉ last := hlater last (by simp)
    rw [parent?_join hslash hparts hrev rfl]
    refine shortens_ofParts (hbefore ▸ hparts) (fun part hpart => ?_) hafter
    simpa using List.mem_takeWhile_imp (List.mem_reverse.mp hpart)

/-- A path that a system takes: it is not empty, not too long, and holds no NUL. -/
structure IsUsable (p : Path) : Prop where
  ne_nil : p ≠ []
  byteLength_le : byteLength p ≤ FileSystem.pathLimit
  nul_not_mem : '\x00' ∉ p

theorem byteLength_le_of_sublist {s t : List Char} (h : s.Sublist t) : byteLength s ≤ byteLength t := by
  induction h with
  | slnil => exact Nat.le_refl _
  | cons c _ ih =>
    rw [byteLength_cons]
    omega
  | cons_cons c _ ih =>
    rw [byteLength_cons, byteLength_cons]
    omega

/-- Leaving out characters keeps a path usable. -/
theorem IsUsable.of_sublist (h : p.IsUsable) (hq : q.Sublist p) (hne : q ≠ []) : q.IsUsable :=
  ⟨hne, (byteLength_le_of_sublist hq).trans h.byteLength_le, fun hn => h.nul_not_mem (hq.subset hn)⟩

end Path

/-! ## Following all parts -/

namespace FileSystem

variable {fs : FileSystem} {p d : Path} {place q : Place} {e : Entry} {name : List Char}
  {parts before after : List (List Char)}

/-- The place that a path starts at. -/
def origin (fs : FileSystem) (p : Path) : Place :=
  if p.isAbsolute then [] else fs.workingDirectory

theorem start_eq_ok_iff :
    fs.start p = .ok (place, parts) ↔ p.IsUsable ∧ place = fs.origin p ∧
      parts = if p.isAbsolute then (p.splitOn '/').tail else p.splitOn '/' := by
  unfold start origin
  constructor
  · intro h
    split at h
    · cases h
    · rename_i hnul
      split at h
      · cases h
      · rename_i hlen
        split at h
        · cases h
        · rename_i hne
          have husable : p.IsUsable := ⟨hne, Nat.le_of_not_lt hlen, by simpa using hnul⟩
          split at h
          · rename_i habs
            cases h
            exact ⟨husable, by rw [if_pos habs], by rw [if_pos habs]⟩
          · rename_i habs
            cases h
            exact ⟨husable, by rw [if_neg habs], by rw [if_neg habs]⟩
  · rintro ⟨⟨hne, hlen, hnul⟩, rfl, rfl⟩
    rw [if_neg (by simpa using hnul), if_neg (Nat.not_lt_of_le hlen), if_neg hne]
    split <;> rfl

/-- The empty part in front of an absolute path leads to the root. -/
theorem follow_origin (h : fs.start p = .ok (place, parts)) :
    fs.follow place parts = .ok q ↔ fs.follow (fs.origin p) (p.splitOn '/') = .ok q := by
  obtain ⟨-, rfl, rfl⟩ := start_eq_ok_iff.mp h
  split
  · rename_i habs
    obtain ⟨first, later, hparts⟩ := List.exists_cons_of_ne_nil (List.splitOn_ne_nil '/' p)
    have hfirst : '/' ∉ first := not_mem_of_mem_splitOn (hparts ▸ List.mem_cons_self)
    obtain ⟨rfl, -⟩ := (Path.isAbsolute_ofParts hfirst).mp (Path.eq_ofParts hparts ▸ habs)
    have horigin : fs.origin p = [] := if_pos habs
    rw [hparts, List.tail_cons, follow_cons_eq_ok_iff, horigin]
    simp [get?, step]
  · rfl

/-- A path is followed along all its parts. -/
theorem find_eq_ok_iff_follow :
    fs.find p = .ok (q, e) ↔
      p.IsUsable ∧ fs.follow (fs.origin p) (p.splitOn '/') = .ok q ∧ fs.get? q = some e := by
  rw [find_eq_ok_iff]
  constructor
  · rintro ⟨place, parts, hs, hf, he⟩
    exact ⟨(start_eq_ok_iff.mp hs).1, (follow_origin hs).mp hf, he⟩
  · rintro ⟨husable, hf, he⟩
    have hs : fs.start p = .ok (fs.origin p, _) := start_eq_ok_iff.mpr ⟨husable, rfl, rfl⟩
    exact ⟨_, _, hs, (follow_origin hs).mpr hf, he⟩

/-- Parts that stand for no component lead nowhere else. -/
theorem eq_of_follow_ignored (hparts : ∀ part ∈ parts, Path.component? part = none)
    (h : fs.follow place parts = .ok q) : q = place := by
  induction parts with
  | nil =>
    cases h
    rfl
  | cons part parts ih =>
    obtain ⟨hpart, hparts⟩ := List.forall_mem_cons.mp hparts
    obtain ⟨-, -, h⟩ := follow_cons_eq_ok_iff.mp h
    rw [step, if_pos (Path.component?_eq_none_iff.mp hpart)] at h
    exact ih hparts h

/-- A name is looked up in a directory. -/
theorem follow_name (hname : Path.IsName name) (h : fs.follow place [name] = .ok q) :
    fs.get? place = some .directory ∧ q = place ++ [name] := by
  obtain ⟨hd, -, h⟩ := follow_cons_eq_ok_iff.mp h
  obtain ⟨-, hne, hdot, hdots⟩ := Path.component?_eq_name_iff.mp hname.1
  rw [step, if_neg (by simp [hne, hdot]), if_neg hdots] at h
  cases h
  exact ⟨hd, rfl⟩

/-- **A joined name** leads to that name in the directory that the path leads to. -/
theorem find_join (hname : Path.IsName name) (hne : d ≠ []) (h : fs.find (d.join name) = .ok (q, e)) :
    ∃ dir, fs.find d = .ok (dir, .directory) ∧ q = dir ++ [name] := by
  obtain ⟨husable, hfollow, -⟩ := find_eq_ok_iff_follow.mp h
  obtain ⟨rest, hjoin⟩ := Path.join_eq_append (p := d) hname.2
  obtain ⟨before, hparts, hd⟩ := Path.splitOn_join hname.2 hne
  have horigin : fs.origin (d.join name) = fs.origin d := by
    simp [origin, Path.isAbsolute, hjoin, List.head?_append_of_ne_nil _ hne]
  rw [hparts, horigin] at hfollow
  obtain ⟨dir, hbefore, hlast⟩ := follow_append_eq_ok_iff.mp hfollow
  obtain ⟨hdir, rfl⟩ := follow_name hname hlast
  refine ⟨dir, find_eq_ok_iff_follow.mpr ⟨?_, ?_, hdir⟩, rfl⟩
  · exact husable.of_sublist (hjoin ▸ List.sublist_append_left d rest) hne
  · rcases hd with hd | hd
    · rw [hd, hbefore]
    · rw [hd]
      exact follow_append_eq_ok_iff.mpr ⟨dir, hbefore, follow_empty (by simp) fun _ => hdir⟩

/-- **The parent of a path**, joined with the last component of the path, leads where the path leads. -/
theorem find_parent_join (hname : p.fileName? = some name) (h : fs.find p = .ok (q, e)) :
    fs.find ((p.parent?.getD ['.']).join name) = .ok (q, e) := by
  obtain ⟨husable, hfollow, he⟩ := find_eq_ok_iff_follow.mp h
  obtain ⟨hne, hsub, habs, before, between, after, hparts, hshort, hbetween, hafter⟩ :=
    Path.shortens_parent_join hname
  have horigin : fs.origin ((p.parent?.getD ['.']).join name) = fs.origin p := by simp [origin, habs]
  refine find_eq_ok_iff_follow.mpr ⟨husable.of_sublist hsub hne, ?_, he⟩
  rw [hparts] at hfollow
  obtain ⟨r, hbefore, hlast⟩ := follow_append_eq_ok_iff.mp hfollow
  obtain ⟨dir, hbefore, hr⟩ := follow_append_eq_ok_iff.mp hbefore
  obtain rfl := eq_of_follow_ignored hbetween hr
  rw [← List.singleton_append] at hlast
  obtain ⟨r', hname', hr'⟩ := follow_append_eq_ok_iff.mp hlast
  obtain rfl := eq_of_follow_ignored hafter hr'
  rw [hshort, horigin]
  exact follow_append_eq_ok_iff.mpr ⟨_, hbefore, hname'⟩

end FileSystem

end AccessorGen
