import ComponentViews.Files.Tree
import Mathlib.Data.List.Dedup

/-!
# Writing files

A text that is written into a file of a tree is read back from it, and other files stay as they are.
Writing makes no directories, so paths lead to the same files before and after. Of several texts that
are written into one file the last is left.

## Main definitions

* `FileTree.SameDirectories`: two trees have the same directories.
* `FileTree.IsFileAt`, `FileTree.SameFile`: a path leads to a file, or two paths to one file.
* `FileTree.Writes`: texts that are written one after the other.

## Main results

* `SameDirectories.isFileAt_iff`: paths lead to the same files in trees with the same directories.
* `write_eq_ok_iff`: when a text can be written, and what is left then.
* `read_of_isFileAt`: what is read is what is at the end of the way.
* `Writes.read_of_last`, `Writes.kept_iff`: what is left of several texts.
-/

namespace ComponentViews

namespace FileTree

variable {t t' t'' : FileTree} {path text : String} {way : List FileName}

/-! ## Entries -/

theorem lookup_cons_eq_ite (x : List FileName × FileEntry) (entries : List (List FileName × FileEntry))
    (way : List FileName) :
    (x :: entries).lookup way = if way = x.1 then some x.2 else entries.lookup way := by
  rw [List.lookup_cons]
  by_cases h : way = x.1
  · simp [h]
  · rw [beq_false_of_ne h, if_neg h]

theorem entry?_put (t : FileTree) (way other : List FileName) (e : FileEntry) :
    entry? (t.put way e) other =
      if isOutward other then some .directory else if other = way then some e else t.entry? other := by
  unfold entry? put
  split
  · rfl
  · induction t.entries with
    | nil => exact lookup_cons_eq_ite (way, e) [] other
    | cons x entries ih =>
      by_cases hx : x.1 = way
      · rw [List.filter_cons_of_neg (by simpa using hx), ih, lookup_cons_eq_ite, hx]
        split <;> rfl
      · rw [List.filter_cons_of_pos (by simpa using hx), List.cons_append, lookup_cons_eq_ite,
          lookup_cons_eq_ite, ih]
        by_cases hother : other = x.1
        · rw [if_pos hother, if_pos hother, if_neg (hother ▸ hx)]
        · rw [if_neg hother, if_neg hother]

theorem entry?_of_isOutward (t : FileTree) (h : isOutward way) : t.entry? way = some .directory :=
  if_pos h

/-- What is at the end of a way is no directory around the one in which commands run, unless it is a
directory. -/
theorem isOutward_eq_false (h : t.entry? way ≠ some .directory) : isOutward way = false := by
  unfold entry? at h
  split at h
  · exact absurd rfl h
  · exact Bool.eq_false_iff.2 ‹_›

/-! ## Directories -/

/-- Two trees have the same directories. -/
def SameDirectories (t t' : FileTree) : Prop :=
  ∀ way, t.entry? way = some .directory ↔ t'.entry? way = some .directory

theorem SameDirectories.refl (t : FileTree) : SameDirectories t t := fun _ => Iff.rfl

theorem SameDirectories.symm (h : SameDirectories t t') : SameDirectories t' t :=
  fun way => (h way).symm

theorem SameDirectories.trans (h : SameDirectories t t') (h' : SameDirectories t' t'') :
    SameDirectories t t'' :=
  fun way => (h way).trans (h' way)

/-- Putting a file where no directory is changes no directory. -/
theorem sameDirectories_put (h : t.entry? way ≠ some .directory) (content : Option String) :
    SameDirectories t (t.put way (.file content)) := by
  intro other
  rw [entry?_put]
  by_cases hother : other = way
  · subst hother
    simp [isOutward_eq_false h, h]
  · rw [if_neg hother]
    split
    · rw [entry?_of_isOutward t ‹_›]
    · rfl

/-- Where a way leads on from a directory to a directory, all on it are directories. -/
theorem entry?_of_walk {segments : List (List Char)} {last : List FileName}
    (h : t.walk way segments = .ok last) (hlast : t.entry? last = some .directory) :
    t.entry? way = some .directory := by
  cases segments with
  | nil =>
    obtain rfl : way = last := Except.ok.inj h
    exact hlast
  | cons s rest =>
    unfold walk at h
    split at h
    · assumption
    · cases h
    · cases h

theorem SameDirectories.walk (h : SameDirectories t t') {segments : List (List Char)}
    {last : List FileName} (hlast : t.entry? last = some .directory) :
    t.walk way segments = .ok last → t'.walk way segments = .ok last := by
  induction segments generalizing way with
  | nil => exact id
  | cons s rest ih =>
    intro hwalk
    have hway := entry?_of_walk hwalk hlast
    -- A step of the walk depends only on whether its place is a directory, and there the trees agree.
    unfold FileTree.walk at hwalk ⊢
    rw [hway] at hwalk
    rw [(h way).1 hway]
    dsimp only at hwalk ⊢
    split
    · rw [if_pos ‹_›] at hwalk
      exact ih hwalk
    · rw [if_neg ‹_›] at hwalk
      split
      · rw [if_pos ‹_›] at hwalk
        exact ih hwalk
      · rw [if_neg ‹_›] at hwalk
        split
        · rw [if_pos ‹_›] at hwalk
          cases hwalk
        · rw [if_neg ‹_›] at hwalk
          split at hwalk
          · have hnext := (h _).1 (entry?_of_walk hwalk hlast)
            rw [if_pos (by rw [hnext]; rfl)]
            exact ih hwalk
          · cases hwalk

/-! ## Files -/

/-- A path leads to a directory and the name of a file in it. -/
structure IsFileAt (t : FileTree) (path : String) (way : List FileName) (name : FileName) :
    Prop where
  place : t.place path = .ok (way, name)
  not_slash : path.toList.getLast? ≠ some '/'
  not_dots : name ≠ ['.'] ∧ name ≠ outStep
  short : isShort name

/-- Two paths lead to one file. -/
def SameFile (t : FileTree) (path other : String) : Prop :=
  ∃ way name, t.IsFileAt path way name ∧ t.IsFileAt other way name

theorem bind_eq_ok_iff {α β : Type} {x : Except FileError α} {f : α → Except FileError β} {b : β} :
    (x >>= f) = .ok b ↔ ∃ a, x = .ok a ∧ f a = .ok b := by
  cases x <;> simp [bind, Except.bind]

theorem place_eq_ok_iff {name : FileName} :
    t.place path = .ok (way, name) ↔
      ∃ segments, pathSteps path = .ok segments ∧
        t.walk [] (trimSegments segments).dropLast = .ok way ∧
        t.entry? way = some .directory ∧ (trimSegments segments).getLast?.getD [] = name := by
  unfold place
  simp only [bind_eq_ok_iff]
  constructor
  · rintro ⟨segments, hsteps, last, hwalk, h⟩
    split at h
    · rename_i hentry
      obtain ⟨rfl, hname⟩ := Prod.mk.inj (Except.ok.inj h)
      exact ⟨segments, hsteps, hwalk, hentry, hname⟩
    · cases h
    · cases h
  · rintro ⟨segments, hsteps, hwalk, hentry, rfl⟩
    exact ⟨segments, hsteps, way, hwalk, by rw [hentry]⟩

theorem SameDirectories.isFileAt (h : SameDirectories t t') {name : FileName}
    (hfile : t.IsFileAt path way name) : t'.IsFileAt path way name := by
  obtain ⟨segments, hsteps, hwalk, hentry, hname⟩ := place_eq_ok_iff.1 hfile.place
  refine ⟨place_eq_ok_iff.2 ⟨segments, hsteps, h.walk hentry hwalk, (h way).1 hentry, hname⟩, ?_, ?_, ?_⟩
  · exact hfile.not_slash
  · exact hfile.not_dots
  · exact hfile.short

/-- Paths lead to the same files where the directories are the same. -/
theorem SameDirectories.isFileAt_iff (h : SameDirectories t t') {name : FileName} :
    t.IsFileAt path way name ↔ t'.IsFileAt path way name :=
  ⟨h.isFileAt, h.symm.isFileAt⟩

/-- A text can be written where a path leads to a file and no directory is there. -/
theorem write_eq_ok_iff :
    t.write path text = .ok t' ↔
      ∃ way name, t.IsFileAt path way name ∧ t.entry? (way ++ [name]) ≠ some .directory ∧
        t' = t.put (way ++ [name]) (.file (some text)) := by
  -- A write succeeds if the name is allowed at its place and no directory is there.
  unfold write
  rw [bind_eq_ok_iff]
  constructor
  · rintro ⟨⟨way, name⟩, hplace, h⟩
    dsimp only at h
    split at h
    · cases h
    split at h
    · cases h
    rename_i hname hshort
    simp only [not_or] at hname
    refine ⟨way, name, ⟨hplace, hname.1, hname.2, by simpa using hshort⟩, ?_⟩
    split at h
    · cases h
    · exact ⟨‹_›, (Except.ok.inj h).symm⟩
  · rintro ⟨way, name, hfile, hentry, rfl⟩
    refine ⟨(way, name), hfile.place, ?_⟩
    dsimp only
    rw [if_neg (by simpa using ⟨hfile.not_slash, hfile.not_dots⟩), if_neg (by simpa using hfile.short)]
    split
    · exact absurd ‹_› hentry
    · rfl

/-! ## Reading -/

theorem walk_append (t : FileTree) (way : List FileName) (as bs : List (List Char)) :
    t.walk way (as ++ bs) = t.walk way as >>= fun way => t.walk way bs := by
  induction as generalizing way with
  | nil => rfl
  | cons s as ih =>
    rw [List.cons_append, walk, walk]
    simp only [ih]
    split
    · split
      · rfl
      · split
        · rfl
        · split
          · rfl
          · split <;> rfl
    · rfl
    · rfl

theorem intercalate_concat (around : List (List Char)) (name : List Char) :
    ['/'].intercalate (around ++ [name]) = around.flatMap (· ++ ['/']) ++ name := by
  induction around with
  | nil => simp
  | cons s around ih =>
    have hne : around ++ [name] ≠ [] := List.concat_ne_nil _ _
    rw [List.cons_append, List.intercalate_cons_of_ne_nil hne, ih, List.flatMap_cons]
    simp

/-- A path that can be followed is not empty, and has its segments. -/
theorem pathSteps_eq_ok {segments : List (List Char)} (h : pathSteps path = .ok segments) :
    path ≠ "" ∧ segments = pathSegments path := by
  unfold pathSteps at h
  split at h
  · cases h
  split at h
  · cases h
  split at h
  · cases h
  · rename_i hempty
    exact ⟨fun he => hempty (.inl he), (Except.ok.inj h).symm⟩

/-- A path that can be followed and does not end in a solidus ends in a name. -/
theorem exists_segments_of_not_slash {segments : List (List Char)} (h : pathSteps path = .ok segments)
    (hslash : path.toList.getLast? ≠ some '/') :
    ∃ around name, segments = around ++ [name] ∧ name ≠ [] ∧ trimSegments segments = segments := by
  have hpath := pathSteps_eq_ok h
  -- Cutting a text at slashes leaves one piece at least.
  obtain ⟨around, name, hsegments⟩ : ∃ around name, segments = around ++ [name] := by
    rcases List.eq_nil_or_concat segments with rfl | ⟨around, name, rfl⟩
    · exact absurd hpath.2.symm (List.splitOn_ne_nil _ _)
    · exact ⟨around, name, List.concat_eq_append⟩
  have htext : path.toList = around.flatMap (· ++ ['/']) ++ name := by
    rw [← intercalate_concat, ← hsegments, hpath.2]
    exact (List.intercalate_splitOn '/').symm
  -- An empty last piece would mean an empty path or a slash at the end.
  have hname : name ≠ [] := by
    rintro rfl
    rcases List.eq_nil_or_concat around with rfl | ⟨before, s, rfl⟩
    · exact hpath.1 (String.toList_inj.1 htext)
    · refine hslash ?_
      rw [htext]
      simp
  refine ⟨around, name, hsegments, hname, ?_⟩
  rw [hsegments, trimSegments, List.reverse_append, List.reverse_singleton, List.singleton_append,
    List.dropWhile_cons_of_neg (by simpa using hname), ← List.singleton_append, List.reverse_append]
  simp

/-- What is read is what is at the end of the way, if it is a text. -/
theorem read_of_isFileAt {name : FileName} (h : t.IsFileAt path way name) :
    t.read path =
      match t.entry? (way ++ [name]) with
      | some .directory => .error .isDirectory
      | some (.file (some text)) => .ok text
      | some (.file none) => .error .notText
      | none => .error .notFound := by
  obtain ⟨segments, hsteps, hwalk, hentry, hname⟩ := place_eq_ok_iff.1 h.place
  obtain ⟨around, last, rfl, hlast, htrim⟩ := exists_segments_of_not_slash hsteps h.not_slash
  rw [htrim] at hwalk hname
  obtain rfl : last = name := by simpa using hname
  rw [List.dropLast_concat] at hwalk
  -- Reading takes one step more than finding the place, to the file itself.
  have hstep : t.walk [] (around ++ [last]) =
      if (t.entry? (way ++ [last])).isSome then .ok (way ++ [last]) else .error .notFound := by
    rw [walk_append, hwalk]
    simp only [bind, Except.bind, walk, hentry, hlast, h.not_dots.1, h.not_dots.2, h.short]
    simp
  unfold read find
  rw [hsteps]
  simp only [bind, Except.bind, hstep]
  rcases hfound : t.entry? (way ++ [last]) with _ | _ | _ | text <;> simp [hfound]

theorem SameDirectories.sameFile_iff (h : SameDirectories t t') {other : String} :
    t.SameFile path other ↔ t'.SameFile path other := by
  simp only [SameFile, h.isFileAt_iff]

theorem SameFile.read_eq {other : String} (h : t.SameFile path other) : t.read path = t.read other := by
  obtain ⟨way, name, hpath, hother⟩ := h
  rw [read_of_isFileAt hpath, read_of_isFileAt hother]

/-! ## The number of files -/

/-- The files that paths lead to, each once. -/
def filesAt (t : FileTree) (paths : List String) : List (List FileName × FileName) :=
  (paths.filterMap fun p => (t.place p).toOption).dedup

theorem sameFile_iff_place_eq {other : String} (h : ∃ way name, t.IsFileAt path way name)
    (hother : ∃ way name, t.IsFileAt other way name) :
    t.SameFile path other ↔ t.place path = t.place other := by
  obtain ⟨way, name, h⟩ := h
  obtain ⟨way', name', h'⟩ := hother
  constructor
  · rintro ⟨_, _, hfirst, hsecond⟩
    rw [hfirst.place, hsecond.place]
  · intro heq
    rw [h.place, h'.place] at heq
    obtain ⟨rfl, rfl⟩ := Prod.mk.inj (Except.ok.inj heq)
    exact ⟨way, name, h, h'⟩

/-- There are as many files as paths exactly if no two of the paths lead to one file. -/
theorem length_filesAt_eq_iff {paths : List String}
    (h : ∀ p ∈ paths, ∃ way name, t.IsFileAt p way name) :
    (t.filesAt paths).length = paths.length ↔ paths.Pairwise fun p q => ¬ t.SameFile p q := by
  have hlength : (paths.filterMap fun p => (t.place p).toOption).length = paths.length := by
    rw [List.length_filterMap_eq_countP, List.countP_eq_length]
    intro p hp
    obtain ⟨way, name, hfile⟩ := h p hp
    rw [hfile.place]
    rfl
  have hnodup : (paths.filterMap fun p => (t.place p).toOption).Nodup ↔
      paths.Pairwise fun p q => ¬ t.SameFile p q := by
    rw [List.Nodup, List.pairwise_filterMap]
    refine List.Pairwise.iff_of_mem fun {p q} hp hq => ?_
    rw [sameFile_iff_place_eq (h p hp) (h q hq)]
    obtain ⟨_, _, hp⟩ := h p hp
    obtain ⟨_, _, hq⟩ := h q hq
    simp [hp.place, hq.place, Except.toOption]
  rw [← hnodup, ← hlength, ← List.dedup_eq_self]
  exact ⟨(List.dedup_sublist _).eq_of_length, fun hself => congrArg List.length hself⟩

/-! ## Names in a directory -/

/-- In one directory, only the last segment of a path depends on the name. -/
theorem exists_pathSegments_joinPath (directory : String) :
    ∃ around, ∀ file : String, '/' ∉ file.toList →
      pathSegments (joinPath directory file) = around ++ [file.toList] := by
  -- The slash in front of a file name without slashes is the last one.
  have hcut : ∀ (cs : List Char) {file : String}, '/' ∉ file.toList →
      (cs ++ '/' :: file.toList).splitOn '/' = cs.splitOn '/' ++ [file.toList] := by
    intro cs file hfile
    rw [← List.splitOn_eq_singleton hfile]
    exact List.splitOnP_append_cons cs file.toList (beq_self_eq_true '/')
  have hhead : ∀ {file : String}, '/' ∉ file.toList → file.toList.head? ≠ some '/' :=
    fun hfile h => hfile (List.mem_of_mem_head? h)
  by_cases hempty : directory = ""
  · refine ⟨[], fun file hfile => ?_⟩
    rw [joinPath, if_pos (.inl hempty)]
    exact List.splitOn_eq_singleton hfile
  by_cases hslash : directory.toList.getLast? = some '/'
  · obtain ⟨cs, hcs⟩ := List.getLast?_eq_some_iff.1 hslash
    refine ⟨cs.splitOn '/', fun file hfile => ?_⟩
    rw [joinPath, if_neg (by simpa [hempty] using hhead hfile), if_pos hslash, pathSegments,
      String.toList_append, hcs, List.append_assoc]
    exact hcut cs hfile
  · refine ⟨directory.toList.splitOn '/', fun file hfile => ?_⟩
    rw [joinPath, if_neg (by simpa [hempty] using hhead hfile), if_neg hslash, pathSegments,
      String.toList_append, String.toList_append, List.append_assoc]
    exact hcut directory.toList hfile

/-- Names without solidi are those of different files of a directory, unless they are equal. -/
theorem sameFile_joinPath_iff {directory file other : String} (hfile : '/' ∉ file.toList)
    (hother : '/' ∉ other.toList)
    (hplace : ∃ way name, t.IsFileAt (joinPath directory file) way name) :
    t.SameFile (joinPath directory file) (joinPath directory other) ↔ file = other := by
  obtain ⟨around, haround⟩ := exists_pathSegments_joinPath directory
  have hname : ∀ {file : String}, '/' ∉ file.toList → ∀ {way name},
      t.IsFileAt (joinPath directory file) way name → name = file.toList := by
    intro file hfile way name h
    obtain ⟨segments, hsteps, -, -, hname⟩ := place_eq_ok_iff.1 h.place
    obtain ⟨-, -, -, -, htrim⟩ := exists_segments_of_not_slash hsteps h.not_slash
    obtain rfl : segments = pathSegments (joinPath directory file) := (pathSteps_eq_ok hsteps).2
    rw [htrim, haround file hfile] at hname
    simpa using hname.symm
  constructor
  · rintro ⟨way, name, hfirst, hsecond⟩
    exact String.toList_inj.1 ((hname hfile hfirst).symm.trans (hname hother hsecond))
  · rintro rfl
    obtain ⟨way, name, h⟩ := hplace
    exact ⟨way, name, h, h⟩

/-! ## Writing -/

theorem sameDirectories_of_write (h : t.write path text = .ok t') : SameDirectories t t' := by
  obtain ⟨way, name, -, hentry, rfl⟩ := write_eq_ok_iff.1 h
  exact sameDirectories_put hentry (some text)

/-- A text that is written is read back. -/
theorem read_of_write (h : t.write path text = .ok t') : t'.read path = .ok text := by
  have hdirectories := sameDirectories_of_write h
  obtain ⟨way, name, hfile, hentry, rfl⟩ := write_eq_ok_iff.1 h
  rw [read_of_isFileAt (hdirectories.isFileAt hfile), entry?_put, isOutward_eq_false hentry]
  simp

/-- What is in other files stays. -/
theorem read_of_write_of_not_sameFile (h : t.write path text = .ok t') {other : String}
    {way : List FileName} {name : FileName} (hother : t.IsFileAt other way name)
    (hne : ¬ t.SameFile other path) : t'.read other = t.read other := by
  have hdirectories := sameDirectories_of_write h
  obtain ⟨way', name', hfile, hentry, rfl⟩ := write_eq_ok_iff.1 h
  have hway : way ++ [name] ≠ way' ++ [name'] := by
    intro heq
    obtain ⟨rfl, hname⟩ := List.append_inj' heq rfl
    obtain rfl : name = name' := by simpa using hname
    exact hne ⟨way, name, hother, hfile⟩
  rw [read_of_isFileAt (hdirectories.isFileAt hother), read_of_isFileAt hother, entry?_put,
    if_neg hway]
  have houtward : isOutward (way ++ [name]) = false := by
    simp [isOutward, hother.not_dots.2]
  rw [houtward]
  rfl

/-- Texts are written to paths, one after the other. -/
inductive Writes : FileTree → List (String × String) → FileTree → Prop
  | nil (t : FileTree) : Writes t [] t
  | cons {t t' t'' : FileTree} {path text : String} {rest : List (String × String)}
      (first : t.write path text = .ok t') (more : Writes t' rest t'') :
      Writes t ((path, text) :: rest) t''

namespace Writes

variable {files : List (String × String)}

theorem sameDirectories (h : Writes t files t') : SameDirectories t t' := by
  induction h with
  | nil t => exact .refl t
  | cons first _ ih => exact (sameDirectories_of_write first).trans ih

theorem exists_isFileAt (h : Writes t files t') :
    ∀ f ∈ files, ∃ way name, t'.IsFileAt f.1 way name := by
  induction h with
  | nil => exact List.forall_mem_nil _
  | cons first more ih =>
    obtain ⟨way, name, hfile, -⟩ := write_eq_ok_iff.1 first
    have hdirectories := (sameDirectories_of_write first).trans more.sameDirectories
    exact List.forall_mem_cons.2 ⟨⟨way, name, hdirectories.isFileAt hfile⟩, ih⟩

/-- What is in files to which nothing is written stays. -/
theorem read_eq (h : Writes t files t') {way : List FileName} {name : FileName}
    (hfile : t'.IsFileAt path way name) (hne : ∀ f ∈ files, ¬ t'.SameFile path f.1) :
    t'.read path = t.read path := by
  induction h with
  | nil => rfl
  | cons first more ih =>
    have hdirectories := (sameDirectories_of_write first).trans more.sameDirectories
    obtain ⟨hfirst, hmore⟩ := List.forall_mem_cons.1 hne
    rw [ih hfile hmore]
    refine read_of_write_of_not_sameFile first (hdirectories.symm.isFileAt hfile) fun hsame => ?_
    exact hfirst (hdirectories.sameFile_iff.1 hsame)

/-- The last of the texts that are written into a file is left. -/
theorem read_of_last {before after : List (String × String)}
    (h : Writes t (before ++ (path, text) :: after) t')
    (hlast : ∀ f ∈ after, ¬ t'.SameFile path f.1) : t'.read path = .ok text := by
  obtain ⟨way, name, hfile⟩ := h.exists_isFileAt (path, text) (by simp)
  induction before generalizing t with
  | nil =>
    cases h with
    | cons first more => rw [more.read_eq hfile hlast, read_of_write first]
  | cons f before ih =>
    cases h with
    | cons _ more => exact ih more

/-- Each text that is written is left exactly if no other one is written into its file. -/
theorem kept_iff (h : Writes t files t') :
    (∀ f ∈ files, t'.read f.1 = .ok f.2) ↔
      ∀ f ∈ files, ∀ f' ∈ files, t'.SameFile f.1 f'.1 → f.2 = f'.2 := by
  constructor
  · intro hkept f hf f' hf' hsame
    have hread := hsame.read_eq
    rw [hkept f hf, hkept f' hf'] at hread
    exact Except.ok.inj hread
  · intro hone
    -- The last write to a place is the one that is kept.
    induction h with
    | nil => exact List.forall_mem_nil _
    | @cons t₀ t₁ t₂ path text rest first more ih =>
      have hrest : ∀ f ∈ rest, t₂.read f.1 = .ok f.2 := ih fun f hf f' hf' =>
        hone f (List.mem_cons_of_mem _ hf) f' (List.mem_cons_of_mem _ hf')
      refine List.forall_mem_cons.2 ⟨?_, hrest⟩
      by_cases hagain : ∃ f ∈ rest, t₂.SameFile path f.1
      · -- What is written later is the same text.
        obtain ⟨f, hf, hsame⟩ := hagain
        rw [hsame.read_eq, hrest f hf,
          hone (path, text) List.mem_cons_self f (List.mem_cons_of_mem _ hf) hsame]
      · push Not at hagain
        have hwrites : Writes t₀ ([] ++ (path, text) :: rest) t₂ := .cons first more
        exact hwrites.read_of_last hagain

end Writes

end FileTree

end ComponentViews
