import Legator.Skills.Cache

/-!
# Packing a skill directory

`Pack` checks that its argument is a directory holding `SKILL.md`, walks it
with `filepath.Walk`, and writes every regular file into a gzip-compressed tar
stream under its path relative to the directory; the manifest lists the same
paths. `Unpack`, modelled with the cache, reads such a stream back.

The directory is modelled by the tree `Walk` visits: a regular file with its
contents, or a directory with its entries, listed as `os.ReadDir` returns them
(by name); a missing path is `none`. The content layer is modelled, as for
`Unpack`, by what the gzip and tar readers decode from the bytes: the entries
the tar writer wrote, each with the bytes that followed its header, then the
end of the stream. The manifest's description and creation time and the JSON
config blob are left out: no modelled function reads them.

The main result is the round trip: unpacking what `Pack` wrote into a clean
destination with nothing below it writes every file of the skill directory at
its path, with its contents, and no other file.
-/

namespace Legator.Skills

/-- A directory tree on disk as `filepath.Walk` visits it. -/
inductive DirTree
  | file (data : List UInt8)
  | dir (entries : List (String × DirTree))

namespace DirTree

mutual
/-- The regular files `filepath.Walk` visits in a tree, in order, each with the
elements of its path from the tree's root. -/
def walk : DirTree → List (List (List Char) × List UInt8)
  | .file data => [([], data)]
  | .dir entries => walkEntries entries

/-- `walk` over the entries of a directory. -/
def walkEntries : List (String × DirTree) → List (List (List Char) × List UInt8)
  | [] => []
  | (name, tree) :: rest =>
      tree.walk.map (fun file => (name.data :: file.1, file.2)) ++ walkEntries rest
end

mutual
/-- A tree a file system can hold: the entries of a directory have distinct
names, and each name is a path element (not empty, `.` or `..`, and without a
separator). -/
def WellFormed : DirTree → Prop
  | .file _ => True
  | .dir entries => EntriesWellFormed entries

/-- `WellFormed` for the entries of a directory. -/
def EntriesWellFormed : List (String × DirTree) → Prop
  | [] => True
  | (name, tree) :: rest =>
      IsName name.data ∧ (∀ other ∈ rest, other.1 ≠ name) ∧ tree.WellFormed ∧ EntriesWellFormed rest
end

end DirTree

/-- The relative path `filepath.Rel` gives for the elements of a path below the
walked directory. -/
def relPath (elems : List (List Char)) : String :=
  ⟨['/'].intercalate elems⟩

/-- `filepath.Base`: the last element of a path, after trailing separators. -/
def base (path : String) : String :=
  if path = "" then "."
  else
    let stripped := path.data.reverse.dropWhile (· = '/')
    if stripped = [] then "/" else ⟨(stripped.takeWhile (· ≠ '/')).reverse⟩

/-- `SkillManifest`, without its description and creation time. -/
structure SkillManifest where
  name : String
  version : String
  files : List String

/-- `PackResult`, with the content layer as the gzip and tar readers decode it
and without the JSON config blob. -/
structure PackResult where
  manifest : SkillManifest
  content : Archive

/-- `Pack` of the directory `dir`, whose tree is `tree`. -/
def pack (dir : String) : Option DirTree → Except String PackResult
  | none | some (.file _) => .error ("not a directory: " ++ dir)
  | some (.dir entries) =>
      match entries.lookup "SKILL.md" with
      | none => .error ("SKILL.md not found in " ++ dir)
      | some _ =>
          let files := DirTree.walkEntries entries
          .ok ⟨⟨base dir, "latest", files.map fun file => relPath file.1⟩,
            .tar (files.map fun file => ⟨relPath file.1, .ok file.2⟩) none⟩

/-! ## What `Walk` finds -/

/-- Paths of which none is a prefix of another. -/
def PrefixFree (paths : List (List (List Char))) : Prop :=
  paths.Pairwise fun first second => ¬ first <+: second ∧ ¬ second <+: first

namespace DirTree

/-- A file below a directory lies below one of its entries. -/
theorem mem_walkEntries {file : List (List Char) × List UInt8} :
    ∀ {entries : List (String × DirTree)}, file ∈ walkEntries entries →
      ∃ entry ∈ entries, ∃ below ∈ entry.2.walk, file = (entry.1.data :: below.1, below.2)
  | [], mem => by simp [walkEntries] at mem
  | (name, tree) :: rest, mem => by
      rw [walkEntries, List.mem_append, List.mem_map] at mem
      rcases mem with ⟨below, found, rfl⟩ | later
      · exact ⟨(name, tree), List.mem_cons_self _ _, below, found, rfl⟩
      · obtain ⟨entry, mem, below, found, rfl⟩ := mem_walkEntries later
        exact ⟨entry, List.mem_cons_of_mem _ mem, below, found, rfl⟩

mutual
/-- Every file of a well-formed tree has a path of names, and no path is a
prefix of another. -/
theorem walk_paths : ∀ {tree : DirTree}, tree.WellFormed →
    (∀ file ∈ tree.walk, ∀ elem ∈ file.1, IsName elem) ∧ PrefixFree (tree.walk.map (·.1))
  | .file _, _ => ⟨by simp [walk], by simp [walk, PrefixFree]⟩
  | .dir _, wellFormed =>
      have below := walkEntries_paths wellFormed
      ⟨fun file mem => (below.1 file mem).2, below.2⟩

/-- `walk_paths` for the entries of a directory, whose paths are not empty. -/
theorem walkEntries_paths : ∀ {entries : List (String × DirTree)}, EntriesWellFormed entries →
    (∀ file ∈ walkEntries entries, file.1 ≠ [] ∧ ∀ elem ∈ file.1, IsName elem) ∧
      PrefixFree ((walkEntries entries).map (·.1))
  | [], _ => ⟨by simp [walkEntries], by simp [walkEntries, PrefixFree]⟩
  | (name, tree) :: rest, ⟨named, distinct, wellFormed, restWellFormed⟩ =>
      have inner := walk_paths wellFormed
      have later := walkEntries_paths restWellFormed
      ⟨fun file mem => by
        rw [walkEntries, List.mem_append, List.mem_map] at mem
        rcases mem with ⟨below, found, rfl⟩ | mem
        · refine ⟨List.cons_ne_nil _ _, fun elem mem => ?_⟩
          rcases List.mem_cons.mp mem with rfl | deeper
          · exact named
          · exact inner.1 below found elem deeper
        · exact later.1 file mem,
      by
        rw [walkEntries, List.map_append, List.map_map, PrefixFree, List.pairwise_append]
        refine ⟨?_, later.2, ?_⟩
        · rw [List.pairwise_map]
          exact (List.pairwise_map.mp inner.2).imp fun apart => by
            simpa [List.cons_prefix_cons] using apart
        · intro first firstMem second secondMem
          obtain ⟨below, -, rfl⟩ := List.mem_map.mp firstMem
          obtain ⟨file, fileMem, rfl⟩ := List.mem_map.mp secondMem
          obtain ⟨entry, entryMem, deeper, -, rfl⟩ := mem_walkEntries fileMem
          have other : entry.1.data ≠ name.data := fun same => distinct entry entryMem (String.ext same)
          simp only [Function.comp_apply, List.cons_prefix_cons]
          exact ⟨fun prefixed => other prefixed.1.symm, fun prefixed => other prefixed.1⟩⟩
end

end DirTree

/-! ## Paths below the destination -/

open FileSystem

section Below

variable {destDir : String}

/-- The cleaned path of the elements `elems` below `destDir`, where `Unpack`
writes an entry named by them. -/
def pathBelow (destDir : String) (elems : List (List Char)) : String :=
  render (isRooted destDir) (cleanedElems destDir ++ elems)

theorem ne_empty_of_proper (proper : clean destDir ≠ ".") : destDir ≠ "" := by
  rintro rfl
  exact proper rfl

theorem cleanedElems_proper (proper : clean destDir ≠ ".") :
    cleanedElems destDir ≠ [] ∨ isRooted destDir = true := by
  by_contra bare
  rw [not_or, not_not, Bool.not_eq_true] at bare
  apply proper
  rw [clean_eq_render, bare.1, bare.2]
  rfl

theorem cleanForm_below {elems : List (List Char)} (named : ∀ elem ∈ elems, IsName elem) :
    CleanForm (isRooted destDir) (cleanedElems destDir ++ elems) :=
  (cleanForm_cleanedElems destDir).append_names named

theorem join_relPath (proper : clean destDir ≠ ".") {elems : List (List Char)}
    (named : ∀ elem ∈ elems, IsName elem) (nonempty : elems ≠ []) :
    join destDir (relPath elems) = pathBelow destDir elems :=
  join_names (ne_empty_of_proper proper) named nonempty

theorem clean_pathBelow {elems : List (List Char)} (named : ∀ elem ∈ elems, IsName elem) :
    clean (pathBelow destDir elems) = pathBelow destDir elems :=
  clean_render (cleanForm_below named)

theorem pathBelow_inj {first second : List (List Char)} (firstNamed : ∀ elem ∈ first, IsName elem)
    (secondNamed : ∀ elem ∈ second, IsName elem)
    (same : pathBelow destDir first = pathBelow destDir second) : first = second :=
  List.append_cancel_left
    (render_inj (cleanForm_below firstNamed) (cleanForm_below secondNamed) same)

/-- A path below the destination is none of the destination's own directories. -/
theorem pathBelow_not_mem_ancestors {elems : List (List Char)} (named : ∀ elem ∈ elems, IsName elem)
    (nonempty : elems ≠ []) : pathBelow destDir elems ∉ ancestors destDir := by
  rw [mem_ancestors]
  rintro ⟨pre, leading, -, same⟩
  have lengths := congrArg List.length (render_inj (cleanForm_below named)
    ((cleanForm_cleanedElems destDir).sublist leading.sublist) same.symm)
  have shorter := leading.length_le
  have longer := List.length_pos.mpr nonempty
  rw [List.length_append] at lengths
  omega

/-- `Unpack`'s traversal check passes for every path below the destination. -/
theorem hasPrefix_pathBelow (proper : clean destDir ≠ ".") {elems : List (List Char)}
    (named : ∀ elem ∈ elems, IsName elem) (nonempty : elems ≠ []) :
    hasPrefix (pathBelow destDir elems) (clean destDir) = true := by
  unfold hasPrefix pathBelow
  rw [List.isPrefixOf_iff_prefix, clean_eq_render,
    render_append_data (cleanForm_below named) (cleanedElems_proper proper) nonempty,
    List.append_assoc]
  exact List.prefix_append _ _

/-- Every path below the destination lies within it. -/
theorem within_pathBelow (proper : clean destDir ≠ ".") {elems : List (List Char)}
    (named : ∀ elem ∈ elems, IsName elem) (nonempty : elems ≠ []) :
    FileSystem.within (clean destDir) (pathBelow destDir elems) = true := by
  have data := render_append_data (@cleanForm_below destDir _ named)
    (cleanedElems_proper proper) nonempty
  unfold FileSystem.within hasPrefix
  rw [Bool.or_eq_true, List.isPrefixOf_iff_prefix]
  refine .inr ?_
  by_cases empty : cleanedElems destDir = []
  · have rooted : isRooted destDir = true := by simpa [empty] using cleanedElems_proper proper
    have slash : clean destDir = "/" := by rw [clean_eq_render, empty, rooted]; rfl
    rw [if_pos slash, slash]
    unfold pathBelow
    rw [empty, rooted] at data ⊢
    rw [data, if_pos rfl]
    exact ⟨_, rfl⟩
  · have notRoot : clean destDir ≠ "/" := by
      rw [clean_eq_render]
      intro slash
      have rootedRender := isRooted_render (cleanForm_cleanedElems destDir)
      rw [slash] at rootedRender
      have rooted : isRooted destDir = true := by rw [← rootedRender]; rfl
      rw [rooted] at slash
      exact empty (render_inj (rooted ▸ cleanForm_cleanedElems destDir) (CleanForm.nil true) slash)
    rw [if_neg notRoot, String.data_append, clean_eq_render]
    unfold pathBelow
    rw [data, if_neg empty]
    exact ⟨_, rfl⟩

/-- `filepath.Dir` of a path below the destination. -/
theorem dir_pathBelow {elems : List (List Char)} (named : ∀ elem ∈ elems, IsName elem)
    (nonempty : elems ≠ []) : dir (pathBelow destDir elems) = pathBelow destDir elems.dropLast := by
  have whole := List.dropLast_append_getLast nonempty
  unfold pathBelow
  conv_lhs => rw [← whole, ← List.append_assoc]
  exact dir_render_concat (by rw [List.append_assoc, whole]; exact cleanForm_below named)

theorem named_dropLast {elems : List (List Char)} (named : ∀ elem ∈ elems, IsName elem) :
    ∀ elem ∈ elems.dropLast, IsName elem :=
  fun elem mem => named elem (List.dropLast_subset _ mem)

/-- The directories `MkdirAll` makes above a path below the destination: the
destination's own, and one for each proper prefix of the path. -/
theorem mem_ancestors_pathBelow {elems : List (List Char)} (named : ∀ elem ∈ elems, IsName elem)
    {path : String} (mem : path ∈ ancestors (pathBelow destDir elems.dropLast)) :
    path ∈ ancestors destDir ∨
      ∃ k, 0 < k ∧ k < elems.length ∧ path = pathBelow destDir (elems.take k) := by
  obtain ⟨pre, leading, notStanding, rfl⟩ :=
    (mem_ancestors_render (cleanForm_below (named_dropLast named))).mp mem
  rw [List.prefix_iff_eq_take.mp leading, List.take_append_eq_append_take]
  by_cases early : pre.length ≤ (cleanedElems destDir).length
  · refine .inl (mem_ancestors.mpr ⟨(cleanedElems destDir).take pre.length, List.take_prefix _ _, ?_, ?_⟩)
    · rw [List.prefix_iff_eq_take.mp leading, List.take_append_eq_append_take,
        Nat.sub_eq_zero_of_le early, List.take_zero, List.append_nil] at notStanding
      exact notStanding
    · rw [Nat.sub_eq_zero_of_le early, List.take_zero, List.append_nil]
  · have bound := leading.length_le
    simp only [List.length_append, List.length_dropLast] at bound
    refine .inr ⟨pre.length - (cleanedElems destDir).length, by omega, by omega, ?_⟩
    rw [List.take_of_length_le (by omega), List.dropLast_eq_take, List.take_take,
      min_eq_left (by omega)]
    rfl

/-- A path below the destination is not standing: it has a name. -/
theorem standing_pathBelow {elems : List (List Char)} (named : ∀ elem ∈ elems, IsName elem)
    (nonempty : elems ≠ []) : FileSystem.standing (isRooted destDir) (cleanedElems destDir ++ elems) = false := by
  obtain ⟨first, rest, rfl⟩ := List.exists_cons_of_ne_nil nonempty
  have notDots := (named first (List.mem_cons_self _ _)).2.2.1
  unfold FileSystem.standing
  cases isRooted destDir
  · simp only [Bool.false_eq_true, if_false, List.all_eq_false]
    exact ⟨first, by simp, by simpa using notDots⟩
  · simp

theorem pathBelow_ne_clean {elems : List (List Char)} (named : ∀ elem ∈ elems, IsName elem)
    (nonempty : elems ≠ []) : pathBelow destDir elems ≠ clean destDir := fun same => by
  rw [clean_eq_render, ← List.append_nil (cleanedElems destDir)] at same
  exact nonempty (pathBelow_inj named (fun _ => nofun) same)

/-- Where `Unpack` writes an entry `Pack` made. -/
theorem entryPath_relPath (proper : clean destDir ≠ ".") {elems : List (List Char)}
    (named : ∀ elem ∈ elems, IsName elem) (nonempty : elems ≠ []) (data : Except String (List UInt8)) :
    entryPath destDir ⟨relPath elems, data⟩ = join destDir (relPath elems) := by
  unfold entryPath
  rw [join_relPath proper named nonempty, clean_pathBelow named]

end Below

/-! ## The round trip -/

section RoundTrip

variable {destDir : String}

/-- What the rest of `Unpack`'s loop needs of the file system, for the entries
still to come at the paths `pending` below the destination: no regular file
where `MkdirAll` makes a directory, and no directory where a file goes. -/
structure Vacant (destDir : String) (fs : FileSystem) (pending : List (List (List Char))) : Prop where
  parents : ∀ path ∈ ancestors destDir, fs.files path = none
  between : ∀ elems ∈ pending, ∀ k, 0 < k → k < elems.length →
    fs.files (pathBelow destDir (elems.take k)) = none
  target : ∀ elems ∈ pending, fs.dirs (pathBelow destDir elems) = false

/-- Writing a file at a path of names that is no prefix of a later one, nor
has one as a prefix, leaves the file system vacant for the later ones. -/
theorem Vacant.write {fs : FileSystem} {elems : List (List Char)}
    {rest : List (List (List Char))} (data : List UInt8) (vacant : Vacant destDir fs (elems :: rest))
    (named : ∀ elem ∈ elems, IsName elem) (nonempty : elems ≠ [])
    (restNamed : ∀ other ∈ rest, ∀ elem ∈ other, IsName elem)
    (apart : ∀ other ∈ rest, ¬ elems <+: other ∧ ¬ other <+: elems) :
    Vacant destDir
      ⟨fun path => if path = pathBelow destDir elems then some data else fs.files path,
        fun path => decide (path ∈ ancestors (pathBelow destDir elems.dropLast)) || fs.dirs path⟩
      rest := by
  have made : ∀ {other}, other ∈ rest →
      pathBelow destDir other ∉ ancestors (pathBelow destDir elems.dropLast) := by
    intro other mem made
    rcases mem_ancestors_pathBelow named made with own | ⟨k, -, -, same⟩
    · exact pathBelow_not_mem_ancestors (restNamed other mem)
        (fun empty => (apart other mem).2 (empty ▸ List.nil_prefix)) own
    · have equal := pathBelow_inj (restNamed other mem)
        (fun elem taken => named elem (List.mem_of_mem_take taken)) same
      exact (apart other mem).2 (by rw [equal]; exact List.take_prefix _ _)
  refine ⟨fun path own => ?_, fun other mem k positive short => ?_, fun other mem => ?_⟩ <;> dsimp only
  · rw [if_neg fun same : path = pathBelow destDir elems =>
      pathBelow_not_mem_ancestors named nonempty (same ▸ own)]
    exact vacant.parents path own
  · have equal : pathBelow destDir (other.take k) ≠ pathBelow destDir elems := fun same =>
      (apart other mem).1 (by
        rw [← pathBelow_inj (fun elem taken => restNamed other mem elem (List.mem_of_mem_take taken))
          named same]
        exact List.take_prefix _ _)
    rw [if_neg equal]
    exact vacant.between other (List.mem_cons_of_mem _ mem) k positive short
  · simp only [Bool.or_eq_false_iff, decide_eq_false_iff_not]
    exact ⟨made mem, vacant.target other (List.mem_cons_of_mem _ mem)⟩

/-- `WriteFile` at a path below the destination, once `MkdirAll` has made the
directories above it. -/
theorem writeFile_pathBelow {fs : FileSystem} {elems : List (List Char)} (data : List UInt8)
    (named : ∀ elem ∈ elems, IsName elem) (nonempty : elems ≠ [])
    (notDir : (fs.withDirs (ancestors (pathBelow destDir elems.dropLast))).dirs (pathBelow destDir elems) = false) :
    (fs.withDirs (ancestors (pathBelow destDir elems.dropLast))).writeFile (pathBelow destDir elems) data =
      .ok ⟨fun path => if path = pathBelow destDir elems then some data else fs.files path,
        fun path => decide (path ∈ ancestors (pathBelow destDir elems.dropLast)) || fs.dirs path⟩ := by
  have whole : cleanedElems destDir ++ elems =
      (cleanedElems destDir ++ elems.dropLast) ++ [elems.getLast nonempty] := by
    rw [List.append_assoc, List.dropLast_append_getLast]
  have form : CleanForm (isRooted destDir) ((cleanedElems destDir ++ elems.dropLast) ++ [elems.getLast nonempty]) :=
    whole ▸ cleanForm_below named
  have written := writeFile_render data form (along_withDirs (cleanForm_below (named_dropLast named)))
    (by rw [FileSystem.isDirAt, ← whole, standing_pathBelow named nonempty]; exact notDir)
  unfold pathBelow at written ⊢
  rw [whole]
  exact written

/-- Once `MkdirAll` has made the destination, a destination with no regular
file above it and nothing below it is vacant for any paths of names. -/
theorem vacant_withDirs (proper : clean destDir ≠ ".") {fs : FileSystem}
    {pending : List (List (List Char))}
    (shapes : ∀ elems ∈ pending, elems ≠ [] ∧ ∀ elem ∈ elems, IsName elem)
    (parents : ∀ path ∈ ancestors destDir, fs.files path = none)
    (vacant : ∀ path, path ≠ clean destDir → within (clean destDir) path = true →
      fs.files path = none ∧ fs.dirs path = false) :
    Vacant destDir (fs.withDirs (ancestors destDir)) pending := by
  refine ⟨parents, fun elems mem k positive short => ?_, fun elems mem => ?_⟩
  · have named : ∀ elem ∈ elems.take k, IsName elem := fun elem taken =>
      (shapes elems mem).2 elem (List.mem_of_mem_take taken)
    have taken : elems.take k ≠ [] := List.ne_nil_of_length_pos (by rw [List.length_take]; omega)
    exact (vacant _ (pathBelow_ne_clean named taken) (within_pathBelow proper named taken)).1
  · obtain ⟨nonempty, named⟩ := shapes elems mem
    rw [withDirs_dirs, Bool.or_eq_false_iff, decide_eq_false_iff_not]
    exact ⟨pathBelow_not_mem_ancestors named nonempty,
      (vacant _ (pathBelow_ne_clean named nonempty) (within_pathBelow proper named nonempty)).2⟩

/-- `Unpack`'s loop completes on the entries `Pack` writes, at paths of names
of which none is a prefix of another, into a vacant destination. -/
theorem unpackEntries_of_vacant (proper : clean destDir ≠ ".") :
    ∀ {fs : FileSystem} {files : List (List (List Char) × List UInt8)},
      (∀ file ∈ files, file.1 ≠ [] ∧ ∀ elem ∈ file.1, IsName elem) →
      PrefixFree (files.map (·.1)) → Vacant destDir fs (files.map (·.1)) →
      ∃ fs', unpackEntries destDir fs (files.map fun file => ⟨relPath file.1, .ok file.2⟩) = (fs', none)
  | fs, [], _, _, _ => ⟨fs, rfl⟩
  | fs, (elems, data) :: rest, shapes, apart, vacant => by
      obtain ⟨nonempty, named⟩ : elems ≠ [] ∧ ∀ elem ∈ elems, IsName elem :=
        shapes _ (List.mem_cons_self _ _)
      rw [List.map_cons] at vacant apart
      have target := join_relPath proper named nonempty
      have made : mkdirAll fs (dir (join destDir (relPath elems))) =
          .ok (fs.withDirs (ancestors (pathBelow destDir elems.dropLast))) := by
        rw [target, dir_pathBelow named nonempty]
        refine mkdirAll_render (cleanForm_below (named_dropLast named)) fun path mem => ?_
        rcases mem_ancestors_pathBelow named mem with own | ⟨k, positive, short, rfl⟩
        · exact vacant.parents path own
        · exact vacant.between elems (List.mem_cons_self _ _) k positive short
      have notDir : (fs.withDirs (ancestors (pathBelow destDir elems.dropLast))).dirs
          (pathBelow destDir elems) = false := by
        rw [withDirs_dirs, Bool.or_eq_false_iff, decide_eq_false_iff_not]
        refine ⟨fun made => ?_, vacant.target elems (List.mem_cons_self _ _)⟩
        rcases mem_ancestors_pathBelow named made with own | ⟨k, -, short, same⟩
        · exact pathBelow_not_mem_ancestors named nonempty own
        · have lengths := congrArg List.length (pathBelow_inj named
            (fun elem mem => named elem (List.mem_of_mem_take mem)) same)
          rw [List.length_take] at lengths
          omega
      have checked : hasPrefix (clean (join destDir (relPath elems))) (clean destDir) = true := by
        rw [target, clean_pathBelow named]
        exact hasPrefix_pathBelow proper named nonempty
      rw [List.map_cons, unpackEntries_cons_of_ok checked made
        (by rw [target]; exact writeFile_pathBelow data named nonempty notDir)]
      have restApart := List.pairwise_cons.mp apart
      exact unpackEntries_of_vacant proper (fun file mem => shapes file (List.mem_cons_of_mem _ mem))
        restApart.2 (vacant.write data named nonempty
          (fun other mem => by
            obtain ⟨file, fileMem, rfl⟩ := List.mem_map.mp mem
            exact (shapes file (List.mem_cons_of_mem _ fileMem)).2)
          restApart.1)

/-- Unpacking what `Pack` wrote, into a clean destination other than `.` with
no regular file above it and nothing below it, succeeds; it writes every file
of the skill directory at its path below the destination, with its contents,
and no other file. -/
theorem unpack_pack {dir destDir : String} {tree : DirTree} {result : PackResult}
    (wellFormed : tree.WellFormed) (packed : pack dir (some tree) = .ok result) {fs : FileSystem}
    (cleaned : clean destDir = destDir) (proper : clean destDir ≠ ".")
    (parents : ∀ path ∈ ancestors destDir, fs.files path = none)
    (vacant : ∀ path, path ≠ clean destDir → within (clean destDir) path = true →
      fs.files path = none ∧ fs.dirs path = false) :
    ∃ fs', unpack result.content destDir fs = (fs', .ok ()) ∧
      (∀ file ∈ tree.walk, fs'.files (join destDir (relPath file.1)) = some file.2) ∧
      ∀ path, (∀ file ∈ tree.walk, join destDir (relPath file.1) ≠ path) →
        fs'.files path = fs.files path := by
  cases tree with
  | file data => cases packed
  | dir entries =>
      simp only [pack] at packed
      split at packed
      · cases packed
      cases packed
      rw [DirTree.walk]
      obtain ⟨shapes, apart⟩ := DirTree.walkEntries_paths wellFormed
      have start : Vacant destDir (fs.withDirs (ancestors destDir)) ((DirTree.walkEntries entries).map (·.1)) :=
        vacant_withDirs proper (fun elems mem => by
          obtain ⟨file, fileMem, rfl⟩ := List.mem_map.mp mem
          exact shapes file fileMem) parents vacant
      obtain ⟨fs', loop⟩ := unpackEntries_of_vacant proper shapes apart start
      refine ⟨fs', ?_, fun file mem => ?_, fun path untouched => ?_⟩
      · unfold unpack
        rw [mkdirAll_of_clean cleaned parents]
        dsimp only
        rw [loop]
      · obtain ⟨nonempty, named⟩ := shapes file mem
        obtain ⟨pre, post, split⟩ := List.mem_iff_append.mp mem
        rw [split, List.map_append, List.map_cons] at loop
        rw [split, List.map_append, List.map_cons, PrefixFree, List.pairwise_append,
          List.pairwise_cons] at apart
        obtain ⟨data, read, written⟩ := unpackEntries_written loop fun later laterMem => by
          obtain ⟨other, otherMem, rfl⟩ := List.mem_map.mp laterMem
          have otherShape := shapes other (by rw [split]; simp [otherMem])
          rw [entryPath_relPath proper otherShape.2 otherShape.1, entryPath_relPath proper named nonempty,
            join_relPath proper otherShape.2 otherShape.1, join_relPath proper named nonempty]
          intro same
          exact (apart.2.1.1 other.1 (List.mem_map_of_mem _ otherMem)).1
            (pathBelow_inj otherShape.2 named same ▸ List.prefix_refl _)
        cases read
        rwa [entryPath_relPath proper named nonempty] at written
      · refine unpackEntries_frame loop path fun entry mem => ?_
        obtain ⟨file, fileMem, rfl⟩ := List.mem_map.mp mem
        obtain ⟨nonempty, named⟩ := shapes file fileMem
        rw [entryPath_relPath proper named nonempty]
        exact untouched file fileMem

/-- A skill directory with `SKILL.md` and one file in a subdirectory. -/
def podHealth : DirTree :=
  .dir [("SKILL.md", .file [1]), ("docs", .dir [("a.md", .file [2])])]

/-- What `Pack` writes for `podHealth`. -/
def podHealthPacked : PackResult :=
  ⟨⟨"pod-health", "latest", ["SKILL.md", "docs/a.md"]⟩,
    .tar [⟨"SKILL.md", .ok [1]⟩, ⟨"docs/a.md", .ok [2]⟩] none⟩

/-- A file system with nothing in it. -/
def emptyFileSystem : FileSystem :=
  ⟨fun _ => none, fun _ => false⟩

theorem pod_health_round_trip :
    podHealth.WellFormed ∧ pack "/src/pod-health" (some podHealth) = .ok podHealthPacked ∧
      clean "cache/pod-health" = "cache/pod-health" ∧ clean "cache/pod-health" ≠ "." ∧
      (∀ path ∈ ancestors "cache/pod-health", emptyFileSystem.files path = none) ∧
      (∀ path, path ≠ clean "cache/pod-health" → within (clean "cache/pod-health") path = true →
        emptyFileSystem.files path = none ∧ emptyFileSystem.dirs path = false) ∧
      ∃ fs', unpack podHealthPacked.content "cache/pod-health" emptyFileSystem = (fs', .ok ()) ∧
        (∀ file ∈ podHealth.walk, fs'.files (join "cache/pod-health" (relPath file.1)) = some file.2) ∧
        ∀ path, (∀ file ∈ podHealth.walk, join "cache/pod-health" (relPath file.1) ≠ path) →
          fs'.files path = emptyFileSystem.files path :=
  have wellFormed : podHealth.WellFormed := by
    simp only [podHealth, DirTree.WellFormed, DirTree.EntriesWellFormed, IsName]
    decide
  have packed : pack "/src/pod-health" (some podHealth) = .ok podHealthPacked := rfl
  ⟨wellFormed, packed, by decide, by decide, fun _ _ => rfl, fun _ _ _ => ⟨rfl, rfl⟩,
    unpack_pack wellFormed packed (by decide) (by decide) (fun _ _ => rfl) (fun _ _ _ => ⟨rfl, rfl⟩)⟩

end RoundTrip

example : base "/skills/pod-health/" = "pod-health" := by decide
example : base "///" = "/" := by decide

end Legator.Skills
