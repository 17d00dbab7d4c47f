import Mathlib.Data.List.Infix
import Legator.Skills.Path

/-!
# Files, directories and the calls on them

The file system `Unpack` and the skill cache work on: regular files with their
contents, and directories, each under its cleaned path. The root, the working
directory and the directories above it always exist (`standing`); any other
path is a directory only where the state says so. There are no symbolic links,
and `Unpack` makes none.

A path is resolved as the kernel resolves it, element by element from the root
or the working directory (`walk`): `.` stays, `..` climbs, and each element must
lead to a directory, or the call fails with `ENOTDIR` or `ENOENT`. A `..` after
a directory that does not exist therefore fails, where `filepath.Clean` drops
both elements; a resolution that succeeds names the path `Clean` gives
(`resolve_eq_ok`). `os.Stat`, `os.Mkdir` and `os.WriteFile` resolve the path
they are given, and `os.MkdirAll` follows its Go source: `Stat`, then
`MkdirAll` of the path cut before its last separator, then `Mkdir`, which may
fail on a directory that exists after all.

`MkdirAll` writes no regular file (`mkdirAll_files`), its fuel never runs out
(`mkdirAllFrom_eq_mkdirAll`), and on a clean path with no regular file above it
it makes exactly the directories of the path that are missing
(`mkdirAll_render`).
-/

namespace Legator.Skills

/-- Regular files with their contents, and directories, by cleaned path. -/
structure FileSystem where
  files : String → Option (List UInt8)
  dirs : String → Bool

namespace FileSystem

/-! ## Resolving a path -/

/-- The directories that always exist, as resolved paths: the root, the working
directory, and the directories above it, which are named by `..` elements
only. -/
def standing (rooted : Bool) (elems : List (List Char)) : Bool :=
  if rooted then elems.isEmpty else elems.all (· = ['.', '.'])

/-- Whether the resolved path `elems` is a directory. -/
def isDirAt (fs : FileSystem) (rooted : Bool) (elems : List (List Char)) : Bool :=
  standing rooted elems || fs.dirs (render rooted elems)

/-- Whether the resolved path `elems` is a regular file. -/
def isFileAt (fs : FileSystem) (rooted : Bool) (elems : List (List Char)) : Bool :=
  (fs.files (render rooted elems)).isSome

/-- The resolved path after one more element: `.` stays, `..` climbs (at the
root it stays there, above the working directory it adds a `..`), and a name
goes down. -/
def enter (rooted : Bool) (cur : List (List Char)) (elem : List Char) : List (List Char) :=
  if elem = ['.'] then cur
  else if elem = ['.', '.'] then
    if standing rooted cur then (if rooted then [] else cur ++ [elem]) else cur.dropLast
  else cur ++ [elem]

/-- The kernel's walk from the resolved directory `cur` through the elements
`rest`: each must lead to a directory. -/
def walk (fs : FileSystem) (rooted : Bool) :
    List (List Char) → List (List Char) → Except String (List (List Char))
  | cur, [] => .ok cur
  | cur, elem :: rest =>
      if fs.isDirAt rooted (enter rooted cur elem) then walk fs rooted (enter rooted cur elem) rest
      else if fs.isFileAt rooted (enter rooted cur elem) then .error "not a directory"
      else .error "no such file or directory"

/-- The non-empty elements of a path. -/
def elements (path : String) : List (List Char) :=
  (splitSlash path.data).filter (· ≠ [])

/-- What a path names, as a resolved path: the walk through all its elements
but the last, then the last one, which need not exist. The empty path names
nothing. -/
def resolve (fs : FileSystem) (path : String) : Except String (List (List Char)) :=
  if path = "" then .error "no such file or directory"
  else (fs.walk (isRooted path) [] (elements path).dropLast).map fun cur =>
    (elements path).getLast?.elim cur (enter (isRooted path) cur)

/-- Whether a path ends in a separator, which asks for a directory. -/
def trailingSlash (path : String) : Bool :=
  path.data.getLast? = some '/'

/-! ## The calls -/

/-- `os.Stat`: whether the path names a directory, or else a regular file. -/
def stat (fs : FileSystem) (path : String) : Except String Bool :=
  match fs.resolve path with
  | .error err => .error err
  | .ok elems =>
      if fs.isDirAt (isRooted path) elems then .ok true
      else if !fs.isFileAt (isRooted path) elems then .error "no such file or directory"
      else if trailingSlash path then .error "not a directory"
      else .ok false

/-- `os.Mkdir`: make the directory a path names, which must not exist. -/
def mkdir (fs : FileSystem) (path : String) : Except String FileSystem :=
  match fs.resolve path with
  | .error err => .error ("mkdir " ++ path ++ ": " ++ err)
  | .ok elems =>
      if fs.isDirAt (isRooted path) elems || fs.isFileAt (isRooted path) elems then
        .error ("mkdir " ++ path ++ ": file exists")
      else .ok { fs with dirs := fun other => other = render (isRooted path) elems || fs.dirs other }

/-- The parent `MkdirAll` recurses on: the path without its trailing
separators, cut before its last separator. -/
def parentCut (path : String) : String :=
  ⟨(((path.data.reverse.dropWhile (· = '/')).dropWhile (· ≠ '/')).drop 1).reverse⟩

/-- `os.MkdirAll` with `fuel` calls left. -/
def mkdirAllFrom : Nat → FileSystem → String → Except String FileSystem
  | 0, fs, _ => .ok fs
  | fuel + 1, fs, path =>
      match fs.stat path with
      | .ok true => .ok fs
      | .ok false => .error ("mkdir " ++ path ++ ": not a directory")
      | .error _ =>
          match (if parentCut path = "" then .ok fs else mkdirAllFrom fuel fs (parentCut path)) with
          | .error err => .error err
          | .ok fs =>
              match fs.mkdir path with
              | .ok fs => .ok fs
              | .error err =>
                  match fs.stat path with
                  | .ok true => .ok fs
                  | _ => .error err

/-- `os.MkdirAll`: one call per character, more than it ever needs. -/
def mkdirAll (fs : FileSystem) (path : String) : Except String FileSystem :=
  mkdirAllFrom (path.length + 1) fs path

/-- `os.WriteFile`: create or truncate the regular file a path names. -/
def writeFile (fs : FileSystem) (path : String) (data : List UInt8) : Except String FileSystem :=
  match fs.resolve path with
  | .error err => .error ("open " ++ path ++ ": " ++ err)
  | .ok elems =>
      if fs.isDirAt (isRooted path) elems then .error ("open " ++ path ++ ": is a directory")
      else if trailingSlash path then
        .error ("open " ++ path ++ ": " ++
          if fs.isFileAt (isRooted path) elems then "not a directory" else "is a directory")
      else .ok { fs with
        files := fun other => if other = render (isRooted path) elems then some data else fs.files other }

/-- Whether `path` is `root` or lies below it. -/
def within (root path : String) : Bool :=
  path = root || hasPrefix path (if root = "/" then root else root ++ "/")

/-- `os.RemoveAll`, whose error `Evict` ignores: `""` and `.` are refused. -/
def removeAll (fs : FileSystem) (path : String) : FileSystem :=
  if path = "" ∨ path = "." then fs
  else
    { files := fun other => if within (clean path) other then none else fs.files other
      dirs := fun other => if within (clean path) other then false else fs.dirs other }

/-- `MkdirAll` of the empty path fails, as `Mkdir` of it does. -/
theorem mkdirAll_empty (fs : FileSystem) :
    fs.mkdirAll "" = .error "mkdir : no such file or directory" :=
  rfl

-- The raw path counts: `MkdirAll("b/x/..")` makes its parent cut `b/x` as well as `b`.
example : (match mkdirAll ⟨fun _ => none, fun _ => false⟩ "b/x/.." with
    | .ok fs => fs.dirs "b" && fs.dirs "b/x"
    | .error _ => false) = true := by
  decide

/-! ## A resolution follows `Clean` -/

@[simp]
theorem standing_nil (rooted : Bool) : standing rooted [] = true := by
  cases rooted <;> rfl

/-- One element of a resolution is one step of `Clean`. -/
theorem cleanElems_enter {rooted : Bool} {cur : List (List Char)} {elem : List Char}
    (form : CleanForm rooted cur) (nonempty : elem ≠ []) (rest : List (List Char)) :
    cleanElems rooted cur.reverse (elem :: rest) =
      cleanElems rooted (enter rooted cur elem).reverse rest := by
  unfold enter
  by_cases dot : elem = ['.']
  · rw [if_pos dot, cleanElems_skip (.inr dot)]
  rw [if_neg dot]
  by_cases dotDot : elem = ['.', '.']
  · subst dotDot
    rw [if_pos rfl]
    rcases List.eq_nil_or_concat cur with rfl | ⟨below, top, rfl⟩
    · rw [standing_nil, if_pos rfl, List.reverse_nil, cleanElems.eq_3, if_neg (by decide), if_pos rfl]
      cases rooted <;> rfl
    · rw [List.concat_eq_append] at form ⊢
      rw [List.reverse_concat, cleanElems.eq_2, if_neg (by decide), if_pos rfl]
      by_cases climbed : top = ['.', '.']
      · subst climbed
        obtain ⟨relative, dots⟩ := form.of_concat_dotDot
        subst relative
        have standingDots : standing false (below ++ [['.', '.']]) = true := by
          simpa [standing] using dots
        rw [if_pos rfl, if_pos standingDots, if_neg Bool.false_ne_true, List.reverse_concat,
          List.reverse_concat]
      · have notStanding : standing rooted (below ++ [top]) = false := by
          cases rooted <;> simp [standing, climbed]
        rw [if_neg climbed, if_neg (by simp [notStanding]), List.dropLast_concat]
  · rw [if_neg dotDot, cleanElems_push (by simp [nonempty, dot]) dotDot, List.reverse_concat]

theorem cleanForm_enter {rooted : Bool} {cur : List (List Char)} {elem : List Char}
    (form : CleanForm rooted cur) (nonempty : elem ≠ []) (noSlash : '/' ∉ elem) :
    CleanForm rooted (enter rooted cur elem) := by
  have stepped := cleanForm_cleanElems cur.reverse [elem] (by simpa using noSlash)
    (by simpa using form)
  rwa [cleanElems_enter form nonempty, cleanElems.eq_1, List.reverse_reverse] at stepped

/-- A walk that succeeds does what `Clean` does with the same elements. -/
theorem walk_eq_ok {fs : FileSystem} {rooted : Bool} :
    ∀ {cur rest r : List (List Char)}, CleanForm rooted cur →
      (∀ elem ∈ rest, elem ≠ [] ∧ '/' ∉ elem) → fs.walk rooted cur rest = .ok r →
        cleanElems rooted cur.reverse rest = r.reverse ∧ CleanForm rooted r
  | _, [], _, form, _, walked => by cases walked; exact ⟨rfl, form⟩
  | cur, elem :: rest, r, form, shapes, walked => by
      obtain ⟨nonempty, noSlash⟩ := shapes elem (List.mem_cons_self _ _)
      rw [walk] at walked
      split_ifs at walked
      rw [cleanElems_enter form nonempty]
      exact walk_eq_ok (cleanForm_enter form nonempty noSlash)
        (fun other mem => shapes other (List.mem_cons_of_mem _ mem)) walked

theorem mem_elements {path : String} {elem : List Char} (mem : elem ∈ elements path) :
    elem ≠ [] ∧ '/' ∉ elem :=
  ⟨of_decide_eq_true (List.mem_filter.mp mem).2, not_mem_of_mem_splitSlash (List.mem_filter.mp mem).1⟩

/-- `Clean` skips the empty elements. -/
theorem cleanElems_filter {rooted : Bool} :
    ∀ (kept elems : List (List Char)),
      cleanElems rooted kept (elems.filter (· ≠ [])) = cleanElems rooted kept elems
  | _, [] => rfl
  | kept, elem :: rest => by
      by_cases empty : elem = []
      · rw [List.filter_cons_of_neg (by simpa using empty), cleanElems_skip (.inl empty),
          cleanElems_filter]
      · rw [List.filter_cons_of_pos (by simpa using empty), ← List.singleton_append,
          cleanElems_append, cleanElems_filter, ← cleanElems_append, List.singleton_append]

/-- A resolution that succeeds names the path `Clean` gives. -/
theorem resolve_eq_ok {fs : FileSystem} {path : String} {elems : List (List Char)}
    (resolved : fs.resolve path = .ok elems) : elems = cleanedElems path := by
  unfold resolve at resolved
  split_ifs at resolved
  have cleaned : cleanedElems path = (cleanElems (isRooted path) [] (elements path)).reverse :=
    congrArg List.reverse (cleanElems_filter [] _).symm
  cases walked : fs.walk (isRooted path) [] (elements path).dropLast with
  | error err => rw [walked] at resolved; cases resolved
  | ok cur =>
      rw [walked] at resolved
      cases resolved
      have shapes := fun elem (mem : elem ∈ (elements path).dropLast) =>
        mem_elements (List.dropLast_subset _ mem)
      obtain ⟨before, form⟩ := walk_eq_ok (CleanForm.nil _) shapes walked
      rw [cleaned]
      rcases List.eq_nil_or_concat (elements path) with empty | ⟨init, last, parts⟩
      · rw [empty] at before ⊢
        rw [← List.reverse_reverse cur, ← before]
        rfl
      · rw [List.concat_eq_append] at parts
        rw [parts, List.dropLast_concat, List.reverse_nil] at before
        have nonempty := (mem_elements (parts ▸ List.mem_concat_self init last)).1
        rw [parts, List.getLast?_concat, cleanElems_append, before, cleanElems_enter form nonempty,
          cleanElems.eq_1, List.reverse_reverse]
        rfl

/-! ## What the calls change -/

theorem mkdir_files {fs fs' : FileSystem} {path : String} (made : fs.mkdir path = .ok fs') :
    fs'.files = fs.files := by
  unfold mkdir at made
  split at made
  · cases made
  · split_ifs at made
    cases made
    rfl

theorem mkdirAllFrom_files :
    ∀ {fuel : Nat} {fs fs' : FileSystem} {path : String}, mkdirAllFrom fuel fs path = .ok fs' →
      fs'.files = fs.files
  | 0, _, _, _, made => by cases made; rfl
  | fuel + 1, fs, fs', path, made => by
      have parent : ∀ {middle : FileSystem},
          (if parentCut path = "" then .ok fs else mkdirAllFrom fuel fs (parentCut path)) = .ok middle →
            middle.files = fs.files := fun above => by
        split_ifs at above
        · cases above; rfl
        · exact mkdirAllFrom_files above
      rw [mkdirAllFrom] at made
      split at made
      · cases made; rfl
      · cases made
      · split at made
        · cases made
        · rename_i middle above
          split at made
          · cases made
            exact (mkdir_files ‹_›).trans (parent above)
          · split at made
            · cases made
              exact parent above
            · cases made

/-- `MkdirAll` writes no regular file. -/
theorem mkdirAll_files {fs fs' : FileSystem} {path : String} (made : fs.mkdirAll path = .ok fs') :
    fs'.files = fs.files :=
  mkdirAllFrom_files made

/-- `WriteFile` sets one file, at the cleaned path, and no other. -/
theorem writeFile_files {fs fs' : FileSystem} {path : String} {data : List UInt8}
    (written : fs.writeFile path data = .ok fs') (other : String) :
    fs'.files other = if other = clean path then some data else fs.files other := by
  unfold writeFile at written
  split at written
  · cases written
  · rename_i elems resolved
    split_ifs at written
    cases written
    rw [resolve_eq_ok resolved]
    rfl

/-! ## The fuel of `MkdirAll` -/

/-- The parent is shorter than the path. -/
theorem parentCut_length_lt {path : String} (nonempty : parentCut path ≠ "") :
    (parentCut path).length < path.length := by
  have kept : ((path.data.reverse.dropWhile (· = '/')).dropWhile (· ≠ '/')).length ≤ path.data.length :=
    (List.dropWhile_suffix _).length_le.trans
      ((List.dropWhile_suffix _).length_le.trans (List.length_reverse _).le)
  have some : path.data ≠ [] := fun blank => nonempty (by simp [parentCut, blank])
  show (List.reverse _).length < path.data.length
  rw [List.length_reverse, List.length_drop]
  have := List.length_pos.mpr some
  omega

theorem mkdirAllFrom_succ :
    ∀ {fuel : Nat} {fs : FileSystem} {path : String}, path.length < fuel →
      mkdirAllFrom (fuel + 1) fs path = mkdirAllFrom fuel fs path
  | 0, _, _, short => absurd short (Nat.not_lt_zero _)
  | fuel + 1, fs, path, short => by
      conv_lhs => rw [mkdirAllFrom.eq_2]
      conv_rhs => rw [mkdirAllFrom.eq_2]
      by_cases cut : parentCut path = ""
      · simp only [cut, if_true]
      · have shorter := parentCut_length_lt cut
        simp only [cut, if_false, mkdirAllFrom_succ (show (parentCut path).length < fuel by omega)]

/-- More calls than characters change nothing: `MkdirAll`'s fuel never runs
out. -/
theorem mkdirAllFrom_eq_mkdirAll :
    ∀ {fuel : Nat} {fs : FileSystem} {path : String}, path.length < fuel →
      mkdirAllFrom fuel fs path = fs.mkdirAll path
  | 0, _, _, short => absurd short (Nat.not_lt_zero _)
  | fuel + 1, fs, path, short => by
      rcases Nat.lt_succ_iff_lt_or_eq.mp short with shorter | exact
      · rw [mkdirAllFrom_succ shorter, mkdirAllFrom_eq_mkdirAll shorter]
      · rw [mkdirAll, exact]

/-! ## Clean paths -/

/-- The directories of a path that are not standing, outermost first: those
`MkdirAll` has to make where they are missing. -/
def ancestors (path : String) : List String :=
  ((cleanedElems path).inits.filter fun pre => !standing (isRooted path) pre).map
    (render (isRooted path))

theorem mem_ancestors {path other : String} :
    other ∈ ancestors path ↔ ∃ pre, pre <+: cleanedElems path ∧
      standing (isRooted path) pre = false ∧ render (isRooted path) pre = other := by
  simp [ancestors, List.mem_inits, and_assoc]

theorem mem_ancestors_render {rooted : Bool} {elems : List (List Char)} (form : CleanForm rooted elems)
    {other : String} :
    other ∈ ancestors (render rooted elems) ↔
      ∃ pre, pre <+: elems ∧ standing rooted pre = false ∧ render rooted pre = other := by
  rw [mem_ancestors, cleanedElems_render form, isRooted_render form]

theorem ancestors_clean (path : String) : ancestors (clean path) = ancestors path := by
  unfold ancestors
  rw [clean_eq_render, cleanedElems_render (cleanForm_cleanedElems path),
    isRooted_render (cleanForm_cleanedElems path)]

/-- Every directory on the way to the resolved path `elems`, itself included,
exists. -/
def Along (fs : FileSystem) (rooted : Bool) (elems : List (List Char)) : Prop :=
  ∀ pre, pre <+: elems → fs.isDirAt rooted pre = true

theorem along_nil (fs : FileSystem) (rooted : Bool) : Along fs rooted [] := fun pre empty => by
  rw [List.prefix_nil.mp empty, isDirAt, standing_nil, Bool.true_or]

theorem along_concat {fs : FileSystem} {rooted : Bool} {init : List (List Char)} {last : List Char} :
    Along fs rooted (init ++ [last]) ↔ Along fs rooted init ∧ fs.isDirAt rooted (init ++ [last]) = true := by
  refine ⟨fun along => ⟨fun pre leading => along pre (leading.trans (List.prefix_append _ _)),
    along _ (List.prefix_refl _)⟩, fun ⟨along, here⟩ pre leading => ?_⟩
  rcases List.prefix_concat_iff.mp leading with rfl | early
  · exact here
  · exact along pre early

/-- A clean path goes down by each of its elements. -/
theorem enter_of_cleanForm {rooted : Bool} {cur : List (List Char)} {elem : List Char}
    (form : CleanForm rooted (cur ++ [elem])) : enter rooted cur elem = cur ++ [elem] := by
  unfold enter
  rcases form.1 elem (List.mem_concat_self cur elem) with named | ⟨relative, rfl⟩
  · rw [if_neg named.2.1, if_neg named.2.2.1]
  · obtain ⟨-, dots⟩ := form.of_concat_dotDot
    subst relative
    have standingDots : standing false cur = true := by simpa [standing] using dots
    rw [if_neg (by decide), if_pos rfl, if_pos standingDots, if_neg Bool.false_ne_true]

theorem walk_of_along {fs : FileSystem} {rooted : Bool} :
    ∀ {cur rest : List (List Char)}, CleanForm rooted (cur ++ rest) →
      (∀ pre, pre <+: rest → fs.isDirAt rooted (cur ++ pre) = true) →
        fs.walk rooted cur rest = .ok (cur ++ rest)
  | cur, [], _, _ => by rw [walk, List.append_nil]
  | cur, elem :: rest, form, along => by
      have next : CleanForm rooted (cur ++ [elem] ++ rest) := by simpa using form
      rw [walk, enter_of_cleanForm (next.sublist (List.sublist_append_left _ _)),
        if_pos (along [elem] (List.cons_prefix_cons.mpr ⟨rfl, List.nil_prefix⟩)),
        walk_of_along next fun pre leading => by
          simpa using along (elem :: pre) (List.cons_prefix_cons.mpr ⟨rfl, leading⟩)]
      simp

theorem along_of_walk {fs : FileSystem} {rooted : Bool} :
    ∀ {cur rest r : List (List Char)}, CleanForm rooted (cur ++ rest) → fs.isDirAt rooted cur = true →
      fs.walk rooted cur rest = .ok r → ∀ pre, pre <+: rest → fs.isDirAt rooted (cur ++ pre) = true
  | cur, [], _, _, here, _, pre, leading => by rw [List.prefix_nil.mp leading, List.append_nil]; exact here
  | cur, elem :: rest, r, form, here, walked, pre, leading => by
      have next : CleanForm rooted (cur ++ [elem] ++ rest) := by simpa using form
      rw [walk, enter_of_cleanForm (next.sublist (List.sublist_append_left _ _))] at walked
      split_ifs at walked with down
      rcases List.prefix_cons_iff.mp leading with rfl | ⟨after, rfl, later⟩
      · rw [List.append_nil]
        exact here
      · simpa using along_of_walk next down walked after later

theorem elements_render {rooted : Bool} {elems : List (List Char)} (form : CleanForm rooted elems)
    (nonempty : elems ≠ []) : elements (render rooted elems) = elems := by
  have kept : elems.filter (· ≠ []) = elems :=
    List.filter_eq_self.mpr fun elem mem => by simpa using form.ne_nil mem
  unfold elements
  simp only [splitSlash_render form, nonempty, if_false]
  cases rooted
  · rw [if_neg Bool.false_ne_true, kept]
  · rw [if_pos rfl, List.filter_cons_of_neg (by simp), kept]

/-- A clean path resolves to its own elements exactly when every directory
above it exists. -/
theorem resolve_render {fs : FileSystem} {rooted : Bool} {elems : List (List Char)}
    (form : CleanForm rooted elems) :
    fs.resolve (render rooted elems) = .ok elems ↔ Along fs rooted elems.dropLast := by
  rcases List.eq_nil_or_concat elems with rfl | ⟨init, last, rfl⟩
  · exact iff_of_true (by cases rooted <;> rfl) (along_nil fs rooted)
  · rw [List.concat_eq_append] at form ⊢
    have resolved : fs.resolve (render rooted (init ++ [last])) =
        (fs.walk rooted [] init).map (enter rooted · last) := by
      unfold resolve
      rw [if_neg (render_ne_empty form), isRooted_render form, elements_render form (by simp),
        List.dropLast_concat, List.getLast?_concat]
      rfl
    have initForm : CleanForm rooted ([] ++ init) := form.sublist (List.sublist_append_left _ _)
    rw [resolved, List.dropLast_concat]
    constructor
    · intro mapped
      cases walked : fs.walk rooted [] init with
      | error err => rw [walked] at mapped; cases mapped
      | ok r =>
          intro pre leading
          simpa using along_of_walk initForm (along_nil fs rooted [] List.nil_prefix) walked pre leading
    · intro along
      rw [walk_of_along initForm (by simpa using along)]
      exact congrArg Except.ok (enter_of_cleanForm form)

/-- `Stat` of a clean path finds a directory exactly when every directory on the
way exists. -/
theorem stat_render {fs : FileSystem} {rooted : Bool} {elems : List (List Char)}
    (form : CleanForm rooted elems) : fs.stat (render rooted elems) = .ok true ↔ Along fs rooted elems := by
  constructor
  · intro stated
    unfold stat at stated
    split at stated
    · cases stated
    · rename_i r resolved
      obtain rfl : r = elems := (resolve_eq_ok resolved).trans (cleanedElems_render form)
      rw [isRooted_render form] at stated
      split_ifs at stated with here <;> cases stated
      intro pre leading
      rcases List.eq_nil_or_concat r with rfl | ⟨init, last, rfl⟩
      · exact along_nil fs rooted pre leading
      · rw [List.concat_eq_append] at form resolved leading here
        have along := (resolve_render form).mp resolved
        rw [List.dropLast_concat] at along
        exact along_concat.mpr ⟨along, here⟩ pre leading
  · intro along
    unfold stat
    rw [(resolve_render form).mpr fun pre leading => along pre (leading.trans (List.dropLast_prefix _))]
    dsimp only
    rw [isRooted_render form, if_pos (along elems (List.prefix_refl _))]

/-- `Stat` finds a regular file only where one is. -/
theorem stat_eq_ok_false {fs : FileSystem} {path : String} (stated : fs.stat path = .ok false) :
    fs.isDirAt (isRooted path) (cleanedElems path) = false ∧ (fs.files (clean path)).isSome = true := by
  unfold stat at stated
  split at stated
  · cases stated
  · rename_i elems resolved
    rw [resolve_eq_ok resolved] at stated
    split_ifs at stated with here file <;> cases stated
    exact ⟨by simpa using here, by simpa using file⟩

theorem mkdir_render {fs : FileSystem} {rooted : Bool} {elems : List (List Char)}
    (form : CleanForm rooted elems) (along : Along fs rooted elems.dropLast) :
    fs.mkdir (render rooted elems) =
      if fs.isDirAt rooted elems || fs.isFileAt rooted elems then
        .error ("mkdir " ++ render rooted elems ++ ": file exists")
      else .ok { fs with dirs := fun other => other = render rooted elems || fs.dirs other } := by
  unfold mkdir
  rw [(resolve_render form).mpr along, isRooted_render form]

/-- The characters of a clean path: those of the path above it, then its last
element. -/
theorem render_concat_data {rooted : Bool} {init : List (List Char)} {last : List Char}
    (form : CleanForm rooted (init ++ [last])) :
    (render rooted (init ++ [last])).data =
      (if init = [] then (if rooted then ['/'] else []) else (render rooted init).data ++ ['/']) ++ last := by
  have single : ['/'].intercalate [last] = last := List.append_nil last
  by_cases proper : init ≠ [] ∨ rooted = true
  · rw [render_append_data form proper (List.cons_ne_nil last []), single]
    by_cases empty : init = []
    · subst empty
      obtain rfl : rooted = true := by simpa using proper
      rfl
    · rw [if_neg empty, if_neg empty]
  · obtain ⟨rfl, rfl⟩ : init = [] ∧ rooted = false := by simpa using proper
    rw [render_data fun _ mem => form.ne_nil mem]
    simp [single]

theorem parentCut_slash_name (before : List Char) {name : List Char} (nonempty : name ≠ [])
    (noSlash : '/' ∉ name) : parentCut ⟨before ++ '/' :: name⟩ = ⟨before⟩ := by
  obtain ⟨c, rest, reversed⟩ := List.exists_cons_of_ne_nil (List.reverse_ne_nil_iff.mpr nonempty)
  have kept : ∀ b ∈ name.reverse, decide (b ≠ '/') = true := fun b mem => by
    simpa using fun same : b = '/' => noSlash (same ▸ List.mem_reverse.mp mem)
  have first : c ≠ '/' := of_decide_eq_true (kept c (by simp [reversed]))
  unfold parentCut
  rw [List.reverse_append, List.reverse_cons, List.append_assoc, List.singleton_append, reversed,
    List.cons_append, List.dropWhile_cons_of_neg (by simpa using first), ← List.cons_append,
    ← reversed, List.dropWhile_append_of_pos kept, List.dropWhile_cons_of_neg (by simp)]
  simp

theorem parentCut_name {name : List Char} (noSlash : '/' ∉ name) : parentCut ⟨name⟩ = "" := by
  have kept : ∀ b ∈ name.reverse, decide (b ≠ '/') = true := fun b mem => by
    simpa using fun same : b = '/' => noSlash (same ▸ List.mem_reverse.mp mem)
  have none : ∀ b ∈ (name.reverse.dropWhile (· = '/')), decide (b ≠ '/') = true :=
    fun b mem => kept b ((List.dropWhile_suffix _).subset mem)
  unfold parentCut
  rw [List.dropWhile_eq_nil_iff.mpr none]
  rfl

/-- `MkdirAll` recurses on the path above a clean path, if there is one. -/
theorem parentCut_render {rooted : Bool} {init : List (List Char)} {last : List Char}
    (form : CleanForm rooted (init ++ [last])) :
    parentCut (render rooted (init ++ [last])) = if init = [] then "" else render rooted init := by
  have nonempty : last ≠ [] := form.ne_nil (List.mem_concat_self init last)
  have noSlash : '/' ∉ last := form.no_slash (List.mem_concat_self init last)
  rw [show render rooted (init ++ [last]) = ⟨_⟩ from String.ext (render_concat_data form)]
  by_cases empty : init = []
  · rw [if_pos empty, if_pos empty]
    cases rooted
    · exact parentCut_name noSlash
    · exact parentCut_slash_name [] nonempty noSlash
  · rw [if_neg empty, if_neg empty, List.append_assoc, List.singleton_append]
    exact parentCut_slash_name _ nonempty noSlash

/-- A clean path other than the root does not end in a separator. -/
theorem trailingSlash_render {rooted : Bool} {init : List (List Char)} {last : List Char}
    (form : CleanForm rooted (init ++ [last])) : trailingSlash (render rooted (init ++ [last])) = false := by
  have nonempty : last ≠ [] := form.ne_nil (List.mem_concat_self init last)
  obtain ⟨c, lastChar⟩ := Option.ne_none_iff_exists'.mp (mt List.getLast?_eq_none_iff.mp nonempty)
  have notSlash : c ≠ '/' := fun same =>
    form.no_slash (List.mem_concat_self init last) (same ▸ List.mem_of_getLast?_eq_some lastChar)
  unfold trailingSlash
  rw [render_concat_data form, List.getLast?_append, lastChar]
  simpa using notSlash

/-! ## `MkdirAll` and `WriteFile` on clean paths -/

/-- The file system with the directories `paths` added. -/
def withDirs (fs : FileSystem) (paths : List String) : FileSystem :=
  ⟨fs.files, fun other => decide (other ∈ paths) || fs.dirs other⟩

@[simp]
theorem withDirs_files (fs : FileSystem) (paths : List String) : (fs.withDirs paths).files = fs.files :=
  rfl

@[simp]
theorem withDirs_dirs (fs : FileSystem) (paths : List String) (other : String) :
    (fs.withDirs paths).dirs other = (decide (other ∈ paths) || fs.dirs other) :=
  rfl

theorem isDirAt_withDirs {fs : FileSystem} {rooted : Bool} {elems : List (List Char)}
    (paths : List String) (here : fs.isDirAt rooted elems = true) :
    (fs.withDirs paths).isDirAt rooted elems = true := by
  unfold isDirAt at here ⊢
  rw [withDirs_dirs]
  revert here
  cases standing rooted elems <;> cases fs.dirs (render rooted elems) <;> simp

/-- Once the directories of a clean path are made, every directory on the way
exists. -/
theorem along_withDirs {fs : FileSystem} {rooted : Bool} {elems : List (List Char)}
    (form : CleanForm rooted elems) : Along (fs.withDirs (ancestors (render rooted elems))) rooted elems := by
  intro pre leading
  unfold isDirAt
  cases standingPre : standing rooted pre
  · rw [Bool.false_or, withDirs_dirs, Bool.or_eq_true, decide_eq_true_eq]
    exact .inl ((mem_ancestors_render form).mpr ⟨pre, leading, standingPre, rfl⟩)
  · rfl

theorem withDirs_of_dirs {fs : FileSystem} {paths : List String}
    (made : ∀ path ∈ paths, fs.dirs path = true) : fs.withDirs paths = fs := by
  unfold withDirs
  congr
  funext other
  by_cases mem : other ∈ paths <;> simp [mem, made]

theorem ancestors_render_nil (rooted : Bool) {path : String} : path ∉ ancestors (render rooted []) := by
  rw [mem_ancestors_render (CleanForm.nil rooted)]
  rintro ⟨pre, leading, notStanding, -⟩
  rw [List.prefix_nil.mp leading, standing_nil] at notStanding
  cases notStanding

/-- The directories of a clean path are those of the path above it, and the
path itself unless it is standing. -/
theorem mem_ancestors_concat {rooted : Bool} {init : List (List Char)} {last : List Char}
    (form : CleanForm rooted (init ++ [last])) {other : String} :
    other ∈ ancestors (render rooted (init ++ [last])) ↔ other ∈ ancestors (render rooted init) ∨
      standing rooted (init ++ [last]) = false ∧ other = render rooted (init ++ [last]) := by
  rw [mem_ancestors_render form, mem_ancestors_render (form.sublist (List.sublist_append_left _ _))]
  constructor
  · rintro ⟨pre, leading, notStanding, rfl⟩
    rcases List.prefix_concat_iff.mp leading with rfl | early
    · exact .inr ⟨notStanding, rfl⟩
    · exact .inl ⟨pre, early, notStanding, rfl⟩
  · rintro (⟨pre, early, notStanding, rfl⟩ | ⟨notStanding, rfl⟩)
    · exact ⟨pre, early.trans (List.prefix_append _ _), notStanding, rfl⟩
    · exact ⟨_, List.prefix_refl _, notStanding, rfl⟩

/-- A clean path is none of the directories above it. -/
theorem render_not_mem_ancestors_init {rooted : Bool} {init : List (List Char)} {last : List Char}
    (form : CleanForm rooted (init ++ [last])) : render rooted (init ++ [last]) ∉ ancestors (render rooted init) := by
  rw [mem_ancestors_render (form.sublist (List.sublist_append_left _ _))]
  rintro ⟨pre, leading, -, same⟩
  have equal := render_inj (form.sublist (leading.sublist.trans (List.sublist_append_left _ _))) form same
  have longer := leading.length_le
  rw [equal, List.length_append, List.length_singleton] at longer
  omega

/-- Making the directories of a clean path is making those of the path above
it, then the path itself unless it is standing. -/
theorem withDirs_ancestors_concat {fs : FileSystem} {rooted : Bool} {init : List (List Char)}
    {last : List Char} (form : CleanForm rooted (init ++ [last])) :
    fs.withDirs (ancestors (render rooted (init ++ [last]))) =
      if standing rooted (init ++ [last]) then fs.withDirs (ancestors (render rooted init))
      else { fs.withDirs (ancestors (render rooted init)) with
        dirs := fun other => other = render rooted (init ++ [last]) ||
          (fs.withDirs (ancestors (render rooted init))).dirs other } := by
  split_ifs with standingHere <;> refine congrArg (FileSystem.mk _) (funext fun other => ?_) <;>
    simp [mem_ancestors_concat form, standingHere, or_comm, Bool.or_assoc]

/-- Where every directory on the way exists, so do the path's directories. -/
theorem dirs_of_along {fs : FileSystem} {rooted : Bool} {elems : List (List Char)}
    (form : CleanForm rooted elems) (along : Along fs rooted elems) :
    ∀ path ∈ ancestors (render rooted elems), fs.dirs path = true := by
  intro path mem
  obtain ⟨pre, leading, notStanding, rfl⟩ := (mem_ancestors_render form).mp mem
  simpa [isDirAt, notStanding] using along pre leading

/-- `MkdirAll` of a clean path with no regular file where it needs a directory
makes the path's missing directories and nothing else. -/
theorem mkdirAll_render {fs : FileSystem} {rooted : Bool} {elems : List (List Char)}
    (form : CleanForm rooted elems) (absent : ∀ path ∈ ancestors (render rooted elems), fs.files path = none) :
    fs.mkdirAll (render rooted elems) = .ok (fs.withDirs (ancestors (render rooted elems))) := by
  induction elems using List.reverseRecOn with
  | nil =>
      rw [withDirs_of_dirs fun path mem => absurd mem (ancestors_render_nil rooted), mkdirAll,
        mkdirAllFrom, (stat_render form).mpr (along_nil fs rooted)]
  | append_singleton init last inductionHypothesis =>
      have initForm : CleanForm rooted init := form.sublist (List.sublist_append_left _ _)
      have nonempty : parentCut (render rooted (init ++ [last])) ≠ "" → init ≠ [] := fun cut empty => by
        rw [parentCut_render form, if_pos empty] at cut
        exact cut rfl
      have parent : (if parentCut (render rooted (init ++ [last])) = "" then .ok fs
          else mkdirAllFrom (render rooted (init ++ [last])).length fs (parentCut (render rooted (init ++ [last])))) =
            Except.ok (ε := String) (fs.withDirs (ancestors (render rooted init))) := by
        split_ifs with cut
        · by_cases empty : init = []
          · subst empty
            rw [withDirs_of_dirs fun path mem => absurd mem (ancestors_render_nil rooted)]
          · rw [parentCut_render form, if_neg empty] at cut
            exact absurd cut (render_ne_empty initForm)
        · have shorter := parentCut_length_lt cut
          rw [parentCut_render form, if_neg (nonempty cut)] at shorter ⊢
          rw [mkdirAllFrom_eq_mkdirAll shorter]
          exact inductionHypothesis initForm fun path mem =>
            absent path ((mem_ancestors_concat form).mpr (.inl mem))
      have alongInit : Along (fs.withDirs (ancestors (render rooted init))) rooted (init ++ [last]).dropLast := by
        rw [List.dropLast_concat]
        exact along_withDirs initForm
      have noFile : standing rooted (init ++ [last]) = false → fs.files (render rooted (init ++ [last])) = none :=
        fun notStanding => absent _ ((mem_ancestors_render form).mpr ⟨_, List.prefix_refl _, notStanding, rfl⟩)
      rw [mkdirAll, mkdirAllFrom]
      split
      · next stated =>
          rw [withDirs_of_dirs (dirs_of_along form ((stat_render form).mp stated))]
      · next stated =>
          obtain ⟨notDir, file⟩ := stat_eq_ok_false stated
          rw [isRooted_render form, cleanedElems_render form, isDirAt, Bool.or_eq_false_iff] at notDir
          rw [clean_render form, noFile notDir.1] at file
          cases file
      · rw [parent]
        dsimp only
        rw [mkdir_render form alongInit, withDirs_ancestors_concat form]
        by_cases here : fs.isDirAt rooted (init ++ [last]) = true
        · have stillHere := isDirAt_withDirs (ancestors (render rooted init)) here
          rw [if_pos (by simp [stillHere])]
          dsimp only
          rw [(stat_render form).mpr (along_concat.mpr ⟨along_withDirs initForm, stillHere⟩)]
          split_ifs with standingHere
          · rfl
          · have made : fs.dirs (render rooted (init ++ [last])) = true := by
              simpa [isDirAt, standingHere] using here
            refine congrArg Except.ok (congrArg (FileSystem.mk _) (funext fun other => ?_))
            by_cases same : other = render rooted (init ++ [last]) <;> simp [same, made]
        · obtain ⟨notStanding, notDir⟩ : standing rooted (init ++ [last]) = false ∧
              fs.dirs (render rooted (init ++ [last])) = false := by simpa [isDirAt] using here
          rw [if_neg (by simp [isDirAt, isFileAt, notStanding, notDir, noFile notStanding,
            render_not_mem_ancestors_init form]), notStanding, if_neg Bool.false_ne_true]

/-- `MkdirAll` of a path that is already clean, with no regular file where it
needs a directory, makes the path's missing directories. -/
theorem mkdirAll_of_clean {fs : FileSystem} {path : String} (cleaned : clean path = path)
    (absent : ∀ other ∈ ancestors path, fs.files other = none) :
    fs.mkdirAll path = .ok (fs.withDirs (ancestors path)) := by
  have made := @mkdirAll_render fs _ _ (cleanForm_cleanedElems path)
    (by rwa [← clean_eq_render, ancestors_clean])
  rwa [← clean_eq_render, ancestors_clean, cleaned] at made

/-- `WriteFile` of a clean path below existing directories, where no directory
is, writes the file there. -/
theorem writeFile_render {fs : FileSystem} {rooted : Bool} {init : List (List Char)}
    {last : List Char} (data : List UInt8) (form : CleanForm rooted (init ++ [last]))
    (along : Along fs rooted init) (notDir : fs.isDirAt rooted (init ++ [last]) = false) :
    fs.writeFile (render rooted (init ++ [last])) data =
      .ok { fs with files := fun other =>
        if other = render rooted (init ++ [last]) then some data else fs.files other } := by
  unfold writeFile
  rw [(resolve_render form).mpr (by rwa [List.dropLast_concat]), isRooted_render form]
  dsimp only
  rw [if_neg (by simp [notDir]), if_neg (by simp [trailingSlash_render form])]

end FileSystem

end Legator.Skills
