import Mathlib.Data.List.Basic

/-!
# Unix paths

`filepath.Clean`, `filepath.Join` and `filepath.Dir` of Go's `path/filepath`
on Unix, and `strings.HasPrefix`. `Clean` is the lexical rewriting its
documentation gives: collapse repeated separators, drop `.` elements, let each
`..` remove the element before it, drop `..` at the start of a rooted path, and
return `.` for an empty result. The definitions work on the characters of the
path, by structural recursion, so that they can be evaluated.
-/

namespace Legator.Skills

/-- The elements of a path between its separators, empty ones included. -/
def splitSlash : List Char → List (List Char)
  | [] => [[]]
  | c :: rest =>
      match splitSlash rest with
      | [] => [[c]]
      | first :: others => if c = '/' then [] :: first :: others else (c :: first) :: others

/-- The element-wise rules of `Clean`, with the elements kept so far in `kept`,
last first. -/
def cleanElems (rooted : Bool) : List (List Char) → List (List Char) → List (List Char)
  | kept, [] => kept
  | kept, elem :: rest =>
      if elem = [] ∨ elem = ['.'] then cleanElems rooted kept rest
      else if elem = ['.', '.'] then
        match kept with
        | top :: below =>
            if top = ['.', '.'] then cleanElems rooted (elem :: kept) rest
            else cleanElems rooted below rest
        | [] => if rooted then cleanElems rooted [] rest else cleanElems rooted [elem] rest
      else cleanElems rooted (elem :: kept) rest

/-- Whether a path starts at the root. -/
def isRooted (path : String) : Bool :=
  path.data.head? = some '/'

/-- `filepath.Clean`. -/
def clean (path : String) : String :=
  let body := "/".intercalate
    ((cleanElems (isRooted path) [] (splitSlash path.data)).reverse.map String.mk)
  if isRooted path then "/" ++ body else if body = "" then "." else body

/-- `filepath.Join` of two elements: the cleaned join of the elements from the
first non-empty one. -/
def join (first second : String) : String :=
  if first = "" then (if second = "" then "" else clean second)
  else clean (first ++ "/" ++ second)

/-- `filepath.Dir`: the path up to its last separator, cleaned. -/
def dir (path : String) : String :=
  clean ⟨(path.data.reverse.dropWhile (· ≠ '/')).reverse⟩

/-- `strings.HasPrefix`. -/
def hasPrefix (s pre : String) : Bool :=
  pre.data.isPrefixOf s.data

/-- An element `Clean` keeps: not empty, not `.`, and, in a rooted path, not
`..`. -/
def Kept (rooted : Bool) (elem : List Char) : Prop :=
  elem ≠ [] ∧ elem ≠ ['.'] ∧ (rooted = true → elem ≠ ['.', '.'])

/-- `Clean` keeps no empty or `.` element, and no `..` in a rooted path. -/
theorem cleanElems_kept {rooted : Bool} :
    ∀ (elems kept : List (List Char)), (∀ elem ∈ kept, Kept rooted elem) →
      ∀ elem ∈ cleanElems rooted kept elems, Kept rooted elem
  | [], _, keptOk => keptOk
  | elem :: rest, kept, keptOk => by
      unfold cleanElems
      by_cases skipped : elem = [] ∨ elem = ['.']
      · rw [if_pos skipped]
        exact cleanElems_kept rest kept keptOk
      rw [if_neg skipped]
      by_cases dotDot : elem = ['.', '.']
      · rw [if_pos dotDot]
        cases kept with
        | cons top below =>
            dsimp only
            have topOk := List.forall_mem_cons.mp keptOk
            by_cases topDotDot : top = ['.', '.']
            · rw [if_pos topDotDot]
              have elemOk : Kept rooted elem := by rw [dotDot, ← topDotDot]; exact topOk.1
              exact cleanElems_kept rest _ (List.forall_mem_cons.mpr ⟨elemOk, keptOk⟩)
            · rw [if_neg topDotDot]
              exact cleanElems_kept rest below topOk.2
        | nil =>
            dsimp only
            cases rooted
            · have elemOk : Kept false elem := by
                rw [dotDot]; exact ⟨by decide, by decide, nofun⟩
              exact cleanElems_kept rest [elem] (List.forall_mem_singleton.mpr elemOk)
            · exact cleanElems_kept rest [] keptOk
      · rw [if_neg dotDot]
        have elemOk : Kept rooted elem :=
          ⟨fun empty => skipped (.inl empty), fun dot => skipped (.inr dot), fun _ => dotDot⟩
        exact cleanElems_kept rest _ (List.forall_mem_cons.mpr ⟨elemOk, keptOk⟩)

example : clean "a//b/./c/.." = "a/b" := by decide
example : clean "/../x" = "/x" := by decide
example : clean "a/../../b" = "../b" := by decide

/-! ## Splitting -/

theorem splitSlash_eq_splitOn : ∀ path : List Char, splitSlash path = path.splitOn '/'
  | [] => rfl
  | c :: rest => by
      have split := splitSlash_eq_splitOn rest
      have nonempty := List.splitOnP_ne_nil (· == '/') rest
      simp only [splitSlash, split, List.splitOn, List.splitOnP_cons]
      obtain ⟨first, others, parts⟩ := List.exists_cons_of_ne_nil nonempty
      rw [parts]
      by_cases slash : c = '/' <;> simp [slash]

theorem splitSlash_ne_nil (path : List Char) : splitSlash path ≠ [] := by
  rw [splitSlash_eq_splitOn]
  exact List.splitOnP_ne_nil _ _

/-- Splitting at a separator splits each side. -/
theorem splitSlash_append_slash (before after : List Char) :
    splitSlash (before ++ '/' :: after) = splitSlash before ++ splitSlash after := by
  induction before with
  | nil =>
      obtain ⟨first, others, parts⟩ := List.exists_cons_of_ne_nil (splitSlash_ne_nil after)
      simp [splitSlash, parts]
  | cons c rest inductionHypothesis =>
      obtain ⟨first, others, parts⟩ := List.exists_cons_of_ne_nil (splitSlash_ne_nil rest)
      rw [List.cons_append, splitSlash.eq_2, splitSlash.eq_2, inductionHypothesis, parts]
      split_ifs <;> rfl

/-- Joining elements without separators and splitting again gives them back. -/
theorem splitSlash_intercalate {elems : List (List Char)} (noSlash : ∀ e ∈ elems, '/' ∉ e)
    (nonempty : elems ≠ []) : splitSlash (['/'].intercalate elems) = elems := by
  rw [splitSlash_eq_splitOn]
  exact List.splitOn_intercalate elems '/' noSlash nonempty

theorem not_mem_of_mem_splitOnP (p : Char → Bool) : ∀ {xs piece : List Char},
    piece ∈ xs.splitOnP p → ∀ c ∈ piece, p c = false
  | [], piece, mem => by simp_all
  | x :: rest, piece, mem => by
      rw [List.splitOnP_cons] at mem
      split_ifs at mem with isSep
      · rcases List.mem_cons.mp mem with rfl | inRest
        · simp
        · exact not_mem_of_mem_splitOnP p inRest
      · obtain ⟨hd, tl, split⟩ := List.exists_cons_of_ne_nil (List.splitOnP_ne_nil p rest)
        rw [split, List.modifyHead_cons] at mem
        rcases List.mem_cons.mp mem with rfl | inTail
        · have first := @not_mem_of_mem_splitOnP p rest hd (by simp [split])
          intro c mem'
          rcases List.mem_cons.mp mem' with rfl | later
          · simpa using isSep
          · exact first c later
        · exact not_mem_of_mem_splitOnP p (by rw [split]; exact List.mem_cons_of_mem _ inTail)

theorem not_mem_of_mem_splitOn {x : Char} {xs piece : List Char} (mem : piece ∈ xs.splitOn x) :
    x ∉ piece := fun inPiece => by
  simpa using not_mem_of_mem_splitOnP (· == x) mem x inPiece

theorem intercalate_cons_of_ne_nil {x : Char} (a : List Char) {ls : List (List Char)}
    (nonempty : ls ≠ []) : [x].intercalate (a :: ls) = a ++ x :: [x].intercalate ls := by
  obtain ⟨b, rest, rfl⟩ := List.exists_cons_of_ne_nil nonempty
  simp [List.intercalate]

theorem not_mem_of_mem_splitSlash {path elem : List Char} (mem : elem ∈ splitSlash path) :
    '/' ∉ elem := by
  rw [splitSlash_eq_splitOn] at mem
  exact not_mem_of_mem_splitOn mem


/-! ## What `Clean` returns -/

/-- An element `Clean` keeps as it is: not empty, not `.` or `..`, and without
a separator. -/
def IsName (elem : List Char) : Prop :=
  elem ≠ [] ∧ elem ≠ ['.'] ∧ elem ≠ ['.', '.'] ∧ '/' ∉ elem

/-- The elements of a cleaned path: names, and `..` elements, which come before
every name and never in a rooted path. -/
def CleanForm (rooted : Bool) (elems : List (List Char)) : Prop :=
  (∀ elem ∈ elems, IsName elem ∨ (rooted = false ∧ elem = ['.', '.'])) ∧
    elems.Pairwise fun earlier later => later = ['.', '.'] → earlier = ['.', '.']

/-- The elements `Clean` keeps of a path, in order. -/
def cleanedElems (path : String) : List (List Char) :=
  (cleanElems (isRooted path) [] (splitSlash path.data)).reverse

/-- The path `Clean` prints for its elements. -/
def render (rooted : Bool) (elems : List (List Char)) : String :=
  let body := "/".intercalate (elems.map String.mk)
  if rooted then "/" ++ body else if body = "" then "." else body

theorem clean_eq_render (path : String) :
    clean path = render (isRooted path) (cleanedElems path) :=
  rfl

/-- `Clean` skips an empty or `.` element. -/
theorem cleanElems_skip {rooted : Bool} {kept rest : List (List Char)} {elem : List Char}
    (skipped : elem = [] ∨ elem = ['.']) :
    cleanElems rooted kept (elem :: rest) = cleanElems rooted kept rest := by
  cases kept <;> rw [cleanElems, if_pos skipped]

/-- `Clean` keeps an element that is neither empty, `.` nor `..`. -/
theorem cleanElems_push {rooted : Bool} {kept rest : List (List Char)} {elem : List Char}
    (notSkipped : ¬(elem = [] ∨ elem = ['.'])) (notDotDot : elem ≠ ['.', '.']) :
    cleanElems rooted kept (elem :: rest) = cleanElems rooted (elem :: kept) rest := by
  cases kept <;> rw [cleanElems, if_neg notSkipped, if_neg notDotDot]

theorem cleanElems_append {rooted : Bool} :
    ∀ (kept before after : List (List Char)),
      cleanElems rooted kept (before ++ after) =
        cleanElems rooted (cleanElems rooted kept before) after
  | _, [], _ => rfl
  | kept, elem :: rest, after => by
      simp only [List.cons_append, cleanElems]
      split_ifs <;> (try split) <;> (try split_ifs) <;> exact cleanElems_append _ rest after

/-- Names are kept as they come. -/
theorem cleanElems_names {rooted : Bool} :
    ∀ {names : List (List Char)} (kept : List (List Char)), (∀ n ∈ names, IsName n) →
      cleanElems rooted kept names = names.reverse ++ kept
  | [], _, _ => rfl
  | name :: rest, kept, named => by
      obtain ⟨nonempty, notDot, notDotDot, -⟩ := named name (List.mem_cons_self _ _)
      rw [cleanElems_push (by simp [nonempty, notDot]) notDotDot,
        cleanElems_names _ fun n mem => named n (List.mem_cons_of_mem _ mem)]
      simp

namespace CleanForm

theorem nil (rooted : Bool) : CleanForm rooted [] :=
  ⟨nofun, List.Pairwise.nil⟩

theorem sublist {rooted : Bool} {shorter elems : List (List Char)} (sub : List.Sublist shorter elems)
    (form : CleanForm rooted elems) : CleanForm rooted shorter :=
  ⟨fun elem mem => form.1 elem (sub.subset mem), form.2.sublist sub⟩

theorem concat_name {rooted : Bool} {elems : List (List Char)} {name : List Char}
    (form : CleanForm rooted elems) (named : IsName name) : CleanForm rooted (elems ++ [name]) := by
  refine ⟨fun elem mem => ?_, List.pairwise_append.mpr ⟨form.2, List.pairwise_singleton _ _, ?_⟩⟩
  · rcases List.mem_append.mp mem with early | last
    · exact form.1 elem early
    · rw [List.mem_singleton.mp last]
      exact .inl named
  · intro _ _ later mem dotDot
    rw [List.mem_singleton.mp mem] at dotDot
    exact absurd dotDot named.2.2.1

/-- Before a `..`, every element is `..`, and the path is not rooted. -/
theorem of_concat_dotDot {rooted : Bool} {elems : List (List Char)}
    (form : CleanForm rooted (elems ++ [['.', '.']])) :
    rooted = false ∧ ∀ elem ∈ elems, elem = ['.', '.'] := by
  obtain ⟨kinds, ordered⟩ := form
  refine ⟨?_, fun elem mem => (List.pairwise_append.mp ordered).2.2 elem mem _ (by simp) rfl⟩
  rcases kinds ['.', '.'] (by simp) with named | ⟨relative, -⟩
  · exact absurd rfl named.2.2.1
  · exact relative

theorem concat_dotDot {elems : List (List Char)} (dots : ∀ elem ∈ elems, elem = ['.', '.']) :
    CleanForm false (elems ++ [['.', '.']]) := by
  refine ⟨fun elem mem => .inr ⟨rfl, ?_⟩, List.pairwise_append.mpr ⟨?_, List.pairwise_singleton _ _,
    fun elem mem _ _ _ => dots elem mem⟩⟩
  · rcases List.mem_append.mp mem with early | last
    · exact dots elem early
    · exact List.mem_singleton.mp last
  · exact List.Pairwise.imp_of_mem (fun memA _ _ _ => dots _ memA)
      (List.pairwise_of_forall fun _ _ => trivial)

end CleanForm


theorem cleanForm_cleanElems {rooted : Bool} (kept elems : List (List Char))
    (noSlash : ∀ elem ∈ elems, '/' ∉ elem) (form : CleanForm rooted kept.reverse) :
    CleanForm rooted (cleanElems rooted kept elems).reverse := by
  induction kept, elems using cleanElems.induct rooted with
  | case1 kept => exact form
  | case2 kept elem rest skipped inductionHypothesis =>
      rw [cleanElems_skip skipped]
      exact inductionHypothesis (fun e mem => noSlash e (.tail _ mem)) form
  | case3 rest below _ inductionHypothesis =>
      rw [cleanElems.eq_2, if_neg (by decide), if_pos rfl, if_pos rfl]
      rw [List.reverse_cons] at form
      obtain ⟨relative, dots⟩ := form.of_concat_dotDot
      subst relative
      apply inductionHypothesis (fun e mem => noSlash e (.tail _ mem))
      rw [List.reverse_cons, List.reverse_cons]
      exact CleanForm.concat_dotDot fun elem mem => by
        rcases List.mem_append.mp mem with early | last
        · exact dots elem early
        · exact List.mem_singleton.mp last
  | case4 rest top below notDotDot _ inductionHypothesis =>
      rw [cleanElems.eq_2, if_neg (by decide), if_pos rfl, if_neg notDotDot]
      rw [List.reverse_cons] at form
      exact inductionHypothesis (fun e mem => noSlash e (.tail _ mem))
        (form.sublist (List.sublist_append_left _ _))
  | case5 rest rooted _ inductionHypothesis =>
      rw [cleanElems.eq_3, if_neg (by decide), if_pos rfl, if_pos rooted]
      exact inductionHypothesis (fun e mem => noSlash e (.tail _ mem)) form
  | case6 rest notRooted _ inductionHypothesis =>
      rw [cleanElems.eq_3, if_neg (by decide), if_pos rfl, if_neg notRooted]
      apply inductionHypothesis (fun e mem => noSlash e (.tail _ mem))
      rw [Bool.not_eq_true] at notRooted
      subst notRooted
      exact @CleanForm.concat_dotDot [] nofun
  | case7 kept elem rest notSkipped notDotDot inductionHypothesis =>
      rw [cleanElems_push notSkipped notDotDot]
      apply inductionHypothesis (fun e mem => noSlash e (.tail _ mem))
      rw [List.reverse_cons]
      rw [not_or] at notSkipped
      exact form.concat_name ⟨notSkipped.1, notSkipped.2, notDotDot, noSlash elem (.head _)⟩


/-- `Clean` leaves the elements of a cleaned path as they are. -/
theorem cleanElems_of_cleanForm {rooted : Bool} :
    ∀ {elems : List (List Char)} (kept : List (List Char)), CleanForm rooted (kept.reverse ++ elems) →
      cleanElems rooted kept elems = elems.reverse ++ kept
  | [], _, _ => by simp [cleanElems]
  | elem :: rest, kept, form => by
      have next : CleanForm rooted ((elem :: kept).reverse ++ rest) := by simpa using form
      rcases form.1 elem (by simp) with named | ⟨relative, rfl⟩
      · rw [cleanElems_push (by simp [named.1, named.2.1]) named.2.2.1, cleanElems_of_cleanForm _ next]
        simp
      · have dots : ∀ earlier ∈ kept, earlier = ['.', '.'] := fun earlier mem =>
          (List.pairwise_append.mp form.2).2.2 earlier (List.mem_reverse.mpr mem) _ (by simp) rfl
        subst relative
        cases kept with
        | nil =>
            rw [cleanElems.eq_3, if_neg (by decide), if_pos rfl, if_neg Bool.false_ne_true,
              cleanElems_of_cleanForm _ next]
            simp
        | cons top below =>
            rw [cleanElems.eq_2, if_neg (by decide), if_pos rfl, if_pos (dots top (by simp)),
              cleanElems_of_cleanForm _ next]
            simp

theorem cleanForm_cleanedElems (path : String) : CleanForm (isRooted path) (cleanedElems path) :=
  cleanForm_cleanElems [] _ (fun _ mem => not_mem_of_mem_splitSlash mem) (CleanForm.nil _)

theorem CleanForm.append_names {rooted : Bool} {elems : List (List Char)} (form : CleanForm rooted elems) :
    ∀ {names : List (List Char)}, (∀ n ∈ names, IsName n) → CleanForm rooted (elems ++ names)
  | [], _ => by simpa using form
  | name :: rest, named => by
      have longer := form.concat_name (named name (by simp))
      simpa using longer.append_names fun n mem => named n (List.mem_cons_of_mem _ mem)

theorem CleanForm.ne_nil {rooted : Bool} {elems : List (List Char)} (form : CleanForm rooted elems)
    {elem : List Char} (mem : elem ∈ elems) : elem ≠ [] := by
  rcases form.1 elem mem with named | ⟨-, rfl⟩
  · exact named.1
  · simp

theorem CleanForm.no_slash {rooted : Bool} {elems : List (List Char)} (form : CleanForm rooted elems)
    {elem : List Char} (mem : elem ∈ elems) : '/' ∉ elem := by
  rcases form.1 elem mem with named | ⟨-, rfl⟩
  · exact named.2.2.2
  · simp

/-! ## Printing elements -/

theorem intercalate_go_data (first : List Char) :
    ∀ elems : List (List Char),
      (String.intercalate.go ⟨first⟩ "/" (elems.map String.mk)).data = ['/'].intercalate (first :: elems)
  | [] => (List.append_nil first).symm
  | elem :: rest => by
      rw [List.map_cons, String.intercalate.go, show (⟨first⟩ ++ "/" ++ ⟨elem⟩ : String) =
        ⟨first ++ '/' :: elem⟩ by simp [String.ext_iff], intercalate_go_data _ rest]
      cases rest with
      | nil => simp [List.intercalate]
      | cons next rest =>
          rw [intercalate_cons_of_ne_nil _ (List.cons_ne_nil _ _),
            intercalate_cons_of_ne_nil _ (List.cons_ne_nil _ _),
            intercalate_cons_of_ne_nil _ (List.cons_ne_nil _ _)]
          simp

theorem intercalate_data (elems : List (List Char)) :
    ("/".intercalate (elems.map String.mk)).data = ['/'].intercalate elems := by
  cases elems with
  | nil => rfl
  | cons first rest => exact intercalate_go_data first rest

theorem intercalate_eq_nil {elems : List (List Char)} (nonempty : ∀ elem ∈ elems, elem ≠ []) :
    ['/'].intercalate elems = [] ↔ elems = [] := by
  cases elems with
  | nil => exact iff_of_true rfl rfl
  | cons first rest =>
      simp only [reduceCtorEq, iff_false]
      cases rest with
      | nil => simpa [List.intercalate] using nonempty first (by simp)
      | cons next rest =>
          rw [intercalate_cons_of_ne_nil _ (List.cons_ne_nil _ _)]
          simp

theorem render_data {rooted : Bool} {elems : List (List Char)} (nonempty : ∀ elem ∈ elems, elem ≠ []) :
    (render rooted elems).data =
      if rooted then '/' :: ['/'].intercalate elems
      else if elems = [] then ['.'] else ['/'].intercalate elems := by
  unfold render
  cases rooted
  · by_cases empty : elems = []
    · subst empty
      rfl
    · have body : "/".intercalate (elems.map String.mk) ≠ "" := fun blank =>
        empty ((intercalate_eq_nil nonempty).mp (by rw [← intercalate_data, blank]))
      simp only [Bool.false_eq_true, if_false, if_neg body, if_neg empty, intercalate_data]
  · simp [intercalate_data]


theorem head?_intercalate {first : List Char} (nonempty : first ≠ []) :
    ∀ rest : List (List Char), (['/'].intercalate (first :: rest)).head? = first.head?
  | [] => by simp [List.intercalate]
  | next :: rest => by
      rw [intercalate_cons_of_ne_nil _ (List.cons_ne_nil _ _), List.head?_append_of_ne_nil _ nonempty]

theorem isRooted_render {rooted : Bool} {elems : List (List Char)} (form : CleanForm rooted elems) :
    isRooted (render rooted elems) = rooted := by
  unfold isRooted
  rw [render_data fun _ mem => form.ne_nil mem]
  cases rooted with
  | true => simp
  | false =>
      simp only [Bool.false_eq_true, if_false, decide_eq_false_iff_not]
      split_ifs with empty
      · simp
      · obtain ⟨first, rest, rfl⟩ := List.exists_cons_of_ne_nil empty
        have nonempty := form.ne_nil (List.mem_cons_self first rest)
        obtain ⟨c, chars, rfl⟩ := List.exists_cons_of_ne_nil nonempty
        rw [head?_intercalate nonempty, List.head?_cons, Option.some_inj]
        rintro rfl
        exact form.no_slash (List.mem_cons_self _ rest) (List.mem_cons_self _ chars)

theorem splitSlash_render {rooted : Bool} {elems : List (List Char)} (form : CleanForm rooted elems) :
    splitSlash (render rooted elems).data =
      if rooted then [] :: (if elems = [] then [[]] else elems)
      else if elems = [] then [['.']] else elems := by
  rw [render_data fun _ mem => form.ne_nil mem]
  have parts : elems ≠ [] → splitSlash (['/'].intercalate elems) = elems :=
    splitSlash_intercalate fun _ mem => form.no_slash mem
  cases rooted with
  | true =>
      rw [if_pos rfl, if_pos rfl, ← List.nil_append ('/' :: _), splitSlash_append_slash]
      split_ifs with empty
      · rw [empty]
        rfl
      · rw [parts empty]
        rfl
  | false =>
      simp only [Bool.false_eq_true, if_false]
      split_ifs with empty
      · rfl
      · exact parts empty

/-- `Clean` finds in a printed path the elements it was printed from. -/
theorem cleanedElems_render {rooted : Bool} {elems : List (List Char)} (form : CleanForm rooted elems) :
    cleanedElems (render rooted elems) = elems := by
  unfold cleanedElems
  rw [isRooted_render form, splitSlash_render form]
  have kept : cleanElems rooted [] elems = elems.reverse := by
    rw [cleanElems_of_cleanForm [] (by simpa using form), List.append_nil]
  cases rooted with
  | true =>
      rw [if_pos rfl, cleanElems_skip (.inl rfl)]
      split_ifs with empty
      · subst empty
        rfl
      · rw [kept, List.reverse_reverse]
  | false =>
      rw [if_neg Bool.false_ne_true]
      split_ifs with empty
      · subst empty
        rfl
      · rw [kept, List.reverse_reverse]

/-- A printed path is clean. -/
theorem clean_render {rooted : Bool} {elems : List (List Char)} (form : CleanForm rooted elems) :
    clean (render rooted elems) = render rooted elems := by
  rw [clean_eq_render, isRooted_render form, cleanedElems_render form]

/-- `Clean` is idempotent. -/
theorem clean_clean (path : String) : clean (clean path) = clean path := by
  rw [clean_eq_render path]
  exact clean_render (cleanForm_cleanedElems path)



/-- Different elements print different paths. -/
theorem render_inj {rooted : Bool} {first second : List (List Char)} (firstForm : CleanForm rooted first)
    (secondForm : CleanForm rooted second) (same : render rooted first = render rooted second) :
    first = second := by
  rw [← cleanedElems_render firstForm, ← cleanedElems_render secondForm, same]

/-- A name, printed as a relative path, is itself. -/
theorem render_name {name : String} (named : IsName name.data) : render false [name.data] = name :=
  String.ext ((render_data fun _ mem => by rw [List.mem_singleton.mp mem]; exact named.1).trans
    (List.append_nil _))

/-! ## Names below a cleaned path -/

theorem intercalate_append {x : Char} :
    ∀ {first second : List (List Char)}, first ≠ [] → second ≠ [] →
      [x].intercalate (first ++ second) = [x].intercalate first ++ x :: [x].intercalate second
  | [], _, nonempty, _ => absurd rfl nonempty
  | [a], second, _, secondNonempty => by
      rw [List.singleton_append, intercalate_cons_of_ne_nil a secondNonempty]
      simp [List.intercalate]
  | a :: b :: rest, second, _, secondNonempty => by
      rw [List.cons_append, intercalate_cons_of_ne_nil a (by simp),
        intercalate_append (List.cons_ne_nil b rest) secondNonempty,
        intercalate_cons_of_ne_nil a (List.cons_ne_nil b rest)]
      simp

theorem intercalate_concat {x : Char} (a : List Char) {ls : List (List Char)} (nonempty : ls ≠ []) :
    [x].intercalate (ls ++ [a]) = [x].intercalate ls ++ x :: a := by
  rw [intercalate_append nonempty (List.cons_ne_nil a []), show [x].intercalate [a] = a from
    List.append_nil a]

/-- Names printed below a path that is not `.`. -/
theorem render_append_data {rooted : Bool} {elems names : List (List Char)}
    (form : CleanForm rooted (elems ++ names)) (proper : elems ≠ [] ∨ rooted = true)
    (some : names ≠ []) :
    (render rooted (elems ++ names)).data =
      (render rooted elems).data ++ (if elems = [] then [] else ['/']) ++ ['/'].intercalate names := by
  have nonempty : ∀ elem ∈ elems ++ names, elem ≠ [] := fun _ mem => form.ne_nil mem
  have joined : elems ++ names ≠ [] := by simp [some]
  rw [render_data nonempty, render_data fun elem mem => nonempty elem (List.mem_append_left _ mem)]
  by_cases empty : elems = []
  · subst empty
    obtain rfl : rooted = true := by simpa using proper
    simp [show (['/'].intercalate [] : List Char) = [] from rfl]
  · rw [intercalate_append empty some]
    cases rooted <;> simp [empty, joined]

theorem isRooted_append {path : String} (nonempty : path ≠ "") (rest : List Char) :
    isRooted ⟨path.data ++ rest⟩ = isRooted path := by
  unfold isRooted
  rw [List.head?_append_of_ne_nil _ fun blank => nonempty (String.ext blank)]

/-- `filepath.Join` of a path and names. -/
theorem join_names {dest : String} {names : List (List Char)} (nonempty : dest ≠ "")
    (named : ∀ name ∈ names, IsName name) (some : names ≠ []) :
    join dest ⟨['/'].intercalate names⟩ = render (isRooted dest) (cleanedElems dest ++ names) := by
  have joined : dest ++ "/" ++ ⟨['/'].intercalate names⟩ = ⟨dest.data ++ '/' :: ['/'].intercalate names⟩ := by
    simp [String.ext_iff]
  unfold join
  rw [if_neg nonempty, clean_eq_render, joined, isRooted_append nonempty]
  unfold cleanedElems
  rw [isRooted_append nonempty, splitSlash_append_slash,
    splitSlash_intercalate (fun name mem => (named name mem).2.2.2) some, cleanElems_append,
    cleanElems_names _ named]
  simp

theorem render_ne_empty {rooted : Bool} {elems : List (List Char)} (form : CleanForm rooted elems) :
    render rooted elems ≠ "" := fun blank => by
  have data := @render_data rooted _ fun _ mem => form.ne_nil mem
  rw [blank] at data
  cases rooted
  · by_cases empty : elems = []
    · simp [empty] at data
    · rw [if_neg Bool.false_ne_true, if_neg empty] at data
      exact empty ((intercalate_eq_nil fun _ mem => form.ne_nil mem).mp data.symm)
  · simp at data

theorem clean_render_slash {rooted : Bool} {elems : List (List Char)} (form : CleanForm rooted elems) :
    clean ⟨(render rooted elems).data ++ ['/']⟩ = render rooted elems := by
  have printed := render_ne_empty form
  have back := cleanedElems_render form
  unfold cleanedElems at back
  rw [isRooted_render form] at back
  rw [clean_eq_render, isRooted_append printed, isRooted_render form]
  unfold cleanedElems
  rw [isRooted_append printed, isRooted_render form, splitSlash_append_slash, splitSlash.eq_1,
    cleanElems_append, cleanElems_skip (.inl rfl), cleanElems.eq_1, back]

theorem dir_slash_name (before : List Char) {name : List Char} (named : '/' ∉ name) :
    dir ⟨before ++ '/' :: name⟩ = clean ⟨before ++ ['/']⟩ := by
  have kept : ∀ c ∈ name.reverse, decide (c ≠ '/') = true := fun c mem => by
    simpa using fun same : c = '/' => named (same ▸ List.mem_reverse.mp mem)
  unfold dir
  rw [List.reverse_append, List.reverse_cons, List.append_assoc, List.dropWhile_append_of_pos kept]
  simp

theorem dir_name {name : List Char} (named : '/' ∉ name) : dir ⟨name⟩ = "." := by
  have kept : ∀ c ∈ name.reverse, decide (c ≠ '/') = true := fun c mem => by
    simpa using fun same : c = '/' => named (same ▸ List.mem_reverse.mp mem)
  unfold dir
  rw [List.dropWhile_eq_nil_iff.mpr kept]
  rfl

/-- `filepath.Dir` of a printed path drops its last name. -/
theorem dir_render_concat {rooted : Bool} {elems : List (List Char)} {name : List Char}
    (form : CleanForm rooted (elems ++ [name])) : dir (render rooted (elems ++ [name])) = render rooted elems := by
  have named : '/' ∉ name := form.no_slash (by simp)
  have single : ['/'].intercalate [name] = name := List.append_nil name
  by_cases proper : elems ≠ [] ∨ rooted = true
  · have data := render_append_data form proper (List.cons_ne_nil name [])
    rw [single] at data
    rw [show render rooted (elems ++ [name]) = ⟨_⟩ from String.ext data]
    by_cases empty : elems = []
    · subst empty
      obtain rfl : rooted = true := by simpa using proper
      rw [if_pos rfl, List.append_nil]
      exact dir_slash_name [] named
    · rw [if_neg empty, List.append_assoc, List.singleton_append, dir_slash_name _ named]
      exact clean_render_slash (form.sublist (List.sublist_append_left _ _))
  · obtain ⟨rfl, relative⟩ : elems = [] ∧ rooted = false := by simpa using proper
    subst relative
    rw [show render false ([] ++ [name]) = ⟨name⟩ from
      String.ext ((render_data fun _ mem => form.ne_nil mem).trans (by simp [single]))]
    exact dir_name named

end Legator.Skills
