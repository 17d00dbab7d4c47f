import Legator.System
import Legator.Skills.FileSystem

/-!
# The skill cache and `Unpack`

`Cache` of the skills package keeps, per OCI reference, the directory where the
skill's archive was unpacked and when. `Put` unpacks into
`Join(baseDir, safeName)`, where `safeName` replaces `/`, `:` and `@` in the
reference by `_`; `Evict` removes the directories of expired entries.

The file system is `FileSystem`: regular files and directories by cleaned path,
with each path resolved element by element as the kernel resolves it. The
archive is modelled by what `gzip.NewReader` and `tar.Reader` decode from the
bytes: a gzip error, or the tar entries followed by the end of the stream or an
error. File modes are left out.
-/

namespace Legator.Skills

/-! ## `Unpack` -/

/-- A tar entry: its header's name and what `io.ReadAll` read of its body. -/
structure TarEntry where
  name : String
  data : Except String (List UInt8)

/-- A skill archive as the gzip and tar readers decode it. -/
inductive Archive
  | notGzip (err : String)
  | tar (entries : List TarEntry) (ending : Option String)

open FileSystem

/-- The loop of `Unpack` over the tar entries, with the error that stops it. -/
def unpackEntries (destDir : String) : FileSystem → List TarEntry → FileSystem × Option String
  | fs, [] => (fs, none)
  | fs, entry :: rest =>
      let target := join destDir entry.name
      if !hasPrefix (clean target) (clean destDir) then
        (fs, some ("path traversal detected: " ++ entry.name))
      else match mkdirAll fs (dir target) with
        | .error err => (fs, some ("create parent: " ++ err))
        | .ok fs => match entry.data with
          | .error err => (fs, some ("read " ++ entry.name ++ ": " ++ err))
          | .ok data => match writeFile fs target data with
            | .error err => (fs, some ("write " ++ entry.name ++ ": " ++ err))
            | .ok fs => unpackEntries destDir fs rest

/-- Where `Unpack` into `destDir` writes an entry. -/
def entryPath (destDir : String) (entry : TarEntry) : String :=
  clean (join destDir entry.name)

/-- A loop pass that goes on has written the entry's data to its path and
nothing else. -/
theorem unpackEntries_cons {destDir : String} {fs fs' : FileSystem} {entry : TarEntry}
    {rest : List TarEntry} (unpacked : unpackEntries destDir fs (entry :: rest) = (fs', none)) :
    ∃ data middle, entry.data = .ok data ∧
      (∀ other, middle.files other =
        if other = entryPath destDir entry then some data else fs.files other) ∧
      unpackEntries destDir middle rest = (fs', none) := by
  simp only [unpackEntries] at unpacked
  split_ifs at unpacked
  · cases unpacked
  split at unpacked
  · cases unpacked
  · rename_i made madeEq
    split at unpacked
    · cases unpacked
    · rename_i data dataEq
      split at unpacked
      · cases unpacked
      · rename_i written writtenEq
        refine ⟨data, written, dataEq, fun other => ?_, unpacked⟩
        rw [writeFile_files writtenEq, mkdirAll_files madeEq]
        rfl

/-- A loop pass whose checks all pass goes on with the file system it wrote. -/
theorem unpackEntries_cons_of_ok {destDir name : String} {data : List UInt8} {rest : List TarEntry}
    {fs made written : FileSystem}
    (checked : hasPrefix (clean (join destDir name)) (clean destDir) = true)
    (parents : mkdirAll fs (dir (join destDir name)) = .ok made)
    (wrote : writeFile made (join destDir name) data = .ok written) :
    unpackEntries destDir fs (⟨name, .ok data⟩ :: rest) = unpackEntries destDir written rest := by
  rw [unpackEntries]
  dsimp only
  rw [checked, Bool.not_true, if_neg Bool.false_ne_true, parents]
  dsimp only
  rw [wrote]

/-- A loop that completes leaves alone every file no entry is written to. -/
theorem unpackEntries_frame {destDir : String} :
    ∀ {fs fs' : FileSystem} {entries : List TarEntry},
      unpackEntries destDir fs entries = (fs', none) →
      ∀ other, (∀ entry ∈ entries, entryPath destDir entry ≠ other) →
        fs'.files other = fs.files other
  | _, _, [], unpacked, _, _ => by cases unpacked; rfl
  | fs, fs', entry :: rest, unpacked, other, untouched => by
      obtain ⟨data, middle, -, written, restUnpacked⟩ := unpackEntries_cons unpacked
      rw [unpackEntries_frame restUnpacked other
        fun later mem => untouched later (List.mem_cons_of_mem _ mem), written other,
        if_neg (untouched entry (List.mem_cons_self _ _)).symm]

/-- A loop that completes has written every entry, and the file at each path
holds the data of the last entry written there. -/
theorem unpackEntries_written {destDir : String} {entry : TarEntry} {post : List TarEntry} :
    ∀ {fs fs' : FileSystem} {pre : List TarEntry},
      unpackEntries destDir fs (pre ++ entry :: post) = (fs', none) →
      (∀ later ∈ post, entryPath destDir later ≠ entryPath destDir entry) →
      ∃ data, entry.data = .ok data ∧ fs'.files (entryPath destDir entry) = some data
  | fs, fs', [], unpacked, last => by
      obtain ⟨data, middle, dataEq, written, restUnpacked⟩ := unpackEntries_cons unpacked
      refine ⟨data, dataEq, ?_⟩
      rw [unpackEntries_frame restUnpacked _ last, written, if_pos rfl]
  | fs, fs', first :: pre, unpacked, last => by
      obtain ⟨-, middle, -, -, restUnpacked⟩ := unpackEntries_cons unpacked
      exact unpackEntries_written restUnpacked last

/-- `Unpack`: the file system after it, and its result. -/
def unpack (content : Archive) (destDir : String) (fs : FileSystem) :
    FileSystem × Except String Unit :=
  match mkdirAll fs destDir with
  | .error err => (fs, .error ("create directory: " ++ err))
  | .ok fs =>
      match content with
      | .notGzip err => (fs, .error ("gzip reader: " ++ err))
      | .tar entries ending =>
          match unpackEntries destDir fs entries with
          | (fs, some err) => (fs, .error err)
          | (fs, none) =>
              match ending with
              | none => (fs, .ok ())
              | some err => (fs, .error ("tar next: " ++ err))

/-- A successful `Unpack` read a complete archive and wrote each of its entries,
with the data of the last entry for each path. -/
theorem unpack_writes_entries {content : Archive} {destDir : String} {fs fs' : FileSystem}
    (unpacked : unpack content destDir fs = (fs', .ok ())) :
    ∃ entries, content = .tar entries none ∧ ∀ pre entry post, entries = pre ++ entry :: post →
      (∀ later ∈ post, entryPath destDir later ≠ entryPath destDir entry) →
      ∃ data, entry.data = .ok data ∧ fs'.files (entryPath destDir entry) = some data := by
  unfold unpack at unpacked
  split at unpacked
  · cases unpacked
  · split at unpacked
    · cases unpacked
    · rename_i entries ending
      split at unpacked
      · cases unpacked
      · rename_i loopEnd loopEq
        split at unpacked
        · cases unpacked
          refine ⟨entries, rfl, fun pre entry post split last => ?_⟩
          subst split
          exact unpackEntries_written loopEq last
        · cases unpacked

/-! ## Where `Unpack` writes -/

/-- The loop changes a file only at the cleaned target of an entry that passed
the traversal check, whether or not it stops on an error. -/
theorem unpackEntries_changes_checked (destDir : String) :
    ∀ (fs : FileSystem) (entries : List TarEntry) (path : String),
      (unpackEntries destDir fs entries).1.files path ≠ fs.files path →
      hasPrefix path (clean destDir) = true
  | _, [], _, changed => absurd rfl changed
  | fs, entry :: rest, path, changed => by
      simp only [unpackEntries] at changed
      split_ifs at changed with rejected
      · exact absurd rfl changed
      split at changed
      · exact absurd rfl changed
      rename_i made madeEq
      split at changed
      · exact absurd (congrFun (mkdirAll_files madeEq) path) changed
      rename_i data _
      split at changed
      · exact absurd (congrFun (mkdirAll_files madeEq) path) changed
      rename_i written writtenEq
      by_cases later : (unpackEntries destDir written rest).1.files path = written.files path
      · rw [later, writeFile_files writtenEq, mkdirAll_files madeEq] at changed
        split_ifs at changed with atTarget
        · rw [atTarget]
          simpa using rejected
        · exact absurd rfl changed
      · exact unpackEntries_changes_checked destDir written rest path later

/-- A one-entry archive whose entry climbs out of a directory `skill` into its
sibling `skillx`, whose name begins with `skill`. -/
def siblingEscape : Archive :=
  .tar [⟨"../skillx/f", .ok [1]⟩] none

/-- Every file `Unpack` creates or overwrites has a cleaned path that begins,
as a string, with the cleaned destination: the check is a string prefix test,
not a test of the path's directories. -/
theorem unpack_writes_under_prefix (content : Archive) (destDir : String) (fs : FileSystem)
    (path : String) (changed : (unpack content destDir fs).1.files path ≠ fs.files path) :
    hasPrefix path (clean destDir) = true := by
  unfold unpack at changed
  split at changed
  · exact absurd rfl changed
  rename_i made madeEq
  rw [← mkdirAll_files madeEq] at changed
  split at changed
  · exact absurd rfl changed
  rename_i entries ending
  have checked := unpackEntries_changes_checked destDir made entries path
  cases loop : unpackEntries destDir made entries with
  | mk written stopped =>
      rw [loop] at checked changed
      cases stopped <;> cases ending <;> exact checked changed

theorem sibling_write_passes_check :
    (unpack siblingEscape "/cache/skill" ⟨fun _ => none, fun path => path = "/"⟩).1.files
        "/cache/skillx/f" ≠ none ∧
      hasPrefix "/cache/skillx/f" (clean "/cache/skill") = true :=
  ⟨by decide, unpack_writes_under_prefix siblingEscape "/cache/skill"
    ⟨fun _ => none, fun path => path = "/"⟩ _ (by decide)⟩

theorem sibling_prefix_escapes_unpack :
    ¬ ∀ content destDir fs path, (unpack content destDir fs).1.files path ≠ fs.files path →
      hasPrefix path (clean destDir ++ "/") = true := by
  intro confined
  have escaped := confined siblingEscape "/cache/skill" ⟨fun _ => none, fun path => path = "/"⟩
    "/cache/skillx/f" (by decide)
  revert escaped
  decide

/-- A path that cleans to `.` has no elements and is relative. -/
theorem cleanedElems_of_dot {path : String} (dot : clean path = ".") :
    cleanedElems path = [] ∧ isRooted path = false := by
  have rooted := isRooted_render (cleanForm_cleanedElems path)
  have elems := cleanedElems_render (cleanForm_cleanedElems path)
  rw [← clean_eq_render, dot] at rooted elems
  exact ⟨elems.symm, rooted.symm⟩

/-- Joined to a path that cleans to `.`, a name is itself. -/
theorem join_dot {path name : String} (dot : clean path = ".") (named : IsName name.data) :
    join path name = name := by
  have single := render_name named
  have form : CleanForm false [name.data] := (CleanForm.nil false).concat_name named
  by_cases empty : path = ""
  · subst empty
    unfold join
    rw [if_pos rfl, if_neg fun blank => named.1 (congrArg String.data blank), ← single,
      clean_render form]
  · have joined := @join_names path [name.data] empty (by simpa using named) (by simp)
    obtain ⟨elems, rooted⟩ := cleanedElems_of_dot dot
    rw [elems, rooted, List.nil_append, single,
      show (⟨['/'].intercalate [name.data]⟩ : String) = name from String.ext (List.append_nil _)] at joined
    exact joined

/-- `Unpack` into a destination that cleans to `.`, such as `.` or `./`, once
`MkdirAll` has accepted it, rejects an archive whose first entry is a name not
beginning with a dot, as a path traversal: the cleaned target is the bare name,
and the check asks that it begin, as a string, with `.`. The empty path, which
also cleans to `.`, fails earlier, at `MkdirAll` (`mkdirAll_empty`). -/
theorem unpack_into_dot_rejects {destDir name : String} {data : Except String (List UInt8)}
    {rest : List TarEntry} {ending : Option String} {fs made : FileSystem}
    (dot : clean destDir = ".") (named : IsName name.data) (visible : name.data.head? ≠ some '.')
    (madeDir : mkdirAll fs destDir = .ok made) :
    unpack (.tar (⟨name, data⟩ :: rest) ending) destDir fs =
      (made, .error ("path traversal detected: " ++ name)) := by
  have cleaned : clean name = name := by
    rw [← render_name named]
    exact clean_render ((CleanForm.nil false).concat_name named)
  have refused : hasPrefix (clean (join destDir name)) (clean destDir) = false := by
    rw [join_dot dot named, cleaned, dot]
    unfold hasPrefix
    cases chars : name.data with
    | nil => exact absurd chars named.1
    | cons c rest =>
        rw [chars, List.head?_cons, ne_eq, Option.some_inj] at visible
        rw [List.isPrefixOf]
        simp [Ne.symm visible]
  unfold unpack
  rw [madeDir]
  dsimp only
  rw [unpackEntries]
  dsimp only
  rw [refused]
  rfl


theorem skill_into_dot_rejected :
    clean "." = "." ∧ IsName "SKILL.md".data ∧ "SKILL.md".data.head? ≠ some '.' ∧
      mkdirAll ⟨fun _ => none, fun _ => false⟩ "." = .ok ⟨fun _ => none, fun _ => false⟩ ∧
      unpack (.tar [⟨"SKILL.md", .ok [1]⟩] none) "." ⟨fun _ => none, fun _ => false⟩ =
        (⟨fun _ => none, fun _ => false⟩, .error "path traversal detected: SKILL.md") :=
  have named : IsName "SKILL.md".data := by unfold IsName; decide
  have made : mkdirAll ⟨fun _ => none, fun _ => false⟩ "." = .ok ⟨fun _ => none, fun _ => false⟩ := rfl
  ⟨rfl, named, by decide, made, unpack_into_dot_rejects rfl named (by decide) made⟩

/-! ## The cache -/

/-- `CachedSkill`. -/
structure CachedSkill where
  ref : String
  dir : String
  fetchedAt : Int

/-- `Cache`: the entries map, as an association list, the base directory and
the TTL. -/
structure Cache where
  entries : List (String × CachedSkill)
  baseDir : String
  ttl : Int

namespace Cache

/-- `NewCache`. -/
def newCache (baseDir : String) (ttl : Int) : Cache :=
  ⟨[], baseDir, ttl⟩

/-- `Get` at clock reading `now`. -/
def get (c : Cache) (now : Int) (ref : String) : String × Bool :=
  match c.entries.lookup ref with
  | none => ("", false)
  | some entry => if now - entry.fetchedAt > c.ttl then ("", false) else (entry.dir, true)

/-- The replacer of `Put`: `/`, `:` and `@` become `_`. -/
def safeName (ref : String) : String :=
  ⟨ref.data.map fun c => if c = '/' ∨ c = ':' ∨ c = '@' then '_' else c⟩

/-- `Put` at clock reading `now`: the cache and file system after it, and its
result. A failed `Unpack` leaves what it wrote. -/
def put (c : Cache) (fs : FileSystem) (now : Int) (ref : String) (content : Archive) :
    Cache × FileSystem × Except String String :=
  let dir := join c.baseDir (safeName ref)
  match unpack content dir fs with
  | (fs, .error err) => (c, fs, .error ("unpack to cache: " ++ err))
  | (fs, .ok ()) =>
      ({ c with entries := c.entries.filter (·.1 ≠ ref) ++ [(ref, ⟨ref, dir, now⟩)] }, fs, .ok dir)

/-- Whether an entry has expired at `now`. -/
def expired (c : Cache) (now : Int) (entry : String × CachedSkill) : Bool :=
  now - entry.2.fetchedAt > c.ttl

/-- `Evict` at clock reading `now`: remove the directory and the entry of each
expired skill, and count them. -/
def evict (c : Cache) (fs : FileSystem) (now : Int) : Cache × FileSystem × Nat :=
  ({ c with entries := c.entries.filter fun entry => !c.expired now entry },
    (c.entries.filter (c.expired now)).foldl (fun fs entry => fs.removeAll entry.2.dir) fs,
    (c.entries.filter (c.expired now)).length)

/-- Every entry is stored under its reference, in the directory `Put` computes
for that reference. -/
def EntriesNamed (c : Cache) : Prop :=
  ∀ entry ∈ c.entries, entry.2.ref = entry.1 ∧ entry.2.dir = join c.baseDir (safeName entry.1)

theorem entriesNamed_put {c c' : Cache} {fs fs' : FileSystem} {now : Int} {ref : String}
    {content : Archive} {result : Except String String} (named : EntriesNamed c)
    (stored : c.put fs now ref content = (c', fs', result)) : EntriesNamed c' := by
  simp only [put] at stored
  split at stored
  · cases stored
    exact named
  · cases stored
    intro entry mem
    rcases List.mem_append.mp mem with old | new
    · exact named entry (List.mem_of_mem_filter old)
    · rw [List.mem_singleton.mp new]
      exact ⟨rfl, rfl⟩

theorem entriesNamed_evict {c : Cache} (named : EntriesNamed c) (fs : FileSystem) (now : Int) :
    EntriesNamed (c.evict fs now).1 :=
  fun entry mem => named entry (List.mem_of_mem_filter mem)

/-- What `Put` returns when it succeeds: the directory for the reference, which
`Get` then returns while the TTL lasts, holding every file of the archive. -/
theorem put_ok {c c' : Cache} {fs fs' : FileSystem} {now : Int} {ref dir : String}
    {content : Archive} (stored : c.put fs now ref content = (c', fs', .ok dir)) :
    dir = join c.baseDir (safeName ref) ∧ (0 ≤ c.ttl → c'.get now ref = (dir, true)) ∧
      ∃ entries, content = .tar entries none ∧ ∀ pre entry post, entries = pre ++ entry :: post →
        (∀ later ∈ post, entryPath dir later ≠ entryPath dir entry) →
        ∃ data, entry.data = .ok data ∧ fs'.files (entryPath dir entry) = some data := by
  simp only [put] at stored
  split at stored
  · cases stored
  · rename_i unpacked
    cases stored
    refine ⟨rfl, fun nonnegative => ?_, unpack_writes_entries unpacked⟩
    have absent : (c.entries.filter (·.1 ≠ ref)).lookup ref = none :=
      List.lookup_eq_none_iff.mpr fun entry mem =>
        bne_iff_ne.mpr (Ne.symm (of_decide_eq_true (List.mem_filter.mp mem).2))
    simp only [get, List.lookup_append, absent, List.lookup_cons_self, Option.none_or]
    rw [if_neg (by omega)]

/-- A one-file archive put into a new cache on a file system with only the
root: `Get` returns its directory, which holds the file. -/
theorem put_into_new_cache :
    let stored := (newCache "/cache" 3600000000000).put ⟨fun _ => none, fun path => path = "/"⟩
      0 "reg/skill:v1" (.tar [⟨"a.md", .ok [1]⟩] none)
    stored.2.2 = .ok "/cache/reg_skill_v1" ∧
      stored.1.get 0 "reg/skill:v1" = ("/cache/reg_skill_v1", true) ∧
      stored.2.1.files "/cache/reg_skill_v1/a.md" = some [1] := by
  intro stored
  obtain ⟨-, got, entries, archive, written⟩ :=
    put_ok (show stored = (stored.1, stored.2.1, .ok "/cache/reg_skill_v1") from rfl)
  cases archive
  obtain ⟨data, read, file⟩ := written [] _ [] rfl nofun
  cases read
  exact ⟨rfl, got (by decide), file⟩

end Cache

/-! ## Calls on the cache -/

/-- The cache, the file system, the clock, and the archive of the last
successful `Put` of each reference, which no code reads. -/
structure CacheState where
  cache : Cache
  fs : FileSystem
  clock : Int
  lastPut : String → Option Archive

/-- The calls that change the state, and the clock. -/
inductive CacheEvent
  | put (ref : String) (content : Archive)
  | evict
  | tick (elapsed : Nat)

namespace CacheState

/-- One call. -/
def step (s : CacheState) : CacheEvent → Option CacheState
  | .put ref content =>
      match s.cache.put s.fs s.clock ref content with
      | (cache, fs, .ok _) =>
          some { s with
            cache := cache
            fs := fs
            lastPut := fun other => if other = ref then some content else s.lastPut other }
      | (cache, fs, .error _) => some { s with cache := cache, fs := fs }
  | .evict =>
      let evicted := s.cache.evict s.fs s.clock
      some { s with cache := evicted.1, fs := evicted.2.1 }
  | .tick elapsed => some { s with clock := s.clock + elapsed }

/-- A new cache over any file system, and every sequence of calls from it. -/
def system : System CacheState CacheEvent :=
  ⟨fun s => ∃ baseDir ttl fs clock, s = ⟨Cache.newCache baseDir ttl, fs, clock, fun _ => none⟩,
    step⟩

theorem entriesNamed_of_reachable {s : CacheState} (reachable : system.Reachable s) :
    s.cache.EntriesNamed := by
  induction reachable with
  | init initial =>
      obtain ⟨baseDir, ttl, fs, clock, rfl⟩ := initial
      exact fun _ absent => absurd absent (List.not_mem_nil _)
  | @step state next event _ stepped named =>
      cases event with
      | put ref content =>
          simp only [system, step] at stepped
          split at stepped <;> cases stepped <;> exact Cache.entriesNamed_put named ‹_›
      | evict =>
          cases stepped
          exact Cache.entriesNamed_evict named state.fs state.clock
      | tick elapsed =>
          cases stepped
          exact named

/-- What a caller of `Get` is led to expect: every regular file under the
directory `Get` returns is a file of the archive last put for the reference. -/
def GetsOnlyArchiveFiles (s : CacheState) : Prop :=
  ∀ ref dir, s.cache.get s.clock ref = (dir, true) → ∀ path, within dir path →
    (s.fs.files path).isSome → ∃ entries ending, s.lastPut ref = some (.tar entries ending) ∧
      ∃ entry ∈ entries, join dir entry.name = path

/-- What a caller of `Get` is led to expect of other references: a `Put` for a
different reference changes no file under the directory `Get` returns. -/
def PutsIsolated (s : CacheState) : Prop :=
  ∀ ref dir, s.cache.get s.clock ref = (dir, true) → ∀ other content s', other ≠ ref →
    s.step (.put other content) = some s' → ∀ path, within dir path → s'.fs.files path = s.fs.files path

/-- A file system with the root directory only. -/
def rootOnly : FileSystem :=
  ⟨fun _ => none, fun path => path = "/"⟩

/-- A cache under `/cache` with a one-hour TTL, on `rootOnly`, at clock zero. -/
def freshCache : CacheState :=
  ⟨Cache.newCache "/cache" 3600000000000, rootOnly, 0, fun _ => none⟩

/-- An archive of one file. -/
def oneFile (name : String) (data : List UInt8) : Archive :=
  .tar [⟨name, .ok data⟩] none

theorem cache_directories_shared :
    ¬ (∀ s, system.Reachable s → GetsOnlyArchiveFiles s) ∧
      ¬ (∀ s, system.Reachable s → PutsIsolated s) := by
  constructor
  · intro exact
    obtain ⟨s, reachable, replayed⟩ := system.exists_reachable_of_replay
      ⟨"/cache", 3600000000000, rootOnly, 0, rfl⟩
      [.put "reg/skill:v1" (oneFile "a.md" [1]), .put "reg/skill:v1" (oneFile "b.md" [2])]
      (fun s => decide (s.cache.get s.clock "reg/skill:v1" = ("/cache/reg_skill_v1", true)) &&
        (s.fs.files "/cache/reg_skill_v1/a.md").isSome &&
        (s.lastPut "reg/skill:v1").all fun
          | .tar entries _ =>
              entries.all fun entry => join "/cache/reg_skill_v1" entry.name != "/cache/reg_skill_v1/a.md"
          | .notGzip _ => true)
      (by decide)
    simp only [Bool.and_eq_true, decide_eq_true_eq] at replayed
    obtain ⟨⟨got, present⟩, others⟩ := replayed
    obtain ⟨entries, ending, last, entry, mem, named⟩ :=
      exact s reachable _ _ got "/cache/reg_skill_v1/a.md" (by decide) present
    rw [last] at others
    simp only [Option.all_some, List.all_eq_true, bne_iff_ne, ne_eq] at others
    exact others entry mem named
  · intro isolated
    obtain ⟨s, reachable, replayed⟩ := system.exists_reachable_of_replay
      ⟨"/cache", 3600000000000, rootOnly, 0, rfl⟩
      [.put "reg/my_skill:v1" (oneFile "a.md" [1])]
      (fun s => decide (s.cache.get s.clock "reg/my_skill:v1" = ("/cache/reg_my_skill_v1", true)) &&
        (s.fs.files "/cache/reg_my_skill_v1/b.md").isNone &&
        match s.step (.put "reg/my/skill:v1" (oneFile "b.md" [2])) with
        | some next => (next.fs.files "/cache/reg_my_skill_v1/b.md").isSome
        | none => false)
      (by decide)
    simp only [Bool.and_eq_true, decide_eq_true_eq] at replayed
    obtain ⟨⟨got, absent⟩, written⟩ := replayed
    split at written
    · rename_i next stepped
      have unchanged := isolated s reachable _ _ got _ _ next (by decide) stepped
        "/cache/reg_my_skill_v1/b.md" (by decide)
      rw [unchanged, Option.isNone_iff_eq_none.mp absent] at written
      cases written
    · cases written

end CacheState

end Legator.Skills
