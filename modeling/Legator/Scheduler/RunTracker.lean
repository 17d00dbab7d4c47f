import Mathlib.Data.List.Nodup

/-!
# The per-agent concurrency gate

`RunTracker` of `internal/scheduler/concurrency.go` keeps a map from agent keys
to the run currently admitted for that key. Every method takes the tracker's
mutex for its whole body, so each call is one atomic step on the map; this
module models the map and those steps.

Go maps hold each key at most once. The model keeps the map as an association
list whose keys carry that fact as a field, so every operation has to preserve
it. Clock readings (`time.Now()`) and durations are nanosecond counts.
-/

namespace Legator.Scheduler

/-- Metadata about an in-flight run (`RunInfo`). -/
structure RunInfo where
  runName : String
  startedAt : Int
  deriving DecidableEq, Repr

/-- The tracker's `inflight` map, with the Go map's key uniqueness. -/
structure RunTracker where
  inflight : List (String × RunInfo)
  nodupKeys : (inflight.map Prod.fst).Nodup

namespace RunTracker

/-- `NewRunTracker`: an empty map. -/
def empty : RunTracker := ⟨[], List.nodup_nil⟩

/-- The map read `t.inflight[agentKey]`. -/
def get (t : RunTracker) (agentKey : String) : Option RunInfo :=
  t.inflight.lookup agentKey

/-- Keep the entries whose key and info satisfy `keep`; this is both
`delete(t.inflight, agentKey)` and the deleting loop of `CleanStale`. -/
def retain (t : RunTracker) (keep : String → RunInfo → Bool) : RunTracker :=
  ⟨t.inflight.filter (fun entry => keep entry.1 entry.2),
    t.nodupKeys.sublist ((List.filter_sublist _).map _)⟩

theorem get_eq_none_iff {t : RunTracker} {agentKey : String} :
    t.get agentKey = none ↔ ∀ info, (agentKey, info) ∉ t.inflight := by
  simp only [get, List.lookup_eq_none_iff, bne_iff_ne, ne_eq]
  exact ⟨fun absent info mem => absent _ mem rfl,
    fun absent entry mem keyEq => absent entry.2 (keyEq ▸ mem)⟩

theorem lookup_eq_some_iff_mem {entries : List (String × RunInfo)}
    (nodupKeys : (entries.map Prod.fst).Nodup) {agentKey : String} {info : RunInfo} :
    entries.lookup agentKey = some info ↔ (agentKey, info) ∈ entries := by
  induction entries with
  | nil => simp
  | cons entry entries inductionHypothesis =>
      obtain ⟨key, other⟩ := entry
      rw [List.map_cons, List.nodup_cons] at nodupKeys
      rw [List.lookup_cons, List.mem_cons, ← inductionHypothesis nodupKeys.2]
      by_cases keyEq : agentKey = key
      · subst keyEq
        have absent : entries.lookup agentKey = none :=
          List.lookup_eq_none_iff.mpr fun entry mem => bne_iff_ne.mpr fun keyEq =>
            nodupKeys.1 (by simpa [keyEq] using List.mem_map_of_mem Prod.fst mem)
        simp [absent, eq_comm]
      · have differs : (agentKey == key) = false := by simpa using keyEq
        simp [differs, keyEq]

theorem get_eq_some_iff {t : RunTracker} {agentKey : String} {info : RunInfo} :
    t.get agentKey = some info ↔ (agentKey, info) ∈ t.inflight :=
  lookup_eq_some_iff_mem t.nodupKeys

/-- Insert an entry for a key the map does not hold. -/
def insert (t : RunTracker) (agentKey : String) (info : RunInfo)
    (absent : t.get agentKey = none) : RunTracker :=
  ⟨(agentKey, info) :: t.inflight, by
    refine List.nodup_cons.mpr ⟨fun mem => ?_, t.nodupKeys⟩
    obtain ⟨⟨key, other⟩, entryMem, keyEq⟩ := List.mem_map.mp mem
    cases keyEq
    exact get_eq_none_iff.mp absent other entryMem⟩

@[simp]
theorem get_retain (t : RunTracker) (keep : String → RunInfo → Bool) (agentKey : String) :
    (t.retain keep).get agentKey = (t.get agentKey).filter (keep agentKey) := by
  cases found : t.get agentKey with
  | none =>
      rw [get_eq_none_iff] at found
      exact get_eq_none_iff.mpr fun info mem => found info (List.mem_filter.mp mem).1
  | some info =>
      rw [get_eq_some_iff] at found
      cases kept : keep agentKey info with
      | true =>
          simp only [Option.filter, kept, if_true]
          exact get_eq_some_iff.mpr (List.mem_filter.mpr ⟨found, kept⟩)
      | false =>
          simp only [Option.filter, kept, Bool.false_eq_true, if_false]
          refine get_eq_none_iff.mpr fun other mem => ?_
          obtain ⟨otherMem, keepOther⟩ := List.mem_filter.mp mem
          have same : other = info := Option.some.inj
            ((get_eq_some_iff.mpr otherMem).symm.trans (get_eq_some_iff.mpr found))
          simp_all

@[simp]
theorem get_insert (t : RunTracker) (agentKey : String) (info : RunInfo)
    (absent : t.get agentKey = none) (key : String) :
    (t.insert agentKey info absent).get key =
      if key = agentKey then some info else t.get key := by
  by_cases keyEq : key = agentKey
  · subst keyEq
    simp [get, insert]
  · have differs : (key == agentKey) = false := by simpa using keyEq
    simp [get, insert, List.lookup_cons, differs, keyEq]

/-! ## The tracker's methods -/

/-- `TryStart`: admit `runName` for `agentKey` at clock reading `now` unless the
key already has an entry. -/
def tryStart (t : RunTracker) (agentKey runName : String) (now : Int) : Bool × RunTracker :=
  match found : t.get agentKey with
  | some _ => (false, t)
  | none => (true, t.insert agentKey ⟨runName, now⟩ found)

/-- `Complete`: delete the key, whichever run's entry it holds. -/
def complete (t : RunTracker) (agentKey : String) : RunTracker :=
  t.retain fun key _ => key != agentKey

/-- `IsRunning`. -/
def isRunning (t : RunTracker) (agentKey : String) : Bool :=
  (t.get agentKey).isSome

/-- `InFlightCount`: the number of keys in the map. -/
def inFlightCount (t : RunTracker) : Nat :=
  t.inflight.length

/-- The test `now.Sub(info.StartedAt) > maxAge` of `CleanStale`. -/
def isStale (maxAge now : Int) (info : RunInfo) : Bool :=
  decide (now - info.startedAt > maxAge)

/-- `CleanStale`: delete every entry older than `maxAge` at clock reading `now`,
and return how many were deleted. -/
def cleanStale (t : RunTracker) (maxAge now : Int) : Nat × RunTracker :=
  ((t.inflight.filter fun entry => isStale maxAge now entry.2).length,
    t.retain fun _ info => !isStale maxAge now info)

theorem tryStart_of_get_some {t : RunTracker} {agentKey : String} {info : RunInfo}
    (found : t.get agentKey = some info) (runName : String) (now : Int) :
    t.tryStart agentKey runName now = (false, t) := by
  unfold tryStart
  split
  · rfl
  · simp_all

theorem tryStart_of_get_none {t : RunTracker} {agentKey : String}
    (absent : t.get agentKey = none) (runName : String) (now : Int) :
    t.tryStart agentKey runName now = (true, t.insert agentKey ⟨runName, now⟩ absent) := by
  unfold tryStart
  split
  · simp_all
  · rfl

@[simp]
theorem tryStart_fst (t : RunTracker) (agentKey runName : String) (now : Int) :
    (t.tryStart agentKey runName now).1 = (t.get agentKey).isNone := by
  cases found : t.get agentKey with
  | none => rw [tryStart_of_get_none found]; rfl
  | some info => rw [tryStart_of_get_some found]; rfl

@[simp]
theorem get_complete (t : RunTracker) (agentKey key : String) :
    (t.complete agentKey).get key = if key = agentKey then none else t.get key := by
  rw [complete, get_retain]
  by_cases keyEq : key = agentKey <;> cases t.get key <;> simp [Option.filter, keyEq]

@[simp]
theorem get_cleanStale (t : RunTracker) (maxAge now : Int) (key : String) :
    (t.cleanStale maxAge now).2.get key =
      (t.get key).filter fun info => !isStale maxAge now info := by
  simp [cleanStale]

end RunTracker

end Legator.Scheduler
