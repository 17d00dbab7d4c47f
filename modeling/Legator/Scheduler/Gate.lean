import Legator.System
import Legator.Scheduler.RunTracker

/-!
# Runs interleaved at the concurrency gate

The scheduler admits a run with `TryStart(key, run)`; the admitted run calls
`Complete(key)` once, when it finishes, and a sweeper calls `CleanStale(maxAge)`
at arbitrary times. Since each method is atomic, every interleaving of these
calls by any number of goroutines is a sequence of the steps below.

Besides the tracker the state records, for every admitted run, what has become
of it: whether it completed, whether `CleanStale` removed its own entry, whether
another run's `Complete` removed its entry, and whether its entry is still in the
map. These fields are never read by the tracker; they only name what the
properties talk about.

`Complete` deletes the key without checking whose entry it deletes, so a run
whose entry was evicted as stale and that completes afterwards removes the
entry of the run admitted after it. The last section replays such a schedule.
-/

namespace Legator.Scheduler

/-- A run the gate admitted, and what has become of it since. -/
structure Admission where
  id : Nat
  agentKey : String
  runName : String
  startedAt : Int
  completed : Bool
  evicted : Bool
  released : Bool
  holds : Bool
  deriving DecidableEq, Repr

namespace Admission

/-- The entry this run put into the tracker. -/
def info (run : Admission) : RunInfo :=
  ⟨run.runName, run.startedAt⟩

/-- What `finisher` calling `Complete(finisher.agentKey)` does to `run`: the
finisher completes, and whichever run held the key loses its entry. -/
def finish (finisher run : Admission) : Admission :=
  if run.id = finisher.id then { run with completed := true, holds := false }
  else if run.agentKey = finisher.agentKey ∧ run.holds = true then
    { run with holds := false, released := true }
  else run

/-- What `CleanStale(maxAge)` at clock reading `now` does to `run`. -/
def evict (maxAge now : Int) (run : Admission) : Admission :=
  if run.holds = true ∧ RunTracker.isStale maxAge now run.info = true then
    { run with holds := false, evicted := true }
  else run

@[simp]
theorem finish_id (finisher run : Admission) : (finisher.finish run).id = run.id := by
  unfold finish
  split_ifs <;> rfl

@[simp]
theorem evict_id (maxAge now : Int) (run : Admission) : (run.evict maxAge now).id = run.id := by
  unfold evict
  split_ifs <;> rfl

/-- A run that still holds its entry after a `Complete` was untouched by it. -/
theorem finish_of_holds {finisher run : Admission} (holds : (finisher.finish run).holds = true) :
    finisher.finish run = run ∧ run.id ≠ finisher.id ∧ run.agentKey ≠ finisher.agentKey := by
  unfold finish at holds ⊢
  split_ifs at holds ⊢ with sameId keyHeld
  exact ⟨rfl, sameId, fun keyEq => keyHeld ⟨keyEq, holds⟩⟩

/-- A run that still holds its entry after `CleanStale` was untouched by it and
is not stale. -/
theorem evict_of_holds {maxAge now : Int} {run : Admission}
    (holds : (run.evict maxAge now).holds = true) :
    run.evict maxAge now = run ∧ RunTracker.isStale maxAge now run.info = false := by
  unfold evict at holds ⊢
  split_ifs at holds ⊢ with staleHeld
  exact ⟨rfl, by simpa [holds] using staleHeld⟩

end Admission

/-- The tracker, the clock, and every run admitted so far. -/
structure Gate where
  tracker : RunTracker
  clock : Int
  admitted : List Admission

/-- One atomic step of the system. -/
inductive Event
  | tryStart (agentKey runName : String)
  | complete (id : Nat)
  | cleanStale (maxAge : Int)
  | tick (elapsed : Nat)
  deriving DecidableEq, Repr

namespace Gate

/-- The empty gate at clock reading `clock`. -/
def init (clock : Int) : Gate :=
  ⟨RunTracker.empty, clock, []⟩

/-- The admission record of a successful `TryStart(agentKey, runName)`. -/
def admission (gate : Gate) (agentKey runName : String) : Admission :=
  ⟨gate.admitted.length, agentKey, runName, gate.clock, false, false, false, true⟩

/-- Apply one event. `Complete` is enabled only for an admitted run that has not
completed yet. -/
def step (gate : Gate) : Event → Option Gate
  | .tryStart agentKey runName =>
      let result := gate.tracker.tryStart agentKey runName gate.clock
      some { gate with
        tracker := result.2
        admitted := if result.1 then gate.admitted ++ [gate.admission agentKey runName]
          else gate.admitted }
  | .complete id =>
      match gate.admitted.find? (·.id = id) with
      | some finisher =>
          if finisher.completed then none
          else some { gate with
            tracker := gate.tracker.complete finisher.agentKey
            admitted := gate.admitted.map finisher.finish }
      | none => none
  | .cleanStale maxAge =>
      some { gate with
        tracker := (gate.tracker.cleanStale maxAge gate.clock).2
        admitted := gate.admitted.map (Admission.evict maxAge gate.clock) }
  | .tick elapsed => some { gate with clock := gate.clock + elapsed }

/-- The gate as a system: it starts empty, at any clock reading. -/
def system : System Gate Event :=
  ⟨fun gate => ∃ clock, gate = init clock, step⟩

/-! ## What every reachable state satisfies -/

/-- The tracker and the admission records agree: a run that holds its key has
its own entry in the map and is the only holder of that key, every entry
belongs to a holder, a run without an entry completed, was evicted or was
released, and run ids are distinct and below the number of admissions. -/
structure Consistent (gate : Gate) : Prop where
  holderEntry : ∀ run ∈ gate.admitted, run.holds = true →
    gate.tracker.get run.agentKey = some run.info
  holderUnique : ∀ first ∈ gate.admitted, ∀ second ∈ gate.admitted,
    first.holds = true → second.holds = true → first.agentKey = second.agentKey →
    first = second
  entryHolder : ∀ agentKey info, gate.tracker.get agentKey = some info →
    ∃ run ∈ gate.admitted, run.agentKey = agentKey ∧ run.holds = true
  accounted : ∀ run ∈ gate.admitted, run.holds = false →
    run.completed = true ∨ run.evicted = true ∨ run.released = true
  idBound : ∀ run ∈ gate.admitted, run.id < gate.admitted.length
  idNodup : (gate.admitted.map Admission.id).Nodup

theorem consistent_init (clock : Int) : (init clock).Consistent where
  holderEntry := by simp [init]
  holderUnique := by simp [init]
  entryHolder := by simp [init, RunTracker.empty, RunTracker.get]
  accounted := by simp [init]
  idBound := by simp [init]
  idNodup := by simp [init]

/-- Two holders after a step that only takes entries away were two holders
before it. -/
theorem holderUnique_map {admitted : List Admission} {update : Admission → Admission}
    (untouched : ∀ run, (update run).holds = true → update run = run)
    (unique : ∀ first ∈ admitted, ∀ second ∈ admitted,
      first.holds = true → second.holds = true → first.agentKey = second.agentKey →
      first = second) :
    ∀ first ∈ admitted.map update, ∀ second ∈ admitted.map update,
      first.holds = true → second.holds = true → first.agentKey = second.agentKey →
      first = second := by
  simp only [List.mem_map]
  rintro _ ⟨first, firstMem, rfl⟩ _ ⟨second, secondMem, rfl⟩ firstHolds secondHolds keyEq
  have firstSame := untouched first firstHolds
  have secondSame := untouched second secondHolds
  rw [firstSame] at firstHolds keyEq ⊢
  rw [secondSame] at secondHolds keyEq ⊢
  exact unique first firstMem second secondMem firstHolds secondHolds keyEq

theorem Consistent.tryStart {gate : Gate} (consistent : gate.Consistent)
    {agentKey : String} (absent : gate.tracker.get agentKey = none) (runName : String) :
    Consistent { gate with
      tracker := gate.tracker.insert agentKey ⟨runName, gate.clock⟩ absent
      admitted := gate.admitted ++ [gate.admission agentKey runName] } where
  holderEntry := by
    simp only [List.mem_append, List.mem_singleton, RunTracker.get_insert]
    rintro run (runMem | rfl) holds
    · have found := consistent.holderEntry run runMem holds
      have keyNe : run.agentKey ≠ agentKey := fun keyEq => by simp_all
      simpa [keyNe] using found
    · simp [admission, Admission.info]
  holderUnique := by
    have fresh : ∀ run ∈ gate.admitted, run.holds = true → run.agentKey ≠ agentKey :=
      fun run runMem holds keyEq => by
        simpa [keyEq, absent] using consistent.holderEntry run runMem holds
    simp only [List.mem_append, List.mem_singleton]
    rintro first (firstMem | rfl) second (secondMem | rfl) firstHolds secondHolds keyEq
    · exact consistent.holderUnique first firstMem second secondMem firstHolds secondHolds keyEq
    · exact absurd keyEq (fresh first firstMem firstHolds)
    · exact absurd keyEq.symm (fresh second secondMem secondHolds)
    · rfl
  entryHolder := by
    intro key info found
    rw [RunTracker.get_insert] at found
    split_ifs at found with keyEq
    · exact ⟨_, List.mem_append_right _ (List.mem_singleton_self _), keyEq.symm, rfl⟩
    · obtain ⟨run, runMem, runKey, holds⟩ := consistent.entryHolder key info found
      exact ⟨run, List.mem_append_left _ runMem, runKey, holds⟩
  accounted := by
    simp only [List.mem_append, List.mem_singleton]
    rintro run (runMem | rfl) released
    · exact consistent.accounted run runMem released
    · simp [admission] at released
  idBound := by
    simp only [List.mem_append, List.mem_singleton, List.length_append, List.length_singleton]
    rintro run (runMem | rfl)
    · exact Nat.lt_succ_of_lt (consistent.idBound run runMem)
    · exact Nat.lt_succ_self _
  idNodup := by
    rw [List.map_append, List.nodup_append]
    refine ⟨consistent.idNodup, by simp, fun id idMem newMem => ?_⟩
    obtain ⟨run, runMem, rfl⟩ := List.mem_map.mp idMem
    simp only [List.map_cons, List.map_nil, List.mem_singleton] at newMem
    exact Nat.lt_irrefl _ (newMem ▸ consistent.idBound run runMem)

theorem Consistent.complete {gate : Gate} (consistent : gate.Consistent)
    {finisher : Admission} (finisherMem : finisher ∈ gate.admitted) :
    Consistent { gate with
      tracker := gate.tracker.complete finisher.agentKey
      admitted := gate.admitted.map finisher.finish } where
  holderEntry := by
    simp only [List.mem_map]
    rintro _ ⟨run, runMem, rfl⟩ holds
    obtain ⟨untouched, -, keyNe⟩ := Admission.finish_of_holds holds
    rw [untouched] at holds ⊢
    rw [RunTracker.get_complete, if_neg keyNe]
    exact consistent.holderEntry run runMem holds
  holderUnique := holderUnique_map (fun _ holds => (Admission.finish_of_holds holds).1)
    consistent.holderUnique
  entryHolder := by
    intro key info found
    rw [RunTracker.get_complete] at found
    split_ifs at found with keyNe
    obtain ⟨run, runMem, runKey, holds⟩ := consistent.entryHolder key info found
    have idNe : run.id ≠ finisher.id := fun idEq =>
      keyNe (runKey ▸ congrArg Admission.agentKey
        (List.inj_on_of_nodup_map consistent.idNodup runMem finisherMem idEq))
    have untouched : finisher.finish run = run := by
      simp [Admission.finish, idNe, runKey, keyNe]
    exact ⟨run, untouched ▸ List.mem_map_of_mem _ runMem, runKey, holds⟩
  accounted := by
    simp only [List.mem_map]
    rintro _ ⟨run, runMem, rfl⟩ released
    unfold Admission.finish at released ⊢
    split_ifs at released ⊢
    · exact Or.inl rfl
    · exact Or.inr (Or.inr rfl)
    · exact consistent.accounted run runMem released
  idBound := by
    simp only [List.mem_map, List.length_map]
    rintro _ ⟨run, runMem, rfl⟩
    simpa using consistent.idBound run runMem
  idNodup := by
    simpa [List.map_map, Function.comp_def] using consistent.idNodup

theorem Consistent.cleanStale {gate : Gate} (consistent : gate.Consistent) (maxAge : Int) :
    Consistent { gate with
      tracker := (gate.tracker.cleanStale maxAge gate.clock).2
      admitted := gate.admitted.map (Admission.evict maxAge gate.clock) } where
  holderEntry := by
    simp only [List.mem_map]
    rintro _ ⟨run, runMem, rfl⟩ holds
    obtain ⟨untouched, fresh⟩ := Admission.evict_of_holds holds
    rw [untouched] at holds ⊢
    simp [consistent.holderEntry run runMem holds, fresh]
  holderUnique := holderUnique_map (fun _ holds => (Admission.evict_of_holds holds).1)
    consistent.holderUnique
  entryHolder := by
    intro key info found
    simp only [RunTracker.get_cleanStale, Option.filter_eq_some, Option.mem_def,
      Bool.not_eq_true'] at found
    obtain ⟨run, runMem, runKey, holds⟩ := consistent.entryHolder key info found.1
    have infoEq : run.info = info := Option.some.inj
      ((consistent.holderEntry run runMem holds).symm.trans (runKey ▸ found.1))
    have untouched : run.evict maxAge gate.clock = run := by
      simp [Admission.evict, infoEq, found.2]
    exact ⟨run, untouched ▸ List.mem_map_of_mem _ runMem, runKey, holds⟩
  accounted := by
    simp only [List.mem_map]
    rintro _ ⟨run, runMem, rfl⟩ released
    unfold Admission.evict at released ⊢
    split_ifs at released ⊢
    · exact Or.inr (Or.inl rfl)
    · exact consistent.accounted run runMem released
  idBound := by
    simp only [List.mem_map, List.length_map]
    rintro _ ⟨run, runMem, rfl⟩
    simpa using consistent.idBound run runMem
  idNodup := by
    simpa [List.map_map, Function.comp_def] using consistent.idNodup

theorem Consistent.step {gate next : Gate} (consistent : gate.Consistent) {event : Event}
    (stepped : gate.step event = some next) : next.Consistent := by
  cases event with
  | tryStart agentKey runName =>
      cases found : gate.tracker.get agentKey with
      | none =>
          simp only [Gate.step, RunTracker.tryStart_of_get_none found, if_true,
            Option.some.injEq] at stepped
          exact stepped ▸ consistent.tryStart found runName
      | some info =>
          simp only [Gate.step, RunTracker.tryStart_of_get_some found, Bool.false_eq_true,
            if_false, Option.some.injEq] at stepped
          exact stepped ▸ consistent
  | complete id =>
      simp only [Gate.step] at stepped
      split at stepped
      · rename_i finisher found
        split at stepped
        · cases stepped
        · cases stepped
          exact consistent.complete (List.mem_of_find?_eq_some found)
      · cases stepped
  | cleanStale maxAge =>
      cases stepped
      exact consistent.cleanStale maxAge
  | tick elapsed =>
      cases stepped
      exact ⟨consistent.holderEntry, consistent.holderUnique, consistent.entryHolder,
        consistent.accounted, consistent.idBound, consistent.idNodup⟩

theorem consistent_of_reachable {gate : Gate} (reachable : system.Reachable gate) :
    gate.Consistent :=
  reachable.invariant (fun _ ⟨clock, start⟩ => start ▸ consistent_init clock)
    fun _ _ _ consistent stepped => consistent.step stepped

/-! ## Admission -/

/-- The gate's promise: a `TryStart` for any key would succeed now only if
every run admitted for that key completed or had its own entry evicted. -/
def AdmitsOnlyAfterRelease (gate : Gate) : Prop :=
  ∀ agentKey runName, (gate.tracker.tryStart agentKey runName gate.clock).1 = true →
    ∀ run ∈ gate.admitted, run.agentKey = agentKey →
      run.completed = true ∨ run.evicted = true

/-- At most one admitted run per key has neither completed nor been evicted. -/
def AtMostOneLive (gate : Gate) : Prop :=
  ∀ first ∈ gate.admitted, ∀ second ∈ gate.admitted, first.agentKey = second.agentKey →
    first.completed = false → first.evicted = false →
    second.completed = false → second.evicted = false → first = second

/-- In every reachable state a `TryStart` succeeds only once every run admitted
for its key completed, was evicted, or lost its entry to another run's
`Complete`. -/
theorem tryStart_admits_after_complete_evict_or_release {gate : Gate}
    (reachable : system.Reachable gate) {agentKey runName : String}
    (admits : (gate.tracker.tryStart agentKey runName gate.clock).1 = true) :
    ∀ run ∈ gate.admitted, run.agentKey = agentKey →
      run.completed = true ∨ run.evicted = true ∨ run.released = true := by
  have consistent := consistent_of_reachable reachable
  intro run runMem runKey
  apply consistent.accounted run runMem
  cases holds : run.holds
  · rfl
  · rw [RunTracker.tryStart_fst, ← runKey, consistent.holderEntry run runMem holds] at admits
    cases admits

/-- A run that neither completed, was evicted nor was released still holds its
key. -/
theorem holds_of_live {gate : Gate} (consistent : gate.Consistent) {run : Admission}
    (runMem : run ∈ gate.admitted) (running : run.completed = false)
    (kept : run.evicted = false) (unreleased : run.released = false) : run.holds = true := by
  cases holds : run.holds
  · rcases consistent.accounted run runMem holds with done | done | done <;> simp_all
  · rfl

/-- As long as no run's `Complete` has removed another run's entry, the gate
keeps its promise and admits at most one live run per key. -/
theorem gate_safe_without_late_complete {gate : Gate} (reachable : system.Reachable gate)
    (unreleased : ∀ run ∈ gate.admitted, run.released = false) :
    AdmitsOnlyAfterRelease gate ∧ AtMostOneLive gate := by
  have consistent := consistent_of_reachable reachable
  constructor
  · intro agentKey runName admits run runMem runKey
    have accounted := tryStart_admits_after_complete_evict_or_release reachable admits run
      runMem runKey
    simpa [unreleased run runMem] using accounted
  · intro first firstMem second secondMem keyEq firstRunning firstKept secondRunning secondKept
    exact consistent.holderUnique first firstMem second secondMem
      (holds_of_live consistent firstMem firstRunning firstKept (unreleased first firstMem))
      (holds_of_live consistent secondMem secondRunning secondKept (unreleased second secondMem))
      keyEq

/-- Run `watchman-1` is admitted, `watchman-2` is refused while it runs, and
`watchman-3` is admitted after `watchman-1` completes. -/
def restartSchedule : List Event :=
  [.tryStart "default/watchman" "watchman-1", .tryStart "default/watchman" "watchman-2", .tick 10,
    .complete 0, .tryStart "default/watchman" "watchman-3"]

theorem gate_safe_after_restart :
    ∃ gate, system.replay (init 0) restartSchedule = some gate ∧
      gate.admitted = [⟨0, "default/watchman", "watchman-1", 0, true, false, false, false⟩,
        ⟨1, "default/watchman", "watchman-3", 10, false, false, false, true⟩] ∧
      (∀ run ∈ gate.admitted, run.released = false) ∧
        AdmitsOnlyAfterRelease gate ∧ AtMostOneLive gate := by
  have ran : (system.replay (init 0) restartSchedule).map Gate.admitted =
      some [⟨0, "default/watchman", "watchman-1", 0, true, false, false, false⟩,
        ⟨1, "default/watchman", "watchman-3", 10, false, false, false, true⟩] := by
    decide
  obtain ⟨gate, replayed, admitted⟩ := Option.map_eq_some'.mp ran
  have unreleased : ∀ run ∈ gate.admitted, run.released = false := by
    rw [admitted]
    decide
  exact ⟨gate, replayed, admitted, unreleased, gate_safe_without_late_complete
    (System.reachable_of_replay (System.Reachable.init ⟨0, rfl⟩) replayed) unreleased⟩

/-! ## A late `Complete` -/

/-- Run `watchman-1` is admitted, evicted as stale after ten nanoseconds, and
completes after `watchman-2` was admitted for the same agent. -/
def lateCompleteSchedule : List Event :=
  [.tryStart "default/watchman" "watchman-1", .tick 10, .cleanStale 5,
    .tryStart "default/watchman" "watchman-2", .complete 0]

/-- `watchman-2` after the schedule: admitted, live, and without an entry. -/
def releasedRun : Admission :=
  ⟨1, "default/watchman", "watchman-2", 10, false, false, true, false⟩

/-- `watchman-3`, admitted after the schedule while `watchman-2` still runs. -/
def secondLiveRun : Admission :=
  ⟨2, "default/watchman", "watchman-3", 10, false, false, false, true⟩

theorem late_complete_admits_second_live_run :
    ¬ (∀ gate, system.Reachable gate → AdmitsOnlyAfterRelease gate) ∧
      ¬ (∀ gate, system.Reachable gate → AtMostOneLive gate) := by
  constructor
  · intro safe
    obtain ⟨gate, reachable, replayed⟩ := system.exists_reachable_of_replay ⟨0, rfl⟩
      lateCompleteSchedule
      (fun gate => (gate.tracker.tryStart "default/watchman" "watchman-3" gate.clock).1 &&
        decide (releasedRun ∈ gate.admitted)) (by decide)
    simp only [Bool.and_eq_true, decide_eq_true_eq] at replayed
    have accounted := safe gate reachable _ _ replayed.1 releasedRun replayed.2 rfl
    simp [releasedRun] at accounted
  · intro safe
    obtain ⟨gate, reachable, replayed⟩ := system.exists_reachable_of_replay ⟨0, rfl⟩
      (lateCompleteSchedule ++ [.tryStart "default/watchman" "watchman-3"])
      (fun gate => decide (releasedRun ∈ gate.admitted) && decide (secondLiveRun ∈ gate.admitted))
      (by decide)
    simp only [Bool.and_eq_true, decide_eq_true_eq] at replayed
    have same := safe gate reachable releasedRun replayed.1 secondLiveRun replayed.2 rfl rfl rfl
      rfl rfl
    simp [releasedRun, secondLiveRun] at same

end Gate

end Legator.Scheduler
