import Legator.System
import Legator.Retention.Controller

/-!
# Sweeps over the run store

The sweep runs on a timer against the cluster's `AgentRun`s, which the rest of
the controller creates and moves through their phases in between. The store
keeps each run under an id the API server gives it at creation, with the clock
reading as its creation time; a status update may set any phase and completion
time, and a sweep lists the store, runs `doScan` on the list, and removes the
runs whose `Delete` succeeded. A sweep that panics removes nothing.
-/

namespace Legator.Retention

/-- The cluster's `AgentRun`s under their ids, the next id, and the clock. -/
structure Store where
  runs : List (Nat × AgentRun)
  nextUid : Nat
  clock : Int

/-- What happens to the store: a run is created, a run's status is written, the
clock advances, or the retention controller sweeps. -/
inductive StoreEvent
  | create (run : AgentRun)
  | update (uid : Nat) (phase : RunPhase) (completionTime : Option Int)
  | tick (elapsed : Nat)
  | sweep (config : Config) (runtime : Runtime) (deleteSucceeds : Nat → Bool)

namespace Store

/-- An empty store at clock reading `clock`. -/
def init (clock : Int) : Store :=
  ⟨[], 0, clock⟩

/-- The runs left when the `Delete` calls `calls` were issued for positions of
the list, and those for which `deleteSucceeds` holds went through. -/
def removeDeleted (runs : List (Nat × AgentRun)) (calls : List Listed)
    (deleteSucceeds : Nat → Bool) : List (Nat × AgentRun) :=
  (runs.enum.filter fun entry => !(entry.1 ∈ calls.map Prod.fst && deleteSucceeds entry.1)).map
    Prod.snd

/-- One step of the store. -/
def step (store : Store) : StoreEvent → Option Store
  | .create run =>
      some { store with
        runs := store.runs ++ [(store.nextUid, { run with creationTimestamp := store.clock })]
        nextUid := store.nextUid + 1 }
  | .update uid phase completionTime =>
      some { store with
        runs := store.runs.map fun entry =>
          if entry.1 = uid then (uid, { entry.2 with phase := phase, completionTime := completionTime })
          else entry }
  | .tick elapsed => some { store with clock := store.clock + elapsed }
  | .sweep config runtime deleteSucceeds =>
      match doScan config runtime store.clock (.ok (store.runs.map Prod.snd)) deleteSucceeds with
      | .ok (_, calls) => some { store with runs := removeDeleted store.runs calls deleteSucceeds }
      | .error _ => some store

/-- An empty store, and every sequence of steps from it. -/
def system : System Store StoreEvent :=
  ⟨fun store => ∃ clock, store = init clock, step⟩

/-- A run whose id is gone after a sweep sat at a position the sweep deleted. -/
theorem deleted_of_removed {runs : List (Nat × AgentRun)} {calls : List Listed}
    {deleteSucceeds : Nat → Bool} {uid : Nat} {run : AgentRun} (present : (uid, run) ∈ runs)
    (removed : uid ∉ (removeDeleted runs calls deleteSucceeds).map Prod.fst) :
    ∃ i, runs[i]? = some (uid, run) ∧ i ∈ calls.map Prod.fst := by
  obtain ⟨i, found⟩ := List.mem_iff_getElem?.mp present
  refine ⟨i, found, ?_⟩
  by_contra notCalled
  apply removed
  refine List.mem_map_of_mem Prod.fst (List.mem_map.mpr ⟨(i, (uid, run)), ?_, rfl⟩)
  refine List.mem_filter.mpr ⟨List.mem_enum_iff_getElem?.mpr found, ?_⟩
  simp [notCalled]

/-- Only a sweep removes a run, and it removes only a run that was terminal and
past the TTL, and that had at least `PreserveMinPerAgent` listed siblings no
older than itself. -/
theorem step_removes_only_expired {store store' : Store} {event : StoreEvent} {uid : Nat}
    {run : AgentRun} (stepped : store.step event = some store') (present : (uid, run) ∈ store.runs)
    (removed : uid ∉ store'.runs.map Prod.fst) :
    ∃ config runtime deleteSucceeds i, event = .sweep config runtime deleteSucceeds ∧
      store.runs[i]? = some (uid, run) ∧ isTerminal run.phase ∧
      run.expiry < store.clock - config.ttl ∧
      config.preserveMinPerAgent ≤ ((newerSiblings (store.runs.map Prod.snd) (i, run)).length : Int) := by
  have kept : uid ∈ store.runs.map Prod.fst := List.mem_map_of_mem Prod.fst present
  cases event with
  | create created =>
      cases stepped
      exact absurd (List.mem_map_of_mem Prod.fst (List.mem_append_left _ present)) removed
  | update target phase completionTime =>
      cases stepped
      refine absurd ?_ removed
      rw [List.map_map]
      refine List.mem_map.mpr ⟨(uid, run), present, ?_⟩
      by_cases same : uid = target <;> simp [same]
  | tick elapsed =>
      cases stepped
      exact absurd kept removed
  | sweep config runtime deleteSucceeds =>
      simp only [step] at stepped
      split at stepped
      · rename_i result calls scan
        cases stepped
        obtain ⟨i, found, called⟩ := deleted_of_removed present removed
        obtain ⟨call, callMem, rfl⟩ := List.mem_map.mp called
        obtain ⟨listed, terminal, expired, preserved⟩ :=
          mem_eligibleRuns ((doScan_calls_initialSegment scan).subset callMem)
        have same : call.2 = run := by
          rw [List.getElem?_map, found] at listed
          exact (Option.some.inj listed).symm
        exact ⟨config, runtime, deleteSucceeds, call.1, rfl, found, same ▸ terminal, same ▸ expired,
          same ▸ preserved⟩
      · cases stepped
        exact absurd kept removed

end Store

/-- A run of `watchman` that succeeded at clock reading zero. -/
def succeededAtZero : AgentRun :=
  ⟨"watchman-1", "default", "watchman", runPhaseSucceeded, 0, some 0, by decide⟩

/-- A sweep with a one-week TTL that keeps no run per agent, whose `Delete`
calls all go through. -/
def weekSweep : StoreEvent :=
  .sweep ⟨7 * 24 * Time.hour, Time.hour, 100, 0⟩ insertionRuntime fun _ => true

end Legator.Retention
