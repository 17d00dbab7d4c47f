import Mathlib.Data.List.Sort
import Mathlib.Data.List.Perm.Basic
import Legator.Time
import Legator.Names

/-!
# The retention sweep

`Controller.doScan` of the retention package lists every `AgentRun`, groups the
runs by `namespace/agentRef`, sorts each group newest first, and collects the
terminal runs past the TTL that are not among the first `PreserveMinPerAgent`
of their group. It then cuts the list to `MaxDeleteBatch` entries and issues one
`Delete` per entry.

Two choices of the Go runtime enter the result: `sort.Slice` is not stable, so
runs created at the same instant may come out in either order, and a range over
a map visits the groups in any order. The model takes both as a `Runtime`
whose fields say only what Go guarantees. Runs are told apart by their index in
the listed items, as the Go code tells them apart by `&runList.Items[i]`.
-/

namespace Legator.Retention

open Legator.Time

/-! ## Runs and configuration -/

/-- The phase of an `AgentRun`, a Go string type.
Modelled from the spec: the API package is not among the sources, and the
phase names are the spec's. -/
abbrev RunPhase := String

/-- `RunPhaseSucceeded`. -/
def runPhaseSucceeded : RunPhase := "Succeeded"

/-- `RunPhaseFailed`. -/
def runPhaseFailed : RunPhase := "Failed"

/-- `RunPhaseEscalated`. -/
def runPhaseEscalated : RunPhase := "Escalated"

/-- `RunPhaseBlocked`. -/
def runPhaseBlocked : RunPhase := "Blocked"

/-- `isTerminal`. -/
def isTerminal (phase : RunPhase) : Bool :=
  phase = runPhaseSucceeded || phase = runPhaseFailed || phase = runPhaseEscalated ||
    phase = runPhaseBlocked

/-- The fields of an `AgentRun` that the sweep reads. A Kubernetes namespace
holds no `/`. -/
structure AgentRun where
  name : String
  «namespace» : String
  agentRef : String
  phase : RunPhase
  creationTimestamp : Int
  completionTime : Option Int
  namespaceNoSlash : '/' ∉ «namespace».data
  deriving DecidableEq

/-- The grouping key `namespace/agentRef`. -/
def AgentRun.agentKey (run : AgentRun) : String :=
  run.«namespace» ++ "/" ++ run.agentRef

/-- The time the TTL counts from: `CompletionTime`, or `CreationTimestamp` when
it is absent. -/
def AgentRun.expiry (run : AgentRun) : Int :=
  run.completionTime.getD run.creationTimestamp

/-- Whether two runs belong to the same agent. -/
def AgentRun.sameAgent (run other : AgentRun) : Prop :=
  other.«namespace» = run.«namespace» ∧ other.agentRef = run.agentRef

instance (run other : AgentRun) : Decidable (run.sameAgent other) :=
  inferInstanceAs (Decidable (_ ∧ _))

/-- The namespace holds no `/`, so the key splits at its first `/`. -/
theorem AgentRun.sameAgent_of_agentKey {run other : AgentRun}
    (same : other.agentKey = run.agentKey) : run.sameAgent other := by
  have split := congrArg String.data same
  simp only [agentKey, String.data_append, List.append_assoc, List.singleton_append] at split
  obtain ⟨namespaceSame, agentRefSame⟩ :=
    append_cons_inj_of_not_mem other.namespaceNoSlash run.namespaceNoSlash split
  exact ⟨String.ext namespaceSame, String.ext agentRefSame⟩

/-- `Config`. -/
structure Config where
  ttl : Int
  scanInterval : Int
  maxDeleteBatch : Int
  preserveMinPerAgent : Int

/-- `DefaultConfig`. -/
def defaultConfig : Config :=
  ⟨7 * 24 * hour, 1 * hour, 100, 5⟩

/-- `ScanResult`. -/
structure ScanResult where
  scanned : Nat
  eligible : Nat
  deleted : Nat
  errors : Nat
  deriving DecidableEq, Repr

/-! ## The sweep -/

/-- A listed run and its index among the listed items. -/
abbrev Listed := Nat × AgentRun

/-- The order `sort.Slice` leaves a group in: `first` comes before `later` only
if `later` is not newer, that is, `less(later, first)` is false. -/
def NewestFirst (first later : Listed) : Prop :=
  later.2.creationTimestamp ≤ first.2.creationTimestamp

instance : DecidableRel NewestFirst :=
  fun _ _ => inferInstanceAs (Decidable (_ ≤ _))

/-- What the Go runtime chooses in one sweep. `sortSlice` is `sort.Slice` with
the newest-first order: some permutation sorted by `NewestFirst`. `rangeOrder`
is the order of a range over the `byAgent` map. -/
structure Runtime where
  sortSlice : List Listed → List Listed
  sortSlice_perm : ∀ runs, (sortSlice runs).Perm runs
  sortSlice_sorted : ∀ runs, (sortSlice runs).Sorted NewestFirst
  rangeOrder : List (String × List Listed) → List (String × List Listed)
  rangeOrder_perm : ∀ groups, (rangeOrder groups).Perm groups

instance : IsTotal Listed NewestFirst :=
  ⟨fun _ _ => Int.le_total _ _⟩

instance : IsTrans Listed NewestFirst :=
  ⟨fun _ _ _ firstLater laterLast => Int.le_trans laterLast firstLater⟩

/-- A runtime that sorts by insertion and ranges over the groups in the order
they were made. -/
def insertionRuntime : Runtime :=
  ⟨List.insertionSort NewestFirst, List.perm_insertionSort _, List.sorted_insertionSort _, id,
    List.Perm.refl⟩

/-- `byAgent[agentKey] = append(byAgent[agentKey], run)`: append to the key's
group, or start one. -/
def appendToGroup (agentKey : String) (run : Listed) :
    List (String × List Listed) → List (String × List Listed)
  | [] => [(agentKey, [run])]
  | (key, runs) :: groups =>
      if key = agentKey then (key, runs ++ [run]) :: groups
      else (key, runs) :: appendToGroup agentKey run groups

/-- The grouping loop of `doScan`. -/
def byAgent (items : List Listed) : List (String × List Listed) :=
  items.foldl (fun groups run => appendToGroup run.2.agentKey run groups) []

/-- The inner loop of `doScan` over one group, newest first, from position
`i`: skip runs that are not terminal, the first `PreserveMinPerAgent`, and runs
not past `cutoff`. -/
def collectExpired (config : Config) (cutoff : Int) : Nat → List Listed → List Listed
  | _, [] => []
  | i, run :: runs =>
      if !isTerminal run.2.phase then collectExpired config cutoff (i + 1) runs
      else if (i : Int) < config.preserveMinPerAgent then collectExpired config cutoff (i + 1) runs
      else if run.2.expiry < cutoff then run :: collectExpired config cutoff (i + 1) runs
      else collectExpired config cutoff (i + 1) runs

/-- `toDelete[:MaxDeleteBatch]` when the list is longer; a negative bound makes
the slice expression panic. -/
def batchLimit (maxDeleteBatch : Int) (toDelete : List Listed) : Except String (List Listed) :=
  if (toDelete.length : Int) > maxDeleteBatch then
    if maxDeleteBatch < 0 then
      .error ("runtime error: slice bounds out of range [:" ++ toString maxDeleteBatch ++ "]")
    else .ok (toDelete.take maxDeleteBatch.toNat)
  else .ok toDelete

/-- The deleting loop: one `Delete` per run, whose outcome `deleteSucceeds`
gives. -/
def deleteAll (deleteSucceeds : Nat → Bool) : List Listed → ScanResult → ScanResult
  | [], result => result
  | run :: runs, result =>
      deleteAll deleteSucceeds runs
        (if deleteSucceeds run.1 then { result with deleted := result.deleted + 1 }
        else { result with errors := result.errors + 1 })

/-- The groups of the listed items, each sorted newest first, in the order the
second range over `byAgent` visits them. -/
def sortedGroups (runtime : Runtime) (items : List AgentRun) : List (String × List Listed) :=
  runtime.rangeOrder ((byAgent items.enum).map fun group => (group.1, runtime.sortSlice group.2))

/-- `toDelete` before the batch limit: the expired runs of every group, past the
cutoff `now - TTL`. -/
def eligibleRuns (config : Config) (runtime : Runtime) (now : Int) (items : List AgentRun) :
    List Listed :=
  (sortedGroups runtime items).flatMap fun group => collectExpired config (now - config.ttl) 0 group.2

/-- `doScan` at clock reading `now`, on the outcome of the `List` call: the
result, and the runs it issued a `Delete` for, in order. A panic is an error. -/
def doScan (config : Config) (runtime : Runtime) (now : Int)
    (listed : Except String (List AgentRun)) (deleteSucceeds : Nat → Bool) :
    Except String (ScanResult × List Listed) :=
  match listed with
  | .error _ => .ok (⟨0, 0, 0, 1⟩, [])
  | .ok items =>
      let toDelete := eligibleRuns config runtime now items
      match batchLimit config.maxDeleteBatch toDelete with
      | .error panic => .error panic
      | .ok batch =>
          .ok (deleteAll deleteSucceeds batch ⟨items.length, toDelete.length, 0, 0⟩, batch)

/-! ## Grouping -/

/-- Every run of a group has the group's key. -/
def Keyed (groups : List (String × List Listed)) : Prop :=
  ∀ group ∈ groups, ∀ run ∈ group.2, run.2.agentKey = group.1

theorem keyed_appendToGroup (run : Listed) :
    ∀ {groups}, Keyed groups → Keyed (appendToGroup run.2.agentKey run groups)
  | [], _ => fun group mem other member => by
      simp only [appendToGroup, List.mem_singleton] at mem
      subst mem
      rw [List.mem_singleton.mp member]
  | (key, runs) :: groups, keyed => by
      have rest : Keyed groups := fun group mem => keyed group (List.mem_cons_of_mem _ mem)
      unfold appendToGroup
      split_ifs with same
      · intro group mem other member
        rcases List.mem_cons.mp mem with rfl | mem
        · rcases List.mem_append.mp member with old | new
          · exact keyed _ (List.mem_cons_self _ _) _ old
          · rw [List.mem_singleton.mp new]; exact same.symm
        · exact rest group mem other member
      · intro group mem other member
        rcases List.mem_cons.mp mem with rfl | mem
        · exact keyed _ (List.mem_cons_self _ _) _ member
        · exact keyed_appendToGroup run rest group mem other member

theorem flatMap_appendToGroup_perm (agentKey : String) (run : Listed) :
    ∀ groups, ((appendToGroup agentKey run groups).flatMap Prod.snd).Perm
      (groups.flatMap Prod.snd ++ [run])
  | [] => List.Perm.refl _
  | (key, runs) :: groups => by
      unfold appendToGroup
      split_ifs
      · simp only [List.flatMap_cons, List.append_assoc]
        exact List.Perm.append_left runs List.perm_append_comm
      · simp only [List.flatMap_cons, List.append_assoc]
        exact List.Perm.append_left runs (flatMap_appendToGroup_perm agentKey run groups)

theorem byAgent_keyed (items : List Listed) : Keyed (byAgent items) := by
  suffices ∀ groups, Keyed groups →
      Keyed (items.foldl (fun groups run => appendToGroup run.2.agentKey run groups) groups) from
    this [] (by simp [Keyed])
  induction items with
  | nil => exact fun _ keyed => keyed
  | cons run items inductionHypothesis =>
      exact fun groups keyed => inductionHypothesis _ (keyed_appendToGroup run keyed)

/-- The groups hold every listed run exactly once. -/
theorem byAgent_perm (items : List Listed) : ((byAgent items).flatMap Prod.snd).Perm items := by
  suffices ∀ groups, ((items.foldl (fun groups run => appendToGroup run.2.agentKey run groups)
      groups).flatMap Prod.snd).Perm (groups.flatMap Prod.snd ++ items) by simpa using this []
  induction items with
  | nil => exact fun groups => by simp
  | cons run items inductionHypothesis =>
      intro groups
      refine (inductionHypothesis _).trans ?_
      rw [← List.singleton_append, ← List.append_assoc]
      exact (flatMap_appendToGroup_perm _ run groups).append_right items

theorem sortedGroups_keyed (runtime : Runtime) (items : List AgentRun) :
    Keyed (sortedGroups runtime items) := by
  intro group mem run member
  obtain ⟨original, originalMem, rfl⟩ :=
    List.mem_map.mp ((runtime.rangeOrder_perm _).subset mem)
  exact byAgent_keyed _ original originalMem run ((runtime.sortSlice_perm _).subset member)

theorem sortedGroups_perm (runtime : Runtime) (items : List AgentRun) :
    ((sortedGroups runtime items).flatMap Prod.snd).Perm items.enum := by
  refine ((runtime.rangeOrder_perm _).flatMap_right _).trans ?_
  refine List.Perm.trans ?_ (byAgent_perm items.enum)
  rw [List.flatMap_map]
  exact List.Perm.flatMap_left _ fun group _ => runtime.sortSlice_perm group.2

/-! ## What the inner loop collects -/

/-- A run the inner loop collects sits in its group after at least
`PreserveMinPerAgent` others, and is terminal and past the cutoff. -/
theorem mem_collectExpired {config : Config} {cutoff : Int} {run : Listed} :
    ∀ {i : Nat} {runs : List Listed}, run ∈ collectExpired config cutoff i runs →
      ∃ before after, runs = before ++ run :: after ∧ isTerminal run.2.phase ∧
        config.preserveMinPerAgent ≤ ((i + before.length : Nat) : Int) ∧ run.2.expiry < cutoff
  | _, [], mem => absurd mem (List.not_mem_nil _)
  | i, first :: runs, mem => by
      have later (mem : run ∈ collectExpired config cutoff (i + 1) runs) :
          ∃ before after, first :: runs = before ++ run :: after ∧ isTerminal run.2.phase ∧
            config.preserveMinPerAgent ≤ ((i + before.length : Nat) : Int) ∧
            run.2.expiry < cutoff := by
        obtain ⟨before, after, rfl, terminal, preserved, expired⟩ := mem_collectExpired mem
        refine ⟨first :: before, after, rfl, terminal, ?_, expired⟩
        simp only [List.length_cons] at preserved ⊢
        omega
      unfold collectExpired at mem
      split_ifs at mem with notTerminal kept expired
      · exact later mem
      · exact later mem
      · rcases List.mem_cons.mp mem with rfl | mem
        · exact ⟨[], runs, rfl, by simpa using notTerminal, by simpa using kept, expired⟩
        · exact later mem
      · exact later mem

theorem collectExpired_sublist (config : Config) (cutoff : Int) :
    ∀ (i : Nat) (runs : List Listed), (collectExpired config cutoff i runs).Sublist runs
  | _, [] => List.Sublist.refl _
  | i, run :: runs => by
      unfold collectExpired
      split_ifs
      · exact (collectExpired_sublist config cutoff (i + 1) runs).cons run
      · exact (collectExpired_sublist config cutoff (i + 1) runs).cons run
      · exact (collectExpired_sublist config cutoff (i + 1) runs).cons₂ run
      · exact (collectExpired_sublist config cutoff (i + 1) runs).cons run

theorem flatMap_sublist_flatMap {α β : Type} {f g : α → List β} :
    ∀ {l : List α}, (∀ a ∈ l, (f a).Sublist (g a)) → (l.flatMap f).Sublist (l.flatMap g)
  | [], _ => List.Sublist.refl _
  | a :: l, sublist => by
      simp only [List.flatMap_cons]
      exact (sublist a (List.mem_cons_self a l)).append
        (flatMap_sublist_flatMap fun b mem => sublist b (List.mem_cons_of_mem a mem))

/-! ## Every `Delete` of a sweep -/

/-- The listed runs are told apart by their indices. -/
theorem enum_map_fst_nodup (items : List AgentRun) : (items.enum.map Prod.fst).Nodup := by
  rw [List.enum_map_fst]
  exact List.nodup_range _

theorem sortedGroups_ids_nodup (runtime : Runtime) (items : List AgentRun) :
    (((sortedGroups runtime items).flatMap Prod.snd).map Prod.fst).Nodup :=
  ((sortedGroups_perm runtime items).map Prod.fst).nodup_iff.mpr (enum_map_fst_nodup items)

/-- No run is collected twice. -/
theorem eligibleRuns_ids_nodup (config : Config) (runtime : Runtime) (now : Int)
    (items : List AgentRun) : ((eligibleRuns config runtime now items).map Prod.fst).Nodup :=
  (sortedGroups_ids_nodup runtime items).sublist
    ((flatMap_sublist_flatMap fun group _ => collectExpired_sublist _ _ 0 group.2).map _)

/-- A group of the sweep is sorted newest first. -/
theorem sorted_of_mem_sortedGroups {runtime : Runtime} {items : List AgentRun}
    {group : String × List Listed} (mem : group ∈ sortedGroups runtime items) :
    group.2.Sorted NewestFirst := by
  obtain ⟨original, -, rfl⟩ := List.mem_map.mp ((runtime.rangeOrder_perm _).subset mem)
  exact runtime.sortSlice_sorted original.2

/-- The runs listed after `run` that belong to its agent and are no older. -/
def newerSiblings (items : List AgentRun) (run : Listed) : List Listed :=
  items.enum.filter fun other =>
    other.1 ≠ run.1 ∧ run.2.sameAgent other.2 ∧ run.2.creationTimestamp ≤ other.2.creationTimestamp

/-- Every run the sweep collects is a listed run, terminal, past the cutoff, and
has at least `PreserveMinPerAgent` newer siblings. -/
theorem mem_eligibleRuns {config : Config} {runtime : Runtime} {now : Int}
    {items : List AgentRun} {run : Listed} (mem : run ∈ eligibleRuns config runtime now items) :
    items[run.1]? = some run.2 ∧ isTerminal run.2.phase ∧ run.2.expiry < now - config.ttl ∧
      config.preserveMinPerAgent ≤ ((newerSiblings items run).length : Int) := by
  obtain ⟨group, groupMem, collected⟩ := List.mem_flatMap.mp mem
  obtain ⟨before, after, split, terminal, preserved, expired⟩ := mem_collectExpired collected
  have listed (other : Listed) (member : other ∈ group.2) : other ∈ items.enum :=
    (sortedGroups_perm runtime items).subset (List.mem_flatMap.mpr ⟨group, groupMem, member⟩)
  have ids : ((before ++ run :: after).map Prod.fst).Nodup := split ▸
    (sortedGroups_ids_nodup runtime items).sublist
      ((List.sublist_flatten_of_mem (List.mem_map_of_mem Prod.snd groupMem)).map Prod.fst)
  have sorted := split ▸ sorted_of_mem_sortedGroups groupMem
  have runListed := listed run (split ▸ List.mem_append_right _ (List.mem_cons_self _ _))
  obtain ⟨bound, entry⟩ := List.mem_enum runListed
  refine ⟨List.getElem?_eq_some_iff.mpr ⟨bound, entry.symm⟩, terminal, expired, ?_⟩
  have siblings : before ⊆ newerSiblings items run := by
    intro other member
    have otherListed := listed other (split ▸ List.mem_append_left _ member)
    have sameKey := (sortedGroups_keyed runtime items group groupMem other
      (split ▸ List.mem_append_left _ member)).trans
      (sortedGroups_keyed runtime items group groupMem run
        (split ▸ List.mem_append_right _ (List.mem_cons_self _ _))).symm
    have differs : other.1 ≠ run.1 := by
      rw [List.map_append, List.map_cons, List.nodup_append] at ids
      exact fun same => ids.2.2 (List.mem_map_of_mem Prod.fst member)
        (same ▸ List.mem_cons_self _ _)
    have newer : NewestFirst other run :=
      (List.pairwise_append.mp sorted).2.2 other member run (List.mem_cons_self _ _)
    simp only [newerSiblings, List.mem_filter, decide_eq_true_eq]
    exact ⟨otherListed, differs, AgentRun.sameAgent_of_agentKey sameKey, newer⟩
  have beforeNodup : before.Nodup :=
    (List.nodup_append.mp (List.Nodup.of_map Prod.fst ids)).1
  have counted := (List.subperm_of_subset beforeNodup siblings).length_le
  omega

/-- The batch limit keeps a prefix, or panics. -/
theorem batchLimit_initialSegment {maxDeleteBatch : Int} {toDelete batch : List Listed}
    (limited : batchLimit maxDeleteBatch toDelete = .ok batch) : batch.IsPrefix toDelete := by
  unfold batchLimit at limited
  split_ifs at limited <;> cases limited
  · exact List.take_prefix _ _
  · exact List.prefix_refl _

/-- The `Delete` calls of a sweep that lists `items` are a prefix of the
eligible runs. -/
theorem doScan_calls_initialSegment {config : Config} {runtime : Runtime} {now : Int}
    {items : List AgentRun} {deleteSucceeds : Nat → Bool} {result : ScanResult}
    {calls : List Listed}
    (scan : doScan config runtime now (.ok items) deleteSucceeds = .ok (result, calls)) :
    calls.IsPrefix (eligibleRuns config runtime now items) := by
  simp only [doScan] at scan
  split at scan
  · cases scan
  · rename_i batch limited
    cases scan
    exact batchLimit_initialSegment limited

/-- A sweep issues at most one `Delete` per listed run, and only for a listed run
that is terminal, past the TTL, and has at least `PreserveMinPerAgent` listed
siblings no older than itself, whatever the `Delete` calls return. -/
theorem doScan_deletes_only_expired {config : Config} {runtime : Runtime} {now : Int}
    {items : List AgentRun} {deleteSucceeds : Nat → Bool} {result : ScanResult}
    {calls : List Listed}
    (scan : doScan config runtime now (.ok items) deleteSucceeds = .ok (result, calls)) :
    (calls.map Prod.fst).Nodup ∧ ∀ call ∈ calls, items[call.1]? = some call.2 ∧
      isTerminal call.2.phase ∧ call.2.expiry < now - config.ttl ∧
      config.preserveMinPerAgent ≤ ((newerSiblings items call).length : Int) :=
  ⟨(eligibleRuns_ids_nodup config runtime now items).sublist
      ((doScan_calls_initialSegment scan).sublist.map Prod.fst),
    fun _ mem => mem_eligibleRuns ((doScan_calls_initialSegment scan).subset mem)⟩

/-! ## The batch limit -/

/-- The deleting loop makes one call per run, which adds to `Deleted` or to
`Errors`; the other counts stay. -/
theorem deleteAll_counts (deleteSucceeds : Nat → Bool) :
    ∀ (batch : List Listed) (result : ScanResult),
      (deleteAll deleteSucceeds batch result).deleted +
          (deleteAll deleteSucceeds batch result).errors =
        result.deleted + result.errors + batch.length ∧
      (deleteAll deleteSucceeds batch result).eligible = result.eligible
  | [], _ => ⟨rfl, rfl⟩
  | run :: runs, result => by
      simp only [deleteAll, List.length_cons]
      split_ifs
      · obtain ⟨counted, eligible⟩ :=
          deleteAll_counts deleteSucceeds runs { result with deleted := result.deleted + 1 }
        exact ⟨by rw [counted]; simp only; omega, eligible⟩
      · obtain ⟨counted, eligible⟩ :=
          deleteAll_counts deleteSucceeds runs { result with errors := result.errors + 1 }
        exact ⟨by rw [counted]; simp only; omega, eligible⟩

theorem batchLimit_of_nonneg {maxDeleteBatch : Int} (nonneg : 0 ≤ maxDeleteBatch)
    (toDelete : List Listed) :
    batchLimit maxDeleteBatch toDelete = .ok (toDelete.take maxDeleteBatch.toNat) := by
  unfold batchLimit
  split_ifs with longer negative
  · omega
  · rfl
  · rw [List.take_of_length_le (by omega)]

theorem batchLimit_of_neg {maxDeleteBatch : Int} (negative : maxDeleteBatch < 0)
    (toDelete : List Listed) :
    batchLimit maxDeleteBatch toDelete =
      .error ("runtime error: slice bounds out of range [:" ++ toString maxDeleteBatch ++ "]") := by
  unfold batchLimit
  rw [if_pos (by omega), if_pos negative]

/-- A negative `MaxDeleteBatch` makes every sweep whose `List` call succeeds
panic at `toDelete[:MaxDeleteBatch]`, whether or not any run is eligible. -/
theorem negative_batch_panics (config : Config) (runtime : Runtime) (now : Int)
    (items : List AgentRun) (deleteSucceeds : Nat → Bool) (negative : config.maxDeleteBatch < 0) :
    doScan config runtime now (.ok items) deleteSucceeds =
      .error ("runtime error: slice bounds out of range [:" ++
        toString config.maxDeleteBatch ++ "]") := by
  simp only [doScan, batchLimit_of_neg negative]

theorem empty_sweep_batch_minus_one :
    ({ defaultConfig with maxDeleteBatch := -1 } : Config).maxDeleteBatch < 0 ∧
      doScan { defaultConfig with maxDeleteBatch := -1 } insertionRuntime 0 (.ok []) (fun _ => true) =
        .error "runtime error: slice bounds out of range [:-1]" :=
  ⟨by decide, negative_batch_panics _ _ _ _ _ (by decide)⟩

/-- With a `MaxDeleteBatch` that is not negative, a sweep returns, makes
`min(Eligible, MaxDeleteBatch)` `Delete` calls, and counts each call once, in
`Deleted` or in `Errors`. -/
theorem doScan_batch_bounded (config : Config) (runtime : Runtime) (now : Int)
    (items : List AgentRun) (deleteSucceeds : Nat → Bool) (nonneg : 0 ≤ config.maxDeleteBatch) :
    ∃ result calls, doScan config runtime now (.ok items) deleteSucceeds = .ok (result, calls) ∧
      result.eligible = (eligibleRuns config runtime now items).length ∧
      (calls.length : Int) = min (result.eligible : Int) config.maxDeleteBatch ∧
      result.deleted + result.errors = calls.length := by
  let batch := (eligibleRuns config runtime now items).take config.maxDeleteBatch.toNat
  let start : ScanResult := ⟨items.length, (eligibleRuns config runtime now items).length, 0, 0⟩
  obtain ⟨counted, eligible⟩ := deleteAll_counts deleteSucceeds batch start
  refine ⟨deleteAll deleteSucceeds batch start, batch,
    by simp only [doScan, batchLimit_of_nonneg nonneg, batch, start], eligible, ?_, ?_⟩
  · simp only [eligible, batch, start, List.length_take]
    omega
  · rw [counted]
    simp [start]

/-- The runs of `TestRetention_DeletesExpired`, with the clock at zero: one
hour to twenty days old, in several phases. -/
def testRuns : List AgentRun :=
  let run := fun (phase : RunPhase) (age : Int) =>
    (⟨"", "default", "watchman", phase, -age, some (-age), by decide⟩ : AgentRun)
  [run runPhaseSucceeded hour, run runPhaseSucceeded (8 * 24 * hour),
    run runPhaseFailed (10 * 24 * hour), run runPhaseSucceeded (12 * 24 * hour),
    run runPhaseSucceeded (14 * 24 * hour), run runPhaseEscalated (16 * 24 * hour),
    run runPhaseBlocked (20 * 24 * hour)]

/-- Four of the test runs are expired past the three kept, and a batch of two
makes `min 4 2` `Delete` calls. -/
theorem four_expired_in_batch_of_two :
    (eligibleRuns ⟨7 * 24 * hour, hour, 2, 3⟩ insertionRuntime 0 testRuns).length = 4 ∧
      ∃ result calls,
        doScan ⟨7 * 24 * hour, hour, 2, 3⟩ insertionRuntime 0 (.ok testRuns) (fun _ => true) =
          .ok (result, calls) ∧
        result.eligible = (eligibleRuns ⟨7 * 24 * hour, hour, 2, 3⟩ insertionRuntime 0 testRuns).length ∧
        (calls.length : Int) = min (result.eligible : Int) (⟨7 * 24 * hour, hour, 2, 3⟩ : Config).maxDeleteBatch ∧
        result.deleted + result.errors = calls.length :=
  ⟨rfl, doScan_batch_bounded _ _ _ _ _ (by decide)⟩

/-- `TestRetention_DeletesExpired`. -/
example :
    (doScan ⟨7 * 24 * hour, hour, 100, 3⟩ insertionRuntime 0 (.ok testRuns) fun _ => true).map
      Prod.fst = .ok ⟨7, 4, 4, 0⟩ := by
  rfl

end Legator.Retention
