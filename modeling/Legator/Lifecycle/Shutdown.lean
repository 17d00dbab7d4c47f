import Mathlib.Data.List.Nodup
import Legator.System
import Legator.Time

/-!
# Draining runs at shutdown

`ShutdownManager` of the lifecycle package keeps a registry of the cancel
functions of running agent runs, and `WaitForDrain` waits, polling the
scheduler's in-flight count every 500 ms, until the count is zero or the drain
timeout passes; at the timeout it cancels every registered run.

`WaitForDrain` holds no lock while it reads the count, and `cancelAll` takes
the registry's lock only for its own loop, so registrations, deregistrations
and changes of the count interleave with every read of the count and with the
gap between the deadline's read and `cancelAll`, and between `cancelAll` and
the return. The model makes `WaitForDrain` a thread whose steps are those
reads, `cancelAll`, and the return. The tracker is the scheduler's
`RunTracker`, whose count is the size of a map. A cancel function is known by a
number; the model records every call of one.
-/

namespace Legator.Lifecycle

open Legator.Time

/-- Where `WaitForDrain` is: not called, in its polling loop with the
deadline and the next tick, about to run `cancelAll`, about to return, or
returned. -/
inductive Drain
  | idle
  | waiting (deadline nextTick : Int)
  | cancelling (remaining : Nat)
  | returning (remaining : Nat)
  | done (result : Nat)
  deriving DecidableEq

/-- The three places where `WaitForDrain` reads the tracker's count. -/
inductive Read
  | start
  | tick
  | deadline
  deriving DecidableEq

/-- The registry, the tracker's count, the clock, the drain timeout and where
`WaitForDrain` is; the cancel functions called so far; and, for the proofs
only, the counts `WaitForDrain` read, the registry when the deadline's count
was read, and the registry `cancelAll` found. -/
structure ShutdownState where
  cancels : List (String × Nat)
  inFlight : Nat
  clock : Int
  drainTimeout : Int
  drain : Drain
  invoked : List Nat
  observed : List (Read × Nat)
  atDeadline : List (String × Nat)
  atCancel : List (String × Nat)

/-- The calls on the manager, the runs changing the count, the clock, and the
steps of `WaitForDrain`. -/
inductive ShutdownEvent
  | registerRun (key : String) (cancel : Nat)
  | deregisterRun (key : String)
  | setInFlight (count : Nat)
  | advance (elapsed : Nat)
  | waitForDrain
  | tick
  | deadline
  | cancelAll
  | finish

namespace ShutdownState

/-- The ticker's period. -/
def tickPeriod : Int :=
  500 * millisecond

/-- One step. -/
def step (s : ShutdownState) : ShutdownEvent → Option ShutdownState
  | .registerRun key cancel =>
      some { s with cancels := s.cancels.filter (·.1 ≠ key) ++ [(key, cancel)] }
  | .deregisterRun key => some { s with cancels := s.cancels.filter (·.1 ≠ key) }
  | .setInFlight count => some { s with inFlight := count }
  | .advance elapsed => some { s with clock := s.clock + elapsed }
  | .waitForDrain =>
      match s.drain with
      | .idle =>
          some { s with
            observed := s.observed ++ [(.start, s.inFlight)]
            drain := if s.inFlight = 0 then .done 0
              else .waiting (s.clock + s.drainTimeout) (s.clock + tickPeriod) }
      | _ => none
  | .tick =>
      match s.drain with
      | .waiting deadline nextTick =>
          if nextTick ≤ s.clock then
            some { s with
              observed := s.observed ++ [(.tick, s.inFlight)]
              drain := if s.inFlight = 0 then .done 0 else .waiting deadline (nextTick + tickPeriod) }
          else none
      | _ => none
  | .deadline =>
      match s.drain with
      | .waiting deadline _ =>
          if deadline ≤ s.clock then
            some { s with
              observed := s.observed ++ [(.deadline, s.inFlight)]
              atDeadline := s.cancels
              drain := if s.inFlight > 0 then .cancelling s.inFlight else .done 0 }
          else none
      | _ => none
  | .cancelAll =>
      match s.drain with
      | .cancelling remaining =>
          some { s with
            invoked := s.invoked ++ s.cancels.map Prod.snd
            atCancel := s.cancels
            cancels := []
            drain := .returning remaining }
      | _ => none
  | .finish =>
      match s.drain with
      | .returning remaining => some { s with drain := .done remaining }
      | _ => none

/-- `NewShutdownManager` with any tracker count, clock and drain timeout. -/
def system : System ShutdownState ShutdownEvent :=
  ⟨fun s => s.cancels = [] ∧ s.drain = .idle ∧ s.invoked = [] ∧ s.observed = [] ∧
    s.atDeadline = [] ∧ s.atCancel = [], step⟩

/-! ## What the drain thread has read and called -/

/-- What the reads and calls made so far say at each place of `WaitForDrain`:
nothing is called before `cancelAll`; from the deadline on, the last read is
the deadline's positive count; `cancelAll` called exactly the registry it
found; and a return of zero comes right after a read of zero. -/
def DrainHistory (s : ShutdownState) : Prop :=
  match s.drain with
  | .idle => s.invoked = []
  | .waiting _ _ => s.invoked = []
  | .cancelling remaining =>
      0 < remaining ∧ s.observed.getLast? = some (.deadline, remaining) ∧ s.invoked = []
  | .returning remaining =>
      0 < remaining ∧ s.observed.getLast? = some (.deadline, remaining) ∧
        s.invoked = s.atCancel.map Prod.snd
  | .done 0 => (∃ read, s.observed.getLast? = some (read, 0)) ∧ s.invoked = []
  | .done (remaining + 1) =>
      s.observed.getLast? = some (.deadline, remaining + 1) ∧
        s.invoked = s.atCancel.map Prod.snd

/-- The invariant: the drain thread's history, and one cancel function per key
in the registry and in the registry `cancelAll` found. -/
structure Accounted (s : ShutdownState) : Prop where
  history : DrainHistory s
  keysNodup : (s.cancels.map Prod.fst).Nodup
  cancelledNodup : (s.atCancel.map Prod.fst).Nodup

theorem drainHistory_of_eq {s t : ShutdownState} (drain : t.drain = s.drain)
    (invoked : t.invoked = s.invoked) (observed : t.observed = s.observed)
    (atCancel : t.atCancel = s.atCancel) (history : DrainHistory s) : DrainHistory t := by
  unfold DrainHistory
  rwa [drain, invoked, observed, atCancel]

theorem drainHistory_of_zero {t : ShutdownState} (read : Read) (drain : t.drain = .done 0)
    (last : t.observed.getLast? = some (read, 0)) (invoked : t.invoked = []) :
    DrainHistory t := by
  unfold DrainHistory
  rw [drain]
  exact ⟨⟨read, last⟩, invoked⟩

/-- The start check or a tick: a zero ends the drain, anything else keeps it
waiting, and nothing is called. -/
theorem drainHistory_poll {s : ShutdownState} (read : Read) (deadline nextTick : Int)
    (invoked : s.invoked = []) :
    DrainHistory { s with
      observed := s.observed ++ [(read, s.inFlight)]
      drain := if s.inFlight = 0 then .done 0 else .waiting deadline nextTick } := by
  by_cases zero : s.inFlight = 0
  · exact drainHistory_of_zero read (if_pos zero) (by simp [zero]) invoked
  · unfold DrainHistory
    rw [if_neg zero]
    exact invoked

theorem keys_filter_nodup {cancels : List (String × Nat)} (key : String)
    (nodup : (cancels.map Prod.fst).Nodup) :
    ((cancels.filter (·.1 ≠ key)).map Prod.fst).Nodup :=
  nodup.sublist ((List.filter_sublist _).map _)

theorem keys_register_nodup {cancels : List (String × Nat)} (key : String) (cancel : Nat)
    (nodup : (cancels.map Prod.fst).Nodup) :
    ((cancels.filter (·.1 ≠ key) ++ [(key, cancel)]).map Prod.fst).Nodup := by
  rw [List.map_append, List.nodup_append]
  refine ⟨keys_filter_nodup key nodup, List.nodup_singleton _, ?_⟩
  simp only [List.map_cons, List.map_nil, List.disjoint_singleton, List.mem_map,
    List.mem_filter, not_exists, not_and]
  intro entry ⟨_, kept⟩ same
  exact of_decide_eq_true kept same

theorem Accounted.step {s s' : ShutdownState} {event : ShutdownEvent}
    (accounted : Accounted s) (stepped : s.step event = some s') : Accounted s' := by
  obtain ⟨history, keysNodup, cancelledNodup⟩ := accounted
  cases event with
  | registerRun key cancel =>
      cases stepped
      exact ⟨drainHistory_of_eq rfl rfl rfl rfl history,
        keys_register_nodup key cancel keysNodup, cancelledNodup⟩
  | deregisterRun key =>
      cases stepped
      exact ⟨drainHistory_of_eq rfl rfl rfl rfl history, keys_filter_nodup key keysNodup,
        cancelledNodup⟩
  | setInFlight count =>
      cases stepped
      exact ⟨drainHistory_of_eq rfl rfl rfl rfl history, keysNodup, cancelledNodup⟩
  | advance elapsed =>
      cases stepped
      exact ⟨drainHistory_of_eq rfl rfl rfl rfl history, keysNodup, cancelledNodup⟩
  | waitForDrain =>
      cases drained : s.drain <;> simp only [ShutdownState.step, drained, reduceCtorEq] at stepped
      cases stepped
      simp only [DrainHistory, drained] at history
      exact ⟨drainHistory_poll .start _ _ history, keysNodup, cancelledNodup⟩
  | tick =>
      cases drained : s.drain <;> simp only [ShutdownState.step, drained, reduceCtorEq,
        Option.ite_none_right_eq_some] at stepped
      cases stepped.2
      simp only [DrainHistory, drained] at history
      exact ⟨drainHistory_poll .tick _ _ history, keysNodup, cancelledNodup⟩
  | deadline =>
      cases drained : s.drain <;> simp only [ShutdownState.step, drained, reduceCtorEq,
        Option.ite_none_right_eq_some] at stepped
      cases stepped.2
      simp only [DrainHistory, drained] at history
      refine ⟨?_, keysNodup, cancelledNodup⟩
      by_cases positive : s.inFlight > 0
      · unfold DrainHistory
        rw [if_pos positive]
        exact ⟨positive, by simp, history⟩
      · exact drainHistory_of_zero .deadline (if_neg positive)
          (by simp [Nat.eq_zero_of_not_pos positive]) history
  | cancelAll =>
      cases drained : s.drain <;> simp only [ShutdownState.step, drained, reduceCtorEq] at stepped
      cases stepped
      simp only [DrainHistory, drained] at history
      obtain ⟨positive, last, none⟩ := history
      refine ⟨?_, List.nodup_nil, keysNodup⟩
      unfold DrainHistory
      exact ⟨positive, last, by rw [none, List.nil_append]⟩
  | finish =>
      cases drained : s.drain <;> simp only [ShutdownState.step, drained, reduceCtorEq] at stepped
      cases stepped
      simp only [DrainHistory, drained] at history
      obtain ⟨positive, last, called⟩ := history
      obtain ⟨remaining, rfl⟩ := Nat.exists_eq_add_of_lt positive
      exact ⟨⟨last, called⟩, keysNodup, cancelledNodup⟩

theorem accounted_of_reachable {s : ShutdownState} (reachable : system.Reachable s) :
    Accounted s :=
  reachable.invariant
    (fun _ ⟨empty, idle, invoked, _, _, noneFound⟩ =>
      ⟨by simp only [DrainHistory, idle, invoked], by simp [empty], by simp [noneFound]⟩)
    (fun _ _ _ accounted stepped => accounted.step stepped)

/-- A manager with nothing registered, nothing in flight and a zero drain
timeout. -/
def quiet : ShutdownState :=
  ⟨[], 0, 0, 0, .idle, [], [], [], []⟩

theorem quiet_initial : system.initial quiet :=
  ⟨rfl, rfl, rfl, rfl, rfl, rfl⟩

/-- What `WaitForDrain`'s result says, in every interleaving: a zero comes right
after a read of zero, with nothing cancelled; a positive result is the count read
at the deadline, and the cancel functions called are exactly those of the
registry `cancelAll` found, once per key. -/
theorem drain_result_observed :
    ∀ s, system.Reachable s →
      (s.drain = .done 0 → (∃ read, s.observed.getLast? = some (read, 0)) ∧ s.invoked = []) ∧
      (∀ k, 0 < k → s.drain = .done k →
        s.observed.getLast? = some (.deadline, k) ∧ s.invoked = s.atCancel.map Prod.snd ∧
          (s.atCancel.map Prod.fst).Nodup) := by
  intro s reachable
  obtain ⟨history, -, cancelledNodup⟩ := accounted_of_reachable reachable
  unfold DrainHistory at history
  refine ⟨fun returned => ?_, fun k positive returned => ?_⟩
  · rwa [returned] at history
  · obtain ⟨k, rfl⟩ := Nat.exists_eq_add_of_lt positive
    rw [returned] at history
    exact ⟨history.1, history.2, cancelledNodup⟩

/-- One run registers and is in flight, and the drain times out and cancels it. -/
def timeoutRun : List ShutdownEvent :=
  [.registerRun "default/watchman-1" 1, .setInFlight 1, .waitForDrain, .deadline, .cancelAll,
    .finish]

/-- Where `timeoutRun` ends. -/
def timedOut : ShutdownState :=
  ⟨[], 1, 0, 0, .done 1, [1], [(.start, 1), (.deadline, 1)], [("default/watchman-1", 1)],
    [("default/watchman-1", 1)]⟩

theorem timed_out_drain_cancels_its_run :
    system.Reachable timedOut ∧ timedOut.observed.getLast? = some (.deadline, 1) ∧
      timedOut.invoked = timedOut.atCancel.map Prod.snd := by
  have reachable : system.Reachable timedOut := System.reachable_of_replay
    (.init quiet_initial) (show system.replay quiet timeoutRun = some timedOut from rfl)
  obtain ⟨last, called, -⟩ := (drain_result_observed timedOut reachable).2 1 Nat.one_pos rfl
  exact ⟨reachable, last, called⟩

/-! ## Registrations that change around the deadline -/


/-- A run registers and is in flight; the drain reaches its deadline and reads
one; the run deregisters before `cancelAll` takes the lock; a second run
registers before `WaitForDrain` returns. -/
def lateRegistrations : List ShutdownEvent :=
  [.registerRun "default/watchman-1" 1, .setInFlight 1, .waitForDrain, .deadline,
    .deregisterRun "default/watchman-1", .cancelAll, .registerRun "default/watchman-2" 2]

theorem drain_misses_late_registrations :
    ¬ (∀ s s' k, system.Reachable s → s.step .finish = some s' → s'.drain = .done k → 0 < k →
        ∀ cancel ∈ s'.atDeadline.map Prod.snd, s'.invoked.count cancel = 1) ∧
    ¬ (∀ s s' k, system.Reachable s → s.step .finish = some s' → s'.drain = .done k → 0 < k →
        s'.cancels = []) := by
  obtain ⟨s, reachable, replayed⟩ := system.exists_reachable_of_replay
    quiet_initial lateRegistrations
    (fun s => (s.step .finish).any fun s' => s'.drain == .done 1 &&
      (s'.atDeadline.map Prod.snd).any (fun cancel => s'.invoked.count cancel != 1) &&
      !s'.cancels.isEmpty)
    (by decide)
  cases finished : s.step .finish with
  | none => simp [finished] at replayed
  | some s' =>
      simp only [finished, Option.any, Bool.and_eq_true, beq_iff_eq, List.any_eq_true,
        bne_iff_ne, ne_eq, Bool.not_eq_true', List.isEmpty_eq_false] at replayed
      obtain ⟨⟨returned, cancel, atDeadline, missed⟩, registered⟩ := replayed
      exact ⟨fun claimed => missed (claimed s s' 1 reachable finished returned Nat.one_pos
          cancel atDeadline),
        fun claimed => registered (claimed s s' 1 reachable finished returned Nat.one_pos)⟩

end ShutdownState

end Legator.Lifecycle
