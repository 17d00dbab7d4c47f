import Mathlib.Logic.Basic

/-!
# Systems of atomic steps

Each concurrent component of the controller (the concurrency gate, the webhook
handler, the credential manager, the client cache, ...) is modelled by a state
type, a type of events, and a partial step function: an event that is not
enabled in a state returns `none`. Every interleaving of the component's calls
is then a sequence of events, and a property of every interleaving is a
property of every reachable state.

This module gives reachability, its induction principle for invariants, and the
replay of a concrete event list that the counterexamples use.
-/

namespace Legator

universe u v

/-- Initial states and a partial step function. -/
structure System (σ : Type u) (ε : Type v) where
  initial : σ → Prop
  step : σ → ε → Option σ

namespace System

variable {σ : Type u} {ε : Type v} (sys : System σ ε)

/-- States reachable from an initial state by any sequence of enabled events. -/
inductive Reachable : σ → Prop
  | init {state : σ} : sys.initial state → Reachable state
  | step {state next : σ} (event : ε) :
      Reachable state → sys.step state event = some next → Reachable next

/-- A property that holds initially and that every step preserves holds in every
reachable state. -/
theorem Reachable.invariant {sys : System σ ε} {property : σ → Prop}
    (initial : ∀ state, sys.initial state → property state)
    (preserved : ∀ state event next, property state → sys.step state event = some next →
      property next)
    {state : σ} (reachable : sys.Reachable state) : property state := by
  induction reachable with
  | init start => exact initial _ start
  | step event _ stepped inductionHypothesis =>
      exact preserved _ event _ inductionHypothesis stepped

/-- Apply a list of events in order, failing at the first one not enabled. -/
def replay : σ → List ε → Option σ
  | state, [] => some state
  | state, event :: events => (sys.step state event).bind (replay · events)

theorem reachable_of_replay {sys : System σ ε} {state next : σ} {events : List ε}
    (reachable : sys.Reachable state) (replayed : sys.replay state events = some next) :
    sys.Reachable next := by
  induction events generalizing state with
  | nil => exact Option.some.inj replayed ▸ reachable
  | cons event events inductionHypothesis =>
      obtain ⟨middle, stepped, rest⟩ := Option.bind_eq_some.mp replayed
      exact inductionHypothesis (reachable.step event stepped) rest

/-- A replay from an initial state that ends where `property` holds exhibits a
reachable state with that property; the replay itself is checked by `decide`. -/
theorem exists_reachable_of_replay {start : σ} (initial : sys.initial start)
    (events : List ε) (property : σ → Bool)
    (replayed : (sys.replay start events).map property = some true) :
    ∃ state, sys.Reachable state ∧ property state = true := by
  cases ending : sys.replay start events with
  | none => simp [ending] at replayed
  | some state =>
      rw [ending, Option.map_some', Option.some.injEq] at replayed
      exact ⟨state, reachable_of_replay (Reachable.init initial) ending, replayed⟩

end System

end Legator
