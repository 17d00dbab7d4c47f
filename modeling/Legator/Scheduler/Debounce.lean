import Legator.System
import Legator.Scheduler.Webhook

/-!
# The debouncing law

`Debouncer.ShouldFire(key)` says yes when the key has not fired within the
window, and `Clean()` forgets the keys that fired before `now.Add(-2 * window)`.
This module runs one debouncer under every sequence of `ShouldFire` and `Clean`
calls at non-decreasing clock readings, without `Reset`, and logs every answer.

As long as `-2 * window` fits in an `int64`, every answer is the one the law
gives: yes exactly when no earlier yes for the same key lies less than a window
back (`debouncer_answers_by_law`). What `Clean` forgets is then never needed
again, because a key it forgets fired more than two windows ago. A wider window
wraps the product to a positive offset, so the threshold lies in the future
and `Clean` forgets a key that has just fired.
-/

namespace Legator.Scheduler.Debouncer

open Legator.Time

/-- One `ShouldFire` answer: the key, the clock reading and the answer. -/
structure Answer where
  key : String
  time : Int
  fired : Bool
  deriving DecidableEq, Repr

/-- A call on the debouncer, or the clock moving on. -/
inductive Call
  | shouldFire (key : String)
  | clean
  | tick (elapsed : Nat)

/-- The debouncer, the clock, and every answer `ShouldFire` has given. -/
structure Run where
  debouncer : Debouncer
  clock : Int
  answers : List Answer

namespace Run

/-- One call, at the current clock reading. -/
def step (r : Run) : Call → Option Run
  | .shouldFire key =>
      some ⟨(r.debouncer.shouldFire key r.clock).2, r.clock,
        r.answers ++ [⟨key, r.clock, (r.debouncer.shouldFire key r.clock).1⟩]⟩
  | .clean => some { r with debouncer := r.debouncer.clean r.clock }
  | .tick elapsed => some { r with clock := r.clock + elapsed }

/-- A debouncer made by `NewDebouncer(window)`, and every sequence of calls on
it. -/
def system (window : Int) : System Run Call :=
  ⟨fun r => ∃ clock, r = ⟨newDebouncer window, clock, []⟩, step⟩

end Run

/-! ## The law -/

/-- No yes for `key` in `answers` lies less than `window` before `now`. -/
def QuietFor (window : Int) (answers : List Answer) (key : String) (now : Int) : Prop :=
  ∀ t, ⟨key, t, true⟩ ∈ answers → window ≤ now - t

/-- Every answer in `answers` is the one the law gives after the answers
before it. -/
def Lawful (window : Int) (answers : List Answer) : Prop :=
  ∀ i a, answers[i]? = some a → (a.fired = true ↔ QuietFor window (answers.take i) a.key a.time)

theorem quietFor_append_no {window : Int} {answers : List Answer} {key : String} {now : Int}
    {a : Answer} (quiet : QuietFor window answers key now) (other : a.key ≠ key ∨ a.fired = false) :
    QuietFor window (answers ++ [a]) key now := by
  intro t mem
  rcases List.mem_append.mp mem with old | last
  · exact quiet t old
  · rw [List.mem_singleton] at last
    subst last
    simp at other

theorem Lawful.append {window : Int} {answers : List Answer} (lawful : Lawful window answers)
    {a : Answer} (answered : a.fired = true ↔ QuietFor window answers a.key a.time) :
    Lawful window (answers ++ [a]) := by
  intro i b found
  rcases Nat.lt_or_ge i answers.length with early | late
  · rw [List.getElem?_append_left early] at found
    rw [List.take_append_of_le_length early.le]
    exact lawful i b found
  · rw [List.getElem?_append_right late] at found
    obtain ⟨k, rfl⟩ := Nat.exists_eq_add_of_le late
    cases k with
    | succ k => simp at found
    | zero =>
        simp only [Nat.add_zero, Nat.sub_self, List.getElem?_cons_zero, Option.some.injEq] at found
        subst found
        rwa [Nat.add_zero, List.take_left]

/-! ## The invariant -/

section Invariant

variable {window : Int}

/-- What the debouncer remembers, against the log: a remembered key's reading
is its latest yes, a forgotten key has been quiet for a window, and no answer
lies ahead of the clock. -/
structure Invariant (window : Int) (r : Run) : Prop where
  window_eq : r.debouncer.window = window
  lastFired : ∀ key l, r.debouncer.last key = some l →
    ⟨key, l, true⟩ ∈ r.answers ∧ ∀ t, ⟨key, t, true⟩ ∈ r.answers → t ≤ l
  forgotten : ∀ key, r.debouncer.last key = none → QuietFor window r.answers key r.clock
  past : ∀ a ∈ r.answers, a.time ≤ r.clock
  lawful : Lawful window r.answers

/-- The next `ShouldFire` answers as the law says. -/
theorem Invariant.shouldFire_iff {r : Run} (inv : Invariant window r) (key : String) :
    (r.debouncer.shouldFire key r.clock).1 = true ↔ QuietFor window r.answers key r.clock := by
  rcases shouldFire_cases r.debouncer key r.clock with ⟨l, found, recent, refused⟩ | ⟨old, fires⟩
  · rw [refused]
    simp only [Bool.false_eq_true, false_iff]
    intro quiet
    have := quiet l (inv.lastFired key l found).1
    rw [inv.window_eq] at recent
    omega
  · rw [fires]
    simp only [true_iff]
    intro t mem
    cases found : r.debouncer.last key with
    | none => exact inv.forgotten key found t mem
    | some l =>
        have := old l found
        have := (inv.lastFired key l found).2 t mem
        rw [inv.window_eq] at *
        omega

theorem Invariant.shouldFire {r : Run} (inv : Invariant window r) (key : String) :
    Invariant window ⟨(r.debouncer.shouldFire key r.clock).2, r.clock,
      r.answers ++ [⟨key, r.clock, (r.debouncer.shouldFire key r.clock).1⟩]⟩ := by
  have answered := inv.shouldFire_iff key
  rcases shouldFire_cases r.debouncer key r.clock with ⟨-, -, -, refused⟩ | ⟨-, fires⟩
  · rw [refused] at answered ⊢
    dsimp only at answered ⊢
    refine ⟨inv.window_eq, fun k l found => ?_, fun k absent => ?_, fun a mem => ?_,
      inv.lawful.append answered⟩
    · obtain ⟨mem, latest⟩ := inv.lastFired k l found
      refine ⟨List.mem_append_left _ mem, fun t mem' => latest t ?_⟩
      simpa using mem'
    · exact quietFor_append_no (inv.forgotten k absent) (.inr rfl)
    · rcases List.mem_append.mp mem with old | last
      · exact inv.past a old
      · obtain rfl := List.mem_singleton.mp last
        exact Int.le_refl _
  · rw [fires] at answered ⊢
    dsimp only at answered ⊢
    refine ⟨inv.window_eq, fun k l found => ?_, fun k absent => ?_, fun a mem => ?_,
      inv.lawful.append answered⟩
    · simp only at found
      split_ifs at found with same
      · cases found
        subst same
        refine ⟨List.mem_append_right _ (List.mem_singleton_self _), fun t mem => ?_⟩
        rcases List.mem_append.mp mem with old | last
        · exact inv.past _ old
        · obtain ⟨-, rfl, -⟩ := Answer.mk.inj (List.mem_singleton.mp last)
          exact Int.le_refl _
      · obtain ⟨mem, latest⟩ := inv.lastFired k l found
        refine ⟨List.mem_append_left _ mem, fun t mem' => latest t ?_⟩
        simpa [same] using mem'
    · simp only at absent
      split_ifs at absent with same
      exact quietFor_append_no (inv.forgotten k absent) (.inl (Ne.symm same))
    · rcases List.mem_append.mp mem with old | last
      · exact inv.past a old
      · obtain rfl := List.mem_singleton.mp last
        exact Int.le_refl _

/-- `Clean` forgets only keys whose latest yes lies more than two windows back,
so long as `-2 * window` fits in an `int64`. -/
theorem Invariant.clean {r : Run} (inv : Invariant window r) (positive : 0 < window)
    (fits : window ≤ ((1 <<< 62 : Nat) : Int)) :
    Invariant window { r with debouncer := r.debouncer.clean r.clock } := by
  have threshold : wrapInt64 (-2 * r.debouncer.window) = -2 * window := by
    rw [inv.window_eq]
    apply wrapInt64_of_mem <;> simp only [Nat.shiftLeft_eq, Nat.one_mul] at * <;> push_cast at * <;>
      omega
  refine ⟨inv.window_eq, fun k l found => inv.lastFired k l (Option.filter_eq_some.mp found).1,
    fun k absent => ?_, inv.past, inv.lawful⟩
  simp only [Debouncer.clean, threshold] at absent
  cases found : r.debouncer.last k with
  | none => exact inv.forgotten k found
  | some l =>
      rw [found] at absent
      simp only [Option.filter, Bool.not_eq_true', decide_eq_false_iff_not, not_lt] at absent
      split_ifs at absent with kept
      intro t mem
      have := (inv.lastFired k l found).2 t mem
      simp only [Bool.not_eq_true', decide_eq_false_iff_not, not_le] at kept
      show window ≤ r.clock - t
      omega

theorem Invariant.tick {r : Run} (inv : Invariant window r) (elapsed : Nat) :
    Invariant window { r with clock := r.clock + elapsed } where
  window_eq := inv.window_eq
  lastFired := inv.lastFired
  forgotten key absent t mem := by
    have := inv.forgotten key absent t mem
    show window ≤ r.clock + elapsed - t
    omega
  past a mem := by
    have := inv.past a mem
    show a.time ≤ r.clock + elapsed
    omega
  lawful := inv.lawful

theorem invariant_of_reachable (positive : 0 < window) (fits : window ≤ ((1 <<< 62 : Nat) : Int))
    {r : Run} (reachable : (Run.system window).Reachable r) : Invariant window r := by
  refine System.Reachable.invariant (fun start initial => ?_) (fun r call next inv stepped => ?_)
    reachable
  · obtain ⟨clock, rfl⟩ := initial
    have built : newDebouncer window = ⟨window, fun _ => none⟩ := by
      simp [newDebouncer, show ¬ window ≤ 0 by omega]
    refine ⟨by rw [built], fun _ _ absent => ?_, fun _ _ _ mem => ?_, fun _ mem => ?_, ?_⟩ <;>
      simp_all [Lawful]
  · change r.step call = some next at stepped
    cases call <;> cases stepped
    · exact inv.shouldFire _
    · exact inv.clean positive fits
    · exact inv.tick _

end Invariant

/-! ## Every answer by the law -/

/-- What the debouncing law asks of a run: every answer so far is the law's,
the next `ShouldFire` of any key answers by the law, a `Clean` now would change
no next answer, and two yeses for one key lie at least a window apart. -/
structure ObeysLaw (window : Int) (r : Run) : Prop where
  answered : Lawful window r.answers
  next : ∀ key, (r.debouncer.shouldFire key r.clock).1 = true ↔
    QuietFor window r.answers key r.clock
  cleanInert : ∀ key, ((r.debouncer.clean r.clock).shouldFire key r.clock).1 =
    (r.debouncer.shouldFire key r.clock).1
  spaced : ∀ (i j : Nat) (a b : Answer), i < j → r.answers[i]? = some a → r.answers[j]? = some b →
    a.key = b.key → a.fired = true → b.fired = true → window ≤ b.time - a.time

theorem Lawful.spaced {window : Int} {answers : List Answer} (lawful : Lawful window answers)
    {i j : Nat} {a b : Answer} (before : i < j) (first : answers[i]? = some a)
    (second : answers[j]? = some b) (sameKey : a.key = b.key) (firstFired : a.fired = true)
    (secondFired : b.fired = true) : window ≤ b.time - a.time := by
  have earlier : (⟨b.key, a.time, true⟩ : Answer) ∈ answers.take j := by
    apply List.getElem?_mem (n := i)
    rw [List.getElem?_take_of_lt before, first, ← sameKey, ← firstFired]
  exact (lawful j b second).mp secondFired a.time earlier

theorem debouncer_answers_by_law (window : Int) (positive : 0 < window)
    (fits : window ≤ ((1 <<< 62 : Nat) : Int)) :
    ∀ r, (Run.system window).Reachable r → ObeysLaw window r := by
  intro r reachable
  have inv := invariant_of_reachable positive fits reachable
  have cleaned := inv.clean positive fits
  refine ⟨inv.lawful, inv.shouldFire_iff, fun key => ?_,
    fun _ _ _ _ before first second => inv.lawful.spaced before first second⟩
  exact Bool.eq_iff_iff.mpr ((cleaned.shouldFire_iff key).trans (inv.shouldFire_iff key).symm)

theorem thirty_second_window_by_law :
    0 < 30 * second ∧ 30 * second ≤ ((1 <<< 62 : Nat) : Int) ∧
      ∀ r, (Run.system (30 * second)).Reachable r → ObeysLaw (30 * second) r :=
  ⟨by decide, by decide, debouncer_answers_by_law _ (by decide) (by decide)⟩

/-! ## A window too wide for `-2 * window` -/

/-- With the window `2^62 + 1`, the calls `ShouldFire("k")`, `Clean()`,
`ShouldFire("k")` at one clock reading both fire: `Clean` forgets the key that
has just fired. -/
theorem wide_window_fires_twice_at_once :
    ((Run.system (((1 <<< 62 : Nat) : Int) + 1)).replay
        ⟨newDebouncer (((1 <<< 62 : Nat) : Int) + 1), 0, []⟩
        [.shouldFire "k", .clean, .shouldFire "k"]).map Run.answers =
      some [⟨"k", 0, true⟩, ⟨"k", 0, true⟩] := by
  decide

end Legator.Scheduler.Debouncer
