import Legator.Time

/-!
# Schedule evaluation

`internal/scheduler/schedule.go` answers three questions about an agent: when it
runs next (`NextRun`), whether it is due now (`IsDue`, through `nextRunAfter`),
and which interval its jitter is computed from (`ComputeInterval`). Each reads
the agent's cron expression, interval string and timezone.

Time zones come from `time.LoadLocation` and cron expressions from the parser of
`robfig/cron`; both are library code outside the repository, so the model takes
them as a `TimeLib` and every result here holds for every such library.
`time.ParseDuration` is the model of `Legator.Time`.
-/

namespace Legator.Scheduler

open Legator.Time

/-- The library functions the scheduler calls: `time.LoadLocation`, and the
parser `cron.NewParser(Minute | Hour | Dom | Month | Dow).Parse`, whose
schedule's `Next` gives the next activation after a time. -/
structure TimeLib where
  loadLocation : String → Except String Location
  parseCron : String → Except String (GoTime → GoTime)

/-- `ScheduleSpec`: the fields scheduling reads. -/
structure ScheduleSpec where
  cron : String
  interval : String
  timezone : String
  deriving DecidableEq, Repr

/-- The parts of an `InfraAgent` scheduling reads: `Spec.Paused`,
`Spec.Schedule` and `Status.LastRunTime`. -/
structure InfraAgent where
  paused : Bool
  schedule : ScheduleSpec
  lastRunTime : Option GoTime
  deriving DecidableEq, Repr

section

variable (lib : TimeLib)

/-- `loadTimezone`: `""` and `"UTC"` are UTC without a lookup. -/
def loadTimezone (tz : String) : Except String Location :=
  if tz = "" ∨ tz = "UTC" then .ok Location.utc else lib.loadLocation tz

/-- `nextCronRun`: the next fire time of `expr` after `now`. -/
def nextCronRun (expr : String) (now : GoTime) : Except String GoTime :=
  match lib.parseCron expr with
  | .error err => .error ("invalid cron expression " ++ quote expr ++ ": " ++ err)
  | .ok next => .ok (next now)

/-- `nextIntervalRun`: the last run plus the interval, or `now` for an agent
that never ran. -/
def nextIntervalRun (interval : String) (agent : InfraAgent) (now : GoTime) :
    Except String GoTime :=
  match parseDuration interval with
  | .error err => .error ("invalid interval " ++ quote interval ++ ": " ++ err)
  | .ok dur =>
      match agent.lastRunTime with
      | none => .ok now
      | some lastRun => .ok (lastRun.add dur)

/-- `NextRun`. -/
def nextRun (agent : InfraAgent) (now : GoTime) : Except String GoTime :=
  if agent.paused then .ok GoTime.zero
  else
    let spec := agent.schedule
    match loadTimezone lib spec.timezone with
    | .error err => .error ("invalid timezone " ++ quote spec.timezone ++ ": " ++ err)
    | .ok loc =>
        if spec.cron ≠ "" then nextCronRun lib spec.cron (now.in loc)
        else if spec.interval ≠ "" then nextIntervalRun spec.interval agent now
        else .ok GoTime.zero

/-- `nextRunAfter`: the next run after a reference time. -/
def nextRunAfter (agent : InfraAgent) (after : GoTime) : Except String GoTime :=
  let spec := agent.schedule
  match loadTimezone lib spec.timezone with
  | .error err => .error err
  | .ok loc =>
      if spec.cron ≠ "" then nextCronRun lib spec.cron (after.in loc)
      else if spec.interval ≠ "" then
        match parseDuration spec.interval with
        | .error err => .error ("invalid interval " ++ quote spec.interval ++ ": " ++ err)
        | .ok dur => .ok (after.add dur)
      else .ok GoTime.zero

/-- `IsDue`: an unpaused agent with a cron or interval schedule is due if it
never ran, or if the next run after its last run is set and has passed. -/
def isDue (agent : InfraAgent) (now : GoTime) : Except String Bool :=
  if agent.paused then .ok false
  else if agent.schedule.cron = "" ∧ agent.schedule.interval = "" then .ok false
  else match agent.lastRunTime with
    | none => .ok true
    | some lastRun =>
        match nextRunAfter lib agent lastRun with
        | .error err => .error err
        | .ok nextAfterLast => .ok (!nextAfterLast.isZero && now.after nextAfterLast)

/-- `ComputeInterval`, at clock reading `now`: a parsable interval string, else
the gap between the next two cron fires, else five minutes. -/
def computeInterval (agent : InfraAgent) (now : GoTime) : Int :=
  let spec := agent.schedule
  match (if spec.interval ≠ "" then (parseDuration spec.interval).toOption else none) with
  | some dur => dur
  | none =>
      let fromCron : Option Int :=
        if spec.cron ≠ "" then
          match nextCronRun lib spec.cron now with
          | .ok next1 =>
              match nextCronRun lib spec.cron next1 with
              | .ok next2 => some (next2.sub next1)
              | .error _ => none
          | .error _ => none
        else none
      fromCron.getD (5 * minute)

/-! ## Agreement of the entry points -/

theorem nextCronRun_isOk_iff (expr : String) (now : GoTime) :
    (∃ next, nextCronRun lib expr now = .ok next) ↔ ∃ schedule, lib.parseCron expr = .ok schedule := by
  unfold nextCronRun
  cases lib.parseCron expr <;> simp

theorem nextCronRun_of_parseCron {expr : String} {schedule : GoTime → GoTime}
    (parsed : lib.parseCron expr = .ok schedule) (now : GoTime) :
    nextCronRun lib expr now = .ok (schedule now) := by
  simp [nextCronRun, parsed]

/-- Whatever reference time it is given, `nextRunAfter` fails or succeeds with
`NextRun` of an unpaused agent: both load the same zone and parse the same
cron expression or interval. -/
theorem nextRun_ok_of_nextRunAfter_ok {agent : InfraAgent} (running : agent.paused = false)
    {after next : GoTime} (computed : nextRunAfter lib agent after = .ok next) (now : GoTime) :
    ∃ next, nextRun lib agent now = .ok next := by
  unfold nextRunAfter at computed
  unfold nextRun
  rw [running, if_neg Bool.false_ne_true]
  cases zone : loadTimezone lib agent.schedule.timezone with
  | error err => simp [zone] at computed
  | ok loc =>
      simp only [zone] at computed ⊢
      by_cases hasCron : agent.schedule.cron ≠ ""
      · rw [if_pos hasCron] at computed ⊢
        exact (nextCronRun_isOk_iff lib _ _).mpr ((nextCronRun_isOk_iff lib _ _).mp ⟨_, computed⟩)
      · rw [if_neg hasCron] at computed ⊢
        by_cases hasInterval : agent.schedule.interval ≠ ""
        · rw [if_pos hasInterval] at computed ⊢
          unfold nextIntervalRun
          cases parsed : parseDuration agent.schedule.interval with
          | error err => simp [parsed] at computed
          | ok dur => cases agent.lastRunTime <;> simp
        · rw [if_neg hasInterval]
          exact ⟨_, rfl⟩

/-- `IsDue` says `(true, nil)` only when `NextRun` succeeds, or for an unpaused,
scheduled agent that never ran, whose schedule it does not check. -/
theorem isDue_true_cases {agent : InfraAgent} {now : GoTime}
    (due : isDue lib agent now = .ok true) :
    (∃ next, nextRun lib agent now = .ok next) ∨
      (agent.paused = false ∧ (agent.schedule.cron ≠ "" ∨ agent.schedule.interval ≠ "") ∧
        agent.lastRunTime = none) := by
  unfold isDue at due
  split_ifs at due with paused scheduleless
  · cases due
  · cases due
  · have running : agent.paused = false := by simpa using paused
    cases last : agent.lastRunTime with
    | none => exact Or.inr ⟨running, by tauto, rfl⟩
    | some lastRun =>
        rw [last] at due
        cases after : nextRunAfter lib agent lastRun with
        | error err => simp [after] at due
        | ok next => exact Or.inl (nextRun_ok_of_nextRunAfter_ok lib running after now)

/-- With a cron expression, `NextRun` and `nextRunAfter` are the cron expression's
next fire in the agent's zone, whatever the interval string. -/
theorem nextRun_nextRunAfter_of_cron {agent : InfraAgent} (running : agent.paused = false)
    (hasCron : agent.schedule.cron ≠ "") {loc : Location}
    (zone : loadTimezone lib agent.schedule.timezone = .ok loc) (now after : GoTime) :
    nextRun lib agent now = nextCronRun lib agent.schedule.cron (now.in loc) ∧
      nextRunAfter lib agent after = nextCronRun lib agent.schedule.cron (after.in loc) := by
  simp [nextRun, nextRunAfter, running, zone, hasCron]

/-- Without a parsable interval, `ComputeInterval` of a parsable cron expression
is the gap between its next two fires. -/
theorem computeInterval_of_cron {agent : InfraAgent} {schedule : GoTime → GoTime}
    (hasCron : agent.schedule.cron ≠ "") (parsed : lib.parseCron agent.schedule.cron = .ok schedule)
    (noInterval : agent.schedule.interval = "" ∨
      ∃ err, parseDuration agent.schedule.interval = .error err) (now : GoTime) :
    computeInterval lib agent now = (schedule (schedule now)).sub (schedule now) := by
  have intervalUnused :
      (if agent.schedule.interval ≠ "" then (parseDuration agent.schedule.interval).toOption
        else none) = none := by
    rcases noInterval with empty | ⟨err, failed⟩
    · simp [empty]
    · simp [failed, Except.toOption]
  simp only [computeInterval, intervalUnused, if_pos hasCron,
    nextCronRun_of_parseCron lib parsed, Option.getD_some]

/-! ## Whether schedules move forward -/

/-- A cron library whose schedules move forward: the next activation after `t`
is later than `t`, or the zero time when there is none, as `robfig/cron`
documents for `Next`. -/
def MovesForward : Prop :=
  ∀ expr schedule, lib.parseCron expr = .ok schedule → ∀ t : GoTime,
    (schedule t).isZero = true ∨ (schedule t).after t = true

/-- With an interval and no cron expression, `nextRunAfter` is the reference
time plus the parsed interval. -/
theorem nextRunAfter_of_interval {agent : InfraAgent} (noCron : agent.schedule.cron = "")
    (hasInterval : agent.schedule.interval ≠ "") {after next : GoTime}
    (computed : nextRunAfter lib agent after = .ok next) :
    ∃ dur, parseDuration agent.schedule.interval = .ok dur ∧ next = after.add dur := by
  unfold nextRunAfter at computed
  cases zone : loadTimezone lib agent.schedule.timezone with
  | error err => simp [zone] at computed
  | ok loc =>
      simp only [zone, noCron, ne_eq, not_true_eq_false, if_false, if_pos hasInterval]
        at computed
      cases parsed : parseDuration agent.schedule.interval with
      | error err => simp [parsed] at computed
      | ok dur =>
          simp only [parsed, Except.ok.injEq] at computed
          exact ⟨dur, rfl, computed.symm⟩

/-- With a cron expression and a library whose schedules move forward,
`nextRunAfter` is the zero time or later than the reference time. -/
theorem nextRunAfter_of_cron_forward (forward : MovesForward lib) {agent : InfraAgent}
    (hasCron : agent.schedule.cron ≠ "") {after next : GoTime}
    (computed : nextRunAfter lib agent after = .ok next) :
    next.isZero = true ∨ next.after after = true := by
  unfold nextRunAfter at computed
  cases zone : loadTimezone lib agent.schedule.timezone with
  | error err => simp [zone] at computed
  | ok loc =>
      simp only [zone, if_pos hasCron, nextCronRun] at computed
      cases parsed : lib.parseCron agent.schedule.cron with
      | error err => simp [parsed] at computed
      | ok schedule =>
          simp only [parsed, Except.ok.injEq] at computed
          subst computed
          exact forward _ schedule parsed (after.in loc)

/-- `IsDue` of an agent that ran at `lastRun` says yes only when the next run
after `lastRun` is set and has passed. -/
theorem isDue_of_lastRun {agent : InfraAgent} {lastRun now : GoTime}
    (ran : agent.lastRunTime = some lastRun) (due : isDue lib agent now = .ok true) :
    ∃ next, nextRunAfter lib agent lastRun = .ok next ∧ next.isZero = false ∧
      now.after next = true := by
  unfold isDue at due
  split_ifs at due
  · cases due
  · cases due
  · rw [ran] at due
    cases after : nextRunAfter lib agent lastRun with
    | error err => simp [after] at due
    | ok next =>
        simp only [after, Except.ok.injEq, Bool.and_eq_true, Bool.not_eq_true'] at due
        exact ⟨next, rfl, due⟩

end

/-- A library in which every zone is UTC and every cron expression fires every
five minutes, as `*/5 * * * *` does. -/
def everyFiveMinutes : TimeLib :=
  ⟨fun _ => .ok Location.utc, fun _ => .ok fun t => t.add (5 * minute)⟩

/-- An agent with both a cron expression and an interval. -/
def cronAndIntervalAgent : InfraAgent :=
  ⟨false, ⟨"*/5 * * * *", "1h", ""⟩, none⟩

/-- An agent with a cron expression and an interval runs by the cron expression,
every five minutes here, while `ComputeInterval` returns its interval, one
hour, as the interval the jitter is computed from. -/
theorem cron_agent_jitter_from_interval :
    nextRun everyFiveMinutes cronAndIntervalAgent GoTime.zero = .ok (GoTime.zero.add (5 * minute)) ∧
      computeInterval everyFiveMinutes cronAndIntervalAgent GoTime.zero = hour :=
  ⟨rfl, rfl⟩

/-! ## Intervals that do not move forward -/

/-- An unpaused agent with interval `interval` that last ran one hour after the
zero time. -/
def ranAtOneHour (interval : String) : InfraAgent :=
  ⟨false, ⟨"", interval, ""⟩, some ⟨hour, Location.utc⟩⟩

/-- With the interval `-5m`, an agent is due at the very instant it last ran. -/
theorem negative_interval_due_at_last_run :
    (ranAtOneHour "-5m").lastRunTime = some ⟨hour, Location.utc⟩ ∧
      isDue everyFiveMinutes (ranAtOneHour "-5m") ⟨hour, Location.utc⟩ = .ok true :=
  ⟨rfl, rfl⟩

end Legator.Scheduler
