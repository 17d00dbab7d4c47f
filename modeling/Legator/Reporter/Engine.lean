import Legator.Time
import Legator.Reporter.Transport

/-!
# Reports from runs, the channel registry, and escalations

`FromLegatorRun` turns a finished run into a report, and `ShouldReport` decides
from the agent's reporting configuration whether to send it. The `Reporter`
holds the channels that `New` built from the environment, each under its name,
and `Send`, `SendToAll` and `HasChannel` look them up. `Escalate` sends an
escalation report to the channel its configuration names, waits for its
timeout, and applies the timeout policy.

A Go map is an association list here whose structure says that no name occurs
twice; the order in which Go visits a map is unspecified, and the model visits
it in list order. The channels are those of `Legator.Reporter.Transport`, over
its parameter for the network; what the escalation's wait meets (the context or
the timer) is a parameter too. The run name, the guardrail summary and the
timestamp of a report are left out, as in `Report`.

An escalation is delivered exactly when the environment declares a channel
under the name the escalation resolves to, `New` builds it, and its `Send`
accepts the report (`escalate_delivers`). `New` never sets a Telegram
channel's bot token, so an escalation to a Telegram channel is never delivered
(`escalate_to_telegram`).
-/

namespace Legator.Reporter

open Legator.Time (quote minute parseDuration)

/-! ## `FromLegatorRun` and `ShouldReport` -/

/-- The phase of a finished run, as `FromLegatorRun` and `ShouldReport` tell
phases apart; any other phase keeps its name. -/
inductive RunPhase
  | succeeded
  | failed
  | escalated
  | blocked
  | other (name : List UInt8)
  deriving DecidableEq, Repr

/-- `LegatorRun`, with the fields of its status the reporter reads. -/
structure LegatorRun where
  phase : RunPhase
  findings : List RunFinding
  usage : Option UsageSummary
  report : List UInt8
  deriving DecidableEq, Repr

/-- `FromLegatorRun`. The default emoji and the two dashes are the literals as
they stand in the source. -/
def fromLegatorRun (agentName emoji : List UInt8) (run : LegatorRun) : Report :=
  let emoji := if emoji = [] then utf8 "ðŸ¤–" else emoji
  let (severity, summary) : Severity × List UInt8 := match run.phase with
    | .succeeded => (.success, utf8 "Run completed successfully")
    | .failed => (.failure, utf8 "Run failed")
    | .escalated => (.escalation, utf8 "Run escalated â€” action blocked by guardrails")
    | .blocked => (.escalation, utf8 "Run blocked â€” all actions denied")
    | .other name => (.info, utf8 "Run ended with phase: " ++ name)
  ⟨agentName, emoji, severity, summary, run.report, run.findings, run.usage⟩

/-- `ReportingSpec`: the action for a success, a failure and a finding. -/
structure ReportingSpec where
  onSuccess : String
  onFailure : String
  onFinding : String
  deriving DecidableEq, Repr

/-- `ShouldReport`: whether to send, and the action. -/
def shouldReport (reporting : Option ReportingSpec) (run : LegatorRun) : Bool × String :=
  let reporting := reporting.getD ⟨"silent", "escalate", "log"⟩
  match run.phase with
  | .succeeded =>
      if run.findings ≠ [] then (reporting.onFinding != "silent", reporting.onFinding)
      else (reporting.onSuccess != "silent", reporting.onSuccess)
  | .failed => (reporting.onFailure != "silent", reporting.onFailure)
  | .escalated | .blocked => (true, "escalate")
  | .other _ => (false, "silent")

/-! ## The registry -/

/-- A `Channel`: its type, and what its `Send` does with a report. -/
structure Channel where
  type : String
  send : Report → Except String Unit

/-- `ChannelSpec`, with the fields `newChannelFromSpec` reads. -/
structure ChannelSpec where
  type : String
  target : String
  secretRef : String
  deriving DecidableEq, Repr

/-- `newChannelFromSpec`: a channel of one of the three types, with its `Type`
and its `Send`. -/
def newChannelFromSpec (transport : Transport) (name : String) (spec : ChannelSpec) :
    Except String Channel :=
  if spec.type = "slack" then .ok ⟨"slack", (newSlackChannel name spec.target).send transport⟩
  else if spec.type = "telegram" then
    .ok ⟨"telegram", (newTelegramChannel name spec.target spec.secretRef).send transport⟩
  else if spec.type = "webhook" then .ok ⟨"webhook", (newWebhookChannel name spec.target).send transport⟩
  else .error ("unsupported channel type: " ++ quote spec.type)

/-- A Telegram spec gives a channel whose bot token is not set. -/
theorem newChannelFromSpec_telegram (transport : Transport) (name : String) {spec : ChannelSpec}
    (telegram : spec.type = "telegram") :
    newChannelFromSpec transport name spec =
      .ok ⟨"telegram", (newTelegramChannel name spec.target spec.secretRef).send transport⟩ := by
  unfold newChannelFromSpec
  rw [telegram, if_neg (by decide), if_pos rfl]

/-- The environment's channels: a map from names to specs. -/
structure ChannelSpecs where
  entries : List (String × ChannelSpec)
  names_nodup : (entries.map Prod.fst).Nodup

section Registry

set_option linter.dupNamespace false

/-- `Reporter`: the channels, a map from names. -/
structure Reporter where
  channels : List (String × Channel)
  names_nodup : (channels.map Prod.fst).Nodup

namespace Reporter

/-- A reporter with no channel. -/
def empty : Reporter :=
  ⟨[], List.nodup_nil⟩

@[simp] theorem empty_channels : empty.channels = [] :=
  rfl

theorem nodup_filter_ne {α : Type} {name : String} {channels : List (String × α)}
    (nodup : (channels.map Prod.fst).Nodup) :
    ((channels.filter fun entry => entry.1 ≠ name).map Prod.fst).Nodup :=
  nodup.sublist (List.Sublist.map _ (List.filter_sublist _))

/-- `RegisterChannel`: add or replace the channel under `name`. -/
def registerChannel (r : Reporter) (name : String) (ch : Channel) : Reporter :=
  ⟨(name, ch) :: r.channels.filter fun entry => entry.1 ≠ name, by
    refine List.nodup_cons.mpr ⟨?_, nodup_filter_ne r.names_nodup⟩
    simp⟩

/-- `ChannelNames`. -/
def channelNames (r : Reporter) : List String :=
  r.channels.map Prod.fst

/-- `HasChannel`. -/
def hasChannel (r : Reporter) (name : String) : Bool :=
  (r.channels.lookup name).isSome

/-- `Send`. -/
def send (r : Reporter) (channelName : String) (report : Report) : Except String Unit :=
  match r.channels.lookup channelName with
  | none => .error ("channel " ++ quote channelName ++ " not found (available: " ++
      ", ".intercalate r.channelNames ++ ")")
  | some ch => ch.send report

/-- `SendToAll`: the error of every channel whose send fails, named. -/
def sendToAll (r : Reporter) (report : Report) : List String :=
  r.channels.filterMap fun (name, ch) =>
    match ch.send report with
    | .error err => some ("channel " ++ quote name ++ ": " ++ err)
    | .ok () => none

end Reporter

end Registry

/-- One turn of `New`'s loop: register the channel a spec builds, or skip a
spec of an unsupported type. -/
def registerSpec (transport : Transport)
    (r : Reporter) (entry : String × ChannelSpec) : Reporter :=
  match newChannelFromSpec transport entry.1 entry.2 with
  | .ok ch => r.registerChannel entry.1 ch
  | .error _ => r

/-- `New`, from the environment's channels (`none` when the environment or its
channels are nil). -/
def newReporter (transport : Transport) :
    Option ChannelSpecs → Reporter
  | none => .empty
  | some specs => specs.entries.foldl (registerSpec transport) .empty

/-! ### What the registry holds -/

theorem lookup_filter_ne {α : Type} {name other : String} (differs : other ≠ name) :
    ∀ channels : List (String × α),
      (channels.filter fun entry => entry.1 ≠ name).lookup other = channels.lookup other
  | [] => rfl
  | (key, ch) :: rest => by
      have later := lookup_filter_ne differs rest
      by_cases named : key = name
      · subst named
        rw [List.filter_cons_of_neg (by simp), later, List.lookup_cons, beq_false_of_ne differs]
      · rw [List.filter_cons_of_pos (by simpa using named), List.lookup_cons, List.lookup_cons, later]

theorem lookup_eq_none_of_not_mem {α : Type} {key : String} {entries : List (String × α)}
    (absent : key ∉ entries.map Prod.fst) : entries.lookup key = none :=
  List.lookup_eq_none_iff.mpr fun _ mem =>
    bne_iff_ne.mpr fun same => absent (same ▸ List.mem_map_of_mem _ mem)

@[simp] theorem lookup_registerChannel (r : Reporter) (name other : String) (ch : Channel) :
    (r.registerChannel name ch).channels.lookup other =
      if other = name then some ch else r.channels.lookup other := by
  unfold Reporter.registerChannel
  by_cases same : other = name
  · rw [if_pos same, same, List.lookup_cons_self]
  · rw [if_neg same, List.lookup_cons, beq_false_of_ne same]
    exact lookup_filter_ne same _

theorem lookup_registerSpec_ne (transport : Transport)
    (r : Reporter) {name other : String} (spec : ChannelSpec) (differs : other ≠ name) :
    (registerSpec transport r (name, spec)).channels.lookup other = r.channels.lookup other := by
  unfold registerSpec
  dsimp only
  cases newChannelFromSpec transport name spec with
  | ok ch => exact (lookup_registerChannel r name other ch).trans (if_neg differs)
  | error err => rfl

theorem lookup_registerSpec_self (transport : Transport)
    {r : Reporter} {name : String} (spec : ChannelSpec) (fresh : r.channels.lookup name = none) :
    (registerSpec transport r (name, spec)).channels.lookup name =
      (newChannelFromSpec transport name spec).toOption := by
  unfold registerSpec
  dsimp only
  cases newChannelFromSpec transport name spec with
  | ok ch => exact (lookup_registerChannel r name name ch).trans (if_pos rfl)
  | error err => exact fresh

/-- One turn of `New`'s loop leaves the later names unregistered. -/
theorem registerSpec_keeps_fresh (transport : Transport) {r : Reporter} {name : String}
    (spec : ChannelSpec) {rest : List (String × ChannelSpec)} (distinct : name ∉ rest.map Prod.fst)
    (fresh : ∀ key ∈ ((name, spec) :: rest).map Prod.fst, r.channels.lookup key = none) :
    ∀ key ∈ rest.map Prod.fst, (registerSpec transport r (name, spec)).channels.lookup key = none :=
  fun key mem => (lookup_registerSpec_ne transport r spec fun same : key = name =>
    distinct (same ▸ mem)).trans (fresh key (List.mem_cons_of_mem _ mem))

/-- After `New`'s loop over specs with distinct names, starting from a
registry with none of them, a name holds the channel its spec builds, if the
spec's type is supported, and otherwise what it held before. -/
theorem lookup_foldl_registerSpec (transport : Transport)
    (other : String) : ∀ (entries : List (String × ChannelSpec)) (r : Reporter),
      (entries.map Prod.fst).Nodup → (∀ name ∈ entries.map Prod.fst, r.channels.lookup name = none) →
      (entries.foldl (registerSpec transport) r).channels.lookup other =
        match entries.lookup other with
        | some spec => (newChannelFromSpec transport other spec).toOption
        | none => r.channels.lookup other
  | [], r, _, _ => rfl
  | (name, spec) :: rest, r, nodup, fresh => by
      rw [List.map_cons, List.nodup_cons] at nodup
      rw [List.foldl_cons, lookup_foldl_registerSpec transport other rest _ nodup.2
        (registerSpec_keeps_fresh transport spec nodup.1 fresh)]
      by_cases here : other = name
      · subst here
        rw [lookup_eq_none_of_not_mem nodup.1, List.lookup_cons, beq_self_eq_true]
        exact lookup_registerSpec_self transport spec (fresh other (List.mem_cons_self _ _))
      · rw [List.lookup_cons, beq_false_of_ne here]
        cases rest.lookup other with
        | some spec' => rfl
        | none => exact lookup_registerSpec_ne transport r spec here

/-- `New` registers exactly the environment's channels of a supported type. -/
theorem lookup_newReporter (transport : Transport)
    (specs : ChannelSpecs) (name : String) :
    (newReporter transport (some specs)).channels.lookup name =
      (specs.entries.lookup name).bind fun spec => (newChannelFromSpec transport name spec).toOption := by
  unfold newReporter
  rw [lookup_foldl_registerSpec transport name specs.entries .empty specs.names_nodup fun _ _ => rfl]
  cases specs.entries.lookup name <;> rfl

/-! ### What `SendToAll` reports -/

theorem filter_ne_of_lookup_eq_none {α : Type} {name : String} {channels : List (String × α)}
    (absent : channels.lookup name = none) : channels.filter (fun entry => entry.1 ≠ name) = channels :=
  List.filter_eq_self.mpr fun entry mem =>
    decide_eq_true fun same => bne_iff_ne.mp (List.lookup_eq_none_iff.mp absent entry mem) same.symm

/-- The entry a spec adds to the registry, if its type is supported. -/
def builtChannel (transport : Transport)
    (entry : String × ChannelSpec) : Option (String × Channel) :=
  (newChannelFromSpec transport entry.1 entry.2).toOption.map (entry.1, ·)

theorem registerSpec_channels (transport : Transport)
    {r : Reporter} {name : String} (spec : ChannelSpec) (fresh : r.channels.lookup name = none) :
    (registerSpec transport r (name, spec)).channels =
      (builtChannel transport (name, spec)).toList ++ r.channels := by
  unfold registerSpec builtChannel
  dsimp only
  cases newChannelFromSpec transport name spec with
  | ok ch => exact congrArg ((name, ch) :: ·) (filter_ne_of_lookup_eq_none fresh)
  | error err => rfl

/-- `New`'s loop puts each built channel in front of the registry: no channel
is replaced, since the names are distinct. -/
theorem channels_foldl_registerSpec (transport : Transport) :
    ∀ (entries : List (String × ChannelSpec)) (r : Reporter),
      (entries.map Prod.fst).Nodup → (∀ name ∈ entries.map Prod.fst, r.channels.lookup name = none) →
      (entries.foldl (registerSpec transport) r).channels =
        (entries.filterMap (builtChannel transport)).reverse ++ r.channels
  | [], r, _, _ => rfl
  | (name, spec) :: rest, r, nodup, fresh => by
      rw [List.map_cons, List.nodup_cons] at nodup
      rw [List.foldl_cons, channels_foldl_registerSpec transport rest _ nodup.2
          (registerSpec_keeps_fresh transport spec nodup.1 fresh),
        registerSpec_channels transport spec (fresh name (List.mem_cons_self _ _)), List.filterMap_cons]
      cases builtChannel transport (name, spec) <;> simp

/-- `SendToAll` on the reporter `New` built reports one error for each channel
the environment declares that `New` builds and whose `Send` refuses the report,
naming it, and no other: none is lost or repeated, in some order. -/
theorem sendToAll_newReporter (transport : Transport)
    (specs : ChannelSpecs) (report : Report) :
    ((newReporter transport (some specs)).sendToAll report).Perm
      (specs.entries.filterMap fun (name, spec) =>
        match newChannelFromSpec transport name spec with
        | .ok ch =>
            match ch.send report with
            | .error err => some ("channel " ++ quote name ++ ": " ++ err)
            | .ok () => none
        | .error _ => none) := by
  unfold Reporter.sendToAll newReporter
  rw [channels_foldl_registerSpec transport specs.entries .empty specs.names_nodup fun _ _ => rfl,
    Reporter.empty_channels, List.append_nil, List.filterMap_reverse, List.filterMap_filterMap]
  refine (List.reverse_perm _).trans (List.Perm.of_eq (List.filterMap_congr ?_))
  rintro ⟨name, spec⟩ -
  unfold builtChannel
  dsimp only
  cases newChannelFromSpec transport name spec <;> rfl

/-! ## `Escalate` -/

/-- `EscalationSpec`. -/
structure EscalationSpec where
  target : String
  channelName : String
  timeout : String
  onTimeout : String
  deriving DecidableEq, Repr

/-- `EscalationRequest`, with the fields of its agent `Escalate` reads. -/
structure EscalationRequest where
  agentName : List UInt8
  emoji : List UInt8
  autonomy : List UInt8
  escalation : Option EscalationSpec
  blockedAction : List UInt8
  blockReason : List UInt8
  actionTier : List UInt8
  deriving DecidableEq, Repr

/-- `EscalationResult`. -/
structure EscalationResult where
  sent : Bool
  timedOut : Bool
  policy : String
  error : Option String
  deriving DecidableEq, Repr

/-- `describeTimeoutAction`. -/
def describeTimeoutAction (action : String) : List UInt8 :=
  if action = "cancel" then utf8 "cancel the run"
  else if action = "proceed" then utf8 "proceed with the action"
  else if action = "retry" then utf8 "retry the action"
  else utf8 "cancel the run"

/-- The report `Escalate` sends. -/
def escalationReport (req : EscalationRequest) (escalation : EscalationSpec) : Report :=
  ⟨req.agentName, req.emoji, .escalation, utf8 "Action blocked: " ++ req.blockedAction,
    utf8 "**Escalation**: Agent `" ++ req.agentName ++ utf8 "` attempted `" ++ req.blockedAction ++
      utf8 "` (tier: " ++ req.actionTier ++ utf8 ") but was blocked.\n\n**Reason**: " ++
      req.blockReason ++ utf8 "\n\n**Autonomy level**: " ++ req.autonomy ++
      utf8 "\n\nThis escalation will " ++ describeTimeoutAction escalation.onTimeout ++
      utf8 " after " ++ utf8 escalation.timeout ++ utf8 ".",
    [], none⟩

/-- The channel an escalation goes to: its channel name, or else its target. -/
def escalationChannel (escalation : EscalationSpec) : String :=
  if escalation.channelName = "" then escalation.target else escalation.channelName

/-- The sending part of `Escalate`: whether the report was sent, and the
error of a failed send. -/
def deliverEscalation (r : Reporter) (channelName : String) (report : Report) :
    Bool × Option String :=
  if r.hasChannel channelName then
    match r.send channelName report with
    | .error err => (false, some err)
    | .ok () => (true, none)
  else (false, none)

/-- The timeout `Escalate` waits: the escalation's, or five minutes when it
does not parse. -/
def escalationTimeout (escalation : EscalationSpec) : Int :=
  match parseDuration escalation.timeout with
  | .ok timeout => timeout
  | .error _ => 5 * minute

/-- `Escalate`. `wait timeout` is how the wait ends: `some err` when the
context is done first, with its error, and `none` when the timer fires. -/
def escalate (r : Reporter) (wait : Int → Option String) (req : EscalationRequest) :
    EscalationResult :=
  match req.escalation with
  | none => ⟨false, false, "", none⟩
  | some escalation =>
      let (sent, error) :=
        deliverEscalation r (escalationChannel escalation) (escalationReport req escalation)
      match wait (escalationTimeout escalation) with
      | some err => ⟨sent, false, "", some err⟩
      | none => ⟨sent, true, escalation.onTimeout, error⟩

theorem toBool_iff_ok {ε : Type} : ∀ result : Except ε Unit, result.toBool = true ↔ result = .ok ()
  | .ok () => iff_of_true rfl rfl
  | .error _ => iff_of_false Bool.false_ne_true Except.noConfusion

/-- Whether `Escalate` delivers: the channel is registered and its send
succeeds, whichever way the wait ends. -/
theorem escalate_sent (r : Reporter) (wait : Int → Option String) {req : EscalationRequest}
    {escalation : EscalationSpec} (configured : req.escalation = some escalation) :
    (escalate r wait req).sent =
      (r.hasChannel (escalationChannel escalation) &&
        (r.send (escalationChannel escalation) (escalationReport req escalation)).toBool) := by
  unfold escalate deliverEscalation
  rw [configured]
  dsimp only
  cases r.hasChannel (escalationChannel escalation) <;>
    cases r.send (escalationChannel escalation) (escalationReport req escalation) <;>
    cases wait _ <;> rfl

/-- An escalation is delivered exactly when the environment declares a channel
under the name it resolves to, `New` builds that channel, and its `Send`
accepts the report; how the wait ends does not change it. -/
theorem escalate_delivers {transport : Transport} {specs : ChannelSpecs}
    (wait : Int → Option String) {req : EscalationRequest} {escalation : EscalationSpec}
    (configured : req.escalation = some escalation) :
    (escalate (newReporter transport (some specs)) wait req).sent = true ↔
      ∃ spec, specs.entries.lookup (escalationChannel escalation) = some spec ∧
        ∃ ch, newChannelFromSpec transport (escalationChannel escalation) spec = .ok ch ∧
          ch.send (escalationReport req escalation) = .ok () := by
  rw [escalate_sent _ wait configured]
  unfold Reporter.hasChannel Reporter.send
  rw [lookup_newReporter]
  cases specs.entries.lookup (escalationChannel escalation) with
  | none => simp
  | some spec =>
      simp only [Option.some.injEq, exists_eq_left', Option.some_bind]
      cases newChannelFromSpec transport (escalationChannel escalation) spec with
      | error err => exact iff_of_false Bool.false_ne_true fun ⟨_, built, _⟩ => Except.noConfusion built
      | ok ch =>
          change (ch.send (escalationReport req escalation)).toBool = true ↔ _
          rw [toBool_iff_ok]
          exact ⟨fun delivered => ⟨ch, rfl, delivered⟩,
            fun ⟨_, built, delivered⟩ => Except.ok.inj built ▸ delivered⟩

/-- A network on which every request is made and answered `200 OK`. -/
def acceptingTransport : Transport :=
  ⟨fun _ => [], fun _ => .ok (), fun _ _ => .ok (200, "")⟩

/-- An escalation of an agent to the `ops` channel. -/
def opsEscalation : EscalationSpec :=
  ⟨"ops", "", "10m", "cancel"⟩

/-- A blocked action of an agent whose escalation goes to `ops`. -/
def opsRequest : EscalationRequest :=
  ⟨utf8 "watchman", [], utf8 "observe", some opsEscalation, utf8 "kubectl delete pod",
    utf8 "tier exceeds autonomy", utf8 "destructive"⟩

/-- An environment with one Slack channel, `ops`. -/
def opsSpecs : ChannelSpecs :=
  ⟨[("ops", ⟨"slack", "https://hooks.slack.com/services/T0/B0/x", ""⟩)],
    List.nodup_cons.mpr ⟨List.not_mem_nil _, List.nodup_nil⟩⟩

theorem escalate_delivers_to_ops :
    opsRequest.escalation = some opsEscalation ∧
      ((escalate (newReporter acceptingTransport (some opsSpecs)) (fun _ => none) opsRequest).sent =
          true ↔
        ∃ spec, opsSpecs.entries.lookup (escalationChannel opsEscalation) = some spec ∧
          ∃ ch, newChannelFromSpec acceptingTransport (escalationChannel opsEscalation) spec = .ok ch ∧
            ch.send (escalationReport opsRequest opsEscalation) = .ok ()) :=
  ⟨rfl, @escalate_delivers acceptingTransport opsSpecs (fun _ => none) opsRequest opsEscalation rfl⟩

/-- `Escalate` to a channel the environment declares as Telegram: the send
always fails, since `New` never sets the bot token, so the escalation is never
delivered; when the timer fires, the result carries the bot-token error. -/
theorem escalate_to_telegram {transport : Transport} {specs : ChannelSpecs}
    (wait : Int → Option String) {req : EscalationRequest} {escalation : EscalationSpec}
    {spec : ChannelSpec} (configured : req.escalation = some escalation)
    (declared : specs.entries.lookup (escalationChannel escalation) = some spec)
    (telegram : spec.type = "telegram") :
    escalate (newReporter transport (some specs)) wait req =
      match wait (escalationTimeout escalation) with
      | some err => ⟨false, false, "", some err⟩
      | none => ⟨false, true, escalation.onTimeout, some (botTokenError spec.secretRef)⟩ := by
  have registered : (newReporter transport (some specs)).channels.lookup (escalationChannel escalation) =
      some ⟨"telegram",
        (newTelegramChannel (escalationChannel escalation) spec.target spec.secretRef).send transport⟩ := by
    rw [lookup_newReporter, declared, Option.some_bind, newChannelFromSpec_telegram transport _ telegram]
    rfl
  have refused : deliverEscalation (newReporter transport (some specs)) (escalationChannel escalation)
      (escalationReport req escalation) = (false, some (botTokenError spec.secretRef)) := by
    unfold deliverEscalation Reporter.hasChannel Reporter.send
    rw [registered]
    dsimp only
    rw [newTelegramChannel_send]
    rfl
  unfold escalate
  rw [configured]
  dsimp only
  rw [refused]

/-- An environment whose `ops` channel is a Telegram chat. -/
def opsTelegramSpecs : ChannelSpecs :=
  ⟨[("ops", ⟨"telegram", "-1001234567890", "telegram-bot"⟩)],
    List.nodup_cons.mpr ⟨List.not_mem_nil _, List.nodup_nil⟩⟩

theorem telegram_escalation_not_sent :
    opsRequest.escalation = some opsEscalation ∧
      opsTelegramSpecs.entries.lookup (escalationChannel opsEscalation) =
        some ⟨"telegram", "-1001234567890", "telegram-bot"⟩ ∧
      (⟨"telegram", "-1001234567890", "telegram-bot"⟩ : ChannelSpec).type = "telegram" ∧
      escalate (newReporter acceptingTransport (some opsTelegramSpecs)) (fun _ => none) opsRequest =
        ⟨false, true, "cancel", some (botTokenError "telegram-bot")⟩ :=
  ⟨rfl, rfl, rfl, @escalate_to_telegram acceptingTransport opsTelegramSpecs (fun _ => none) opsRequest
    opsEscalation ⟨"telegram", "-1001234567890", "telegram-bot"⟩ rfl rfl rfl⟩

end Legator.Reporter
