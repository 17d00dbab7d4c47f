import Legator.System
import Legator.Time
import Legator.Names

/-!
# Webhook triggers and their debouncing

`WebhookHandler` of the scheduler package maps webhook sources to agents. A
`POST /webhook/{source}` reads the agents registered for the source and, for
each of them in turn, asks the `Debouncer` whether the key
`source/namespace/name` may fire and, if so, offers a trigger to a channel
buffered for 100 triggers, dropping it when the buffer is full.

The handler's map, the debouncer and the channel are each locked separately, so
the map read, each `ShouldFire` and each channel send of a request are atomic
steps that interleave with other requests, with registrations, and with the
scheduler draining the channel. The model keeps each request in flight as a
`Delivery` and makes each of these steps one event.
-/

namespace Legator.Scheduler

open Legator.Time

/-- `WebhookTrigger`. -/
structure WebhookTrigger where
  agentKey : NamespacedName
  source : String
  payload : List UInt8
  time : Int
  deriving DecidableEq

/-! ## The debouncer -/

/-- `Debouncer`: the window and the last fire time of each key. -/
structure Debouncer where
  window : Int
  last : String → Option Int

namespace Debouncer

/-- `NewDebouncer`: a window that is not positive becomes thirty seconds. -/
def newDebouncer (window : Int) : Debouncer :=
  ⟨if window ≤ 0 then 30 * second else window, fun _ => none⟩

/-- `ShouldFire` at clock reading `now`: refuse within the window of the last
fire, otherwise record `now` as the key's last fire. -/
def shouldFire (d : Debouncer) (key : String) (now : Int) : Bool × Debouncer :=
  match d.last key with
  | some last => if now - last < d.window then (false, d)
      else (true, { d with last := fun other => if other = key then some now else d.last other })
  | none => (true, { d with last := fun other => if other = key then some now else d.last other })

/-- `Reset`: forget every key. -/
def reset (d : Debouncer) : Debouncer :=
  { d with last := fun _ => none }

/-- `Clean` at clock reading `now`: forget the keys last fired before the
threshold `now.Add(-2 * window)`, whose product is an `int64` and wraps. -/
def clean (d : Debouncer) (now : Int) : Debouncer :=
  { d with
    last := fun key =>
      (d.last key).filter fun last => !decide (last < now + wrapInt64 (-2 * d.window)) }

/-- What `ShouldFire` does, in one statement: either it refuses and changes
nothing, because the key fired less than a window ago, or it fires and records
the key at `now`. -/
theorem shouldFire_cases (d : Debouncer) (key : String) (now : Int) :
    (∃ last, d.last key = some last ∧ now - last < d.window ∧
        d.shouldFire key now = (false, d)) ∨
      ((∀ last, d.last key = some last → d.window ≤ now - last) ∧
        d.shouldFire key now =
          (true, { d with last := fun other => if other = key then some now else d.last other })) := by
  unfold shouldFire
  cases found : d.last key with
  | none => exact Or.inr ⟨fun _ absent => absurd absent (by simp), rfl⟩
  | some last =>
      by_cases recent : now - last < d.window
      · exact Or.inl ⟨last, rfl, recent, by simp [recent]⟩
      · refine Or.inr ⟨fun other same => ?_, by simp [recent]⟩
        cases same
        omega

end Debouncer

/-! ## The handler -/

/-- `WebhookHandler`: the debouncer, the buffered trigger channel, and
`agentMap`, where a source without agents maps to the empty list. -/
structure WebhookHandler where
  debouncer : Debouncer
  triggers : List WebhookTrigger
  agentMap : String → List NamespacedName

/-- The buffer size of the trigger channel. -/
def triggerCapacity : Nat := 100

/-- The most body bytes a request reads: `io.LimitReader(r.Body, 1024*1024)`. -/
def maxPayload : Nat := 1024 * 1024

namespace WebhookHandler

/-- `NewWebhookHandler`. -/
def newWebhookHandler (debounceWindow : Int) : WebhookHandler :=
  ⟨Debouncer.newDebouncer debounceWindow, [], fun _ => []⟩

/-- `RegisterAgent`: append the agent to the source's list. -/
def registerAgent (h : WebhookHandler) (source : String) (agentKey : NamespacedName) :
    WebhookHandler :=
  { h with agentMap := fun other =>
      if other = source then h.agentMap other ++ [agentKey] else h.agentMap other }

/-- `UnregisterAgent`: remove the agent from every source. -/
def unregisterAgent (h : WebhookHandler) (agentKey : NamespacedName) : WebhookHandler :=
  { h with agentMap := fun source => (h.agentMap source).filter (· != agentKey) }

end WebhookHandler

/-- `extractSource`: the path after `/webhook/`, or `""`. The prefix is ASCII,
so comparing characters is comparing Go's bytes. -/
def extractSource (path : String) : String :=
  if "/webhook/".data.isPrefixOf path.data then ⟨path.data.drop 9⟩ else ""

/-- The debounce key `source/namespace/name` of `ServeHTTP`. -/
def debounceKey (source : String) (agentKey : NamespacedName) : String :=
  source ++ "/" ++ agentKey.«namespace» ++ "/" ++ agentKey.name

/-- Debounce keys of different source and agent pairs differ: the agent's
namespace and name hold no `/`, so the key splits at its last two. -/
theorem debounceKey_injective {source source' : String} {agentKey agentKey' : NamespacedName}
    (same : debounceKey source agentKey = debounceKey source' agentKey') :
    source = source' ∧ agentKey = agentKey' := by
  obtain ⟨«namespace», name, namespaceNoSlash, nameNoSlash⟩ := agentKey
  obtain ⟨namespace', name', namespaceNoSlash', nameNoSlash'⟩ := agentKey'
  have reversed := congrArg (fun key : String => key.data.reverse) same
  simp only [debounceKey, String.data_append, List.reverse_append, List.reverse_singleton,
    List.singleton_append] at reversed
  obtain ⟨nameSame, rest⟩ := append_cons_inj_of_not_mem
    (by simpa using nameNoSlash) (by simpa using nameNoSlash') reversed
  obtain ⟨namespaceSame, sourceSame⟩ := append_cons_inj_of_not_mem
    (by simpa using namespaceNoSlash) (by simpa using namespaceNoSlash') rest
  obtain rfl : name = name' := String.ext (List.reverse_inj.mp nameSame)
  obtain rfl : «namespace» = namespace' := String.ext (List.reverse_inj.mp namespaceSame)
  exact ⟨String.ext (List.reverse_inj.mp sourceSame), rfl⟩

/-! ## Requests in flight -/

/-- What `ServeHTTP` writes back: an error, or `202 Accepted` with the number of
agents read and, when there were any, the number of triggers sent. -/
inductive WebhookResponse
  | error (code : Nat) (message : String)
  | accepted (agents : Nat) (triggered : Option Nat)
  deriving DecidableEq

/-- A request of `ServeHTTP` past its agent lookup: the `agents` it read, the
suffix still to debounce, the agent whose trigger is about to be offered, and
how many were sent. The fields at the end hold because both agent lists come
from the lookup. -/
structure Delivery where
  source : String
  payload : List UInt8
  agents : List NamespacedName
  pending : List NamespacedName
  sending : Option NamespacedName
  triggered : Nat
  answered : Bool
  pendingSuffix : pending <:+ agents
  sendingRead : ∀ agentKey, sending = some agentKey → agentKey ∈ agents

namespace Delivery

/-- A request that has just read `agents`. -/
def start (source : String) (payload : List UInt8) (agents : List NamespacedName) : Delivery :=
  ⟨source, payload, agents, agents, none, 0, false, List.suffix_refl agents,
    fun _ absent => Option.noConfusion absent⟩

@[simp]
theorem start_source (source : String) (payload : List UInt8) (agents : List NamespacedName) :
    (start source payload agents).source = source :=
  rfl

@[simp]
theorem start_agents (source : String) (payload : List UInt8) (agents : List NamespacedName) :
    (start source payload agents).agents = agents :=
  rfl

/-- The loop moves past its next agent; when `ShouldFire` said yes, that agent's
trigger is the next to be offered. -/
def debounced (d : Delivery) (fire : Bool) : Delivery :=
  match pendingEq : d.pending with
  | [] => d
  | agentKey :: rest =>
      { d with
        pending := rest
        sending := if fire then some agentKey else none
        pendingSuffix := (List.suffix_cons agentKey rest).trans (pendingEq ▸ d.pendingSuffix)
        sendingRead := fun other sent => by
          have read : agentKey ∈ d.agents :=
            d.pendingSuffix.subset (pendingEq ▸ List.mem_cons_self agentKey rest)
          cases fire <;> simp only [Bool.false_eq_true, ite_true, ite_false, Option.some.injEq,
            reduceCtorEq] at sent
          exact sent ▸ read }

/-- The trigger was offered to the channel, and `sent` says whether it found room. -/
def offered (d : Delivery) (sent : Bool) : Delivery :=
  { d with
    sending := none
    triggered := if sent then d.triggered + 1 else d.triggered
    sendingRead := fun _ absent => Option.noConfusion absent }

@[simp]
theorem debounced_source (d : Delivery) (fire : Bool) : (d.debounced fire).source = d.source := by
  unfold debounced; split <;> rfl

@[simp]
theorem debounced_agents (d : Delivery) (fire : Bool) : (d.debounced fire).agents = d.agents := by
  unfold debounced; split <;> rfl

@[simp]
theorem offered_source (d : Delivery) (sent : Bool) : (d.offered sent).source = d.source :=
  rfl

@[simp]
theorem offered_agents (d : Delivery) (sent : Bool) : (d.offered sent).agents = d.agents :=
  rfl

end Delivery

/-- `ServeHTTP` up to its agent lookup: the request is answered at once, or it
goes on with the agents registered for its source. -/
def WebhookHandler.serveHTTP (h : WebhookHandler) (method path : String)
    (body : Option (List UInt8)) : Except WebhookResponse Delivery :=
  if method ≠ "POST" then .error (.error 405 "method not allowed")
  else if extractSource path = "" then .error (.error 400 "missing source in path")
  else match body with
    | none => .error (.error 400 "failed to read body")
    | some bytes =>
        if h.agentMap (extractSource path) = [] then .error (.accepted 0 none)
        else .ok (.start (extractSource path) (bytes.take maxPayload)
          (h.agentMap (extractSource path)))

theorem WebhookHandler.serveHTTP_ok {h : WebhookHandler} {method path : String}
    {body : Option (List UInt8)} {d : Delivery} (accepted : h.serveHTTP method path body = .ok d) :
    d.source = extractSource path ∧ d.agents = h.agentMap (extractSource path) := by
  unfold serveHTTP at accepted
  split_ifs at accepted <;> split at accepted <;>
    simp only [reduceCtorEq, Except.ok.injEq] at accepted
  subst accepted
  exact ⟨Delivery.start_source .., Delivery.start_agents ..⟩

/-- A `ShouldFire` call that said yes: the source and agent of its key, and the
clock reading it recorded. -/
structure Fire where
  source : String
  agentKey : NamespacedName
  firedAt : Int

/-- The handler with its requests in flight, and two histories no code reads:
every `ShouldFire` that said yes, and every trigger the channel accepted, with
the request that sent it. -/
structure WebhookState where
  handler : WebhookHandler
  clock : Int
  deliveries : List Delivery
  responses : List WebhookResponse
  fired : List Fire
  enqueued : List (Nat × WebhookTrigger)

/-- The atomic steps: a request's lookup, one `ShouldFire`, one channel offer
and its reply; registrations; the scheduler receiving a trigger; the clock; and
the debouncer's own `Clean` and `Reset`. -/
inductive WebhookEvent
  | serve (method path : String) (body : Option (List UInt8))
  | debounce (id : Nat)
  | send (id : Nat)
  | respond (id : Nat)
  | registerAgent (source : String) (agentKey : NamespacedName)
  | unregisterAgent (agentKey : NamespacedName)
  | receive
  | tick (elapsed : Nat)
  | clean
  | reset

namespace WebhookState

/-- A fresh handler at clock reading `clock`. -/
def init (debounceWindow clock : Int) : WebhookState :=
  ⟨WebhookHandler.newWebhookHandler debounceWindow, clock, [], [], [], []⟩

/-- A request arrives and reads the agent map. -/
def serve (w : WebhookState) (method path : String) (body : Option (List UInt8)) :
    WebhookState :=
  match w.handler.serveHTTP method path body with
  | .error response => { w with responses := w.responses ++ [response] }
  | .ok d => { w with deliveries := w.deliveries ++ [d] }

/-- Request `id`, holding `d`, asks `ShouldFire` about `agentKey`, its next
agent. -/
def debounceAgent (w : WebhookState) (id : Nat) (d : Delivery) (agentKey : NamespacedName) :
    WebhookState :=
  let result := w.handler.debouncer.shouldFire (debounceKey d.source agentKey) w.clock
  { w with
    handler := { w.handler with debouncer := result.2 }
    deliveries := w.deliveries.set id (d.debounced result.1)
    fired := if result.1 then w.fired ++ [⟨d.source, agentKey, w.clock⟩] else w.fired }

/-- Request `id` asks `ShouldFire` about its next agent. -/
def debounce (w : WebhookState) (id : Nat) : Option WebhookState :=
  match w.deliveries[id]? with
  | some d =>
      match d.sending, d.pending with
      | none, agentKey :: _ => some (w.debounceAgent id d agentKey)
      | _, _ => none
  | none => none

/-- Request `id`, holding `d`, offers the trigger for `agentKey` to the channel,
which drops it when full. -/
def offer (w : WebhookState) (id : Nat) (d : Delivery) (agentKey : NamespacedName) :
    WebhookState :=
  let trigger : WebhookTrigger := ⟨agentKey, d.source, d.payload, w.clock⟩
  if w.handler.triggers.length < triggerCapacity then
    { w with
      handler := { w.handler with triggers := w.handler.triggers ++ [trigger] }
      deliveries := w.deliveries.set id (d.offered true)
      enqueued := w.enqueued ++ [(id, trigger)] }
  else { w with deliveries := w.deliveries.set id (d.offered false) }

/-- Request `id` offers its trigger to the channel. -/
def send (w : WebhookState) (id : Nat) : Option WebhookState :=
  match w.deliveries[id]? with
  | some d =>
      match d.sending with
      | some agentKey => some (w.offer id d agentKey)
      | none => none
  | none => none

/-- Request `id`, done with its agents, answers. -/
def respond (w : WebhookState) (id : Nat) : Option WebhookState :=
  match w.deliveries[id]? with
  | some d =>
      if d.pending = [] ∧ d.sending = none ∧ d.answered = false then
        some { w with
          deliveries := w.deliveries.set id { d with answered := true }
          responses := w.responses ++ [.accepted d.agents.length (some d.triggered)] }
      else none
  | none => none

/-- The scheduler receives the oldest trigger. -/
def receive (w : WebhookState) : Option WebhookState :=
  match w.handler.triggers with
  | [] => none
  | _ :: rest => some { w with handler := { w.handler with triggers := rest } }

/-- One atomic step. -/
def step (w : WebhookState) : WebhookEvent → Option WebhookState
  | .serve method path body => some (w.serve method path body)
  | .debounce id => w.debounce id
  | .send id => w.send id
  | .respond id => w.respond id
  | .registerAgent source agentKey =>
      some { w with handler := w.handler.registerAgent source agentKey }
  | .unregisterAgent agentKey => some { w with handler := w.handler.unregisterAgent agentKey }
  | .receive => w.receive
  | .tick elapsed => some { w with clock := w.clock + elapsed }
  | .clean =>
      some { w with handler := { w.handler with debouncer := w.handler.debouncer.clean w.clock } }
  | .reset => some { w with handler := { w.handler with debouncer := w.handler.debouncer.reset } }

/-- A handler just built, and every interleaving of steps from it. -/
def system : System WebhookState WebhookEvent :=
  ⟨fun w => ∃ debounceWindow clock, w = init debounceWindow clock, step⟩

/-! ## What a step changes -/

@[simp]
theorem serve_handler (w : WebhookState) (method path : String) (body : Option (List UInt8)) :
    (w.serve method path body).handler = w.handler := by
  unfold serve; split <;> rfl

@[simp]
theorem serve_clock (w : WebhookState) (method path : String) (body : Option (List UInt8)) :
    (w.serve method path body).clock = w.clock := by
  unfold serve; split <;> rfl

@[simp]
theorem serve_fired (w : WebhookState) (method path : String) (body : Option (List UInt8)) :
    (w.serve method path body).fired = w.fired := by
  unfold serve; split <;> rfl

@[simp]
theorem serve_enqueued (w : WebhookState) (method path : String) (body : Option (List UInt8)) :
    (w.serve method path body).enqueued = w.enqueued := by
  unfold serve; split <;> rfl

@[simp]
theorem offer_debouncer (w : WebhookState) (id : Nat) (d : Delivery) (agentKey : NamespacedName) :
    (w.offer id d agentKey).handler.debouncer = w.handler.debouncer := by
  unfold offer; split <;> rfl

@[simp]
theorem offer_clock (w : WebhookState) (id : Nat) (d : Delivery) (agentKey : NamespacedName) :
    (w.offer id d agentKey).clock = w.clock := by
  unfold offer; split <;> rfl

@[simp]
theorem offer_fired (w : WebhookState) (id : Nat) (d : Delivery) (agentKey : NamespacedName) :
    (w.offer id d agentKey).fired = w.fired := by
  unfold offer; split <;> rfl

/-- An offer either finds room, and the channel and the history take the
trigger, or drops it. -/
theorem offer_cases (w : WebhookState) (id : Nat) (d : Delivery) (agentKey : NamespacedName) :
    ((w.offer id d agentKey).deliveries = w.deliveries.set id (d.offered true) ∧
        (w.offer id d agentKey).enqueued =
          w.enqueued ++ [(id, ⟨agentKey, d.source, d.payload, w.clock⟩)]) ∨
      ((w.offer id d agentKey).deliveries = w.deliveries.set id (d.offered false) ∧
        (w.offer id d agentKey).enqueued = w.enqueued) := by
  unfold offer
  split
  · exact Or.inl ⟨rfl, rfl⟩
  · exact Or.inr ⟨rfl, rfl⟩

theorem debounce_eq_some {w w' : WebhookState} {id : Nat} (stepped : w.debounce id = some w') :
    ∃ d agentKey rest, w.deliveries[id]? = some d ∧ d.sending = none ∧
      d.pending = agentKey :: rest ∧ w.debounceAgent id d agentKey = w' := by
  unfold debounce at stepped
  split at stepped
  · split at stepped
    · rename_i d found _ _ agentKey rest sending pending
      exact ⟨d, agentKey, rest, found, sending, pending, Option.some.inj stepped⟩
    · cases stepped
  · cases stepped

theorem send_eq_some {w w' : WebhookState} {id : Nat} (stepped : w.send id = some w') :
    ∃ d agentKey, w.deliveries[id]? = some d ∧ d.sending = some agentKey ∧
      w.offer id d agentKey = w' := by
  unfold send at stepped
  split at stepped
  · split at stepped
    · rename_i d found _ agentKey sending
      exact ⟨d, agentKey, found, sending, Option.some.inj stepped⟩
    · cases stepped
  · cases stepped

theorem respond_eq_some {w w' : WebhookState} {id : Nat} (stepped : w.respond id = some w') :
    ∃ d, w.deliveries[id]? = some d ∧
      w' = { w with
        deliveries := w.deliveries.set id { d with answered := true }
        responses := w.responses ++ [.accepted d.agents.length (some d.triggered)] } := by
  unfold respond at stepped
  split at stepped
  · split_ifs at stepped
    rename_i d found _
    exact ⟨d, found, (Option.some.inj stepped).symm⟩
  · cases stepped

theorem receive_eq_some {w w' : WebhookState} (stepped : w.receive = some w') :
    ∃ rest, w' = { w with handler := { w.handler with triggers := rest } } := by
  unfold receive at stepped
  split at stepped
  · cases stepped
  · exact ⟨_, (Option.some.inj stepped).symm⟩

/-! ## Requests keep what they read -/

/-- Every request of `deliveries` is still in `deliveries'`, with the source and
agents it read. -/
def KeepsRequests (deliveries deliveries' : List Delivery) : Prop :=
  ∀ (id : Nat) (d : Delivery), deliveries[id]? = some d →
    ∃ d', deliveries'[id]? = some d' ∧ d'.source = d.source ∧ d'.agents = d.agents

theorem KeepsRequests.refl (deliveries : List Delivery) : KeepsRequests deliveries deliveries :=
  fun _ d found => ⟨d, found, rfl, rfl⟩

theorem KeepsRequests.trans {first second third : List Delivery}
    (earlier : KeepsRequests first second) (later : KeepsRequests second third) :
    KeepsRequests first third := by
  intro id d found
  obtain ⟨d', found', source', agents'⟩ := earlier id d found
  obtain ⟨d'', found'', source'', agents''⟩ := later id d' found'
  exact ⟨d'', found'', source''.trans source', agents''.trans agents'⟩

theorem keepsRequests_append (deliveries : List Delivery) (d : Delivery) :
    KeepsRequests deliveries (deliveries ++ [d]) := fun _ e found =>
  ⟨e, (List.getElem?_append_left (List.getElem?_eq_some_iff.mp found).fst).trans found, rfl, rfl⟩

theorem getElem?_set_of_found {deliveries : List Delivery} {id : Nat} {d : Delivery}
    (found : deliveries[id]? = some d) (d' : Delivery) : (deliveries.set id d')[id]? = some d' :=
  List.getElem?_set_self (List.getElem?_eq_some_iff.mp found).fst

theorem keepsRequests_set {deliveries : List Delivery} {id : Nat} {d d' : Delivery}
    (found : deliveries[id]? = some d) (source : d'.source = d.source)
    (agents : d'.agents = d.agents) : KeepsRequests deliveries (deliveries.set id d') := by
  intro other e otherFound
  by_cases same : id = other
  · subst same
    obtain rfl : d = e := Option.some.inj (found.symm.trans otherFound)
    exact ⟨d', getElem?_set_of_found found d', source, agents⟩
  · exact ⟨e, (List.getElem?_set_ne same).trans otherFound, rfl, rfl⟩

/-- No step forgets a request or changes what it read. -/
theorem keepsRequests_step {w w' : WebhookState} {event : WebhookEvent}
    (stepped : w.step event = some w') : KeepsRequests w.deliveries w'.deliveries := by
  cases event with
  | serve method path body =>
      cases stepped
      unfold serve
      split
      · exact KeepsRequests.refl _
      · exact keepsRequests_append _ _
  | debounce id =>
      obtain ⟨d, agentKey, rest, found, -, -, rfl⟩ := debounce_eq_some stepped
      exact keepsRequests_set found (d.debounced_source _) (d.debounced_agents _)
  | send id =>
      obtain ⟨d, agentKey, found, -, rfl⟩ := send_eq_some stepped
      rcases offer_cases w id d agentKey with ⟨same, -⟩ | ⟨same, -⟩ <;> rw [same] <;>
        exact keepsRequests_set found rfl rfl
  | respond id =>
      obtain ⟨d, found, rfl⟩ := respond_eq_some stepped
      exact keepsRequests_set found rfl rfl
  | receive =>
      obtain ⟨rest, rfl⟩ := receive_eq_some stepped
      exact KeepsRequests.refl _
  | registerAgent | unregisterAgent | tick | clean | reset =>
      cases stepped
      exact KeepsRequests.refl _

theorem keepsRequests_replay {w w' : WebhookState} {events : List WebhookEvent}
    (run : system.replay w events = some w') : KeepsRequests w.deliveries w'.deliveries := by
  induction events generalizing w with
  | nil => cases run; exact KeepsRequests.refl _
  | cons event events inductionHypothesis =>
      obtain ⟨middle, stepped, rest⟩ := Option.bind_eq_some.mp run
      exact (keepsRequests_step stepped).trans (inductionHypothesis rest)

/-! ## Invariants -/

/-- Request `entry.1` read the source and the agent of trigger `entry.2`. -/
def ReadBy (deliveries : List Delivery) (entry : Nat × WebhookTrigger) : Prop :=
  ∃ d, deliveries[entry.1]? = some d ∧ entry.2.source = d.source ∧ entry.2.agentKey ∈ d.agents

theorem KeepsRequests.readBy {deliveries deliveries' : List Delivery}
    (keeps : KeepsRequests deliveries deliveries') {entry : Nat × WebhookTrigger}
    (read : ReadBy deliveries entry) : ReadBy deliveries' entry := by
  obtain ⟨d, found, source, agent⟩ := read
  obtain ⟨d', found', source', agents'⟩ := keeps _ d found
  exact ⟨d', found', source'.symm ▸ source, agents'.symm ▸ agent⟩

/-- Every trigger the channel accepted went to an agent that its request had read
for its source. -/
def EnqueuedRead (w : WebhookState) : Prop :=
  ∀ entry ∈ w.enqueued, ReadBy w.deliveries entry

theorem EnqueuedRead.keep {w w' : WebhookState} (read : EnqueuedRead w)
    (keeps : KeepsRequests w.deliveries w'.deliveries) (same : w'.enqueued = w.enqueued) :
    EnqueuedRead w' :=
  fun entry mem => keeps.readBy (read entry (same ▸ mem))

theorem EnqueuedRead.step {w w' : WebhookState} {event : WebhookEvent} (read : EnqueuedRead w)
    (stepped : w.step event = some w') : EnqueuedRead w' := by
  have keeps := keepsRequests_step stepped
  cases event with
  | send id =>
      obtain ⟨d, agentKey, found, sending, rfl⟩ := send_eq_some stepped
      rcases offer_cases w id d agentKey with ⟨deliveries, enqueued⟩ | ⟨-, enqueued⟩
      · intro entry mem
        rw [enqueued, List.mem_append, List.mem_singleton] at mem
        rcases mem with old | rfl
        · exact keeps.readBy (read entry old)
        · rw [ReadBy, deliveries]
          exact ⟨_, getElem?_set_of_found found _, rfl, d.sendingRead agentKey sending⟩
      · exact read.keep keeps enqueued
  | serve => exact read.keep keeps (by cases stepped; simp)
  | debounce id =>
      obtain ⟨d, agentKey, rest, -, -, -, rfl⟩ := debounce_eq_some stepped
      exact read.keep keeps rfl
  | respond id =>
      obtain ⟨d, -, rfl⟩ := respond_eq_some stepped
      exact read.keep keeps rfl
  | receive =>
      obtain ⟨rest, rfl⟩ := receive_eq_some stepped
      exact read.keep keeps rfl
  | registerAgent | unregisterAgent | tick | clean | reset =>
      cases stepped
      exact read.keep keeps rfl

/-- Every key the debouncer remembers was set by a `ShouldFire` that said yes,
at the reading it remembers, and no such answer lies ahead of the clock. -/
structure Recorded (w : WebhookState) : Prop where
  lastFired : ∀ key lastAt, w.handler.debouncer.last key = some lastAt →
    ∃ f ∈ w.fired, debounceKey f.source f.agentKey = key ∧ f.firedAt = lastAt
  firedPast : ∀ f ∈ w.fired, f.firedAt ≤ w.clock

theorem Recorded.keep {w w' : WebhookState} (recorded : Recorded w)
    (debouncer : w'.handler.debouncer = w.handler.debouncer) (fired : w'.fired = w.fired)
    (clock : w'.clock = w.clock) : Recorded w' where
  lastFired key lastAt found := fired ▸ recorded.lastFired key lastAt (debouncer ▸ found)
  firedPast f mem := clock ▸ recorded.firedPast f (fired ▸ mem)

theorem recorded_debounceAgent {w : WebhookState} (recorded : Recorded w) (id : Nat)
    (d : Delivery) (agentKey : NamespacedName) : Recorded (w.debounceAgent id d agentKey) := by
  rcases Debouncer.shouldFire_cases w.handler.debouncer (debounceKey d.source agentKey) w.clock
    with ⟨-, -, -, refused⟩ | ⟨-, fires⟩
  · exact recorded.keep (by simp [debounceAgent, refused]) (by simp [debounceAgent, refused]) rfl
  · constructor
    · intro key lastAt found
      simp only [debounceAgent, fires, ite_true] at found ⊢
      split_ifs at found with same
      · cases found
        exact ⟨_, List.mem_append_right _ (List.mem_singleton_self _), same.symm, rfl⟩
      · obtain ⟨f, mem, keyEq, firedAt⟩ := recorded.lastFired key lastAt found
        exact ⟨f, List.mem_append_left _ mem, keyEq, firedAt⟩
    · intro f mem
      simp only [debounceAgent, fires, ite_true, List.mem_append, List.mem_singleton] at mem ⊢
      rcases mem with old | rfl
      · exact recorded.firedPast f old
      · exact Int.le_refl _

theorem Recorded.step {w w' : WebhookState} {event : WebhookEvent} (recorded : Recorded w)
    (stepped : w.step event = some w') : Recorded w' := by
  cases event with
  | debounce id =>
      obtain ⟨d, agentKey, rest, -, -, -, rfl⟩ := debounce_eq_some stepped
      exact recorded_debounceAgent recorded id d agentKey
  | send id =>
      obtain ⟨d, agentKey, -, -, rfl⟩ := send_eq_some stepped
      exact recorded.keep (offer_debouncer ..) (offer_fired ..) (offer_clock ..)
  | respond id =>
      obtain ⟨d, -, rfl⟩ := respond_eq_some stepped
      exact recorded.keep rfl rfl rfl
  | receive =>
      obtain ⟨rest, rfl⟩ := receive_eq_some stepped
      exact recorded.keep rfl rfl rfl
  | serve =>
      cases stepped
      exact recorded.keep (by simp) (by simp) (by simp)
  | registerAgent | unregisterAgent =>
      cases stepped
      exact recorded.keep rfl rfl rfl
  | tick elapsed =>
      cases stepped
      exact ⟨recorded.lastFired, fun f mem => by
        have := recorded.firedPast f mem
        simp only; omega⟩
  | clean =>
      cases stepped
      refine ⟨fun key lastAt found => recorded.lastFired key lastAt ?_, recorded.firedPast⟩
      exact (Option.filter_eq_some.mp found).1
  | reset =>
      cases stepped
      exact ⟨fun _ _ absent => (by cases absent), recorded.firedPast⟩

/-- Both invariants. -/
structure Consistent (w : WebhookState) : Prop where
  recorded : Recorded w
  enqueuedRead : EnqueuedRead w

theorem consistent_of_reachable {w : WebhookState} (reachable : system.Reachable w) :
    Consistent w := by
  refine System.Reachable.invariant (fun start initial => ?_)
    (fun _ _ _ consistent stepped => ⟨consistent.recorded.step stepped,
      consistent.enqueuedRead.step stepped⟩) reachable
  obtain ⟨window, clock, rfl⟩ := initial
  exact ⟨⟨fun _ _ absent => (by cases absent), fun _ absent => (by cases absent)⟩,
    fun _ absent => (by cases absent)⟩

/-- A `ShouldFire` that would say no now is explained by a yes for the same
source and agent less than a window ago. -/
theorem Recorded.suppressed {w : WebhookState} (recorded : Recorded w) {source : String}
    {agentKey : NamespacedName}
    (refused : (w.handler.debouncer.shouldFire (debounceKey source agentKey) w.clock).1 = false) :
    ∃ f ∈ w.fired, f.source = source ∧ f.agentKey = agentKey ∧ f.firedAt ≤ w.clock ∧
      w.clock - f.firedAt < w.handler.debouncer.window := by
  rcases Debouncer.shouldFire_cases w.handler.debouncer (debounceKey source agentKey) w.clock
    with ⟨lastAt, found, recent, -⟩ | ⟨-, fires⟩
  · obtain ⟨f, mem, keyEq, firedAt⟩ := recorded.lastFired _ lastAt found
    obtain ⟨rfl, rfl⟩ := debounceKey_injective keyEq
    exact ⟨f, mem, rfl, rfl, recorded.firedPast f mem, firedAt ▸ recent⟩
  · rw [fires] at refused
    cases refused

theorem webhook_triggers_sound :
    (∀ w d method path body events w', system.Reachable w →
      w.handler.serveHTTP method path body = .ok d →
      system.replay (w.serve method path body) events = some w' →
      ∀ trigger, (w.deliveries.length, trigger) ∈ w'.enqueued →
        trigger.source = extractSource path ∧
          trigger.agentKey ∈ w.handler.agentMap (extractSource path)) ∧
    (∀ w, system.Reachable w → ∀ source agentKey,
      (w.handler.debouncer.shouldFire (debounceKey source agentKey) w.clock).1 = false →
      ∃ f ∈ w.fired, f.source = source ∧ f.agentKey = agentKey ∧ f.firedAt ≤ w.clock ∧
        w.clock - f.firedAt < w.handler.debouncer.window) := by
  constructor
  · intro w d method path body events w' reachable accepted run trigger mem
    have served : (w.serve method path body).deliveries[w.deliveries.length]? = some d := by
      simp only [serve, accepted]
      exact List.getElem?_concat_length _ _
    obtain ⟨d', found, source, agents⟩ := keepsRequests_replay run _ d served
    have arrived : system.Reachable (w.serve method path body) :=
      System.Reachable.step (WebhookEvent.serve method path body) reachable rfl
    have ending := System.reachable_of_replay arrived run
    obtain ⟨d'', found'', triggerSource, triggerAgent⟩ :=
      (consistent_of_reachable ending).enqueuedRead _ mem
    obtain rfl : d' = d'' := Option.some.inj (found.symm.trans found'')
    obtain ⟨sourceRead, agentsRead⟩ := WebhookHandler.serveHTTP_ok accepted
    exact ⟨triggerSource.trans (source.trans sourceRead),
      agentsRead ▸ agents ▸ triggerAgent⟩
  · intro w reachable source agentKey refused
    exact (consistent_of_reachable reachable).recorded.suppressed refused

/-- The agent `default/watchman`. -/
def watchman : NamespacedName :=
  ⟨"default", "watchman", by decide, by decide⟩

/-- A fresh handler with `watchman` registered for the source `alertmanager`. -/
def watchingAlerts : WebhookState :=
  { init 0 0 with handler := (init 0 0).handler.registerAgent "alertmanager" watchman }

/-- An alert from `alertmanager` passes `ShouldFire` and enqueues its trigger,
which names the source of the path and the agent the request read. -/
theorem alert_enqueued_for_registered_agent :
    ∃ w', system.replay (watchingAlerts.serve "POST" "/webhook/alertmanager" (some []))
        [.debounce 0, .send 0] = some w' ∧
      w'.enqueued = [(0, ⟨watchman, "alertmanager", [], 0⟩)] ∧
      ∀ trigger, (watchingAlerts.deliveries.length, trigger) ∈ w'.enqueued →
        trigger.source = extractSource "/webhook/alertmanager" ∧
          trigger.agentKey ∈ watchingAlerts.handler.agentMap (extractSource "/webhook/alertmanager") := by
  have replayed : (system.replay (watchingAlerts.serve "POST" "/webhook/alertmanager" (some []))
      [.debounce 0, .send 0]).map enqueued = some [(0, ⟨watchman, "alertmanager", [], 0⟩)] := by
    decide
  obtain ⟨w', run, queued⟩ := Option.map_eq_some'.mp replayed
  have watching : system.Reachable watchingAlerts :=
    System.Reachable.step (.registerAgent "alertmanager" watchman)
      (System.Reachable.init ⟨0, 0, rfl⟩) rfl
  exact ⟨w', run, queued, webhook_triggers_sound.1 _ _ "POST" _ (some []) _ _ watching rfl run⟩

/-! ## Two alerts at once -/

/-- Two alerts for `watchman` arrive together: the first request passes
`ShouldFire` and has not yet offered its trigger when the second asks. -/
def concurrentAlerts : List WebhookEvent :=
  [.registerAgent "alertmanager" watchman, .serve "POST" "/webhook/alertmanager" (some []),
    .serve "POST" "/webhook/alertmanager" (some []), .debounce 0]

theorem debounced_before_enqueue :
    ¬ ∀ w, system.Reachable w → ∀ (id : Nat) (d : Delivery) agentKey rest,
      w.deliveries[id]? = some d →
      d.sending = none → d.pending = agentKey :: rest →
      (w.handler.debouncer.shouldFire (debounceKey d.source agentKey) w.clock).1 = false →
      ∃ entry ∈ w.enqueued, entry.2.source = d.source ∧ entry.2.agentKey = agentKey ∧
        w.clock - entry.2.time < w.handler.debouncer.window := by
  intro sound
  obtain ⟨w, reachable, replayed⟩ := system.exists_reachable_of_replay ⟨0, 0, rfl⟩
    concurrentAlerts
    (fun w => decide (w.deliveries[1]?.map (fun d : Delivery => (d.source, d.sending, d.pending)) =
        some ("alertmanager", none, [watchman])) &&
      !(w.handler.debouncer.shouldFire (debounceKey "alertmanager" watchman) w.clock).1 &&
      w.enqueued.isEmpty)
    (by decide)
  simp only [Bool.and_eq_true, decide_eq_true_eq, Bool.not_eq_true', List.isEmpty_iff,
    Option.map_eq_some', Prod.mk.injEq] at replayed
  obtain ⟨⟨⟨d, found, source, sending, pending⟩, suppressed⟩, empty⟩ := replayed
  obtain ⟨entry, enqueued, -⟩ := sound w reachable 1 d watchman [] found sending pending
    (source ▸ suppressed)
  simp [empty] at enqueued

end WebhookState

end Legator.Scheduler
