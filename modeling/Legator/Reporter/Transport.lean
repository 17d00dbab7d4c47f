import Legator.Time
import Legator.Reporter.Channels

/-!
# Sending reports: the Slack, Telegram and webhook channels

Each channel's `Send` builds a JSON payload from the report, POSTs it to the
channel's URL and reads the status of the answer. Slack and Telegram accept
only `200 OK`; the webhook channel accepts every status below 400. A Telegram
channel first checks its bot token, which only `SetBotToken` sets: a channel
made by `NewTelegramChannel` alone refuses every report
(`newTelegramChannel_send`).

What a send meets outside the package is the parameter `Transport`: whether
`http.NewRequestWithContext` accepts the URL, what `client.Do` returns for a URL
and a payload (its error, or the status and the text `io.ReadAll` reads of the
first 1024 bytes of the body), and the text of the rounded wall-clock duration
that the formatters print. A payload is the value `json.Marshal` encodes;
marshalling these values cannot fail, so that branch is left out. The run name,
the guardrail summary and the timestamp of the webhook payload are left out, as
in `Report`, and so are the token counts of its usage, which `UsageSummary`
does not keep.
-/

namespace Legator.Reporter

open Legator.Time (quote)

/-- `WebhookFinding`. -/
structure WebhookFinding where
  severity : FindingSeverity
  resource : List UInt8
  message : List UInt8
  deriving DecidableEq, Repr

/-- `WebhookPayload`, with the fields a `Report` has. -/
structure WebhookPayload where
  agent : List UInt8
  emoji : List UInt8
  severity : Severity
  summary : List UInt8
  body : List UInt8
  findings : List WebhookFinding
  usage : Option UsageSummary
  deriving DecidableEq, Repr

/-- `buildWebhookPayload`. -/
def buildWebhookPayload (report : Report) : WebhookPayload :=
  ⟨report.agent, report.emoji, report.severity, report.summary, report.body,
    report.findings.map fun f => ⟨f.severity, f.resource, f.message⟩, report.usage⟩

/-- The JSON bodies the channels POST. -/
inductive Payload
  | slack (payload : SlackPayload)
  | telegram (chatID : String) (text : List UInt8) (parseMode : String)
  | webhook (payload : WebhookPayload)
  deriving DecidableEq, Repr

/-- What sending a report meets outside the package. -/
structure Transport where
  durationText : Int → List UInt8
  newRequest : String → Except String Unit
  post : String → Payload → Except String (Nat × String)

/-- The part every `Send` shares: make the request, send it, and accept the
answer by its status. The channels differ in the URL, the payload, the texts
of their errors and the statuses they accept. -/
def postJSON (transport : Transport) (url : String) (payload : Payload) (sendError : String → String)
    (accepts : Nat → Bool) (statusError : Nat → String → String) : Except String Unit :=
  match transport.newRequest url with
  | .error err => .error ("create request: " ++ err)
  | .ok () =>
      match transport.post url payload with
      | .error err => .error (sendError err)
      | .ok (status, body) => if accepts status then .ok () else .error (statusError status body)

/-- A send succeeds exactly when the request is made, the POST is answered,
and the channel accepts the answer's status. -/
theorem postJSON_eq_ok {transport : Transport} {url : String} {payload : Payload}
    {sendError : String → String} {accepts : Nat → Bool} {statusError : Nat → String → String} :
    postJSON transport url payload sendError accepts statusError = .ok () ↔
      transport.newRequest url = .ok () ∧
        ∃ status body, transport.post url payload = .ok (status, body) ∧ accepts status = true := by
  unfold postJSON
  cases transport.newRequest url with
  | error err => exact iff_of_false Except.noConfusion fun ⟨made, _⟩ => Except.noConfusion made
  | ok u =>
      cases transport.post url payload with
      | error err => simp
      | ok answer =>
          obtain ⟨status, body⟩ := answer
          by_cases accepted : accepts status = true <;> simp [accepted]

/-! ## The three channels -/

/-- `SlackChannel`. -/
structure SlackChannel where
  name : String
  webhook : String
  deriving DecidableEq, Repr

/-- `NewSlackChannel`. -/
def newSlackChannel (name webhookURL : String) : SlackChannel :=
  ⟨name, webhookURL⟩

/-- `SlackChannel.Send`. -/
def SlackChannel.send (transport : Transport) (c : SlackChannel) (report : Report) :
    Except String Unit :=
  postJSON transport c.webhook (.slack (formatSlackMessage transport.durationText report))
    ("send to slack: " ++ ·) (· == 200)
    fun status body => "slack returned " ++ toString status ++ ": " ++ body

/-- `TelegramChannel`: the bot token is empty until `SetBotToken`. -/
structure TelegramChannel where
  name : String
  chatID : String
  secretRef : String
  botToken : String
  deriving DecidableEq, Repr

/-- `NewTelegramChannel`. -/
def newTelegramChannel (name chatID secretRef : String) : TelegramChannel :=
  ⟨name, chatID, secretRef, ""⟩

/-- `SetBotToken`. -/
def TelegramChannel.setBotToken (c : TelegramChannel) (token : String) : TelegramChannel :=
  { c with botToken := token }

/-- The error of a Telegram channel with no bot token. -/
def botTokenError (secretRef : String) : String :=
  "telegram bot token not set (secretRef: " ++ quote secretRef ++ ")"

/-- `TelegramChannel.Send`. -/
def TelegramChannel.send (transport : Transport) (c : TelegramChannel) (report : Report) :
    Except String Unit :=
  if c.botToken = "" then .error (botTokenError c.secretRef)
  else
    postJSON transport ("https://api.telegram.org/bot" ++ c.botToken ++ "/sendMessage")
      (.telegram c.chatID (formatTelegramMessage transport.durationText report) "Markdown")
      ("send to telegram: " ++ ·) (· == 200)
      fun status body => "telegram returned " ++ toString status ++ ": " ++ body

/-- `WebhookChannel`. -/
structure WebhookChannel where
  name : String
  url : String
  deriving DecidableEq, Repr

/-- `NewWebhookChannel`. -/
def newWebhookChannel (name webhookURL : String) : WebhookChannel :=
  ⟨name, webhookURL⟩

/-- `WebhookChannel.Send`. -/
def WebhookChannel.send (transport : Transport) (c : WebhookChannel) (report : Report) :
    Except String Unit :=
  postJSON transport c.url (.webhook (buildWebhookPayload report))
    (fun err => "send to webhook " ++ c.url ++ ": " ++ err) (fun status => decide (status < 400))
    fun status body => "webhook " ++ c.url ++ " returned " ++ toString status ++ ": " ++ body

/-! ## What the channels accept -/

/-- A Telegram channel as `NewTelegramChannel` makes it refuses every report,
whatever the network would answer. -/
theorem newTelegramChannel_send (transport : Transport) (name chatID secretRef : String)
    (report : Report) :
    (newTelegramChannel name chatID secretRef).send transport report = .error (botTokenError secretRef) :=
  if_pos rfl

/-- A Slack send succeeds only on the answer `200`: `201` and `204 No Content`
are errors. -/
theorem slack_send_eq_ok {transport : Transport} {c : SlackChannel} {report : Report} :
    c.send transport report = .ok () ↔
      transport.newRequest c.webhook = .ok () ∧
        ∃ body, transport.post c.webhook (.slack (formatSlackMessage transport.durationText report)) =
          .ok (200, body) := by
  unfold SlackChannel.send
  rw [postJSON_eq_ok]
  refine and_congr_right fun _ => ⟨?_, ?_⟩
  · rintro ⟨status, body, answered, accepted⟩
    exact ⟨body, (beq_iff_eq.mp accepted) ▸ answered⟩
  · rintro ⟨body, answered⟩
    exact ⟨200, body, answered, rfl⟩

/-- A webhook send succeeds on every answer below `400`, redirects included. -/
theorem webhook_send_eq_ok {transport : Transport} {c : WebhookChannel} {report : Report} :
    c.send transport report = .ok () ↔
      transport.newRequest c.url = .ok () ∧
        ∃ status body, transport.post c.url (.webhook (buildWebhookPayload report)) =
          .ok (status, body) ∧ status < 400 := by
  unfold WebhookChannel.send
  rw [postJSON_eq_ok]
  simp only [decide_eq_true_eq]

end Legator.Reporter
