import Mathlib.Data.List.Basic

/-!
# Formatting reports for Slack and Telegram

`formatSlackMessage` turns a report into a header block, a body block, a
findings block and a usage block, and `formatTelegramMessage` writes the same
parts into one text. Only the body is truncated, at a byte offset: 2900 bytes
for Slack and 3800 for Telegram, each followed by a marker. The header, with
the agent, the emoji and the summary, and the findings go in whole.

Go strings are byte strings, so every text here is a list of bytes, and a Go
literal is its UTF-8 encoding. The characters of a text are counted as its
bytes outside the continuation range `0x80-0xBF`, which for UTF-8 text is its
number of code points, and never more than its length.

The declarations of `RunFinding` and `UsageSummary` are not among the sources;
the model keeps the fields these functions read. `usage.WallClockMs` is shown
as the text of `(time.Duration(ms) * time.Millisecond).Round(time.Millisecond)`,
which the standard library formats; the model takes that formatter as a
parameter, so every result holds whatever it prints.
-/

namespace Legator.Reporter

/-- The UTF-8 bytes of a Go string literal. -/
def utf8 (s : String) : List UInt8 :=
  s.data.flatMap String.utf8EncodeChar

/-- The characters of a UTF-8 text: its bytes that start a character. -/
def charCount (text : List UInt8) : Nat :=
  text.countP fun b => !(0x80 ≤ b && b ≤ 0xBF)

@[simp] theorem charCount_append (first second : List UInt8) :
    charCount (first ++ second) = charCount first + charCount second :=
  List.countP_append _ _ _

theorem charCount_le_length (text : List UInt8) : charCount text ≤ text.length :=
  List.countP_le_length _

/-- `Severity` of a report. -/
inductive Severity
  | success
  | info
  | warning
  | failure
  | escalation
  | other
  deriving DecidableEq, Repr

/-- `FindingSeverity`, as `formatFindings` tells its values apart. -/
inductive FindingSeverity
  | critical
  | warning
  | other
  deriving DecidableEq, Repr

/-- `RunFinding`, with the fields `formatFindings` reads. -/
structure RunFinding where
  severity : FindingSeverity
  resource : List UInt8
  message : List UInt8
  deriving DecidableEq, Repr

/-- `UsageSummary`, with the fields `formatUsage` reads. -/
structure UsageSummary where
  totalTokens : Int
  iterations : Int
  wallClockMs : Int
  estimatedCost : List UInt8
  deriving DecidableEq, Repr

/-- `Report`, without the run name and the guardrail summary, which neither
formatter reads. -/
structure Report where
  agent : List UInt8
  emoji : List UInt8
  severity : Severity
  summary : List UInt8
  body : List UInt8
  findings : List RunFinding
  usage : Option UsageSummary
  deriving DecidableEq, Repr

/-- `severityIcon`. -/
def severityIcon : Severity → List UInt8
  | .success => utf8 "✅"
  | .info => utf8 "ℹ️"
  | .warning => utf8 "⚠️"
  | .failure => utf8 "❌"
  | .escalation => utf8 "🚨"
  | .other => utf8 "📋"

/-- The icon `formatFindings` puts before a finding. -/
def findingIcon : FindingSeverity → List UInt8
  | .critical => utf8 "🔴"
  | .warning => utf8 "🟡"
  | .other => utf8 "ℹ️"

/-- One line of `formatFindings`. -/
def formatFinding (f : RunFinding) : List UInt8 :=
  if f.resource ≠ [] then
    findingIcon f.severity ++ utf8 " " ++ f.resource ++ utf8 " — " ++ f.message ++ utf8 "\n"
  else findingIcon f.severity ++ utf8 " " ++ f.message ++ utf8 "\n"

/-- `formatFindings`. -/
def formatFindings (findings : List RunFinding) : List UInt8 :=
  utf8 "*Findings:*\n" ++ findings.flatMap formatFinding

/-- `concatWith`: the parts, with `sep` before every part but the first. -/
def concatWith : List (List UInt8) → List UInt8 → List UInt8
  | [], _ => []
  | first :: rest, sep => first ++ rest.flatMap (sep ++ ·)

/-- `formatUsage`, given the text `durationText ms` of the rounded wall-clock
duration. -/
def formatUsage (durationText : Int → List UInt8) (usage : UsageSummary) : List UInt8 :=
  let parts := [utf8 ("tokens: " ++ toString usage.totalTokens),
    utf8 ("iterations: " ++ toString usage.iterations)]
  let parts := if 0 < usage.wallClockMs then parts ++ [utf8 "time: " ++ durationText usage.wallClockMs]
    else parts
  let parts := if usage.estimatedCost ≠ [] then parts ++ [utf8 "cost: " ++ usage.estimatedCost]
    else parts
  utf8 "📊 " ++ concatWith parts (utf8 " | ")

/-- The marker after a truncated body. -/
def truncatedMarker : List UInt8 :=
  utf8 "\n… (truncated)"

/-- The truncation both formatters apply to the body: past `limit` bytes, the
first `limit` bytes and the marker. -/
def truncateBody (limit : Nat) (body : List UInt8) : List UInt8 :=
  if limit < body.length then body.take limit ++ truncatedMarker else body

/-- `slackText`. -/
structure SlackText where
  kind : String
  text : List UInt8
  deriving DecidableEq, Repr

/-- `slackBlock`. -/
structure SlackBlock where
  kind : String
  text : Option SlackText
  deriving DecidableEq, Repr

/-- `slackPayload`. -/
structure SlackPayload where
  text : List UInt8
  blocks : List SlackBlock
  deriving DecidableEq, Repr

section Formatters

variable (durationText : Int → List UInt8)

/-- The header of `formatSlackMessage`: icon, emoji, agent and summary. -/
def slackHeader (report : Report) : List UInt8 :=
  severityIcon report.severity ++ utf8 " " ++ report.emoji ++ utf8 " " ++ report.agent ++
    utf8 " — " ++ report.summary

/-- `formatSlackMessage`: the header block, then a block for each of the body,
the findings and the usage that the report has. -/
def formatSlackMessage (report : Report) : SlackPayload :=
  ⟨slackHeader report,
    [⟨"header", some ⟨"plain_text", slackHeader report⟩⟩] ++
      (if report.body ≠ [] then [⟨"section", some ⟨"mrkdwn", truncateBody 2900 report.body⟩⟩]
        else []) ++
      (if report.findings ≠ [] then
          [⟨"section", some ⟨"mrkdwn", formatFindings report.findings⟩⟩]
        else []) ++
      (match report.usage with
        | some usage => [⟨"context", some ⟨"mrkdwn", formatUsage durationText usage⟩⟩]
        | none => [])⟩

/-- `formatTelegramMessage`: the writes into its buffer, in order. -/
def formatTelegramMessage (report : Report) : List UInt8 :=
  (severityIcon report.severity ++ utf8 " *" ++ report.emoji ++ utf8 " " ++ report.agent ++
      utf8 "*\n" ++ report.summary ++ utf8 "\n") ++
    (if report.body ≠ [] then utf8 "\n" ++ truncateBody 3800 report.body ++ utf8 "\n" else []) ++
    (if report.findings ≠ [] then utf8 "\n" ++ formatFindings report.findings else []) ++
    (match report.usage with
      | some usage => utf8 "\n_" ++ formatUsage durationText usage ++ utf8 "_"
      | none => [])

end Formatters

/-! ## What is bounded and what is not -/

theorem truncatedMarker_length : truncatedMarker.length = 16 := by
  decide

/-- The body is cut to at most `limit` bytes and the marker. -/
theorem truncateBody_length_le (limit : Nat) (body : List UInt8) :
    (truncateBody limit body).length ≤ limit + 16 := by
  unfold truncateBody
  split_ifs with long
  · simp only [List.length_append, List.length_take, truncatedMarker_length]
    omega
  · omega

theorem header_mem_blocks (durationText : Int → List UInt8) (report : Report) :
    (⟨"header", some ⟨"plain_text", slackHeader report⟩⟩ : SlackBlock) ∈
      (formatSlackMessage durationText report).blocks := by
  simp [formatSlackMessage]

theorem take_truncateBody (limit : Nat) (body : List UInt8) :
    (truncateBody limit body).take limit = body.take limit := by
  unfold truncateBody
  split_ifs with long
  · rw [List.take_append_of_le_length (by simp; omega), List.take_take, min_self]
  · rfl

/-- A report whose body is 3000 ASCII bytes. -/
def longBodyReport : Report :=
  ⟨[], [], .info, [], List.replicate 3000 97, [], none⟩

/-- The summary goes whole into the Slack header and the Telegram text. -/
theorem summary_charCount_le (durationText : Int → List UInt8) (report : Report) :
    charCount report.summary ≤ charCount (slackHeader report) ∧
      charCount report.summary ≤ charCount (formatTelegramMessage durationText report) := by
  constructor <;> simp only [slackHeader, formatTelegramMessage, charCount_append] <;> omega

/-- A report whose summary is 5000 ASCII bytes. -/
def longSummaryReport : Report :=
  ⟨[], [], .info, List.replicate 5000 97, [], [], none⟩

theorem long_summary_exceeds_limits :
    ¬ ∀ (durationText : Int → List UInt8) (report : Report),
      (∀ block ∈ (formatSlackMessage durationText report).blocks, ∀ t, block.text = some t →
        charCount t.text ≤ 3000) ∧
      charCount (formatTelegramMessage durationText report) ≤ 4096 := by
  intro bounded
  have long : charCount longSummaryReport.summary = 5000 := by
    rw [show longSummaryReport.summary = List.replicate 5000 97 from rfl, charCount,
      List.countP_replicate]
    rfl
  obtain ⟨slack, telegram⟩ := bounded (fun _ => []) longSummaryReport
  have header := slack _ (header_mem_blocks (fun _ => []) longSummaryReport) _ rfl
  have inside := summary_charCount_le (fun _ => []) longSummaryReport
  omega

end Legator.Reporter
