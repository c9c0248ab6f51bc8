import AgentOrch.Construction.Kanban.Reports

/-!
# What the board shows of a card

`project` turns the rows of a card into what is shown: where it is queued, which group it belongs to,
what agents and users report, and what of it is evidence.  It reads the card, the events it is given,
the nights, the task, and the flags and the location the reader computed.
-/

namespace AgentOrch

open Py Json

namespace Kanban

/-! ## Attributed reports -/

/-- `_user_attributed` -/
def userAttributed (rt : Runtime) (event : Event) : Except Exc Bool :=
  if event.actor = .text "USER" then .ok true
  else match event.payload.loads rt with
    | .ok (.obj items) => .ok ((getValue "actor" items).eqv (.str "USER"))
    | .ok _ => .ok false
    | .error (.typeError _) => .ok false
    | .error e => if e.isValueError then .ok false else .error e

/-- What follows an opening text up to the first character of a closing text, which must come next:
a group of characters that are none of the excluded ones. -/
def group (opening : Text) (excluded : Text) (closing t : Text) : Option (Text × Text) := do
  guard (opening.isPrefixOf t)
  let rest := t.drop opening.length
  let inner := rest.takeWhile fun c => !decide (c ∈ excluded)
  let after := rest.drop inner.length
  guard (!inner.isEmpty && closing.isPrefixOf after)
  return (inner, after.drop closing.length)

def isWordChar (c : CodePoint) : Bool := isAsciiLetter c || isAsciiDigit c

/-- `[A-Za-z0-9](?:[A-Za-z0-9._ -]*[A-Za-z0-9])?` -/
def isLabel (t : Text) : Bool :=
  (t.head?.any isWordChar) && (t.getLast?.any isWordChar) &&
    t.all fun c => isWordChar c || decide (c ∈ ("._ -" : Text))

/-- A label in front of a text that no label contains. -/
def label (closing t : Text) : Option (Text × Text) := do
  let (inner, rest) ← splitFirst closing t
  guard (isLabel inner)
  return (inner, rest)

/-- The words that contradict an acceptance. -/
def deniedPhrases : List Text :=
  ["不接受", "未接受", "尚未接受", "待接受", "拒絕", "不同意", "尚未驗收", "待驗收", "等待驗收", "尚未通過",
    "未通過驗收", "若", "如果", "假如", "預計驗收", "將驗收", "擬驗收", "準備接受", "有待驗收", "尚待驗收"]

/-- The groups of the summary of a historical acceptance: prompt, reply, reference, subject,
environment and evidence. -/
def acceptanceSummary (summary : Text) : Option (List Text) := do
  let (prompt, rest) ← group "使用者對「" "「」\r\n" "」" summary
  let (reply, rest) ← group "回覆「" "「」\r\n" "」" rest
  let (reference, rest) ← group "（" "（）\r\n" "）；本次條件已核對通過，記錄 " rest
  let (subject, rest) ← label " 限定 " rest
  let (environment, evidence) ← label " 受控驗收。" rest
  guard (!evidence.isEmpty)
  return [prompt, reply, reference, subject, environment, evidence]

/-- What a decision keeps and what it does not claim: the groups of `保留(…)，不宣稱(…)。`, the first
as long as possible. -/
def acceptanceReservation (t : Text) : Option (Text × Text) := do
  let opening : Text := "保留"
  let middle : Text := "，不宣稱"
  let closing : Text := "。"
  guard (opening.isPrefixOf t && closing.isSuffixOf t)
  let body := (t.drop opening.length).dropLast
  guard (body.all fun c => !decide (c ∈ ("。；\r\n" : Text)))
  let i ← (List.range body.length).reverse.find? fun i =>
    decide (0 < i) && middle.isPrefixOf (body.drop i) && decide (i + middle.length < body.length)
  return (body.take i, body.drop (i + middle.length))

/-- `_legacy_acceptance_record` -/
def legacyAcceptanceRecord (report : Report) : Bool :=
  if report.blocker.isSome || report.nextStep.isSome then false
  else match acceptanceSummary report.summary with
    | some [prompt, reply, reference, subject, environment, evidence] =>
      if [prompt, reply, reference, subject, environment, evidence].any isBlank then false
      else
        let decision := report.decision.getD []
        let prefixText : Text := ("USER 依已同意的條件接受 " : Text) ++ subject ++ (" " : Text) ++
          environment ++ (" 受控驗收並准予本卡結案封存；" : Text)
        match (stripPrefix prefixText decision).bind acceptanceReservation with
        | none => false
        | some (kept, claimed) =>
          !isBlank kept && !isBlank claimed &&
            !deniedPhrases.any fun phrase =>
              contains phrase (reply ++ [0x0A] ++ evidence ++ [0x0A] ++ decision)
    | _ => false

/-- `summary_flags` of a card. -/
structure Flags where
  badCard : Bool
  badTime : Bool
  badRevision : Bool
  badEdit : Bool
  badLocation : Bool
  badWorker : Bool
  badNight : Bool
  deriving DecidableEq

inductive PresentationState
  | missing
  | unknown
  | historical
  | recorded
  | incomplete
  | delivered
  | progress
  deriving DecidableEq

inductive PresentationScope
  | unknown
  | current
  | historical
  deriving DecidableEq

/-- What `report_presentation` returns. -/
structure Presentation where
  state : PresentationState
  record : Option Report
  scope : PresentationScope
  rawPayload : Cell
  acceptanceRecorded : Bool
  isAcceptance : Bool
  label : Text
  candidateBinding : Option Text
  note : Text

/-- The presentation of a card without such a report. -/
def Presentation.missing (user : Bool) : Presentation where
  state := .missing
  record := none
  scope := .unknown
  rawPayload := .null
  acceptanceRecorded := false
  isAcceptance := false
  label := if user then "未記錄使用者驗收" else "未記錄助手交付／進度回報"
  candidateBinding := if user then some ("未綁目前候選" : Text) else none
  note := if user then "USER 僅為來源歸屬標記，不是身份驗證。" else "來源回報，非正式驗證證據。"

/-- The presentation of a report that cannot be read; what was read so far stays. -/
def Presentation.unreadable (user : Bool) (p : Presentation) : Presentation :=
  { p with
    state := .unknown
    scope := .unknown
    label := if user then "USER 驗收資料未知／格式不符" else "助手交付／進度資料未知／格式不符"
    note := p.note ++ (" 不回退較舊成功紀錄。" : Text) }

/-- Is the report a user's acceptance? -/
def isAcceptanceReport (user : Bool) (report : Report) : Bool :=
  let opening : Text := "使用者驗收通過："
  let standard := opening.isPrefixOf report.summary && !isBlank (report.summary.drop opening.length)
  user && decide (report.reportStatus = ("reported_done" : Text)) &&
    (standard || legacyAcceptanceRecord report) && (report.decision.any fun d => !isBlank d) &&
    !report.sourceRefs.isEmpty

/-- The presentation of a report whose scope is known. -/
def Presentation.judged (user : Bool) (report : Report) (current : Bool) (p : Presentation) :
    Presentation :=
  let acceptance := isAcceptanceReport user report
  let p := { p with
    scope := if current then PresentationScope.current else .historical
    isAcceptance := acceptance }
  if !current then
    { p with
      state := .historical
      label := if user then
          if acceptance then "歷史驗收；不適用目前 scope" else "歷史 USER 回報；不適用目前 scope"
        else "歷史助手回報；不適用目前 scope" }
  else if user then
    { p with
      state := if acceptance then .recorded else .incomplete
      acceptanceRecorded := acceptance
      label := if acceptance then "已記錄使用者驗收" else "USER 回報／驗收資料不足"
      note := if acceptance then p.note
        else p.note ++ (" 最新 USER 回報不解讀為批准或撤回。" : Text) }
  else if report.reportStatus = ("reported_done" : Text) then
    { p with
      state := .delivered
      label := "助手回報交付" }
  else
    { p with
      state := .progress
      label := "助手最新進度回報"
      note := p.note ++ (" 以此筆為最新進度；先前交付如有，僅屬歷史。" : Text) }

/-- The reports that are attributed to the user, or those that are not. -/
def attributedReports (rt : Runtime) (user : Bool) (events : List Event) :
    Except Exc (List Event) := do
  let reports := events.filter isAcceptedReport
  if user then keepIf (userAttributed rt) reports
  else return reports.filter fun e => decide (e.actor ≠ .text "USER")

/-- The presentation of the newest report: the checks, and then its scope. -/
def presentReport (pf : Platform) (card : Card) (events : List Event) (flags : Flags) (user : Bool)
    (latest : Event) : Except Exc Presentation :=
  let found := { Presentation.missing user with rawPayload := latest.payload }
  match progressEvent pf.toRuntime card latest with
  | .error e => if isUnreadable e then .ok (found.unreadable user) else .error e
  | .ok report =>
    let read := { found with record := some report }
    if flags.badCard || flags.badRevision || flags.badEdit then .ok (read.unreadable user)
    else match scopeCurrent pf card report.approvalGeneration report.scopeDigest
        report.resultRevision events with
      | .error e => if isUnreadable e then .ok (read.unreadable user) else .error e
      | .ok current => .ok (read.judged user report current)

/-- `report_presentation` -/
def reportPresentation (pf : Platform) (card : Card) (events : List Event) (flags : Flags)
    (user : Bool) : Except Exc Presentation := do
  let candidates ← attributedReports pf.toRuntime user events
  if candidates.isEmpty then .ok (.missing user)
  else match (withRevisions card candidates).bind newest with
    | none => .ok ((Presentation.missing user).unreadable user)
    | some (_, latest) => presentReport pf card events flags user latest

/-! ## The projection -/

inductive Location
  | board
  | backlog
  | unknown
  deriving DecidableEq

/-- The rows the projection of one card reads.  Both readers supply the flags, so what it does with
data that has none is left out. -/
structure CardData where
  card : Card
  events : List Event
  nights : List Night
  task : Option TaskRow
  flags : Flags
  location : Location

/-- What `project` returns for a card. -/
structure Item where
  progressReport : Option Report
  progressReportNote : Text
  workerObservation : Option WorkerView
  workerObservationNote : Text
  userAcceptance : Presentation
  deliveryReport : Presentation
  queueLocation : Location
  group : Text
  workflowReason : Option Text
  displayGroup : Text
  displayReason : Option Text
  completionEvidence : Text

/-- `event_time_known` -/
def eventTimeKnown (event : Event) : Bool :=
  match event.time with
  | .int n => decide (0 ≤ n)
  | _ => false

def knownTaskStatuses : List Text :=
  ["queued", "running", "paused", "blocked", "waiting_user", "failed", "done", "UserReview",
    "user_review"]

/-- `status in {...}`, where the card may have no task. -/
def statusIn (status : Option Text) (allowed : List Text) : Bool :=
  status.any fun s => decide (s ∈ allowed)

/-- `anomalies` -/
def anomalies (data : CardData) (reportNote : Text) : List Text :=
  let flags := data.flags
  let note (condition : Bool) (t : Text) : List Text := if condition then [t] else []
  note (flags.badCard || flags.badTime || flags.badRevision || flags.badEdit || flags.badNight)
    "摘要證據含未知／格式不符資料" ++
  note (data.location = .unknown) "位置日誌未知／格式不符" ++
  note (data.card.taskId.any (fun id => !id.isEmpty) && data.task.isNone) "關聯任務缺失" ++
  note (data.task.any fun t => decide (t.status ∉ knownTaskStatuses)) "任務狀態未知" ++
  note (data.nights.any fun n =>
    decide (n.phase ∉ (["reserved", "submitted", "stopped"] : List Text))) "夜間狀態未知" ++
  note (contains "未知" reportNote || data.events.any fun e => !eventTimeKnown e)
    "回報或事件歷史無法確認"

/-- `manual_pause_pending` on the card or its task. -/
def pausePending (data : CardData) : Bool :=
  decide (data.card.lastReason = some ("manual_pause_pending" : Text)) ||
    data.task.any fun t => decide (t.stopReason = some ("manual_pause_pending" : Text))

/-- What is said where something is unknown. -/
def uncertain (anomalies : List Text) : Option Text :=
  if anomalies.isEmpty then none else some (("狀態待確認：" : Text) ++ join "；" anomalies)

/-- `group`, which existing placement checks use. -/
def workflowGroup (data : CardData) (anomalies : List Text) (report : Option Report) : Text :=
  let status := data.task.map TaskRow.status
  let reported (allowed : List Text) : Bool :=
    report.any fun r => decide (r.reportStatus ∈ allowed)
  let manual := data.card.manualState
  if manual = .archived then "封存"
  else if !anomalies.isEmpty then "待決策"
  else if pausePending data || statusIn status ["paused", "blocked", "waiting_user", "failed"] ||
      decide (manual = .needsClarification) || decide (manual = .returned) ||
      reported ["blocked", "needs_decision"] then "待決策"
  else if decide (manual = .done) || statusIn status ["done", "UserReview", "user_review"] ||
      reported ["reported_done"] then "完成"
  else if statusIn status ["running"] || reported ["in_progress"] then "實作中"
  else "待處理"

/-- The reason `raw_reason` of the task or else of the card. -/
def rawReason (data : CardData) : Option Text :=
  (data.task.bind TaskRow.stopReason).or data.card.lastReason

/-- `display_group` and `display_reason` -/
def displayed (data : CardData) (anomalies : List Text) (delivery : Presentation) :
    Text × Option Text :=
  let status := data.task.map TaskRow.status
  let report :=
    if delivery.scope = .current ∧ (delivery.state = .delivered ∨ delivery.state = .progress) then
      delivery.record
    else none
  let reported (s : Text) : Bool := report.any fun r => decide (r.reportStatus = s)
  let decision := report.bind Report.decision
  let manual := data.card.manualState
  let reason := uncertain anomalies
  if manual = .archived then ("封存", reason)
  else if !anomalies.isEmpty then ("狀態待核對", reason)
  else if delivery.state = .unknown then ("狀態待核對", some delivery.label)
  else if pausePending data then ("暫停待確認", reason)
  else if reported "needs_decision" && (decision.any fun d => !isBlank d) then ("待使用者", reason)
  else if statusIn status ["blocked", "failed"] || reported "blocked" ||
      decide (rawReason data = some ("dirty_tree" : Text)) then ("工程受阻", reason)
  else if statusIn status ["waiting_user"] || reported "needs_decision" ||
      decide (manual = .needsClarification) then
    ("狀態待核對", some "待答問題未記錄；由 coordinator 核對下一步")
  else if statusIn status ["paused"] then ("已暫停", reason)
  else if manual = .returned then ("工程受阻", reason)
  else if decide (manual = .done) || statusIn status ["done", "UserReview", "user_review"] ||
      reported "reported_done" then ("完成", reason)
  else if statusIn status ["running"] || reported "in_progress" then ("實作中", reason)
  else ("待處理", reason)

/-- `project`, for one card. -/
def project (pf : Platform) (data : CardData) : Except Exc Item := do
  let (report, reportNote) ← progressReport pf data.card data.events
  let acceptance ← reportPresentation pf data.card data.events data.flags true
  let delivery ← reportPresentation pf data.card data.events data.flags false
  let (worker, workerNote) ← workerReport pf data.card data.events
  let (worker, workerNote) :=
    if data.flags.badWorker || data.flags.badRevision then
      (none, ("worker 觀測未知／歷史異常；不回退舊觀測" : Text))
    else (worker, workerNote)
  let found := anomalies data reportNote
  let (displayGroup, displayReason) := displayed data found delivery
  return {
    progressReport := report
    progressReportNote := reportNote
    workerObservation := worker
    workerObservationNote := workerNote
    userAcceptance := acceptance
    deliveryReport := delivery
    queueLocation := data.location
    group := workflowGroup data found report
    workflowReason := if data.card.manualState = .archived then none else uncertain found
    displayGroup := displayGroup
    displayReason := displayReason
    completionEvidence :=
      if acceptance.acceptanceRecorded then "使用者驗收已記錄；技術／正式驗證另列" else "未驗證" }

end Kanban

end AgentOrch
