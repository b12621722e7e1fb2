import Untangle.Engine.Attribute
import Untangle.Engine.Exceptions
import Untangle.Lib.Fallible
import Untangle.Lib.Json

/-!
# `Engine.Recovery` — the active recovery controller

Model of the plan half of `engine/recovery.py`: every unresolved line gets a blocking reason, every reason an action,
lines with the same action are grouped, overlapping export windows are merged, and the groups are ranked by
recoverable amount over cost. Costs and gains, floats in the source, are exact rationals. A date window that leaves
the calendar raises.
-/

namespace Untangle

open Lib

/-! ## Blocking reasons and actions -/

inductive BlockingReason
  | brandNoTie
  | weakUtrSuffix
  | ambiguousSetsum
  | unknownSender
  | reconFailure
  | ruleConflict
deriving DecidableEq, Repr

inductive ActionType
  | exportSettlementReport
  | confirmUtrWithBank
  | provideSettlementIds
  | classifyCounterparty
deriving DecidableEq, Repr

def ActionType.value : ActionType → String
  | .exportSettlementReport => "export_settlement_report"
  | .confirmUtrWithBank => "confirm_utr_with_bank"
  | .provideSettlementIds => "provide_settlement_ids"
  | .classifyCounterparty => "classify_counterparty"

/-- `self.action_type.replace('_', ' ').capitalize()`. -/
def ActionType.title : ActionType → String
  | .exportSettlementReport => "Export settlement report"
  | .confirmUtrWithBank => "Confirm utr with bank"
  | .provideSettlementIds => "Provide settlement ids"
  | .classifyCounterparty => "Classify counterparty"

/-- `ACTION_COSTS`. -/
def ActionType.cost : ActionType → ℚ
  | .exportSettlementReport => 1
  | .confirmUtrWithBank => 2
  | .provideSettlementIds => 3 / 2
  | .classifyCounterparty => 1 / 2

def reconFailureCodes : List String :=
  ["partial_or_duplicate_settlement", "unbalanced_residual", "reconstructed_split_leg", "razorpay_coverage_not_found"]

/-- `signal.startswith(_RZP_SIGNAL_PREFIXES)`. -/
def rzpPrefixed (signal : String) : Bool :=
  rzpSignalPrefixes.any fun p => p.toList.isPrefixOf signal.toList

/-- The exception has one of the reason codes. -/
def hasReason (codes : List String) (e : Option ExceptionRecord) : Bool :=
  e.any fun e => e.reasonCode ∈ codes

/-- `_derive_blocking_reason`. -/
def deriveBlockingReason (U : Unicode) (pack : NarrationEvidencePack) (index : ReconIndex) (line : BankCreditLine)
    (a : RailAttribution) (e : Option ExceptionRecord) : BlockingReason :=
  let signals := (razorpaySignals U pack index line).map EvidenceItem.signal ++
    (a.evidence.map EvidenceItem.signal).filter fun s =>
      rzpPrefixed s ∨ s ∈ ["split_reconstruction", "utr_suffix_weak"]
  if hasReason ["rule_conflict"] e ∨ hasSignal ["rule_conflict"] a.evidence then .ruleConflict
  else if hasReason ["multiple_satisfying_subsets"] e ∨ hasSignal ["multiple_satisfying_subsets"] a.evidence then
    .ambiguousSetsum
  else if hasReason reconFailureCodes e then .reconFailure
  else if "utr_suffix_weak" ∈ signals ∧ ¬ (signals.any fun s => s ∈ ["utr_exact", "utr_suffix"]) then .weakUtrSuffix
  else if (signals.any fun s => s ∈ ["narration_brand_rzp", "settlement_ref", "ifsc_ratn"]) ∨
      hasReason ["razorpay_uncertain"] e ∨ a.evidence.any fun it => rzpPrefixed it.signal then .brandNoTie
  else .unknownSender

/-- The parameters of an action: a window of dates, or the date, amount and reference of one line. -/
inductive ActionParams
  | window (dateFrom dateTo : String)
  | item (date : String) (amountPaise : ℤ) (bankRef : Option String)
deriving DecidableEq, Repr

def ActionParams.toDict : ActionParams → Json
  | .window dateFrom dateTo => .obj [("date_from", .str dateFrom), ("date_to", .str dateTo)]
  | .item date amountPaise bankRef =>
    .obj ([("date", .str date), ("amount_paise", .int amountPaise)] ++
      (bankRef.map fun ref => ("bank_ref", .str ref)).toList)

/-! ## Calendar arithmetic -/

/-- Raised when a date leaves the calendar. -/
structure OverflowError where
  message : String
deriving DecidableEq, Repr

/-- `d + timedelta(days=n)`. -/
def addDays (d : Date) (n : ℤ) : Except OverflowError Date :=
  if 1 ≤ d + n ∧ d + n ≤ lastOrdinal then .ok (d + n) else .error ⟨"date value out of range"⟩

/-- The window of an export action. -/
def exportWindow (line : BankCreditLine) : Except OverflowError ActionParams := do
  let dateFrom ← addDays line.valueDate (-splitDateWindow)
  let dateTo ← addDays line.valueDate splitDateWindow
  return .window (isoDate dateFrom) (isoDate dateTo)

/-- `_map_blocking_to_action`; the cost goes with the type. -/
def mapBlockingToAction (line : BankCreditLine) :
    BlockingReason → Except OverflowError (ActionType × ActionParams)
  | .brandNoTie => (exportWindow line).map fun w => (.exportSettlementReport, w)
  | .weakUtrSuffix => .ok (.confirmUtrWithBank, .item (isoDate line.valueDate) line.amountPaise none)
  | .ambiguousSetsum => .ok (.provideSettlementIds, .item (isoDate line.valueDate) line.amountPaise none)
  | .unknownSender | .ruleConflict =>
    .ok (.classifyCounterparty, .item (isoDate line.valueDate) line.amountPaise (truthy line.bankRef))
  | .reconFailure => (exportWindow line).map fun w => (.exportSettlementReport, w)

/-! ## Groups -/

/-- Lines that share an action: their keys and their amounts, in the order they were met. -/
structure ActionGroup where
  actionType : ActionType
  params : ActionParams
  keys : List String
  amounts : List ℤ
deriving DecidableEq, Repr

/-- An export action of one line. -/
structure ExportItem where
  dateFrom : String
  dateTo : String
  keys : List String
  amounts : List ℤ
deriving DecidableEq, Repr

/-- The sweep over the sorted windows; `last` is the window being grown. -/
def mergeExports (last : ExportItem) : List ExportItem → List ExportItem
  | [] => [last]
  | item :: items =>
    if item.dateFrom ≤ last.dateTo then
      mergeExports { last with
        dateTo := if last.dateTo < item.dateTo then item.dateTo else last.dateTo
        keys := last.keys ++ item.keys
        amounts := last.amounts ++ item.amounts } items
    else last :: mergeExports item items

def mergedExports (items : List ExportItem) : List ExportItem :=
  match items.insertionSort fun i j => toLex (i.dateFrom, i.dateTo) ≤ toLex (j.dateFrom, j.dateTo) with
  | [] => []
  | item :: rest => mergeExports item rest

def exportItem (p : BankCreditLine × ActionType × ActionParams) : Option ExportItem :=
  match p.2 with
  | (.exportSettlementReport, .window dateFrom dateTo) =>
    some ⟨dateFrom, dateTo, [p.1.key], [p.1.amountPaise]⟩
  | _ => none

/-- `other_groups`: the lines of every other action, by type and parameters. -/
def otherGroups (mapped : List (BankCreditLine × ActionType × ActionParams)) :
    Dict (ActionType × ActionParams) ActionGroup :=
  Dict.gather (fun p => if p.2.1 = .exportSettlementReport then none else some p.2)
    (fun p group =>
      let group := group.getD ⟨p.2.1, p.2.2, [], []⟩
      { group with keys := group.keys ++ [p.1.key], amounts := group.amounts ++ [p.1.amountPaise] })
    mapped

def actionGroups (mapped : List (BankCreditLine × ActionType × ActionParams)) : List ActionGroup :=
  ((mergedExports (mapped.filterMap exportItem)).map fun e =>
    ⟨.exportSettlementReport, .window e.dateFrom e.dateTo, e.keys, e.amounts⟩) ++
  (otherGroups mapped).items.map Prod.snd

/-! ## Actions -/

/-- What a line would bring in. -/
def creditPart (paise : ℤ) : ℤ := max 0 paise

/-- What a line took out. -/
def debitPart (paise : ℤ) : ℤ := max 0 (-paise)

/-- A recommended next-best action that could resolve one or more credits. -/
structure RecoveryAction where
  actionType : ActionType
  params : ActionParams
  resolves : List String
  recoverablePaise : ℤ
  cost : ℚ
  gainPerCost : ℚ
  debitExposurePaise : ℤ
deriving DecidableEq, Repr

def ActionGroup.action (g : ActionGroup) : RecoveryAction :=
  let recoverable := (g.amounts.map creditPart).sum
  { actionType := g.actionType
    params := g.params
    resolves := g.keys.dedup.insertionSort (· ≤ ·)
    recoverablePaise := recoverable
    cost := g.actionType.cost
    gainPerCost := if 0 < g.actionType.cost then recoverable / g.actionType.cost else 0
    debitExposurePaise := (g.amounts.map debitPart).sum }

/-- The dates an action's description mentions. -/
def dateText : ActionType → ActionParams → String
  | .exportSettlementReport, .window dateFrom dateTo => " (" ++ dateFrom ++ " to " ++ dateTo ++ ")"
  | .exportSettlementReport, _ => ""
  | _, .item date _ _ => " for " ++ date
  | _, .window _ _ => ""

def ActionType.opening : ActionType → String
  | .exportSettlementReport => "Export Razorpay settlement report"
  | .confirmUtrWithBank => "Confirm UTR with bank"
  | .provideSettlementIds => "Provide settlement IDs"
  | .classifyCounterparty => "Classify counterparty"

namespace RecoveryAction

variable (a : RecoveryAction)

def description : String :=
  let inrText := "₹" ++ inrGrouped a.recoverablePaise
  let debitText := "₹" ++ inrGrouped a.debitExposurePaise
  let items := if a.resolves.length = 1 then "1 item" else toString a.resolves.length ++ " items"
  let target := "across " ++ items ++
    (if a.debitExposurePaise ≠ 0 then " (including " ++ debitText ++ " debit exposure; not recoverable cash)" else "")
  if a.recoverablePaise = 0 ∧ a.debitExposurePaise ≠ 0 then
    a.actionType.title ++ " — review " ++ debitText ++ " debit exposure across " ++ items ++ "; not recoverable cash"
  else a.actionType.opening ++ dateText a.actionType a.params ++ " — up to " ++ inrText ++ " recoverable " ++ target ++
    " if confirmed"

def toDict : Json :=
  .obj
    [("action_type", .str a.actionType.value),
      ("params", a.params.toDict),
      ("resolves", .arr (a.resolves.map .str)),
      ("recoverable_paise", .int a.recoverablePaise),
      ("debit_exposure_paise", .int a.debitExposurePaise),
      ("cost", .float a.cost),
      ("gain_per_cost", .float (roundTo 4 a.gainPerCost)),
      ("description", .str a.description)]

/-- The ranking: gain, amount, type, keys. -/
def rankKey : ℚ ×ₗ ℤ ×ₗ String ×ₗ List String :=
  toLex (-a.gainPerCost, toLex (-a.recoverablePaise, toLex (a.actionType.value, a.resolves)))

end RecoveryAction

/-! ## The plan -/

/-- A ranked plan of next-best recovery actions. -/
structure RecoveryPlan where
  actions : List RecoveryAction
  unresolvedCount : Nat
  unresolvedPaise : ℤ
  recoverableIfActionedPaise : ℤ
  unresolvedCreditPaise : ℤ := 0
  unresolvedDebitPaise : ℤ := 0
  note : Option String := none
deriving DecidableEq, Repr

def RecoveryPlan.toDict (plan : RecoveryPlan) : Json :=
  .obj
    ([("actions", .arr (plan.actions.map RecoveryAction.toDict)),
      ("unresolved_count", .int plan.unresolvedCount),
      ("unresolved_paise", .int plan.unresolvedPaise),
      ("recoverable_if_actioned_paise", .int plan.recoverableIfActionedPaise),
      ("unresolved_credit_paise", .int plan.unresolvedCreditPaise),
      ("unresolved_debit_paise", .int plan.unresolvedDebitPaise)] ++
      ((truthy plan.note).map fun note => ("note", .str note)).toList)

/-- `{a.line_key: a for a in attributions}`. -/
def attributionsByKey (attributions : List RailAttribution) : Dict String RailAttribution :=
  Dict.gather (fun a => some a.lineKey) (fun a _ => a) attributions

/-- `{e.line_key: e for e in exceptions}`. -/
def exceptionsByKey (exceptions : List ExceptionRecord) : Dict String ExceptionRecord :=
  Dict.gather (fun e => some e.lineKey) (fun e _ => e) exceptions

/-- The lines with an exception, or with an abstained or UNKNOWN attribution; a key is taken once. -/
def unresolvedLines (lines : List BankCreditLine) (attrs : Dict String RailAttribution)
    (excs : Dict String ExceptionRecord) : List BankCreditLine :=
  distinctBy BankCreditLine.key (lines.filter fun line =>
    (excs.get? line.key).isSome ∨
      (attrs.get? line.key).any fun a => a.abstained ∨ a.rail = Rail.unknown.value)

/-- The action of one unresolved line. -/
def lineAction (U : Unicode) (pack : NarrationEvidencePack) (index : ReconIndex)
    (attrs : Dict String RailAttribution) (excs : Dict String ExceptionRecord) (line : BankCreditLine) :
    Except OverflowError (BankCreditLine × ActionType × ActionParams) := do
  let a := (attrs.get? line.key).getD (abstain line 0 [])
  let action ← mapBlockingToAction line (deriveBlockingReason U pack index line a (excs.get? line.key))
  return (line, action)

/-- `actions[:stop]`: a negative stop counts from the end. -/
def sliceTo {α : Type} (stop : ℤ) (xs : List α) : List α :=
  xs.take (if 0 ≤ stop then stop else xs.length + stop).toNat

def capNote (total : Nat) (maxActions : ℤ) : String :=
  "Plan capped at top " ++ toString maxActions ++ " actions (of " ++ toString total ++
    " available) ranked by expected impact per cost."

/-- The plan over the grouped actions. -/
def planOf (lines unresolved : List BankCreditLine) (maxActions : ℤ) (groups : List ActionGroup) : RecoveryPlan :=
  let ranked := (groups.map ActionGroup.action).insertionSort fun a b => a.rankKey ≤ b.rankKey
  let actions := if maxActions < ranked.length then sliceTo maxActions ranked else ranked
  let amounts := unresolved.map BankCreditLine.amountPaise
  { actions := actions
    unresolvedCount := unresolved.length
    unresolvedPaise := amounts.sum
    recoverableIfActionedPaise := (((actions.flatMap RecoveryAction.resolves).dedup.filterMap
      (linesByKey lines).dict.get?).map fun line => creditPart line.amountPaise).sum
    unresolvedCreditPaise := (amounts.map creditPart).sum
    unresolvedDebitPaise := (amounts.map debitPart).sum
    note := if maxActions < ranked.length then some (capNote ranked.length maxActions) else none }

/-- Build a ranked, deduplicated plan of next-best recovery actions. -/
def buildRecoveryPlan (U : Unicode) (pack : NarrationEvidencePack) (index : ReconIndex) (lines : List BankCreditLine)
    (attributions : List RailAttribution) (exceptions : List ExceptionRecord) (maxActions : ℤ) :
    Except OverflowError RecoveryPlan := do
  let attrs := attributionsByKey attributions
  let excs := exceptionsByKey exceptions
  let unresolved := unresolvedLines lines attrs excs
  if unresolved = [] then
    return { actions := [], unresolvedCount := 0, unresolvedPaise := 0, recoverableIfActionedPaise := 0 }
  let mapped ← unresolved.mapM (lineAction U pack index attrs excs)
  return planOf lines unresolved maxActions (actionGroups mapped)

end Untangle
