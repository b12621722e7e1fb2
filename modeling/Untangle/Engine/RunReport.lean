import Untangle.Engine.Ledger
import Untangle.Engine.Proof
import Untangle.Engine.Provenance
import Untangle.Engine.Recovery
import Untangle.Engine.Rules

/-!
# `Engine.RunReport` — one run, from loaded inputs to the report

Model of `build_report` and the pipeline around it (`engine/cli.py`, `engine/service.py`), with the report records of
`engine/models.py` and the coverage curve of `engine/abstain.py`. The stages are the ones of the modules before; what
is added here is the totals, the audit ledger and the document (`RunReport.toDict`) that every consumer is handed.
-/

namespace Untangle

open Lib

/-- Configuration, as `build_config` accepts it. -/
structure Config where
  threshold : ℚ
  seed : ℤ
  globalSolver : Bool := false
  evidencePack : EvidencePack := defaultEvidencePack
  /-- `provider_or_none()`. -/
  provider : String := "none"
  model : Option String := none
  threshold_unit : 0 ≤ threshold ∧ threshold ≤ 1
  registered : evidencePack ∈ packRegistry

def engineVersion : String := "1.2.0"
def reportSchemaVersion : String := "1.1.0"

/-! ## The coverage curve -/

def requiredPrecision : ℚ := max 0 (1 - 1 / 20)

structure CurvePoint where
  threshold : ℚ
  coverage : ℚ
deriving DecidableEq, Repr

/-- Coverage as a function of the confidence cutoff. -/
def coverageCurve (confidences : List ℚ) (steps total : Nat) : List CurvePoint :=
  let n := if total = 0 then 1 else total
  (List.range (steps + 1)).map fun i =>
    ⟨roundTo 4 ((i : ℚ) / steps),
      roundTo 4 (((confidences.filter fun c => (i : ℚ) / steps ≤ c).length : ℚ) / n)⟩

/-! ## Documents of the records -/

def EvidenceItem.toDict (e : EvidenceItem) : Json :=
  .obj [("signal", .str e.signal), ("detail", .str e.detail), ("weight", .float e.weight)]

namespace RailAttribution

variable (a : RailAttribution)

def provenanceClass : String :=
  if !a.abstained then
    (if a.rail = Rail.razorpaySettlement.value then "razorpay_proven" else "non_razorpay")
  else if a.evidence ≠ [] then "ambiguous"
  else "unattributed"

def toDict : Json :=
  .obj
    ([("line_key", .str a.lineKey),
        ("rail", .str a.rail),
        ("provenance_class", .str a.provenanceClass),
        ("confidence", .float (roundTo 4 a.confidence)),
        ("tier", .str a.tier),
        ("abstained", .bool a.abstained),
        ("llm_used", .bool a.llmUsed),
        ("evidence", .arr (a.evidence.map EvidenceItem.toDict))] ++
      (a.proofMargin.map fun margin => ("proof_margin", .float (roundTo 4 margin))).toList ++
      (a.competingExplanation.map fun e => ("competing_explanation", e.toDict)).toList)

end RailAttribution

def ReconciliationResult.toDict (r : ReconciliationResult) : Json :=
  .obj
    ([("line_key", .str r.lineKey),
        ("covered_entity_ids", .arr (r.coveredEntityIds.map fun p => .arr [.str p.1, .str p.2])),
        ("covered_net_paise", .int r.coveredNetPaise),
        ("credit_amount_paise", .int r.creditAmountPaise),
        ("residual_paise", .int r.residualPaise),
        ("balanced", .bool r.balanced)] ++
      if r.coveredRowIds ≠ [] then [("covered_row_ids", .arr (r.coveredRowIds.map .str))] else [])

def FeeGstRecovery.toDict (f : FeeGstRecovery) : Json :=
  .obj
    [("total_recoverable_paise", .int f.totalRecoverablePaise),
      ("by_entity", .arr (f.byEntity.map fun p => .arr [.str p.1, .int p.2]))]

def ExceptionRecord.toDict (e : ExceptionRecord) : Json :=
  .obj
    [("line_key", .str e.lineKey),
      ("reason_code", .str e.reasonCode),
      ("detail", .str e.detail),
      ("suggested_action", .str e.suggestedAction),
      ("amount_paise", Json.ofOption .int e.amountPaise),
      ("evidence", .arr (e.evidence.map EvidenceItem.toDict))]

def RejectedMatch.toDict (r : RejectedMatch) : Json :=
  .obj
    [("credit_keys", .arr (r.creditKeys.map .str)),
      ("candidate_id", .str r.candidateId),
      ("target_id", .str r.targetId),
      ("rail", .str r.rail),
      ("violated_constraint", .str r.violatedConstraint),
      ("detail", .str r.detail)]

def JournalEntry.toDict (e : JournalEntry) : Json :=
  .obj
    [("ref", .str e.ref),
      ("date", .str e.date),
      ("utr", .str e.utr),
      ("narration", .str e.narration),
      ("balanced", .bool e.balanced),
      ("lines", .arr (e.lines.map fun ln => .obj
        [("ledger", .str ln.ledger),
          ("debit_inr", .str (inr ln.debitPaise)),
          ("credit_inr", .str (inr ln.creditPaise))]))]

def CandidateTried.toDict (c : CandidateTried) : Json :=
  .obj
    [("root_cause", .str c.rootCause),
      ("matched", .bool c.matched),
      ("delta_paise", .int c.deltaPaise),
      ("unexplained_residual_paise", .int c.unexplainedResidualPaise),
      ("reason", .str c.reason)]

def Investigation.toDict (i : Investigation) : Json :=
  .obj
    [("line_key", .str i.lineKey),
      ("variance_paise", .int i.variancePaise),
      ("variance_inr", .str (inr |i.variancePaise|)),
      ("root_cause", .str i.rootCause),
      ("confidence", .float (roundTo 4 i.confidence)),
      ("reasoning_trace", .arr (i.reasoningTrace.map .str)),
      ("corrective_entry", Json.ofOption JournalEntry.toDict i.correctiveEntry),
      ("candidates_tried", .arr (i.candidatesTried.map CandidateTried.toDict))]

/-! ## Totals -/

structure RunTotals where
  nBankLines : Nat
  nReconRows : Nat
  byRailCount : List (String × Nat)
  byRailPaise : List (String × ℤ)
  attributed : Nat
  abstained : Nat
  reconciledCount : Nat
  reconciledPaise : ℤ
  unresolvedRzpCount : Nat
  feeGstRecoverablePaise : ℤ
  exceptionCount : Nat
  exceptionsByReason : List (String × Nat)
  totalCreditPaise : ℤ
  coverageCurve : List CurvePoint
deriving DecidableEq, Repr

def RunTotals.toDict (t : RunTotals) : Json :=
  .obj
    [("n_bank_lines", .int t.nBankLines),
      ("n_recon_rows", .int t.nReconRows),
      ("by_rail_count", .obj (t.byRailCount.map fun p => (p.1, .int p.2))),
      ("by_rail_paise", .obj (t.byRailPaise.map fun p => (p.1, .int p.2))),
      ("attributed", .int t.attributed),
      ("abstained", .int t.abstained),
      ("reconciled_count", .int t.reconciledCount),
      ("reconciled_paise", .int t.reconciledPaise),
      ("unresolved_rzp_count", .int t.unresolvedRzpCount),
      ("fee_gst_recoverable_paise", .int t.feeGstRecoverablePaise),
      ("exception_count", .int t.exceptionCount),
      ("exceptions_by_reason", .obj (t.exceptionsByReason.map fun p => (p.1, .int p.2))),
      ("total_credit_paise", .int t.totalCreditPaise),
      ("required_precision", .float (roundTo 4 requiredPrecision)),
      ("coverage_curve", .arr (t.coverageCurve.map fun c =>
        .obj [("threshold", .float c.threshold), ("coverage", .float c.coverage)]))]

/-- `dict(sorted(d.items()))`. -/
def sortedItems {ν : Type} (d : Dict String ν) : List (String × ν) := d.items.insertionSort fun p q => p.1 ≤ q.1

/-- `Counter`. -/
def counter (names : List String) : Dict String Nat :=
  Dict.gather some (fun _ n => n.getD 0 + 1) names

/-- `rupees_by_rail`: the signed amounts of the lines of each rail. -/
def paiseByRail (zipped : List (RailAttribution × BankCreditLine)) : Dict String ℤ :=
  Dict.gather (fun p => some p.1.rail) (fun p sum => sum.getD 0 + p.2.amountPaise) zipped

def totalCreditPaise (lines : List BankCreditLine) : ℤ :=
  ((lines.filter BankCreditLine.isCredit).map BankCreditLine.amountPaise).sum

/-! ## The report -/

structure RunReport where
  totals : RunTotals
  attributions : List RailAttribution
  reconciliations : List ReconciliationResult
  feeGst : FeeGstRecovery
  exceptions : List ExceptionRecord
  auditRoot : String
  config : Json
  proofPackets : List Json
  recoveryPlan : Option RecoveryPlan
  rejectedMatches : Option (List RejectedMatch)
  journal : List JournalEntry
  investigations : Option (List Investigation)

def RunReport.toDict (r : RunReport) : Json :=
  .obj
    ([("totals", r.totals.toDict),
        ("attributions", .arr (r.attributions.map RailAttribution.toDict)),
        ("reconciliations", .arr (r.reconciliations.map ReconciliationResult.toDict)),
        ("fee_gst", r.feeGst.toDict),
        ("exceptions", .arr (r.exceptions.map ExceptionRecord.toDict)),
        ("audit_root", .str r.auditRoot),
        ("config", r.config),
        ("proof_packets", .arr r.proofPackets)] ++
      (r.recoveryPlan.map fun plan => ("recovery_plan", plan.toDict)).toList ++
      (r.rejectedMatches.map fun rejected => ("rejected_matches", .arr (rejected.map RejectedMatch.toDict))).toList ++
      [("journal", .arr (r.journal.map JournalEntry.toDict))] ++
      (r.investigations.map fun found => ("investigations", .arr (found.map Investigation.toDict))).toList)

/-- What stops a report: a value that does not resolve, a date outside the calendar, a voucher. -/
inductive ReportError
  | value (e : ValueError)
  | overflow (e : OverflowError)
  | journal (e : JournalError)
deriving DecidableEq, Repr

def configDict (cfg : Config) (solverActive : Bool) : Json :=
  .obj
    ([("engine_version", .str engineVersion),
        ("seed", .int cfg.seed),
        ("provider", .str cfg.provider),
        ("model", Json.ofOption .str cfg.model),
        ("threshold", .float cfg.threshold),
        ("report_schema_version", .str reportSchemaVersion),
        ("evidence_pack", cfg.evidencePack.provenance.toDict)] ++
      if solverActive then [("global_solver", .bool true)] else [])

/-- The events of the audit ledger, in order. -/
def auditEvents (cfg : Config) (lines : List BankCreditLine) (rows : List ReconRow)
    (attributions : List RailAttribution) (reconciliations : List ReconciliationResult)
    (exceptions : List ExceptionRecord) : List (String × Json) :=
  [("run_start", .obj
    [("engine_version", .str engineVersion),
      ("seed", .int cfg.seed),
      ("provider", .str cfg.provider),
      ("threshold", .float cfg.threshold),
      ("n_bank_lines", .int lines.length),
      ("n_recon_rows", .int rows.length),
      ("evidence_pack_id", .str cfg.evidencePack.provenance.packId),
      ("evidence_pack_version", .str cfg.evidencePack.provenance.version)])] ++
  attributions.map (fun a => ("attribution", .obj
    [("line_key", .str a.lineKey),
      ("rail", .str a.rail),
      ("confidence", .float (roundTo 4 a.confidence)),
      ("tier", .str a.tier),
      ("abstained", .bool a.abstained)])) ++
  reconciliations.map (fun r => ("reconciliation", .obj
    [("line_key", .str r.lineKey),
      ("covered", .int r.coveredEntityIds.length),
      ("residual_paise", .int r.residualPaise),
      ("balanced", .bool r.balanced)])) ++
  exceptions.map (fun e => ("exception", .obj [("line_key", .str e.lineKey), ("reason_code", .str e.reasonCode)])) ++
  [("run_end", .obj
    [("attributed", .int (attributions.filter fun a => !a.abstained).length),
      ("reconciled", .int reconciliations.length),
      ("exceptions", .int exceptions.length)])]

def totalsOf (lines : List BankCreditLine) (rows : List ReconRow) (attributions : List RailAttribution)
    (zipped : List (RailAttribution × BankCreditLine)) (reconciliations : List ReconciliationResult)
    (unresolved : List String) (feeGst : FeeGstRecovery) (exceptions : List ExceptionRecord) : RunTotals :=
  let attributed := attributions.filter fun a => !a.abstained
  { nBankLines := lines.length
    nReconRows := rows.length
    byRailCount := sortedItems (counter (attributions.map RailAttribution.rail))
    byRailPaise := sortedItems (paiseByRail zipped)
    attributed := attributed.length
    abstained := (attributions.filter RailAttribution.abstained).length
    reconciledCount := reconciliations.length
    reconciledPaise := (reconciliations.map ReconciliationResult.creditAmountPaise).sum
    unresolvedRzpCount := unresolved.length
    feeGstRecoverablePaise := feeGst.totalRecoverablePaise
    exceptionCount := exceptions.length
    exceptionsByReason := sortedItems (counter (exceptions.map ExceptionRecord.reasonCode))
    totalCreditPaise := totalCreditPaise lines
    coverageCurve := coverageCurve (attributed.map RailAttribution.confidence) 20 attributions.length }

def maxRecoveryActions : Nat := 20

section Build

variable (H : Hashing) (U : Unicode) (standardFee : ℤ → ℤ) (digest : RowSignature → String)

/-- The attributions of a report, and the solver's rejected matches: a run of the solver that the caller did not make
    is made here, unless the attributions show that it was. -/
def solverStage (cfg : Config) (lines : List BankCreditLine) (index : ReconIndex)
    (attributions : List RailAttribution) (solverActive : Bool) (solverResult : Option SolverResult) :
    List RailAttribution × Option (List RejectedMatch) :=
  if !solverActive then (attributions, none)
  else
    match solverResult with
    | some result => (attributions, some result.rejectedMatches)
    | none =>
      if attributions.any fun a => hasSignal ["split_reconstruction"] a.evidence then (attributions, none)
      else
        let (solved, result) := runGlobalSolver U { threshold := some cfg.threshold, pack := cfg.evidencePack.rules } 0
          index lines attributions
        (solved, some result.rejectedMatches)

/-- Everything after the solver. -/
def assembleReport (cfg : Config) (lines : List BankCreditLine) (rows : List ReconRow) (index : ReconIndex)
    (attributions : List RailAttribution) (rejected : Option (List RejectedMatch)) (orderLedger : List OrderLedgerEntry)
    (withRecovery withInvestigation solverActive : Bool) : Except ReportError RunReport := do
  let zipped ← (zipStrict attributions lines).mapError .value
  let out ← (reconcile U digest (linesByKey lines) attributions rows).mapError .value
  let reconciliations := out.results
  let feegst ← (feeGst U digest reconciliations rows).mapError .value
  let exceptions := buildExceptions attributions out.unresolved (linesByKey lines) out.notes ++
    reconcileLedger U orderLedger reconciliations rows
  let ledger := AuditLedger.ofEvents H (auditEvents cfg lines rows attributions reconciliations exceptions)
  let recoveryPlan ←
    if withRecovery then
      ((buildRecoveryPlan U cfg.evidencePack.rules index lines attributions exceptions maxRecoveryActions).mapError
        .overflow).map some
    else .ok none
  let proofPackets ← (buildProofPackets U digest cfg.evidencePack.rules rows lines attributions reconciliations
    rejected).mapError .value
  let journal ← (buildJournalEntries U digest reconciliations rows true).mapError .journal
  let investigations ←
    if withInvestigation then
      ((buildInvestigations U standardFee digest index rows lines reconciliations exceptions).mapError .value).map some
    else .ok none
  return {
    totals := totalsOf lines rows attributions zipped reconciliations out.unresolved feegst exceptions
    attributions := attributions
    reconciliations := reconciliations
    feeGst := feegst
    exceptions := exceptions
    auditRoot := ledger.root
    config := configDict cfg solverActive
    proofPackets := proofPackets
    recoveryPlan := recoveryPlan
    rejectedMatches := rejected
    journal := journal
    investigations := investigations }

def buildReport (cfg : Config) (lines : List BankCreditLine) (rows : List ReconRow) (index : ReconIndex)
    (attributions : List RailAttribution) (orderLedger : List OrderLedgerEntry) (withRecovery withInvestigation : Bool)
    (globalSolver : Bool) (solverResult : Option SolverResult) : Except ReportError RunReport :=
  let solverActive := globalSolver || cfg.globalSolver
  let (attributions, rejected) := solverStage U cfg lines index attributions solverActive solverResult
  assembleReport H U standardFee digest cfg lines rows index attributions rejected orderLedger withRecovery
    withInvestigation solverActive

/-! ## The pipeline -/

/-- The settings of `attribute_all` in a run. -/
def Config.settings (cfg : Config) (audit : Bool) : Settings where
  threshold := cfg.threshold
  marginThreshold := 0
  audit := audit
  pack := cfg.evidencePack.rules

/-- `solver_result_out`: what the solver returned besides the attributions. -/
def solverResultOut (cfg : Config) (audit : Bool) (index : ReconIndex) (lines : List BankCreditLine) :
    Except ValueError (Option SolverResult) :=
  if cfg.globalSolver then
    (lines.mapM (attributeLine U (cfg.settings audit) index)).map fun base =>
      some (runGlobalSolver U { threshold := some cfg.threshold, pack := cfg.evidencePack.rules } 0 index lines base).2
  else .ok none

/-- `_reconcile_loaded` without the AI tier; the command line runs the same with the audit off. -/
def reconcileLoaded (cfg : Config) (audit : Bool) (lines : List BankCreditLine) (rows : List ReconRow)
    (orderLedger : List OrderLedgerEntry) : Except ReportError RunReport := do
  let index := ReconIndex.ofRows U rows
  let attributions ← (attributeAllRules U (cfg.settings audit) index cfg.globalSolver [] lines).mapError .value
  let solverResult ← (solverResultOut U cfg audit index lines).mapError .value
  buildReport H U standardFee digest cfg lines rows index attributions orderLedger true true cfg.globalSolver
    solverResult

end Build

end Untangle
