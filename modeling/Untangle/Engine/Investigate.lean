import Untangle.Engine.Evidence
import Untangle.Engine.Exceptions
import Untangle.Engine.Journal

/-!
# `Engine.Investigate` — root causes of reconciliation variances

Model of `engine/investigate.py`. A credit is associated with settlement rows, by its reconciliation or by the UTRs
in its narration; the variance against their net is put to seven classifiers in order, and the first that closes it
within tolerance names the root cause. The fee of the standard slab, `round(gross * 0.02 * 1.18)` in floats, is the
parameter `standardFee`; the attribution and the exception that `investigate` is handed are not read by it.
-/

namespace Untangle

open Lib

/-! ## Root causes -/

/-- The root-cause taxonomy, in the order of the classifiers. -/
inductive RootCause
  | mdrFeeDrift
  | crossCycleRefundLag
  | onHoldRelease
  | disputeDeduction
  | partialCapture
  | bankChargeOrRounding
  | rollingReserve
  | unexplained
deriving DecidableEq, Repr

def RootCause.value : RootCause → String
  | .mdrFeeDrift => "mdr_fee_drift"
  | .crossCycleRefundLag => "cross_cycle_refund_lag"
  | .onHoldRelease => "on_hold_release"
  | .disputeDeduction => "dispute_deduction"
  | .partialCapture => "partial_capture"
  | .bankChargeOrRounding => "bank_charge_or_rounding"
  | .rollingReserve => "rolling_reserve"
  | .unexplained => "unexplained"

def ledgerDisputes : String := "Disputed Receivables A/c"
def ledgerOnHold : String := "On-Hold Settlement Reserve A/c"
def ledgerRollingReserve : String := "Rolling Reserve Asset A/c"
def ledgerRefundSuspense : String := "Cross-Cycle Refund Suspense A/c"
def ledgerUncaptured : String := "Uncaptured Order Variance A/c"

def tolerancePaise : ℤ := 100

/-- One entry of `candidates_tried`. -/
structure CandidateTried where
  rootCause : String
  matched : Bool
  deltaPaise : ℤ
  unexplainedResidualPaise : ℤ
  reason : String
deriving DecidableEq, Repr

/-- An investigation into a reconciliation variance. -/
structure Investigation where
  lineKey : String
  variancePaise : ℤ
  rootCause : String
  confidence : ℚ
  reasoningTrace : List String
  correctiveEntry : Option JournalEntry
  candidatesTried : List CandidateTried
deriving DecidableEq, Repr

/-! ## The corrective voucher -/

/-- Debit a ledger against the clearing account, or the other way round for a positive amount. -/
def swing (ledger : String) (paise : ℤ) : List JournalLine :=
  if paise < 0 then
    [{ ledger := ledger, debitPaise := |paise| }, { ledger := ledgerClearing, creditPaise := |paise| }]
  else [{ ledger := ledgerClearing, debitPaise := |paise| }, { ledger := ledger, creditPaise := |paise| }]

/-- A deduction: the ledger is debited whatever the sign. -/
def deduct (ledger : String) (paise : ℤ) : List JournalLine :=
  [{ ledger := ledger, debitPaise := |paise| }, { ledger := ledgerClearing, creditPaise := |paise| }]

def correctiveLines (cause : RootCause) (paise : ℤ) : List JournalLine :=
  match cause with
  | .mdrFeeDrift => swing ledgerMdr paise
  | .crossCycleRefundLag => swing ledgerRefundSuspense paise
  | .onHoldRelease => swing ledgerOnHold paise
  | .disputeDeduction => deduct ledgerDisputes paise
  | .partialCapture => deduct ledgerUncaptured paise
  | .bankChargeOrRounding => swing ledgerRounding paise
  | .rollingReserve => swing ledgerRollingReserve paise
  | .unexplained => swing ledgerRounding paise

/-- `_make_corrective_entry`; the balance it asserts holds by construction. -/
def makeCorrectiveEntry (line : BankCreditLine) (cause : RootCause) (paise : ℤ) (ref date utr : String) :
    JournalEntry where
  ref := "ADJ-" ++ ref
  date := date
  utr := utr
  narration := "Proposed adjustment for " ++ cause.value ++ " | Bank credit " ++ line.key ++ " | Variance " ++
    formatInr paise ++ " | PROPOSAL ONLY - NOT POSTED"
  lines := correctiveLines cause paise

/-! ## Association -/

/-- The settlement rows a credit is compared with, and what its voucher is labelled with. -/
structure Association where
  rows : List ReconRow := []
  expectedNet : ℤ := 0
  refId : String
  date : String
  utr : String
deriving DecidableEq, Repr

/-- Maximal runs of characters that are no white space; `run` is the current one, reversed. -/
def wordRuns (run : List Char) : List Char → List (List Char)
  | [] => [run.reverse]
  | c :: cs => if isSpace c then run.reverse :: wordRuns [] cs else wordRuns (c :: run) cs

/-- `text.replace("/", " ").replace("-", " ").split()`. -/
def words (text : String) : List String :=
  let spaced := text.toList.map fun c => if c = '/' ∨ c = '-' then ' ' else c
  ((wordRuns [] spaced).filter (· ≠ [])).map String.ofList

section Associate

variable (U : Unicode) (index : ReconIndex)

/-- The settlement a word of the narration ties the credit to: by an exact UTR, or by a suffix that the value date
    or the amount corroborates. -/
def tiedSettlement (line : BankCreditLine) (word : String) : Option String :=
  let w := U.lower word
  if index.utrExact U w then truthy (index.utrToSid.get? w)
  else
    match (truthy (index.utrSuffixMatch U w)).bind fun utr => truthy (index.utrToSid.get? utr) with
    | none => none
    | some sid =>
      if index.dateNear line sid ∨ (line.isCredit ∧ index.settlementNet.get? sid = some line.amountPaise) then some sid
      else none

/-- `candidate_sids`, a set. -/
def candidateSids (line : BankCreditLine) : List String :=
  (([line.bankRef, some line.narration].filterMap truthy).flatMap words).filterMap (tiedSettlement U index line)
    |>.dedup

/-- The reconciliation, when it names covered rows by either identity list. -/
def namedCoverage (rec : Option ReconciliationResult) : Option ReconciliationResult :=
  rec.filter fun r => r.coveredEntityIds ≠ [] ∨ r.coveredRowIds ≠ []

/-- The labels of a credit before any row is associated. -/
def unlabelled (line : BankCreditLine) : Association where
  refId := line.key
  date := isoDate line.valueDate
  utr := line.bankRef.getD ""

def associate (digest : RowSignature → String) (rows : List ReconRow) (line : BankCreditLine)
    (rec : Option ReconciliationResult) : Except ValueError Association := do
  match namedCoverage rec with
  | some r =>
    let covered ←
      if r.coveredRowIds ≠ [] then resolveCoveredRowsById U r (rowsByCanonicalId digest rows)
      else pure (consumeRows (rowsByKey rows) Dict.empty r.coveredEntityIds)
    let bare := { unlabelled line with expectedNet := r.coveredNetPaise }
    if covered = [] then
      return bare
    return { bare with
      rows := covered
      refId := (covered.findSome? fun row => truthy row.settlementId).getD line.key
      utr := (covered.findSome? fun row => truthy row.settlementUtr).getD bare.utr
      date := ((covered.findSome? ReconRow.settledAt).map fun t => isoDate t.date).getD bare.date }
  | none =>
    match candidateSids U index line with
    | [sid] =>
      return { unlabelled line with
        refId := sid
        expectedNet := (index.settlementNet.get? sid).getD 0
        rows := rows.filter fun row => row.settlementId = some sid }
    -- several settlements are implicated, or none: nothing is picked
    | _ => return unlabelled line

end Associate

/-! ## The classifiers -/

/-- What the classifiers look at: the variance, the associated rows and the whole report. -/
structure VarianceCase where
  variance : ℤ
  associated : List ReconRow
  reconRows : List ReconRow

/-- A classifier's match: the part of the variance it explains, and why. -/
structure Finding where
  deltaPaise : ℤ
  reason : String
deriving DecidableEq, Repr

structure Classifier where
  cause : RootCause
  find : VarianceCase → Option Finding
  confidence : (variance delta : ℤ) → ℚ
  missReason : VarianceCase → String
  missNote : VarianceCase → String := fun _ => ""

def closes (distance : ℤ) : Bool := |distance| ≤ tolerancePaise

/-- Confidence by the residual that the match leaves, and a fixed one for a match that does not close. -/
def closingConfidence (fallback : ℚ) (variance delta : ℤ) : ℚ :=
  if closes (variance - delta) then roundTo 4 (1 - |variance - delta| / 100 * (1 / 10)) else fallback

section Classifiers

variable (U : Unicode) (standardFee : ℤ → ℤ)

/-- Case A: the tax convention; case B: the drift against the standard slab, in the direction that closes. -/
def findMdrFeeDrift (c : VarianceCase) : Option Finding :=
  let feeSum := (c.associated.map ReconRow.feePaise).sum
  let taxSum := (c.associated.map ReconRow.taxPaise).sum
  if 0 < taxSum ∧ closes (|c.variance| - taxSum) then
    some ⟨if c.variance < 0 then -taxSum else taxSum,
      "Fee tax-inside/outside convention difference matches variance: " ++ formatInr taxSum⟩
  else if 0 < feeSum then
    let gross := ((c.associated.filter fun r => r.type = "payment").map ReconRow.amountPaise).sum
    let drift := feeSum - standardFee gross
    if 0 < gross ∧ closes (c.variance - -drift) then
      some ⟨-drift, "MDR fee-slab recompute drift (" ++ formatInr drift ++ ") accounts for variance"⟩
    else none
  else none

def mdrFeeDrift : Classifier where
  cause := .mdrFeeDrift
  find := findMdrFeeDrift standardFee
  confidence := closingConfidence (95 / 100)
  missReason := fun _ => "MDR fee recalculation does not account for variance."

/-- The amount of a refund row: a debit-only row carries it in the debit. -/
def refundAmount (r : ReconRow) : ℤ := if r.amountPaise ≠ 0 then r.amountPaise else r.debitPaise

def isRefund (r : ReconRow) : Bool :=
  r.type = "refund" || (r.type = "adjustment" && isIn "refund" (U.lower (r.description.getD "")))

/-- Created in one cycle and settled in a later one. -/
def crossesCycle (r : ReconRow) : Bool :=
  match r.createdAt, r.settledAt with
  | some created, some settled => created.date < settled.date
  | _, _ => false

def findCrossCycleRefundLag (c : VarianceCase) : Option Finding :=
  let sids := c.associated.filterMap fun r => truthy r.settlementId
  let refunds := c.reconRows.filter fun r => r.settlementId.any (· ∈ sids) ∧ isRefund U r
  (refunds.find? fun r => crossesCycle r ∧ 0 < refundAmount r ∧ closes (c.variance + refundAmount r)).map fun r =>
    ⟨-refundAmount r, "Cross-cycle refund '" ++ r.entityId ++ "' of " ++ formatInr (refundAmount r) ++
      " accounts for variance"⟩

def crossCycleRefundLag : Classifier where
  cause := .crossCycleRefundLag
  find := findCrossCycleRefundLag U
  confidence := closingConfidence (90 / 100)
  missReason := fun _ => "No cross-cycle refund row matches the variance amount."

/-- An amount withheld or released: its magnitude closes the variance, in either direction. -/
def findEitherWay (sum : ℤ) (reason : String) (c : VarianceCase) : Option Finding :=
  if 0 < sum ∧ closes (|c.variance| - sum) then some ⟨if c.variance < 0 then -sum else sum, reason⟩ else none

def onHoldSum (c : VarianceCase) : ℤ := ((c.associated.filter ReconRow.onHold).map ReconRow.amountPaise).sum

def onHoldRelease : Classifier where
  cause := .onHoldRelease
  find := fun c => findEitherWay (onHoldSum c)
    ("On-hold amount of " ++ formatInr (onHoldSum c) ++ " matches variance exactly") c
  confidence := closingConfidence (90 / 100)
  missReason := fun _ => "No matching on-hold transactions in settlement."

/-- A dispute is a deduction: it explains a shortfall only. -/
def findDisputeDeduction (c : VarianceCase) : Option Finding :=
  let disputed := c.associated.filter fun r => r.disputeId.isSome
  let sum := (disputed.map ReconRow.amountPaise).sum
  if 0 < sum ∧ closes (c.variance + sum) then
    some ⟨-sum, "Dispute deduction '" ++ (disputed.head?.bind ReconRow.disputeId).getD "" ++ "' of " ++
      formatInr sum ++ " accounts for variance"⟩
  else none

def disputeDeduction : Classifier where
  cause := .disputeDeduction
  find := findDisputeDeduction
  confidence := closingConfidence (95 / 100)
  missReason := fun _ => "No dispute deduction found matching variance."

/-- Authorized and captured amount, of a row that carries both. -/
def capturePair (r : ReconRow) : Option (ℤ × ℤ) :=
  r.authorizedAmountPaise.bind fun authorized => r.capturedAmountPaise.map fun captured => (authorized, captured)

/-- Every row is two-sided or bare, well formed where it is two-sided, and some row is a genuine partial. -/
def captureEvidenceValid (c : VarianceCase) : Bool :=
  let pairs := c.associated.filterMap capturePair
  !(c.associated.any fun r => r.authorizedAmountPaise.isNone != r.capturedAmountPaise.isNone) && pairs ≠ [] &&
    (pairs.all fun p => p.2 ≤ p.1 && 0 ≤ p.2) && pairs.any fun p => p.2 < p.1

def captureGap (c : VarianceCase) : ℤ := ((c.associated.filterMap capturePair).map fun p => p.1 - p.2).sum

def findPartialCapture (c : VarianceCase) : Option Finding :=
  if captureEvidenceValid c ∧ closes (c.variance + captureGap c) then
    some ⟨-captureGap c, "Explicit authorized/captured gap of " ++ formatInr (captureGap c) ++
      " accounts for variance"⟩
  else none

def captureMiss (c : VarianceCase) : String :=
  if c.associated.filterMap capturePair ≠ [] then
    "Explicit authorized/captured evidence is invalid or does not close the variance."
  else "Skipped: no explicit authorized/captured evidence; partial capture is never inferred from text."

def partialCapture : Classifier where
  cause := .partialCapture
  find := findPartialCapture
  confidence := fun variance delta => roundTo 4 (1 - |variance - delta| / 100 * (1 / 10))
  missReason := captureMiss
  missNote := fun c => " (" ++ captureMiss c ++ ")"

def findBankCharge (c : VarianceCase) : Option Finding :=
  if closes c.variance then
    some ⟨c.variance, "Residual drift " ++ formatInr c.variance ++ " is within ±₹1 rounding tolerance"⟩
  else none

def bankChargeOrRounding : Classifier where
  cause := .bankChargeOrRounding
  find := findBankCharge
  confidence := fun variance _ => roundTo 4 (1 - |variance| / 100 * (15 / 100))
  missReason := fun c => "Variance " ++ formatInr c.variance ++ " exceeds ±₹1 rounding tolerance."

def isReserve (r : ReconRow) : Bool :=
  r.type = "reserve" || (truthy r.description).any fun text => isIn "reserve" (U.lower text)

def reserveSum (c : VarianceCase) : ℤ := ((c.associated.filter (isReserve U)).map ReconRow.amountPaise).sum

def rollingReserve : Classifier where
  cause := .rollingReserve
  find := fun c => findEitherWay (reserveSum U c)
    ("Explicit rolling reserve row matches variance: " ++ formatInr (reserveSum U c)) c
  confidence := closingConfidence (85 / 100)
  missReason := fun _ => "No explicit rolling reserve records present in settlement data."
  missNote := fun _ => " (gated on real data)"

def classifiers : List Classifier :=
  [mdrFeeDrift standardFee, crossCycleRefundLag U, onHoldRelease, disputeDeduction, partialCapture,
    bankChargeOrRounding, rollingReserve U]

end Classifiers

/-! ## The diagnosis -/

/-- The first match with its confidence, and what was tried on the way. -/
structure Diagnosis where
  matched : Option (RootCause × Finding × ℚ) := none
  tried : List CandidateTried := []
  trace : List String := []

/-- The classifiers in order, up to the first match; `step` numbers the trace. -/
def diagnose (c : VarianceCase) (step : Nat) : List Classifier → Diagnosis
  | [] => {}
  | k :: ks =>
    let evaluated := "Step " ++ toString step ++ ": Evaluated '" ++ k.cause.value ++ "' -> "
    match k.find c with
    | some f =>
      { matched := some (k.cause, f, k.confidence c.variance f.deltaPaise)
        tried := [⟨k.cause.value, true, f.deltaPaise, |c.variance - f.deltaPaise|, f.reason⟩]
        trace := [evaluated ++ "MATCH: " ++ f.reason ++ "."] }
    | none =>
      let rest := diagnose c (step + 1) ks
      { rest with
        tried := ⟨k.cause.value, false, 0, |c.variance|, k.missReason c⟩ :: rest.tried
        trace := (evaluated ++ "NO MATCH" ++ k.missNote c ++ ".") :: rest.trace }

section Investigate

variable (U : Unicode) (standardFee : ℤ → ℤ) (digest : RowSignature → String) (index : ReconIndex)
  (rows : List ReconRow)

/-- No settlement context: abstain rather than measure against nothing. -/
def withoutContext (line : BankCreditLine) : Investigation where
  lineKey := line.key
  variancePaise := 0
  rootCause := RootCause.unexplained.value
  confidence := 0
  reasoningTrace := ["Step 1: No settlement context could be associated with this unresolved credit (no covered " ++
    "settlement rows, and no settlement matched by UTR) — there is no expected net to compare against. Abstaining " ++
    "(root_cause='unexplained') rather than guessing."]
  correctiveEntry := none
  candidatesTried := []

/-- The variance of a credit put to the classifiers. -/
def classify (line : BankCreditLine) (a : Association) (variance : ℤ) (opening : String) : Investigation :=
  let d := diagnose ⟨variance, a.rows, rows⟩ 2 (classifiers U standardFee)
  match d.matched with
  | none =>
    { lineKey := line.key
      variancePaise := variance
      rootCause := RootCause.unexplained.value
      confidence := 0
      reasoningTrace := opening :: d.trace ++ ["Step 9: All 7 candidate root-cause classes evaluated without a " ++
        "match -> Abstaining with root_cause='unexplained' (no guesses made)."]
      correctiveEntry := none
      candidatesTried := d.tried }
  | some (cause, f, confidence) =>
    let entry := makeCorrectiveEntry line cause f.deltaPaise a.refId a.date a.utr
    { lineKey := line.key
      variancePaise := variance
      rootCause := cause.value
      confidence := confidence
      reasoningTrace := opening :: d.trace ++ ["Step 10: Drafted balanced corrective double-entry journal proposal (" ++
        entry.narration ++ ")."]
      correctiveEntry := some entry
      candidatesTried := d.tried }

def investigate (line : BankCreditLine) (rec : Option ReconciliationResult) : Except ValueError Investigation := do
  let a ← associate U index digest rows line rec
  if a.rows = [] then
    return withoutContext line
  let variance := line.amountPaise - a.expectedNet
  let opening := "Step 1: Computed variance: Bank credit (" ++ formatInr line.amountPaise ++
    ") vs Expected settlement net (" ++ formatInr a.expectedNet ++ ") -> Delta: " ++ formatInr variance ++ " (" ++
    toString variance ++ " paise)."
  if variance = 0 then
    return {
      lineKey := line.key
      variancePaise := 0
      rootCause := "balanced"
      confidence := 1
      reasoningTrace := [opening, "Step 2: Delta is 0 paise; credit balances exactly."]
      correctiveEntry := none
      candidatesTried := [] }
  return classify U standardFee rows line a variance opening

/-- The reasons that are put to an investigation. -/
def investigatedReasons : List String :=
  ["unbalanced_residual", "partial_or_duplicate_settlement", "reconstructed_split_leg", "razorpay_coverage_not_found"]

/-- `sorted(target_keys)`. -/
def targetKeys (exceptions : List ExceptionRecord) : List String :=
  ((exceptions.filter fun e => e.reasonCode ∈ investigatedReasons).map ExceptionRecord.lineKey).dedup.insertionSort
    (· ≤ ·)

/-- `{r.line_key: r for r in reconciliations}`. -/
def reconciliationsByKey (reconciliations : List ReconciliationResult) : Dict String ReconciliationResult :=
  Dict.gather (fun r => some r.lineKey) (fun r _ => r) reconciliations

/-- Run root-cause investigation for all recon-failure exceptions. -/
def buildInvestigations (lines : List BankCreditLine) (reconciliations : List ReconciliationResult)
    (exceptions : List ExceptionRecord) : Except ValueError (List Investigation) :=
  let byKey := linesByKey lines
  ((targetKeys exceptions).filterMap byKey.dict.get?).mapM fun line =>
    investigate U standardFee digest index rows line ((reconciliationsByKey reconciliations).get? line.key)

end Investigate

end Untangle
