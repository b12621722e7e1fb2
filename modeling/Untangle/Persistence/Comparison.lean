import Untangle.Engine.Format
import Untangle.Engine.RunReport
import Untangle.Engine.Verifier
import Untangle.Persistence.Run

/-!
# `Persistence.Comparison` — two periods side by side

Model of `compare_runs` in `persistence/service.py`, on the runs of a tenant. A presentation is read as the document
that is stored; the difference of two of its values is taken where both are integers, and raises where they are not.
-/

namespace Untangle

open Lib

/-! ## Runs -/

def RunStatus.value : RunStatus → String
  | .initiated => "initiated"
  | .running => "running"
  | .completed => "completed"
  | .failed => "failed"
  | .aborted => "aborted"

/-- A run as a comparison reads it. -/
structure ComparableRun where
  publicId : String
  isDeleted : Bool := false
  reportingPeriodStart : Option Date
  reportingPeriodEnd : Option Date
  records : RunRecords

inductive CompareError
  | recordNotFound (message : String)
  | invalidRunState (message : String)
  /-- Raised by the comparison as a `ValueError`, or by Python itself. -/
  | raised (e : PyError)
deriving DecidableEq, Repr

/-! ## What a comparison answers -/

/-- A figure of each run, and the difference. -/
structure Figures where
  base : ℤ
  target : ℤ
  delta : ℤ
deriving DecidableEq, Repr

structure RailComparison where
  rail : String
  label : Json
  amountPaise : Figures
  count : Figures

structure RootCauseDrift where
  rootCause : String
  count : Figures
deriving DecidableEq, Repr

structure SummaryDeltas where
  totalCreditDeltaPaise : ℤ
  reconciledDeltaPaise : ℤ
  unresolvedDeltaPaise : ℤ
  feeGstRecoverableDeltaPaise : ℤ
  exceptionCountDelta : ℤ
deriving DecidableEq, Repr

structure ComparedRun where
  id : String
  reportingPeriodStart : String
  reportingPeriodEnd : String
  summary : Json

structure RunComparison where
  baseRun : ComparedRun
  targetRun : ComparedRun
  periodRelationship : String
  deltas : SummaryDeltas
  railsComparison : List RailComparison
  rootCauseDrift : List RootCauseDrift

/-! ## Reading a presentation -/

/-- `target - base`, of integers. -/
def change (target base : Json) : Except CompareError Figures :=
  match target.asInt?, base.asInt? with
  | some t, some b => .ok ⟨b, t, t - b⟩
  | _, _ => .error (.raised (.type ("unsupported operand type(s) for -: '" ++ target.typeName ++ "' and '" ++
      base.typeName ++ "'")))

/-- `document.get(key)`, `none` for an absent key. -/
def fieldOf (document : Json) (key : String) : Except CompareError (Option Json) :=
  if document.isObj then .ok (document.get? key)
  else .error (.raised (.attribute ("'" ++ document.typeName ++ "' object has no attribute 'get'")))

/-- `value or default`. -/
def orElse (value : Option Json) (default : Json) : Json :=
  match value with
  | some v => if v.truth then v else default
  | none => default

/-- `(result.presentation_json if result else {}) or {}`. -/
def presentationOf (run : ComparableRun) : Json :=
  orElse (run.records.result.map ReconciliationResultRow.presentation) (.obj [])

def summaryOf (presentation : Json) : Except CompareError Json := do
  return orElse (← fieldOf presentation "summary") (.obj [])

/-- `target_summary.get(key, 0) - base_summary.get(key, 0)`. -/
def summaryDelta (base target : Json) (key : String) : Except CompareError ℤ := do
  let t ← fieldOf target key
  let b ← fieldOf base key
  return (← change (t.getD (.int 0)) (b.getD (.int 0))).delta

def summaryDeltas (base target : Json) : Except CompareError SummaryDeltas := do
  let totalCredit ← summaryDelta base target "total_credit_paise"
  let reconciled ← summaryDelta base target "reconciled_paise"
  let unresolved ← summaryDelta base target "unresolved_paise"
  let feeGst ← summaryDelta base target "fee_gst_recoverable_paise"
  let exceptions ← summaryDelta base target "exception_count"
  return ⟨totalCredit, reconciled, unresolved, feeGst, exceptions⟩

/-- The rail of a row, which is a text. -/
def rowRail (row : Json) : Except CompareError String :=
  match row.get "rail" with
  | .str rail => .ok rail
  | _ => .error (.raised (.type "rails are compared as text"))

/-- The rows of a presentation by rail; a later row replaces an earlier one. -/
def railsOf (presentation : Json) : Except CompareError (Dict String Json) := do
  let rails ← fieldOf presentation "rails"
  let rows ← (iterate (orElse rails (.arr []))).mapError .raised
  let named ← (rows.filter Json.isObj).mapM fun row => do return (← rowRail row, row)
  return Dict.gather (fun p => some p.1) (fun p _ => p.2) named

/-! ## The comparison -/

/-- `sorted(set(a) | set(b))`. -/
def sortedUnion (a b : List String) : List String := (a ++ b).dedup.insertionSort (· ≤ ·)

def compareRail (base target : Dict String Json) (rail : String) : Except CompareError RailComparison := do
  let b := orElse (base.get? rail) (.obj [])
  let t := orElse (target.get? rail) (.obj [])
  let amount ← change (orElse (t.get? "amount_paise") (.int 0)) (orElse (b.get? "amount_paise") (.int 0))
  let count ← change (orElse (t.get? "count") (.int 0)) (orElse (b.get? "count") (.int 0))
  return ⟨rail, orElse (t.get? "label") (orElse (b.get? "label") (.str rail)), amount, count⟩

/-- `Counter(inv.root_cause for inv in …)`. -/
def rootCauseCounts (run : ComparableRun) : Dict String Nat :=
  counter (run.records.investigations.map InvestigationRecord.rootCause)

def rootCauseDrift (base target : Dict String Nat) : List RootCauseDrift :=
  (sortedUnion base.keys target.keys).map fun rc =>
    let b : ℤ := (base.get? rc).getD 0
    let t : ℤ := (target.get? rc).getD 0
    ⟨rc, ⟨b, t, t - b⟩⟩

def findRun (U : Unicode) (side : String) (runs : List ComparableRun) (publicId : String) :
    Except CompareError ComparableRun :=
  match (runs.find? fun run => run.publicId = publicId).filter fun run => !run.isDeleted with
  | some run => .ok run
  | none => .error (.recordNotFound (side ++ " run " ++ U.repr publicId ++ " not found."))

def requireCompleted (side : String) (run : ComparableRun) : Except CompareError Unit :=
  refuseIf (run.records.row.val.status ≠ .completed)
    (.invalidRunState (side ++ " run " ++ run.publicId ++ " is not completed (status: " ++
      run.records.row.val.status.value ++ ")."))

def reportingPeriod (side : String) (run : ComparableRun) : Except CompareError (Date × Date) :=
  match run.reportingPeriodStart, run.reportingPeriodEnd with
  | some start, some finish => .ok (start, finish)
  | _, _ => .error (.raised (.value (side ++ " run " ++ run.publicId ++
      " does not have configured reporting periods.")))

def overlapMessage (base target : Date × Date) : String :=
  "Comparison requires non-overlapping reporting periods; base [" ++ isoDate base.1 ++ " to " ++ isoDate base.2 ++
    "] overlaps target [" ++ isoDate target.1 ++ " to " ++ isoDate target.2 ++ "]."

/-- `compare_runs`. -/
def compareRuns (U : Unicode) (runs : List ComparableRun) (baseRunPublicId targetRunPublicId : String) :
    Except CompareError RunComparison := do
  let base ← findRun U "Base" runs baseRunPublicId
  let target ← findRun U "Target" runs targetRunPublicId
  requireCompleted "Base" base
  requireCompleted "Target" target
  let basePeriod ← reportingPeriod "Base" base
  let targetPeriod ← reportingPeriod "Target" target
  refuseIf (¬ (basePeriod.2 < targetPeriod.1 ∨ targetPeriod.2 < basePeriod.1))
    (.raised (.value (overlapMessage basePeriod targetPeriod)))
  let baseSummary ← summaryOf (presentationOf base)
  let targetSummary ← summaryOf (presentationOf target)
  let deltas ← summaryDeltas baseSummary targetSummary
  let baseRails ← railsOf (presentationOf base)
  let targetRails ← railsOf (presentationOf target)
  let rails ← (sortedUnion baseRails.keys targetRails.keys).mapM (compareRail baseRails targetRails)
  return {
    baseRun := ⟨base.publicId, isoDate basePeriod.1, isoDate basePeriod.2, baseSummary⟩
    targetRun := ⟨target.publicId, isoDate targetPeriod.1, isoDate targetPeriod.2, targetSummary⟩
    periodRelationship := if basePeriod.2 < targetPeriod.1 then "subsequent" else "preceding"
    deltas := deltas
    railsComparison := rails
    rootCauseDrift := rootCauseDrift (rootCauseCounts base) (rootCauseCounts target) }

end Untangle
