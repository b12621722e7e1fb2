import Untangle.Engine.Investigate

/-!
# `Engine.Persistence` — the investigations table

Model of `persistence/repositories/investigation.py` against the constraints that the initial migration puts on the
`investigations` table. The rows are those of one run of one organisation; the insertions of a run are one
transaction, so a single violation fails the run.
-/

namespace Untangle

/-- What `chk_investigations_root_cause_allowed` admits. -/
def rootCausesAllowed : List String :=
  ["mdr_fee_drift", "cross_cycle_refund_lag", "on_hold_release", "dispute_deduction", "partial_capture",
    "bank_charge_or_rounding", "rolling_reserve", "unexplained"]

structure InvestigationRecord where
  lineKey : String
  rootCause : String
  confidence : ℚ
  variancePaise : ℤ
deriving DecidableEq, Repr

/-- The constraint an insertion violates. -/
inductive Violation
  | confidenceBounds
  | rootCauseAllowed
  | uniqueRunLine
deriving DecidableEq, Repr

def Investigation.record (inv : Investigation) : InvestigationRecord where
  lineKey := inv.lineKey
  rootCause := inv.rootCause
  confidence := inv.confidence
  variancePaise := inv.variancePaise

/-- One insertion. -/
def insertInvestigation (table : List InvestigationRecord) (inv : Investigation) :
    Except Violation (List InvestigationRecord) :=
  if ¬ (0 ≤ inv.confidence ∧ inv.confidence ≤ 1) then .error .confidenceBounds
  else if inv.rootCause ∉ rootCausesAllowed then .error .rootCauseAllowed
  else if inv.lineKey ∈ table.map InvestigationRecord.lineKey then .error .uniqueRunLine
  else .ok (table ++ [inv.record])

/-- `save_investigations`, for a run that has none yet. -/
def saveInvestigations (cases : List Investigation) : Except Violation (List InvestigationRecord) :=
  cases.foldlM insertInvestigation []

end Untangle
