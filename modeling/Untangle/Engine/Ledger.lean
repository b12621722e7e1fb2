import Untangle.Engine.Exceptions

/-!
# `Engine.Ledger` — order-ledger reconciliation

Model of `engine/ledger.py`: the merchant's order ledger against the slice that balanced reconciliations cover. A
`(type, entity_id)` key that the report repeats is left out of the cross-check. The sets of the source are lists
without repetition; every list it makes of them is sorted before it is shown.
-/

namespace Untangle

open Lib

structure OrderLedgerEntry where
  orderId : Option String
  amountPaise : ℤ
  status : String
deriving DecidableEq, Repr

def paidStatuses : List String := ["paid", "captured", "settled", "success", "completed"]
def refundStatuses : List String := ["refunded", "reversed", "chargeback", "disputed", "partially_refunded"]

def ledgerDriftTolerancePaise : ℤ := 100
def exampleCount : Nat := 10

section Statuses

variable (U : Unicode)

def normStatus (status : String) : String := U.lower (strip status)
def isPaidStatus (status : String) : Bool := normStatus U status ∈ paidStatuses
def isRefundStatus (status : String) : Bool := normStatus U status ∈ refundStatuses

end Statuses

def sortedIds (orderIds : List String) : List String := orderIds.insertionSort (· ≤ ·)

/-- `_examples`. -/
def examplesText (orderIds : List String) : String :=
  String.intercalate ", " ((sortedIds orderIds).take exampleCount) ++
    (if orderIds.length ≤ exampleCount then ""
    else " … (+" ++ toString (orderIds.length - exampleCount) ++ " more)")

/-- `_evidence`: a bounded list of examples and the complete affected set. -/
def ledgerEvidence (signal : String) (orderIds : List String) (extra : List EvidenceItem) : List EvidenceItem :=
  [⟨signal, "examples: " ++ examplesText orderIds, 0⟩,
    ⟨signal ++ "_all", String.intercalate ";" (sortedIds orderIds), 0⟩] ++ extra

/-! ## The proven slice -/

/-- The row of a key, if the report has exactly one. -/
def uniqueRow (rows : List ReconRow) (key : String × String) : Option ReconRow :=
  match rows.filter fun r => (r.type, r.entityId) = key with
  | [r] => some r
  | _ => none

/-- `covered_rows`: the rows of the unique keys that balanced reconciliations cover. -/
def provenRows (reconciliations : List ReconciliationResult) (rows : List ReconRow) : List ReconRow :=
  ((reconciliations.filter ReconciliationResult.balanced).flatMap
    ReconciliationResult.coveredEntityIds).dedup.filterMap (uniqueRow rows)

/-- The covered payments of an order. -/
def orderPayments (covered : List ReconRow) (oid : String) : List ReconRow :=
  covered.filter fun r => truthy r.orderId = some oid ∧ r.type = "payment"

/-- `settled_order_ids`: the orders with a covered payment. -/
def settledOrderIds (covered : List ReconRow) : List String :=
  ((covered.filter fun r => r.type = "payment").filterMap fun r => truthy r.orderId).dedup

def settledPaymentAmount (covered : List ReconRow) (oid : String) : ℤ :=
  ((orderPayments covered oid).map ReconRow.amountPaise).sum

/-- `covered_refund_order_ids`: the settled orders with a covered refund or dispute. -/
def coveredRefundOrderIds (covered : List ReconRow) : List String :=
  ((covered.filter fun r => r.type = "refund" ∨ (truthy r.disputeId).isSome).filterMap fun r =>
    (truthy r.orderId).filter fun oid => oid ∈ settledOrderIds covered).dedup

/-! ## Discrepancies -/

section Discrepancies

variable (U : Unicode) (ledger : List OrderLedgerEntry) (covered : List ReconRow)

/-- The bookings of an order. -/
def bookings (oid : String) : List OrderLedgerEntry := ledger.filter fun e => truthy e.orderId = some oid

def missingFromLedger : List String := (settledOrderIds covered).filter fun oid => bookings ledger oid = []

/-- The settled orders whose one booking satisfies a test; an order booked twice gets no verdict. -/
def singlyBooked (test : String → OrderLedgerEntry → Bool) (oids : List String) : List String :=
  oids.filter fun oid =>
    match bookings ledger oid with
    | [row] => test oid row
    | _ => false

def statusConflicts : List String :=
  singlyBooked ledger (fun oid row => !(isPaidStatus U row.status ||
    (isRefundStatus U row.status && oid ∈ coveredRefundOrderIds covered))) (settledOrderIds covered)

def amountConflicts : List String :=
  singlyBooked ledger (fun oid row => decide
    (ledgerDriftTolerancePaise < |row.amountPaise - settledPaymentAmount covered oid|)) (settledOrderIds covered)

/-- The settled orders that are booked more than once. -/
def duplicateBookings : List String :=
  ((ledger.filterMap fun e => truthy e.orderId).dedup).filter fun oid =>
    1 < (bookings ledger oid).length ∧ oid ∈ settledOrderIds covered

def refundUnbooked : List String :=
  singlyBooked ledger (fun _ row => isPaidStatus U row.status && !isRefundStatus U row.status) (coveredRefundOrderIds covered)

/-! ## The exceptions, one for each class that is not empty -/

def mismatchException : Option ExceptionRecord :=
  let missing := missingFromLedger ledger covered
  let status := statusConflicts U ledger covered
  let amount := amountConflicts ledger covered
  let bits :=
    (if missing = [] then [] else [toString missing.length ++ " settled orders are missing from your ledger"]) ++
    (if status = [] then [] else [toString status.length ++ " have a status contradicting a settled payment"]) ++
    (if amount = [] then [] else [toString amount.length ++ " disagree on amount beyond ±₹1"])
  let affected := (missing ++ status ++ amount).dedup
  if bits = [] then none
  else some
    { lineKey := "ledger:mismatch"
      reasonCode := "ledger_mismatch"
      detail := toString affected.length ++ " settled orders don't match your ledger — " ++
        String.intercalate "; " bits ++ "."
      suggestedAction := "Reconcile these orders in your ledger against the settlement report so the books match."
      evidence := ledgerEvidence "mismatched_orders" affected
        [⟨"missing_from_ledger", String.intercalate ";" (sortedIds missing), 0⟩,
          ⟨"status_conflicts", String.intercalate ";" (sortedIds status), 0⟩,
          ⟨"amount_conflicts", String.intercalate ";" (sortedIds amount), 0⟩] }

def duplicateException : Option ExceptionRecord :=
  let duplicates := duplicateBookings ledger covered
  if duplicates = [] then none
  else some
    { lineKey := "ledger:duplicate_order_booking"
      reasonCode := "duplicate_order_booking"
      detail := toString duplicates.length ++
        " Razorpay-attributed order ids are booked more than once in your ledger."
      suggestedAction := "De-duplicate these orders in your ledger; the same order is recorded multiple times."
      evidence := ledgerEvidence "duplicate_orders" duplicates [] }

def refundException : Option ExceptionRecord :=
  let unbooked := refundUnbooked U ledger covered
  if unbooked = [] then none
  else some
    { lineKey := "ledger:refund_not_reflected"
      reasonCode := "refund_not_reflected"
      detail := toString unbooked.length ++
        " settled orders have a Razorpay refund or dispute your ledger still marks paid."
      suggestedAction := "Record the refunds/disputes against these orders so revenue isn't overstated."
      evidence := ledgerEvidence "unbooked_refunds" unbooked [] }

end Discrepancies

/-- Aggregated ledger-discrepancy exceptions; an empty ledger yields none. -/
def reconcileLedger (U : Unicode) (ledger : List OrderLedgerEntry) (reconciliations : List ReconciliationResult)
    (rows : List ReconRow) : List ExceptionRecord :=
  let covered := provenRows reconciliations rows
  if ledger = [] then []
  else (mismatchException U ledger covered).toList ++ (duplicateException ledger covered).toList ++
    (refundException U ledger covered).toList

end Untangle
