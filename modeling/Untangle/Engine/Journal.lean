import Mathlib.Data.List.MinMax
import Mathlib.Data.List.Sort
import Mathlib.Data.Prod.Lex
import Untangle.Engine.Covered
import Untangle.Engine.Format

/-!
# `Engine.Journal` — settlement to balanced journal entries

Model of `engine/journal.py` up to the double-entry vouchers (their Tally XML is a rendering of them). One voucher
for each reconciliation: the bank is debited with the credit, the clearing account is relieved of the covered net
plus the fee and its GST, and the residual within tolerance goes to a rounding ledger of its own.
-/

namespace Untangle

open Lib

/-! ## Vouchers -/

def ledgerBank : String := "Bank Current A/c"
def ledgerMdr : String := "Payment Gateway Charges"
def ledgerItcCgst : String := "Input CGST"
def ledgerItcSgst : String := "Input SGST"
def ledgerItcIgst : String := "Input IGST"
def ledgerClearing : String := "Razorpay Clearing A/c"
def ledgerRounding : String := "Bank Charges & Rounding"

/-- One posting. -/
structure JournalLine where
  ledger : String
  debitPaise : ℤ := 0
  creditPaise : ℤ := 0
deriving DecidableEq, Repr

/-- A journal voucher for one reconciled credit. -/
structure JournalEntry where
  ref : String
  date : String
  utr : String
  narration : String
  lines : List JournalLine
deriving DecidableEq, Repr

namespace JournalEntry

def totalDebitPaise (e : JournalEntry) : ℤ := (e.lines.map JournalLine.debitPaise).sum
def totalCreditPaise (e : JournalEntry) : ℤ := (e.lines.map JournalLine.creditPaise).sum
def balanced (e : JournalEntry) : Bool := e.totalDebitPaise = e.totalCreditPaise

end JournalEntry

/-! ## The waterfall of one settlement -/

/-- Which fee convention the rows follow: is the GST inside the fee, or beside it? -/
def taxInsideFee (covered : List ReconRow) : Bool :=
  let pays := covered.filter fun r => r.type = "payment" ∧ (r.feePaise ≠ 0 ∨ r.taxPaise ≠ 0)
  if pays = [] then true
  else
    let amt := (pays.map ReconRow.amountPaise).sum
    let fee := (pays.map ReconRow.feePaise).sum
    let tax := (pays.map ReconRow.taxPaise).sum
    let credit := (pays.map ReconRow.creditPaise).sum
    |credit - (amt - fee)| ≤ |credit - (amt - fee - tax)|

/-- `itc`: the GST on the fees. -/
def itcOf (covered : List ReconRow) : ℤ := (covered.map ReconRow.taxPaise).sum

/-- `mdr_ex_gst`: the charges without their GST. -/
def mdrExGst (covered : List ReconRow) : ℤ :=
  let feeSum := (covered.map ReconRow.feePaise).sum
  if taxInsideFee covered then feeSum - itcOf covered else feeSum

/-- `sorted({x for x in … if x})`. -/
def sortedDistinct (values : List (Option String)) : List String :=
  ((values.filterMap truthy).dedup).insertionSort (· ≤ ·)

-- found before any noncomputable path to it
local instance preorderDate : Preorder Date := Int.instLinearOrder.toPreorder

/-- `min(…, default=None)` of timestamps. -/
def earliest (times : List DateTime) : Option DateTime :=
  times.argmin fun t => toLex (t.date, t.second)

/-- The earliest settlement date of the rows, else the earliest capture date, else nothing. -/
def voucherDate (covered : List ReconRow) : String :=
  match earliest (covered.filterMap ReconRow.settledAt) with
  | some t => isoDate t.date
  | none =>
    match earliest (covered.filterMap ReconRow.createdAt) with
    | some t => isoDate t.date
    | none => ""

def roundingLines (drift : ℤ) : List JournalLine :=
  if 0 < drift then [{ ledger := ledgerRounding, creditPaise := drift }]
  else if drift < 0 then [{ ledger := ledgerRounding, debitPaise := -drift }]
  else []

def mdrLines (mdr : ℤ) : List JournalLine :=
  if mdr ≠ 0 then [{ ledger := ledgerMdr, debitPaise := mdr }] else []

/-- The input-tax postings: halved between the two state taxes, or whole. -/
def itcLines (intraState : Bool) (itc : ℤ) : List JournalLine :=
  if itc = 0 then []
  else if intraState then
    [{ ledger := ledgerItcCgst, debitPaise := itc / 2 }, { ledger := ledgerItcSgst, debitPaise := itc - itc / 2 }]
  else [{ ledger := ledgerItcIgst, debitPaise := itc }]

/-- The voucher of one reconciliation and its covered rows. -/
def voucher (intraState : Bool) (rec : ReconciliationResult) (covered : List ReconRow) : JournalEntry :=
  let itc := itcOf covered
  let mdr := mdrExGst covered
  let actualNet := rec.creditAmountPaise
  let gross := rec.coveredNetPaise + mdr + itc
  let named := sortedDistinct (covered.map ReconRow.settlementId)
  let sids := if named = [] then [rec.lineKey] else named
  let utrs := sortedDistinct (covered.map ReconRow.settlementUtr)
  let label := if sids.length ≤ 3 then String.intercalate ", " sids
    else String.intercalate ", " (sids.take 3) ++ " +" ++ toString (sids.length - 3) ++ " more"
  let utrLabel := if String.intercalate ", " utrs = "" then "n/a" else String.intercalate ", " utrs
  { ref := sids.headD ""
    date := voucherDate covered
    utr := utrs.headD ""
    narration := "Razorpay settlement(s) " ++ label ++ " | UTR " ++ utrLabel ++ " | gross " ++ inr gross ++
      ", MDR " ++ inr mdr ++ ", GST-ITC " ++ inr itc ++ ", net " ++ inr actualNet
    lines := { ledger := ledgerBank, debitPaise := actualNet } ::
      (roundingLines (actualNet - rec.coveredNetPaise) ++ mdrLines mdr ++ itcLines intraState itc ++
        [{ ledger := ledgerClearing, creditPaise := gross }]) }

/-! ## All vouchers -/

/-- What stops the export: a row identity that does not resolve, or the assertion on an unbalanced voucher. -/
inductive JournalError
  | identity (e : ValueError)
  | unbalanced (message : String)
deriving DecidableEq, Repr

/-- `rows_by_key`: the rows of each `(type, entity_id)`, in report order. -/
def rowsByKey (rows : List ReconRow) : Dict (String × String) (List ReconRow) :=
  Dict.gather (fun r => some (r.type, r.entityId)) (fun r bucket => bucket.getD [] ++ [r]) rows

/-- The legacy fallback: each occurrence of a covered key consumes the next row of its bucket. -/
def consumeRows (byKey : Dict (String × String) (List ReconRow)) :
    Dict (String × String) Nat → List (String × String) → List ReconRow
  | _, [] => []
  | seen, k :: ks =>
    (((byKey.get? k).getD [])[(seen.get? k).getD 0]?).toList ++
      consumeRows byKey (seen.insert k ((seen.get? k).getD 0 + 1)) ks

def journalRows (U : Unicode) (rowsById : Dict String ReconRow) (byKey : Dict (String × String) (List ReconRow))
    (rec : ReconciliationResult) : Except ValueError (List ReconRow) :=
  if rec.coveredRowIds ≠ [] then resolveCoveredRowsById U rec rowsById
  else .ok (consumeRows byKey Dict.empty rec.coveredEntityIds)

/-- One turn of the loop: no voucher without covered rows, and never an unbalanced one. -/
def journalStep (U : Unicode) (intraState : Bool) (rowsById : Dict String ReconRow)
    (byKey : Dict (String × String) (List ReconRow)) (rec : ReconciliationResult) :
    Except JournalError (Option JournalEntry) := do
  let covered ← (journalRows U rowsById byKey rec).mapError .identity
  if covered = [] then
    return none
  let entry := voucher intraState rec covered
  if !entry.balanced then
    throw (.unbalanced ("unbalanced journal entry for " ++ entry.ref ++ ": " ++ toString entry.totalDebitPaise ++
      " != " ++ toString entry.totalCreditPaise))
  return some entry

/-- One balanced journal voucher per reconciled Razorpay credit. -/
def buildJournalEntries (U : Unicode) (digest : RowSignature → String)
    (reconciliations : List ReconciliationResult) (rows : List ReconRow) (intraState : Bool) :
    Except JournalError (List JournalEntry) := do
  let entries ← (reconciliations.insertionSort fun r r' => r.lineKey ≤ r'.lineKey).mapM
    (journalStep U intraState (rowsByCanonicalId digest rows) (rowsByKey rows))
  return entries.reduceOption

end Untangle
