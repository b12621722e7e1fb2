import Untangle.Engine.BoundedSubsets
import Untangle.Engine.Models
import Untangle.Lib.Dict

/-!
# `Engine.Covered` — content-derived identity of settlement rows

Model of `engine/covered.py`. A physical row is a position of the recon report; its canonical id is a digest
of its distinguishing fields followed by an occurrence counter among the rows with the same fields. The
digest (truncated SHA-256 of the signature's printed form) is a parameter. Every artifact that is driven by the
covered rows resolves them by these ids, and refuses a list of ids that is stale or names a row twice.
-/

namespace Untangle

open Lib

/-- The distinguishing fields of a settlement row. -/
structure RowSignature where
  type : String
  entityId : String
  amountPaise : ℤ
  feePaise : ℤ
  taxPaise : ℤ
  debitPaise : ℤ
  creditPaise : ℤ
  settlementId : Option String
  settlementUtr : Option String
  settledAt : Option DateTime
  createdAt : Option DateTime
  onHold : Bool
  disputeId : Option String
  orderId : Option String
  method : Option String
  description : Option String
deriving DecidableEq, Repr

def rowSignature (r : ReconRow) : RowSignature where
  type := r.type
  entityId := r.entityId
  amountPaise := r.amountPaise
  feePaise := r.feePaise
  taxPaise := r.taxPaise
  debitPaise := r.debitPaise
  creditPaise := r.creditPaise
  settlementId := r.settlementId
  settlementUtr := r.settlementUtr
  settledAt := r.settledAt
  createdAt := r.createdAt
  onHold := r.onHold
  disputeId := r.disputeId
  orderId := r.orderId
  method := r.method
  description := r.description

/-- The loop of `canonical_row_ids`; `seen` counts the earlier occurrences of each signature. -/
def canonicalRowIdsFrom (digest : RowSignature → String) (seen : Dict RowSignature Nat) :
    List ReconRow → List String
  | [] => []
  | r :: rows =>
    let sig := rowSignature r
    let occ := (seen.get? sig).getD 0
    ("row_" ++ digest sig ++ "_" ++ toString occ) ::
      canonicalRowIdsFrom digest (seen.insert sig (occ + 1)) rows

/-- `canonical_row_ids`: the id of each row, by position. -/
def canonicalRowIds (digest : RowSignature → String) (rows : List ReconRow) : List String :=
  canonicalRowIdsFrom digest Dict.empty rows

/-- `rows_by_canonical_id`: the row of each id. -/
def rowsByCanonicalId (digest : RowSignature → String) (rows : List ReconRow) : Dict String ReconRow :=
  Dict.gather (fun p => some p.1) (fun p _ => p.2) ((canonicalRowIds digest rows).zip rows)

/-- `(type, entity_id)`, as a printed tuple. -/
def entityRepr (U : Unicode) (entity : String × String) : String :=
  "(" ++ U.repr entity.1 ++ ", " ++ U.repr entity.2 ++ ")"

/-- The loop over the row ids and the covered entities at the same positions. -/
def resolveRows (U : Unicode) (lineKey : String) (rowsById : Dict String ReconRow) :
    Nat → List (String × (String × String)) → Except ValueError (List ReconRow)
  | _, [] => .ok []
  | pos, (rid, expected) :: rest => do
    match rowsById.get? rid with
    | none => throw ⟨lineKey ++ ": covered row " ++ U.repr rid ++ " is missing"⟩
    | some row =>
      if (row.type, row.entityId) ≠ expected then
        throw ⟨lineKey ++ ": covered row " ++ U.repr rid ++ " resolves to " ++
          entityRepr U (row.type, row.entityId) ++ " but covered entity at position " ++ toString pos ++ " is " ++
          entityRepr U expected⟩
      let rows ← resolveRows U lineKey rowsById (pos + 1) rest
      return row :: rows

/-- Resolve the covered rows of a reconciliation, failing closed. -/
def resolveCoveredRowsById (U : Unicode) (rec : ReconciliationResult) (rowsById : Dict String ReconRow) :
    Except ValueError (List ReconRow) :=
  if rec.coveredRowIds.length ≠ rec.coveredEntityIds.length then
    .error ⟨rec.lineKey ++ ": covered row identity count does not match covered entities"⟩
  else if ¬ rec.coveredRowIds.Nodup then
    .error ⟨rec.lineKey ++ ": covered row identity contains duplicate row ids"⟩
  else resolveRows U rec.lineKey rowsById 0 (rec.coveredRowIds.zip rec.coveredEntityIds)

end Untangle
