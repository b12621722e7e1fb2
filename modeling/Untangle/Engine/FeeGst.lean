import Untangle.Engine.Covered

/-!
# `Engine.FeeGst` — recoverable fee-GST of the reconciled slice

Model of `engine/feegst.py`: the itemised GST on the fees of the rows that the reconciliations cover. A
reconciliation without row ids is resolved by `(type, entity_id)`, where the last row of the report decides.
-/

namespace Untangle

open Lib

structure FeeGstRecovery where
  totalRecoverablePaise : ℤ
  byEntity : List (String × ℤ)
deriving DecidableEq, Repr

/-- `{(r.type, r.entity_id): r for r in recon_rows}`. -/
def rowsByEntity (rows : List ReconRow) : Dict (String × String) ReconRow :=
  Dict.gather (fun r => some (r.type, r.entityId)) (fun r _ => r) rows

/-- The rows of one reconciliation; an entity that the legacy lookup does not know is passed over. -/
def feeGstRows (U : Unicode) (byRowId : Dict String ReconRow) (byId : Dict (String × String) ReconRow)
    (rec : ReconciliationResult) : Except ValueError (List ReconRow) :=
  if rec.coveredRowIds ≠ [] then resolveCoveredRowsById U rec byRowId
  else .ok (rec.coveredEntityIds.filterMap byId.get?)

def feeGst (U : Unicode) (digest : RowSignature → String) (reconciliations : List ReconciliationResult)
    (rows : List ReconRow) : Except ValueError FeeGstRecovery := do
  let covered ← reconciliations.mapM (feeGstRows U (rowsByCanonicalId digest rows) (rowsByEntity rows))
  let taxed := covered.flatten.filter fun r => r.taxPaise ≠ 0
  return ⟨(taxed.map ReconRow.taxPaise).sum, taxed.map fun r => (r.entityId, r.taxPaise)⟩

end Untangle
