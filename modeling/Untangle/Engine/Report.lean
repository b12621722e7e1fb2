import Untangle.Engine.Models
import Untangle.Lib.Dict

/-!
# `Engine.Report` — the recon report, by settlement

`ReconIndex` (`engine/evidence.py`) and `SettlementIndex` (`engine/reconcile.py`) fill the same dictionaries in
their loop over the rows of the report. Each dictionary is one definition here; the rows without a
settlement id are skipped by every one of them.
-/

namespace Untangle

open Lib

/-- A recon row and its position in the report. -/
abbrev PhysicalRow := ReconRow × Nat

/-- The net of each settlement. -/
def netBySettlement (rows : List ReconRow) : Dict String ℤ :=
  Dict.gather (fun r => truthy r.settlementId) (fun r net => net.getD 0 + r.netPaise) rows

/-- The settled date of each settlement that has one; the last dated row decides. -/
def dateBySettlement (rows : List ReconRow) : Dict String Date :=
  Dict.gather (fun r => if r.settledAt.isSome then truthy r.settlementId else none)
    (fun r _ => (r.settledAt.map DateTime.date).getD 0) rows

/-- The settlement of each lower-cased UTR; the first row decides. -/
def settlementOfUtr (U : Unicode) (rows : List ReconRow) : Dict String String :=
  Dict.gather
    (fun r => if (truthy r.settlementId).isSome then (truthy r.settlementUtr).map U.lower else none)
    (fun r sid => sid.getD ((truthy r.settlementId).getD "")) rows

/-- The settlements of each net, in dictionary order. -/
def settlementsOfNet (nets : Dict String ℤ) : Dict ℤ (List String) :=
  Dict.gather (fun p => some p.2) (fun p sids => sids.getD [] ++ [p.1]) nets.items

/-- `date_by_sid.get(sid)` is a date within `n` days of `d`. -/
def datedWithin (dates : Dict String Date) (n : ℤ) (sid : String) (d : Date) : Bool :=
  match dates.get? sid with
  | none => false
  | some date => withinDays n d date

end Untangle
