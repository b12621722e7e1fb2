import Untangle.Engine.BoundedSubsets
import Untangle.Engine.Covered
import Untangle.Engine.Report

/-!
# `Engine.Reconcile` — which settlements a proven credit covers

Model of `engine/reconcile.py`. The object identity of a recon row (`id(r)`) is its position in the report:
the index stores rows together with their positions. The warning sets that the source keeps as mutable
attributes of the index are threaded through the two passes as `Notes`; a set is a list read by membership.

The three variables `results`, `used_sids` and `resolved` are always extended together, so the state holds
the list of what was accepted (`Cover`: a credit, the settlements it was given, its result) and the three
are read off it. A cover carries the proof that its result is the balanced result of its settlements.
-/

namespace Untangle

open Lib

def driftTolerancePaise : ℤ := 100
def dateWindowDays : ℤ := 5

/-- `lines_by_key`, as every caller builds it: each line is stored under its own key. -/
structure LinesByKey where
  dict : Dict String BankCreditLine
  keyed : ∀ key line, dict.get? key = some line → line.key = key

/-- `{line.key: line for line in lines}`. -/
def linesByKey (lines : List BankCreditLine) : LinesByKey where
  dict := Dict.gather (fun line => some line.key) (fun line _ => line) lines
  keyed := by
    intro key line h
    rw [Dict.get?_gather_last, Option.map_eq_some_iff] at h
    obtain ⟨line', hline', rfl⟩ := h
    have hmem := List.mem_of_getLast? hline'
    simpa using (List.mem_filter.mp hmem).2

/-! ## The settlement index -/

/-- Settlement-grouped view of the recon report for coverage resolution. -/
structure SettlementIndex where
  rowsBySid : Dict String (List PhysicalRow)
  utrToSid : Dict String String
  netBySid : Dict String ℤ
  dateBySid : Dict String Date
  rowIds : List String
  netToSids : Dict ℤ (List String)

section Index

variable (U : Unicode) (digest : RowSignature → String)

/-- The constructor. -/
def SettlementIndex.ofRows (rows : List ReconRow) : SettlementIndex where
  rowsBySid := Dict.gather (fun p => truthy p.1.settlementId) (fun p ps => ps.getD [] ++ [p])
    rows.zipIdx
  utrToSid := settlementOfUtr U rows
  netBySid := netBySettlement rows
  dateBySid := dateBySettlement rows
  rowIds := canonicalRowIds digest rows
  netToSids := settlementsOfNet (netBySettlement rows)

end Index

namespace SettlementIndex

variable (U : Unicode) (ix : SettlementIndex)

def withinWindow (sid : String) (line : BankCreditLine) : Bool :=
  datedWithin ix.dateBySid dateWindowDays sid line.valueDate

/-- A settlement whose settlement_utr appears verbatim in the credit — decisive. -/
def utrSid (line : BankCreditLine) : Option String :=
  (extractUtrTokens U line.rawText).findSome? fun tok => ix.utrToSid.get? (U.lower tok)

/-- The settlements whose net equals the credit amount, unused and within the date window. -/
def singleSids (line : BankCreditLine) (used : List String) : List String :=
  ((ix.netToSids.get? line.amountPaise).getD []).filter fun sid =>
    sid ∉ used ∧ ix.withinWindow sid line

/-- `cands`: the settlements a set-sum may draw from, in dictionary order. -/
def setsumCands (line : BankCreditLine) (used : List String) : List Item :=
  ix.netBySid.items.filter fun p =>
    p.1 ∉ used ∧ 0 < p.2 ∧ p.2 < line.amountPaise ∧ ix.withinWindow p.1 line

/-- Why `amount_or_setsum_sids` gave up, where it records the line. -/
inductive Giveup
  | ambiguous
  | unEnumerable
deriving DecidableEq, Repr

/-- The bounded set-sum within the window: skipped when the pool is empty or too large. -/
def setsumBranch (line : BankCreditLine) (used : List String) : Except ValueError BoundedSubsetResult :=
  if ix.setsumCands line used = [] ∨ setsumMaxCandidates < (ix.setsumCands line used).length then
    .ok ⟨[], false⟩
  else setsumSearch (ix.setsumCands line used) line.amountPaise

/-- A single settlement net or bounded windowed set-sum, or `[]`; more than one distinct satisfying subset
    is ambiguous. -/
def amountOrSetsumSids (line : BankCreditLine) (used : List String) :
    Except ValueError (List String × Option Giveup) := do
  let search ← ix.setsumBranch line used
  if search.exhausted then
    return ([], some .unEnumerable)
  -- `seen_subsets` is one set for both sources, so a set found as a single is not taken again
  let satisfying :=
    distinctBy List.toFinset ((ix.singleSids line used).map (fun sid => [sid]) ++ search.subsets)
  match satisfying with
  | [] => return ([], none)
  | [sids] => return (sids, none)
  | _ => return ([], some .ambiguous)

end SettlementIndex

/-- The rows of the settlements `sids`, in order. -/
def coveredRows (ix : SettlementIndex) (sids : List String) : List PhysicalRow :=
  sids.flatMap fun s => (ix.rowsBySid.get? s).getD []

/-- Build a balanced `ReconciliationResult`, or `none` if the residual is out of tolerance. -/
def makeResult (line : BankCreditLine) (sids : List String) (ix : SettlementIndex) :
    Option ReconciliationResult :=
  let covered := coveredRows ix sids
  let coveredNet := (covered.map fun p => p.1.netPaise).sum
  let residual := line.amountPaise - coveredNet
  if driftTolerancePaise < |residual| then none
  else some
    { lineKey := line.key
      coveredEntityIds := covered.map fun p => (p.1.type, p.1.entityId)
      coveredNetPaise := coveredNet
      creditAmountPaise := line.amountPaise
      residualPaise := residual
      balanced := true
      coveredRowIds := covered.map fun p => ix.rowIds.getD p.2 "" }

/-- An accepted coverage: a credit, the settlements it covers, and the balanced result made of them. -/
structure Cover (ix : SettlementIndex) where
  key : String
  line : BankCreditLine
  sids : List String
  result : ReconciliationResult
  made : makeResult line sids ix = some result

/-- `_make_result`, keeping the settlements beside the result. -/
def makeCover (ix : SettlementIndex) (key : String) (line : BankCreditLine) (sids : List String) :
    Option (Cover ix) :=
  match h : makeResult line sids ix with
  | none => none
  | some res => some ⟨key, line, sids, res, h⟩

/-! ## The two passes -/

/-- The sets the source keeps on the index object. -/
structure Notes where
  ambiguousLines : List String := []
  unEnumerableLines : List String := []
  duplicateOrSplitLines : List String := []
  unbalancedLines : List (String × ℤ) := []
  uncreditedSids : List String := []
deriving DecidableEq, Repr

structure ReconcileState (ix : SettlementIndex) where
  covers : List (Cover ix) := []
  notes : Notes := {}

namespace ReconcileState

variable {ix : SettlementIndex} (st : ReconcileState ix)

def results : List ReconciliationResult := st.covers.map Cover.result
def usedSids : List String := st.covers.flatMap Cover.sids
def resolved : List String := st.covers.map Cover.key

def accept (c : Cover ix) : ReconcileState ix := { st with covers := st.covers ++ [c] }

/-- `duplicate_or_split_lines.update(keys)`. -/
def noteDuplicates (keys : List String) : ReconcileState ix :=
  { st with notes := { st.notes with
      duplicateOrSplitLines := st.notes.duplicateOrSplitLines ++ keys } }

/-- What `amount_or_setsum_sids` records when it gives up on a line. -/
def noteGiveup (key : String) : Option SettlementIndex.Giveup → ReconcileState ix
  | none => st
  | some .ambiguous =>
    { st with notes := { st.notes with ambiguousLines := st.notes.ambiguousLines ++ [key] } }
  | some .unEnumerable =>
    { st with notes := { st.notes with unEnumerableLines := st.notes.unEnumerableLines ++ [key] } }

end ReconcileState

/-- A proven credit: its line key and its line. -/
abbrev Credit := String × BankCreditLine

section Passes

variable (U : Unicode) (ix : SettlementIndex)

/-- The proven-Razorpay slice (never an abstained credit), with each attribution's line. -/
def provenLines (lines : LinesByKey) (attributions : List RailAttribution) : List Credit :=
  attributions.filterMap fun a =>
    if a.rail = Rail.razorpaySettlement.value ∧ a.abstained = false then
      (lines.dict.get? a.lineKey).map fun line => (a.lineKey, line)
    else none

/-- `utr_claims`: the credits claiming each settlement by UTR. -/
def utrClaims (rzp : List Credit) : Dict String (List Credit) :=
  Dict.gather (fun p => ix.utrSid U p.2) (fun p claims => claims.getD [] ++ [p]) rzp

/-- Pass 1, one claimed settlement: a settlement claimed by more than one credit is a duplicate or split. -/
def claimStep (st : ReconcileState ix) (claim : String × List Credit) : ReconcileState ix :=
  match claim.2 with
  | [] => st
  | [p] =>
    match makeCover ix p.1 p.2 [claim.1] with
    | none => st
    | some c => st.accept c
  | _ => st.noteDuplicates (claim.2.map Prod.fst)

/-- The state after pass 1. -/
def claimPass (rzp : List Credit) : ReconcileState ix :=
  (utrClaims U ix rzp).items.foldl (claimStep ix) {}

/-- Pass 2 passes over the credits that pass 1 resolved or set aside. -/
def skipped (st : ReconcileState ix) (p : Credit) : Prop :=
  p.1 ∈ st.resolved ∨ p.1 ∈ st.notes.duplicateOrSplitLines

instance (st : ReconcileState ix) (p : Credit) : Decidable (skipped ix st p) :=
  inferInstanceAs (Decidable (_ ∨ _))

/-- Pass 2, one credit: amount or set-sum against the remaining settlements. -/
def amountStep (st : ReconcileState ix) (p : Credit) : Except ValueError (ReconcileState ix) := do
  if skipped ix st p then
    return st
  let (sids, giveup) ← ix.amountOrSetsumSids p.2 st.usedSids
  let noted := st.noteGiveup p.2.key giveup
  if sids = [] then
    return noted
  match makeCover ix p.1 p.2 sids with
  | none => return noted
  | some c => return noted.accept c

/-- Both passes. -/
def reconcilePasses (rzp : List Credit) : Except ValueError (ReconcileState ix) :=
  rzp.foldlM (amountStep ix) (claimPass U ix rzp)

/-- The closing classification of one unresolved credit. -/
def classifyStep (notes : Notes) (p : Credit) : Notes :=
  match ix.utrSid U p.2 with
  | none => notes
  | some sid =>
    if sid = "" ∨ sid ∉ ix.rowsBySid.keys then notes
    else
      let coveredNet := ((coveredRows ix [sid]).map fun r => r.1.netPaise).sum
      if p.2.amountPaise < coveredNet then
        { notes with duplicateOrSplitLines := notes.duplicateOrSplitLines ++ [p.1] }
      else
        { notes with unbalancedLines := notes.unbalancedLines ++ [(p.1, p.2.amountPaise - coveredNet)] }

end Passes

/-- `order.get(line_key, 0)`: the position of a key among the proven lines. -/
def outputOrder (rzp : List Credit) (key : String) : Nat :=
  ((Dict.gather (fun (p : Credit × Nat) => some p.1.1) (fun p _ => p.2) rzp.zipIdx).get? key).getD 0

/-- What `reconcile` returns: balanced reconciliations, unresolved line keys, and the index with its notes. -/
structure ReconcileOutput where
  index : SettlementIndex
  covers : List (Cover index)
  unresolved : List String
  notes : Notes

def ReconcileOutput.results (out : ReconcileOutput) : List ReconciliationResult :=
  out.covers.map Cover.result

/-- After the passes: classify what is left and put the results in the order of the proven lines. -/
def closeReconcile (U : Unicode) (ix : SettlementIndex) (rzp : List Credit) (st : ReconcileState ix) :
    ReconcileOutput :=
  let unresolved := rzp.filter fun p => p.1 ∉ st.resolved
  let notes := unresolved.foldl (classifyStep U ix) st.notes
  { index := ix
    covers := st.covers.insertionSort fun c c' =>
      outputOrder rzp c.result.lineKey ≤ outputOrder rzp c'.result.lineKey
    unresolved := unresolved.map Prod.fst
    notes := { notes with uncreditedSids := ix.rowsBySid.keys.filter fun sid => sid ∉ st.usedSids } }

def reconcile (U : Unicode) (digest : RowSignature → String) (lines : LinesByKey)
    (attributions : List RailAttribution) (rows : List ReconRow) : Except ValueError ReconcileOutput := do
  let ix := SettlementIndex.ofRows U digest rows
  let rzp := provenLines lines attributions
  let st ← reconcilePasses U ix rzp
  return closeReconcile U ix rzp st

end Untangle
