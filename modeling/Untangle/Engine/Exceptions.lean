import Untangle.Engine.Format
import Untangle.Engine.Reconcile

/-!
# `Engine.Exceptions` — the honest exception list

Model of `engine/exceptions.py`: every credit that could not be attributed, or could be attributed to Razorpay and
not reconciled, with a reason code and a suggested action. The notes of the reconciliation decide which reason an
unresolved credit gets.
-/

namespace Untangle

open Lib

structure ExceptionRecord where
  lineKey : String
  reasonCode : String
  detail : String
  suggestedAction : String
  amountPaise : Option ℤ := none
  evidence : List EvidenceItem := []
deriving DecidableEq, Repr

def rzpSignalPrefixes : List String := ["utr", "amount_corr", "narration_brand", "ifsc", "settlement", "setsum"]

/-- `_amount_str`. -/
def amountStr : Option BankCreditLine → String
  | none => "unknown amount"
  | some line => "₹" ++ inrGrouped line.amountPaise ++ " on " ++ isoDate line.valueDate

/-- The detail of the first evidence item of a signal. -/
def detailOf (signal : String) (evidence : List EvidenceItem) : String :=
  ((evidence.find? fun e => e.signal = signal).map EvidenceItem.detail).getD ""

/-- Reason, detail and action for a credit the engine abstained on. -/
def abstainedReason (a : RailAttribution) (amount : String) : String × String × String :=
  if a.evidence.any fun e => e.signal = "rule_conflict" then
    ("rule_conflict",
      amount ++ ": contradictory approved rules target different rails (" ++ detailOf "rule_conflict" a.evidence ++
        ") — abstained rather than force a pick.",
      "Human review: two approved rules disagree on this line's rail. Retire or correct one of the conflicting " ++
        "rules; do NOT add another narration pattern.")
  else if a.evidence.any fun e => e.signal = "multiple_satisfying_subsets" then
    ("multiple_satisfying_subsets",
      amount ++ ": ambiguous set-sum — multiple distinct settlement subsets sum to this amount.",
      "Human review: multiple distinct settlement combinations match this amount; verify manually before booking.")
  else if a.evidence.any fun e => rzpSignalPrefixes.any fun p => p.toList.isPrefixOf e.signal.toList then
    ("razorpay_uncertain",
      amount ++ ": partial Razorpay signal but below the confidence threshold (" ++ formatFixed 2 a.confidence ++
        ").",
      "Human review: likely Razorpay but not provable — confirm against the settlement report before booking.")
  else
    ("unattributed_ambiguous",
      amount ++ ": no distinctive rail signal in the narration.",
      "Human review: assign the rail manually; consider adding its narration pattern to the rules.")

/-- Reason, detail and action for a Razorpay credit left unresolved. -/
def unresolvedReason (notes : Notes) (a : RailAttribution) (amount : String) : String × String × String :=
  if a.lineKey ∈ notes.ambiguousLines then
    ("multiple_satisfying_subsets",
      amount ++ ": attributed Razorpay, but multiple distinct settlement subsets satisfy this amount.",
      "Human review: ambiguous set-sum in settlement report; match against the settlement report by hand.")
  else if a.lineKey ∈ notes.duplicateOrSplitLines then
    ("partial_or_duplicate_settlement",
      amount ++ ": settlement is split across multiple bank credits or partially credited (FR-016). Will not net " ++
        "together to force balance.",
      "Human review: partial or duplicate settlement; verify per-leg bank credits against settlement report.")
  else
    match (notes.unbalancedLines.reverse.find? fun p => p.1 = a.lineKey) with
    | some (_, residual) =>
      ("unbalanced_residual",
        amount ++ ": unbalanced reconciliation — candidate settlement net differs by ₹" ++ inrGrouped |residual| ++
          ". No balancing entry forced.",
        "Human review: inspect residual discrepancy between bank statement and settlement report.")
    | none =>
      if a.evidence.any fun e => e.signal = "split_reconstruction" then
        ("reconstructed_split_leg",
          amount ++ ": reconstructed split-settlement leg — " ++ detailOf "split_reconstruction" a.evidence ++
            ". Attributed Razorpay because its group is the unique subset that sums to a real settlement net " ++
            "(within ±₹1 labelled rounding drift); per-leg entity-level reconciliation is pending.",
          "Human review: confirm the leg group against the settlement report — the group sum matches the " ++
            "settlement net as stated in the evidence above.")
      else
        ("razorpay_coverage_not_found",
          amount ++ ": attributed Razorpay, but no exact settlement coverage was found within bounds.",
          "Human review: likely a split leg, partial settlement, or carry-forward — match against the settlement " ++
            "report by hand.")

/-- The exception of one attribution, if it is one. -/
def exceptionOf (unresolved : List String) (lines : LinesByKey) (notes : Notes) (a : RailAttribution) :
    Option ExceptionRecord :=
  let line := lines.dict.get? a.lineKey
  let record := fun (reason : String × String × String) =>
    { lineKey := a.lineKey, reasonCode := reason.1, detail := reason.2.1, suggestedAction := reason.2.2
      amountPaise := line.map BankCreditLine.amountPaise, evidence := a.evidence : ExceptionRecord }
  if a.abstained ∨ a.rail = Rail.unknown.value then some (record (abstainedReason a (amountStr line)))
  else if a.lineKey ∈ unresolved then some (record (unresolvedReason notes a (amountStr line)))
  else none

def buildExceptions (attributions : List RailAttribution) (unresolved : List String) (lines : LinesByKey)
    (notes : Notes) : List ExceptionRecord :=
  attributions.filterMap (exceptionOf unresolved lines notes)

end Untangle
