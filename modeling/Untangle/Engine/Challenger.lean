import Mathlib.Data.List.MinMax
import Mathlib.Data.List.Sort
import Mathlib.Data.Prod.Lex
import Mathlib.Data.String.Basic
import Untangle.Engine.Models
import Untangle.Lib.Decimal
import Untangle.Lib.Dict

/-!
# `Engine.Challenger` — adversarial challenger and proof margin

Model of `engine/challenger.py`. A Razorpay verdict is challenged by counterfactual explanations (a competing
rail, or its own evidence with a group of ties removed), each scored with the scorer of the candidate, which
is a parameter here as it is there. The margin is the verdict's score minus the best competing one.
-/

namespace Untangle

open Lib

def utrSignalNames : List String := ["utr_exact", "utr_suffix", "utr_suffix_weak"]
def amountSignalNames : List String := ["amount_corr", "amount_corr_multi"]
def allTieSignalNames : List String :=
  utrSignalNames ++ amountSignalNames ++ ["setsum", "split_reconstruction"]

def maxChallenges : Nat := 16

/-- One counterfactual explanation that competes with the Razorpay verdict. -/
structure CompetingExplanation where
  operator : String
  rail : String
  score : ℚ
  detail : String
  removedSignals : List String := []
deriving DecidableEq, Repr

def CompetingExplanation.asDict (c : CompetingExplanation) : Explanation :=
  .challenger c.operator c.rail (roundTo 6 c.score) c.detail c.removedSignals

structure ChallengerResult where
  rzpScore : ℚ
  competingScore : ℚ
  proofMargin : ℚ
  strongest : Option CompetingExplanation
  challengesEvaluated : Nat
  truncated : Bool
  challenges : List CompetingExplanation
deriving DecidableEq, Repr

/-- The evidence without a group of signals. -/
def without (evidence : List EvidenceItem) (drop : List String) : List EvidenceItem :=
  evidence.filter fun e => e.signal ∉ drop

/-- Score the Razorpay evidence with a group of tie signals removed; `none` when nothing is removed. -/
def ablation (evidence : List EvidenceItem) (combine : List EvidenceItem → ℚ) (operator : String)
    (drop : List String) (detail : String) : Option CompetingExplanation :=
  let present := drop.filter fun s => evidence.any fun e => e.signal = s
  if present = [] then none
  else some
    { operator := operator
      rail := Rail.razorpaySettlement.value
      score := combine (without evidence drop)
      detail := detail
      removedSignals := present }

/-- The ablations in source order: operator, dropped signals, detail. `drop_suffix` is tried only when there is
    no exact UTR. -/
def ablations (hasExact : Bool) : List (String × List String × String) :=
  [("drop_exact_identifier", utrSignalNames,
    "score without any UTR-identifier tie (leans on resemblance)")] ++
  (if hasExact then []
  else [("drop_suffix", ["utr_suffix", "utr_suffix_weak"],
    "score without the corroborated UTR suffix")]) ++
  [("drop_amount_tie", amountSignalNames, "score without the amount-to-settlement tie"),
    ("drop_setsum", ["setsum", "split_reconstruction"], "score without the reconstructed set-sum"),
    ("drop_time_proximity", ["value_date_proximity"], "score without settlement-date proximity"),
    ("unlinked_rzp", allTieSignalNames, "resemblance only — every genuine tie removed")]

/-- The observed competing rails, then the ablations that remove something. -/
def rawChallenges (rzpEvidence : List EvidenceItem) (nonRzp : Dict Rail (List EvidenceItem))
    (combine : List EvidenceItem → ℚ) : List CompetingExplanation :=
  ((nonRzp.items.filter fun p => p.1 ≠ .razorpaySettlement ∧ p.2 ≠ []).map fun p =>
    { operator := "observed_competing_rail"
      rail := p.1.value
      score := combine p.2
      detail := "distinctive " ++ p.1.value ++ " narration remains plausible" }) ++
  (ablations (rzpEvidence.any fun e => e.signal = "utr_exact")).filterMap fun a =>
    ablation rzpEvidence combine a.1 a.2.1 a.2.2

/-- `(operator, rail, detail)`, the sort key. -/
def CompetingExplanation.sortKey (c : CompetingExplanation) : String ×ₗ String ×ₗ String :=
  toLex (c.operator, toLex (c.rail, c.detail))

/-- Generate bounded counterfactuals and return the proof margin. -/
def challengeRazorpay (rzpEvidence : List EvidenceItem) (nonRzp : Dict Rail (List EvidenceItem))
    (rzpScore : ℚ) (combine : List EvidenceItem → ℚ) (maxChallenges : Nat) : ChallengerResult :=
  let sorted := (rawChallenges rzpEvidence nonRzp combine).insertionSort
    fun c c' => c.sortKey ≤ c'.sortKey
  let truncated : Bool := maxChallenges < sorted.length
  let challenges := if truncated then sorted.take maxChallenges else sorted
  let competingScore := ((challenges.map CompetingExplanation.score).max?).getD 0
  { rzpScore := rzpScore
    competingScore := competingScore
    proofMargin := rzpScore - competingScore
    strongest := challenges.argmax fun c => toLex (c.score, c.sortKey)
    challengesEvaluated := challenges.length
    truncated := truncated
    challenges := challenges }

end Untangle
