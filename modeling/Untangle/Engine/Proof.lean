import Untangle.Engine.FeeGst
import Untangle.Engine.Format
import Untangle.Engine.Investigate
import Untangle.Engine.Solver
import Untangle.Lib.Binary64
import Untangle.Lib.Json

/-!
# `Engine.Proof` — proof packets

Model of `engine/proof.py`: for every credit proven to be Razorpay's, the document that shows the bank line, the
verdict, the ties it rests on, what it covers and what was rejected. The rupee amounts of a packet are read back by
its verifier, so the division by a hundred is the one on doubles here; a packet without a tie is not made.
-/

namespace Untangle

open Lib

/-- `_TIE_LABEL`. -/
def tieLabels : List (String × String) :=
  [("utr_exact", "exact UTR match to a settlement_utr"),
    ("utr_suffix", "corroborated UTR suffix of a settlement_utr"),
    ("setsum", "bounded set-sum of settlement nets"),
    ("amount_corr", "amount equals a unique settlement net"),
    ("split_reconstruction", "provably-unique split reconstruction (legs sum to a settlement net)")]

/-- `_TIER_LABEL`. -/
def tierLabels : List (String × String) :=
  [(Tier.a.value, "Tier A — decisive identifier tie"),
    (Tier.b.value, "Tier B — scored evidence combination"),
    (Tier.c.value, "Tier C — bounded set-sum / split reconstruction"),
    (Tier.llm.value, "Tier LLM — narration resolved with edge assistance"),
    (Tier.rule.value, "human-approved rule")]

def pendingGst : String := "pending"

/-- `_inr`: `f"₹{paise / 100:,.2f}"`. -/
def proofInr (paise : ℤ) : String := "₹" ++ formatGrouped 2 (nearest ((paise : ℚ) / 100))

/-! ## Evidence -/

def CandidateSummary.toDict (c : CandidateSummary) : Json :=
  .obj
    [("assignment_id", .str c.assignmentId),
      ("target_id", .str c.targetId),
      ("rail", .str c.rail),
      ("confidence", .float c.confidence)]

def Explanation.toDict : Explanation → Json
  | .challenger operator rail score detail removedSignals =>
    .obj
      [("operator", .str operator),
        ("rail", .str rail),
        ("score", .float score),
        ("detail", .str detail),
        ("removed_signals", .arr (removedSignals.map .str))]
  | .globalSolver chosen competing objectiveGap marginThreshold detail =>
    .obj
      [("chosen", chosen.toDict),
        ("competing", competing.toDict),
        ("objective_gap", .float objectiveGap),
        ("margin_threshold", .float marginThreshold),
        ("detail", .str detail)]

/-- The report-backed signals that made this Razorpay's. -/
def packetTies (evidence : List EvidenceItem) : List Json :=
  evidence.filterMap fun e => (tieLabels.lookup e.signal).map fun label =>
    .obj [("signal", .str e.signal), ("detail", .str e.detail), ("explains", .str label)]

def packetCorroboration (evidence : List EvidenceItem) : List Json :=
  (evidence.filter fun e => (tieLabels.lookup e.signal).isNone).map fun e =>
    .obj [("signal", .str e.signal), ("detail", .str e.detail), ("weight", .float (roundTo 3 e.weight))]

/-- Why not another rail, from the line's actual competing keywords. -/
def rejectedAlternatives (competing : List Rail) : String :=
  if competing ≠ [] then
    "A distinctive narration keyword for " ++
      String.intercalate ", " ((competing.map Rail.value).insertionSort (· ≤ ·)) ++ " was also present, " ++
      "but the report-backed tie(s) above outrank narration resemblance and decide the verdict."
  else
    "No distinctive competing rail keyword was present; the Razorpay verdict rests on the " ++
      "report-backed tie(s) above, not on resemblance."

/-! ## What a packet covers -/

/-- One covered entity; the row ids go along as far as there are any. -/
def coveredEntity (rowIds : List String) (p : (String × String) × Nat) : Json :=
  .obj ([("type", .str p.1.1), ("entity_id", .str p.1.2)] ++
    ((rowIds[p.2]?).map fun id => ("row_id", .str id)).toList)

def packetSettlement (rec : ReconciliationResult) : Json :=
  .obj
    [("covered_entities", .arr (rec.coveredEntityIds.zipIdx.map (coveredEntity rec.coveredRowIds))),
      ("covered_net_inr", .str (proofInr rec.coveredNetPaise)),
      ("residual_paise", .int rec.residualPaise),
      ("balanced", .bool rec.balanced)]

/-- The recoverable GST of a reconciliation, and its rows for the settlement ids. -/
def packetRows (U : Unicode) (digest : RowSignature → String) (rows : List ReconRow) (rec : ReconciliationResult) :
    Except ValueError (ℤ × List ReconRow) :=
  if rec.coveredRowIds ≠ [] then
    (resolveCoveredRowsById U rec (rowsByCanonicalId digest rows)).map fun covered =>
      ((covered.map ReconRow.taxPaise).sum, covered)
  else
    .ok ((rec.coveredEntityIds.map fun k => (((rowsByEntity rows).get? k).map ReconRow.taxPaise).getD 0).sum,
      consumeRows (rowsByKey rows) Dict.empty rec.coveredEntityIds)

/-! ## Rejected matches -/

def creditRejected (r : RejectedMatch) : Json :=
  .obj
    [("type", .str "credit_candidate_rejected"),
      ("candidate_id", .str r.candidateId),
      ("target_id", .str r.targetId),
      ("violated_constraint", .str r.violatedConstraint),
      ("detail", .str r.detail)]

def contenderRejected (r : RejectedMatch) : Json :=
  .obj
    [("type", .str "contender_settlement_rejected"),
      ("contender_credit_keys", .arr (r.creditKeys.map .str)),
      ("target_id", .str r.targetId),
      ("violated_constraint", .str r.violatedConstraint),
      ("detail", .str r.detail)]

/-- The rejected candidates of a credit, then those of other credits for its settlements. -/
def violatedConstraints (key : String) (claimedSids : List String) (rejected : List RejectedMatch) : List Json :=
  ((rejected.filter fun r => key ∈ r.creditKeys).map creditRejected) ++
    ((rejected.filter fun r => r.targetId ∈ claimedSids ∧ key ∉ r.creditKeys).map contenderRejected)

/-! ## The packet -/

/-- The challenger's audit, if it ran. -/
def packetChallenge (a : RailAttribution) : Option Json :=
  a.proofMargin.map fun margin =>
    .obj
      [("proof_margin", .float (roundTo 4 margin)),
        ("rejected_explanation", Json.ofOption Explanation.toDict a.competingExplanation)]

def packetProof (U : Unicode) (pack : NarrationEvidencePack) (line : BankCreditLine) (a : RailAttribution)
    (claimedSids : List String) (rejected : Option (List RejectedMatch)) : Json :=
  .obj
    ([("ties", .arr (packetTies a.evidence)),
        ("corroboration", .arr (packetCorroboration a.evidence)),
        ("rejected_alternatives", .str (rejectedAlternatives (narrationRailSignals U pack line).keys))] ++
      (rejected.map fun rejected =>
        ("violated_constraints", .arr (violatedConstraints a.lineKey claimedSids rejected))).toList ++
      ((packetChallenge a).map fun challenge => ("challenge", challenge)).toList)

def packetVerdict (a : RailAttribution) : Json :=
  .obj
    [("rail", .str a.rail),
      ("tier", .str a.tier),
      ("tier_label", .str ((tierLabels.lookup a.tier).getD a.tier)),
      ("confidence", .float (roundTo 3 a.confidence))]

/-- The packet of a proven credit. -/
def proofPacket (line : BankCreditLine) (a : RailAttribution) (proof : Json) (rec : Option ReconciliationResult)
    (feeGstDisplay : String) : Json :=
  .obj
    [("line_key", .str a.lineKey),
      ("value_date", .str (isoDate line.valueDate)),
      ("amount_inr", .str (proofInr line.amountPaise)),
      ("narration", .str line.narration),
      ("bank_ref", .str (line.bankRef.getD "")),
      ("verdict", packetVerdict a),
      ("proof", proof),
      ("settlement", Json.ofOption packetSettlement rec),
      ("fee_gst_recoverable_inr", .str feeGstDisplay),
      ("reconciled", .bool rec.isSome)]

/-- The settlement ids of rows. -/
def claimedSids (rows : List ReconRow) : List String := rows.filterMap fun r => truthy r.settlementId

section Packets

variable (U : Unicode) (digest : RowSignature → String) (pack : NarrationEvidencePack) (rows : List ReconRow)

/-- One turn of the loop: the packet of an attribution, unless it proves nothing. -/
def packetStep (lines : LinesByKey) (recs : Dict String ReconciliationResult)
    (rejected : Option (List RejectedMatch)) (a : RailAttribution) : Except ValueError (Option Json) :=
  if a.rail ≠ Rail.razorpaySettlement.value ∨ a.abstained then .ok none
  else
    match lines.dict.get? a.lineKey with
    | none => .ok none
    | some line =>
      if packetTies a.evidence = [] then .ok none
      else
        match recs.get? a.lineKey with
        | none => .ok (some (proofPacket line a (packetProof U pack line a [] rejected) none pendingGst))
        | some rec => do
          let (gst, covered) ← packetRows U digest rows rec
          return some (proofPacket line a (packetProof U pack line a (claimedSids covered) rejected) (some rec)
            (proofInr gst))

/-- One Proof Packet per credit proven to be Razorpay's (never an abstained credit). -/
def buildProofPackets (lines : List BankCreditLine) (attributions : List RailAttribution)
    (reconciliations : List ReconciliationResult) (rejected : Option (List RejectedMatch)) :
    Except ValueError (List Json) := do
  let packets ← attributions.mapM
    (packetStep U digest pack rows (linesByKey lines) (reconciliationsByKey reconciliations) rejected)
  return packets.reduceOption

end Packets

end Untangle
