import Untangle.Engine.BoundedSubsets
import Untangle.Engine.Challenger
import Untangle.Engine.Evidence

/-!
# `Engine.Attribute` — tiered, deterministic attribution

Model of `engine/attribute.py` with no human rules: the score of a list of signals, the set-sum evidence of
Tier C, the decision on one line, and the reconstruction of split settlements over all lines. The bodies that
can raise are in `Except ValueError`.
-/

namespace Untangle

open Lib

def hardRzpSignals : List String := ["utr_exact", "utr_suffix", "setsum"]

/-- Signals that are a genuine tie back to the settlement report: only these may decide. -/
def rzpTieSignals : List String := ["utr_exact", "utr_suffix", "setsum", "amount_corr"]

/-! ## The score -/

/-- `_SIGNAL_CHANNELS`. -/
def signalChannels : List (String × String) :=
  [("utr_exact", "identifier"), ("utr_suffix", "identifier"), ("utr_suffix_weak", "identifier"),
    ("settlement_ref", "identifier"), ("narration_brand_rzp", "narration"), ("ifsc_ratn", "narration"),
    ("amount_corr", "amount_time"), ("amount_corr_multi", "amount_time"),
    ("value_date_proximity", "amount_time"), ("setsum", "amount_time")]

/-- The independent channel a signal belongs to. -/
def channelOf (signal : String) : String :=
  match signalChannels.lookup signal with
  | some channel => channel
  | none =>
    if "narration_pattern:".toList.isPrefixOf signal.toList then "narration" else signal

/-- A weight, clipped to the unit interval. -/
def clip (w : ℚ) : ℚ := max 0 (min 1 w)

/-- The weight of a channel: its dominant signal, with bounded corroboration from the others. -/
def channelWeight : List ℚ → ℚ
  | [w] => w
  | ws =>
    let m := ws.max?.getD 0
    min (49 / 50) (m + ((ws.filter fun w => w ≠ m).map fun w => w * (1 / 10)).sum)

def weightsByChannel (items : List EvidenceItem) : Dict String (List ℚ) :=
  Dict.gather (fun it => some (channelOf it.signal)) (fun it ws => ws.getD [] ++ [clip it.weight]) items

/-- Correlation-aware combination: bounded corroboration inside a channel, noisy-or across channels. -/
def combine (items : List EvidenceItem) : ℚ :=
  if items = [] then 0
  else min (99 / 100)
    (1 - ((weightsByChannel items).items.map fun p => 1 - channelWeight p.2).prod)

/-! ## Set-sum evidence -/

section Setsum

variable (index : ReconIndex) (line : BankCreditLine)

def setsumDateWindowDays : ℤ := 5

/-- The settlement is dated within the set-sum window of the line. -/
def inSetsumWindow (sid : String) : Bool :=
  datedWithin index.settlementDate setsumDateWindowDays sid line.valueDate

/-- The settlements a set-sum may draw from, in dictionary order. -/
def setsumPool : List Item :=
  index.settlementNet.items.filter fun p =>
    0 < p.2 ∧ p.2 < line.amountPaise ∧ inSetsumWindow index line p.1

/-- The settlements whose net alone is the amount, in the window. -/
def setsumSingles : List String :=
  ((index.netToSettlements.get? line.amountPaise).getD []).filter (inSetsumWindow index line)

def setsumItem (sids : List String) : EvidenceItem :=
  ⟨"setsum", "credit equals net sum of " ++ toString sids.length ++ " settlements (" ++
    String.intercalate ", " sids ++ ")", 11 / 20⟩

/-- What the satisfying subsets, singles first, are worth as evidence. -/
def satisfyingEvidence (satisfying : List (List String)) : Option (List EvidenceItem) :=
  match satisfying with
  | [] => none
  -- a single settlement is already covered by `amount_corr`
  | [sids] => if sids.length = 1 then none else some [setsumItem sids]
  | _ => some [⟨"multiple_satisfying_subsets", "ambiguous set-sum: " ++ toString satisfying.length ++
      " distinct subsets sum to " ++ toString line.amountPaise ++ " paise", 0⟩]

/-- Try to explain the credit as a sum of settlement nets within the date window. -/
def setsumEvidence : Except ValueError (Option (List EvidenceItem)) := do
  if !line.isCredit then
    return none
  let cands := setsumPool index line
  if cands = [] ∨ setsumMaxCandidates < cands.length then
    return none
  let search ← setsumSearch cands line.amountPaise
  if search.exhausted then
    return some [⟨"setsum_unenumerable", "bounded set-sum combination budget exceeded while checking " ++
      toString cands.length ++ " settlements", 0⟩]
  return satisfyingEvidence line ((setsumSingles index line).map (fun sid => [sid]) ++
    search.subsets.map fun subset => subset.insertionSort (· ≤ ·))

end Setsum

/-! ## One line -/

/-- The arguments of `attribute_all` that every stage passes on. -/
structure Settings where
  threshold : ℚ
  marginThreshold : ℚ
  audit : Bool := false
  pack : NarrationEvidencePack := defaultNarrationPack

/-- Does some item carry one of the signals? -/
def hasSignal (signals : List String) (items : List EvidenceItem) : Bool :=
  items.any fun e => e.signal ∈ signals

def abstain (line : BankCreditLine) (confidence : ℚ) (evidence : List EvidenceItem) : RailAttribution where
  lineKey := line.key
  rail := Rail.unknown.value
  confidence := confidence
  tier := Tier.none.value
  evidence := evidence
  abstained := true

/-- The result of challenging a candidate verdict with the engine's own scorer. -/
def challenge (rzpEv : List EvidenceItem) (nonRzp : Dict Rail (List EvidenceItem)) (rzpScore : ℚ) :
    ChallengerResult :=
  challengeRazorpay rzpEv nonRzp rzpScore combine maxChallenges

/-- Accept a machine Razorpay verdict, after the challenger has tried to disprove it. -/
def finalizeRazorpay (s : Settings) (line : BankCreditLine) (rzpEv : List EvidenceItem)
    (nonRzp : Dict Rail (List EvidenceItem)) (rzpScore : ℚ) (tier : Tier) : RailAttribution :=
  let accept : RailAttribution :=
    { lineKey := line.key
      rail := Rail.razorpaySettlement.value
      confidence := rzpScore
      tier := tier.value
      evidence := rzpEv }
  let result := challenge rzpEv nonRzp rzpScore
  let audited : RailAttribution :=
    { accept with
      proofMargin := some result.proofMargin
      competingExplanation := result.strongest.map CompetingExplanation.asDict }
  if s.marginThreshold ≤ 0 then
    if s.audit then audited else accept
  else if result.truncated ∨ result.proofMargin < s.marginThreshold then
    let note := "proof margin too low (" ++ formatFixed 3 result.proofMargin ++ " < " ++
      formatFixed 3 s.marginThreshold ++ ") under challenger operator " ++
      (result.strongest.map CompetingExplanation.operator).getD "none"
    { abstain line rzpScore (rzpEv ++ [⟨"proof_margin_low", note, 0⟩]) with
      proofMargin := some result.proofMargin
      competingExplanation := result.strongest.map CompetingExplanation.asDict }
  else audited

/-- A rail's score, evidence and tier. -/
structure RailScore where
  rail : String
  score : ℚ
  evidence : List EvidenceItem
  tier : Tier

/-- `max(scores.items(), key=lambda kv: (kv[1][0], kv[0]))`. -/
def bestRail (scores : List RailScore) : Option RailScore :=
  scores.argmax fun s => toLex (s.score, s.rail)

/-- The scores of the competing rails. -/
def nonRzpScores (nonRzp : Dict Rail (List EvidenceItem)) : List RailScore :=
  nonRzp.items.map fun p => ⟨p.1.value, combine p.2, p.2, .b⟩

/-- `scores[rail] = …`: in place when the rail has a score already. -/
def putScore (scores : List RailScore) (new : RailScore) : List RailScore :=
  if scores.any fun s => s.rail = new.rail then
    scores.map fun s => if s.rail = new.rail then new else s
  else scores ++ [new]

/-- A debit is classified by a distinctive narration keyword, or abstained. -/
def attributeDebit (s : Settings) (line : BankCreditLine) (nonRzp : Dict Rail (List EvidenceItem)) :
    RailAttribution :=
  match bestRail (nonRzpScores nonRzp) with
  | none => abstain line 0 []
  | some best =>
    if best.score < s.threshold then abstain line best.score best.evidence
    else
      { lineKey := line.key
        rail := best.rail
        confidence := best.score
        tier := Tier.b.value
        evidence := best.evidence }

/-- The outcome of Tier C: an early abstention, or the evidence to score with and whether the set-sum
    joined it. -/
inductive SetsumOutcome
  | abstained (evidence : List EvidenceItem)
  | scored (evidence : List EvidenceItem) (joined : Bool)
deriving DecidableEq, Repr

/-- What the set-sum evidence does to a line without a hard tie. -/
def applySetsum (rzpEv : List EvidenceItem) (competing : Bool) (setsum : Option (List EvidenceItem)) :
    SetsumOutcome :=
  match setsum with
  | none => .scored rzpEv false
  | some items =>
    if hasSignal ["setsum_unenumerable"] items ∧ !competing then .abstained (rzpEv ++ items)
    else if hasSignal ["multiple_satisfying_subsets"] items then
      if !competing then .abstained (rzpEv ++ items) else .scored rzpEv false
    else if rzpEv ≠ [] ∧ !competing then .scored (rzpEv ++ items) true
    else .scored rzpEv false

/-- The Razorpay score after the precision guard and the proof gate. -/
def gatedRzpScore (rzpEv : List EvidenceItem) (competing rzpHard : Bool) : ℚ :=
  if competing ∧ !rzpHard then 0
  else if !hasSignal rzpTieSignals rzpEv then 0
  else combine rzpEv

/-- All scores: the competing rails, and Razorpay when its gated score is positive. -/
def railScores (rzpEv : List EvidenceItem) (nonRzp : Dict Rail (List EvidenceItem))
    (rzpHard joined : Bool) : List RailScore :=
  let rzpScore := gatedRzpScore rzpEv (nonRzp.items ≠ []) rzpHard
  if 0 < rzpScore then
    putScore (nonRzpScores nonRzp)
      ⟨Rail.razorpaySettlement.value, rzpScore, rzpEv, if joined then .c else .b⟩
  else nonRzpScores nonRzp

/-- Score the rails and decide. -/
def decideRail (s : Settings) (line : BankCreditLine) (rzpEv : List EvidenceItem)
    (nonRzp : Dict Rail (List EvidenceItem)) (rzpHard joined : Bool) : RailAttribution :=
  match bestRail (railScores rzpEv nonRzp rzpHard joined) with
  | none => abstain line 0 rzpEv
  | some best =>
    if best.score < s.threshold then abstain line best.score best.evidence
    else if best.rail = Rail.razorpaySettlement.value then
      finalizeRazorpay s line best.evidence nonRzp best.score best.tier
    else
      { lineKey := line.key
        rail := best.rail
        confidence := best.score
        tier := Tier.b.value
        evidence := best.evidence }

def attributeLine (U : Unicode) (s : Settings) (index : ReconIndex) (line : BankCreditLine) :
    Except ValueError RailAttribution := do
  let nonRzp := narrationRailSignals U s.pack line
  if !line.isCredit then
    return attributeDebit s line nonRzp
  let rzpEv := razorpaySignals U s.pack index line
  -- Tier A: a clean UTR match is decisive, but still challenged before acceptance
  if hasSignal ["utr_exact"] rzpEv then
    return finalizeRazorpay s line rzpEv nonRzp (combine rzpEv) .a
  if hasSignal hardRzpSignals rzpEv then
    return decideRail s line rzpEv nonRzp true false
  let setsum ← setsumEvidence index line
  match applySetsum rzpEv (nonRzp.items ≠ []) setsum with
  | .abstained evidence => return abstain line 0 evidence
  | .scored evidence joined => return decideRail s line evidence nonRzp joined joined

/-! ## Split settlements -/

def splitMaxLegs : Nat := 3
def splitDriftPaise : ℤ := 100
def splitDateWindow : ℤ := 5
def splitMaxCandidates : Nat := 60
def splitConfidence : ℚ := 9 / 10

def rzpLeaningSignals : List String :=
  ["narration_brand_rzp", "ifsc_ratn", "settlement_ref", "utr_suffix", "utr_suffix_weak"]

def strongRzpSignals : List String := ["ifsc_ratn", "utr_suffix"]

/-- The keys of a combination of credits, as a set. -/
def keySet (combo : List BankCreditLine) : Finset String := (combo.map BankCreditLine.key).toFinset

/-- Every distinct subset of `2..maxLegs` credits whose amounts sum to the target within the tolerance. -/
def allSumSubsets (items : List BankCreditLine) (target tol : ℤ) (maxLegs : Nat) :
    List (List BankCreditLine) :=
  distinctBy keySet
    (((List.range' 2 (maxLegs - 1)).flatMap fun k => combinations k items).filter fun combo =>
      |(combo.map BankCreditLine.amountPaise).sum - target| ≤ tol)

/-- `zip(xs, ys, strict=True)`. -/
def zipStrict {α β : Type} (xs : List α) (ys : List β) : Except ValueError (List (α × β)) :=
  if ys.length < xs.length then .error ⟨"zip() argument 2 is shorter than argument 1"⟩
  else if xs.length < ys.length then .error ⟨"zip() argument 2 is longer than argument 1"⟩
  else .ok (xs.zip ys)

/-- A split match: a settlement and the legs whose amounts sum to its net. -/
abbrev SplitMatch := String × List BankCreditLine

section Splits

variable (U : Unicode) (s : Settings) (index : ReconIndex)

/-- The line may be a leg: it abstained, is a positive credit without a competing keyword, and leans Razorpay. -/
def isSplitCandidate (line : BankCreditLine) (a : RailAttribution) : Bool :=
  a.abstained && line.isCredit && decide (0 < line.amountPaise) &&
    decide ((narrationRailSignals U s.pack line).items = []) &&
    hasSignal rzpLeaningSignals (razorpaySignals U s.pack index line)

/-- The settlements phase 1 visits: a positive net and a settled date, in id order. -/
def splitSettlements : List (String × ℤ × Date) :=
  (index.settlementNet.items.insertionSort fun p q => p.1 ≤ q.1).filterMap fun p =>
    if p.2 ≤ 0 then none else (index.settlementDate.get? p.1).map fun d => (p.1, p.2, d)

/-- The candidates that may be a leg of a settlement. -/
def eligibleLegs (candidates : List BankCreditLine) (net : ℤ) (date : Date) : List BankCreditLine :=
  candidates.filter fun c => c.amountPaise < net ∧ withinDays splitDateWindow c.valueDate date

/-- Phase 1: all matches over the full pool, and the keys poisoned by an oversized pool. -/
def collectMatches (candidates : List BankCreditLine) :
    List (String × ℤ × Date) → List SplitMatch × List String
  | [] => ([], [])
  | (sid, net, date) :: rest =>
    let elig := eligibleLegs candidates net date
    let (found, poisoned) := collectMatches candidates rest
    if elig.length < 2 then (found, poisoned)
    else if splitMaxCandidates < elig.length then
      (found, elig.map BankCreditLine.key ++ poisoned)
    else
      ((allSumSubsets elig net splitDriftPaise splitMaxLegs).map (fun sub => (sid, sub)) ++ found,
        poisoned)

/-- `sig_by_key`: the evidence of each candidate. -/
def evidenceByKey (candidates : List BankCreditLine) : Dict String (List EvidenceItem) :=
  Dict.gather (fun c => some c.key) (fun c _ => razorpaySignals U s.pack index c) candidates

/-- The leg carries a strong Razorpay-origin signal. -/
def strongLeg (evidence : Dict String (List EvidenceItem)) (leg : BankCreditLine) : Bool :=
  hasSignal strongRzpSignals ((evidence.get? leg.key).getD [])

/-- Phase 2: the settlement has one match, its legs are in no other match and not poisoned, one is strong. -/
def assignable (evidence : Dict String (List EvidenceItem)) (found : List SplitMatch)
    (poisoned : List String) (m : SplitMatch) : Bool :=
  decide ((found.map Prod.fst).count m.1 = 1) &&
    m.2.all (fun c =>
      decide (((found.flatMap Prod.snd).map BankCreditLine.key).count c.key = 1) &&
        decide (c.key ∉ poisoned)) &&
    m.2.any (strongLeg evidence)

/-- `assigned`: settlement, number of legs and group residual of each lifted leg. -/
def assignLegs (evidence : Dict String (List EvidenceItem)) (found : List SplitMatch)
    (poisoned : List String) : Dict String (String × Nat × ℤ) :=
  Dict.gather (fun p => some p.2.key)
    (fun p _ => (p.1.1, p.1.2.length,
      (p.1.2.map BankCreditLine.amountPaise).sum - (index.settlementNet.get? p.1.1).getD 0))
    ((found.filter (assignable evidence found poisoned)).flatMap fun m => m.2.map fun c => (m, c))

def splitItem (sid : String) (legs : Nat) (residual : ℤ) : EvidenceItem :=
  ⟨"split_reconstruction", "1 of " ++ toString legs ++ " bank legs whose amounts uniquely sum to " ++
    (if residual = 0 then "exactly" else "within " ++ toString residual.natAbs ++ " paise of") ++
    " the settlement net for " ++ sid, splitConfidence⟩

/-- A leg, lifted through the same adversarial gate as every machine verdict. -/
def liftLeg (assigned : Dict String (String × Nat × ℤ)) (line : BankCreditLine) (a : RailAttribution) :
    RailAttribution :=
  match assigned.get? line.key with
  | none => a
  | some (sid, legs, residual) =>
    finalizeRazorpay s line [splitItem sid legs residual] (narrationRailSignals U s.pack line)
      splitConfidence .c

def reconstructSplits (lines : List BankCreditLine) (attrs : List RailAttribution) :
    Except ValueError (List RailAttribution) := do
  -- the reconstruction's confidence is fixed: a stricter cutoff switches it off
  if splitConfidence < s.threshold then
    return attrs
  let zipped ← zipStrict lines attrs
  let candidates := (zipped.filter fun p => isSplitCandidate U s index p.1 p.2).map Prod.fst
  if candidates.length < 2 then
    return attrs
  let (found, poisoned) := collectMatches candidates (splitSettlements index)
  let assigned := assignLegs index (evidenceByKey U s index candidates) found poisoned
  if assigned.items = [] then
    return attrs
  return zipped.map fun p => liftLeg U s assigned p.1 p.2

/-- `attribute_all` with the global solver off and no rules. -/
def attributeAll (lines : List BankCreditLine) : Except ValueError (List RailAttribution) := do
  let base ← lines.mapM (attributeLine U s index)
  reconstructSplits U s index lines base

end Splits

end Untangle
