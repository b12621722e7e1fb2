import Mathlib.Algebra.Order.Monoid.Prod
import Mathlib.Data.List.Lex
import Untangle.Engine.Attribute
import Untangle.Lib.Components

/-!
# `Engine.CandidateGraph` — the assignment graph of a period

Model of the first half of `engine/solver.py`: costs, and `build_candidate_graph`. The candidates of a period are
an abstention for every credit, the competing rails its narration names, the settlements its ties point at, and
the groups of credits that may be the split legs of a settlement. Credits that compete for a settlement are in
one component.
-/

namespace Untangle

open Lib

/-! ## Costs -/

/-- `(invalid_picks, unexplained_paise, residual_paise, -evidence_weight, ops_cost)`, compared as a tuple. -/
abbrev Cost := ℤ ×ₗ ℤ ×ₗ ℤ ×ₗ ℚ ×ₗ ℚ

namespace Cost

def mk (invalid unexplained residual : ℤ) (negEvidence ops : ℚ) : Cost :=
  toLex (invalid, toLex (unexplained, toLex (residual, toLex (negEvidence, ops))))

def invalid (c : Cost) : ℤ := (ofLex c).1
def unexplained (c : Cost) : ℤ := (ofLex (ofLex c).2).1
def residual (c : Cost) : ℤ := (ofLex (ofLex (ofLex c).2).2).1
def negEvidence (c : Cost) : ℚ := (ofLex (ofLex (ofLex (ofLex c).2).2).2).1
def ops (c : Cost) : ℚ := (ofLex (ofLex (ofLex (ofLex c).2).2).2).2

/-- `cost[:2]`. -/
def hardest (c : Cost) : ℤ ×ₗ ℤ := toLex (c.invalid, c.unexplained)

/-- `cost[:3]`. -/
def harder (c : Cost) : ℤ ×ₗ ℤ ×ₗ ℤ := toLex (c.invalid, toLex (c.unexplained, c.residual))

end Cost

/-- Componentwise, the two float components rounded to four decimals. -/
def addCosts (a b : Cost) : Cost :=
  Cost.mk (a.invalid + b.invalid) (a.unexplained + b.unexplained) (a.residual + b.residual)
    (roundTo 4 (a.negEvidence + b.negEvidence)) (roundTo 4 (a.ops + b.ops))

def zeroCost : Cost := Cost.mk 0 0 0 0 0

/-! ## The graph -/

/-- A credit or a settlement of the assignment graph. -/
structure SolverNode where
  nodeId : String
  kind : String
  amountPaise : ℤ
  valueDate : Option Date
deriving DecidableEq, Repr

/-- An edge: one possible way to resolve one or more credits. -/
structure CandidateAssignment where
  assignmentId : String
  creditKeys : List String
  targetId : String
  rail : String
  tier : String
  confidence : ℚ
  evidence : List EvidenceItem
  residualPaise : ℤ
  cost : Cost
  isSplit : Bool
deriving DecidableEq

structure AssignmentGraph where
  credits : Dict String SolverNode
  settlements : Dict String SolverNode
  candidates : List CandidateAssignment
  components : List (List String)
  unEnumerable : List String

/-- `candidates_by_credit`. -/
def candidatesByCredit (candidates : List CandidateAssignment) : Dict String (List CandidateAssignment) :=
  Dict.gather (fun p => some p.1) (fun p cs => cs.getD [] ++ [p.2])
    (candidates.flatMap fun c => c.creditKeys.map fun k => (k, c))

/-- `candidates_by_settlement`. -/
def candidatesBySettlement (settlements : Dict String SolverNode) (candidates : List CandidateAssignment) :
    Dict String (List CandidateAssignment) :=
  Dict.gather (fun c => if c.targetId ∈ settlements.keys then some c.targetId else none)
    (fun c cs => cs.getD [] ++ [c]) candidates

/-! ## Candidates of one credit -/

def maxSplitCombinations : ℤ := 50000
def maxBranchSteps : ℤ := 10000
def defaultThreshold : ℚ := 11 / 20

/-- The keyword arguments of `build_candidate_graph`. -/
structure GraphSettings where
  maxCandidates : ℤ := splitMaxCandidates
  maxCombinations : ℤ := maxSplitCombinations
  threshold : Option ℚ := none
  pack : NarrationEvidencePack := defaultNarrationPack

/-- `ln.is_credit and ln.amount_paise > 0`. -/
def isGraphCredit (ln : BankCreditLine) : Bool := ln.isCredit && decide (0 < ln.amountPaise)

/-- (a) The abstain sink, always available. -/
def abstainCandidate (ln : BankCreditLine) : CandidateAssignment where
  assignmentId := ln.key ++ "->abstain"
  creditKeys := [ln.key]
  targetId := "abstain"
  rail := Rail.unknown.value
  tier := Tier.b.value
  confidence := 0
  evidence := []
  residualPaise := 0
  cost := Cost.mk 0 ln.amountPaise 0 0 2
  isSplit := false

/-- `re.search(r"settlement_utr\s+([a-z0-9]+)", text, re.I)` at the head of the text: group 1. -/
def suffixUtrHere (text : List Char) : Option String :=
  let word := "settlement_utr".toList
  let sameLetter (p c : Char) : Bool := c == p || c.toLower == p || (p == 's' && c.toNat == 0x17F)
  let rest := text.drop word.length
  let group := (rest.dropWhile isSpace).takeWhile isAlnum
  if word.length ≤ text.length && (word.zip text).all (fun p => sameLetter p.1 p.2) &&
      !(rest.takeWhile isSpace).isEmpty && !group.isEmpty then some (String.ofList group)
  else none

def suffixUtr : List Char → Option String
  | [] => none
  | c :: cs => (suffixUtrHere (c :: cs)).orElse fun _ => suffixUtr cs

section Builder

variable (U : Unicode) (gs : GraphSettings) (index : ReconIndex)

/-- The settlements the suffix ties name. -/
def suffixSids (evidence : List EvidenceItem) : List String :=
  evidence.filterMap fun e =>
    if e.signal = "utr_suffix" then
      (suffixUtr e.detail.toList).bind fun utr => truthy (index.utrToSid.get? (U.lower utr))
    else none

/-- (b) One candidate for every competing rail, by the name of the rail. -/
def railCandidates (ln : BankCreditLine) : List CandidateAssignment :=
  ((narrationRailSignals U gs.pack ln).items.insertionSort fun p q => p.1.value ≤ q.1.value).filterMap
    fun p =>
      let score := combine p.2
      if gs.threshold.any fun t => score < t then none
      else if 0 < score then
        some
          { assignmentId := ln.key ++ "->rail:" ++ p.1.value
            creditKeys := [ln.key]
            targetId := "rail:" ++ p.1.value
            rail := p.1.value
            tier := Tier.b.value
            confidence := roundTo 4 score
            evidence := p.2
            residualPaise := 0
            cost := Cost.mk 0 0 0 (-roundTo 4 score) (1 / 2)
            isSplit := false }
      else none

/-- The settlements the credit's ties point at, in id order. -/
def matchedSids (ln : BankCreditLine) (rzpEv : List EvidenceItem) : List String :=
  let utrTokens := extractUtrTokens U ln.narration ++ ((truthy ln.bankRef).map strip).toList
  let exact := if hasSignal ["utr_exact"] rzpEv then
      utrTokens.filterMap fun tok =>
        if index.utrExact U tok then truthy (index.utrToSid.get? (U.lower tok)) else none
    else []
  let suffix := suffixSids U index rzpEv
  let amount := if hasSignal ["amount_corr"] rzpEv then
      ((index.netToSettlements.get? ln.amountPaise).getD []).filter fun sid =>
        datedWithin index.settlementDate splitDateWindow sid ln.valueDate
    else []
  (exact ++ suffix ++ amount).dedup.insertionSort (· ≤ ·)

/-- (c) One candidate for every settlement a genuine tie points at. -/
def settlementCandidates (ln : BankCreditLine) : List CandidateAssignment :=
  let rzpEv := razorpaySignals U gs.pack index ln
  if !hasSignal rzpTieSignals rzpEv then []
  else
    let isExact := hasSignal ["utr_exact"] rzpEv
    let conf := if isExact then 19 / 20 else combine rzpEv
    if gs.threshold.any fun t => decide (defaultThreshold < t) && decide (conf < t) then []
    else
      (matchedSids U index ln rzpEv).map fun sid =>
        let residual := ln.amountPaise - (index.settlementNet.get? sid).getD ln.amountPaise
        { assignmentId := ln.key ++ "->" ++ sid
          creditKeys := [ln.key]
          targetId := sid
          rail := Rail.razorpaySettlement.value
          tier := if isExact then Tier.a.value else Tier.b.value
          confidence := roundTo 4 conf
          evidence := rzpEv
          residualPaise := residual
          cost := Cost.mk 0 0 |residual| (-roundTo 4 conf) (if isExact then 0 else 1)
          isSplit := false }

def singleCandidates (ln : BankCreditLine) : List CandidateAssignment :=
  abstainCandidate ln :: railCandidates U gs ln ++ settlementCandidates U gs index ln

/-! ## Split candidates -/

/-- The line may be looked at for splits: a credit without a competing keyword or an exact UTR. -/
def isSplitSource (ln : BankCreditLine) : Bool :=
  isGraphCredit ln && decide ((narrationRailSignals U gs.pack ln).items = []) &&
    !hasSignal ["utr_exact"] (razorpaySignals U gs.pack index ln)

/-- `split_candidates`. -/
def splitLines (lines : List BankCreditLine) : List BankCreditLine :=
  lines.filter fun ln => isSplitSource U gs index ln &&
    hasSignal rzpLeaningSignals (razorpaySignals U gs.pack index ln)

/-- `sig_by_key`. -/
def signalsByKey (lines : List BankCreditLine) : Dict String (List String) :=
  Dict.gather (fun ln => some ln.key)
    (fun ln _ => (razorpaySignals U gs.pack index ln).map EvidenceItem.signal) (splitLines U gs index lines)

/-- `tied_sids_by_key`. -/
def tiedSids (lines : List BankCreditLine) (key : String) : List String :=
  (lines.filter fun ln => isSplitSource U gs index ln && ln.key = key).flatMap fun ln =>
    suffixSids U index (razorpaySignals U gs.pack index ln)

/-- The split lines that may be legs of a settlement: a credit tied to other settlements is excluded. -/
def eligibleFor (lines : List BankCreditLine) (sid : String) (net : ℤ) (date : Date) :
    List BankCreditLine :=
  (splitLines U gs index lines).filter fun c =>
    c.amountPaise < net && withinDays splitDateWindow c.valueDate date &&
      (decide (tiedSids U gs index lines c.key = []) || decide (sid ∈ tiedSids U gs index lines c.key))

/-- Pairs and triples of `n` lines. -/
def combinationCount (n : ℤ) : ℤ := n * (n - 1) / 2 + n * (n - 1) * (n - 2) / 6

/-- The evidence of a split: the reconstruction, and the strong signals of its legs. -/
def splitEvidence (signals : Dict String (List String)) (sid : String) (sub : List BankCreditLine) :
    List EvidenceItem :=
  sub.foldl (fun ev c =>
    strongRzpSignals.foldl (fun ev sig =>
      if sig ∈ (signals.get? c.key).getD [] then
        (razorpaySignals U gs.pack index c).foldl (fun ev item =>
          if item.signal = sig ∧ item ∉ ev then ev ++ [item] else ev) ev
      else ev) ev)
    [⟨"split_reconstruction", "1 of " ++ toString sub.length ++
      " bank legs whose amounts uniquely sum to balance the settlement net for " ++ sid, splitConfidence⟩]

def splitCandidate (signals : Dict String (List String)) (sid : String) (net : ℤ)
    (sub : List BankCreditLine) : CandidateAssignment :=
  let subKeys := (sub.map BankCreditLine.key).insertionSort (· ≤ ·)
  let residual := (sub.map BankCreditLine.amountPaise).sum - net
  { assignmentId := "split:" ++ sid ++ ":" ++ String.intercalate "+" subKeys
    creditKeys := subKeys
    targetId := sid
    rail := Rail.razorpaySettlement.value
    tier := Tier.c.value
    confidence := splitConfidence
    evidence := splitEvidence U gs index signals sid sub
    residualPaise := residual
    cost := Cost.mk 0 0 |residual| (-splitConfidence) (3 / 2)
    isSplit := true }

/-- The loop over the settlements: the split candidates, and the credits of the pools too large to enumerate. -/
def splitLoop (lines : List BankCreditLine) :
    List (String × ℤ × Date) → List String → List CandidateAssignment × List String
  | [], unEnumerable => ([], unEnumerable)
  | (sid, net, date) :: rest, unEnumerable =>
    let elig := eligibleFor U gs index lines sid net date
    if elig.length < 2 then splitLoop lines rest unEnumerable
    else if gs.maxCandidates < elig.length ∨ gs.maxCombinations < combinationCount elig.length then
      splitLoop lines rest (unEnumerable ++ elig.map BankCreditLine.key)
    else
      let signals := signalsByKey U gs index lines
      let subs := (allSumSubsets elig net splitDriftPaise splitMaxLegs).filter fun sub =>
        (sub.any fun c => ((signals.get? c.key).getD []).any fun sig => sig ∈ strongRzpSignals) &&
          !(sub.any fun c => c.key ∈ unEnumerable)
      let (found, unEnumerable') := splitLoop lines rest unEnumerable
      (subs.map (splitCandidate U gs index signals sid net) ++ found, unEnumerable')

/-! ## The graph of a period -/

/-- The credits that compete for a settlement or share a split. -/
def competitors (cs : List CandidateAssignment) : List String :=
  (cs.flatMap CandidateAssignment.creditKeys).dedup.insertionSort (· ≤ ·)

/-- `sorted(adj[k])`. -/
def neighbours (bySettlement : Dict String (List CandidateAssignment)) (k : String) : List String :=
  (bySettlement.items.flatMap fun p =>
    if k ∈ competitors p.2 then (competitors p.2).filter fun k' => k' ≠ k else []).dedup.insertionSort (· ≤ ·)

def CandidateAssignment.sortKey (c : CandidateAssignment) : List String ×ₗ String ×ₗ String :=
  toLex (c.creditKeys, toLex (c.targetId, c.assignmentId))

/-- All candidates in order; a poisoned credit is in no split. -/
def graphCandidates (lines : List BankCreditLine) : List CandidateAssignment × List String :=
  let singles := (lines.filter isGraphCredit).flatMap (singleCandidates U gs index)
  let (splits, unEnumerable) :=
    if gs.threshold.all fun t => t ≤ splitConfidence then
      splitLoop U gs index lines (splitSettlements index) []
    else ([], [])
  (((singles ++ splits).filter fun c => !(c.isSplit && c.creditKeys.any fun k => k ∈ unEnumerable)).insertionSort
    fun c c' => c.sortKey ≤ c'.sortKey, unEnumerable)

def creditNodes (lines : List BankCreditLine) : Dict String SolverNode :=
  Dict.gather (fun ln => if isGraphCredit ln then some ln.key else none)
    (fun ln _ => ⟨ln.key, "credit", ln.amountPaise, some ln.valueDate⟩) lines

def settlementNodes : Dict String SolverNode :=
  Dict.gather (fun p => some p.1)
    (fun p _ => ⟨p.1, "settlement", p.2, index.settlementDate.get? p.1⟩)
    (index.settlementNet.items.insertionSort fun p q => p.1 ≤ q.1)

/-- The components, each in key order, the smallest first. -/
def creditComponents (credits settlements : Dict String SolverNode) (candidates : List CandidateAssignment) :
    List (List String) :=
  ((components (neighbours (candidatesBySettlement settlements candidates))
      (credits.keys.insertionSort (· ≤ ·))).map fun comp => comp.insertionSort (· ≤ ·)).insertionSort
    fun c c' => toLex (c.length, c.headD "") ≤ toLex (c'.length, c'.headD "")

def buildCandidateGraph (lines : List BankCreditLine) : AssignmentGraph where
  credits := creditNodes lines
  settlements := settlementNodes index
  candidates := (graphCandidates U gs index lines).1
  components := creditComponents (creditNodes lines) (settlementNodes index)
    (graphCandidates U gs index lines).1
  unEnumerable := (graphCandidates U gs index lines).2

end Builder

end Untangle
