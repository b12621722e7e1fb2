import Untangle.Engine.CandidateGraph
import Untangle.Lib.BranchBound

/-!
# `Engine.Solver` — the global evidence-constrained solver

Model of the second half of `engine/solver.py`. The components of the graph are solved one by one, by depth-first
branch and bound under a step budget: the cheapest set of candidates that assigns every credit once and uses no
settlement twice. With a positive margin every chosen candidate is challenged by the best assignment without it.
-/

namespace Untangle

open Lib

/-! ## One component -/

section Component

variable (g : AssignmentGraph) (globalConsumed excluded : List String)

/-- The search position: the credits still unassigned, and the settlements consumed in this component. -/
abbrev Position := List String × List String

/-- The credits that are left when the candidate is chosen. -/
def remaining (unassigned : List String) (c : CandidateAssignment) : List String :=
  unassigned.filter fun k => k ∉ c.creditKeys

/-- `graph.candidates_by_credit.get(k, [])`. -/
def candidatesOf (k : String) : List CandidateAssignment :=
  ((candidatesByCredit g.candidates).get? k).getD []

/-- The candidate may be chosen at the position. -/
def isAvailable (p : Position) (c : CandidateAssignment) : Bool :=
  decide (c.assignmentId ∉ excluded) && c.creditKeys.all (fun k => k ∈ p.1) &&
    (decide (c.targetId ∉ g.settlements.keys) ||
      (decide (c.targetId ∉ globalConsumed) && decide (c.targetId ∉ p.2)))

/-- `(c.cost_tuple, c.credit_keys, c.target_id, c.assignment_id)`. -/
def CandidateAssignment.visitKey (c : CandidateAssignment) : Cost ×ₗ List String ×ₗ String ×ₗ String :=
  toLex (c.cost, c.sortKey)

/-- The candidates of the least unassigned credit, cheapest first, each with the position it leads to. -/
def choicesAt (p : Position) : List (CandidateAssignment × Position) :=
  match p.1.min? with
  | none => []
  | some k =>
    (((candidatesOf g k).filter (isAvailable g globalConsumed excluded p)).insertionSort
      fun c c' => c.visitKey ≤ c'.visitKey).map fun c =>
        (c, (remaining p.1 c, if c.targetId ∈ g.settlements.keys then c.targetId :: p.2 else p.2))

theorem mem_candidatesOf {g : AssignmentGraph} {k : String} {c : CandidateAssignment} :
    c ∈ candidatesOf g k ↔ c ∈ g.candidates ∧ k ∈ c.creditKeys := by
  unfold candidatesOf candidatesByCredit
  rw [Dict.getD_get?_gather_append]
  simp only [List.mem_map, List.mem_filter, List.mem_flatMap, Option.some.injEq, decide_eq_true_eq]
  constructor
  · intro h
    obtain ⟨p, ⟨⟨c', hc', k', hk', rfl⟩, rfl⟩, rfl⟩ := h
    exact ⟨hc', hk'⟩
  · intro h
    exact ⟨(k, c), ⟨⟨c, h.1, k, h.2, rfl⟩, rfl⟩, rfl⟩

theorem mem_choicesAt {g : AssignmentGraph} {globalConsumed excluded : List String} {p q : Position}
    {c : CandidateAssignment} :
    (c, q) ∈ choicesAt g globalConsumed excluded p ↔
      ∃ k, p.1.min? = some k ∧ c ∈ g.candidates ∧ k ∈ c.creditKeys ∧
        isAvailable g globalConsumed excluded p c = true ∧
        q = (remaining p.1 c, if c.targetId ∈ g.settlements.keys then c.targetId :: p.2 else p.2) := by
  unfold choicesAt
  cases p.1.min? with
  | none => simp
  | some k =>
      simp only [List.mem_map, (List.perm_insertionSort _ _).mem_iff, List.mem_filter, mem_candidatesOf,
        Prod.mk.injEq, Option.some.injEq]
      constructor
      · intro h
        obtain ⟨c', ⟨⟨hc', hk⟩, havail⟩, rfl, rfl⟩ := h
        exact ⟨k, rfl, hc', hk, havail, rfl⟩
      · intro h
        obtain ⟨k', rfl, hc, hk, havail, rfl⟩ := h
        exact ⟨c, ⟨⟨hc, hk⟩, havail⟩, rfl, rfl⟩

/-- A choice assigns the least unassigned credit at least. -/
theorem length_remaining_lt {unassigned : List String} {c : CandidateAssignment} {k : String}
    (hk : k ∈ unassigned) (hc : k ∈ c.creditKeys) :
    (remaining unassigned c).length < unassigned.length := by
  refine List.length_filter_lt_length_iff_exists.mpr ⟨k, hk, ?_⟩
  simpa using hc

/-- `search` of `_solve_component`. -/
def componentSearch : SearchProblem Position CandidateAssignment Cost where
  isDone p := p.1.isEmpty
  choices := choicesAt g globalConsumed excluded
  extend cost c := addCosts cost c.cost
  prune best cost := best.hardest < cost.hardest
  size p := p.1.length
  size_lt := by
    intro p c q h
    obtain ⟨k, hk, _, hck, _, rfl⟩ := mem_choicesAt.mp h
    exact length_remaining_lt (List.min?_mem hk) hck

/-- `default_chosen`: the abstentions of the component. -/
def defaultChosen (comp : List String) : List CandidateAssignment :=
  (comp.insertionSort (· ≤ ·)).flatMap fun k =>
    (candidatesOf g k).filter fun c => c.targetId = "abstain" ∧ c.assignmentId ∉ excluded

def totalCost (cs : List CandidateAssignment) : Cost :=
  cs.foldl (fun cost c => addCosts cost c.cost) zeroCost

/-- What `_solve_component` returns. -/
structure ComponentSolution where
  assignment : List CandidateAssignment
  cost : Cost
  timedOut : Bool
deriving DecidableEq

/-- The abstentions, when they cover the component. -/
def baseline (comp : List String) : Option (Cost × List CandidateAssignment) :=
  if (defaultChosen g excluded comp).length = comp.length then
    some (totalCost (defaultChosen g excluded comp), defaultChosen g excluded comp)
  else none

def solveComponent (maxSteps : ℤ) (comp : List String) : ComponentSolution :=
  let result := searchFrom (componentSearch g globalConsumed excluded) maxSteps (comp, []) zeroCost
    (baseline g excluded comp)
  if result.exceeded then
    ⟨defaultChosen g excluded comp, ((baseline g excluded comp).map Prod.fst).getD zeroCost, true⟩
  else
    match result.best with
    | none => ⟨[], Cost.mk 999 999999999 999999999 0 999, false⟩
    | some best => ⟨best.2, best.1, false⟩

end Component

/-! ## The margin -/

/-- `c.target_id == "abstain" or c.rail == UNKNOWN`. -/
def CandidateAssignment.isAbstention (c : CandidateAssignment) : Bool :=
  decide (c.targetId = "abstain") || decide (c.rail = Rail.unknown.value)

def CandidateAssignment.summary (c : CandidateAssignment) : CandidateSummary :=
  ⟨c.assignmentId, c.targetId, c.rail, c.confidence⟩

/-- The gap to the best assignment without the candidate, when that is an equally valid world within the
    margin. -/
def contestedGap (margin : ℚ) (best alt : ComponentSolution) : Option ℚ :=
  if alt.assignment ≠ [] ∧ alt.cost.harder = best.cost.harder ∧
      roundTo 4 (alt.cost.negEvidence - best.cost.negEvidence) ≤ margin then
    some (roundTo 4 (alt.cost.negEvidence - best.cost.negEvidence))
  else none

/-- Mark the credits of a contested candidate, each with the candidate it has in the other world. -/
def contest (margin gap : ℚ) (c : CandidateAssignment) (alt : List CandidateAssignment)
    (contested : Dict String Explanation) : Dict String Explanation :=
  let altByCredit := Dict.gather (fun p => some p.1) (fun p (_ : Option CandidateAssignment) => p.2)
    (alt.flatMap fun c' => c'.creditKeys.map fun k => (k, c'))
  c.creditKeys.foldl (fun d k =>
    d.insert k (.globalSolver c.summary ((altByCredit.get? k).getD c).summary gap margin
      ("Competing global assignment exists with objective gap " ++ formatFixed 4 gap ++ " <= " ++
        formatFixed 4 margin))) contested

/-! ## All components -/

/-- What the loop over the components accumulates. -/
structure SolveState where
  chosen : List CandidateAssignment
  consumed : List String
  contested : Dict String Explanation
  optimal : Bool
  notes : List String

section Assignment

variable (U : Unicode) (g : AssignmentGraph) (margin : ℚ) (maxSteps : ℤ)

/-- The best assignment of the component without the candidate. -/
def alternative (consumed comp : List String) (c : CandidateAssignment) : ComponentSolution :=
  solveComponent g consumed [c.assignmentId] maxSteps comp

/-- The margin evaluation of one component. -/
def markContested (consumed comp : List String) (best : ComponentSolution)
    (contested : Dict String Explanation) : Dict String Explanation :=
  if 0 < margin then
    best.assignment.foldl (fun d c =>
      if c.isAbstention then d
      else
        let alt := alternative g maxSteps consumed comp c
        match contestedGap margin best alt with
        | none => d
        | some gap => contest margin gap c alt.assignment d) contested
  else contested

/-- The settlements an assignment consumes: those with a credit that is not contested. -/
def consumedBy (contested : Dict String Explanation) (assignment : List CandidateAssignment) : List String :=
  (assignment.filter fun c => decide (c.targetId ∈ g.settlements.keys) &&
    !(c.creditKeys.all fun k => k ∈ contested.keys)).map CandidateAssignment.targetId

def solveStep (st : SolveState) (comp : List String) : SolveState :=
  let best := solveComponent g st.consumed [] maxSteps comp
  let contested := markContested g margin maxSteps st.consumed comp best st.contested
  { chosen := st.chosen ++ best.assignment
    consumed := st.consumed ++ consumedBy g contested best.assignment
    contested := contested
    optimal := st.optimal && !best.timedOut
    notes := if best.timedOut then
        st.notes ++ ["Component branch-and-bound step limit exceeded (" ++ toString maxSteps ++
          " steps); failed-closed to abstention"]
      else st.notes }

def startState : SolveState where
  chosen := []
  consumed := []
  contested := Dict.empty
  optimal := g.unEnumerable.isEmpty
  notes := if g.unEnumerable.isEmpty then [] else ["Oversized candidate pool marked un-enumerable (abstain)"]

/-- The loop over the components, in order. -/
def solveAll : SolveState := g.components.foldl (solveStep g margin maxSteps) (startState g)

/-- The overall objective cost. -/
def objectiveCost (chosen : List CandidateAssignment) : Cost :=
  Cost.mk (chosen.map fun c => c.cost.invalid).sum (chosen.map fun c => c.cost.unexplained).sum
    (chosen.map fun c => c.cost.residual).sum
    (roundTo 4 (chosen.map fun c => c.cost.negEvidence).sum)
    (roundTo 4 (chosen.map fun c => c.cost.ops).sum)

/-! ## Rejected matches and verdicts -/

structure RejectedMatch where
  creditKeys : List String
  candidateId : String
  targetId : String
  rail : String
  violatedConstraint : String
  detail : String
deriving DecidableEq, Repr

/-- The `repr` of a tuple of strings. -/
def reprTuple : List String → String
  | [k] => "(" ++ U.repr k ++ ",)"
  | ks => "(" ++ String.intercalate ", " (ks.map U.repr) ++ ")"

def rejectedMatch (consumed : List String) (chosenByTarget : Dict String CandidateAssignment)
    (c : CandidateAssignment) : RejectedMatch :=
  if c.targetId ∈ g.settlements.keys ∧ c.targetId ∈ consumed then
    ⟨c.creditKeys, c.assignmentId, c.targetId, c.rail, "settlement_already_consumed",
      "Settlement " ++ c.targetId ++ " was consumed by globally consistent assignment for credit(s) " ++
        reprTuple U (((chosenByTarget.get? c.targetId).map CandidateAssignment.creditKeys).getD [])⟩
  else
    ⟨c.creditKeys, c.assignmentId, c.targetId, c.rail, "suboptimal_objective",
      "Candidate " ++ c.assignmentId ++ " rejected in favor of globally higher-ranked assignment"⟩

def rejectedMatches (chosen : List CandidateAssignment) (consumed : List String) : List RejectedMatch :=
  let chosenByTarget := Dict.gather
    (fun c => if c.targetId ∈ g.settlements.keys then some c.targetId else none) (fun c _ => c) chosen
  ((g.candidates.filter fun c => c.assignmentId ∉ chosen.map CandidateAssignment.assignmentId ∧
      c.targetId ≠ "abstain").map (rejectedMatch U g consumed chosenByTarget)).insertionSort
    fun r r' => toLex (r.candidateId, r.creditKeys) ≤ toLex (r'.candidateId, r'.creditKeys)

/-- Final assignment verdict of one credit. -/
structure CreditAssignmentVerdict where
  lineKey : String
  rail : String
  targetId : String
  confidence : ℚ
  tier : String
  evidence : List EvidenceItem
  abstained : Bool
  residualPaise : ℤ := 0
  coveredSplitKeys : List String := []
  competingGlobalExplanation : Option Explanation := none
  rejectedLocalMatches : List RejectedMatch := []
deriving DecidableEq, Repr

def abstainVerdict (k : String) (competing : Option Explanation) (rejected : List RejectedMatch) :
    CreditAssignmentVerdict where
  lineKey := k
  rail := Rail.unknown.value
  targetId := "abstain"
  confidence := 0
  tier := Tier.b.value
  evidence := []
  abstained := true
  competingGlobalExplanation := competing
  rejectedLocalMatches := rejected

def creditVerdict (contested : Dict String Explanation) (chosenByCredit : Dict String CandidateAssignment)
    (rejected : List RejectedMatch) (k : String) : CreditAssignmentVerdict :=
  let local_ := rejected.filter fun r => k ∈ r.creditKeys
  match contested.get? k with
  | some explanation => abstainVerdict k (some explanation) local_
  | none =>
    match chosenByCredit.get? k with
    | none => abstainVerdict k none local_
    | some c =>
      if c.isAbstention then abstainVerdict k none local_
      else
        { lineKey := k
          rail := c.rail
          targetId := c.targetId
          confidence := c.confidence
          tier := c.tier
          evidence := c.evidence
          abstained := false
          residualPaise := if c.rail = Rail.razorpaySettlement.value then c.residualPaise else 0
          coveredSplitKeys :=
            if c.rail = Rail.razorpaySettlement.value ∧ c.isSplit then c.creditKeys else []
          rejectedLocalMatches := local_ }

structure SolverResult where
  verdicts : Dict String CreditAssignmentVerdict
  consumedSettlements : List String
  objectiveCost : Cost
  rejectedMatches : List RejectedMatch
  isOptimal : Bool
  note : Option String

/-- `chosen_by_credit`. -/
def chosenByCredit (chosen : List CandidateAssignment) : Dict String CandidateAssignment :=
  Dict.gather (fun p => some p.1) (fun p _ => p.2)
    (chosen.flatMap fun c => c.creditKeys.map fun k => (k, c))

def solveAssignment : SolverResult :=
  if g.credits.items = [] then ⟨Dict.empty, [], zeroCost, [], true, none⟩
  else
    let st := solveAll g margin maxSteps
    let rejected := rejectedMatches U g st.chosen st.consumed
    { verdicts := Dict.gather (fun k => some k)
        (fun k _ => creditVerdict st.contested (chosenByCredit st.chosen) rejected k)
        (g.credits.keys.insertionSort (· ≤ ·))
      consumedSettlements := st.consumed
      objectiveCost := objectiveCost st.chosen
      rejectedMatches := rejected
      isOptimal := st.optimal
      note := if st.notes = [] then none else some (String.intercalate "; " st.notes) }

end Assignment

/-! ## The solver over base attributions -/

def splitLegItem (legs : Nat) (target : String) : EvidenceItem :=
  ⟨"split_reconstruction", "1 of " ++ toString legs ++
    " bank legs whose amounts uniquely sum to balance the settlement net for " ++ target, splitConfidence⟩

/-- The attribution a verdict makes of a line. -/
def solvedAttribution (key : String) (v : CreditAssignmentVerdict) (orig : Option RailAttribution) :
    RailAttribution :=
  let base := (orig.map RailAttribution.evidence).getD []
  if v.abstained then
    match orig, v.competingGlobalExplanation with
    | some orig, some (.globalSolver chosen competing gap margin detail) =>
      { lineKey := key
        rail := Rail.unknown.value
        confidence := orig.confidence
        tier := orig.tier
        evidence := orig.evidence
        abstained := true
        llmUsed := orig.llmUsed
        proofMargin := some gap
        competingExplanation := some (.globalSolver chosen competing gap margin detail) }
    | some orig, some explanation =>
      { lineKey := key
        rail := Rail.unknown.value
        confidence := orig.confidence
        tier := orig.tier
        evidence := orig.evidence
        abstained := true
        llmUsed := orig.llmUsed
        competingExplanation := some explanation }
    | some orig, none =>
      { lineKey := key
        rail := Rail.unknown.value
        confidence := 0
        tier := Tier.b.value
        evidence := orig.evidence
        abstained := true
        llmUsed := orig.llmUsed }
    | none, _ =>
      { lineKey := key
        rail := Rail.unknown.value
        confidence := 0
        tier := Tier.b.value
        abstained := true }
  else if v.rail = Rail.razorpaySettlement.value then
    if v.coveredSplitKeys ≠ [] then
      { lineKey := key
        rail := Rail.razorpaySettlement.value
        confidence := v.confidence
        tier := Tier.c.value
        evidence := [splitLegItem v.coveredSplitKeys.length v.targetId] }
    else
      let ev := if v.evidence ≠ [] then v.evidence else base
      { lineKey := key
        rail := Rail.razorpaySettlement.value
        confidence := v.confidence
        tier := if hasSignal ["utr_exact"] ev then Tier.a.value else Tier.b.value
        evidence := ev }
  else
    { lineKey := key
      rail := v.rail
      confidence := v.confidence
      tier := v.tier
      evidence := if v.evidence ≠ [] then v.evidence else base }

def runGlobalSolver (U : Unicode) (gs : GraphSettings) (margin : ℚ) (index : ReconIndex)
    (lines : List BankCreditLine) (baseAttributions : List RailAttribution) :
    List RailAttribution × SolverResult :=
  let result := solveAssignment U (buildCandidateGraph U gs index lines) margin maxBranchSteps
  let baseByKey := Dict.gather (fun a => some a.lineKey) (fun a _ => a) baseAttributions
  (lines.filterMap fun ln =>
    match result.verdicts.get? ln.key with
    | none => baseByKey.get? ln.key
    | some v => some (solvedAttribution ln.key v (baseByKey.get? ln.key)), result)

/-- `attribute_all` with the global solver on and no rules. -/
def attributeAllSolved (U : Unicode) (s : Settings) (index : ReconIndex) (lines : List BankCreditLine) :
    Except ValueError (List RailAttribution) := do
  let base ← lines.mapM (attributeLine U s index)
  return (runGlobalSolver U { threshold := some s.threshold, pack := s.pack } s.marginThreshold index lines
    base).1

end Untangle
