import Untangle.Correctness.Attribute.Threshold
import Untangle.Correctness.Solver.Consistent

/-!
# `Correctness.Solver.Threshold` — the threshold and the candidates of the graph

The solver has no gate of its own: a candidate below the threshold is kept out of the graph, and what is in the
graph may be chosen. Rail candidates and splits are tested against the threshold, settlement candidates only
against one above the default. And the confidence of a candidate is rounded after the test. So the threshold
governs the verdicts for some thresholds and not for others (`solver_threshold_iff`).
-/

namespace Untangle

open Lib

variable {U : Unicode} {g : AssignmentGraph} {gs : GraphSettings} {index : ReconIndex}
  {lines : List BankCreditLine} {margin t : ℚ} {maxSteps : ℤ} {c : CandidateAssignment}

/-! ## From candidates to verdicts -/

/-- Every verdict that does not abstain clears the threshold. -/
def VerdictsClear (t : ℚ) (r : SolverResult) : Prop :=
  ∀ k v, r.verdicts.get? k = some v → v.abstained = false → t ≤ v.confidence

theorem confidence_creditVerdict {contested : Dict String Explanation}
    {chosen : Dict String CandidateAssignment} {rejected : List RejectedMatch} {k : String}
    (h : (creditVerdict contested chosen rejected k).abstained = false) (hc : chosen.get? k = some c) :
    (creditVerdict contested chosen rejected k).confidence = c.confidence := by
  obtain ⟨hfree, c', hc', hopen, _⟩ := creditVerdict_open h
  rw [hc, Option.some.injEq] at hc'
  subst hc'
  unfold creditVerdict
  dsimp only
  rw [Dict.get?_eq_none.mpr hfree]
  dsimp only
  rw [hc]
  dsimp only
  rw [if_neg (by simp [hopen])]

/-- A verdict has the confidence of a candidate of the graph that is no abstention. -/
theorem exists_candidate_of_verdict (hg : WellFormed g) {k : String} {v : CreditAssignmentVerdict}
    (hv : (solveAssignment U g margin maxSteps).verdicts.get? k = some v) (hopen : v.abstained = false) :
    ∃ c ∈ g.candidates, c.isAbstention = false ∧ v.confidence = c.confidence := by
  rw [← (get?_verdicts.mp hv).2] at hopen ⊢
  obtain ⟨_, c, hc, hnot, _⟩ := creditVerdict_open hopen
  have hchosen := (chosenByCredit_get? hc).1
  exact ⟨c, (solveInv_solveAll hg margin maxSteps).settled.mem c hchosen, hnot, confidence_creditVerdict hopen hc⟩

/-- Without a weak candidate there is no weak verdict. -/
theorem verdictsClear_of_candidates (hg : WellFormed g)
    (h : ∀ c ∈ g.candidates, c.isAbstention = false → t ≤ c.confidence) (U : Unicode) (margin : ℚ) (maxSteps : ℤ) :
    VerdictsClear t (solveAssignment U g margin maxSteps) := by
  intro k v hv hopen
  obtain ⟨c, hc, hnot, hconf⟩ := exists_candidate_of_verdict hg hv hopen
  rw [hconf]
  exact h c hc hnot

/-- The verdict on a lone credit that can be explained is based on a candidate that explains it. -/
theorem exists_verdict_of_single (hg : WellFormed g) {k : String} (hone : g.components = [[k]])
    (hc : c ∈ g.candidates) (hkeys : c.creditKeys = [k]) (hzero : c.cost.unexplained = 0)
    (hopen : ∀ c' ∈ g.candidates, c'.cost.unexplained = 0 → c'.isAbstention = false) (U : Unicode) :
    ∃ maxSteps v, ∃ c' ∈ g.candidates, c'.cost.unexplained = 0 ∧ v.confidence = c'.confidence ∧
      v.abstained = false ∧ (solveAssignment U g 0 maxSteps).verdicts.get? k = some v := by
  obtain ⟨maxSteps, c₀, hc₀, hk, hzero₀⟩ := exists_chosen_of_single hg hone hc hkeys hzero
  have hinv := solveInv_solveAll hg 0 maxSteps
  have hmem := hinv.settled.mem c₀ hc₀
  have hlookup : (chosenByCredit (solveAll g 0 maxSteps).chosen).get? k = some c₀ := by
    obtain ⟨c', hc'⟩ := exists_chosenByCredit hc₀ hk
    obtain ⟨hin, hk'⟩ := chosenByCredit_get? hc'
    rw [hc', hinv.settled.owns c₀ hc₀ (hopen c₀ hmem hzero₀) c' hin k hk hk']
  have hfree : k ∉ (solveAll g 0 maxSteps).contested.keys := by
    rw [← stateAfter_components, contested_of_nonpos le_rfl]
    exact List.not_mem_nil
  have hstands : (verdictOn U g 0 maxSteps k).abstained = false :=
    (creditVerdict_chosen _ hfree hlookup (hopen c₀ hmem hzero₀)).1
  exact ⟨maxSteps, verdictOn U g 0 maxSteps k, c₀, hmem, hzero₀, confidence_creditVerdict hstands hlookup, hstands,
    get?_verdicts.mpr ⟨hg.keys_subset c₀ hmem hk, rfl⟩⟩

/-! ## Which candidates can be weak -/

theorem tieConfidence_le (evidence : List EvidenceItem) : tieConfidence evidence ≤ 99 / 100 := by
  unfold tieConfidence
  split
  · norm_num
  · exact combine_le evidence

/-- A genuine tie is worth 0.3 at least. -/
theorem le_tieConfidence {pack : NarrationEvidencePack} {ln : BankCreditLine}
    (h : hasSignal rzpTieSignals (razorpaySignals U pack index ln) = true) :
    3 / 10 ≤ tieConfidence (razorpaySignals U pack index ln) := by
  unfold tieConfidence
  split
  · norm_num
  · obtain ⟨e, he, hsig⟩ := List.any_eq_true.mp h
    have hweight : 3 / 10 ≤ e.weight ∧ e.weight ≤ 1 := tie_weight he (of_decide_eq_true hsig)
    have hle := le_combine he
    rw [clip_of_mem (by linarith) hweight.2] at hle
    exact (le_min (by norm_num) hweight.1).trans hle

/-- The thresholds that no candidate escapes: the default's special case lets through nothing that is below them,
    and rounding takes no confidence below them. -/
def ThresholdSafe (t : ℚ) : Prop :=
  (t ≤ 3 / 10 ∨ defaultThreshold < t) ∧ (t ≤ roundTo 4 t ∨ 99 / 100 < t)

/-- A confidence that is tested before it is rounded. -/
theorem le_roundTo_of_le {score : ℚ} (hround : t ≤ roundTo 4 t ∨ 99 / 100 < t) (hscore : t ≤ score)
    (hcap : score ≤ 99 / 100) : t ≤ roundTo 4 score := by
  rcases hround with hround | hhigh
  · exact hround.trans (roundTo_mono 4 hscore)
  · exact absurd (hscore.trans hcap) (not_le.mpr hhigh)

/-- **At a safe threshold no candidate is weak.** -/
theorem Origin.clears (hsafe : ThresholdSafe t) (ht : gs.threshold = some t) (h : Origin U gs index lines c)
    (hopen : c.isAbstention = false) : t ≤ c.confidence := by
  cases h with
  | sink ln _ _ heq =>
      rw [heq, isAbstention_of_target rfl] at hopen
      exact absurd hopen (by simp)
  | rail ln _ _ h =>
      rw [h.confidence]
      exact le_roundTo_of_le hsafe.2 (h.gate t ht) (combine_le _)
  | settlement ln _ _ h =>
      rw [h.confidence]
      rcases hsafe.1 with hlow | hhigh
      · -- a tie is worth 0.3, and so it is after rounding
        have htie := le_tieConfidence h.tied
        rw [← h.evidence] at htie
        calc t ≤ 3 / 10 := hlow
          _ = roundTo 4 (3 / 10) := (roundTo_of_isDecimal ⟨3000, by norm_num⟩).symm
          _ ≤ roundTo 4 (tieConfidence c.evidence) := roundTo_mono 4 htie
      · exact le_roundTo_of_le hsafe.2 (h.gate t ht hhigh) (tieConfidence_le _)
  | split sid net date sub _ heq hgate =>
      rw [heq]
      exact hgate t ht

/-! ## The attributions the solver returns -/

/-- An attribution that does not abstain has the confidence of its verdict. -/
theorem solvedAttribution_open {key : String} {v : CreditAssignmentVerdict} {orig : Option RailAttribution}
    (h : (solvedAttribution key v orig).abstained = false) :
    v.abstained = false ∧ (solvedAttribution key v orig).confidence = v.confidence := by
  unfold solvedAttribution at h ⊢
  dsimp only at h ⊢
  split at h
  · split at h <;> exact absurd h (by simp)
  · rename_i hopen
    rw [if_neg hopen]
    refine ⟨Bool.eq_false_iff.mpr hopen, ?_⟩
    split
    · split <;> rfl
    · rfl

/-- The verdicts and the attributions of the credits clear the threshold. -/
structure Gated (U : Unicode) (gs : GraphSettings) (index : ReconIndex) (lines : List BankCreditLine)
    (margin : ℚ) (maxSteps : ℤ) (t : ℚ) : Prop where
  verdicts : VerdictsClear t (solveAssignment U (buildCandidateGraph U gs index lines) margin maxSteps)
  attributions : ∀ base, ∀ a ∈ (runGlobalSolver U gs margin index lines base).1,
    a.lineKey ∈ (creditNodes lines).keys → a.abstained = false → t ≤ a.confidence

theorem attributions_clear (h : VerdictsClear t
    (solveAssignment U (buildCandidateGraph U gs index lines) margin maxBranchSteps))
    {base : List RailAttribution} {a : RailAttribution} (ha : a ∈ (runGlobalSolver U gs margin index lines base).1)
    (hcredit : a.lineKey ∈ (creditNodes lines).keys) (hopen : a.abstained = false) : t ≤ a.confidence := by
  unfold runGlobalSolver at ha
  dsimp only at ha
  obtain ⟨ln, _, hsome⟩ := List.mem_filterMap.mp ha
  split at hsome
  · -- a line without a verdict keeps its base attribution, and is no credit of the graph
    rename_i hnone
    rw [Dict.get?_gather_last] at hsome
    obtain ⟨a', ha', rfl⟩ := Option.map_eq_some_iff.mp hsome
    have hkey := (List.mem_filter.mp (List.mem_of_getLast? ha')).2
    rw [decide_eq_true_eq, Option.some.injEq] at hkey
    rw [hkey] at hcredit
    rw [get?_verdicts.mpr ⟨hcredit, rfl⟩] at hnone
    exact absurd hnone (by simp)
  · rename_i v hv
    rw [← Option.some.inj hsome] at hopen ⊢
    obtain ⟨hstands, hconf⟩ := solvedAttribution_open hopen
    rw [hconf]
    exact h ln.key v hv hstands

/-! ## Which thresholds govern -/

/-- The threshold governs the solver: all lines, reports, packs, margins and step budgets. -/
def SolverGoverned (t : ℚ) : Prop :=
  ∀ (U : Unicode) (gs : GraphSettings) (index : ReconIndex) (lines : List BankCreditLine) (margin : ℚ) (maxSteps : ℤ),
    gs.threshold = some t → (lines.map BankCreditLine.key).Nodup → 0 ≤ margin →
      Gated U gs index lines margin maxSteps t

/-- A lone credit that a candidate explains refutes the threshold when all its explanations are weak. -/
theorem not_governed_of_single {ln : BankCreditLine} (hkey : ln.key = "k") (hcredit : isGraphCredit ln = true)
    (ht : gs.threshold = some t) (hc : c ∈ (graphCandidates U gs index [ln]).1) (hkeys : c.creditKeys = ["k"])
    (hzero : c.cost.unexplained = 0)
    (hweak : ∀ c' ∈ (graphCandidates U gs index [ln]).1, c'.cost.unexplained = 0 →
      c'.isAbstention = false ∧ c'.confidence < t) : ¬ SolverGoverned t := by
  intro hgoverned
  have hg := buildCandidateGraph_wellFormed U gs index [ln]
  obtain ⟨maxSteps, v, c', hc', hzero', hconf, hopen, hv⟩ := exists_verdict_of_single hg
    (components_of_single hkey hcredit U gs index) hc hkeys hzero (fun c' hc' hz => (hweak c' hc' hz).1) U
  have hclears := (hgoverned U gs index [ln] 0 maxSteps ht (List.nodup_singleton _) le_rfl).verdicts _ v hv hopen
  rw [hconf] at hclears
  exact absurd hclears (not_le.mpr (hweak c' hc' hzero').2)

/-! ### A tie that is weaker than a low threshold -/

/-- A settlement of 100000 paise, four days after the credit. -/
def lateReport : List ReconRow :=
  [{ settledRow "e1" "S1" none 100000 with settledAt := some ⟨739004, 0⟩ }]

def lateIndex : ReconIndex := ReconIndex.ofRows asciiUnicode lateReport

def lateCredit : BankCreditLine := creditLine "k" "" 100000

/-- Up to the default the threshold is no gate for settlement candidates. -/
theorem settlementCandidates_of_le (ht : t ≤ defaultThreshold) (U : Unicode) (index : ReconIndex)
    (ln : BankCreditLine) :
    settlementCandidates U { threshold := some t } index ln = settlementCandidates U {} index ln := by
  unfold settlementCandidates
  dsimp only
  rw [Option.any_some, Option.any_none, decide_eq_false (not_lt.mpr ht), Bool.false_and]

theorem late_weak (hlow : 3 / 10 < t) (hc : c ∈ (graphCandidates asciiUnicode { threshold := some t } lateIndex
    [lateCredit]).1) (hzero : c.cost.unexplained = 0) : c.isAbstention = false ∧ c.confidence < t := by
  cases (mem_graphCandidates hc).1 with
  | sink ln hln _ heq =>
      rw [heq, unexplained_abstainCandidate, List.mem_singleton.mp hln] at hzero
      exact absurd hzero (by decide)
  | rail ln hln _ h =>
      obtain ⟨p, hp, _⟩ := h.named
      have hnone : (narrationRailSignals asciiUnicode defaultNarrationPack lateCredit).items = [] := by decide +kernel
      rw [List.mem_singleton.mp hln] at hp
      rw [show (narrationRailSignals asciiUnicode _ lateCredit).items = [] from hnone] at hp
      exact absurd hp List.not_mem_nil
  | settlement ln hln _ h =>
      have hln := List.mem_singleton.mp hln
      subst hln
      have hevidence : c.evidence = razorpaySignals asciiUnicode defaultNarrationPack lateIndex lateCredit :=
        h.evidence
      have htarget : c.targetId ∈ matchedSids asciiUnicode lateIndex lateCredit
          (razorpaySignals asciiUnicode defaultNarrationPack lateIndex lateCredit) := h.target
      have hsids : matchedSids asciiUnicode lateIndex lateCredit
          (razorpaySignals asciiUnicode defaultNarrationPack lateIndex lateCredit) = ["S1"] := by decide +kernel
      have hconf : roundTo 4 (tieConfidence
          (razorpaySignals asciiUnicode defaultNarrationPack lateIndex lateCredit)) = 3 / 10 := by decide +kernel
      rw [hsids, List.mem_singleton] at htarget
      rw [h.confidence, hevidence, hconf]
      refine ⟨?_, hlow⟩
      unfold CandidateAssignment.isAbstention
      rw [htarget, h.rail]
      decide
  | split sid net date sub h _ =>
      have hlen := h.sublist.length_le
      have htwo := (mem_allSumSubsets h.found).2.1
      rw [List.length_singleton] at hlen
      omega

theorem not_governed_of_low (hlow : 3 / 10 < t) (hhigh : t ≤ defaultThreshold) : ¬ SolverGoverned t := by
  have hcredit : isGraphCredit lateCredit = true := isGraphCredit_creditLine (by decide)
  obtain ⟨c, hc⟩ : ∃ c, c ∈ settlementCandidates asciiUnicode { threshold := some t } lateIndex lateCredit := by
    rw [settlementCandidates_of_le hhigh]
    exact List.exists_mem_of_ne_nil _ (by decide +kernel)
  have hsettlement := mem_settlementCandidates hc
  obtain ⟨residual, ops, hcost, _⟩ := hsettlement.cost
  exact not_governed_of_single rfl hcredit rfl
    (settlementCandidate_mem (List.mem_singleton_self _) hcredit hc) hsettlement.keys (by rw [hcost]; rfl)
    fun c' hc' hzero => late_weak hlow hc' hzero

/-! ### A keyword that is rounded below the threshold -/

/-- A pack whose keyword weighs as much as the threshold asks. -/
def weightedPack (t : ℚ) : NarrationEvidencePack := { keywordPack .otherGateway with nonRzpPatternWeight := t }

def weightedSettings (t : ℚ) : GraphSettings where
  threshold := some t
  pack := weightedPack t

theorem narrationRailSignals_weighted (t : ℚ) :
    (narrationRailSignals asciiUnicode (weightedPack t) (creditLine "k" "x" 1)).items =
      [(.otherGateway, [⟨narrationPattern .otherGateway, "narration contains " ++ "'x'", t⟩])] := by
  have hhit : NarrationEvidencePack.keywordHit asciiUnicode (creditLine "k" "x" 1) ["x"] = some "x" := by
    decide +kernel
  show (NarrationEvidencePack.evaluateNonRzpSignals asciiUnicode (weightedPack t) (creditLine "k" "x" 1)).items = _
  unfold NarrationEvidencePack.evaluateNonRzpSignals
  show (Dict.gather _ _ [(Rail.otherGateway, ["x"])]).items = _
  unfold Dict.gather
  rw [List.foldl_cons, List.foldl_nil]
  dsimp only
  rw [hhit]
  rfl

/-- The keyword's candidate has its weight, rounded, as confidence. -/
theorem weighted_confidence (hpos : 0 < t) (hcap : t ≤ 99 / 100) :
    combine [⟨narrationPattern .otherGateway, "narration contains " ++ "'x'", t⟩] = t := by
  rw [combine_singleton, clip_of_mem hpos.le (hcap.trans (by norm_num)), min_eq_right hcap]

theorem weighted_weak (hpos : 0 < t) (hcap : t ≤ 99 / 100) (hround : roundTo 4 t < t)
    (hc : c ∈ (graphCandidates asciiUnicode (weightedSettings t) (ReconIndex.ofRows asciiUnicode [])
      [creditLine "k" "x" 1]).1) (hzero : c.cost.unexplained = 0) : c.isAbstention = false ∧ c.confidence < t := by
  cases (mem_graphCandidates hc).1 with
  | sink ln hln _ heq =>
      rw [heq, unexplained_abstainCandidate, List.mem_singleton.mp hln] at hzero
      exact absurd hzero (by decide)
  | rail ln hln _ h =>
      obtain ⟨p, hp, htarget, hrail, hevidence, _⟩ := h.named
      rw [List.mem_singleton.mp hln, show (weightedSettings t).pack = weightedPack t from rfl,
        narrationRailSignals_weighted, List.mem_singleton] at hp
      subst hp
      rw [h.confidence, hevidence, weighted_confidence hpos hcap]
      refine ⟨?_, hround⟩
      unfold CandidateAssignment.isAbstention
      rw [htarget, hrail]
      exact show (decide ("rail:" ++ Rail.otherGateway.value = "abstain") ||
        decide (Rail.otherGateway.value = Rail.unknown.value)) = false by decide
  | settlement ln hln _ h =>
      have htied : hasSignal rzpTieSignals (razorpaySignals asciiUnicode (keywordPack .otherGateway)
          (ReconIndex.ofRows asciiUnicode []) ln) = true := h.tied
      rw [List.mem_singleton.mp hln, no_tie rfl] at htied
      exact absurd htied (by simp)
  | split sid net date sub h _ =>
      have hlen := h.sublist.length_le
      have htwo := (mem_allSumSubsets h.found).2.1
      rw [List.length_singleton] at hlen
      omega

theorem not_governed_of_rounded (hpos : 0 < t) (hcap : t ≤ 99 / 100) (hround : roundTo 4 t < t) :
    ¬ SolverGoverned t := by
  have hcredit : isGraphCredit (creditLine "k" "x" 1) = true := isGraphCredit_creditLine (by decide)
  obtain ⟨c, hc⟩ : ∃ c, c ∈ railCandidates asciiUnicode (weightedSettings t) (creditLine "k" "x" 1) := by
    refine List.exists_mem_of_ne_nil _ ?_
    unfold railCandidates
    rw [show (weightedSettings t).pack = weightedPack t from rfl, narrationRailSignals_weighted,
      List.perm_singleton.mp (List.perm_insertionSort _ _), List.filterMap_cons]
    dsimp only
    rw [weighted_confidence hpos hcap, if_neg (by simp [weightedSettings]), if_pos hpos]
    exact List.cons_ne_nil _ _
  have hrail := mem_railCandidates hc
  obtain ⟨p, _, _, _, _, hcost⟩ := hrail.named
  exact not_governed_of_single rfl hcredit rfl (railCandidate_mem (List.mem_singleton_self _) hcredit hc)
    hrail.keys (by rw [hcost]; rfl) fun c' hc' hzero => weighted_weak hpos hcap hround hc' hzero

end Untangle
