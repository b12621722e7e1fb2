import Untangle.Correctness.Rules
import Untangle.Correctness.RunReport
import Untangle.Correctness.Solver.Represented

/-!
# `Correctness.Verdicts` — an abstention is UNKNOWN, and nothing else is

Four stages write attributions: a line's own evidence, the split reconstruction, the solver and the rules. Each keeps
the line's key, writes UNKNOWN exactly where it abstains, and names Razorpay on credits only (`Decided`). For the
solver this holds on top of any attributions that are decided already, so also for the run that `build_report` makes
when its caller made none (`decided_solverStage`).
-/

namespace Untangle

open Lib

variable {U : Unicode} {s : Settings} {pack : NarrationEvidencePack} {index : ReconIndex}
  {lines : List BankCreditLine} {line : BankCreditLine} {rules : List ProposedRule} {a : RailAttribution}

/-- A decided line. -/
structure Decided (line : BankCreditLine) (a : RailAttribution) : Prop where
  key : a.lineKey = line.key
  abstains : a.abstained = true ↔ a.rail = Rail.unknown.value
  credit : a.rail = Rail.razorpaySettlement.value → line.isCredit = true

/-- The pack lists neither Razorpay nor UNKNOWN. -/
structure PlainPack (pack : NarrationEvidencePack) : Prop where
  razorpay : Rail.razorpaySettlement ∉ pack.railKeywords.keys
  unknown : Rail.unknown ∉ pack.railKeywords.keys

theorem plainPack_of_registered {pack : EvidencePack} (h : pack ∈ packRegistry) : PlainPack pack.rules := by
  rw [packRegistry, List.mem_singleton] at h
  subst h
  exact ⟨by decide, by decide⟩

/-- A rail of the pack that has a hit on the line. -/
def KeywordRail (U : Unicode) (pack : NarrationEvidencePack) (line : BankCreditLine) (rail : String) : Prop :=
  ∃ r ∈ (narrationRailSignals U pack line).keys, r.value = rail

theorem KeywordRail.competes (hpack : PlainPack pack) {rail : String} (h : KeywordRail U pack line rail) :
    rail ≠ Rail.unknown.value ∧ rail ≠ Rail.razorpaySettlement.value := by
  obtain ⟨r, hr, rfl⟩ := h
  obtain ⟨items, hitems⟩ := Dict.exists_get?_of_mem_keys hr
  have hlisted := rail_of_keyword (Dict.get?_eq_some.mp hitems)
  constructor
  · intro heq
    exact hpack.unknown (Rail.value_injective heq ▸ hlisted)
  · intro heq
    exact hpack.razorpay (Rail.value_injective heq ▸ hlisted)

/-! ## Decided verdicts -/

theorem Abstained.decided (h : Abstained a line) : Decided line a where
  key := h.key
  abstains := iff_of_true h.closed h.rail
  credit hrail := absurd (h.rail.symm.trans hrail) (by decide)

theorem Accepted.decided {evidence : List EvidenceItem} {score : ℚ} {tier : Tier}
    (h : Accepted a line evidence score tier) (hcredit : line.isCredit = true) : Decided line a where
  key := h.key
  abstains := by
    rw [h.open_, h.rail]
    decide
  credit _ := hcredit

/-- A verdict for a competing rail. -/
theorem decided_of_competing (hkey : a.lineKey = line.key) (hopen : a.abstained = false)
    (hunknown : a.rail ≠ Rail.unknown.value) (hrazorpay : a.rail ≠ Rail.razorpaySettlement.value) : Decided line a where
  key := hkey
  abstains := by
    rw [hopen]
    exact iff_of_false Bool.false_ne_true hunknown
  credit hrail := absurd hrail hrazorpay

theorem decided_finalizeRazorpay (evidence : List EvidenceItem) (nonRzp : Dict Rail (List EvidenceItem)) (score : ℚ)
    (tier : Tier) (hcredit : line.isCredit = true) :
    Decided line (finalizeRazorpay s line evidence nonRzp score tier) := by
  by_cases hsurvives : Survives s.marginThreshold evidence nonRzp score
  · exact (finalize_accepted line tier hsurvives).decided hcredit
  · exact (finalize_demoted line tier hsurvives).1.decided

/-! ## A line's own evidence -/

theorem keywordRail_of_score {best : RailScore} (h : best ∈ nonRzpScores (narrationRailSignals U pack line)) :
    KeywordRail U pack line best.rail := by
  obtain ⟨p, hp, rfl⟩ := List.mem_map.mp h
  exact ⟨p.1, Dict.mem_keys_of_mem (v := p.2) hp, rfl⟩

theorem railDecision_open {threshold : ℚ} {rzpEv : List EvidenceItem} {rzpHard joined : Bool}
    (h : railDecision threshold line rzpEv (narrationRailSignals U pack line) rzpHard joined = .settled a)
    (hopen : a.abstained = false) : KeywordRail U pack line a.rail := by
  unfold railDecision at h
  split at h
  · rw [← Decision.settled.inj h] at hopen
    cases hopen
  · rename_i best hbest
    split at h
    · rw [← Decision.settled.inj h] at hopen
      cases hopen
    · split at h
      · cases h
      · rename_i hrail
        rw [← Decision.settled.inj h]
        have hmem : best ∈ railScores rzpEv (narrationRailSignals U pack line) rzpHard joined := List.argmax_mem hbest
        unfold railScores at hmem
        dsimp only at hmem
        split at hmem
        · rcases mem_putScore_or hmem with hnew | hold
          · exact absurd (congrArg RailScore.rail hnew) hrail
          · exact keywordRail_of_score hold
        · exact keywordRail_of_score hmem

/-- **A line that is settled without the challenger** abstains, or has the rail of a keyword. -/
theorem lineDecision_open {threshold : ℚ} (h : lineDecision U threshold pack index line = .settled a)
    (hopen : a.abstained = false) : KeywordRail U pack line a.rail := by
  unfold lineDecision at h
  split at h
  · unfold creditDecision at h
    split at h
    · cases h
    · split at h
      · exact railDecision_open h hopen
      · split at h
        · rw [← Decision.settled.inj h] at hopen
          cases hopen
        · exact railDecision_open h hopen
  · rw [← Decision.settled.inj h] at hopen ⊢
    unfold attributeDebit at hopen ⊢
    split
    · rename_i hnone
      rw [hnone] at hopen
      cases hopen
    · rename_i best hbest
      rw [hbest] at hopen
      dsimp only at hopen ⊢
      split
      · rename_i hlow
        rw [if_pos hlow] at hopen
        cases hopen
      · exact keywordRail_of_score (List.argmax_mem hbest)

theorem decided_lineVerdict (hpack : PlainPack s.pack) (line : BankCreditLine) :
    Decided line (lineVerdict U s index line) := by
  unfold lineVerdict
  cases hd : lineDecision U s.threshold s.pack index line with
  | settled a =>
      show Decided line a
      cases habs : a.abstained with
      | true =>
          rcases lineDecision_settled hd with habstained | ⟨hother, _⟩
          · exact habstained.decided
          · rw [hother.open_] at habs
            cases habs
      | false =>
          obtain ⟨hunknown, hrazorpay⟩ := (lineDecision_open hd habs).competes hpack
          rcases lineDecision_settled hd with habstained | ⟨hother, _⟩
          · exact habstained.decided
          · exact decided_of_competing hother.key habs hunknown hrazorpay
  | candidate evidence score tier =>
      exact decided_finalizeRazorpay evidence _ score tier (lineDecision_candidate hd).1

/-! ## The later stages -/

/-- A leg is a credit of the statement. -/
theorem decided_verdictOf (hpack : PlainPack s.pack) (hnd : (lines.map BankCreditLine.key).Nodup)
    (hline : line ∈ lines) : Decided line (verdictOf U s index lines line) := by
  by_cases hlifted : IsLifted U s index lines line
  · have hcredit := (mem_splitCandidates.mp (hlifted.mem hnd hline)).2.2.isCredit
    rcases verdictOf_cases U s index lines line with heq | ⟨_, sid, legs, residual, _, heq⟩
    · rw [heq]
      exact decided_lineVerdict hpack line
    · rw [heq]
      exact decided_finalizeRazorpay _ _ _ _ hcredit
  · rw [verdictOf_of_not_lifted hnd hlifted]
    exact decided_lineVerdict hpack line

/-- The rail of a chosen candidate. -/
theorem rail_of_open_verdict {gs : GraphSettings} {margin : ℚ} {maxSteps : ℤ}
    (hnd : (lines.map BankCreditLine.key).Nodup) (hline : line ∈ lines) {v : CreditAssignmentVerdict}
    (hv : (solveAssignment U (buildCandidateGraph U gs index lines) margin maxSteps).verdicts.get? line.key = some v)
    (hopen : v.abstained = false) (hrail : v.rail ≠ Rail.razorpaySettlement.value) :
    KeywordRail U gs.pack line v.rail := by
  have hg := buildCandidateGraph_wellFormed U gs index lines
  obtain ⟨_, rfl⟩ := get?_verdicts.mp hv
  obtain ⟨_, c, hc, hnot, hcrail, _⟩ := creditVerdict_open hopen
  obtain ⟨hchosen, hkey⟩ := chosenByCredit_get? hc
  have hmem := (solveInv_solveAll hg margin maxSteps).settled.mem c hchosen
  have hcrail' : (verdictOn U (buildCandidateGraph U gs index lines) margin maxSteps line.key).rail = c.rail := hcrail
  rw [hcrail'] at hrail ⊢
  cases (mem_graphCandidates hmem).1 with
  | sink ln _ _ heq =>
      rw [heq, isAbstention_of_target rfl] at hnot
      cases hnot
  | rail ln hln _ hcand =>
      rw [hcand.keys, List.mem_singleton] at hkey
      obtain rfl := line_ext hnd hln hline hkey.symm
      obtain ⟨p, hp, _, hname, _⟩ := hcand.named
      exact ⟨p.1, Dict.mem_keys_of_mem (v := p.2) hp, hname.symm⟩
  | settlement _ _ _ hcand => exact absurd hcand.rail hrail
  | split sid net date sub _ heq _ =>
      rw [heq] at hrail
      exact absurd rfl hrail

/-- **The solver decides on top of what is decided.** -/
theorem decided_solved {gs : GraphSettings} {margin : ℚ} (hpack : PlainPack gs.pack)
    (hnd : (lines.map BankCreditLine.key).Nodup) (hline : line ∈ lines) (h : Decided line a) :
    Decided line (((solveAssignment U (buildCandidateGraph U gs index lines) margin maxBranchSteps).verdicts.get?
      line.key).elim a fun v => solvedAttribution line.key v (some a)) := by
  cases hv : (solveAssignment U (buildCandidateGraph U gs index lines) margin maxBranchSteps).verdicts.get? line.key with
  | none => exact h
  | some v =>
      show Decided line (solvedAttribution line.key v (some a))
      have hcredit : line.isCredit = true := by
        obtain ⟨ln, hln, hgraph, hkey⟩ := mem_creditNodes.mp (get?_verdicts.mp hv).1
        rw [line_ext hnd hln hline hkey] at hgraph
        exact (Bool.and_eq_true_iff.mp hgraph).1
      have hkey := lineKey_solvedAttribution line.key v (some a)
      cases habs : v.abstained with
      | true =>
          refine ⟨hkey, ?_, fun _ => hcredit⟩
          unfold solvedAttribution
          dsimp only
          rw [if_pos habs]
          split <;> exact iff_of_true rfl rfl
      | false =>
          by_cases hrail : v.rail = Rail.razorpaySettlement.value
          · refine ⟨hkey, ?_, fun _ => hcredit⟩
            unfold solvedAttribution
            dsimp only
            rw [habs, if_neg Bool.false_ne_true, if_pos hrail]
            have hdistinct : Rail.razorpaySettlement.value ≠ Rail.unknown.value := by decide
            split <;> exact iff_of_false Bool.false_ne_true hdistinct
          · have hname : (solvedAttribution line.key v (some a)).rail = v.rail ∧
                (solvedAttribution line.key v (some a)).abstained = false := by
              unfold solvedAttribution
              dsimp only
              rw [habs, if_neg Bool.false_ne_true, if_neg hrail]
              exact ⟨rfl, rfl⟩
            obtain ⟨hunknown, hrazorpay⟩ := (rail_of_open_verdict hnd hline hv habs hrail).competes hpack
            refine decided_of_competing hkey hname.2 ?_ ?_
            · rw [hname.1]
              exact hunknown
            · rw [hname.1]
              exact hrazorpay

/-! ## The rules -/

/-- A rule that was proposed, and may have been approved since. -/
inductive Minted (U : Unicode) : ProposedRule → Prop where
  | proposed {freshId shownRails targetRail patternValue patternType : String} {ruleId : Option String}
      {rule : ProposedRule}
      (h : proposeRule U freshId shownRails targetRail patternValue patternType ruleId = .ok rule) : Minted U rule
  | approved {rule rule' : ProposedRule} {approver : String} (h : Minted U rule)
      (happroved : approveRule rule approver = .ok rule') : Minted U rule'

/-- **An approval does not change the target**, which was checked when the rule was proposed. -/
theorem Minted.valid {rule : ProposedRule} (h : Minted U rule) : rule.targetRail ∈ validTargetRails := by
  induction h with
  | proposed h =>
      unfold proposeRule at h
      dsimp only at h
      split at h
      · cases h
      · split at h
        · cases h
        · rename_i hvalid
          rw [← Except.ok.inj h]
          exact not_not.mp hvalid
  | approved _ happroved ih =>
      unfold approveRule at happroved
      split at happroved
      · cases happroved
      · rw [← Except.ok.inj happroved]
        exact ih

theorem ne_unknown_of_valid {rail : String} (h : rail ∈ validTargetRails) : rail ≠ Rail.unknown.value := by
  intro heq
  rw [heq] at h
  exact absurd h (by decide)

theorem decided_withRule (hrules : ∀ rule ∈ rules, rule.targetRail ∈ validTargetRails)
    (hnd : (lines.map BankCreditLine.key).Nodup) (hline : line ∈ lines) (h : Decided line a) :
    Decided line (withRule (applyApprovedRules U lines rules) a) := by
  unfold withRule
  rw [h.key, get?_applyApprovedRules hnd hline]
  by_cases hcredit : line.isCredit = true
  swap
  · rw [if_neg hcredit]
    exact h
  rw [if_pos hcredit]
  rcases ruleVerdict_spec U rules line with ⟨_, hnone⟩ | ⟨ra, hsome, hruled⟩
  · rw [hnone]
    exact h
  have hra : Decided line ra := by
    cases hruled with
    | conflict _ _ hverdict =>
        obtain ⟨hkey, hrail, _, _, habs⟩ := verdict_inj hverdict
        exact ⟨hkey, iff_of_true habs hrail, fun _ => hcredit⟩
    | agreed _ rule hmatches _ hverdict =>
        obtain ⟨hkey, hrail, _, _, habs⟩ := verdict_inj hverdict
        refine ⟨hkey, ?_, fun _ => hcredit⟩
        rw [habs, hrail]
        exact iff_of_false Bool.false_ne_true (ne_unknown_of_valid (hrules rule hmatches.1))
  rw [hsome]
  dsimp only
  split
  · split
    · exact h
    · exact hra
  · split
    · exact hra
    · exact h

/-! ## A run -/

/-- **`attribute_all` decides every line.** -/
theorem attributeAllRules_decided (U : Unicode) (s : Settings) (index : ReconIndex) (globalSolver : Bool)
    (hpack : PlainPack s.pack) (hrules : ∀ rule ∈ rules, rule.targetRail ∈ validTargetRails)
    (hnd : (lines.map BankCreditLine.key).Nodup) :
    ∃ verdict, attributeAllRules U s index globalSolver rules lines = .ok (lines.map verdict) ∧
      ∀ line ∈ lines, Decided line (verdict line) := by
  refine ⟨_, attributeAllRules_eq U s index globalSolver rules hnd, fun line hline => ?_⟩
  apply decided_withRule hrules hnd hline
  unfold baseVerdict
  cases globalSolver with
  | true =>
      have hsolved : solvedVerdict U s index lines line = ((solveAssignment U (buildCandidateGraph U
          { threshold := some s.threshold, pack := s.pack } index lines) s.marginThreshold maxBranchSteps).verdicts.get?
          line.key).elim (lineVerdict U s index line)
          fun v => solvedAttribution line.key v (some (lineVerdict U s index line)) := by
        unfold solvedVerdict
        split
        · rename_i hnone
          rw [hnone]
          rfl
        · rename_i v hv
          rw [hv]
          rfl
      show Decided line (solvedVerdict U s index lines line)
      rw [hsolved]
      exact decided_solved hpack hnd hline (decided_lineVerdict hpack line)
  | false => exact decided_verdictOf hpack hnd hline

/-- **The run of the solver inside `build_report`** decides every line again, where it takes place. -/
theorem decided_solverStage (U : Unicode) (cfg : Config) (index : ReconIndex) (active : Bool)
    (solverResult : Option SolverResult) {verdict : BankCreditLine → RailAttribution}
    (hnd : (lines.map BankCreditLine.key).Nodup)
    (h : ∀ line ∈ lines, Decided line (verdict line)) :
    ∃ verdict', (solverStage U cfg lines index (lines.map verdict) active solverResult).1 = lines.map verdict' ∧
      ∀ line ∈ lines, Decided line (verdict' line) := by
  unfold solverStage
  split
  · exact ⟨verdict, rfl, h⟩
  · split
    · exact ⟨verdict, rfl, h⟩
    · split
      · exact ⟨verdict, rfl, h⟩
      · exact ⟨_, runGlobalSolver_map hnd fun line hline => (h line hline).key,
          fun line hline => decided_solved (plainPack_of_registered cfg.registered) hnd hline (h line hline)⟩

end Untangle
