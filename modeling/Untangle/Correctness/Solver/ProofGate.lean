import Untangle.Correctness.Attribute.ProofGate
import Untangle.Correctness.Attribute.Threshold
import Untangle.Correctness.Solver.Consistent

/-!
# `Correctness.Solver.ProofGate` — no Razorpay verdict without a proof

The proof gate of the whole deterministic pipeline: the baseline hands its evidence on as it is, and the solver
takes the evidence of a candidate or writes a split item of its own. For a pack without keywords for Razorpay
itself, every Razorpay attribution of either is backed by the report (`proof_gate`).
-/

namespace Untangle

open Lib

variable {U : Unicode} {s : Settings} {index : ReconIndex} {gs : GraphSettings} {margin : ℚ}
  {rows : List ReconRow} {lines : List BankCreditLine}

/-- Every Razorpay attribution is that of a line, and backed by the report. -/
def AllBacked (U : Unicode) (rows : List ReconRow) (lines : List BankCreditLine) (out : List RailAttribution) :
    Prop :=
  ∀ a ∈ out, a.rail = Rail.razorpaySettlement.value →
    ∃ line ∈ lines, line.key = a.lineKey ∧ ReportBacked U rows lines line a

/-- A Razorpay rail is a verdict: what abstains is UNKNOWN. -/
theorem isRazorpay_of_lineVerdict {line : BankCreditLine}
    (h : (lineVerdict U s index line).rail = Rail.razorpaySettlement.value) :
    IsRazorpay (lineVerdict U s index line) := by
  refine ⟨h, Bool.eq_false_iff.mpr fun habs => ?_⟩
  rw [(lineVerdict_isUnknown habs).1] at h
  exact absurd h (by decide)

theorem isRazorpay_of_verdictOf (hnd : (lines.map BankCreditLine.key).Nodup) {line : BankCreditLine}
    (hline : line ∈ lines) (h : (verdictOf U s index lines line).rail = Rail.razorpaySettlement.value) :
    IsRazorpay (verdictOf U s index lines line) := by
  by_cases hlifted : IsLifted U s index lines line
  · by_cases hmargin : s.marginThreshold ≤ splitConfidence
    · exact hlifted.isRazorpay hnd hline hmargin
    · rw [(hlifted.isUnknown hnd hline (not_le.mp hmargin)).1] at h
      exact absurd h (by decide)
  · rw [verdictOf_of_not_lifted hnd hlifted] at h ⊢
    exact isRazorpay_of_lineVerdict h

/-! ## The solver -/

theorem lineKey_solvedAttribution (key : String) (v : CreditAssignmentVerdict) (orig : Option RailAttribution) :
    (solvedAttribution key v orig).lineKey = key := by
  unfold solvedAttribution
  dsimp only
  split
  · split <;> rfl
  · split
    · split <;> rfl
    · rfl

/-- The evidence of a verdict for Razorpay, by the candidate it is based on. -/
theorem solvedAttribution_razorpay {key : String} {v : CreditAssignmentVerdict} {orig : Option RailAttribution}
    (h : (solvedAttribution key v orig).rail = Rail.razorpaySettlement.value) :
    v.abstained = false ∧ v.rail = Rail.razorpaySettlement.value ∧
      (solvedAttribution key v orig).evidence =
        if v.coveredSplitKeys ≠ [] then [splitLegItem v.coveredSplitKeys.length v.targetId]
        else if v.evidence ≠ [] then v.evidence else (orig.map RailAttribution.evidence).getD [] := by
  unfold solvedAttribution at h ⊢
  dsimp only at h ⊢
  split at h
  · split at h <;> exact absurd h (by simp [Rail.value])
  · rename_i hopen
    rw [if_neg hopen]
    split at h
    · rename_i hrail
      rw [if_pos hrail]
      refine ⟨Bool.eq_false_iff.mpr hopen, hrail, ?_⟩
      split <;> rfl
    · rename_i hrail
      exact absurd h hrail

/-- **A Razorpay verdict of the solver is backed by the report.** -/
theorem solved_backed (hpack : KeywordFree gs.pack) (hnd : (lines.map BankCreditLine.key).Nodup)
    {line : BankCreditLine} (hline : line ∈ lines) {maxSteps : ℤ} {v : CreditAssignmentVerdict}
    (hv : (solveAssignment U (buildCandidateGraph U gs (ReconIndex.ofRows U rows) lines) margin maxSteps).verdicts.get?
      line.key = some v) {orig : Option RailAttribution}
    (h : (solvedAttribution line.key v orig).rail = Rail.razorpaySettlement.value) :
    ReportBacked U rows lines line (solvedAttribution line.key v orig) := by
  have hg := buildCandidateGraph_wellFormed U gs (ReconIndex.ofRows U rows) lines
  have hverdict := (get?_verdicts.mp hv).2
  subst hverdict
  obtain ⟨hopen, hrail, hevidence⟩ := solvedAttribution_razorpay h
  obtain ⟨_, c, hc, hnot, hcrail, _, hcevidence, hcovered⟩ := creditVerdict_open hopen
  obtain ⟨hchosen, hkey⟩ := chosenByCredit_get? hc
  have hmem := (solveInv_solveAll hg margin maxSteps).settled.mem c hchosen
  have hown : ∀ {ln : BankCreditLine}, ln ∈ lines → c.creditKeys = [ln.key] → ln = line := by
    intro ln hln hkeys
    rw [hkeys, List.mem_singleton] at hkey
    exact line_ext hnd hln hline hkey.symm
  cases (mem_graphCandidates hmem).1 with
  | sink ln _ _ heq =>
      rw [heq, isAbstention_of_target rfl] at hnot
      exact absurd hnot (by simp)
  | rail ln _ _ hrailc =>
      obtain ⟨p, hp, _, hname, _⟩ := hrailc.named
      have hr := Rail.value_injective (hname.symm.trans (hcrail.symm.trans hrail))
      exact absurd (hr ▸ rail_of_keyword hp) hpack
  | settlement ln hln hcredit hset =>
      have heq := hown hln hset.keys
      subst heq
      -- a single candidate brings the signals of the line
      have hnocover : (verdictOn U (buildCandidateGraph U gs (ReconIndex.ofRows U rows) lines) margin maxSteps
          ln.key).coveredSplitKeys = [] := by
        rw [show (verdictOn U _ margin maxSteps ln.key).coveredSplitKeys = _ from hcovered, hset.single]
        simp
      have hsignals : (verdictOn U (buildCandidateGraph U gs (ReconIndex.ofRows U rows) lines) margin maxSteps
          ln.key).evidence = razorpaySignals U gs.pack (ReconIndex.ofRows U rows) ln := hcevidence.trans hset.evidence
      have hne : razorpaySignals U gs.pack (ReconIndex.ofRows U rows) ln ≠ [] := by
        intro hnil
        have htied := hset.tied
        rw [hnil] at htied
        exact absurd htied (by simp [hasSignal])
      rw [hnocover, hsignals, if_neg (not_not.mpr rfl), if_pos hne] at hevidence
      unfold isGraphCredit at hcredit
      rw [Bool.and_eq_true] at hcredit
      refine RazorpayOrigin.backed hpack ?_ lines
      rw [hevidence]
      exact .tied hcredit.1 hset.tied
  | split sid net date sub hsplit heq _ =>
      have hperm := splitCandidate_keys_perm U gs (ReconIndex.ofRows U rows)
        (signalsByKey U gs (ReconIndex.ofRows U rows) lines) sid net sub
      have hcover : (verdictOn U (buildCandidateGraph U gs (ReconIndex.ofRows U rows) lines) margin maxSteps
          line.key).coveredSplitKeys ≠ [] := by
        have hof : c.rail = Rail.razorpaySettlement.value ∧ c.isSplit = true := by
          rw [heq]
          exact ⟨rfl, rfl⟩
        rw [show (verdictOn U _ margin maxSteps line.key).coveredSplitKeys = _ from hcovered, if_pos hof]
        exact List.ne_nil_of_mem hkey
      rw [if_pos hcover] at hevidence
      rw [heq, hperm.mem_iff] at hkey
      obtain ⟨leg, hleg, hlegkey⟩ := List.mem_map.mp hkey
      obtain ⟨htwo, hthree, hsum⟩ := (mem_allSumSubsets hsplit.found).2
      have hpayable := mem_splitSettlements.mp hsplit.payable
      have hlegs : SplitLegs (ReconIndex.ofRows U rows) lines sid sub := by
        refine ⟨hsplit.sublist, ⟨htwo, hthree⟩, fun leg hleg => ?_, net, date, hpayable.netIs, hpayable.dated, hsum,
          fun leg hleg => (hsplit.eligible hleg).2.2⟩
        have hcredit := isGraphCredit_of_isSplitSource (mem_splitLines (hsplit.eligible hleg).1).2.1
        unfold isGraphCredit at hcredit
        exact (Bool.and_eq_true_iff.mp hcredit).1
      have hin : line ∈ sub := line_ext hnd (hsplit.sublist.subset hleg) hline hlegkey ▸ hleg
      exact backed_of_split hlegs hin hevidence rfl

/-! ## The pipeline -/

theorem attributeAllSolved_eq (U : Unicode) (s : Settings) (index : ReconIndex) (lines : List BankCreditLine) :
    attributeAllSolved U s index lines = .ok (runGlobalSolver U { threshold := some s.threshold, pack := s.pack }
      s.marginThreshold index lines (lines.map (lineVerdict U s index))).1 := by
  unfold attributeAllSolved
  rw [mapM_eq_ok_map fun line _ => attributeLine_eq U s index line]
  rfl

/-- What the solver returns for a line: an attribution by its verdict, or the line's own. -/
theorem mem_runGlobalSolver {a : RailAttribution} (hnd : (lines.map BankCreditLine.key).Nodup)
    (h : a ∈ (runGlobalSolver U gs margin index lines (lines.map (lineVerdict U s index))).1) :
    ∃ line ∈ lines, a = lineVerdict U s index line ∨
      ∃ v orig, (solveAssignment U (buildCandidateGraph U gs index lines) margin maxBranchSteps).verdicts.get?
          line.key = some v ∧ a = solvedAttribution line.key v orig := by
  unfold runGlobalSolver at h
  dsimp only at h
  obtain ⟨line, hline, hsome⟩ := List.mem_filterMap.mp h
  refine ⟨line, hline, ?_⟩
  split at hsome
  · rw [Dict.get?_gather_last] at hsome
    obtain ⟨a', ha', rfl⟩ := Option.map_eq_some_iff.mp hsome
    obtain ⟨hmem, hkey⟩ := List.mem_filter.mp (List.mem_of_getLast? ha')
    obtain ⟨ln, hln, rfl⟩ := List.mem_map.mp hmem
    rw [decide_eq_true_eq, Option.some.injEq, lineKey_lineVerdict] at hkey
    rw [line_ext hnd hln hline hkey]
    exact Or.inl rfl
  · rename_i v hv
    exact Or.inr ⟨v, _, hv, (Option.some.inj hsome).symm⟩

/-- **The proof gate**: with the solver off or on, every Razorpay attribution belongs to a credit, carries a
    report-backed tie, and each of its ties is borne out by the report. -/
theorem proof_gate (U : Unicode) (s : Settings) (rows : List ReconRow) (lines : List BankCreditLine)
    (hnd : (lines.map BankCreditLine.key).Nodup) (hpack : KeywordFree s.pack) :
    (∃ out, attributeAll U s (ReconIndex.ofRows U rows) lines = .ok out ∧ AllBacked U rows lines out) ∧
      ∃ out, attributeAllSolved U s (ReconIndex.ofRows U rows) lines = .ok out ∧ AllBacked U rows lines out := by
  refine ⟨⟨_, attributeAll_eq U s _ lines, ?_⟩, ⟨_, attributeAllSolved_eq U s _ lines, ?_⟩⟩
  · intro a ha hrail
    obtain ⟨line, hline, rfl⟩ := List.mem_map.mp ha
    exact ⟨line, hline, (lineKey_verdictOf line).symm,
      verdictOf_backed hpack hnd hline (isRazorpay_of_verdictOf hnd hline hrail)⟩
  · intro a ha hrail
    obtain ⟨line, hline, hown | ⟨v, orig, hv, hsolved⟩⟩ := mem_runGlobalSolver hnd ha
    · subst hown
      exact ⟨line, hline, (lineKey_lineVerdict U s _ line).symm,
        (lineVerdict_origin (isRazorpay_of_lineVerdict hrail)).backed hpack lines⟩
    · subst hsolved
      exact ⟨line, hline, (lineKey_solvedAttribution line.key v orig).symm, solved_backed hpack hnd hline hv hrail⟩

/-- The gate on a credit with an exact UTR. -/
theorem proof_gate_exactUtr :
    (exactUtrLines.map BankCreditLine.key).Nodup ∧ KeywordFree defaultNarrationPack ∧
      (∃ out, attributeAll asciiUnicode ⟨99 / 100, 0, false, defaultNarrationPack⟩
        (ReconIndex.ofRows asciiUnicode exactUtrReport) exactUtrLines = .ok out ∧
          AllBacked asciiUnicode exactUtrReport exactUtrLines out) ∧
      ∃ out, attributeAllSolved asciiUnicode ⟨99 / 100, 0, false, defaultNarrationPack⟩
        (ReconIndex.ofRows asciiUnicode exactUtrReport) exactUtrLines = .ok out ∧
          AllBacked asciiUnicode exactUtrReport exactUtrLines out :=
  have hnd : (exactUtrLines.map BankCreditLine.key).Nodup := by decide
  ⟨hnd, keywordFree_default, proof_gate asciiUnicode ⟨99 / 100, 0, false, defaultNarrationPack⟩ exactUtrReport
    exactUtrLines hnd keywordFree_default⟩

/-! ### Where the gate needs its conditions -/

def keywordDebit : BankCreditLine := { creditLine "k" "x" 100 with isCredit := false }

def pairCredit : BankCreditLine := creditLine "a" "NEFT RATN0000088" 4311

/-- Two settlements that sum to the amount of the credit, and six more that do. -/
def sixReport : List ReconRow :=
  [("S1", 1400), ("S2", 2911), ("S3", 701), ("S4", 708), ("S5", 715), ("S6", 722), ("S7", 729), ("S8", 736)].map
    fun p => settledRow ("pay_" ++ p.1) p.1 none p.2

/-- **A keyword for Razorpay itself books a debit, and a set-sum of six is never examined**: the credit is booked
    to the pair S1, S2 though the other six settlements of its window sum to its amount as well. -/
theorem proof_gate_fails :
    ((attributeAll asciiUnicode ⟨1 / 2, 0, false, keywordPack .razorpaySettlement⟩ (ReconIndex.ofRows asciiUnicode [])
        [keywordDebit]).map fun out => out.map fun a => (a.lineKey, a.rail)) = .ok [("k", "razorpay_settlement")] ∧
      keywordDebit.isCredit = false ∧
      ((attributeAll asciiUnicode ⟨1 / 2, 0, false, defaultNarrationPack⟩ (ReconIndex.ofRows asciiUnicode sixReport)
        [pairCredit]).map fun out => out.map fun a => (a.rail, a.evidence.filter fun e => e.signal = "setsum")) =
          .ok [("razorpay_settlement", [setsumItem ["S1", "S2"]])] ∧
      (["S3", "S4", "S5", "S6", "S7", "S8"].all fun sid =>
        inSetsumWindow (ReconIndex.ofRows asciiUnicode sixReport) pairCredit sid) = true ∧
      (["S3", "S4", "S5", "S6", "S7", "S8"].map fun sid =>
        ((ReconIndex.ofRows asciiUnicode sixReport).settlementNet.get? sid).getD 0).sum = pairCredit.amountPaise := by
  refine ⟨?_, rfl, ?_, ?_, ?_⟩
  all_goals decide +kernel

end Untangle
