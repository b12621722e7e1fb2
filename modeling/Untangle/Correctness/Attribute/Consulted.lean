import Untangle.Correctness.Attribute.SameReport

/-!
# `Correctness.Attribute.Consulted` — the credits that listen to the set-sum

The set-sum search speaks for a credit only when the credit has Razorpay evidence, none of it hard, and no
competing keyword (`Consulted`). For such a credit the decision is a function of its evidence and of the answer
of the search (`answerDecision`); for every other line the search might as well not run
(`lineDecision_unconsulted`).
-/

namespace Untangle

open Lib

/-! ## Razorpay with no rival -/

/-- The decision when Razorpay is the only rail that can have a score. -/
def aloneDecision (threshold : ℚ) (line : BankCreditLine) (ev : List EvidenceItem) (tier : Tier) : Decision :=
  if hasSignal rzpTieSignals ev = true ∧ 0 < combine ev then
    if combine ev < threshold then .settled (abstain line (combine ev) ev)
    else .candidate ev (combine ev) tier
  else .settled (abstain line 0 ev)

theorem railDecision_alone {threshold : ℚ} {line : BankCreditLine} {ev : List EvidenceItem}
    {nonRzp : Dict Rail (List EvidenceItem)} (hnone : nonRzp.items = []) (joined : Bool) :
    railDecision threshold line ev nonRzp joined joined =
      aloneDecision threshold line ev (if joined then .c else .b) := by
  have hscores : nonRzpScores nonRzp = [] := by
    unfold nonRzpScores
    rw [hnone, List.map_nil]
  have hgated : gatedRzpScore ev (decide (nonRzp.items ≠ [])) joined =
      if hasSignal rzpTieSignals ev = true then combine ev else 0 := by
    unfold gatedRzpScore
    rw [hnone]
    cases hasSignal rzpTieSignals ev <;> simp
  unfold railDecision railScores aloneDecision
  dsimp only
  rw [hscores, hgated]
  by_cases htie : hasSignal rzpTieSignals ev = true
  · rw [if_pos htie]
    by_cases hpos : 0 < combine ev
    · rw [if_pos hpos, if_pos (And.intro htie hpos)]
      have hbest : bestRail (putScore []
          ⟨Rail.razorpaySettlement.value, combine ev, ev, if joined then .c else .b⟩) =
            some ⟨Rail.razorpaySettlement.value, combine ev, ev, if joined then .c else .b⟩ := by
        unfold bestRail putScore
        exact List.argmax_singleton
      rw [hbest]
      dsimp only
      rw [if_pos rfl]
    · rw [if_neg hpos, if_neg (not_and.mpr fun _ => hpos)]
      rfl
  · rw [if_neg htie, if_neg (lt_irrefl 0), if_neg (not_and.mpr fun h => absurd h htie)]
    rfl

/-! ## Consulted credits -/

section Consulted

variable {U : Unicode} {pack : NarrationEvidencePack} {index : ReconIndex} {line : BankCreditLine}
  {threshold : ℚ}

/-- A credit whose verdict listens to the set-sum. -/
structure Consulted (U : Unicode) (pack : NarrationEvidencePack) (index : ReconIndex)
    (line : BankCreditLine) : Prop where
  isCredit : line.isCredit = true
  noHard : hasSignal hardRzpSignals (razorpaySignals U pack index line) = false
  noCompetitor : (narrationRailSignals U pack line).items = []
  evidence : razorpaySignals U pack index line ≠ []

theorem hasSignal_mono {signals signals' : List String} {items : List EvidenceItem}
    (hsub : signals ⊆ signals') (h : hasSignal signals items = true) : hasSignal signals' items = true := by
  obtain ⟨e, he, hsig⟩ := List.any_eq_true.mp h
  exact List.any_eq_true.mpr ⟨e, he, decide_eq_true (hsub (of_decide_eq_true hsig))⟩

theorem Consulted.noExact (h : Consulted U pack index line) :
    hasSignal ["utr_exact"] (razorpaySignals U pack index line) = false := by
  by_contra hexact
  have hhard : hasSignal hardRzpSignals (razorpaySignals U pack index line) = true :=
    hasSignal_mono (by decide) (Bool.of_not_eq_false hexact)
  rw [h.noHard] at hhard
  exact absurd hhard (by simp)

/-- What the answer of the search makes of the credit. -/
def answerDecision (threshold : ℚ) (line : BankCreditLine) (ev : List EvidenceItem) :
    SetsumAnswer → Decision
  | .nothing => aloneDecision threshold line ev .b
  | .unique sids => aloneDecision threshold line (ev ++ [setsumItem sids]) .c
  | .multiple n => .settled (abstain line 0 (ev ++ ((SetsumAnswer.multiple n).items line).getD []))

theorem applySetsum_answer {ev : List EvidenceItem} (hev : ev ≠ []) (ans : SetsumAnswer) :
    applySetsum ev false (ans.items line) =
      match ans with
      | .nothing => .scored ev false
      | .unique sids => .scored (ev ++ [setsumItem sids]) true
      | .multiple n => .abstained (ev ++ ((SetsumAnswer.multiple n).items line).getD []) := by
  cases ans with
  | nothing => rfl
  | unique sids =>
      unfold applySetsum SetsumAnswer.items
      dsimp only
      rw [if_neg (by simp [hasSignal, setsumItem]), if_neg (by simp [hasSignal, setsumItem]),
        if_pos ⟨hev, rfl⟩]
  | multiple n => rfl

theorem applySetsum_competing (ev : List EvidenceItem) (setsum : Option (List EvidenceItem)) :
    applySetsum ev true setsum = .scored ev false := by
  unfold applySetsum
  cases setsum with
  | none => rfl
  | some items => simp

/-- **A consulted credit** is decided by its evidence and the answer. -/
theorem lineDecision_consulted (h : Consulted U pack index line) {ans : SetsumAnswer}
    (hans : setsumEvidence index line = .ok (ans.items line)) :
    lineDecision U threshold pack index line =
      answerDecision threshold line (razorpaySignals U pack index line) ans := by
  have hof : setsumOf index line = ans.items line := by
    unfold setsumOf
    rw [hans]
  have hopen : decide ((narrationRailSignals U pack line).items ≠ []) = false := by
    rw [h.noCompetitor]
    rfl
  unfold lineDecision creditDecision
  rw [if_pos h.isCredit, if_neg (by rw [h.noExact]; simp), if_neg (by rw [h.noHard]; simp), hof, hopen,
    applySetsum_answer h.evidence]
  cases ans with
  | nothing => exact railDecision_alone h.noCompetitor false
  | unique sids => exact railDecision_alone h.noCompetitor true
  | multiple n => rfl

/-- The same decision, or two abstentions without a score. -/
def SameOutcome (line : BankCreditLine) (d d' : Decision) : Prop :=
  d = d' ∨ ∃ ev ev', d = .settled (abstain line 0 ev) ∧ d' = .settled (abstain line 0 ev')

theorem aloneDecision_of_no_tie {ev : List EvidenceItem} (h : hasSignal rzpTieSignals ev = false)
    (tier : Tier) : aloneDecision threshold line ev tier = .settled (abstain line 0 ev) := by
  unfold aloneDecision
  rw [if_neg (by rw [h]; simp)]

/-- **Any other line** comes to the same decision whatever the search finds. -/
theorem lineDecision_unconsulted {index' : ReconIndex} (hsame : SameReport index index')
    (h : ¬ Consulted U pack index line) :
    SameOutcome line (lineDecision U threshold pack index line)
      (lineDecision U threshold pack index' line) := by
  unfold lineDecision
  rw [← hsame.razorpaySignals]
  by_cases hcredit : line.isCredit = true
  swap
  · rw [if_neg hcredit, if_neg hcredit]
    exact Or.inl rfl
  rw [if_pos hcredit, if_pos hcredit]
  by_cases hexact : hasSignal ["utr_exact"] (razorpaySignals U pack index line) = true
  · unfold creditDecision
    rw [if_pos hexact, if_pos hexact]
    exact Or.inl rfl
  by_cases hhard : hasSignal hardRzpSignals (razorpaySignals U pack index line) = true
  · unfold creditDecision
    rw [if_neg hexact, if_neg hexact, if_pos hhard, if_pos hhard]
    exact Or.inl rfl
  by_cases hnone : (narrationRailSignals U pack line).items = []
  swap
  · unfold creditDecision
    rw [if_neg hexact, if_neg hexact, if_neg hhard, if_neg hhard, decide_eq_true hnone, applySetsum_competing,
      applySetsum_competing]
    exact Or.inl rfl
  -- without a competitor the evidence must be empty, and then nothing scores
  have hev : razorpaySignals U pack index line = [] := by
    by_contra hev
    exact h ⟨hcredit, Bool.eq_false_iff.mpr hhard, hnone, hev⟩
  have hopen : decide ((narrationRailSignals U pack line).items ≠ []) = false := by
    rw [hnone]
    rfl
  have hempty : ∀ index, ∃ ev, creditDecision threshold index line [] (narrationRailSignals U pack line) =
      .settled (abstain line 0 ev) := by
    intro index
    have hcases : (∃ ev, applySetsum [] false (setsumOf index line) = .abstained ev) ∨
        applySetsum [] false (setsumOf index line) = .scored [] false := by
      unfold applySetsum
      cases setsumOf index line with
      | none => exact Or.inr rfl
      | some items =>
          dsimp only
          split
          · exact Or.inl ⟨_, rfl⟩
          · split
            · exact Or.inl ⟨_, rfl⟩
            · exact Or.inr rfl
    unfold creditDecision
    rw [show hasSignal ["utr_exact"] [] = false from rfl, show hasSignal hardRzpSignals [] = false from rfl,
      if_neg Bool.false_ne_true, if_neg Bool.false_ne_true, hopen]
    rcases hcases with ⟨ev, hev⟩ | hscored
    · rw [hev]
      exact ⟨ev, rfl⟩
    · rw [hscored]
      exact ⟨[], (railDecision_alone hnone false).trans (aloneDecision_of_no_tie rfl _)⟩
  rw [hev]
  obtain ⟨ev, h1⟩ := hempty index
  obtain ⟨ev', h2⟩ := hempty index'
  exact Or.inr ⟨ev, ev', h1, h2⟩

/-! ## Scores -/

/-- The score a decision carries, whether it is accepted or not. -/
theorem confidence_finish_alone (s : Settings) {nonRzp : Dict Rail (List EvidenceItem)}
    {ev : List EvidenceItem} {tier : Tier} (htie : hasSignal rzpTieSignals ev = true)
    (hpos : 0 < combine ev) :
    ((aloneDecision s.threshold line ev tier).finish s line nonRzp).confidence = combine ev := by
  unfold aloneDecision
  rw [if_pos (And.intro htie hpos)]
  split
  · rfl
  · show (finalizeRazorpay s line ev nonRzp (combine ev) tier).confidence = combine ev
    by_cases hsurvives : Survives s.marginThreshold ev nonRzp (combine ev)
    · exact (finalize_accepted _ _ hsurvives).confidence
    · exact (finalize_demoted _ _ hsurvives).2

/-- A set-sum is a tie, and worth at least 0.55. -/
theorem setsum_score (ev : List EvidenceItem) (sids : List String) :
    hasSignal rzpTieSignals (ev ++ [setsumItem sids]) = true ∧
      11 / 20 ≤ combine (ev ++ [setsumItem sids]) := by
  have hmem : setsumItem sids ∈ ev ++ [setsumItem sids] :=
    List.mem_append_right _ (List.mem_singleton.mpr rfl)
  have hname : decide ("setsum" ∈ rzpTieSignals) = true := by decide
  refine ⟨List.any_eq_true.mpr ⟨_, hmem, hname⟩, ?_⟩
  have hle := le_combine hmem
  rw [show (setsumItem sids).weight = 11 / 20 from rfl, clip_of_mem (by norm_num) (by norm_num)] at hle
  exact (by norm_num : (11 / 20 : ℚ) ≤ min (49 / 50) (11 / 20)).trans hle

end Consulted

end Untangle
