import Untangle.Correctness.Attribute.Consulted

/-!
# `Correctness.Attribute.Sensitive` — the credits whose verdict hangs on the order of the report

A doubled tuple is met by the amount-indexed search only when the settlement that counts twice stands before its
partner in the settlement dictionary, that is in the report. `OrderSensitive` are the credits whose verdict
hangs on that; where no line is order sensitive every verdict is the same over the lines and the recon rows in
any order (`verdictOf_same`).
-/

namespace Untangle

open Lib

/-! ## The pool in another order -/

/-- Two settlements of which the one with the larger id, counted twice, completes the amount with the other. -/
def Doubling (cands : List Item) (target : ℤ) (x y : Item) : Prop :=
  x ∈ cands ∧ y ∈ cands ∧ y.1 < x.1 ∧ 2 * x.2 + y.2 = target

section Pool

variable {cands cands' : List Item} {target : ℤ}

theorem DoubledPair.doubling {x y : Item} (h : DoubledPair cands target x y) :
    Doubling cands target x y := ⟨h.1.subset (by simp), h.1.subset (by simp), h.2.1, h.2.2⟩

theorem Doubling.perm (hperm : cands.Perm cands') {x y : Item} (h : Doubling cands target x y) :
    Doubling cands' target x y := ⟨hperm.mem_iff.mp h.1, hperm.mem_iff.mp h.2.1, h.2.2⟩

theorem ValidPool.perm (hv : ValidPool cands target) (hperm : cands.Perm cands') :
    ValidPool cands' target where
  nodup := (hperm.map _).nodup_iff.mp hv.nodup
  pos item hitem := hv.pos item (hperm.mem_iff.mpr hitem)
  lt item hitem := hv.lt item (hperm.mem_iff.mpr hitem)

/-- Where nothing can be doubled the search finds the sums, -/
theorem legacySets_of_no_doubled (hv : ValidPool cands target)
    (hno : ∀ x y, ¬ DoubledPair cands target x y) : legacySets cands target = genuineSets cands target := by
  ext s
  rw [mem_legacySets hv.items]
  exact or_iff_left fun h => by
    obtain ⟨x, y, hxy, _⟩ := h
    exact hno x y hxy

/-- so the order of such a pool does not matter. -/
theorem foundSets_perm (hv : ValidPool cands target) (hperm : cands.Perm cands')
    (hquiet : cands.length ≤ setsumExpansionMaxCandidates ∨ ∀ x y, ¬ Doubling cands target x y) :
    foundSets cands target = foundSets cands' target := by
  unfold foundSets
  rw [← hperm.length_eq]
  by_cases hsmall : cands.length ≤ setsumExpansionMaxCandidates
  · rw [if_pos hsmall, if_pos hsmall]
    exact sumSets_perm hv.items hperm 2 5
  · have hno := hquiet.resolve_left hsmall
    rw [if_neg hsmall, if_neg hsmall, legacySets_of_no_doubled hv fun x y h => hno x y h.doubling,
      legacySets_of_no_doubled (hv.perm hperm) fun x y h => hno x y (h.doubling.perm hperm.symm)]
    exact genuineSets_perm hv.items hperm

theorem genuineSets_subset (hv : ValidPool cands target) (hlarge : setsumExpansionMaxCandidates < cands.length) :
    genuineSets cands target ⊆ foundSets cands target := by
  unfold foundSets
  rw [if_neg (not_le.mpr hlarge)]
  intro s hs
  exact (mem_legacySets hv.items).mpr (Or.inl hs)

end Pool

/-! ## The answers over the same report -/

section Answers

variable {U : Unicode} {pack : NarrationEvidencePack} {index index' : ReconIndex} {line : BankCreditLine}
  {threshold : ℚ} {ans ans' : SetsumAnswer}

theorem SameReport.setsumPool (h : SameReport index index') (line : BankCreditLine) :
    (setsumPool index line).Perm (setsumPool index' line) := by
  have hwindow : inSetsumWindow index line = inSetsumWindow index' line :=
    funext fun sid => h.datedWithin setsumDateWindowDays sid line.valueDate
  unfold Untangle.setsumPool
  rw [hwindow]
  exact h.nets.filter _

theorem SameReport.setsumSingles (h : SameReport index index') (line : BankCreditLine) :
    (setsumSingles index line).Perm (setsumSingles index' line) := by
  have hwindow : inSetsumWindow index line = inSetsumWindow index' line :=
    funext fun sid => h.datedWithin setsumDateWindowDays sid line.valueDate
  have hlists : ((index.netToSettlements.get? line.amountPaise).getD []).Perm
      ((index'.netToSettlements.get? line.amountPaise).getD []) := by
    have hrel := h.singles line.amountPaise
    revert hrel
    generalize index.netToSettlements.get? line.amountPaise = o
    generalize index'.netToSettlements.get? line.amountPaise = o'
    intro hrel
    cases hrel with
    | none => exact List.Perm.refl _
    | some hperm => exact hperm
  unfold Untangle.setsumSingles
  rw [hwindow]
  exact hlists.filter _

theorem SameReport.searched (h : SameReport index index') (hs : Searched index line) :
    Searched index' line := by
  have hperm := h.setsumPool line
  refine ⟨hs.1, fun hnil => hs.2.1 ?_, hperm.length_eq ▸ hs.2.2⟩
  rw [hnil] at hperm
  exact List.perm_nil.mp hperm

theorem SetsumSpec.eq_nothing (hspec : SetsumSpec index line ans) (hs : ¬ Searched index line) :
    ans = .nothing := by
  cases hspec with
  | unsearched _ => rfl
  | none h _ => exact absurd h hs
  | single h _ _ => exact absurd h hs
  | unique h _ _ _ _ _ => exact absurd h hs
  | multiple h _ => exact absurd h hs

theorem SetsumSpec.eq_nothing_of_count (hspec : SetsumSpec index line ans)
    (hcount : satisfyingCount index line = 0 ∨
      satisfyingCount index line = 1 ∧ (setsumSingles index line).length = 1) : ans = .nothing := by
  cases hspec with
  | unsearched _ => rfl
  | none _ _ => rfl
  | single _ _ _ => rfl
  | unique _ hnil hone _ _ _ =>
      rw [hnil, List.length_nil] at hcount
      omega
  | multiple _ htwo => omega

theorem SetsumSpec.exists_unique (hspec : SetsumSpec index line ans) (hs : Searched index line)
    (hone : satisfyingCount index line = 1) (hnil : setsumSingles index line = []) :
    ∃ sids, ans = .unique sids := by
  cases hspec with
  | unsearched h => exact absurd hs h
  | none _ hzero => omega
  | single _ hsingle _ =>
      rw [hnil, List.length_nil] at hsingle
      omega
  | unique _ _ _ subset _ _ => exact ⟨_, rfl⟩
  | multiple _ htwo => omega

theorem SetsumSpec.exists_multiple (hspec : SetsumSpec index line ans) (hs : Searched index line)
    (htwo : 2 ≤ satisfyingCount index line) : ∃ n, ans = .multiple n := by
  cases hspec with
  | unsearched h => exact absurd hs h
  | none _ hzero => omega
  | single _ _ hone => omega
  | unique _ _ hone _ _ _ => omega
  | multiple _ _ => exact ⟨_, rfl⟩

/-- A sound tuple is free of repetitions where nothing can be doubled. -/
theorem nodup_of_tupleSound {cands : List Item} {target : ℤ} {t : List String}
    (h : TupleSound cands target t)
    (hquiet : cands.length ≤ setsumExpansionMaxCandidates ∨ ∀ x y, ¬ Doubling cands target x y) :
    t.Nodup := by
  rcases h with ⟨hnd, _, _⟩ | ⟨hlarge, x, y, hxy, _⟩
  · exact hnd
  · rcases hquiet with hsmall | hno
    · exact absurd hlarge (not_lt.mpr hsmall)
    · exact absurd hxy.doubling (hno x y)

/-- **Where nothing can be doubled the answer is the report's**, whatever its order. -/
theorem SetsumSpec.same (hsame : SameReport index index') (hspec : SetsumSpec index line ans)
    (hspec' : SetsumSpec index' line ans')
    (hquiet : (setsumPool index line).length ≤ setsumExpansionMaxCandidates ∨
      ∀ x y, ¬ Doubling (setsumPool index line) line.amountPaise x y) : ans = ans' := by
  have hperm := hsame.setsumPool line
  have hfound := foundSets_perm validPool_setsumPool hperm hquiet
  have hsingles := (hsame.setsumSingles line).length_eq
  have hcount : satisfyingCount index line = satisfyingCount index' line := by
    unfold satisfyingCount
    rw [hsingles, hfound]
  have hquiet' : (setsumPool index' line).length ≤ setsumExpansionMaxCandidates ∨
      ∀ x y, ¬ Doubling (setsumPool index' line) line.amountPaise x y :=
    hquiet.imp (fun h => hperm.length_eq ▸ h) fun h x y hxy => h x y (hxy.perm hperm.symm)
  cases hspec with
  | unsearched h => exact (hspec'.eq_nothing fun h' => h (hsame.symm.searched h')).symm
  | none h hzero => exact (hspec'.eq_nothing_of_count (Or.inl (hcount ▸ hzero))).symm
  | single h hsingle hone =>
      exact (hspec'.eq_nothing_of_count (Or.inr ⟨hcount ▸ hone, hsingles ▸ hsingle⟩)).symm
  | multiple h htwo =>
      cases hspec' with
      | unsearched h' => exact absurd (hsame.searched h) h'
      | none _ hzero => omega
      | single _ _ hone => omega
      | unique _ _ hone _ _ _ => omega
      | multiple _ _ => rw [hcount]
  | unique h hnil hone subset hset hsound =>
      cases hspec' with
      | unsearched h' => exact absurd (hsame.searched h) h'
      | none _ hzero => omega
      | single _ hsingle _ =>
          rw [← hsingles, hnil, List.length_nil] at hsingle
          omega
      | unique _ _ _ subset' hset' hsound' =>
          rw [hset, hset', Finset.singleton_inj] at hfound
          have hsub : subset.Perm subset' := List.perm_of_nodup_nodup_toFinset_eq
            (nodup_of_tupleSound hsound hquiet) (nodup_of_tupleSound hsound' hquiet') hfound
          have hsorted := List.Perm.eq_of_pairwise'
            (List.pairwise_insertionSort (· ≤ ·) subset) (List.pairwise_insertionSort (· ≤ ·) subset')
            (((List.perm_insertionSort (· ≤ ·) subset).trans hsub).trans
              (List.perm_insertionSort (· ≤ ·) subset').symm)
          rw [hsorted]
      | multiple _ htwo => omega

end Answers

/-! ## Order-sensitive credits -/

section Sensitive

variable {U : Unicode} {pack : NarrationEvidencePack} {index index' : ReconIndex} {line : BankCreditLine}
  {threshold : ℚ}

/-- A credit whose verdict hangs on the order of the report: it listens to the search, its pool is of the size
    that goes to the amount-indexed search, some pair can be doubled there, and the doubled tuple would be the
    first or the second satisfying set (or the second beside the unique net that makes the amount tie). -/
structure OrderSensitive (U : Unicode) (pack : NarrationEvidencePack) (index : ReconIndex)
    (line : BankCreditLine) : Prop where
  consulted : Consulted U pack index line
  large : setsumExpansionMaxCandidates < (setsumPool index line).length
  bounded : (setsumPool index line).length ≤ setsumMaxCandidates
  doubling : ∃ x y, Doubling (setsumPool index line) line.amountPaise x y
  undecided : (setsumSingles index line = [] ∧
      (genuineSets (setsumPool index line) line.amountPaise).card ≤ 1) ∨
    ((setsumSingles index line).length = 1 ∧ genuineSets (setsumPool index line) line.amountPaise = ∅ ∧
      hasSignal ["amount_corr"] (razorpaySignals U pack index line) = true)

/-- The ties are the hard signals and the unique net. -/
theorem hasSignal_ties (items : List EvidenceItem) :
    hasSignal rzpTieSignals items = (hasSignal hardRzpSignals items || hasSignal ["amount_corr"] items) := by
  unfold hasSignal
  induction items with
  | nil => rfl
  | cons e items ih =>
      rw [List.any_cons, List.any_cons, List.any_cons, ih]
      have hhead : decide (e.signal ∈ rzpTieSignals) =
          (decide (e.signal ∈ hardRzpSignals) || decide (e.signal ∈ ["amount_corr"])) := by
        rw [← Bool.decide_or, decide_eq_decide]
        simp [rzpTieSignals, hardRzpSignals, or_assoc]
      rw [hhead]
      cases decide (e.signal ∈ hardRzpSignals) <;> cases decide (e.signal ∈ ["amount_corr"]) <;> simp

theorem Consulted.same (hsame : SameReport index index') (h : Consulted U pack index line) :
    Consulted U pack index' line := by
  have hsignals := hsame.razorpaySignals U pack line
  exact ⟨h.isCredit, hsignals ▸ h.noHard, h.noCompetitor, hsignals ▸ h.evidence⟩

theorem two_le_satisfyingCount (hlarge : setsumExpansionMaxCandidates < (setsumPool index line).length)
    (h : 2 ≤ (setsumSingles index line).length +
      (genuineSets (setsumPool index line) line.amountPaise).card) : 2 ≤ satisfyingCount index line := by
  have hle := Finset.card_le_card (genuineSets_subset validPool_setsumPool hlarge)
  unfold satisfyingCount
  omega

/-- Without a tie of its own a credit abstains at zero, unless the search finds a set. -/
theorem answerDecision_of_no_tie (threshold : ℚ) (line : BankCreditLine) {ev : List EvidenceItem} (htie : hasSignal rzpTieSignals ev = false)
    {ans : SetsumAnswer} (hans : ∀ sids, ans ≠ .unique sids) :
    ∃ ev', answerDecision threshold line ev ans = .settled (abstain line 0 ev') := by
  cases ans with
  | nothing => exact ⟨ev, aloneDecision_of_no_tie htie _⟩
  | unique sids => exact absurd rfl (hans sids)
  | multiple n => exact ⟨_, rfl⟩

/-- **A line that is not order sensitive** comes to the same outcome over the same report. -/
theorem lineDecision_same (hsame : SameReport index index') (h : ¬ OrderSensitive U pack index line) :
    SameOutcome line (lineDecision U threshold pack index line)
      (lineDecision U threshold pack index' line) := by
  by_cases hconsulted : Consulted U pack index line
  swap
  · exact lineDecision_unconsulted hsame hconsulted
  have hconsulted' := hconsulted.same hsame
  obtain ⟨ans, hans, hspec⟩ := setsumEvidence_spec index line
  obtain ⟨ans', hans', hspec'⟩ := setsumEvidence_spec index' line
  rw [lineDecision_consulted hconsulted hans, lineDecision_consulted hconsulted' hans',
    ← hsame.razorpaySignals]
  by_cases hquiet : (setsumPool index line).length ≤ setsumExpansionMaxCandidates ∨
      ∀ x y, ¬ Doubling (setsumPool index line) line.amountPaise x y
  · exact Or.inl (by rw [hspec.same hsame hspec' hquiet])
  rw [not_or, not_le] at hquiet
  obtain ⟨hlarge, hdoubling⟩ := hquiet
  simp only [not_forall, not_not] at hdoubling
  by_cases hs : Searched index line
  swap
  · rw [hspec.eq_nothing hs, hspec'.eq_nothing fun hs' => hs (hsame.symm.searched hs')]
    exact Or.inl rfl
  have hperm := hsame.setsumPool line
  have hsingles := (hsame.setsumSingles line).length_eq
  have hgenuine : genuineSets (setsumPool index line) line.amountPaise =
      genuineSets (setsumPool index' line) line.amountPaise :=
    genuineSets_perm validPool_setsumPool.items hperm
  have hundecided := not_imp_not.mpr (fun hu => OrderSensitive.mk hconsulted hlarge hs.2.2 hdoubling hu) h
  by_cases htwo : 2 ≤ (setsumSingles index line).length +
      (genuineSets (setsumPool index line) line.amountPaise).card
  · obtain ⟨n, rfl⟩ := hspec.exists_multiple hs (two_le_satisfyingCount hlarge htwo)
    obtain ⟨n', rfl⟩ := hspec'.exists_multiple (hsame.searched hs) (two_le_satisfyingCount
      (hperm.length_eq ▸ hlarge) (by rw [← hsingles, ← hgenuine]; exact htwo))
    exact Or.inr ⟨_, _, rfl, rfl⟩
  -- a single that no unique net backs: nothing and a second set both abstain at zero
  rw [not_or, not_and, not_and] at hundecided
  have hsingle : (setsumSingles index line).length = 1 := by
    by_contra hne
    have hnil : setsumSingles index line = [] := List.length_eq_zero_iff.mp (by omega)
    exact hundecided.1 hnil (by omega)
  have hempty : genuineSets (setsumPool index line) line.amountPaise = ∅ :=
    Finset.card_eq_zero.mp (by omega)
  have hcorr := hundecided.2 hsingle
  rw [not_and] at hcorr
  have htie : hasSignal rzpTieSignals (razorpaySignals U pack index line) = false := by
    rw [hasSignal_ties, hconsulted.noHard, Bool.false_or]
    exact Bool.eq_false_iff.mpr (hcorr hempty)
  have hnotunique : ∀ {index : ReconIndex} {ans : SetsumAnswer},
      (setsumSingles index line).length = 1 → SetsumSpec index line ans → ∀ sids, ans ≠ .unique sids := by
    intro index ans hone hspec sids heq
    cases hspec with
    | unsearched _ => exact absurd heq (by simp)
    | none _ _ => exact absurd heq (by simp)
    | single _ _ _ => exact absurd heq (by simp)
    | multiple _ _ => exact absurd heq (by simp)
    | unique _ hnil _ _ _ _ =>
        rw [hnil, List.length_nil] at hone
        omega
  obtain ⟨ev, hev⟩ := answerDecision_of_no_tie threshold line htie
    (hnotunique hsingle hspec)
  obtain ⟨ev', hev'⟩ := answerDecision_of_no_tie threshold line htie
    (hnotunique (hsingles ▸ hsingle) hspec')
  exact Or.inr ⟨ev, ev', hev, hev'⟩

end Sensitive

/-! ## All lines -/

/-- What a caller reads of an attribution: key, rail, tier, confidence, abstained. -/
def RailAttribution.verdict (a : RailAttribution) : String × String × String × ℚ × Bool :=
  (a.lineKey, a.rail, a.tier, a.confidence, a.abstained)

section AllLines

variable {U : Unicode} {s : Settings} {index index' : ReconIndex} {lines lines' : List BankCreditLine}

theorem SameOutcome.verdict {line : BankCreditLine} {d d' : Decision} (h : SameOutcome line d d')
    (nonRzp : Dict Rail (List EvidenceItem)) :
    (d.finish s line nonRzp).verdict = (d'.finish s line nonRzp).verdict := by
  rcases h with rfl | ⟨ev, ev', rfl, rfl⟩
  · rfl
  · rfl

theorem lineVerdict_same (hsame : SameReport index index') {line : BankCreditLine}
    (h : ¬ OrderSensitive U s.pack index line) :
    (lineVerdict U s index line).verdict = (lineVerdict U s index' line).verdict :=
  (lineDecision_same hsame h).verdict _

theorem splitCandidates_same (hsame : SameReport index index') (hlines : lines.Perm lines')
    (h : ∀ line ∈ lines, ¬ OrderSensitive U s.pack index line) :
    (splitCandidates U s index lines).Perm (splitCandidates U s index' lines') := by
  have hfilter : splitCandidates U s index lines = splitCandidates U s index' lines := by
    unfold splitCandidates
    refine List.filter_congr fun line hline => ?_
    have hverdict := lineVerdict_same hsame (h line hline)
    have habs : (lineVerdict U s index line).abstained = (lineVerdict U s index' line).abstained :=
      congrArg (fun v => v.2.2.2.2) hverdict
    rw [Bool.eq_iff_iff, isSplitCandidate_iff, isSplitCandidate_iff, habs]
    exact and_congr_right fun _ => ⟨hsame.couldBeLeg, hsame.symm.couldBeLeg⟩
  rw [hfilter]
  exact hlines.filter _

/-- The verdict of a lifted line does not say which group it is in. -/
theorem IsLifted.verdict_eq (hnd : (lines.map BankCreditLine.key).Nodup) {line : BankCreditLine}
    (h : IsLifted U s index lines line) (hline : line ∈ lines) :
    (verdictOf U s index lines line).verdict =
      if s.marginThreshold ≤ splitConfidence then
        (line.key, Rail.razorpaySettlement.value, Tier.c.value, splitConfidence, false)
      else (line.key, Rail.unknown.value, Tier.none.value, splitConfidence, true) := by
  have hnone := (mem_splitCandidates.mp (h.mem hnd hline)).2.2.noCompetitor
  obtain ⟨hon, sid, K, hgroup, hkey⟩ := h
  rw [verdictOf_of_lifted hnd hon hgroup hkey]
  unfold RailAttribution.verdict
  split
  · rename_i hmargin
    have hacc := finalize_accepted (s := s) line .c
      ((survives_splitItem sid K.card (legOf index (splitCandidates U s index lines) sid K).2.2 hnone).mpr
        hmargin)
    rw [hacc.key, hacc.rail, hacc.tier, hacc.confidence, hacc.open_]
  · rename_i hmargin
    have hdem := finalize_demoted (s := s) line .c fun hsurvives => hmargin
      ((survives_splitItem sid K.card (legOf index (splitCandidates U s index lines) sid K).2.2 hnone).mp
        hsurvives)
    rw [hdem.1.key, hdem.1.rail, hdem.1.tier, hdem.1.closed, hdem.2]

theorem isLifted_same (hsame : SameReport index index') (hlines : lines.Perm lines')
    (hnd : (lines.map BankCreditLine.key).Nodup)
    (h : ∀ line ∈ lines, ¬ OrderSensitive U s.pack index line) (line : BankCreditLine) :
    IsLifted U s index lines line ↔ IsLifted U s index' lines' line := by
  have hcands := splitCandidates_same (s := s) hsame hlines h
  have hndc : ((splitCandidates U s index lines).map BankCreditLine.key).Nodup := nodup_splitCandidates hnd
  refine and_congr_right fun _ => ⟨fun hlifted => ?_, fun hlifted => ?_⟩
  · obtain ⟨sid, K, hgroup, hkey⟩ := hlifted
    exact ⟨sid, K, hsame.liftedGroup hndc hcands hgroup, hkey⟩
  · obtain ⟨sid, K, hgroup, hkey⟩ := hlifted
    exact ⟨sid, K, hsame.symm.liftedGroup ((hcands.map _).nodup_iff.mp hndc) hcands.symm hgroup, hkey⟩

/-- **Without an order-sensitive line** every verdict is the same. -/
theorem verdictOf_same (hsame : SameReport index index') (hlines : lines.Perm lines')
    (hnd : (lines.map BankCreditLine.key).Nodup)
    (h : ∀ line ∈ lines, ¬ OrderSensitive U s.pack index line) {line : BankCreditLine}
    (hline : line ∈ lines) :
    (verdictOf U s index lines line).verdict = (verdictOf U s index' lines' line).verdict := by
  have hnd' := (hlines.map BankCreditLine.key).nodup_iff.mp hnd
  have hiff := isLifted_same hsame hlines hnd h line
  by_cases hlifted : IsLifted U s index lines line
  · rw [hlifted.verdict_eq hnd hline, (hiff.mp hlifted).verdict_eq hnd' (hlines.mem_iff.mp hline)]
  · rw [verdictOf_of_not_lifted hnd hlifted, verdictOf_of_not_lifted hnd' fun h' => hlifted (hiff.mpr h')]
    exact lineVerdict_same hsame (h line hline)

end AllLines

end Untangle
