import Untangle.Correctness.Attribute.Score
import Untangle.Correctness.BoundedSubsets

/-!
# `Correctness.Attribute.Line` — the decision on one line, and what the challenger adds to it

`attribute_line` has many exits. Read without the challenger they leave a line either settled (an abstention,
or a verdict for another rail) or a candidate for a Razorpay verdict: that is `lineDecision`, which does not
know the margin. `attributeLine_eq` says that the function never raises and that all the margin does is accept
or demote the candidate (`Decision.finish`).
-/

namespace Untangle

open Lib

/-! ## The set-sum evidence never raises -/

section Setsum

variable {index : ReconIndex} {line : BankCreditLine}

theorem validPool_setsumPool : ValidPool (setsumPool index line) line.amountPaise where
  nodup := index.settlementNet.nodup.sublist (List.filter_sublist.map _)
  pos := fun _ hitem => (of_decide_eq_true (List.mem_filter.mp hitem).2).1
  lt := fun _ hitem => (of_decide_eq_true (List.mem_filter.mp hitem).2).2.1

theorem amount_pos_of_pool (h : setsumPool index line ≠ []) : 0 < line.amountPaise := by
  obtain ⟨item, hitem⟩ := List.exists_mem_of_ne_nil _ h
  exact lt_trans (validPool_setsumPool.pos item hitem) (validPool_setsumPool.lt item hitem)

/-- The three answers of the set-sum evidence. -/
inductive SetsumAnswer
  | nothing
  | unique (sids : List String)
  | multiple (n : Nat)
deriving DecidableEq, Repr

def SetsumAnswer.items (line : BankCreditLine) : SetsumAnswer → Option (List EvidenceItem)
  | .nothing => none
  | .unique sids => some [setsumItem sids]
  | .multiple n => some [⟨"multiple_satisfying_subsets", "ambiguous set-sum: " ++ toString n ++
      " distinct subsets sum to " ++ toString line.amountPaise ++ " paise", 0⟩]

/-- The pool is searched: a credit with a pool of a searchable size. -/
def Searched (index : ReconIndex) (line : BankCreditLine) : Prop :=
  line.isCredit = true ∧ setsumPool index line ≠ [] ∧ (setsumPool index line).length ≤ setsumMaxCandidates

instance (index : ReconIndex) (line : BankCreditLine) : Decidable (Searched index line) :=
  inferInstanceAs (Decidable (_ ∧ _ ∧ _))

/-- How many satisfying subsets the evidence counts: the singles, and the found sets up to two. -/
def satisfyingCount (index : ReconIndex) (line : BankCreditLine) : Nat :=
  (setsumSingles index line).length + min 2 (foundSets (setsumPool index line) line.amountPaise).card

/-- What the answer says about the searched pool. -/
inductive SetsumSpec (index : ReconIndex) (line : BankCreditLine) : SetsumAnswer → Prop
  | unsearched (h : ¬ Searched index line) : SetsumSpec index line .nothing
  | none (h : Searched index line) (hcount : satisfyingCount index line = 0) :
      SetsumSpec index line .nothing
  | single (h : Searched index line) (hsingle : (setsumSingles index line).length = 1)
      (hcount : satisfyingCount index line = 1) : SetsumSpec index line .nothing
  | unique (h : Searched index line) (hsingles : setsumSingles index line = [])
      (hcount : satisfyingCount index line = 1) (subset : List String)
      (hset : foundSets (setsumPool index line) line.amountPaise = {subset.toFinset})
      (hsound : TupleSound (setsumPool index line) line.amountPaise subset) :
      SetsumSpec index line (.unique (subset.insertionSort (· ≤ ·)))
  | multiple (h : Searched index line) (hcount : 2 ≤ satisfyingCount index line) :
      SetsumSpec index line (.multiple (satisfyingCount index line))

theorem two_le_length_of_tupleSound {cands : List Item} {target : ℤ} {t : List String}
    (h : TupleSound cands target t) : 2 ≤ t.length := by
  rcases h with ⟨_, hlen, _⟩ | ⟨_, x, y, _, rfl⟩
  · exact hlen
  · simp

/-- The tuples of a finished search, singles first and sorted: the source's `satisfying_subsets`. -/
def satisfyingTuples (index : ReconIndex) (line : BankCreditLine) (r : BoundedSubsetResult) : List (List String) :=
  (setsumSingles index line).map (fun sid => [sid]) ++ r.subsets.map fun subset => subset.insertionSort (· ≤ ·)

/-- The set-sum evidence of a searched pool is that of the tuples its search found. -/
theorem setsumEvidence_run (h : Searched index line) :
    ∃ r, setsumSearch (setsumPool index line) line.amountPaise = .ok r ∧
      SearchSpec (setsumPool index line) line.amountPaise r ∧
      setsumEvidence index line = .ok (satisfyingEvidence line (satisfyingTuples index line r)) := by
  obtain ⟨r, hr, hspec⟩ := setsumSearch_spec validPool_setsumPool (amount_pos_of_pool h.2.1)
  refine ⟨r, hr, hspec, ?_⟩
  have hpool : ¬ (setsumPool index line = [] ∨ setsumMaxCandidates < (setsumPool index line).length) :=
    not_or.mpr ⟨h.2.1, not_lt.mpr h.2.2⟩
  unfold setsumEvidence
  rw [if_neg (by simpa using h.1)]
  simp only [if_neg hpool, bind, Except.bind, hr, hspec.exhausted, Bool.false_eq_true, if_false]
  rfl

theorem length_satisfyingTuples {r : BoundedSubsetResult}
    (h : SearchSpec (setsumPool index line) line.amountPaise r) :
    (satisfyingTuples index line r).length = satisfyingCount index line := by
  unfold satisfyingTuples
  rw [List.length_append, List.length_map, List.length_map, h.length_eq]
  rfl

/-- A credit whose pool is not searched has no set-sum evidence. -/
theorem setsumEvidence_unsearched (h : ¬ Searched index line) : setsumEvidence index line = .ok none := by
  unfold setsumEvidence
  by_cases hcredit : line.isCredit = true
  · have hpool : setsumPool index line = [] ∨ setsumMaxCandidates < (setsumPool index line).length := by
      by_contra hno
      rw [not_or, not_lt] at hno
      exact h ⟨hcredit, hno.1, hno.2⟩
    rw [if_neg (by simpa using hcredit)]
    simp only [if_pos hpool]
    rfl
  · rw [if_pos (by simpa using hcredit)]
    rfl

/-- **The set-sum evidence** never raises, and its answer goes by the number of satisfying subsets. -/
theorem setsumEvidence_spec (index : ReconIndex) (line : BankCreditLine) :
    ∃ ans, setsumEvidence index line = .ok (ans.items line) ∧ SetsumSpec index line ans := by
  by_cases hsearched : Searched index line
  swap
  · exact ⟨.nothing, setsumEvidence_unsearched hsearched, .unsearched hsearched⟩
  obtain ⟨r, _, hspec, hrun⟩ := setsumEvidence_run hsearched
  have hlength := length_satisfyingTuples hspec
  unfold satisfyingTuples at hrun hlength
  rw [hrun]
  cases hsing : setsumSingles index line with
  | nil =>
      cases hsub : r.subsets with
      | nil =>
          refine ⟨.nothing, rfl, .none hsearched ?_⟩
          rw [← hlength, hsing, hsub]
          rfl
      | cons subset rest =>
          cases rest with
          | nil =>
              have hsound := hspec.sound subset (by rw [hsub]; exact List.mem_singleton.mpr rfl)
              have hcount : satisfyingCount index line = 1 := by
                rw [← hlength, hsing, hsub]
                rfl
              have hcard : (foundSets (setsumPool index line) line.amountPaise).card = 1 := by
                unfold satisfyingCount at hcount
                rw [hsing, List.length_nil] at hcount
                omega
              have hmem := hspec.mem subset (by rw [hsub]; exact List.mem_singleton.mpr rfl)
              obtain ⟨s, hs⟩ := Finset.card_eq_one.mp hcard
              rw [hs, Finset.mem_singleton] at hmem
              refine ⟨.unique (subset.insertionSort (· ≤ ·)), ?_,
                .unique hsearched hsing hcount subset (hmem ▸ hs) hsound⟩
              have hlen : (subset.insertionSort (· ≤ ·)).length ≠ 1 := by
                rw [List.length_insertionSort]
                have := two_le_length_of_tupleSound hsound
                omega
              simp only [List.map_nil, List.nil_append, List.map_cons, satisfyingEvidence, if_neg hlen]
              rfl
          | cons subset' rest =>
              refine ⟨.multiple (satisfyingCount index line), ?_, .multiple hsearched ?_⟩
              · rw [← hlength, hsing, hsub]
                rfl
              · rw [← hlength, hsing, hsub]
                simp
  | cons sid sids =>
      cases hrest : sids.map (fun sid => [sid]) ++
          r.subsets.map fun subset => subset.insertionSort (· ≤ ·) with
      | nil =>
          have hsids : sids = [] := by
            have hnil := (List.append_eq_nil_iff.mp hrest).1
            exact List.map_eq_nil_iff.mp hnil
          refine ⟨.nothing, ?_, .single hsearched ?_ ?_⟩
          · rw [List.map_cons, List.cons_append, hrest]
            rfl
          · rw [hsing, hsids]
            rfl
          · rw [← hlength, hsing, List.map_cons, List.cons_append, hrest]
            rfl
      | cons t rest =>
          refine ⟨.multiple (satisfyingCount index line), ?_, .multiple hsearched ?_⟩
          · rw [← hlength, hsing, List.map_cons, List.cons_append, hrest]
            rfl
          · rw [← hlength, hsing, List.map_cons, List.cons_append, hrest]
            simp

end Setsum

/-! ## The challenger -/

section Finalize

variable {s : Settings} {line : BankCreditLine} {rzpEv : List EvidenceItem}
  {nonRzp : Dict Rail (List EvidenceItem)} {score : ℚ} {tier : Tier}

/-- A candidate verdict survives the challenger at margin `t`. -/
def Survives (t : ℚ) (rzpEv : List EvidenceItem) (nonRzp : Dict Rail (List EvidenceItem)) (score : ℚ) :
    Prop :=
  t ≤ 0 ∨ ((challenge rzpEv nonRzp score).truncated = false ∧
    t ≤ (challenge rzpEv nonRzp score).proofMargin)

instance (t : ℚ) (rzpEv : List EvidenceItem) (nonRzp : Dict Rail (List EvidenceItem)) (score : ℚ) :
    Decidable (Survives t rzpEv nonRzp score) :=
  inferInstanceAs (Decidable (_ ∨ _))

/-- A larger margin is survived by fewer verdicts. -/
theorem Survives.mono {t t' : ℚ} (ht : t ≤ t') (h : Survives t' rzpEv nonRzp score) :
    Survives t rzpEv nonRzp score := by
  rcases h with h | h
  · exact Or.inl (ht.trans h)
  · exact Or.inr ⟨h.1, ht.trans h.2⟩

/-- An accepted Razorpay verdict with this score, tier and evidence. -/
structure Accepted (a : RailAttribution) (line : BankCreditLine) (evidence : List EvidenceItem)
    (score : ℚ) (tier : Tier) : Prop where
  key : a.lineKey = line.key
  rail : a.rail = Rail.razorpaySettlement.value
  open_ : a.abstained = false
  confidence : a.confidence = score
  tier : a.tier = tier.value
  evidence : a.evidence = evidence

/-- An abstention, whatever it carries. -/
structure Abstained (a : RailAttribution) (line : BankCreditLine) : Prop where
  key : a.lineKey = line.key
  rail : a.rail = Rail.unknown.value
  closed : a.abstained = true
  tier : a.tier = Tier.none.value

theorem abstain_abstained (line : BankCreditLine) (confidence : ℚ) (evidence : List EvidenceItem) :
    Abstained (abstain line confidence evidence) line := ⟨rfl, rfl, rfl, rfl⟩

theorem finalize_accepted (line : BankCreditLine) (tier : Tier)
    (h : Survives s.marginThreshold rzpEv nonRzp score) :
    Accepted (finalizeRazorpay s line rzpEv nonRzp score tier) line rzpEv score tier := by
  unfold finalizeRazorpay
  dsimp only
  rcases h with h | h
  · rw [if_pos h]
    split <;> exact ⟨rfl, rfl, rfl, rfl, rfl, rfl⟩
  · by_cases h0 : s.marginThreshold ≤ 0
    · rw [if_pos h0]
      split <;> exact ⟨rfl, rfl, rfl, rfl, rfl, rfl⟩
    · have hpass : ¬ ((challenge rzpEv nonRzp score).truncated ∨
          (challenge rzpEv nonRzp score).proofMargin < s.marginThreshold) := by
        rw [not_or, not_lt]
        exact ⟨by simp [h.1], h.2⟩
      rw [if_neg h0, if_neg hpass]
      exact ⟨rfl, rfl, rfl, rfl, rfl, rfl⟩

theorem finalize_demoted (line : BankCreditLine) (tier : Tier)
    (h : ¬ Survives s.marginThreshold rzpEv nonRzp score) :
    Abstained (finalizeRazorpay s line rzpEv nonRzp score tier) line ∧
      (finalizeRazorpay s line rzpEv nonRzp score tier).confidence = score := by
  unfold Survives at h
  rw [not_or, not_and_or, not_le, not_le] at h
  have hfail : (challenge rzpEv nonRzp score).truncated ∨
      (challenge rzpEv nonRzp score).proofMargin < s.marginThreshold :=
    h.2.imp_left fun ht => by simpa using ht
  unfold finalizeRazorpay
  dsimp only
  rw [if_neg (not_le.mpr h.1), if_pos hfail]
  exact ⟨⟨rfl, rfl, rfl, rfl⟩, rfl⟩

theorem lineKey_finalizeRazorpay (line : BankCreditLine) (tier : Tier) :
    (finalizeRazorpay s line rzpEv nonRzp score tier).lineKey = line.key := by
  by_cases hsurvives : Survives s.marginThreshold rzpEv nonRzp score
  · exact (finalize_accepted line tier hsurvives).key
  · exact (finalize_demoted line tier hsurvives).1.key

end Finalize

/-! ## The decision on one line -/

/-- What a line has come to when the challenger is asked, or is not. -/
inductive Decision
  | settled (a : RailAttribution)
  | candidate (evidence : List EvidenceItem) (score : ℚ) (tier : Tier)

/-- The challenger's part. -/
def Decision.finish (s : Settings) (line : BankCreditLine) (nonRzp : Dict Rail (List EvidenceItem)) :
    Decision → RailAttribution
  | .settled a => a
  | .candidate evidence score tier => finalizeRazorpay s line evidence nonRzp score tier

/-- The decision that `decideRail` finishes. -/
def railDecision (threshold : ℚ) (line : BankCreditLine) (rzpEv : List EvidenceItem)
    (nonRzp : Dict Rail (List EvidenceItem)) (rzpHard joined : Bool) : Decision :=
  match bestRail (railScores rzpEv nonRzp rzpHard joined) with
  | none => .settled (abstain line 0 rzpEv)
  | some best =>
    if best.score < threshold then .settled (abstain line best.score best.evidence)
    else if best.rail = Rail.razorpaySettlement.value then
      .candidate best.evidence best.score best.tier
    else .settled
      { lineKey := line.key
        rail := best.rail
        confidence := best.score
        tier := Tier.b.value
        evidence := best.evidence }

theorem decideRail_eq (s : Settings) (line : BankCreditLine) (rzpEv : List EvidenceItem)
    (nonRzp : Dict Rail (List EvidenceItem)) (rzpHard joined : Bool) :
    decideRail s line rzpEv nonRzp rzpHard joined =
      (railDecision s.threshold line rzpEv nonRzp rzpHard joined).finish s line nonRzp := by
  unfold decideRail railDecision
  cases bestRail (railScores rzpEv nonRzp rzpHard joined) with
  | none => rfl
  | some best =>
      dsimp only
      split
      · rfl
      · split <;> rfl

/-- The set-sum evidence as a value. -/
def setsumOf (index : ReconIndex) (line : BankCreditLine) : Option (List EvidenceItem) :=
  match setsumEvidence index line with
  | .ok items => items
  | .error _ => none

theorem setsumEvidence_eq (index : ReconIndex) (line : BankCreditLine) :
    setsumEvidence index line = .ok (setsumOf index line) := by
  obtain ⟨ans, hans, _⟩ := setsumEvidence_spec index line
  unfold setsumOf
  rw [hans]

/-- The decision of a credit, by the strength of its Razorpay evidence. -/
def creditDecision (threshold : ℚ) (index : ReconIndex) (line : BankCreditLine)
    (rzpEv : List EvidenceItem) (nonRzp : Dict Rail (List EvidenceItem)) : Decision :=
  if hasSignal ["utr_exact"] rzpEv then .candidate rzpEv (combine rzpEv) .a
  else if hasSignal hardRzpSignals rzpEv then railDecision threshold line rzpEv nonRzp true false
  else
    match applySetsum rzpEv (nonRzp.items ≠ []) (setsumOf index line) with
    | .abstained evidence => .settled (abstain line 0 evidence)
    | .scored evidence joined => railDecision threshold line evidence nonRzp joined joined

/-- **The decision on a line without the challenger**: it does not read the margin. -/
def lineDecision (U : Unicode) (threshold : ℚ) (pack : NarrationEvidencePack) (index : ReconIndex)
    (line : BankCreditLine) : Decision :=
  if line.isCredit then
    creditDecision threshold index line (razorpaySignals U pack index line)
      (narrationRailSignals U pack line)
  else .settled (attributeDebit ⟨threshold, 0, false, pack⟩ line (narrationRailSignals U pack line))

/-- **`attribute_line` never raises**, and is its decision finished by the challenger. -/
theorem attributeLine_eq (U : Unicode) (s : Settings) (index : ReconIndex) (line : BankCreditLine) :
    attributeLine U s index line =
      .ok ((lineDecision U s.threshold s.pack index line).finish s line
        (narrationRailSignals U s.pack line)) := by
  unfold attributeLine lineDecision
  by_cases hcredit : line.isCredit = true
  swap
  · rw [if_pos (by simpa using hcredit), if_neg hcredit]
    rfl
  rw [if_neg (by simpa using hcredit), if_pos hcredit]
  unfold creditDecision
  by_cases hexact : hasSignal ["utr_exact"] (razorpaySignals U s.pack index line) = true
  · simp only [if_pos hexact]
    rfl
  by_cases hhard : hasSignal hardRzpSignals (razorpaySignals U s.pack index line) = true
  · simp only [if_neg hexact, if_pos hhard, decideRail_eq]
    rfl
  simp only [if_neg hexact, if_neg hhard, setsumEvidence_eq, bind, Except.bind]
  cases applySetsum (razorpaySignals U s.pack index line)
      (decide ((narrationRailSignals U s.pack line).items ≠ [])) (setsumOf index line) with
  | abstained evidence => rfl
  | scored evidence joined =>
      simp only [decideRail_eq]
      rfl

/-! ## What a decision can be -/

section Cases

variable {U : Unicode} {threshold : ℚ} {pack : NarrationEvidencePack} {index : ReconIndex}
  {line : BankCreditLine}

/-- A verdict for a rail that cleared the threshold. -/
structure OtherVerdict (threshold : ℚ) (line : BankCreditLine) (a : RailAttribution) : Prop where
  key : a.lineKey = line.key
  open_ : a.abstained = false
  clears : threshold ≤ a.confidence

theorem railDecision_settled {rzpEv : List EvidenceItem} {nonRzp : Dict Rail (List EvidenceItem)}
    {rzpHard joined : Bool} {a : RailAttribution}
    (h : railDecision threshold line rzpEv nonRzp rzpHard joined = .settled a) :
    Abstained a line ∨ (OtherVerdict threshold line a ∧ a.rail ≠ Rail.razorpaySettlement.value) := by
  unfold railDecision at h
  split at h
  · exact Or.inl (Decision.settled.inj h ▸ abstain_abstained line 0 rzpEv)
  · split at h
    · exact Or.inl (Decision.settled.inj h ▸ abstain_abstained line _ _)
    · rename_i best _ hclears
      split at h
      · exact absurd h (by simp)
      · rename_i hrail
        rw [← Decision.settled.inj h]
        exact Or.inr ⟨⟨rfl, rfl, not_lt.mp hclears⟩, hrail⟩

theorem railDecision_candidate {rzpEv evidence : List EvidenceItem}
    {nonRzp : Dict Rail (List EvidenceItem)} {rzpHard joined : Bool} {score : ℚ} {tier : Tier}
    (h : railDecision threshold line rzpEv nonRzp rzpHard joined = .candidate evidence score tier) :
    threshold ≤ score ∧ ∃ best, bestRail (railScores rzpEv nonRzp rzpHard joined) = some best ∧
      best.rail = Rail.razorpaySettlement.value ∧ best.evidence = evidence ∧ best.score = score ∧
      best.tier = tier := by
  unfold railDecision at h
  split at h
  · exact absurd h (by simp)
  · split at h
    · exact absurd h (by simp)
    · rename_i best hbest hclears
      split at h
      · rename_i hrail
        obtain ⟨rfl, rfl, rfl⟩ := Decision.candidate.inj h
        exact ⟨not_lt.mp hclears, best, hbest, hrail, rfl, rfl, rfl⟩
      · exact absurd h (by simp)

theorem attributeDebit_cases (s : Settings) (line : BankCreditLine)
    (nonRzp : Dict Rail (List EvidenceItem)) :
    Abstained (attributeDebit s line nonRzp) line ∨
      OtherVerdict s.threshold line (attributeDebit s line nonRzp) := by
  unfold attributeDebit
  split
  · exact Or.inl (abstain_abstained line 0 [])
  · split
    · exact Or.inl (abstain_abstained line _ _)
    · rename_i hclears
      exact Or.inr ⟨rfl, rfl, not_lt.mp hclears⟩

/-- **A settled line** abstains, or has a verdict that cleared the threshold; only a debit can be settled as
    Razorpay (by a pack that lists the rail itself). -/
theorem lineDecision_settled {a : RailAttribution}
    (h : lineDecision U threshold pack index line = .settled a) :
    Abstained a line ∨ (OtherVerdict threshold line a ∧
      (a.rail = Rail.razorpaySettlement.value → line.isCredit = false)) := by
  unfold lineDecision at h
  by_cases hcredit : line.isCredit = true
  · rw [if_pos hcredit] at h
    unfold creditDecision at h
    split at h
    · exact absurd h (by simp)
    · split at h
      · exact (railDecision_settled h).imp_right fun ho => ⟨ho.1, fun hr => absurd hr ho.2⟩
      · split at h
        · exact Or.inl (Decision.settled.inj h ▸ abstain_abstained line 0 _)
        · exact (railDecision_settled h).imp_right fun ho => ⟨ho.1, fun hr => absurd hr ho.2⟩
  · rw [if_neg hcredit] at h
    rw [← Decision.settled.inj h]
    exact (attributeDebit_cases _ line _).imp_right fun ho => ⟨ho, fun _ => by simpa using hcredit⟩

/-- **A candidate** is a credit; it carries an exact UTR, or its score cleared the threshold. -/
theorem lineDecision_candidate {evidence : List EvidenceItem} {score : ℚ} {tier : Tier}
    (h : lineDecision U threshold pack index line = .candidate evidence score tier) :
    line.isCredit = true ∧
      ((hasSignal ["utr_exact"] (razorpaySignals U pack index line) = true ∧
          evidence = razorpaySignals U pack index line ∧ score = combine evidence ∧ tier = .a) ∨
        (hasSignal ["utr_exact"] (razorpaySignals U pack index line) = false ∧ threshold ≤ score)) := by
  unfold lineDecision at h
  by_cases hcredit : line.isCredit = true
  · rw [if_pos hcredit] at h
    refine ⟨hcredit, ?_⟩
    unfold creditDecision at h
    split at h
    · rename_i hexact
      obtain ⟨rfl, rfl, rfl⟩ := Decision.candidate.inj h
      exact Or.inl ⟨hexact, rfl, rfl, rfl⟩
    · rename_i hexact
      have hno := Bool.eq_false_iff.mpr hexact
      split at h
      · exact Or.inr ⟨hno, (railDecision_candidate h).1⟩
      · split at h
        · exact absurd h (by simp)
        · exact Or.inr ⟨hno, (railDecision_candidate h).1⟩
  · rw [if_neg hcredit] at h
    exact absurd h (by simp)

end Cases

end Untangle
