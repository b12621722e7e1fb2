import Untangle.Correctness.Attribute.Splits
import Untangle.Engine.CandidateGraph

/-!
# `Correctness.Solver.Graph` — what the builder guarantees

The solver relies on a handful of facts about its graph (`WellFormed`): every candidate names credits of the
graph and has a cost on the four-decimal grid, every credit has its abstention, and the components partition the
credits so that no candidate and no settlement reaches across two of them. `buildCandidateGraph_wellFormed`
proves them of every graph the builder makes.
-/

namespace Untangle

open Lib

/-! ## The contract between builder and solver -/

/-- The candidate is the abstention of a credit. -/
structure IsSink (c : CandidateAssignment) (k : String) : Prop where
  keys : c.creditKeys = [k]
  target : c.targetId = "abstain"
  rail : c.rail = Rail.unknown.value

/-- The cost of a candidate: nothing is invalid, only an abstention leaves something unexplained, and the two
    rational components have four decimals. -/
structure CostOk (c : CandidateAssignment) : Prop where
  invalid : c.cost.invalid = 0
  unexplained : c.cost.unexplained = 0 ∨ (0 < c.cost.unexplained ∧ ∃ k, IsSink c k)
  evidence : IsDecimal 4 c.cost.negEvidence
  ops : IsDecimal 4 c.cost.ops

structure WellFormed (g : AssignmentGraph) : Prop where
  keys_ne : ∀ c ∈ g.candidates, c.creditKeys ≠ []
  keys_subset : ∀ c ∈ g.candidates, c.creditKeys ⊆ g.credits.keys
  cost : ∀ c ∈ g.candidates, CostOk c
  single : ∀ c ∈ g.candidates, c.isSplit = false → ∃ k, c.creditKeys = [k]
  split : ∀ c ∈ g.candidates, c.isSplit = true →
    c.rail = Rail.razorpaySettlement.value ∧ c.targetId ∈ g.settlements.keys
  enumerated : ∀ c ∈ g.candidates, c.isSplit = true → ∀ k ∈ c.creditKeys, k ∉ g.unEnumerable
  sink : ∀ k ∈ g.credits.keys, ∃ c ∈ g.candidates, IsSink c k ∧ 0 < c.cost.unexplained
  components : g.components.flatten.Perm g.credits.keys
  closed : ∀ comp ∈ g.components, ∀ c ∈ g.candidates, (∃ k ∈ c.creditKeys, k ∈ comp) → c.creditKeys ⊆ comp
  competing : ∀ comp ∈ g.components, ∀ c ∈ g.candidates, ∀ c' ∈ g.candidates,
    c.targetId ∈ g.settlements.keys → c'.targetId = c.targetId → (∃ k ∈ c.creditKeys, k ∈ comp) →
      c'.creditKeys ⊆ comp

section Builder

variable {U : Unicode} {gs : GraphSettings} {index : ReconIndex} {lines : List BankCreditLine}
  {ln : BankCreditLine} {c : CandidateAssignment}

/-! ## Where a candidate comes from -/

/-- A candidate of a competing rail that the narration names. -/
structure IsRailCandidate (U : Unicode) (gs : GraphSettings) (ln : BankCreditLine) (c : CandidateAssignment) :
    Prop where
  keys : c.creditKeys = [ln.key]
  single : c.isSplit = false
  named : ∃ p ∈ (narrationRailSignals U gs.pack ln).items, c.targetId = "rail:" ++ p.1.value ∧
    c.rail = p.1.value ∧ c.evidence = p.2 ∧ c.cost = Cost.mk 0 0 0 (-roundTo 4 (combine p.2)) (1 / 2)
  confidence : c.confidence = roundTo 4 (combine c.evidence)
  gate : ∀ t, gs.threshold = some t → t ≤ combine c.evidence
  positive : 0 < combine c.evidence

theorem mem_railCandidates (h : c ∈ railCandidates U gs ln) : IsRailCandidate U gs ln c := by
  unfold railCandidates at h
  obtain ⟨p, hp, hsome⟩ := List.mem_filterMap.mp h
  rw [(List.perm_insertionSort _ _).mem_iff] at hp
  dsimp only at hsome
  split at hsome
  · exact absurd hsome (by simp)
  · rename_i hgate
    split at hsome
    · rename_i hpos
      rw [← Option.some.inj hsome]
      refine ⟨rfl, rfl, ⟨p, hp, rfl, rfl, rfl, rfl⟩, rfl, fun t ht => ?_, hpos⟩
      rw [ht] at hgate
      simpa using hgate
    · exact absurd hsome (by simp)

/-- The confidence of a settlement candidate. -/
def tieConfidence (evidence : List EvidenceItem) : ℚ :=
  if hasSignal ["utr_exact"] evidence then 19 / 20 else combine evidence

/-- A candidate for a settlement that a tie of the credit points at. -/
structure IsSettlementCandidate (U : Unicode) (gs : GraphSettings) (index : ReconIndex) (ln : BankCreditLine)
    (c : CandidateAssignment) : Prop where
  keys : c.creditKeys = [ln.key]
  single : c.isSplit = false
  rail : c.rail = Rail.razorpaySettlement.value
  tied : hasSignal rzpTieSignals (razorpaySignals U gs.pack index ln) = true
  target : c.targetId ∈ matchedSids U index ln (razorpaySignals U gs.pack index ln)
  evidence : c.evidence = razorpaySignals U gs.pack index ln
  cost : ∃ residual ops, c.cost = Cost.mk 0 0 residual
    (-roundTo 4 (tieConfidence (razorpaySignals U gs.pack index ln))) ops ∧ (ops = 0 ∨ ops = 1)
  confidence : c.confidence = roundTo 4 (tieConfidence c.evidence)
  gate : ∀ t, gs.threshold = some t → defaultThreshold < t → t ≤ tieConfidence c.evidence

theorem mem_settlementCandidates (h : c ∈ settlementCandidates U gs index ln) :
    IsSettlementCandidate U gs index ln c := by
  unfold settlementCandidates at h
  dsimp only at h
  rw [List.mem_ite_nil_left, List.mem_ite_nil_left] at h
  obtain ⟨htied, hgate, hmem⟩ := h
  obtain ⟨sid, hsid, rfl⟩ := List.mem_map.mp hmem
  refine ⟨rfl, rfl, rfl, by simpa using htied, hsid, rfl, ⟨_, _, rfl, ?_⟩, rfl, fun t ht hlt => ?_⟩
  · split
    · exact Or.inl rfl
    · exact Or.inr rfl
  · rw [ht] at hgate
    exact not_lt.mp fun hweak => hgate (by simpa [tieConfidence] using And.intro hlt hweak)

/-- A split of a settlement into two or three eligible lines. -/
structure IsSplit (U : Unicode) (gs : GraphSettings) (index : ReconIndex) (lines : List BankCreditLine)
    (sid : String) (net : ℤ) (date : Date) (sub : List BankCreditLine) : Prop where
  payable : (sid, net, date) ∈ splitSettlements index
  found : sub ∈ allSumSubsets (eligibleFor U gs index lines sid net date) net splitDriftPaise splitMaxLegs

theorem mem_splitLoop {settlements : List (String × ℤ × Date)} {unEnumerable : List String}
    (h : c ∈ (splitLoop U gs index lines settlements unEnumerable).1) :
    ∃ sid net date sub, (sid, net, date) ∈ settlements ∧
      sub ∈ allSumSubsets (eligibleFor U gs index lines sid net date) net splitDriftPaise splitMaxLegs ∧
      c = splitCandidate U gs index (signalsByKey U gs index lines) sid net sub := by
  induction settlements generalizing unEnumerable with
  | nil => exact absurd h List.not_mem_nil
  | cons p settlements ih =>
      obtain ⟨sid, net, date⟩ := p
      have hlater : ∀ {un : List String}, c ∈ (splitLoop U gs index lines settlements un).1 →
          ∃ sid' net' date' sub, (sid', net', date') ∈ (sid, net, date) :: settlements ∧
            sub ∈ allSumSubsets (eligibleFor U gs index lines sid' net' date') net' splitDriftPaise
              splitMaxLegs ∧
            c = splitCandidate U gs index (signalsByKey U gs index lines) sid' net' sub := by
        intro un hc
        obtain ⟨sid', net', date', sub, hmem, hsub, hc⟩ := ih hc
        exact ⟨sid', net', date', sub, List.mem_cons_of_mem _ hmem, hsub, hc⟩
      rw [splitLoop] at h
      dsimp only at h
      split at h
      · exact hlater h
      · split at h
        · exact hlater h
        · rcases List.mem_append.mp h with h | h
          · obtain ⟨sub, hsub, rfl⟩ := List.mem_map.mp h
            exact ⟨sid, net, date, sub, List.mem_cons_self, (List.mem_filter.mp hsub).1, rfl⟩
          · exact hlater h

/-- The four kinds of candidates. -/
inductive Origin (U : Unicode) (gs : GraphSettings) (index : ReconIndex) (lines : List BankCreditLine)
    (c : CandidateAssignment) : Prop
  | sink (ln : BankCreditLine) (hln : ln ∈ lines) (hcredit : isGraphCredit ln = true)
      (heq : c = abstainCandidate ln)
  | rail (ln : BankCreditLine) (hln : ln ∈ lines) (hcredit : isGraphCredit ln = true)
      (h : IsRailCandidate U gs ln c)
  | settlement (ln : BankCreditLine) (hln : ln ∈ lines) (hcredit : isGraphCredit ln = true)
      (h : IsSettlementCandidate U gs index ln c)
  | split (sid : String) (net : ℤ) (date : Date) (sub : List BankCreditLine)
      (h : IsSplit U gs index lines sid net date sub)
      (heq : c = splitCandidate U gs index (signalsByKey U gs index lines) sid net sub)
      (hgate : ∀ t, gs.threshold = some t → t ≤ splitConfidence)

theorem mem_graphCandidates (h : c ∈ (graphCandidates U gs index lines).1) :
    Origin U gs index lines c ∧
      (c.isSplit = true → ∀ k ∈ c.creditKeys, k ∉ (graphCandidates U gs index lines).2) := by
  unfold graphCandidates at h ⊢
  dsimp only at h ⊢
  rw [(List.perm_insertionSort _ _).mem_iff, List.mem_filter] at h
  obtain ⟨hmem, hclean⟩ := h
  refine ⟨?_, ?_⟩
  · rcases List.mem_append.mp hmem with hmem | hmem
    · obtain ⟨ln, hln, hc⟩ := List.mem_flatMap.mp hmem
      obtain ⟨hln, hcredit⟩ := List.mem_filter.mp hln
      unfold singleCandidates at hc
      rcases List.mem_append.mp hc with hc | hc
      · rcases List.mem_cons.mp hc with hc | hc
        · exact Origin.sink ln hln hcredit hc
        · exact Origin.rail ln hln hcredit (mem_railCandidates hc)
      · exact Origin.settlement ln hln hcredit (mem_settlementCandidates hc)
    · split at hmem
      · rename_i hgate
        obtain ⟨sid, net, date, sub, hpay, hsub, hc⟩ := mem_splitLoop hmem
        refine Origin.split sid net date sub ⟨hpay, hsub⟩ hc fun t ht => ?_
        rw [ht] at hgate
        simpa using hgate
      · exact absurd hmem List.not_mem_nil
  · intro hsplit k hk hpoisoned
    rw [hsplit, Bool.true_and, Bool.not_eq_true', List.any_eq_false] at hclean
    exact hclean k hk (by simpa using hpoisoned)

theorem abstainCandidate_mem (hln : ln ∈ lines) (hcredit : isGraphCredit ln = true) :
    abstainCandidate ln ∈ (graphCandidates U gs index lines).1 := by
  unfold graphCandidates
  dsimp only
  rw [(List.perm_insertionSort _ _).mem_iff, List.mem_filter]
  refine ⟨List.mem_append_left _ (List.mem_flatMap.mpr ⟨ln, List.mem_filter.mpr ⟨hln, hcredit⟩, ?_⟩), rfl⟩
  exact List.mem_append_left _ List.mem_cons_self

theorem railCandidate_mem (hln : ln ∈ lines) (hcredit : isGraphCredit ln = true)
    (hc : c ∈ railCandidates U gs ln) : c ∈ (graphCandidates U gs index lines).1 := by
  unfold graphCandidates
  dsimp only
  rw [(List.perm_insertionSort _ _).mem_iff, List.mem_filter, (mem_railCandidates hc).single, Bool.false_and]
  refine ⟨List.mem_append_left _ (List.mem_flatMap.mpr ⟨ln, List.mem_filter.mpr ⟨hln, hcredit⟩, ?_⟩), rfl⟩
  exact List.mem_append_left _ (List.mem_cons_of_mem _ hc)

theorem settlementCandidate_mem (hln : ln ∈ lines) (hcredit : isGraphCredit ln = true)
    (hc : c ∈ settlementCandidates U gs index ln) : c ∈ (graphCandidates U gs index lines).1 := by
  unfold graphCandidates
  dsimp only
  rw [(List.perm_insertionSort _ _).mem_iff, List.mem_filter, (mem_settlementCandidates hc).single, Bool.false_and]
  refine ⟨List.mem_append_left _ (List.mem_flatMap.mpr ⟨ln, List.mem_filter.mpr ⟨hln, hcredit⟩, ?_⟩), rfl⟩
  exact List.mem_append_right _ hc

/-! ## The nodes -/

theorem mem_creditNodes {k : String} :
    k ∈ (creditNodes lines).keys ↔ ∃ ln ∈ lines, isGraphCredit ln = true ∧ ln.key = k := by
  unfold creditNodes
  rw [Dict.mem_keys_gather]
  constructor
  · intro h
    obtain ⟨ln, hln, hk⟩ := h
    split at hk
    · rename_i hcredit
      exact ⟨ln, hln, hcredit, Option.some.inj hk⟩
    · exact absurd hk (by simp)
  · intro h
    obtain ⟨ln, hln, hcredit, rfl⟩ := h
    exact ⟨ln, hln, by rw [if_pos hcredit]⟩

theorem mem_settlementNodes {sid : String} :
    sid ∈ (settlementNodes index).keys ↔ sid ∈ index.settlementNet.keys := by
  unfold settlementNodes
  rw [Dict.mem_keys_gather]
  constructor
  · intro h
    obtain ⟨p, hp, hk⟩ := h
    rw [(List.perm_insertionSort _ _).mem_iff] at hp
    rw [← Option.some.inj hk]
    exact Dict.mem_keys_of_mem hp
  · intro h
    obtain ⟨net, hnet⟩ := Dict.exists_get?_of_mem_keys h
    exact ⟨(sid, net), (List.perm_insertionSort _ _).mem_iff.mpr (Dict.get?_eq_some.mp hnet), rfl⟩

/-! ## A split candidate -/

theorem IsSplit.eligible {sid : String} {net : ℤ} {date : Date} {sub : List BankCreditLine}
    (h : IsSplit U gs index lines sid net date sub) {leg : BankCreditLine} (hleg : leg ∈ sub) :
    leg ∈ splitLines U gs index lines ∧ leg.amountPaise < net ∧
      withinDays splitDateWindow leg.valueDate date = true := by
  have hmem := (mem_allSumSubsets h.found).1.subset hleg
  unfold eligibleFor at hmem
  obtain ⟨hline, hok⟩ := List.mem_filter.mp hmem
  rw [Bool.and_eq_true, Bool.and_eq_true, decide_eq_true_eq] at hok
  exact ⟨hline, hok.1.1, hok.1.2⟩

theorem mem_splitLines (h : ln ∈ splitLines U gs index lines) :
    ln ∈ lines ∧ isSplitSource U gs index ln = true ∧
      hasSignal rzpLeaningSignals (razorpaySignals U gs.pack index ln) = true := by
  unfold splitLines at h
  obtain ⟨hln, hok⟩ := List.mem_filter.mp h
  exact ⟨hln, Bool.and_eq_true_iff.mp hok⟩

theorem isGraphCredit_of_isSplitSource (h : isSplitSource U gs index ln = true) : isGraphCredit ln = true := by
  unfold isSplitSource at h
  rw [Bool.and_eq_true, Bool.and_eq_true] at h
  exact h.1.1

theorem IsSplit.sublist {sid : String} {net : ℤ} {date : Date} {sub : List BankCreditLine}
    (h : IsSplit U gs index lines sid net date sub) : sub.Sublist lines :=
  (mem_allSumSubsets h.found).1.trans (List.filter_sublist.trans List.filter_sublist)

theorem splitCandidate_keys_perm (U : Unicode) (gs : GraphSettings) (index : ReconIndex)
    (signals : Dict String (List String)) (sid : String) (net : ℤ) (sub : List BankCreditLine) :
    (splitCandidate U gs index signals sid net sub).creditKeys.Perm (sub.map BankCreditLine.key) :=
  List.perm_insertionSort _ _

/-! ## Costs -/

theorem isDecimal_intCast (n : Nat) (k : ℤ) : IsDecimal n k :=
  ⟨k * 10 ^ n, by push_cast; rw [mul_div_cancel_right₀ _ (by positivity)]⟩

theorem isDecimal_half : IsDecimal 4 (1 / 2) := ⟨5000, by norm_num⟩

theorem unexplained_abstainCandidate (ln : BankCreditLine) :
    (abstainCandidate ln).cost.unexplained = ln.amountPaise := rfl

theorem Origin.costOk (h : Origin U gs index lines c) : CostOk c := by
  cases h with
  | sink ln _ hcredit heq =>
      subst heq
      unfold isGraphCredit at hcredit
      rw [Bool.and_eq_true, decide_eq_true_eq] at hcredit
      exact ⟨rfl, Or.inr ⟨hcredit.2, ln.key, rfl, rfl, rfl⟩, IsDecimal.zero, ⟨20000, by
        show (2 : ℚ) = _
        norm_num⟩⟩
  | rail ln _ _ h =>
      obtain ⟨p, _, _, _, _, hcost⟩ := h.named
      refine ⟨by rw [hcost]; rfl, Or.inl (by rw [hcost]; rfl), ?_, ?_⟩
      · rw [hcost]
        exact (isDecimal_roundTo 4 _).neg
      · rw [hcost]
        exact isDecimal_half
  | settlement ln _ _ h =>
      obtain ⟨residual, ops, hcost, hops⟩ := h.cost
      refine ⟨by rw [hcost]; rfl, Or.inl (by rw [hcost]; rfl), ?_, ?_⟩
      · rw [hcost]
        exact (isDecimal_roundTo 4 _).neg
      · rw [hcost]
        rcases hops with rfl | rfl
        · exact IsDecimal.zero
        · exact isDecimal_intCast 4 1
  | split sid net date sub _ heq =>
      subst heq
      refine ⟨rfl, Or.inl rfl, ?_, ?_⟩
      · exact ⟨-9000, by
          show -splitConfidence = _
          norm_num [splitConfidence]⟩
      · exact ⟨15000, by
          show (3 / 2 : ℚ) = _
          norm_num⟩

/-! ## Keys -/

theorem Origin.keys_ne (h : Origin U gs index lines c) : c.creditKeys ≠ [] := by
  cases h with
  | sink ln _ _ heq => simp [heq, abstainCandidate]
  | rail ln _ _ h => simp [h.keys]
  | settlement ln _ _ h => simp [h.keys]
  | split sid net date sub h heq =>
      intro hnil
      rw [heq] at hnil
      have hlen := (splitCandidate_keys_perm U gs index (signalsByKey U gs index lines) sid net sub).length_eq
      rw [hnil, List.length_map] at hlen
      have := (mem_allSumSubsets h.found).2.1
      simp only [List.length_nil] at hlen
      omega

theorem Origin.keys_subset (h : Origin U gs index lines c) : c.creditKeys ⊆ (creditNodes lines).keys := by
  have hsingle : ∀ {ln : BankCreditLine}, ln ∈ lines → isGraphCredit ln = true → c.creditKeys = [ln.key] →
      c.creditKeys ⊆ (creditNodes lines).keys := by
    intro ln hln hcredit heq k hk
    rw [heq, List.mem_singleton] at hk
    exact mem_creditNodes.mpr ⟨ln, hln, hcredit, hk.symm⟩
  cases h with
  | sink ln hln hcredit heq => exact hsingle hln hcredit (by rw [heq]; rfl)
  | rail ln hln hcredit h => exact hsingle hln hcredit h.keys
  | settlement ln hln hcredit h => exact hsingle hln hcredit h.keys
  | split sid net date sub h heq =>
      intro k hk
      rw [heq, (splitCandidate_keys_perm U gs index _ sid net sub).mem_iff] at hk
      obtain ⟨leg, hleg, rfl⟩ := List.mem_map.mp hk
      obtain ⟨hln, hsource, _⟩ := mem_splitLines (h.eligible hleg).1
      exact mem_creditNodes.mpr ⟨leg, hln, isGraphCredit_of_isSplitSource hsource, rfl⟩

theorem Origin.split_target (h : Origin U gs index lines c) (hsplit : c.isSplit = true) :
    c.rail = Rail.razorpaySettlement.value ∧ c.targetId ∈ (settlementNodes index).keys := by
  cases h with
  | sink ln _ _ heq => exact absurd hsplit (by simp [heq, abstainCandidate])
  | rail ln _ _ h => exact absurd hsplit (by simp [h.single])
  | settlement ln _ _ h => exact absurd hsplit (by simp [h.single])
  | split sid net date sub h heq =>
      subst heq
      exact ⟨rfl, mem_settlementNodes.mpr
        (Dict.mem_keys_of_get? (mem_splitSettlements.mp h.payable).netIs)⟩

theorem Origin.single (h : Origin U gs index lines c) (hsplit : c.isSplit = false) :
    ∃ k, c.creditKeys = [k] := by
  cases h with
  | sink ln _ _ heq => exact ⟨ln.key, by rw [heq]; rfl⟩
  | rail ln _ _ h => exact ⟨ln.key, h.keys⟩
  | settlement ln _ _ h => exact ⟨ln.key, h.keys⟩
  | split sid net date sub _ heq => exact absurd hsplit (by simp [heq, splitCandidate])

end Builder

/-! ## Components -/

section Components

variable {credits settlements : Dict String SolverNode} {candidates : List CandidateAssignment}

theorem mem_competitors {cs : List CandidateAssignment} {k : String} :
    k ∈ competitors cs ↔ ∃ c ∈ cs, k ∈ c.creditKeys := by
  unfold competitors
  rw [(List.perm_insertionSort _ _).mem_iff, List.mem_dedup, List.mem_flatMap]

/-- The credits that compete for a settlement. -/
theorem mem_competitors_of_target {sid k : String} :
    (∃ cs, (candidatesBySettlement settlements candidates).get? sid = some cs ∧ k ∈ competitors cs) ↔
      sid ∈ settlements.keys ∧ ∃ c ∈ candidates, c.targetId = sid ∧ k ∈ c.creditKeys := by
  have hgather := Dict.getD_get?_gather_append
    (fun c : CandidateAssignment => if c.targetId ∈ settlements.keys then some c.targetId else none)
    id candidates sid
  have hmem : ∀ c, c ∈ ((candidatesBySettlement settlements candidates).get? sid).getD [] ↔
      c ∈ candidates ∧ sid ∈ settlements.keys ∧ c.targetId = sid := by
    intro c
    unfold candidatesBySettlement
    rw [show (fun (c : CandidateAssignment) (cs : Option (List CandidateAssignment)) => cs.getD [] ++ [c]) =
      fun c cs => cs.getD [] ++ [id c] from rfl, hgather, List.map_id, List.mem_filter, decide_eq_true_eq]
    constructor
    · intro h
      obtain ⟨hc, hkey⟩ := h
      split at hkey
      · rename_i hin
        rw [← Option.some.inj hkey]
        exact ⟨hc, hin, rfl⟩
      · exact absurd hkey (by simp)
    · intro h
      obtain ⟨hc, hin, rfl⟩ := h
      exact ⟨hc, if_pos hin⟩
  constructor
  · intro h
    obtain ⟨cs, hget, hk⟩ := h
    obtain ⟨c, hc, hkc⟩ := mem_competitors.mp hk
    obtain ⟨hcand, hsid, htarget⟩ := (hmem c).mp (by rw [hget]; exact hc)
    exact ⟨hsid, c, hcand, htarget, hkc⟩
  · intro h
    obtain ⟨hsid, c, hc, htarget, hk⟩ := h
    have hin := (hmem c).mpr ⟨hc, hsid, htarget⟩
    cases hget : (candidatesBySettlement settlements candidates).get? sid with
    | none =>
        rw [hget] at hin
        exact absurd hin List.not_mem_nil
    | some cs =>
        rw [hget] at hin
        exact ⟨cs, rfl, mem_competitors.mpr ⟨c, hin, hk⟩⟩

theorem mem_neighbours {k k' : String} :
    k' ∈ neighbours (candidatesBySettlement settlements candidates) k ↔
      k' ≠ k ∧ ∃ sid ∈ settlements.keys,
        (∃ c ∈ candidates, c.targetId = sid ∧ k ∈ c.creditKeys) ∧
        ∃ c ∈ candidates, c.targetId = sid ∧ k' ∈ c.creditKeys := by
  unfold neighbours
  rw [(List.perm_insertionSort _ _).mem_iff, List.mem_dedup, List.mem_flatMap]
  constructor
  · intro h
    obtain ⟨p, hp, hk'⟩ := h
    split at hk'
    · rename_i hk
      obtain ⟨hk', hne⟩ := List.mem_filter.mp hk'
      have hget := Dict.get?_of_mem (k := p.1) (v := p.2) hp
      obtain ⟨hsid, c, hc⟩ := mem_competitors_of_target.mp ⟨p.2, hget, hk⟩
      obtain ⟨_, c', hc'⟩ := mem_competitors_of_target.mp ⟨p.2, hget, hk'⟩
      exact ⟨of_decide_eq_true hne, p.1, hsid, ⟨c, hc⟩, c', hc'⟩
    · exact absurd hk' List.not_mem_nil
  · intro h
    obtain ⟨hne, sid, hsid, ⟨c, hc⟩, c', hc'⟩ := h
    obtain ⟨cs, hget, hk⟩ := mem_competitors_of_target.mpr ⟨hsid, c, hc⟩
    obtain ⟨cs', hget', hk'⟩ := mem_competitors_of_target.mpr ⟨hsid, c', hc'⟩
    rw [hget, Option.some.injEq] at hget'
    subst hget'
    refine ⟨(sid, cs), Dict.get?_eq_some.mp hget, ?_⟩
    rw [if_pos hk]
    exact List.mem_filter.mpr ⟨hk', decide_eq_true hne⟩

theorem undirected_neighbours (hsub : ∀ c ∈ candidates, c.creditKeys ⊆ credits.keys) :
    Undirected (neighbours (candidatesBySettlement settlements candidates))
      (credits.keys.insertionSort (· ≤ ·)) where
  nodes_nodup := (List.perm_insertionSort _ _).nodup_iff.mpr (Dict.nodup_keys _)
  adj_nodup k := (List.perm_insertionSort _ _).nodup_iff.mpr (List.nodup_dedup _)
  adj_subset := by
    intro k k' hk'
    obtain ⟨_, _, _, _, c, hc, _, hkc⟩ := mem_neighbours.mp hk'
    exact (List.perm_insertionSort _ _).mem_iff.mpr (hsub c hc hkc)
  symm := by
    intro k k' hk'
    obtain ⟨hne, sid, hsid, hc, hc'⟩ := mem_neighbours.mp hk'
    exact mem_neighbours.mpr ⟨hne.symm, sid, hsid, hc', hc⟩

theorem mem_creditComponents {comp : List String} (h : comp ∈ creditComponents credits settlements candidates) :
    ∃ comp' ∈ components (neighbours (candidatesBySettlement settlements candidates))
      (credits.keys.insertionSort (· ≤ ·)), comp.Perm comp' := by
  unfold creditComponents at h
  rw [(List.perm_insertionSort _ _).mem_iff, List.mem_map] at h
  obtain ⟨comp', hmem, rfl⟩ := h
  exact ⟨comp', hmem, List.perm_insertionSort _ _⟩

theorem flatten_creditComponents (hsub : ∀ c ∈ candidates, c.creditKeys ⊆ credits.keys) :
    (creditComponents credits settlements candidates).flatten.Perm credits.keys := by
  have hsorted : ∀ comps : List (List String),
      (comps.map fun comp => comp.insertionSort (· ≤ ·)).flatten.Perm comps.flatten := by
    intro comps
    induction comps with
    | nil => exact List.Perm.refl _
    | cons comp comps ih => exact (List.perm_insertionSort _ _).append ih
  unfold creditComponents
  refine (List.perm_insertionSort _ _).flatten.trans ((hsorted _).trans ?_)
  exact (components_perm (undirected_neighbours hsub)).trans (List.perm_insertionSort _ _)

/-- The credits that compete for a settlement with a credit of the component are in the component. -/
theorem competing_creditComponents (hsub : ∀ c ∈ candidates, c.creditKeys ⊆ credits.keys) {comp : List String}
    (hcomp : comp ∈ creditComponents credits settlements candidates) {c c' : CandidateAssignment}
    (hc : c ∈ candidates) (hc' : c' ∈ candidates) (hsettled : c.targetId ∈ settlements.keys)
    (htarget : c'.targetId = c.targetId) (htouch : ∃ k ∈ c.creditKeys, k ∈ comp) :
    c'.creditKeys ⊆ comp := by
  obtain ⟨comp', hmem, hperm⟩ := mem_creditComponents hcomp
  obtain ⟨k, hk, hin⟩ := htouch
  have hclosed := components_closed (undirected_neighbours hsub) hmem
  intro k' hk'
  by_cases heq : k' = k
  · exact heq ▸ hin
  · refine hperm.symm.subset (hclosed k (hperm.subset hin) (mem_neighbours.mpr ⟨heq, c.targetId, hsettled, ?_⟩))
    exact ⟨⟨c, hc, rfl, hk⟩, c', hc', htarget, hk'⟩

end Components

/-! ## The contract -/

/-- **Every graph the builder makes meets the solver's contract.** -/
theorem buildCandidateGraph_wellFormed (U : Unicode) (gs : GraphSettings) (index : ReconIndex)
    (lines : List BankCreditLine) : WellFormed (buildCandidateGraph U gs index lines) := by
  have horigin : ∀ c ∈ (buildCandidateGraph U gs index lines).candidates, Origin U gs index lines c :=
    fun c hc => (mem_graphCandidates hc).1
  have hsub : ∀ c ∈ (graphCandidates U gs index lines).1, c.creditKeys ⊆ (creditNodes lines).keys :=
    fun c hc => (horigin c hc).keys_subset
  refine
    { keys_ne := fun c hc => (horigin c hc).keys_ne
      keys_subset := hsub
      cost := fun c hc => (horigin c hc).costOk
      single := fun c hc => (horigin c hc).single
      split := fun c hc => (horigin c hc).split_target
      enumerated := fun c hc => (mem_graphCandidates hc).2
      sink := ?_
      components := flatten_creditComponents hsub
      closed := ?_
      competing := fun comp hcomp c hc c' hc' => competing_creditComponents hsub hcomp hc hc' }
  · intro k hk
    obtain ⟨ln, hln, hcredit, rfl⟩ := mem_creditNodes.mp hk
    refine ⟨abstainCandidate ln, abstainCandidate_mem hln hcredit, ⟨rfl, rfl, rfl⟩, ?_⟩
    unfold isGraphCredit at hcredit
    rw [Bool.and_eq_true, decide_eq_true_eq] at hcredit
    exact hcredit.2
  · intro comp hcomp c hc htouch
    cases hsplit : c.isSplit with
    | true =>
        exact competing_creditComponents hsub hcomp hc hc ((horigin c hc).split_target hsplit).2 rfl htouch
    | false =>
        obtain ⟨k, hkeys⟩ := (horigin c hc).single hsplit
        obtain ⟨k', hk', hin⟩ := htouch
        rw [hkeys, List.mem_singleton] at hk'
        rw [hkeys, List.cons_subset, ← hk']
        exact ⟨hin, List.nil_subset _⟩

end Untangle
