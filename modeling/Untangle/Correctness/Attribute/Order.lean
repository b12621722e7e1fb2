import Untangle.Correctness.Attribute.Sensitive
import Untangle.Correctness.Evidence

/-!
# `Correctness.Attribute.Order` — attribution in every order of its inputs

The converse of `verdictOf_same`: for an order-sensitive credit two orders of the report are built, one with the
settlements by id, where nothing is doubled, and one in which a single settlement is moved before its largest
partner, where exactly one pair is. `order_independent_iff` joins the two directions.
-/

namespace Untangle

open Lib

/-! ## The report in a given order of its settlements -/

section Ranked

variable {L : Type} [LinearOrder L] (rank : String → L) (U : Unicode) (rows : List ReconRow)

def sidOf (r : ReconRow) : String := (truthy r.settlementId).getD ""

/-- The rows by the rank of their settlement. -/
def rankedRows : List ReconRow := rows.insertionSort fun r r' => rank (sidOf r) ≤ rank (sidOf r')

instance : Std.Total fun r r' : ReconRow => rank (sidOf r) ≤ rank (sidOf r') :=
  ⟨fun r r' => le_total (rank (sidOf r)) (rank (sidOf r'))⟩

instance : IsTrans ReconRow fun r r' => rank (sidOf r) ≤ rank (sidOf r') :=
  ⟨fun _ _ _ h h' => le_trans h h'⟩

theorem rankedRows_perm : rows.Perm (rankedRows rank rows) := (List.perm_insertionSort _ rows).symm

/-- **The pool follows the rank.** -/
theorem rank_le_of_pool {line : BankCreditLine} {x y : Item}
    (h : [x, y].Sublist (setsumPool (ReconIndex.ofRows U (rankedRows rank rows)) line)) :
    rank x.1 ≤ rank y.1 := by
  have hsorted : (rankedRows rank rows).Pairwise fun r r' =>
      ∀ k k', truthy r.settlementId = some k → truthy r'.settlementId = some k' → rank k ≤ rank k' := by
    refine (List.pairwise_insertionSort (fun r r' => rank (sidOf r) ≤ rank (sidOf r')) rows).imp ?_
    intro r r' hle k k' hk hk'
    unfold sidOf at hle
    rw [hk, hk'] at hle
    exact hle
  have hkeys := Dict.pairwise_keys_gather (fun r : ReconRow => truthy r.settlementId)
    (fun r (net : Option ℤ) => net.getD 0 + r.netPaise) hsorted
  have hsub : ([x, y].map Prod.fst).Sublist (netBySettlement (rankedRows rank rows)).keys :=
    (h.trans List.filter_sublist).map Prod.fst
  have hpair : ([x, y].map Prod.fst).Pairwise fun k k' => rank k ≤ rank k' := hkeys.sublist hsub
  exact (List.pairwise_cons.mp hpair).1 y.1 (List.mem_singleton.mpr rfl)

end Ranked

/-! ## The two orders -/

section TwoOrders

variable {U : Unicode} {pack : NarrationEvidencePack} {rows : List ReconRow} {line : BankCreditLine}

/-- With the settlements by id the larger id never comes first. -/
theorem no_doubled_of_id_order (x y : Item) :
    ¬ DoubledPair (setsumPool (ReconIndex.ofRows U (rankedRows id rows)) line) line.amountPaise x y :=
  fun h => absurd (rank_le_of_pool id U rows h.1) (not_le.mpr h.2.1)

/-- By id, but with `x₀` right before `y₀`. -/
def movedRank (x₀ y₀ : String) (sid : String) : String ×ₗ Nat :=
  if sid = x₀ then toLex (y₀, 0) else toLex (sid, 1)

/-- **With `x₀` moved before its largest partner** exactly that pair is doubled. -/
theorem doubledPair_moved_iff (hdates : DatesConsistent rows) (hutrs : UtrsConsistent U rows) {x₀ y₀ : Item}
    (hxy : Doubling (setsumPool (ReconIndex.ofRows U rows) line) line.amountPaise x₀ y₀)
    (hmax : ∀ y, Doubling (setsumPool (ReconIndex.ofRows U rows) line) line.amountPaise x₀ y → y.1 ≤ y₀.1)
    (x y : Item) :
    DoubledPair (setsumPool (ReconIndex.ofRows U (rankedRows (movedRank x₀.1 y₀.1) rows)) line)
      line.amountPaise x y ↔ x = x₀ ∧ y = y₀ := by
  have hsame := sameReport_ofRows (U := U) hdates hutrs (rankedRows_perm (movedRank x₀.1 y₀.1) rows)
  have hperm := hsame.setsumPool line
  have hv : ValidPool (setsumPool (ReconIndex.ofRows U (rankedRows (movedRank x₀.1 y₀.1) rows)) line)
      line.amountPaise := validPool_setsumPool
  have hne : y₀.1 ≠ x₀.1 := ne_of_lt hxy.2.2.1
  constructor
  · intro h
    have hrank := rank_le_of_pool (movedRank x₀.1 y₀.1) U rows h.1
    have hback := h.doubling.perm hperm.symm
    unfold movedRank at hrank
    by_cases hx : x.1 = x₀.1
    · have hxx : x = x₀ := item_ext validPool_setsumPool.nodup hback.1 hxy.1 hx
      subst hxx
      have hyx : y.1 ≠ x.1 := ne_of_lt h.2.1
      rw [if_pos rfl, if_neg hyx, Prod.Lex.toLex_le_toLex] at hrank
      have hle : y₀.1 ≤ y.1 := by
        rcases hrank with hlt | heq
        · exact hlt.le
        · exact heq.1.le
      exact ⟨rfl, item_ext validPool_setsumPool.nodup hback.2.1 hxy.2.1 (le_antisymm (hmax y hback) hle)⟩
    · exfalso
      rw [if_neg hx] at hrank
      by_cases hy : y.1 = x₀.1
      · rw [if_pos hy, Prod.Lex.toLex_le_toLex] at hrank
        have hle : x.1 ≤ y₀.1 := by
          rcases hrank with hlt | heq
          · exact hlt.le
          · exact heq.1.le
        exact absurd (hle.trans_lt (hxy.2.2.1.trans_eq hy.symm)) (lt_asymm h.2.1)
      · rw [if_neg hy, Prod.Lex.toLex_le_toLex] at hrank
        rcases hrank with hlt | heq
        · exact lt_asymm hlt h.2.1
        · exact absurd heq.1 (ne_of_gt h.2.1)
  · rintro ⟨rfl, rfl⟩
    obtain ⟨hx, hy, hlt, hsum⟩ := hxy.perm hperm
    refine ⟨?_, hlt, hsum⟩
    rcases pair_sublist_or (fun heq => hne (congrArg Prod.fst heq).symm) hx hy with hsub | hsub
    · exact hsub
    · exfalso
      have hrank := rank_le_of_pool (movedRank x.1 y.1) U rows hsub
      unfold movedRank at hrank
      rw [if_pos rfl, if_neg hne, Prod.Lex.toLex_le_toLex] at hrank
      rcases hrank with hlt' | heq
      · exact lt_irrefl _ hlt'
      · exact absurd heq.2 (by simp)

/-- A pair that can be doubled has a largest partner. -/
theorem exists_largest_partner {cands : List Item} {target : ℤ} {x y : Item}
    (h : Doubling cands target x y) :
    ∃ y₀, Doubling cands target x y₀ ∧ ∀ y, Doubling cands target x y → y.1 ≤ y₀.1 := by
  have hne : (cands.filter fun y => y.1 < x.1 ∧ 2 * x.2 + y.2 = target).toFinset.Nonempty :=
    ⟨y, List.mem_toFinset.mpr (List.mem_filter.mpr ⟨h.2.1, by simpa using h.2.2⟩)⟩
  obtain ⟨y₀, hy₀, hmax⟩ := Finset.exists_max_image _ (fun y : Item => y.1) hne
  obtain ⟨hmem, hcond⟩ := List.mem_filter.mp (List.mem_toFinset.mp hy₀)
  rw [decide_eq_true_eq] at hcond
  refine ⟨y₀, ⟨h.1, hmem, hcond⟩, ?_⟩
  intro y' hy'
  exact hmax y' (List.mem_toFinset.mpr (List.mem_filter.mpr ⟨hy'.2.1, by simpa using hy'.2.2⟩))

/-- By id the search finds the sums, -/
theorem count_of_id_order (hdates : DatesConsistent rows) (hutrs : UtrsConsistent U rows)
    (hlarge : setsumExpansionMaxCandidates < (setsumPool (ReconIndex.ofRows U rows) line).length) :
    satisfyingCount (ReconIndex.ofRows U (rankedRows id rows)) line =
      (setsumSingles (ReconIndex.ofRows U rows) line).length +
        min 2 (genuineSets (setsumPool (ReconIndex.ofRows U rows) line) line.amountPaise).card := by
  have hsame := sameReport_ofRows (U := U) hdates hutrs (rankedRows_perm id rows)
  have hperm := hsame.setsumPool line
  unfold satisfyingCount foundSets
  rw [← (hsame.setsumSingles line).length_eq, if_neg (not_le.mpr (hperm.length_eq ▸ hlarge)),
    legacySets_of_no_doubled validPool_setsumPool no_doubled_of_id_order,
    genuineSets_perm validPool_setsumPool.items hperm]

/-- and with the settlement moved the search finds one set more. -/
theorem count_of_moved_order (hdates : DatesConsistent rows) (hutrs : UtrsConsistent U rows)
    (hlarge : setsumExpansionMaxCandidates < (setsumPool (ReconIndex.ofRows U rows) line).length)
    {x₀ y₀ : Item}
    (hxy : Doubling (setsumPool (ReconIndex.ofRows U rows) line) line.amountPaise x₀ y₀)
    (hmax : ∀ y, Doubling (setsumPool (ReconIndex.ofRows U rows) line) line.amountPaise x₀ y → y.1 ≤ y₀.1) :
    satisfyingCount (ReconIndex.ofRows U (rankedRows (movedRank x₀.1 y₀.1) rows)) line =
      (setsumSingles (ReconIndex.ofRows U rows) line).length +
        min 2 ((genuineSets (setsumPool (ReconIndex.ofRows U rows) line) line.amountPaise).card + 1) := by
  have hsame := sameReport_ofRows (U := U) hdates hutrs (rankedRows_perm (movedRank x₀.1 y₀.1) rows)
  have hperm := hsame.setsumPool line
  have hiff := doubledPair_moved_iff hdates hutrs hxy hmax
  have hsets : legacySets (setsumPool (ReconIndex.ofRows U (rankedRows (movedRank x₀.1 y₀.1) rows)) line)
      line.amountPaise = insert {x₀.1, y₀.1}
        (genuineSets (setsumPool (ReconIndex.ofRows U rows) line) line.amountPaise) := by
    ext set
    rw [mem_legacySets validPool_setsumPool.items, genuineSets_perm validPool_setsumPool.items hperm,
      Finset.mem_insert, or_comm]
    refine or_congr_left ⟨fun h => ?_, fun h => ?_⟩
    · obtain ⟨x, y, hdoubled, rfl⟩ := h
      obtain ⟨rfl, rfl⟩ := (hiff x y).mp hdoubled
      rfl
    · exact ⟨x₀, y₀, (hiff x₀ y₀).mpr ⟨rfl, rfl⟩, h⟩
  have hnew : ({x₀.1, y₀.1} : Finset String) ∉
      genuineSets (setsumPool (ReconIndex.ofRows U rows) line) line.amountPaise := by
    rw [genuineSets_perm validPool_setsumPool.items hperm]
    exact doubledPair_not_sum validPool_setsumPool.items ((hiff x₀ y₀).mpr ⟨rfl, rfl⟩)
  unfold satisfyingCount foundSets
  rw [← (hsame.setsumSingles line).length_eq, if_neg (not_le.mpr (hperm.length_eq ▸ hlarge)), hsets,
    Finset.card_insert_of_notMem hnew]

end TwoOrders

/-! ## The two verdicts -/

section TwoVerdicts

variable {U : Unicode} {s : Settings} {index : ReconIndex} {lines : List BankCreditLine}
  {line : BankCreditLine} {ans : SetsumAnswer}

/-- The verdict of a consulted credit before the splits, given the answer. -/
theorem lineVerdict_answer (h : Consulted U s.pack index line)
    (hans : setsumEvidence index line = .ok (ans.items line)) :
    lineVerdict U s index line =
      (answerDecision s.threshold line (razorpaySignals U s.pack index line) ans).finish s line
        (narrationRailSignals U s.pack line) := by
  unfold lineVerdict
  rw [lineDecision_consulted h hans]

theorem combine_pos_of_corr {ev : List EvidenceItem} (hev : ev = razorpaySignals U s.pack index line)
    (hcorr : hasSignal ["amount_corr"] ev = true) :
    hasSignal rzpTieSignals ev = true ∧ 0 < combine ev := by
  refine ⟨hasSignal_mono (by decide) hcorr, ?_⟩
  obtain ⟨e, he, hsig⟩ := List.any_eq_true.mp hcorr
  have hname : e.signal = "amount_corr" := by simpa using hsig
  have hweight := (amount_corr_signal (hev ▸ he) hname).2.2
  have hclip : 3 / 10 ≤ clip e.weight := by
    unfold clip
    exact le_max_of_le_right (le_min (by norm_num) hweight)
  have hle := le_combine he
  exact lt_of_lt_of_le (by norm_num) ((le_min (by norm_num) hclip).trans hle)

/-- The confidence of a credit on which the search finds nothing or too much. -/
theorem confidence_of_nothing (h : Consulted U s.pack index line)
    (hans : setsumEvidence index line = .ok (SetsumAnswer.nothing.items line))
    (hno : hasSignal ["amount_corr"] (razorpaySignals U s.pack index line) = false) :
    (lineVerdict U s index line).confidence = 0 := by
  have htie : hasSignal rzpTieSignals (razorpaySignals U s.pack index line) = false := by
    rw [hasSignal_ties, h.noHard, hno]
    rfl
  rw [lineVerdict_answer h hans]
  show ((aloneDecision _ _ _ _).finish s line _).confidence = 0
  rw [aloneDecision_of_no_tie htie]
  rfl

theorem confidence_of_multiple (h : Consulted U s.pack index line) {n : Nat}
    (hans : setsumEvidence index line = .ok ((SetsumAnswer.multiple n).items line)) :
    (lineVerdict U s index line).confidence = 0 := by
  rw [lineVerdict_answer h hans]
  rfl

theorem confidence_of_corr (h : Consulted U s.pack index line)
    (hans : setsumEvidence index line = .ok (SetsumAnswer.nothing.items line))
    (hcorr : hasSignal ["amount_corr"] (razorpaySignals U s.pack index line) = true) :
    0 < (lineVerdict U s index line).confidence := by
  obtain ⟨htie, hpos⟩ := combine_pos_of_corr rfl hcorr
  rw [lineVerdict_answer h hans]
  show 0 < ((aloneDecision _ _ _ _).finish s line _).confidence
  rw [confidence_finish_alone s htie hpos]
  exact hpos

theorem confidence_of_unique (h : Consulted U s.pack index line) {sids : List String}
    (hans : setsumEvidence index line = .ok ((SetsumAnswer.unique sids).items line)) :
    0 < (lineVerdict U s index line).confidence := by
  obtain ⟨htie, hscore⟩ := setsum_score (razorpaySignals U s.pack index line) sids
  have hpos : 0 < combine (razorpaySignals U s.pack index line ++ [setsumItem sids]) :=
    lt_of_lt_of_le (by norm_num) hscore
  rw [lineVerdict_answer h hans]
  show 0 < ((aloneDecision _ _ _ _).finish s line _).confidence
  rw [confidence_finish_alone s htie hpos]
  exact hpos

/-- With no threshold and no margin a score is a verdict, in its tier. -/
theorem accepted_of_score (line : BankCreditLine) (tier : Tier) (hthreshold : s.threshold ≤ 0) (hmargin : s.marginThreshold ≤ 0)
    {ev : List EvidenceItem} (htie : hasSignal rzpTieSignals ev = true)
    (hpos : 0 < combine ev) (nonRzp : Dict Rail (List EvidenceItem)) :
    Accepted ((aloneDecision s.threshold line ev tier).finish s line nonRzp) line ev (combine ev) tier := by
  unfold aloneDecision
  rw [if_pos (And.intro htie hpos), if_neg (not_lt.mpr (hthreshold.trans hpos.le))]
  exact finalize_accepted line tier (Or.inl hmargin)

/-- A line with a verdict of its own keeps it. -/
theorem verdictOf_of_open (hnd : (lines.map BankCreditLine.key).Nodup) (hline : line ∈ lines)
    (hopen : (lineVerdict U s index line).abstained = false) :
    verdictOf U s index lines line = lineVerdict U s index line := by
  refine verdictOf_of_not_lifted hnd fun hlifted => ?_
  have habs := (mem_splitCandidates.mp (hlifted.mem hnd hline)).2.1
  rw [hopen] at habs
  exact absurd habs (by simp)

theorem verdictOf_of_off (hoff : splitConfidence < s.threshold) :
    verdictOf U s index lines line = lineVerdict U s index line := by
  unfold verdictOf
  rw [if_pos hoff]

end TwoVerdicts

/-! ## Every order -/

section EveryOrder

variable {U : Unicode} {pack : NarrationEvidencePack} {rows : List ReconRow} {lines : List BankCreditLine}
  {line : BankCreditLine}

theorem verdict_ne_of_confidence {a a' : RailAttribution} (h : a.confidence ≠ a'.confidence) :
    a.verdict ≠ a'.verdict := fun heq => h (congrArg (fun v => v.2.2.2.1) heq)

theorem verdict_ne_of_tier {a a' : RailAttribution} (h : a.tier ≠ a'.tier) : a.verdict ≠ a'.verdict :=
  fun heq => h (congrArg (fun v => v.2.2.1) heq)

/-- A threshold that switches the split reconstruction off. -/
theorem splitConfidence_lt : splitConfidence < 19 / 20 := by decide +kernel

/-- **An order-sensitive credit has two verdicts**: its confidence, or at threshold zero its tier, differs
    between two orders of the report. -/
theorem verdicts_differ (hdates : DatesConsistent rows) (hutrs : UtrsConsistent U rows)
    (hnd : (lines.map BankCreditLine.key).Nodup) (hline : line ∈ lines)
    (h : OrderSensitive U pack (ReconIndex.ofRows U rows) line) :
    ∃ threshold rowsA rowsB, rows.Perm rowsA ∧ rows.Perm rowsB ∧
      (verdictOf U ⟨threshold, 0, false, pack⟩ (ReconIndex.ofRows U rowsA) lines line).verdict ≠
        (verdictOf U ⟨threshold, 0, false, pack⟩ (ReconIndex.ofRows U rowsB) lines line).verdict := by
  obtain ⟨x₀, y, hdoubling⟩ := h.doubling
  obtain ⟨y₀, hxy, hmax⟩ := exists_largest_partner hdoubling
  have hpermA := rankedRows_perm id rows
  have hpermB := rankedRows_perm (movedRank x₀.1 y₀.1) rows
  have hcountA := count_of_id_order hdates hutrs h.large
  have hcountB := count_of_moved_order hdates hutrs h.large hxy hmax
  have hsameA := sameReport_ofRows (U := U) hdates hutrs hpermA
  have hsameB := sameReport_ofRows (U := U) hdates hutrs hpermB
  have hconsA := h.consulted.same hsameA
  have hconsB := h.consulted.same hsameB
  have hevA := hsameA.razorpaySignals U pack line
  have hevB := hsameB.razorpaySignals U pack line
  have hsinglesA := (hsameA.setsumSingles line).length_eq
  have hsinglesB := (hsameB.setsumSingles line).length_eq
  have hsearched : Searched (ReconIndex.ofRows U rows) line :=
    ⟨h.consulted.isCredit, List.ne_nil_of_length_pos (lt_of_le_of_lt (Nat.zero_le _) h.large), h.bounded⟩
  have hsearchedA := hsameA.searched hsearched
  have hsearchedB := hsameB.searched hsearched
  obtain ⟨ansA, hansA, hspecA⟩ := setsumEvidence_spec (ReconIndex.ofRows U (rankedRows id rows)) line
  obtain ⟨ansB, hansB, hspecB⟩ := setsumEvidence_spec
    (ReconIndex.ofRows U (rankedRows (movedRank x₀.1 y₀.1) rows)) line
  rcases h.undecided with ⟨hnil, hcard⟩ | ⟨hone, hempty, hcorr⟩
  · rw [hnil, List.length_nil] at hsinglesA hsinglesB hcountA hcountB
    have hnilA := List.length_eq_zero_iff.mp hsinglesA.symm
    have hnilB := List.length_eq_zero_iff.mp hsinglesB.symm
    rcases Nat.le_one_iff_eq_zero_or_eq_one.mp hcard with hzero | hone
    · -- no sum: nothing by id, one doubled set after the move
      rw [hzero] at hcountA hcountB
      have hansA' := hspecA.eq_nothing_of_count (Or.inl (by omega))
      obtain ⟨sids, hansB'⟩ := hspecB.exists_unique hsearchedB (by omega) hnilB
      subst hansA' hansB'
      by_cases hcorr : hasSignal ["amount_corr"]
          (razorpaySignals U pack (ReconIndex.ofRows U rows) line) = true
      · refine ⟨0, _, _, hpermA, hpermB, ?_⟩
        obtain ⟨htieA, hposA⟩ := combine_pos_of_corr (s := ⟨0, 0, false, pack⟩) rfl (hevA ▸ hcorr)
        obtain ⟨htieB, hscoreB⟩ := setsum_score
          (razorpaySignals U pack (ReconIndex.ofRows U (rankedRows (movedRank x₀.1 y₀.1) rows)) line) sids
        have haccA := accepted_of_score (s := ⟨0, 0, false, pack⟩) line .b le_rfl le_rfl
          htieA hposA (narrationRailSignals U pack line)
        have haccB := accepted_of_score (s := ⟨0, 0, false, pack⟩) line .c le_rfl le_rfl
          htieB (lt_of_lt_of_le (by norm_num) hscoreB) (narrationRailSignals U pack line)
        have hownA := lineVerdict_answer (s := ⟨0, 0, false, pack⟩) hconsA hansA
        have hownB := lineVerdict_answer (s := ⟨0, 0, false, pack⟩) hconsB hansB
        rw [verdictOf_of_open hnd hline (by rw [hownA]; exact haccA.open_),
          verdictOf_of_open hnd hline (by rw [hownB]; exact haccB.open_), hownA, hownB]
        refine verdict_ne_of_tier ?_
        rw [show (Decision.finish _ line _ (answerDecision _ line _ .nothing)).tier = Tier.b.value
          from haccA.tier, show (Decision.finish _ line _ (answerDecision _ line _ (.unique sids))).tier
          = Tier.c.value from haccB.tier]
        decide
      · refine ⟨19 / 20, _, _, hpermA, hpermB, verdict_ne_of_confidence ?_⟩
        rw [verdictOf_of_off splitConfidence_lt, verdictOf_of_off splitConfidence_lt,
          confidence_of_nothing (s := ⟨19 / 20, 0, false, pack⟩) hconsA hansA
            (hevA ▸ Bool.eq_false_iff.mpr hcorr)]
        exact ne_of_lt (confidence_of_unique (s := ⟨19 / 20, 0, false, pack⟩) hconsB hansB)
    · -- one sum: unique by id, a second set after the move
      rw [hone] at hcountA hcountB
      obtain ⟨sids, rfl⟩ := hspecA.exists_unique hsearchedA (by omega) hnilA
      obtain ⟨n, rfl⟩ := hspecB.exists_multiple hsearchedB (by omega)
      refine ⟨19 / 20, _, _, hpermA, hpermB, verdict_ne_of_confidence ?_⟩
      rw [verdictOf_of_off splitConfidence_lt, verdictOf_of_off splitConfidence_lt,
        confidence_of_multiple (s := ⟨19 / 20, 0, false, pack⟩) hconsB hansB]
      exact ne_of_gt (confidence_of_unique (s := ⟨19 / 20, 0, false, pack⟩) hconsA hansA)
  · -- the unique net: nothing more by id, a second set after the move
    rw [hempty, Finset.card_empty, hone] at hcountA hcountB
    have hansA' := hspecA.eq_nothing_of_count (Or.inr ⟨by omega, by omega⟩)
    obtain ⟨n, hansB'⟩ := hspecB.exists_multiple hsearchedB (by omega)
    subst hansA' hansB'
    refine ⟨19 / 20, _, _, hpermA, hpermB, verdict_ne_of_confidence ?_⟩
    rw [verdictOf_of_off splitConfidence_lt, verdictOf_of_off splitConfidence_lt,
      confidence_of_multiple (s := ⟨19 / 20, 0, false, pack⟩) hconsB hansB]
    exact ne_of_gt (confidence_of_corr (s := ⟨19 / 20, 0, false, pack⟩) hconsA hansA (hevA ▸ hcorr))

/-- The same verdict for every line, whatever the order in which they are listed. -/
def SameVerdicts (out out' : List RailAttribution) : Prop :=
  (out.map RailAttribution.verdict).Perm (out'.map RailAttribution.verdict)

/-- **Attribution does not depend on the order of its inputs iff no line is order sensitive.** -/
theorem order_independent_iff (U : Unicode) (pack : NarrationEvidencePack) (rows : List ReconRow)
    (lines : List BankCreditLine) (hdates : DatesConsistent rows) (hutrs : UtrsConsistent U rows)
    (hnd : (lines.map BankCreditLine.key).Nodup) :
    (∀ threshold margin audit rows' lines', rows.Perm rows' → lines.Perm lines' →
      ∃ out out', attributeAll U ⟨threshold, margin, audit, pack⟩ (ReconIndex.ofRows U rows) lines = .ok out ∧
        attributeAll U ⟨threshold, margin, audit, pack⟩ (ReconIndex.ofRows U rows') lines' = .ok out' ∧
        SameVerdicts out out') ↔
      ∀ line ∈ lines, ¬ OrderSensitive U pack (ReconIndex.ofRows U rows) line := by
  constructor
  · intro hall line hline hsensitive
    obtain ⟨threshold, rowsA, rowsB, hA, hB, hdiffer⟩ :=
      verdicts_differ hdates hutrs hnd hline hsensitive
    have hverdicts : ∀ rows', rows.Perm rows' →
        ((lines.map (verdictOf U ⟨threshold, 0, false, pack⟩ (ReconIndex.ofRows U rows) lines)).map
          RailAttribution.verdict).Perm
        ((lines.map (verdictOf U ⟨threshold, 0, false, pack⟩ (ReconIndex.ofRows U rows') lines)).map
          RailAttribution.verdict) := by
      intro rows' hrows
      obtain ⟨out, out', hout, hout', hsame⟩ := hall threshold 0 false rows' lines hrows (List.Perm.refl _)
      rw [attributeAll_eq] at hout hout'
      rw [Except.ok.inj hout, Except.ok.inj hout']
      exact hsame
    have hAB := (hverdicts rowsA hA).symm.trans (hverdicts rowsB hB)
    rw [List.map_map, List.map_map] at hAB
    obtain ⟨other, hother, heq⟩ := List.mem_map.mp (hAB.mem_iff.mp (List.mem_map_of_mem hline))
    have hkey : other.key = line.key := by
      have hkeys := congrArg Prod.fst heq
      have hother : (verdictOf U ⟨threshold, 0, false, pack⟩ (ReconIndex.ofRows U rowsB) lines other).lineKey =
        other.key := lineKey_verdictOf other
      exact hother.symm.trans (hkeys.trans (lineKey_verdictOf line))
    rw [line_ext hnd hother hline hkey] at heq
    exact hdiffer heq.symm
  · intro hnone threshold margin audit rows' lines' hrows hlines
    refine ⟨_, _, attributeAll_eq U _ _ lines, attributeAll_eq U _ _ lines', ?_⟩
    have hsame := sameReport_ofRows (U := U) hdates hutrs hrows
    unfold SameVerdicts
    rw [List.map_map, List.map_map]
    refine List.Perm.trans (List.Perm.of_eq (List.map_congr_left fun line hline => ?_)) (hlines.map _)
    exact verdictOf_same (s := ⟨threshold, margin, audit, pack⟩) hsame hlines hnd hnone hline

/-- Fifteen settlements of even nets above Rs 2002, and the pair `S01`, `S02` of which the second, counted twice,
    completes Rs 2501.00. -/
def evenRows : List ReconRow :=
  (List.range 15).map fun (i : Nat) =>
    settledRow ("pay_1" ++ toString i) ("S1" ++ toString i) none (200200 + 200 * (i : ℤ))

def byIdReport : List ReconRow :=
  settledRow "pay_01" "S01" none 50100 :: settledRow "pay_02" "S02" none 100000 :: evenRows

def movedReport : List ReconRow :=
  settledRow "pay_02" "S02" none 100000 :: settledRow "pay_01" "S01" none 50100 :: evenRows

/-- A credit with the settlement IFSC in its narration. -/
def ifscCredit : List BankCreditLine := [creditLine "a" "NEFT RATN0000088" 250100]

/-- The hypotheses hold of that report. -/
theorem order_independent_iff_doubling :
    (∀ threshold margin audit rows' lines', byIdReport.Perm rows' → ifscCredit.Perm lines' →
      ∃ out out', attributeAll asciiUnicode ⟨threshold, margin, audit, defaultNarrationPack⟩
          (ReconIndex.ofRows asciiUnicode byIdReport) ifscCredit = .ok out ∧
        attributeAll asciiUnicode ⟨threshold, margin, audit, defaultNarrationPack⟩
          (ReconIndex.ofRows asciiUnicode rows') lines' = .ok out' ∧ SameVerdicts out out') ↔
      ∀ line ∈ ifscCredit, ¬ OrderSensitive asciiUnicode defaultNarrationPack
        (ReconIndex.ofRows asciiUnicode byIdReport) line :=
  order_independent_iff asciiUnicode defaultNarrationPack byIdReport ifscCredit (by decide +kernel)
    (by decide +kernel) (by decide)

/-- **Two rows swapped, another verdict**: by id the credit is UNKNOWN, with `S02` before `S01` it is booked as
    the sum of `S02`, `S01` and `S02`. -/
theorem row_order_decides :
    byIdReport.Perm movedReport ∧ DatesConsistent byIdReport ∧ UtrsConsistent asciiUnicode byIdReport ∧
      (attributeAll asciiUnicode ⟨11 / 20, 0, false, defaultNarrationPack⟩
          (ReconIndex.ofRows asciiUnicode byIdReport) ifscCredit).map
        (fun out => out.map RailAttribution.verdict) = .ok [("a", "UNKNOWN", "none", 0, true)] ∧
      (attributeAll asciiUnicode ⟨11 / 20, 0, false, defaultNarrationPack⟩
          (ReconIndex.ofRows asciiUnicode movedReport) ifscCredit).map
        (fun out => out.map fun a => (a.lineKey, a.rail, a.tier, a.abstained)) =
          .ok [("a", "razorpay_settlement", "C", false)] := by
  refine ⟨List.Perm.swap _ _ _, ?_, ?_, ?_, ?_⟩
  · decide +kernel
  · decide +kernel
  · decide +kernel
  · decide +kernel

end EveryOrder

end Untangle
