import Untangle.Correctness.Reconcile.Passes

/-!
# `Correctness.Reconcile.Conservation` — every row is covered at most once

Conservation rests on one list: the settlements used so far. Each accepted answer is disjoint from it
(`AnswerFacts.unused`), so the list stays duplicate-free exactly as long as every accepted answer is. The
only answer that is not is the doubled tuple of the amount-indexed search, and `DoubledAnswer` says when the
search returns it. `reconcile_conserves_iff` is the resulting equivalence over whole runs.
-/

namespace Untangle

open Lib

/-! ## When the search answers with a doubled tuple -/

section Doubled

variable {ix : SettlementIndex} {line : BankCreditLine} {used : List String}

/-- No single settlement fits, the pool is one of the amount-indexed search, no two or three different
    settlements sum to the amount, and exactly one pair does when its first member is counted twice. -/
structure DoubledAnswer (ix : SettlementIndex) (line : BankCreditLine) (used : List String) : Prop where
  no_single : ix.singleSids line used = []
  large : setsumExpansionMaxCandidates < (ix.setsumCands line used).length
  bounded : (ix.setsumCands line used).length ≤ setsumMaxCandidates
  no_sum : sumSets (poolIds (ix.setsumCands line used)) (amountOf (ix.setsumCands line used)) 2 3
    line.amountPaise 0 = ∅
  doubled : ∃ x y, DoubledPair (ix.setsumCands line used) line.amountPaise x y ∧
    ∀ x' y', DoubledPair (ix.setsumCands line used) line.amountPaise x' y' → x' = x ∧ y' = y

theorem setsumSets_of_large (hlarge : setsumExpansionMaxCandidates < (ix.setsumCands line used).length)
    (hbounded : (ix.setsumCands line used).length ≤ setsumMaxCandidates) :
    ix.setsumSets line used = legacySets (ix.setsumCands line used) line.amountPaise := by
  have hne : ix.setsumCands line used ≠ [] := by
    intro h
    rw [h, List.length_nil] at hlarge
    omega
  unfold SettlementIndex.setsumSets foundSets
  rw [if_neg (not_or.mpr ⟨hne, not_lt.mpr hbounded⟩), if_neg (not_le.mpr hlarge)]

theorem DoubledAnswer.satisfyingSets (h : DoubledAnswer ix line used) :
    ∃ s, ix.satisfyingSets line used = {s} := by
  obtain ⟨x, y, hxy, honly⟩ := h.doubled
  refine ⟨{x.1, y.1}, ?_⟩
  have hsingle : ix.singleSets line used = ∅ := by
    unfold SettlementIndex.singleSets
    rw [h.no_single]
    rfl
  unfold SettlementIndex.satisfyingSets
  rw [hsingle, Finset.empty_union, setsumSets_of_large h.large h.bounded]
  apply Finset.ext
  intro s
  rw [mem_legacySets SettlementIndex.validPool_setsumCands.items, h.no_sum, Finset.mem_singleton]
  constructor
  · intro hs
    rcases hs with hs | ⟨x', y', hxy', rfl⟩
    · exact absurd hs (Finset.notMem_empty s)
    · obtain ⟨rfl, rfl⟩ := honly x' y' hxy'
      rfl
  · intro hs
    exact Or.inr ⟨x, y, hxy, hs⟩

/-- **An answer repeats a settlement exactly in the doubled situation.** -/
theorem nodup_answer_iff {sids : List String} (hsets : ix.satisfyingSets line used = {sids.toFinset})
    (hsound : ix.AnswerSound line used sids) : sids.Nodup ↔ ¬ DoubledAnswer ix line used := by
  have hv : ValidPool (ix.setsumCands line used) line.amountPaise :=
    SettlementIndex.validPool_setsumCands
  unfold SettlementIndex.AnswerSound at hsound
  rcases hsound with ⟨sid, hsid, rfl⟩ | ⟨_, hbounded, htuple⟩
  · refine ⟨fun _ h => ?_, fun _ => List.nodup_singleton sid⟩
    rw [h.no_single] at hsid
    exact List.not_mem_nil hsid
  · rcases htuple with ⟨hnd, _, hsum⟩ | ⟨hlarge, x, y, hxy, rfl⟩
    · refine ⟨fun _ h => ?_, fun _ => hnd⟩
      obtain ⟨x, y, hxy, _⟩ := h.doubled
      have hmem : ({x.1, y.1} : Finset String) ∈ ix.satisfyingSets line used := by
        refine Finset.mem_union_right _ ?_
        rw [setsumSets_of_large h.large h.bounded]
        exact (mem_legacySets hv.items).mpr (Or.inr ⟨x, y, hxy, rfl⟩)
      rw [hsets, Finset.mem_singleton] at hmem
      rw [← hmem] at hsum
      obtain ⟨hsub, hlo, _, htol⟩ := mem_sumSets.mp hsum
      refine doubledPair_not_sum hv.items hxy (mem_sumSets.mpr ⟨hsub, hlo, ?_, htol⟩)
      rw [Finset.card_pair (ne_of_gt hxy.2.1)]
      omega
    · refine ⟨fun h => absurd h (by simp), fun h => absurd ?_ h⟩
      have hsetsum := setsumSets_of_large hlarge hbounded
      have hall : ∀ s ∈ ix.satisfyingSets line used, s = {x.1, y.1} := by
        intro s hs
        rw [hsets, Finset.mem_singleton] at hs
        rw [hs]
        simp [Finset.pair_comm]
      have hlegacy : ∀ s ∈ legacySets (ix.setsumCands line used) line.amountPaise, s = {x.1, y.1} :=
        fun s hs => hall s (Finset.mem_union_right _ (hsetsum ▸ hs))
      refine ⟨?_, hlarge, hbounded, ?_, x, y, hxy, ?_⟩
      · apply List.eq_nil_iff_forall_not_mem.mpr
        intro sid hsid
        have hone := hall {sid} (Finset.mem_union_left _ (SettlementIndex.mem_singleSets.mpr
          ⟨sid, hsid, rfl⟩))
        have hcard := congrArg Finset.card hone
        rw [Finset.card_singleton, Finset.card_pair (ne_of_gt hxy.2.1)] at hcard
        omega
      · apply Finset.eq_empty_iff_forall_notMem.mpr
        intro s hs
        have heq := hlegacy s ((mem_legacySets hv.items).mpr (Or.inl hs))
        rw [heq] at hs
        exact doubledPair_not_sum hv.items hxy hs
      · intro x' y' hxy'
        exact doubledPair_ext hv.items hxy hxy'
          (hlegacy _ ((mem_legacySets hv.items).mpr (Or.inr ⟨x', y', hxy', rfl⟩)))

end Doubled

/-! ## Runs without a doubled answer -/

section Runs

variable {U : Unicode} {rows : List ReconRow} {ix : SettlementIndex} {rzp : List Credit}

/-- `P` holds of the state and the credit before every step of pass 2. -/
def BeforeEachStep (P : ReconcileState ix → Credit → Prop) : ReconcileState ix → List Credit → Prop
  | _, [] => True
  | st, p :: ps => P st p ∧ ∀ st', amountStep ix st p = .ok st' → BeforeEachStep P st' ps

/-- The step will not accept a doubled answer. -/
def Undoubled (st : ReconcileState ix) (p : Credit) : Prop :=
  skipped ix st p ∨ ¬ DoubledAnswer ix p.2 st.usedSids

theorem usedSids_accept (st : ReconcileState ix) (c : Cover ix) :
    (st.accept c).usedSids = st.usedSids ++ c.sids := by
  unfold ReconcileState.usedSids ReconcileState.accept
  rw [List.flatMap_append, List.flatMap_singleton]

theorem AmountStep.usedSids_nodup (hix : IndexSpec rows ix) {st st' : ReconcileState ix} {p : Credit}
    (hstep : AmountStep ix st p st') (hp : Undoubled st p) (h : st.usedSids.Nodup) :
    st'.usedSids.Nodup := by
  cases hstep with
  | skip => exact h
  | refuse _ giveup =>
      unfold ReconcileState.usedSids
      rw [noteGiveup_covers]
      exact h
  | cover hskip c _ _ hsets _ sound =>
      have hnd : c.sids.Nodup := (nodup_answer_iff hsets sound).mpr (hp.resolve_left hskip)
      rw [usedSids_accept, List.nodup_append]
      refine ⟨h, hnd, ?_⟩
      intro sid hsid sid' hsid' heq
      exact (answerFacts hix sound).unused sid' hsid' (heq ▸ hsid)

theorem AmountRun.usedSids_nodup (hix : IndexSpec rows ix) {st st' : ReconcileState ix}
    {ps : List Credit} (hrun : AmountRun ix st ps st') (hall : BeforeEachStep Undoubled st ps)
    (h : st.usedSids.Nodup) : st'.usedSids.Nodup := by
  induction hrun with
  | nil => exact h
  | cons step eq _ ih => exact ih (hall.2 _ eq) (step.usedSids_nodup hix hall.1 h)

/-- A doubled answer is always accepted. -/
theorem AmountStep.doubled {st st' : ReconcileState ix} {p : Credit} (hstep : AmountStep ix st p st')
    (hp : ¬ Undoubled st p) : ∃ c ∈ st'.covers, ¬ c.sids.Nodup := by
  unfold Undoubled at hp
  rw [not_or, not_not] at hp
  obtain ⟨hskip, hdoubled⟩ := hp
  cases hstep with
  | skip h => exact absurd h hskip
  | refuse _ _ hcard =>
      obtain ⟨s, hs⟩ := hdoubled.satisfyingSets
      rw [hs, Finset.card_singleton] at hcard
      exact absurd rfl hcard
  | cover _ c _ _ hsets _ sound =>
      exact ⟨c, List.mem_append_right _ (List.mem_singleton.mpr rfl),
        fun hnd => (nodup_answer_iff hsets sound).mp hnd hdoubled⟩

theorem AmountRun.doubled {st st' : ReconcileState ix} {ps : List Credit}
    (hrun : AmountRun ix st ps st') (hall : ¬ BeforeEachStep Undoubled st ps) :
    ∃ c ∈ st'.covers, ¬ c.sids.Nodup := by
  induction hrun with
  | nil => exact absurd trivial hall
  | @cons st st₁ st₂ p ps step eq rest ih =>
      by_cases hp : Undoubled st p
      · refine ih fun hrest => hall ⟨hp, ?_⟩
        intro st₁' heq
        rw [eq] at heq
        exact Except.ok.inj heq ▸ hrest
      · obtain ⟨c, hc, hnd⟩ := step.doubled hp
        exact ⟨c, rest.covers_prefix.subset hc, hnd⟩

theorem usedSids_claimPass : (claimPass U ix rzp).usedSids.Nodup := by
  have hkeys := Dict.nodup_keys (utrClaims U ix rzp)
  have hsids : (claimPass U ix rzp).usedSids.Sublist (utrClaims U ix rzp).keys := by
    unfold ReconcileState.usedSids Dict.keys
    rw [claimPass_eq]
    induction (utrClaims U ix rzp).items with
    | nil => simp
    | cons claim claims ih =>
        rw [List.filterMap_cons, List.map_cons]
        cases hc : claimCover ix claim with
        | none => exact ih.cons _
        | some c =>
            obtain ⟨sid, ps⟩ := claim
            match ps, hc with
            | [p], hc =>
                have hcs := (makeCover_eq_some (show makeCover ix p.1 p.2 [sid] = some c from hc)).2.2
                simp only [List.flatMap_cons, hcs, List.singleton_append]
                exact ih.cons_cons sid
  exact hkeys.sublist hsids

/-- **No cover of a finished run is doubled exactly if** no step meets the doubled situation. -/
theorem AmountRun.nodup_covers_iff (hix : IndexSpec rows ix) {st : ReconcileState ix}
    (hrun : AmountRun ix (claimPass U ix rzp) rzp st) :
    (∀ c ∈ (closeReconcile U ix rzp st).covers, c.sids.Nodup) ↔ BeforeEachStep Undoubled (claimPass U ix rzp) rzp := by
  constructor
  · intro hnodup
    by_contra hall
    obtain ⟨c, hc, hdoubled⟩ := hrun.doubled hall
    exact hdoubled (hnodup c (mem_closeReconcile_covers.mpr hc))
  · intro hall c hc
    have hused := hrun.usedSids_nodup hix hall usedSids_claimPass
    exact (List.nodup_flatMap.mp hused).1 c (mem_closeReconcile_covers.mp hc)

end Runs

/-! ## Conservation -/

section Conservation

variable {rows : List ReconRow}

/-- **Conservation**: rows covered at most once, whole settlements, balanced paise, and a partition of the
    proven keys into results and unresolved. -/
structure Conserved (rows : List ReconRow) (digest : RowSignature → String) (rzp : List Credit)
    (out : ReconcileOutput) : Prop where
  /-- No position of the report is covered twice, over all results together. -/
  rows_once : (out.covers.flatMap fun c => (coveredRows out.index c.sids).map Prod.snd).Nodup
  /-- A result covers pairwise distinct settlements of the report, -/
  sids_distinct : ∀ c ∈ out.covers, c.sids.Nodup ∧ ∀ sid ∈ c.sids, Settles rows sid
  /-- with all their rows, -/
  rows_full : ∀ c ∈ out.covers, coveredRows out.index c.sids = c.sids.flatMap (rowsOf rows) ∧
    c.result.coveredEntityIds
      = (c.sids.flatMap (rowsOf rows)).map (fun p => (p.1.type, p.1.entityId)) ∧
    c.result.coveredRowIds
      = (c.sids.flatMap (rowsOf rows)).map fun p => (canonicalRowIds digest rows).getD p.2 ""
  /-- and shares none with another result. -/
  sids_disjoint : out.covers.Pairwise fun c d => c.sids.Disjoint d.sids
  /-- The paise: covered net, residual, tolerance. -/
  balanced : ∀ c ∈ out.covers,
    c.result.coveredNetPaise
      = ((c.sids.flatMap (rowsOf rows)).map fun p => p.1.creditPaise - p.1.debitPaise).sum ∧
    c.result.creditAmountPaise = c.line.amountPaise ∧
    c.result.residualPaise = c.line.amountPaise - c.result.coveredNetPaise ∧
    |c.result.residualPaise| ≤ 100
  /-- Every proven key has either one result or one unresolved entry. -/
  partition : (out.results.map ReconciliationResult.lineKey ++ out.unresolved).Perm (rzp.map Prod.fst)
  /-- A result is the one of its own credit. -/
  own_credit : ∀ c ∈ out.covers, c.result.lineKey = c.key ∧ (c.key, c.line) ∈ rzp

theorem positions_nodup (rows : List ReconRow) {sids : List String} (h : sids.Nodup) :
    ((sids.flatMap (rowsOf rows)).map Prod.snd).Nodup := by
  rw [List.map_flatMap, List.nodup_flatMap]
  refine ⟨fun sid _ => nodup_positions_rowsOf rows sid, ?_⟩
  refine h.imp fun {sid sid'} hne => ?_
  intro i hi hi'
  exact hne (eq_of_position_mem hi hi')

/-- The fields of a made result. -/
theorem Cover.fields {ix : SettlementIndex} (c : Cover ix) :
    c.result.lineKey = c.line.key ∧
    c.result.coveredEntityIds
      = (coveredRows ix c.sids).map (fun p => (p.1.type, p.1.entityId)) ∧
    c.result.coveredNetPaise = ((coveredRows ix c.sids).map fun p => p.1.netPaise).sum ∧
    c.result.creditAmountPaise = c.line.amountPaise ∧
    c.result.residualPaise = c.line.amountPaise - c.result.coveredNetPaise ∧
    |c.result.residualPaise| ≤ driftTolerancePaise ∧
    c.result.coveredRowIds = (coveredRows ix c.sids).map fun p => ix.rowIds.getD p.2 "" := by
  have hmade := c.made
  unfold makeResult at hmade
  dsimp only at hmade
  split at hmade
  · exact absurd hmade (by simp)
  · rename_i htol
    have hres := Option.some.inj hmade
    rw [← hres]
    exact ⟨rfl, rfl, rfl, rfl, rfl, not_lt.mp htol, rfl⟩

/-- Results and unresolved entries partition the proven keys. -/
theorem partition_closeReconcile {U : Unicode} {lines : LinesByKey} {attributions : List RailAttribution}
    {ix : SettlementIndex} {st : ReconcileState ix}
    (hinv : RunInv rows (provenLines lines attributions) st)
    (hkeys : ((provenLines lines attributions).map Prod.fst).Nodup) :
    (((closeReconcile U ix (provenLines lines attributions) st).results.map
        ReconciliationResult.lineKey) ++
      (closeReconcile U ix (provenLines lines attributions) st).unresolved).Perm
      ((provenLines lines attributions).map Prod.fst) := by
  have hown : ∀ c ∈ st.covers, c.result.lineKey = c.key := by
    intro c hc
    rw [c.fields.1]
    exact key_of_mem_provenLines (hinv.proven c hc)
  have hresults : ((closeReconcile U ix (provenLines lines attributions) st).results.map
      ReconciliationResult.lineKey).Perm st.resolved := by
    unfold ReconcileOutput.results ReconcileState.resolved
    rw [List.map_map]
    exact ((List.perm_insertionSort _ _).map _).trans (List.Perm.of_eq (List.map_congr_left hown))
  refine (hresults.append_right _).trans ?_
  show (st.resolved ++ ((provenLines lines attributions).filter fun p => p.1 ∉ st.resolved).map
    Prod.fst).Perm _
  have hunres : (((provenLines lines attributions).filter fun p => p.1 ∉ st.resolved).map
      Prod.fst).Nodup := hkeys.sublist (List.filter_sublist.map _)
  rw [List.perm_ext_iff_of_nodup ?_ hkeys]
  · intro key
    simp only [List.mem_append, List.mem_map, List.mem_filter, decide_eq_true_eq]
    constructor
    · intro h
      rcases h with hres | ⟨p, ⟨hp, _⟩, rfl⟩
      · obtain ⟨c, hc, rfl⟩ := List.mem_map.mp hres
        exact ⟨_, hinv.proven c hc, rfl⟩
      · exact ⟨p, hp, rfl⟩
    · intro h
      obtain ⟨p, hp, rfl⟩ := h
      by_cases hres : p.1 ∈ st.resolved
      · exact Or.inl hres
      · exact Or.inr ⟨p, ⟨hp, hres⟩, rfl⟩
  · rw [List.nodup_append]
    refine ⟨hinv.keys_nodup, hunres, ?_⟩
    intro key hkey key' hkey' heq
    obtain ⟨p, hp, rfl⟩ := List.mem_map.mp hkey'
    exact of_decide_eq_true (List.mem_filter.mp hp).2 (heq ▸ hkey)

/-- **A run is conserved iff it accepts no doubled answer.** For credits with distinct keys `reconcile`
    returns, and what it returns is conserved exactly when no step of pass 2 meets the doubled situation. -/
theorem reconcile_conserves_iff (U : Unicode) (digest : RowSignature → String) (lines : LinesByKey)
    (attributions : List RailAttribution) (rows : List ReconRow)
    (hkeys : (attributions.map RailAttribution.lineKey).Nodup) :
    ∃ out, reconcile U digest lines attributions rows = .ok out ∧
      (Conserved rows digest (provenLines lines attributions) out ↔
        BeforeEachStep Undoubled
          (claimPass U (SettlementIndex.ofRows U digest rows) (provenLines lines attributions))
          (provenLines lines attributions)) := by
  obtain ⟨st, hout, hrun⟩ := reconcile_spec U digest lines attributions rows
  have hix := SettlementIndex.ofRows_spec U digest rows
  have hnd := nodup_provenLines lines hkeys
  have hinv := hrun.runInv hix hnd
  refine ⟨_, hout, ?_⟩
  constructor
  · intro hconserved
    by_contra hall
    obtain ⟨c, hc, hdup⟩ := hrun.doubled hall
    exact hdup (hconserved.sids_distinct c (mem_closeReconcile_covers.mpr hc)).1
  · intro hall
    have hused := hrun.usedSids_nodup hix hall usedSids_claimPass
    have hperm := List.perm_insertionSort (fun c c' : Cover (SettlementIndex.ofRows U digest rows) =>
      outputOrder (provenLines lines attributions) c.result.lineKey
        ≤ outputOrder (provenLines lines attributions) c'.result.lineKey) st.covers
    have hparts := List.nodup_flatMap.mp hused
    have hmem : ∀ c ∈ (closeReconcile U (SettlementIndex.ofRows U digest rows)
        (provenLines lines attributions) st).covers, c ∈ st.covers :=
      fun c hc => mem_closeReconcile_covers.mp hc
    constructor
    · have hflat : (st.covers.flatMap fun c =>
          (coveredRows (SettlementIndex.ofRows U digest rows) c.sids).map Prod.snd).Nodup := by
        have hpositions := positions_nodup rows hused
        unfold ReconcileState.usedSids at hpositions
        rw [List.flatMap_assoc, List.map_flatMap] at hpositions
        rw [List.flatMap_congr fun c _ => congrArg (List.map Prod.snd) (coveredRows_eq hix c.sids)]
        exact hpositions
      exact (hperm.flatMap_right _).nodup_iff.mpr hflat
    · intro c hc
      exact ⟨hparts.1 c (hmem c hc), hinv.settles c (hmem c hc)⟩
    · intro c _
      have hfields := c.fields
      have hrows := coveredRows_eq hix c.sids
      refine ⟨hrows, ?_, ?_⟩
      · rw [hfields.2.1]
        exact congrArg _ hrows
      · rw [hfields.2.2.2.2.2.2]
        exact congrArg _ hrows
    · exact (hperm.pairwise_iff fun h => h.symm).mpr hparts.2
    · intro c _
      obtain ⟨_, _, hnet, hcredit, hresidual, htol, _⟩ := c.fields
      refine ⟨?_, hcredit, hresidual, htol⟩
      rw [hnet, ← coveredRows_eq hix]
      rfl
    · exact partition_closeReconcile hinv hnd
    · intro c hc
      refine ⟨?_, hinv.proven c (hmem c hc)⟩
      rw [c.fields.1]
      exact key_of_mem_provenLines (hinv.proven c (hmem c hc))

/-- A credit of Rs 2501.00 and seventeen settlements of which `S02`, met first, counts twice in
    `S02 + S01 + S02`; the other nets are even and too large to help. -/
def doublingReport : List ReconRow :=
  [settledRow "pay_02" "S02" none 100000, settledRow "pay_01" "S01" none 50100] ++
    (List.range 15).map fun (i : Nat) =>
      settledRow ("pay_1" ++ toString i) ("S1" ++ toString i) none (200200 + 200 * (i : ℤ))

def doublingCredits : List BankCreditLine := [creditLine "a" "NEFT" 250100]

/-- The hypothesis of `reconcile_conserves_iff` holds of that statement. -/
theorem reconcile_conserves_iff_doubling : ∃ out,
    reconcile asciiUnicode RowSignature.entityId (linesByKey doublingCredits)
        (doublingCredits.map provenAttribution) doublingReport = .ok out ∧
      (Conserved doublingReport RowSignature.entityId
          (provenLines (linesByKey doublingCredits) (doublingCredits.map provenAttribution)) out ↔
        BeforeEachStep Undoubled
          (claimPass asciiUnicode
            (SettlementIndex.ofRows asciiUnicode RowSignature.entityId doublingReport)
            (provenLines (linesByKey doublingCredits) (doublingCredits.map provenAttribution)))
          (provenLines (linesByKey doublingCredits) (doublingCredits.map provenAttribution))) :=
  reconcile_conserves_iff asciiUnicode RowSignature.entityId (linesByKey doublingCredits)
    (doublingCredits.map provenAttribution) doublingReport (by decide)

/-- **The row of `S02` is covered twice** by the one result of that statement. -/
theorem double_coverage : ∃ out,
    reconcile asciiUnicode RowSignature.entityId (linesByKey doublingCredits)
        (doublingCredits.map provenAttribution) doublingReport = .ok out ∧
      out.covers.map (fun c => (c.key, c.sids, c.result.coveredNetPaise)) =
        [("a", ["S02", "S01", "S02"], 250100)] ∧
      ¬ Conserved doublingReport RowSignature.entityId
        (provenLines (linesByKey doublingCredits) (doublingCredits.map provenAttribution)) out := by
  have hrun : (reconcile asciiUnicode RowSignature.entityId (linesByKey doublingCredits)
        (doublingCredits.map provenAttribution) doublingReport).map
      (fun out => out.covers.map fun c => (c.key, c.sids, c.result.coveredNetPaise)) =
        .ok [("a", ["S02", "S01", "S02"], 250100)] := by decide +kernel
  obtain ⟨st, hout, _⟩ := reconcile_spec asciiUnicode RowSignature.entityId
    (linesByKey doublingCredits) (doublingCredits.map provenAttribution) doublingReport
  rw [hout] at hrun
  have hcovers := Except.ok.inj hrun
  refine ⟨_, hout, hcovers, ?_⟩
  intro hconserved
  have ha : ("a", ["S02", "S01", "S02"], (250100 : ℤ)) ∈
      [("a", ["S02", "S01", "S02"], (250100 : ℤ))] := List.mem_singleton.mpr rfl
  rw [← hcovers] at ha
  obtain ⟨c, hc, hca⟩ := List.mem_map.mp ha
  have hsids : c.sids = ["S02", "S01", "S02"] := (Prod.mk.inj (Prod.mk.inj hca).2).1
  have hnd := (hconserved.sids_distinct c hc).1
  rw [hsids] at hnd
  exact absurd hnd (by decide)

end Conservation

end Untangle
