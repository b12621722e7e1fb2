import Untangle.Correctness.BoundedSubsets
import Untangle.Correctness.Report
import Untangle.Engine.Reconcile

/-!
# `Correctness.Reconcile.Index` — the settlement index read against the report

The first half is `IndexSpec`, the index in terms of the report: later modules use it and never look at the
constructor's loops again.

The second half settles the search of one credit: `satisfyingSets` is the order-free set of all the
settlement sets `amount_or_setsum_sids` can see, and `amountOrSetsumSids_spec` says that the function decides
by the number of its elements alone.
-/

namespace Untangle

open Lib

/-! ## What the constructor leaves behind -/

/-- The index represents the report. -/
structure IndexSpec (rows : List ReconRow) (ix : SettlementIndex) : Prop where
  rows_get : ∀ sid, (ix.rowsBySid.get? sid).getD [] = rowsOf rows sid
  mem_keys : ∀ sid, sid ∈ ix.rowsBySid.keys ↔ Settles rows sid
  net_get : ∀ sid n, ix.netBySid.get? sid = some n ↔ Settles rows sid ∧ netOf rows sid = n
  mem_single : ∀ sid n,
    sid ∈ (ix.netToSids.get? n).getD [] ↔ Settles rows sid ∧ netOf rows sid = n
  nodup_single : ∀ n, ((ix.netToSids.get? n).getD []).Nodup
  utr_settles : ∀ utr sid, ix.utrToSid.get? utr = some sid → Settles rows sid

theorem SettlementIndex.ofRows_spec (U : Unicode) (digest : RowSignature → String)
    (rows : List ReconRow) : IndexSpec rows (SettlementIndex.ofRows U digest rows) where
  rows_get := by
    intro sid
    show ((Dict.gather _ (fun p ps => ps.getD [] ++ [p]) rows.zipIdx).get? sid).getD [] = _
    rw [Dict.getD_get?_gather_append, List.map_id']
    rfl
  mem_keys := by
    intro sid
    show sid ∈ (Dict.gather _ _ rows.zipIdx).keys ↔ _
    rw [Dict.mem_keys_gather]
    constructor
    · intro h
      obtain ⟨p, hp, hsid⟩ := h
      exact ⟨p.1, List.fst_mem_of_mem_zipIdx hp, hsid⟩
    · intro h
      obtain ⟨r, hr, hsid⟩ := h
      obtain ⟨i, hi, rfl⟩ := List.getElem_of_mem hr
      exact ⟨(rows[i], i), List.mem_zipIdx_iff_getElem?.mpr (List.getElem?_eq_getElem hi), hsid⟩
  net_get := fun _ _ => get?_netBySettlement
  mem_single := fun _ _ => mem_settlementsOfNet.trans get?_netBySettlement
  nodup_single := nodup_settlementsOfNet _
  utr_settles := by
    intro utr sid h
    obtain ⟨r, hr, hsid, _⟩ := get?_settlementOfUtr h
    exact ⟨r, hr, hsid⟩

/-! ## What a list of settlements covers -/

section Covered

variable {rows : List ReconRow} {ix : SettlementIndex}

theorem coveredRows_eq (hix : IndexSpec rows ix) (sids : List String) :
    coveredRows ix sids = sids.flatMap (rowsOf rows) := by
  unfold coveredRows
  rw [List.flatMap_congr fun sid _ => hix.rows_get sid]

theorem coveredNet_eq (hix : IndexSpec rows ix) (sids : List String) :
    ((coveredRows ix sids).map fun p => p.1.netPaise).sum = (sids.map (netOf rows)).sum := by
  rw [coveredRows_eq hix]
  induction sids with
  | nil => rfl
  | cons sid sids ih =>
      rw [List.flatMap_cons, List.map_append, List.sum_append, ih, List.map_cons, List.sum_cons]
      rfl

/-- The residual a credit would be left with. -/
def residualOf (rows : List ReconRow) (line : BankCreditLine) (sids : List String) : ℤ :=
  line.amountPaise - (sids.map (netOf rows)).sum

theorem isSome_makeResult (hix : IndexSpec rows ix) (line : BankCreditLine) (sids : List String) :
    (makeResult line sids ix).isSome ↔ |residualOf rows line sids| ≤ driftTolerancePaise := by
  unfold makeResult residualOf
  rw [← coveredNet_eq hix]
  dsimp only
  split
  · rename_i h
    simpa using h
  · rename_i h
    simpa using h

theorem exists_makeCover (key : String) {line : BankCreditLine} {sids : List String}
    (h : (makeResult line sids ix).isSome) :
    ∃ c, makeCover ix key line sids = some c ∧ c.key = key ∧ c.line = line ∧ c.sids = sids := by
  unfold makeCover
  split
  · rename_i hnone
    rw [hnone] at h
    exact absurd h (by simp)
  · exact ⟨_, rfl, rfl, rfl, rfl⟩

theorem makeCover_eq_some {key : String} {line : BankCreditLine} {sids : List String} {c : Cover ix}
    (h : makeCover ix key line sids = some c) : c.key = key ∧ c.line = line ∧ c.sids = sids := by
  unfold makeCover at h
  split at h
  · exact absurd h (by simp)
  · cases h
    exact ⟨rfl, rfl, rfl⟩

theorem makeCover_eq_none {key : String} {line : BankCreditLine} {sids : List String} :
    makeCover ix key line sids = none ↔ ¬ (makeResult line sids ix).isSome := by
  constructor
  · intro h hsome
    obtain ⟨c, hc, _⟩ := exists_makeCover key hsome
    rw [h] at hc
    exact absurd hc (by simp)
  · intro h
    cases hc : makeCover ix key line sids with
    | none => rfl
    | some c =>
        obtain ⟨_, rfl, rfl⟩ := makeCover_eq_some hc
        exact absurd (Option.isSome_iff_exists.mpr ⟨_, c.made⟩) h

end Covered

/-! ## The search of one credit -/

namespace SettlementIndex

variable (ix : SettlementIndex) (line : BankCreditLine) (used : List String)

/-- The one-element sets the amount lookup offers. -/
def singleSets : Finset (Finset String) := ((ix.singleSids line used).map fun sid => {sid}).toFinset

/-- The sets the set-sum search offers. -/
def setsumSets : Finset (Finset String) :=
  if ix.setsumCands line used = [] ∨ setsumMaxCandidates < (ix.setsumCands line used).length then ∅
  else foundSets (ix.setsumCands line used) line.amountPaise

/-- Everything `amount_or_setsum_sids` can see for a credit. -/
def satisfyingSets : Finset (Finset String) := ix.singleSets line used ∪ ix.setsumSets line used

/-- Where an answer comes from: the amount lookup, or a tuple of the set-sum search. -/
def AnswerSound (sids : List String) : Prop :=
  (∃ sid ∈ ix.singleSids line used, sids = [sid]) ∨
    (ix.setsumCands line used ≠ [] ∧ (ix.setsumCands line used).length ≤ setsumMaxCandidates ∧
      TupleSound (ix.setsumCands line used) line.amountPaise sids)

/-- The three outcomes, by the number of satisfying sets. -/
inductive AmountSpec : List String × Option Giveup → Prop
  | nothing (h : ix.satisfyingSets line used = ∅) : AmountSpec ([], none)
  | unique (sids : List String) (h : ix.satisfyingSets line used = {sids.toFinset})
      (sound : ix.AnswerSound line used sids) : AmountSpec (sids, none)
  | ambiguous (h : 2 ≤ (ix.satisfyingSets line used).card) : AmountSpec ([], some .ambiguous)

variable {ix line used}

theorem validPool_setsumCands : ValidPool (ix.setsumCands line used) line.amountPaise where
  nodup := ix.netBySid.nodup.sublist (List.filter_sublist.map _)
  pos := by
    intro item hitem
    have h := of_decide_eq_true (List.mem_filter.mp hitem).2
    exact h.2.1
  lt := by
    intro item hitem
    have h := of_decide_eq_true (List.mem_filter.mp hitem).2
    exact h.2.2.1

theorem amount_pos_of_cands (h : ix.setsumCands line used ≠ []) : 0 < line.amountPaise := by
  obtain ⟨item, hitem⟩ := List.exists_mem_of_ne_nil _ h
  exact lt_trans (validPool_setsumCands.pos item hitem) (validPool_setsumCands.lt item hitem)

theorem setsumBranch_spec (ix : SettlementIndex) (line : BankCreditLine) (used : List String) :
    ∃ r, ix.setsumBranch line used = .ok r ∧
    r.exhausted = false ∧
    r.subsets.length = min 2 (ix.setsumSets line used).card ∧
    (r.subsets.map List.toFinset).Nodup ∧
    (∀ t ∈ r.subsets, t.toFinset ∈ ix.setsumSets line used) ∧
    ∀ t ∈ r.subsets, ix.AnswerSound line used t := by
  unfold setsumBranch setsumSets
  by_cases h : ix.setsumCands line used = [] ∨ setsumMaxCandidates < (ix.setsumCands line used).length
  · rw [if_pos h, if_pos h]
    exact ⟨_, rfl, rfl, rfl, List.nodup_nil, by simp, by simp⟩
  · rw [if_neg h, if_neg h]
    rw [not_or, not_lt] at h
    obtain ⟨r, hr, hspec⟩ := setsumSearch_spec validPool_setsumCands (amount_pos_of_cands h.1)
    exact ⟨r, hr, hspec.exhausted, hspec.length_eq, hspec.nodup, hspec.mem,
      fun t ht => Or.inr ⟨h.1, h.2, hspec.sound t ht⟩⟩

theorem two_le_card_of_mem_setsumSets {s : Finset String} (h : s ∈ ix.setsumSets line used) :
    2 ≤ s.card := by
  unfold setsumSets at h
  split at h
  · exact absurd h (Finset.notMem_empty s)
  · exact two_le_card_of_mem_foundSets validPool_setsumCands h

theorem mem_singleSets {s : Finset String} :
    s ∈ ix.singleSets line used ↔ ∃ sid ∈ ix.singleSids line used, s = {sid} := by
  unfold singleSets
  simp only [List.mem_toFinset, List.mem_map, eq_comm]

theorem disjoint_single_setsum : Disjoint (ix.singleSets line used) (ix.setsumSets line used) := by
  rw [Finset.disjoint_left]
  intro s hs hs'
  obtain ⟨sid, _, rfl⟩ := mem_singleSets.mp hs
  have hcard := two_le_card_of_mem_setsumSets hs'
  rw [Finset.card_singleton] at hcard
  omega

theorem nodup_singleSids {rows : List ReconRow} (hix : IndexSpec rows ix) :
    (ix.singleSids line used).Nodup := (hix.nodup_single _).filter _

theorem card_singleSets {rows : List ReconRow} (hix : IndexSpec rows ix) :
    (ix.singleSets line used).card = (ix.singleSids line used).length := by
  unfold singleSets
  rw [List.toFinset_card_of_nodup, List.length_map]
  exact (nodup_singleSids hix).map fun _ _ h => Finset.singleton_injective h

/-- **The search of one credit** never fails and decides by the number of satisfying sets. -/
theorem amountOrSetsumSids_spec (line : BankCreditLine) (used : List String) {rows : List ReconRow}
    (hix : IndexSpec rows ix) :
    ∃ ans, ix.amountOrSetsumSids line used = .ok ans ∧ ix.AmountSpec line used ans := by
  obtain ⟨r, hr, hexhausted, hlen, hnd, hmem, hsound⟩ := setsumBranch_spec ix line used
  have hcard : (ix.satisfyingSets line used).card
      = (ix.singleSids line used).length + (ix.setsumSets line used).card := by
    unfold satisfyingSets
    rw [Finset.card_union_of_disjoint disjoint_single_setsum, card_singleSets hix]
  -- the singles and the tuples name pairwise different sets, so `seen_subsets` drops nothing
  have hkept : distinctBy List.toFinset ((ix.singleSids line used).map (fun sid => [sid]) ++ r.subsets)
      = (ix.singleSids line used).map (fun sid => [sid]) ++ r.subsets := by
    apply distinctBy_eq_self
    rw [List.map_append, List.nodup_append]
    refine ⟨?_, hnd, ?_⟩
    · rw [List.map_map]
      refine (nodup_singleSids hix).map fun a b h => ?_
      have h' : ({a} : Finset String) = {b} := by simpa using h
      exact Finset.singleton_injective h'
    · intro s hs t ht hst
      subst hst
      obtain ⟨tup, htup, rfl⟩ := List.mem_map.mp ht
      have htwo := two_le_card_of_mem_setsumSets (hmem tup htup)
      rw [List.map_map] at hs
      obtain ⟨sid, _, hsid⟩ := List.mem_map.mp hs
      rw [← hsid] at htwo
      simp at htwo
  have hall : ∀ t ∈ (ix.singleSids line used).map (fun sid => [sid]) ++ r.subsets,
      t.toFinset ∈ ix.satisfyingSets line used ∧ ix.AnswerSound line used t := by
    intro t ht
    rcases List.mem_append.mp ht with ht | ht
    · obtain ⟨sid, hsid, rfl⟩ := List.mem_map.mp ht
      exact ⟨Finset.mem_union_left _ (mem_singleSets.mpr ⟨sid, hsid, rfl⟩), Or.inl ⟨sid, hsid, rfl⟩⟩
    · exact ⟨Finset.mem_union_right _ (hmem t ht), hsound t ht⟩
  have hlength : ((ix.singleSids line used).map (fun sid => [sid]) ++ r.subsets).length
      = (ix.singleSids line used).length + min 2 (ix.setsumSets line used).card := by
    rw [List.length_append, List.length_map, hlen]
  unfold amountOrSetsumSids
  simp only [bind, Except.bind, hr, hexhausted, Bool.false_eq_true, if_false, hkept]
  cases hl : (ix.singleSids line used).map (fun sid => [sid]) ++ r.subsets with
  | nil =>
      refine ⟨_, rfl, AmountSpec.nothing ?_⟩
      rw [hl, List.length_nil] at hlength
      exact Finset.card_eq_zero.mp (by omega)
  | cons sids l =>
      rw [hl, List.length_cons] at hlength
      cases l with
      | nil =>
          refine ⟨_, rfl, AmountSpec.unique sids ?_ (hall sids (by simp [hl])).2⟩
          have hone : (ix.satisfyingSets line used).card = 1 := by
            rw [List.length_nil] at hlength
            omega
          obtain ⟨s, hs⟩ := Finset.card_eq_one.mp hone
          have hin := (hall sids (by simp [hl])).1
          rw [hs, Finset.mem_singleton] at hin
          rw [hs, hin]
      | cons sids' l =>
          refine ⟨_, rfl, AmountSpec.ambiguous ?_⟩
          rw [List.length_cons] at hlength
          omega

end SettlementIndex

end Untangle
