import Untangle.Correctness.Reconcile.Passes

/-!
# `Correctness.Reconcile.Order` — what the order of the bank lines decides

Pass 1 groups claims by settlement before it acts, so it does not see the order of the credits at all. Pass 2
is first come, first served: an accepted credit takes settlements out of the pool of every later one. This
module says how far that reaches. A left-over credit is *unrivalled* when no other left-over credit can ever
take a settlement of one of its balancing sets, and what others may take does not move its pool across a size
limit of the two searches. `reconcile_order_independent`: every credit that pass 1 decides, and every
unrivalled one, gets the same verdict in every order.

The argument is one comparison (`satisfyingSets_stable`): the satisfying sets of a credit with more
settlements used are the same sets, as long as nothing that was used belongs to a balancing set.
-/

namespace Untangle

open Lib

/-! ## More settlements used -/

section More

variable {ix : SettlementIndex} {line : BankCreditLine} {used used' : List String}

theorem setsumCands_more (h : ∀ sid ∈ used, sid ∈ used') :
    ix.setsumCands line used' = (ix.setsumCands line used).filter fun p => p.1 ∉ used' := by
  unfold SettlementIndex.setsumCands
  rw [List.filter_filter]
  refine List.filter_congr fun p _ => ?_
  by_cases hp : p.1 ∈ used'
  · simp [hp]
  · have hp' : p.1 ∉ used := fun hmem => hp (h _ hmem)
    simp [hp, hp']

theorem mem_singleSids_more (h : ∀ sid ∈ used, sid ∈ used') {sid : String} :
    sid ∈ ix.singleSids line used' ↔ sid ∈ ix.singleSids line used ∧ sid ∉ used' := by
  unfold SettlementIndex.singleSids
  simp only [List.mem_filter, decide_eq_true_eq]
  constructor
  · intro hmem
    exact ⟨⟨hmem.1, fun hu => hmem.2.1 (h _ hu), hmem.2.2⟩, hmem.2.1⟩
  · intro hmem
    exact ⟨hmem.1.1, hmem.2, hmem.1.2.2⟩

/-- The size classes of a pool: exhaustive, amount-indexed, not searched. -/
def poolClass (n : Nat) : Nat :=
  if n ≤ setsumExpansionMaxCandidates then 0 else if n ≤ setsumMaxCandidates then 1 else 2

theorem poolClass_mono {n m : Nat} (h : n ≤ m) : poolClass n ≤ poolClass m := by
  unfold poolClass setsumExpansionMaxCandidates setsumMaxCandidates
  split_ifs <;> omega

/-- A set that balances the credit exactly, in the eyes of one of the searches. -/
def Balancing (ix : SettlementIndex) (line : BankCreditLine) (used : List String) (s : Finset String) :
    Prop :=
  s ∈ ix.singleSets line used ∨
    s ∈ sumSets (poolIds (ix.setsumCands line used)) (amountOf (ix.setsumCands line used)) 2 5
      line.amountPaise 0 ∨
    ∃ x y, DoubledPair (ix.setsumCands line used) line.amountPaise x y ∧ s = {x.1, y.1}

/-- A settlement the credit may take: a member of one of its balancing sets. -/
def MayTake (ix : SettlementIndex) (line : BankCreditLine) (used : List String) (sid : String) : Prop :=
  ∃ s, Balancing ix line used s ∧ sid ∈ s

/-- What the set-sum search offers, by size class. -/
theorem mem_setsumSets {s : Finset String} :
    s ∈ ix.setsumSets line used ↔
      (poolClass (ix.setsumCands line used).length = 0 ∧
        s ∈ sumSets (poolIds (ix.setsumCands line used)) (amountOf (ix.setsumCands line used)) 2 5
          line.amountPaise 0) ∨
      (poolClass (ix.setsumCands line used).length = 1 ∧
        s ∈ legacySets (ix.setsumCands line used) line.amountPaise) := by
  unfold SettlementIndex.setsumSets
  by_cases hsmall : (ix.setsumCands line used).length ≤ setsumExpansionMaxCandidates
  · have hclass : poolClass (ix.setsumCands line used).length = 0 := by
      unfold poolClass
      rw [if_pos hsmall]
    have hbounded : ¬ setsumMaxCandidates < (ix.setsumCands line used).length :=
      not_lt.mpr (hsmall.trans (by decide))
    rw [hclass]
    simp only [hbounded, or_false, true_and, Nat.zero_ne_one, false_and]
    by_cases hnil : ix.setsumCands line used = []
    · rw [if_pos hnil, hnil]
      refine ⟨fun h => absurd h (Finset.notMem_empty s), fun h => ?_⟩
      obtain ⟨hsub, hlo, _⟩ := mem_sumSets.mp h
      rw [Finset.subset_empty.mp hsub, Finset.card_empty] at hlo
      omega
    · rw [if_neg hnil, foundSets, if_pos hsmall]
  · have hne : ix.setsumCands line used ≠ [] := by
      intro hnil
      rw [hnil] at hsmall
      exact hsmall (Nat.zero_le _)
    by_cases hbounded : (ix.setsumCands line used).length ≤ setsumMaxCandidates
    · have hclass : poolClass (ix.setsumCands line used).length = 1 := by
        unfold poolClass
        rw [if_neg hsmall, if_pos hbounded]
      rw [hclass, if_neg (not_or.mpr ⟨hne, not_lt.mpr hbounded⟩), foundSets, if_neg hsmall]
      simp
    · have hclass : poolClass (ix.setsumCands line used).length = 2 := by
        unfold poolClass
        rw [if_neg hsmall, if_neg hbounded]
      rw [hclass, if_pos (Or.inr (not_le.mp hbounded))]
      simp

theorem amountOf_filter {cands : List Item} (hnd : (cands.map Prod.fst).Nodup) (keep : Item → Bool)
    {id : String} (h : id ∈ poolIds (cands.filter keep)) :
    amountOf (cands.filter keep) id = amountOf cands id := by
  obtain ⟨item, hitem, rfl⟩ := mem_identities.mp h
  rw [amountOf_mem (hnd.sublist (List.filter_sublist.map _)) hitem,
    amountOf_mem hnd (List.mem_filter.mp hitem).1]

theorem sumSets_more (h : ∀ sid ∈ used, sid ∈ used') {hi : Nat} {s : Finset String} :
    s ∈ sumSets (poolIds (ix.setsumCands line used')) (amountOf (ix.setsumCands line used')) 2 hi
        line.amountPaise 0 ↔
      s ∈ sumSets (poolIds (ix.setsumCands line used)) (amountOf (ix.setsumCands line used)) 2 hi
        line.amountPaise 0 ∧ ∀ sid ∈ s, sid ∉ used' := by
  have hvalid : ValidPool (ix.setsumCands line used) line.amountPaise := SettlementIndex.validPool_setsumCands
  have hnd := hvalid.nodup
  have hids : ∀ sid, sid ∈ poolIds (ix.setsumCands line used') ↔
      sid ∈ poolIds (ix.setsumCands line used) ∧ sid ∉ used' := by
    intro sid
    unfold poolIds
    rw [setsumCands_more h, mem_identities, mem_identities]
    constructor
    · intro hmem
      obtain ⟨item, hitem, rfl⟩ := hmem
      obtain ⟨hitem, hkeep⟩ := List.mem_filter.mp hitem
      exact ⟨⟨item, hitem, rfl⟩, of_decide_eq_true hkeep⟩
    · intro hmem
      obtain ⟨⟨item, hitem, rfl⟩, hkeep⟩ := hmem
      exact ⟨item, List.mem_filter.mpr ⟨hitem, decide_eq_true hkeep⟩, rfl⟩
  have hamount : ∀ sid ∈ poolIds (ix.setsumCands line used'),
      amountOf (ix.setsumCands line used') sid = amountOf (ix.setsumCands line used) sid := by
    rw [setsumCands_more h]
    exact fun sid hmem => amountOf_filter hnd _ hmem
  rw [sumSets_congr hamount, mem_sumSets, mem_sumSets]
  constructor
  · intro hs
    exact ⟨⟨fun sid hsid => ((hids sid).mp (hs.1 hsid)).1, hs.2⟩,
      fun sid hsid => ((hids sid).mp (hs.1 hsid)).2⟩
  · intro hs
    exact ⟨fun sid hsid => (hids sid).mpr ⟨hs.1.1 hsid, hs.2 sid hsid⟩, hs.1.2⟩

theorem doubledPair_more (h : ∀ sid ∈ used, sid ∈ used') {x y : Item} :
    DoubledPair (ix.setsumCands line used') line.amountPaise x y ↔
      DoubledPair (ix.setsumCands line used) line.amountPaise x y ∧ x.1 ∉ used' ∧ y.1 ∉ used' := by
  unfold DoubledPair
  rw [setsumCands_more h]
  constructor
  · intro hxy
    have hkeep : ∀ item ∈ [x, y], item.1 ∉ used' := fun item hitem =>
      of_decide_eq_true (List.mem_filter.mp (hxy.1.subset hitem)).2
    exact ⟨⟨hxy.1.trans List.filter_sublist, hxy.2⟩, hkeep x (by simp), hkeep y (by simp)⟩
  · intro hxy
    obtain ⟨⟨hsub, hrest⟩, hx, hy⟩ := hxy
    have hfilter := hsub.filter fun p => decide (p.1 ∉ used')
    have hself : [x, y].filter (fun p => decide (p.1 ∉ used')) = [x, y] := by simp [hx, hy]
    rw [hself] at hfilter
    exact ⟨hfilter, hrest⟩

/-- With more used, a satisfying set is still a balancing set of the smaller use. -/
theorem balancing_of_more (h : ∀ sid ∈ used, sid ∈ used') {s : Finset String}
    (hs : s ∈ ix.satisfyingSets line used') : Balancing ix line used s := by
  rcases Finset.mem_union.mp hs with hs | hs
  · obtain ⟨sid, hsid, rfl⟩ := SettlementIndex.mem_singleSets.mp hs
    exact Or.inl (SettlementIndex.mem_singleSets.mpr ⟨sid, ((mem_singleSids_more h).mp hsid).1, rfl⟩)
  · rcases mem_setsumSets.mp hs with ⟨_, hs⟩ | ⟨_, hs⟩
    · exact Or.inr (Or.inl ((sumSets_more h).mp hs).1)
    · rcases (mem_legacySets SettlementIndex.validPool_setsumCands.items).mp hs with hs | ⟨x, y, hxy, rfl⟩
      · exact Or.inr (Or.inl (sumSets_mono (by omega) ((sumSets_more h).mp hs).1))
      · exact Or.inr (Or.inr ⟨x, y, ((doubledPair_more h).mp hxy).1, rfl⟩)

/-- **Stability.** The satisfying sets survive further use, when nothing newly used belongs to a balancing
    set and the pool stays in its size class. -/
theorem satisfyingSets_stable (h : ∀ sid ∈ used, sid ∈ used')
    (huntouched : ∀ sid ∈ used', sid ∉ used → ¬ MayTake ix line used sid)
    (hclass : poolClass (ix.setsumCands line used').length = poolClass (ix.setsumCands line used).length) :
    ix.satisfyingSets line used' = ix.satisfyingSets line used := by
  have hv : ValidPool (ix.setsumCands line used) line.amountPaise := SettlementIndex.validPool_setsumCands
  have hv' : ValidPool (ix.setsumCands line used') line.amountPaise := SettlementIndex.validPool_setsumCands
  -- a member of a balancing set is free under `used'` as soon as it is free under `used`
  have hfree : ∀ s, Balancing ix line used s → ∀ sid ∈ s, sid ∉ used → sid ∉ used' :=
    fun s hs sid hsid hu hu' => huntouched sid hu' hu ⟨s, hs, hsid⟩
  have hpool : ∀ sid ∈ poolIds (ix.setsumCands line used), sid ∉ used := by
    intro sid hsid
    obtain ⟨item, hitem, rfl⟩ := mem_identities.mp hsid
    exact (of_decide_eq_true (List.mem_filter.mp hitem).2).1
  have hsum : ∀ hi, hi ≤ 5 → ∀ s, s ∈ sumSets (poolIds (ix.setsumCands line used))
        (amountOf (ix.setsumCands line used)) 2 hi line.amountPaise 0 ↔
      s ∈ sumSets (poolIds (ix.setsumCands line used')) (amountOf (ix.setsumCands line used')) 2 hi
        line.amountPaise 0 := by
    intro hi hhi s
    rw [sumSets_more h]
    refine ⟨fun hs => ⟨hs, ?_⟩, fun hs => hs.1⟩
    intro sid hsid
    exact hfree s (Or.inr (Or.inl (sumSets_mono hhi hs))) sid hsid
      (hpool sid ((mem_sumSets.mp hs).1 hsid))
  have hlegacy : ∀ s, s ∈ legacySets (ix.setsumCands line used') line.amountPaise ↔
      s ∈ legacySets (ix.setsumCands line used) line.amountPaise := by
    intro s
    rw [mem_legacySets hv.items, mem_legacySets hv'.items, ← hsum 3 (by omega)]
    refine or_congr_right ⟨fun hs => ?_, fun hs => ?_⟩
    · obtain ⟨x, y, hxy, rfl⟩ := hs
      exact ⟨x, y, ((doubledPair_more h).mp hxy).1, rfl⟩
    · obtain ⟨x, y, hxy, rfl⟩ := hs
      have hbalancing : Balancing ix line used {x.1, y.1} := Or.inr (Or.inr ⟨x, y, hxy, rfl⟩)
      have hmem : ∀ item ∈ [x, y], item.1 ∉ used := fun item hitem =>
        hpool _ (mem_identities.mpr ⟨item, hxy.1.subset hitem, rfl⟩)
      exact ⟨x, y, (doubledPair_more h).mpr ⟨hxy, hfree _ hbalancing _ (by simp) (hmem x (by simp)),
        hfree _ hbalancing _ (by simp) (hmem y (by simp))⟩, rfl⟩
  have hsingle : ∀ sid, sid ∈ ix.singleSids line used' ↔ sid ∈ ix.singleSids line used := by
    intro sid
    rw [mem_singleSids_more h]
    refine ⟨fun hs => hs.1, fun hs => ⟨hs, ?_⟩⟩
    exact hfree {sid} (Or.inl (SettlementIndex.mem_singleSets.mpr ⟨sid, hs, rfl⟩)) sid (by simp)
      (of_decide_eq_true (List.mem_filter.mp hs).2).1
  apply Finset.ext
  intro s
  unfold SettlementIndex.satisfyingSets
  rw [Finset.mem_union, Finset.mem_union, SettlementIndex.mem_singleSets,
    SettlementIndex.mem_singleSets, mem_setsumSets, mem_setsumSets, hclass, hlegacy, ← hsum 5 le_rfl]
  simp only [hsingle]

end More

/-! ## Two starts that differ only in order -/

section Start

variable {U : Unicode} {ix : SettlementIndex} {rzp rzp' : List Credit}

/-- Two states with the same covers and the same credits set aside, in whatever order. -/
structure SameStart (st st' : ReconcileState ix) : Prop where
  covers : ∀ c, c ∈ st.covers ↔ c ∈ st'.covers
  duplicates : ∀ key, key ∈ st.notes.duplicateOrSplitLines ↔ key ∈ st'.notes.duplicateOrSplitLines

theorem SameStart.refl (st : ReconcileState ix) : SameStart st st := ⟨fun _ => Iff.rfl, fun _ => Iff.rfl⟩

theorem SameStart.used {st st' : ReconcileState ix} (h : SameStart st st') (sid : String) :
    sid ∈ st.usedSids ↔ sid ∈ st'.usedSids := by
  unfold ReconcileState.usedSids
  simp only [List.mem_flatMap, h.covers]

theorem SameStart.skipped {st st' : ReconcileState ix} (h : SameStart st st') (p : Credit) :
    skipped ix st p ↔ skipped ix st' p := by
  unfold Untangle.skipped ReconcileState.resolved
  simp only [List.mem_map, h.covers, h.duplicates]

/-- **Pass 1 does not see the order of the credits.** -/
theorem sameStart_claimPass (U : Unicode) (ix : SettlementIndex) (h : rzp.Perm rzp') :
    SameStart (claimPass U ix rzp) (claimPass U ix rzp') := by
  have hclaims : ∀ sid, (claimants U ix rzp sid).Perm (claimants U ix rzp' sid) :=
    fun sid => h.filter _
  constructor
  · intro c
    rw [mem_claimPass_covers, mem_claimPass_covers]
    refine exists_congr fun sid => exists_congr fun p => and_congr_left' ?_
    constructor
    · intro hp
      exact List.perm_singleton.mp (hp ▸ (hclaims sid).symm)
    · intro hp
      exact List.perm_singleton.mp (hp ▸ hclaims sid)
  · intro key
    rw [mem_claimPass_duplicates, mem_claimPass_duplicates]
    refine exists_congr fun sid => ?_
    rw [(hclaims sid).length_eq, ((hclaims sid).map Prod.fst).mem_iff]

end Start

/-! ## The verdict on one credit -/

section Verdict

variable {ix : SettlementIndex} {rows : List ReconRow} {rzp : List Credit}

/-- No other left-over credit competes for the balancing sets of `p`, nor can the others move its pool
    into another size class: settlements that nobody else can take keep it there. -/
structure Unrivalled (ix : SettlementIndex) (st : ReconcileState ix) (rzp : List Credit) (p : Credit) :
    Prop where
  apart : ∀ q ∈ rzp, q ≠ p → ¬ skipped ix st q →
    ∀ sid, MayTake ix q.2 st.usedSids sid → ¬ MayTake ix p.2 st.usedSids sid
  roomy : ∃ kept : List Item, kept.Sublist (ix.setsumCands p.2 st.usedSids) ∧
    (∀ item ∈ kept, ∀ q ∈ rzp, q ≠ p → ¬ skipped ix st q → ¬ MayTake ix q.2 st.usedSids item.1) ∧
    poolClass kept.length = poolClass (ix.setsumCands p.2 st.usedSids).length

/-- A step changes nothing for another key. -/
theorem AmountStep.frame {st st' : ReconcileState ix} {q : Credit} {key : String}
    (hstep : AmountStep ix st q st') (hne : q.1 ≠ key) {c : Cover ix} (hc : c.key = key) :
    c ∈ st'.covers ↔ c ∈ st.covers := by
  cases hstep with
  | skip => rfl
  | refuse _ giveup => rw [noteGiveup_covers]
  | cover _ d dkey =>
      refine ⟨fun h => ?_, fun h => List.mem_append_left _ h⟩
      rcases List.mem_append.mp h with h | h
      · exact h
      · rw [List.mem_singleton] at h
        subst h
        exact absurd (dkey.symm.trans hc) hne

theorem AmountRun.frame {st st' : ReconcileState ix} {ps : List Credit} {key : String}
    (hrun : AmountRun ix st ps st') (hne : ∀ q ∈ ps, q.1 ≠ key) {c : Cover ix} (hc : c.key = key) :
    c ∈ st'.covers ↔ c ∈ st.covers := by
  induction hrun with
  | nil => rfl
  | cons step _ _ ih =>
      exact (ih fun q hq => hne q (List.mem_cons_of_mem _ hq)).trans
        (step.frame (hne _ List.mem_cons_self) hc)

theorem AmountRun.split {ps qs : List Credit} {st st'' : ReconcileState ix}
    (h : AmountRun ix st (ps ++ qs) st'') :
    ∃ st', AmountRun ix st ps st' ∧ AmountRun ix st' qs st'' := by
  induction ps generalizing st with
  | nil => exact ⟨st, .nil st, h⟩
  | cons p ps ih =>
      cases h with
      | cons step eq rest =>
          obtain ⟨st', hps, hqs⟩ := ih rest
          exact ⟨st', .cons step eq hps, hqs⟩

/-- A credit that pass 1 resolved or set aside keeps what it has. -/
theorem AmountRun.skipped_frame {st₀ st : ReconcileState ix} {ps : List Credit} {p : Credit}
    (hrun : AmountRun ix st₀ ps st) (hskip : skipped ix st₀ p) {c : Cover ix} (hc : c.key = p.1) :
    c ∈ st.covers ↔ c ∈ st₀.covers := by
  have hinv := hrun.preserves
    (P := fun st => skipped ix st p ∧ ∀ d : Cover ix, d.key = p.1 → (d ∈ st.covers ↔ d ∈ st₀.covers))
    (fun st q st' _ hstep h => by
      have hresolved : ∀ key, key ∈ st.resolved → key ∈ st'.resolved := fun key hkey =>
        List.map_subset Cover.key hstep.covers_prefix.subset hkey
      refine ⟨?_, fun d hd => ?_⟩
      · unfold skipped
        rw [hstep.duplicates]
        exact h.1.imp_left (hresolved p.1)
      · by_cases hq : q.1 = p.1
        · have hskipq : skipped ix st q := by
            unfold skipped
            rw [hq]
            exact h.1
          cases hstep with
          | skip => exact h.2 d hd
          | refuse hno => exact absurd hskipq hno
          | cover hno => exact absurd hskipq hno
        · exact (hstep.frame hq hd).trans (h.2 d hd))
    ⟨hskip, fun _ _ => Iff.rfl⟩
  exact hinv.2 c hc

/-- What the steps before `p` leave untouched. -/
structure Before (st₀ : ReconcileState ix) (rzp : List Credit) (p : Credit) (st : ReconcileState ix) :
    Prop where
  more : ∀ sid ∈ st₀.usedSids, sid ∈ st.usedSids
  taken : ∀ sid ∈ st.usedSids, sid ∉ st₀.usedSids →
    ∃ q ∈ rzp, q ≠ p ∧ ¬ skipped ix st₀ q ∧ MayTake ix q.2 st₀.usedSids sid
  still : ∀ q, skipped ix st₀ q → skipped ix st q
  open_ : ¬ skipped ix st p

theorem AmountStep.before {st₀ st st' : ReconcileState ix} {p q : Credit} (hq : q ∈ rzp)
    (hne : q.1 ≠ p.1) (hstep : AmountStep ix st q st') (h : Before st₀ rzp p st) :
    Before st₀ rzp p st' := by
  cases hstep with
  | skip => exact h
  | refuse _ giveup =>
      have hused : (st.noteGiveup q.2.key giveup).usedSids = st.usedSids := by
        unfold ReconcileState.usedSids
        rw [noteGiveup_covers]
      have hskip : ∀ r, skipped ix (st.noteGiveup q.2.key giveup) r ↔ skipped ix st r := by
        intro r
        unfold skipped ReconcileState.resolved
        rw [noteGiveup_covers, noteGiveup_duplicates]
      constructor
      · rw [hused]
        exact h.more
      · rw [hused]
        exact h.taken
      · exact fun r hr => (hskip r).mpr (h.still r hr)
      · exact fun hp => h.open_ ((hskip p).mp hp)
  | cover hopen c key _ hsets _ _ =>
      have hused : (st.accept c).usedSids = st.usedSids ++ c.sids := by
        unfold ReconcileState.usedSids ReconcileState.accept
        rw [List.flatMap_append, List.flatMap_singleton]
      have hskip : ∀ r, skipped ix (st.accept c) r ↔ skipped ix st r ∨ r.1 = q.1 := by
        intro r
        unfold skipped ReconcileState.resolved ReconcileState.accept
        simp only [List.map_append, List.map_singleton, List.mem_append, List.mem_singleton, key]
        tauto
      constructor
      · intro sid hsid
        rw [hused]
        exact List.mem_append_left _ (h.more sid hsid)
      · intro sid hsid hnot
        rw [hused] at hsid
        rcases List.mem_append.mp hsid with hsid | hsid
        · exact h.taken sid hsid hnot
        · refine ⟨q, hq, fun e => hne (e ▸ rfl), fun hs => hopen (h.still q hs), ?_⟩
          have hmem : c.sids.toFinset ∈ ix.satisfyingSets q.2 st.usedSids := by
            rw [hsets]
            exact Finset.mem_singleton_self _
          exact ⟨_, balancing_of_more h.more hmem, List.mem_toFinset.mpr hsid⟩
      · exact fun r hr => (hskip r).mpr (Or.inl (h.still r hr))
      · intro hp
        rcases (hskip p).mp hp with hp | hp
        · exact h.open_ hp
        · exact hne hp.symm

/-- A cover's settlements, net and residual. -/
def Cover.Has (c : Cover ix) (sids : Finset String) (net residual : ℤ) : Prop :=
  c.sids.toFinset = sids ∧ c.result.coveredNetPaise = net ∧ c.result.residualPaise = residual

theorem Cover.has_of_balanced (hix : IndexSpec rows ix) {c : Cover ix}
    (h : residualOf rows c.line c.sids = 0) : c.Has c.sids.toFinset c.line.amountPaise 0 := by
  have hmade := c.made
  unfold makeResult at hmade
  dsimp only at hmade
  split at hmade
  · exact absurd hmade (by simp)
  · have hres := Option.some.inj hmade
    unfold residualOf at h
    refine ⟨rfl, ?_, ?_⟩
    · rw [← hres]
      show ((coveredRows ix c.sids).map fun p => p.1.netPaise).sum = _
      rw [coveredNet_eq hix]
      omega
    · rw [← hres]
      show c.line.amountPaise - ((coveredRows ix c.sids).map fun p => p.1.netPaise).sum = _
      rw [coveredNet_eq hix]
      exact h

/-- **The verdict on an unrivalled credit** is a function of the state after pass 1: it is covered by `sids`
    iff `sids` is its only satisfying set there. -/
theorem AmountRun.unrivalled (hix : IndexSpec rows ix) {st₀ st₁ st : ReconcileState ix}
    {ps : List Credit} {p : Credit} (hstart : SameStart st₀ st₁) (hrun : AmountRun ix st₁ ps st)
    (hkeys : (ps.map Prod.fst).Nodup) (hps : ∀ q ∈ ps, q ∈ rzp) (hp : p ∈ ps)
    (hopen : ¬ skipped ix st₀ p) (h : Unrivalled ix st₀ rzp p) {sids : Finset String}
    {net residual : ℤ} :
    (∃ c ∈ st.covers, c.key = p.1 ∧ c.Has sids net residual) ↔
      ix.satisfyingSets p.2 st₀.usedSids = {sids} ∧ net = p.2.amountPaise ∧ residual = 0 := by
  obtain ⟨before, after, rfl⟩ := List.append_of_mem hp
  obtain ⟨st₂, hbefore, hrest⟩ := hrun.split
  rw [List.map_append, List.map_cons, List.nodup_append, List.nodup_cons] at hkeys
  have hne_before : ∀ q ∈ before, q.1 ≠ p.1 := fun q hq =>
    hkeys.2.2 q.1 (List.mem_map_of_mem hq) p.1 List.mem_cons_self
  have hne_after : ∀ q ∈ after, q.1 ≠ p.1 := fun q hq he =>
    hkeys.2.1.1 (he ▸ List.mem_map_of_mem hq)
  have hopen₁ : ¬ skipped ix st₁ p := fun hs => hopen ((hstart.skipped p).mpr hs)
  have hinv : Before st₀ rzp p st₂ := hbefore.preserves
    (fun _ q _ hq hstep => hstep.before (hps q (List.mem_append_left _ hq)) (hne_before q hq))
    ⟨fun sid hsid => (hstart.used sid).mp hsid,
      fun sid hsid hnot => absurd ((hstart.used sid).mpr hsid) hnot,
      fun q hq => (hstart.skipped q).mp hq, hopen₁⟩
  have hnone : ∀ c ∈ st₂.covers, c.key ≠ p.1 := by
    intro c hc hk
    exact hinv.open_ (Or.inl (hk ▸ List.mem_map_of_mem hc))
  -- the pool of `p` stays in its class: `kept` bounds it from below, the old pool from above
  have hclass : poolClass (ix.setsumCands p.2 st₂.usedSids).length
      = poolClass (ix.setsumCands p.2 st₀.usedSids).length := by
    obtain ⟨kept, hsub, hkept, hsize⟩ := h.roomy
    have hlow : kept.Sublist (ix.setsumCands p.2 st₂.usedSids) := by
      rw [setsumCands_more hinv.more]
      have hself : kept.filter (fun item => decide (item.1 ∉ st₂.usedSids)) = kept := by
        rw [List.filter_eq_self]
        intro item hitem
        rw [decide_eq_true_eq]
        intro hused
        have hfree : item.1 ∉ st₀.usedSids :=
          (of_decide_eq_true (List.mem_filter.mp (hsub.subset hitem)).2).1
        obtain ⟨q, hq, hqp, hqo, htake⟩ := hinv.taken _ hused hfree
        exact hkept item hitem q hq hqp hqo htake
      rw [← hself]
      exact hsub.filter _
    have hhigh : (ix.setsumCands p.2 st₂.usedSids).length
        ≤ (ix.setsumCands p.2 st₀.usedSids).length := by
      rw [setsumCands_more hinv.more]
      exact List.filter_sublist.length_le
    exact le_antisymm (poolClass_mono hhigh) (hsize ▸ poolClass_mono hlow.length_le)
  have hstable := satisfyingSets_stable hinv.more
    (fun sid hused hfree hmay => by
      obtain ⟨q, hq, hqp, hqo, htake⟩ := hinv.taken sid hused hfree
      exact h.apart q hq hqp hqo sid htake hmay) hclass
  cases hrest with
  | @cons _ st₃ _ _ _ step eq rest =>
      have hafter : ∀ c : Cover ix, c.key = p.1 → (c ∈ st.covers ↔ c ∈ st₃.covers) :=
        fun c hc => rest.frame hne_after hc
      rw [← hstable]
      cases step with
      | skip hs => exact absurd hs hinv.open_
      | refuse _ giveup hcard =>
          constructor
          · intro hex
            obtain ⟨c, hc, hk, _⟩ := hex
            rw [hafter c hk, noteGiveup_covers] at hc
            exact absurd hk (hnone c hc)
          · intro hall
            rw [hall.1, Finset.card_singleton] at hcard
            exact absurd rfl hcard
      | cover _ d dkey dline hsets _ sound =>
          have hhas : d.Has d.sids.toFinset p.2.amountPaise 0 := by
            have hbalanced := (answerFacts hix sound).balances
            rw [← dline] at hbalanced ⊢
            exact Cover.has_of_balanced hix hbalanced
          constructor
          · intro hex
            obtain ⟨c, hc, hk, hcs, hcn, hcr⟩ := hex
            rw [hafter c hk] at hc
            rcases List.mem_append.mp hc with hc | hc
            · exact absurd hk (hnone c hc)
            · rw [List.mem_singleton] at hc
              subst hc
              rw [hsets, ← hcs, ← hcn, ← hcr]
              exact ⟨rfl, hhas.2.1, hhas.2.2⟩
          · intro hall
            obtain ⟨hset, rfl, rfl⟩ := hall
            rw [hsets] at hset
            have hd : d ∈ (st₂.accept d).covers := List.mem_append_right _ (List.mem_singleton.mpr rfl)
            exact ⟨d, (hafter d dkey).mpr hd, dkey, Finset.singleton_injective hset ▸ hhas⟩

end Verdict

/-! ## The order of the bank lines -/

section Permuted

variable {U : Unicode} {lines : LinesByKey} {attributions : List RailAttribution}

/-- The output covers `key` by the settlement set `sids` with this net and residual. -/
def ReconcileOutput.Verdict (out : ReconcileOutput) (key : String) (sids : Finset String)
    (net residual : ℤ) : Prop :=
  ∃ c ∈ out.covers, c.key = key ∧ c.Has sids net residual

theorem verdict_closeReconcile {ix : SettlementIndex} {rzp : List Credit} {st : ReconcileState ix}
    {key : String} {sids : Finset String} {net residual : ℤ} :
    (closeReconcile U ix rzp st).Verdict key sids net residual ↔
      ∃ c ∈ st.covers, c.key = key ∧ c.Has sids net residual :=
  exists_congr fun _ => and_congr_left' mem_closeReconcile_covers

/-- A proven credit is unresolved iff the output has no verdict on it. -/
theorem mem_unresolved_iff {ix : SettlementIndex} {rzp : List Credit} {st : ReconcileState ix}
    {p : Credit} (hp : p ∈ rzp) :
    p.1 ∈ (closeReconcile U ix rzp st).unresolved ↔
      ¬ ∃ sids net residual, (closeReconcile U ix rzp st).Verdict p.1 sids net residual := by
  have hunresolved : p.1 ∈ (closeReconcile U ix rzp st).unresolved ↔ p.1 ∉ st.resolved := by
    show p.1 ∈ (rzp.filter fun q => q.1 ∉ st.resolved).map Prod.fst ↔ _
    constructor
    · intro h
      obtain ⟨q, hq, hqp⟩ := List.mem_map.mp h
      rw [← hqp]
      exact of_decide_eq_true (List.mem_filter.mp hq).2
    · intro h
      exact List.mem_map_of_mem (List.mem_filter.mpr ⟨hp, decide_eq_true h⟩)
  rw [hunresolved, not_iff_not]
  constructor
  · intro h
    obtain ⟨c, hc, hk⟩ := List.mem_map.mp h
    exact ⟨_, _, _, verdict_closeReconcile.mpr ⟨c, hc, hk, rfl, rfl, rfl⟩⟩
  · intro h
    obtain ⟨sids, net, residual, hv⟩ := h
    obtain ⟨c, hc, hk, _⟩ := verdict_closeReconcile.mp hv
    exact List.mem_map.mpr ⟨c, hc, hk⟩

/-- **Order independence.** Permuting the attributions changes no verdict on a credit that pass 1 resolves or
    sets aside, nor on an unrivalled one; such a credit is unresolved in both orders or in neither. -/
theorem reconcile_order_independent (U : Unicode) (digest : RowSignature → String) (lines : LinesByKey)
    (attributions attributions' : List RailAttribution) (rows : List ReconRow)
    (hkeys : (attributions.map RailAttribution.lineKey).Nodup) (hperm : attributions.Perm attributions') :
    ∃ out out', reconcile U digest lines attributions rows = .ok out ∧
      reconcile U digest lines attributions' rows = .ok out' ∧
      ∀ p ∈ provenLines lines attributions,
        (let ix := SettlementIndex.ofRows U digest rows
         let st := claimPass U ix (provenLines lines attributions)
         skipped ix st p ∨ Unrivalled ix st (provenLines lines attributions) p) →
        (∀ sids net residual, out.Verdict p.1 sids net residual ↔ out'.Verdict p.1 sids net residual) ∧
          (p.1 ∈ out.unresolved ↔ p.1 ∈ out'.unresolved) := by
  obtain ⟨st, hout, hrun⟩ := reconcile_spec U digest lines attributions rows
  obtain ⟨st', hout', hrun'⟩ := reconcile_spec U digest lines attributions' rows
  have hix := SettlementIndex.ofRows_spec U digest rows
  have hrzp : (provenLines lines attributions).Perm (provenLines lines attributions') :=
    hperm.filterMap _
  have hnd := nodup_provenLines lines hkeys
  have hnd' := (hrzp.map Prod.fst).nodup hnd
  have hstart := sameStart_claimPass U (SettlementIndex.ofRows U digest rows) hrzp
  refine ⟨_, _, hout, hout', ?_⟩
  intro p hp hcond
  have hp' := hrzp.mem_iff.mp hp
  have hverdict : ∀ sids net residual,
      (closeReconcile U _ (provenLines lines attributions) st).Verdict p.1 sids net residual ↔
        (closeReconcile U _ (provenLines lines attributions') st').Verdict p.1 sids net residual := by
    intro sids net residual
    rw [verdict_closeReconcile, verdict_closeReconcile]
    rcases em (skipped _ (claimPass U (SettlementIndex.ofRows U digest rows)
        (provenLines lines attributions)) p) with hskip | hopen
    · have hskip' := (hstart.skipped p).mp hskip
      refine exists_congr fun c => and_congr_left fun hc => ?_
      rw [hrun.skipped_frame hskip hc.1, hrun'.skipped_frame hskip' hc.1]
      exact hstart.covers c
    · have hunrivalled := hcond.resolve_left hopen
      rw [hrun.unrivalled hix (.refl _) hnd (fun _ hq => hq) hp hopen hunrivalled,
        hrun'.unrivalled hix hstart hnd' (fun _ hq => hrzp.mem_iff.mpr hq) hp' hopen hunrivalled]
  refine ⟨hverdict, ?_⟩
  rw [mem_unresolved_iff hp, mem_unresolved_iff hp']
  simp only [hverdict]

/-- Two credits that the same settlement balances, and one that nobody rivals. -/
def rivalCredits : List BankCreditLine :=
  [creditLine "a" "NEFT" 100000, creditLine "b" "NEFT" 100000, creditLine "c" "NEFT" 30000]

def rivalReport : List ReconRow := [settledRow "pay_1" "S1" none 100000, settledRow "pay_2" "S2" none 30000]

/-- The hypotheses of `reconcile_order_independent` hold of that statement read backwards. -/
theorem reconcile_order_independent_rivals : ∃ out out',
    reconcile asciiUnicode RowSignature.entityId (linesByKey rivalCredits)
        (rivalCredits.map provenAttribution) rivalReport = .ok out ∧
      reconcile asciiUnicode RowSignature.entityId (linesByKey rivalCredits)
        (rivalCredits.map provenAttribution).reverse rivalReport = .ok out' ∧
      ∀ p ∈ provenLines (linesByKey rivalCredits) (rivalCredits.map provenAttribution),
        (let ix := SettlementIndex.ofRows asciiUnicode RowSignature.entityId rivalReport
         let rzp := provenLines (linesByKey rivalCredits) (rivalCredits.map provenAttribution)
         let st := claimPass asciiUnicode ix rzp
         skipped ix st p ∨ Unrivalled ix st rzp p) →
        (∀ sids net residual, out.Verdict p.1 sids net residual ↔ out'.Verdict p.1 sids net residual) ∧
          (p.1 ∈ out.unresolved ↔ p.1 ∈ out'.unresolved) :=
  reconcile_order_independent asciiUnicode RowSignature.entityId (linesByKey rivalCredits)
    (rivalCredits.map provenAttribution) (rivalCredits.map provenAttribution).reverse rivalReport
    (by decide) (List.reverse_perm _).symm

/-- **Rivals are served in statement order**: reversed, the attributions give `S1` to the other credit. -/
theorem rivals_served_in_order : ∃ out out',
    (rivalCredits.map provenAttribution).Perm (rivalCredits.map provenAttribution).reverse ∧
      reconcile asciiUnicode RowSignature.entityId (linesByKey rivalCredits)
        (rivalCredits.map provenAttribution) rivalReport = .ok out ∧
      reconcile asciiUnicode RowSignature.entityId (linesByKey rivalCredits)
        (rivalCredits.map provenAttribution).reverse rivalReport = .ok out' ∧
      out.Verdict "a" {"S1"} 100000 0 ∧ ¬ out'.Verdict "a" {"S1"} 100000 0 ∧
      out.unresolved = ["b"] ∧ out'.unresolved = ["a"] := by
  have hrun : (reconcile asciiUnicode RowSignature.entityId (linesByKey rivalCredits)
        (rivalCredits.map provenAttribution) rivalReport).map
      (fun out => (out.covers.map fun c => (c.key, c.sids, c.result.coveredNetPaise,
        c.result.residualPaise), out.unresolved)) =
        .ok ([("a", ["S1"], 100000, 0), ("c", ["S2"], 30000, 0)], ["b"]) := by decide +kernel
  have hrun' : (reconcile asciiUnicode RowSignature.entityId (linesByKey rivalCredits)
        (rivalCredits.map provenAttribution).reverse rivalReport).map
      (fun out => (out.covers.map fun c => (c.key, c.sids), out.unresolved)) =
        .ok ([("c", ["S2"]), ("b", ["S1"])], ["a"]) := by decide +kernel
  obtain ⟨st, hout, _⟩ := reconcile_spec asciiUnicode RowSignature.entityId
    (linesByKey rivalCredits) (rivalCredits.map provenAttribution) rivalReport
  obtain ⟨st', hout', _⟩ := reconcile_spec asciiUnicode RowSignature.entityId
    (linesByKey rivalCredits) (rivalCredits.map provenAttribution).reverse rivalReport
  rw [hout] at hrun
  rw [hout'] at hrun'
  obtain ⟨hcovers, hunresolved⟩ := Prod.mk.inj (Except.ok.inj hrun)
  obtain ⟨hcovers', hunresolved'⟩ := Prod.mk.inj (Except.ok.inj hrun')
  refine ⟨_, _, (List.reverse_perm _).symm, hout, hout', ?_, ?_, hunresolved, hunresolved'⟩
  · have ha : ("a", ["S1"], (100000 : ℤ), (0 : ℤ)) ∈
        [("a", ["S1"], (100000 : ℤ), (0 : ℤ)), ("c", ["S2"], 30000, 0)] := List.mem_cons_self
    rw [← hcovers] at ha
    obtain ⟨c, hc, hca⟩ := List.mem_map.mp ha
    simp only [Prod.mk.injEq] at hca
    exact ⟨c, hc, hca.1, by rw [hca.2.1]; rfl, hca.2.2⟩
  · intro h
    obtain ⟨c, hc, hk, _⟩ := h
    have hmem := List.mem_map_of_mem (f := fun c => (c.key, c.sids)) hc
    rw [hcovers'] at hmem
    simp [hk] at hmem

end Permuted

end Untangle
