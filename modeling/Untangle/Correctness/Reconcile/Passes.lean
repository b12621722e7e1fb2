import Untangle.Correctness.Reconcile.Index

/-!
# `Correctness.Reconcile.Passes` — the two passes, one spec lemma each

Pass 1 has a closed form: what it accepts and what it sets aside is read off the claimants of each
settlement (`mem_claimPass_covers`, `mem_claimPass_duplicates`). One step of pass 2 is inverted once
(`AmountStep`, `amountStep_spec`): it skips the credit, refuses it, or accepts a cover whose residual is zero.
`amountRun` is a run of such steps, and every invariant of a run follows from `AmountRun.preserves`.
-/

namespace Untangle

open Lib

/-! ## Pass 1 -/

section Claims

variable (U : Unicode) (ix : SettlementIndex) (rzp : List Credit)

/-- The proven credits that claim a settlement by UTR. -/
def claimants (sid : String) : List Credit := rzp.filter fun p => ix.utrSid U p.2 = some sid

variable {U ix rzp}

theorem mem_claimants {sid : String} {p : Credit} :
    p ∈ claimants U ix rzp sid ↔ p ∈ rzp ∧ ix.utrSid U p.2 = some sid := by
  simp [claimants]

theorem mem_utrClaims {sid : String} {claims : List Credit} :
    (sid, claims) ∈ (utrClaims U ix rzp).items ↔
      claims = claimants U ix rzp sid ∧ claims ≠ [] := by
  have hget : ((utrClaims U ix rzp).get? sid).getD [] = claimants U ix rzp sid := by
    unfold utrClaims
    rw [Dict.getD_get?_gather_append, List.map_id']
    rfl
  have hkeys : sid ∈ (utrClaims U ix rzp).keys ↔ claimants U ix rzp sid ≠ [] := by
    unfold utrClaims
    rw [Dict.mem_keys_gather]
    constructor
    · intro h
      obtain ⟨p, hp, hsid⟩ := h
      exact List.ne_nil_of_mem (mem_claimants.mpr ⟨hp, hsid⟩)
    · intro h
      obtain ⟨p, hp⟩ := List.exists_mem_of_ne_nil _ h
      exact ⟨p, mem_claimants.mp hp⟩
  rw [← Dict.get?_eq_some]
  constructor
  · intro h
    rw [h, Option.getD_some] at hget
    subst hget
    exact ⟨rfl, hkeys.mp (Dict.mem_keys_of_get? h)⟩
  · intro h
    obtain ⟨rfl, hne⟩ := h
    obtain ⟨v, hv⟩ := Dict.exists_get?_of_mem_keys (hkeys.mpr hne)
    rw [hv, Option.getD_some] at hget
    rw [hv, hget]

/-- What pass 1 accepts for one claimed settlement. -/
def claimCover (ix : SettlementIndex) (claim : String × List Credit) : Option (Cover ix) :=
  match claim.2 with
  | [p] => makeCover ix p.1 p.2 [claim.1]
  | _ => none

/-- The credits pass 1 sets aside for one claimed settlement. -/
def claimDuplicates (claim : String × List Credit) : List String :=
  match claim.2 with
  | [] => []
  | [_] => []
  | ps => ps.map Prod.fst

theorem claimStep_eq (st : ReconcileState ix) (claim : String × List Credit) :
    claimStep ix st claim =
      { covers := st.covers ++ (claimCover ix claim).toList
        notes := { st.notes with
          duplicateOrSplitLines := st.notes.duplicateOrSplitLines ++ claimDuplicates claim } } := by
  obtain ⟨sid, claims⟩ := claim
  match claims with
  | [] => simp [claimStep, claimCover, claimDuplicates]
  | [p] =>
      cases h : makeCover ix p.1 p.2 [sid] with
      | none => simp [claimStep, claimCover, claimDuplicates, h]
      | some c => simp [claimStep, claimCover, claimDuplicates, h, ReconcileState.accept]
  | p :: q :: ps => simp [claimStep, claimCover, claimDuplicates, ReconcileState.noteDuplicates]

theorem foldl_claimStep (claims : List (String × List Credit)) :
    ∀ st : ReconcileState ix, claims.foldl (claimStep ix) st =
      { covers := st.covers ++ claims.filterMap (claimCover ix)
        notes := { st.notes with
          duplicateOrSplitLines :=
            st.notes.duplicateOrSplitLines ++ claims.flatMap claimDuplicates } } := by
  induction claims with
  | nil => intro st; simp
  | cons claim claims ih =>
      intro st
      rw [List.foldl_cons, ih, claimStep_eq]
      cases h : claimCover ix claim <;> simp [h, List.flatMap_cons]

/-- **Pass 1 in closed form.** -/
theorem claimPass_eq : claimPass U ix rzp =
    { covers := (utrClaims U ix rzp).items.filterMap (claimCover ix)
      notes := { duplicateOrSplitLines := (utrClaims U ix rzp).items.flatMap claimDuplicates } } := by
  unfold claimPass
  rw [foldl_claimStep]
  simp

/-- Pass 1 accepts exactly the sole claimants whose settlement balances them. -/
theorem mem_claimPass_covers {c : Cover ix} :
    c ∈ (claimPass U ix rzp).covers ↔
      ∃ sid p, claimants U ix rzp sid = [p] ∧ makeCover ix p.1 p.2 [sid] = some c := by
  rw [claimPass_eq, List.mem_filterMap]
  constructor
  · intro h
    obtain ⟨⟨sid, claims⟩, hmem, hc⟩ := h
    obtain ⟨hclaims, _⟩ := mem_utrClaims.mp hmem
    match claims, hc with
    | [p], hc => exact ⟨sid, p, hclaims.symm, hc⟩
  · intro h
    obtain ⟨sid, p, hclaims, hc⟩ := h
    exact ⟨(sid, [p]), mem_utrClaims.mpr ⟨hclaims.symm, by simp⟩, hc⟩

/-- Pass 1 sets aside exactly the credits whose settlement has several claimants. -/
theorem mem_claimPass_duplicates {key : String} :
    key ∈ (claimPass U ix rzp).notes.duplicateOrSplitLines ↔
      ∃ sid, 2 ≤ (claimants U ix rzp sid).length ∧ key ∈ (claimants U ix rzp sid).map Prod.fst := by
  rw [claimPass_eq, List.mem_flatMap]
  constructor
  · intro h
    obtain ⟨⟨sid, claims⟩, hmem, hkey⟩ := h
    obtain ⟨hclaims, _⟩ := mem_utrClaims.mp hmem
    match claims, hkey with
    | p :: q :: ps, hkey =>
        refine ⟨sid, ?_, ?_⟩
        · rw [← hclaims]
          simp
        · rw [← hclaims]
          exact hkey
  · intro h
    obtain ⟨sid, hlen, hkey⟩ := h
    refine ⟨(sid, claimants U ix rzp sid), mem_utrClaims.mpr ⟨rfl, ?_⟩, ?_⟩
    · intro hnil
      rw [hnil] at hlen
      simp at hlen
    · match hclaims : claimants U ix rzp sid with
      | [] => rw [hclaims] at hlen; simp at hlen
      | [p] => rw [hclaims] at hlen; simp at hlen
      | p :: q :: ps =>
          rw [hclaims] at hkey
          exact hkey

end Claims

/-! ## What an answer of the search covers -/

section Answer

variable {rows : List ReconRow} {ix : SettlementIndex} {line : BankCreditLine} {used : List String}

theorem mem_singleSids (hix : IndexSpec rows ix) {sid : String} (h : sid ∈ ix.singleSids line used) :
    Settles rows sid ∧ netOf rows sid = line.amountPaise ∧ sid ∉ used := by
  obtain ⟨hmem, hcond⟩ := List.mem_filter.mp h
  obtain ⟨hsettles, hnet⟩ := (hix.mem_single sid _).mp hmem
  exact ⟨hsettles, hnet, (of_decide_eq_true hcond).1⟩

theorem mem_setsumCands (hix : IndexSpec rows ix) {item : Item} (h : item ∈ ix.setsumCands line used) :
    Settles rows item.1 ∧ netOf rows item.1 = item.2 ∧ item.1 ∉ used := by
  obtain ⟨hmem, hcond⟩ := List.mem_filter.mp h
  obtain ⟨hsettles, hnet⟩ := (hix.net_get item.1 item.2).mp (Dict.get?_of_mem hmem)
  exact ⟨hsettles, hnet, (of_decide_eq_true hcond).1⟩

/-- On the pool the amount of an identity is the settlement's net. -/
theorem amountOf_setsumCands (hix : IndexSpec rows ix) {sid : String}
    (h : sid ∈ poolIds (ix.setsumCands line used)) :
    amountOf (ix.setsumCands line used) sid = netOf rows sid := by
  obtain ⟨item, hitem, rfl⟩ := mem_identities.mp h
  rw [amountOf_mem SettlementIndex.validPool_setsumCands.nodup hitem, (mem_setsumCands hix hitem).2.1]

/-- What holds of every answer, doubled or not. -/
structure AnswerFacts (rows : List ReconRow) (line : BankCreditLine) (used sids : List String) :
    Prop where
  ne_nil : sids ≠ []
  settles : ∀ sid ∈ sids, Settles rows sid
  unused : ∀ sid ∈ sids, sid ∉ used
  balances : residualOf rows line sids = 0

/-- **Every answer of the search balances the credit exactly** with settlements that were free. -/
theorem answerFacts (hix : IndexSpec rows ix) {sids : List String}
    (h : ix.AnswerSound line used sids) : AnswerFacts rows line used sids := by
  unfold SettlementIndex.AnswerSound at h
  rcases h with ⟨sid, hsid, rfl⟩ | ⟨_, _, htuple⟩
  · obtain ⟨hsettles, hnet, hunused⟩ := mem_singleSids hix hsid
    refine ⟨by simp, by simpa using hsettles, by simpa using hunused, ?_⟩
    unfold residualOf
    rw [List.map_singleton, List.sum_singleton, hnet, sub_self]
  · rcases htuple with ⟨hnd, hlen, hsum⟩ | ⟨_, x, y, ⟨hsub, _, hxy⟩, rfl⟩
    · obtain ⟨hsubset, _, _, htol⟩ := mem_sumSets.mp hsum
      have hmem : ∀ sid ∈ sids, sid ∈ poolIds (ix.setsumCands line used) :=
        fun sid hs => hsubset (List.mem_toFinset.mpr hs)
      have hitem : ∀ sid ∈ sids, Settles rows sid ∧ sid ∉ used := by
        intro sid hs
        obtain ⟨item, hi, rfl⟩ := mem_identities.mp (hmem sid hs)
        exact ⟨(mem_setsumCands hix hi).1, (mem_setsumCands hix hi).2.2⟩
      refine ⟨?_, fun sid hs => (hitem sid hs).1, fun sid hs => (hitem sid hs).2, ?_⟩
      · intro hnil
        rw [hnil, List.length_nil] at hlen
        omega
      · have hnets : sids.map (amountOf (ix.setsumCands line used)) = sids.map (netOf rows) :=
          List.map_congr_left fun sid hs => amountOf_setsumCands hix (hmem sid hs)
        rw [List.sum_toFinset _ hnd, hnets] at htol
        have hzero := abs_nonpos_iff.mp htol
        unfold residualOf
        omega
    · obtain ⟨hxs, hxn, hxu⟩ := mem_setsumCands hix (hsub.subset (by simp) : x ∈ _)
      obtain ⟨hys, hyn, hyu⟩ := mem_setsumCands hix (hsub.subset (by simp) : y ∈ _)
      refine ⟨by simp, ?_, ?_, ?_⟩
      · simp [hxs, hys]
      · simp [hxu, hyu]
      · unfold residualOf
        simp only [List.map_cons, List.map_nil, List.sum_cons, List.sum_nil, hxn, hyn]
        omega

end Answer

/-! ## Pass 2 -/

section Steps

variable (ix : SettlementIndex)

/-- What one step of pass 2 can do. -/
inductive AmountStep (st : ReconcileState ix) (p : Credit) : ReconcileState ix → Prop
  | skip (h : skipped ix st p) : AmountStep st p st
  | refuse (h : ¬ skipped ix st p) (giveup : Option SettlementIndex.Giveup)
      (hcard : (ix.satisfyingSets p.2 st.usedSids).card ≠ 1) :
      AmountStep st p (st.noteGiveup p.2.key giveup)
  | cover (h : ¬ skipped ix st p) (c : Cover ix) (key : c.key = p.1) (line : c.line = p.2)
      (hsets : ix.satisfyingSets p.2 st.usedSids = {c.sids.toFinset})
      (answer : ix.amountOrSetsumSids p.2 st.usedSids = .ok (c.sids, none))
      (sound : ix.AnswerSound p.2 st.usedSids c.sids) : AmountStep st p (st.accept c)

variable {ix}

/-- **One step of pass 2** always succeeds and is an `AmountStep`. -/
theorem amountStep_spec {rows : List ReconRow} (hix : IndexSpec rows ix) (st : ReconcileState ix)
    (p : Credit) : ∃ st', amountStep ix st p = .ok st' ∧ AmountStep ix st p st' := by
  by_cases hskip : skipped ix st p
  · refine ⟨st, ?_, .skip hskip⟩
    unfold amountStep
    rw [if_pos hskip]
    rfl
  · obtain ⟨⟨sids, giveup⟩, hans, hspec⟩ := SettlementIndex.amountOrSetsumSids_spec p.2
      st.usedSids hix
    unfold amountStep
    rw [if_neg hskip]
    simp only [bind, Except.bind, hans]
    cases hspec with
    | nothing hnone =>
        refine ⟨_, rfl, .refuse hskip none ?_⟩
        rw [hnone]
        simp
    | ambiguous hcard => exact ⟨_, rfl, .refuse hskip (some .ambiguous) (by omega)⟩
    | unique _ hsets hsound =>
        have hfacts := answerFacts hix hsound
        have hsome : (makeResult p.2 sids ix).isSome := by
          rw [isSome_makeResult hix, hfacts.balances]
          decide
        obtain ⟨c, hc, hkey, hline, rfl⟩ := exists_makeCover p.1 hsome
        rw [if_neg hfacts.ne_nil, hc]
        exact ⟨_, rfl, .cover hskip c hkey hline hsets hans hsound⟩

/-- A run of pass 2 over a list of credits. -/
inductive AmountRun (ix : SettlementIndex) : ReconcileState ix → List Credit → ReconcileState ix → Prop
  | nil (st : ReconcileState ix) : AmountRun ix st [] st
  | cons {st st' st'' : ReconcileState ix} {p : Credit} {ps : List Credit}
      (step : AmountStep ix st p st') (eq : amountStep ix st p = .ok st')
      (rest : AmountRun ix st' ps st'') : AmountRun ix st (p :: ps) st''

/-- **Pass 2 runs to its end**, whatever it is given. -/
theorem amountRun_of_foldlM {rows : List ReconRow} (hix : IndexSpec rows ix) (ps : List Credit) :
    ∀ st : ReconcileState ix, ∃ st', ps.foldlM (amountStep ix) st = .ok st' ∧ AmountRun ix st ps st' := by
  induction ps with
  | nil => intro st; exact ⟨st, rfl, .nil st⟩
  | cons p ps ih =>
      intro st
      obtain ⟨st', hstep, hspec⟩ := amountStep_spec hix st p
      obtain ⟨st'', hrest, hrun⟩ := ih st'
      refine ⟨st'', ?_, .cons hspec hstep hrun⟩
      rw [List.foldlM_cons]
      simp only [bind, Except.bind, hstep]
      exact hrest

/-- What every step preserves, a run preserves. -/
theorem AmountRun.preserves {P : ReconcileState ix → Prop} {st st' : ReconcileState ix}
    {ps : List Credit} (hrun : AmountRun ix st ps st')
    (hstep : ∀ st p st', p ∈ ps → AmountStep ix st p st' → P st → P st') (h : P st) : P st' := by
  induction hrun with
  | nil => exact h
  | cons step _ _ ih =>
      exact ih (fun st p st' hp => hstep st p st' (List.mem_cons_of_mem _ hp))
        (hstep _ _ _ List.mem_cons_self step h)

@[simp] theorem noteGiveup_covers (st : ReconcileState ix) (key : String)
    (g : Option SettlementIndex.Giveup) : (st.noteGiveup key g).covers = st.covers := by
  cases g with
  | none => rfl
  | some g => cases g <;> rfl

@[simp] theorem noteGiveup_duplicates (st : ReconcileState ix) (key : String)
    (g : Option SettlementIndex.Giveup) :
    (st.noteGiveup key g).notes.duplicateOrSplitLines = st.notes.duplicateOrSplitLines := by
  cases g with
  | none => rfl
  | some g => cases g <;> rfl

/-- Pass 2 adds nothing to the credits set aside by pass 1. -/
theorem AmountStep.duplicates {st st' : ReconcileState ix} {p : Credit} (h : AmountStep ix st p st') :
    st'.notes.duplicateOrSplitLines = st.notes.duplicateOrSplitLines := by
  cases h with
  | skip => rfl
  | refuse _ giveup => exact noteGiveup_duplicates st _ giveup
  | cover => rfl

/-- Accepted covers stay. -/
theorem AmountStep.covers_prefix {st st' : ReconcileState ix} {p : Credit}
    (h : AmountStep ix st p st') : st.covers <+: st'.covers := by
  cases h with
  | skip => exact List.prefix_rfl
  | refuse _ giveup =>
      rw [noteGiveup_covers]
  | cover _ c => exact List.prefix_append _ _

theorem AmountRun.covers_prefix {st st' : ReconcileState ix} {ps : List Credit}
    (h : AmountRun ix st ps st') : st.covers <+: st'.covers := by
  induction h with
  | nil => exact List.prefix_rfl
  | cons step _ _ ih => exact step.covers_prefix.trans ih

end Steps

/-! ## The whole run -/

section Run

variable {U : Unicode} {digest : RowSignature → String} {lines : LinesByKey}
  {attributions : List RailAttribution} {rows : List ReconRow}

theorem mem_provenLines {p : Credit} :
    p ∈ provenLines lines attributions ↔
      ∃ a ∈ attributions, (a.rail = Rail.razorpaySettlement.value ∧ a.abstained = false) ∧
        a.lineKey = p.1 ∧ lines.dict.get? p.1 = some p.2 := by
  unfold provenLines
  rw [List.mem_filterMap]
  constructor
  · intro h
    obtain ⟨a, ha, hp⟩ := h
    split at hp
    · rename_i hproven
      obtain ⟨line, hline, rfl⟩ := Option.map_eq_some_iff.mp hp
      exact ⟨a, ha, hproven, rfl, hline⟩
    · exact absurd hp (by simp)
  · intro h
    obtain ⟨a, ha, hproven, hkey, hline⟩ := h
    refine ⟨a, ha, ?_⟩
    rw [if_pos hproven, hkey, hline]
    rfl

/-- Every line stands under its own key. -/
theorem key_of_mem_provenLines {p : Credit} (h : p ∈ provenLines lines attributions) :
    p.2.key = p.1 := by
  obtain ⟨_, _, _, _, hline⟩ := mem_provenLines.mp h
  exact lines.keyed _ _ hline

theorem nodup_provenLines (lines : LinesByKey) (h : (attributions.map RailAttribution.lineKey).Nodup) :
    ((provenLines lines attributions).map Prod.fst).Nodup := by
  have hsub : ((provenLines lines attributions).map Prod.fst).Sublist
      (attributions.map RailAttribution.lineKey) := by
    unfold provenLines
    induction attributions with
    | nil => simp
    | cons a attributions ih =>
        have ih := ih (List.nodup_cons.mp h).2
        rw [List.filterMap_cons, List.map_cons]
        split
        · exact ih.cons _
        · rename_i p hp
          split at hp
          · obtain ⟨line, _, rfl⟩ := Option.map_eq_some_iff.mp hp
            exact ih.cons_cons _
          · exact absurd hp (by simp)
  exact h.sublist hsub

/-- **`reconcile` always returns**: pass 1, a full run of pass 2, and the closing. -/
theorem reconcile_spec (U : Unicode) (digest : RowSignature → String) (lines : LinesByKey)
    (attributions : List RailAttribution) (rows : List ReconRow) :
    let ix := SettlementIndex.ofRows U digest rows
    let rzp := provenLines lines attributions
    ∃ st, reconcile U digest lines attributions rows = .ok (closeReconcile U ix rzp st) ∧
      AmountRun ix (claimPass U ix rzp) rzp st := by
  intro ix rzp
  obtain ⟨st, hst, hrun⟩ := amountRun_of_foldlM (SettlementIndex.ofRows_spec U digest rows) rzp
    (claimPass U ix rzp)
  refine ⟨st, ?_, hrun⟩
  unfold reconcile reconcilePasses
  simp only [bind, Except.bind, pure, Except.pure]
  rw [show (provenLines lines attributions).foldlM _ _ = .ok st from hst]

theorem mem_closeReconcile_covers {ix : SettlementIndex} {rzp : List Credit} {st : ReconcileState ix}
    {c : Cover ix} : c ∈ (closeReconcile U ix rzp st).covers ↔ c ∈ st.covers :=
  (List.perm_insertionSort _ _).mem_iff

end Run

/-! ## What every state of a run satisfies -/

section Invariant

variable {U : Unicode} {rows : List ReconRow} {ix : SettlementIndex} {rzp : List Credit}

/-- Covers belong to proven credits, one each, and consist of settlements of the report. -/
structure RunInv (rows : List ReconRow) (rzp : List Credit) (st : ReconcileState ix) : Prop where
  keys_nodup : st.resolved.Nodup
  proven : ∀ c ∈ st.covers, (c.key, c.line) ∈ rzp
  sids_ne_nil : ∀ c ∈ st.covers, c.sids ≠ []
  settles : ∀ c ∈ st.covers, ∀ sid ∈ c.sids, Settles rows sid

theorem utrSid_settles (hix : IndexSpec rows ix) {line : BankCreditLine} {sid : String}
    (h : ix.utrSid U line = some sid) : Settles rows sid := by
  obtain ⟨tok, _, htok⟩ := List.exists_of_findSome?_eq_some h
  exact hix.utr_settles _ _ htok

/-- Two proven credits under one key are one credit. -/
theorem credit_ext (hkeys : (rzp.map Prod.fst).Nodup) {p q : Credit} (hp : p ∈ rzp) (hq : q ∈ rzp)
    (h : p.1 = q.1) : p = q := List.inj_on_of_nodup_map hkeys hp hq h

theorem runInv_claimPass (hix : IndexSpec rows ix) (hkeys : (rzp.map Prod.fst).Nodup) :
    RunInv rows rzp (claimPass U ix rzp) where
  keys_nodup := by
    unfold ReconcileState.resolved
    rw [claimPass_eq, List.Nodup, List.pairwise_map, List.pairwise_filterMap]
    have hitems : (utrClaims U ix rzp).items.Pairwise fun a b => a.1 ≠ b.1 :=
      List.pairwise_map.mp (Dict.nodup_keys (utrClaims U ix rzp))
    refine hitems.imp_of_mem ?_
    intro a b ha hb hne c hc d hd hcd
    obtain ⟨sid, claims⟩ := a
    obtain ⟨sid', claims'⟩ := b
    obtain ⟨hclaims, _⟩ := mem_utrClaims.mp ha
    obtain ⟨hclaims', _⟩ := mem_utrClaims.mp hb
    match claims, claims', hc, hd with
    | [p], [q], hc, hd =>
        have hp : p ∈ claimants U ix rzp sid := by simp [← hclaims]
        have hq : q ∈ claimants U ix rzp sid' := by simp [← hclaims']
        have hpq : p = q := credit_ext hkeys (mem_claimants.mp hp).1 (mem_claimants.mp hq).1 (by
          rw [← (makeCover_eq_some hc).1, ← (makeCover_eq_some hd).1, hcd])
        subst hpq
        have hsid := (mem_claimants.mp hp).2.symm.trans (mem_claimants.mp hq).2
        exact hne (Option.some.inj hsid)
  proven := by
    intro c hc
    obtain ⟨sid, p, hclaims, hmake⟩ := mem_claimPass_covers.mp hc
    have hp : p ∈ claimants U ix rzp sid := by simp [hclaims]
    obtain ⟨hkey, hline, _⟩ := makeCover_eq_some hmake
    rw [hkey, hline]
    exact (mem_claimants.mp hp).1
  sids_ne_nil := by
    intro c hc
    obtain ⟨sid, p, _, hmake⟩ := mem_claimPass_covers.mp hc
    rw [(makeCover_eq_some hmake).2.2]
    simp
  settles := by
    intro c hc sid' hsid'
    obtain ⟨sid, p, hclaims, hmake⟩ := mem_claimPass_covers.mp hc
    have hp : p ∈ claimants U ix rzp sid := by simp [hclaims]
    rw [(makeCover_eq_some hmake).2.2, List.mem_singleton] at hsid'
    subst hsid'
    exact utrSid_settles hix (mem_claimants.mp hp).2

theorem AmountStep.runInv (hix : IndexSpec rows ix) {st st' : ReconcileState ix} {p : Credit}
    (hp : p ∈ rzp) (hstep : AmountStep ix st p st') (h : RunInv rows rzp st) : RunInv rows rzp st' := by
  cases hstep with
  | skip => exact h
  | refuse _ giveup =>
      have hcovers := noteGiveup_covers st p.2.key giveup
      constructor
      · unfold ReconcileState.resolved
        rw [hcovers]
        exact h.keys_nodup
      · rw [hcovers]
        exact h.proven
      · rw [hcovers]
        exact h.sids_ne_nil
      · rw [hcovers]
        exact h.settles
  | cover hskip c key line _ _ sound =>
      have hfacts := answerFacts hix sound
      have hcovers : ∀ d ∈ (st.accept c).covers, d ∈ st.covers ∨ d = c := by
        intro d hd
        exact (List.mem_append.mp hd).imp_right List.mem_singleton.mp
      constructor
      · show ((st.covers ++ [c]).map Cover.key).Nodup
        rw [List.map_append, List.map_singleton, ← List.concat_eq_append, List.nodup_concat]
        refine ⟨?_, h.keys_nodup⟩
        intro hmem
        exact hskip (Or.inl (key ▸ hmem))
      · intro d hd
        rcases hcovers d hd with hd | rfl
        · exact h.proven d hd
        · rw [key, line]
          exact hp
      · intro d hd
        rcases hcovers d hd with hd | rfl
        · exact h.sids_ne_nil d hd
        · exact hfacts.ne_nil
      · intro d hd
        rcases hcovers d hd with hd | rfl
        · exact h.settles d hd
        · exact hfacts.settles

/-- **Every finished run satisfies the invariant.** -/
theorem AmountRun.runInv (hix : IndexSpec rows ix) (hkeys : (rzp.map Prod.fst).Nodup)
    {st : ReconcileState ix} (h : AmountRun ix (claimPass U ix rzp) rzp st) : RunInv rows rzp st :=
  h.preserves (fun _ _ _ hp hstep => hstep.runInv hix hp) (runInv_claimPass hix hkeys)

end Invariant

end Untangle
