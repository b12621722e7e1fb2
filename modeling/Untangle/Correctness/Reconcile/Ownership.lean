import Untangle.Correctness.Reconcile.Passes

/-!
# `Correctness.Reconcile.Ownership` — who may cover a settlement claimed by UTR

Pass 1 serves the credits that quote a settlement's UTR before any amount match is tried. What that ordering
buys is a statement about *served* claims: a settlement whose sole claimant balances it belongs to that
claimant (`utr_ownership`), and the claimants of a settlement claimed twice are given nothing at all. A
claim that pass 1 does not serve leaves no mark on the settlement: it stays in the pool of pass 2, and its
sole claimant is an ordinary amount credit there (`utr_exclusive_fails`).
-/

namespace Untangle

open Lib

section Ownership

variable {U : Unicode} {rows : List ReconRow} {ix : SettlementIndex} {rzp : List Credit}

/-- `p` alone claims `sid` by UTR, and `sid` balances it within the drift tolerance. -/
structure Served (U : Unicode) (ix : SettlementIndex) (rows : List ReconRow) (rzp : List Credit)
    (p : Credit) (sid : String) : Prop where
  sole : claimants U ix rzp sid = [p]
  balances : |residualOf rows p.2 [sid]| ≤ driftTolerancePaise

/-- A state gives `sid` to `key` and to nobody else, and gives `key` nothing else. -/
structure Owns (st : ReconcileState ix) (key sid : String) : Prop where
  served : ∃ c ∈ st.covers, c.key = key ∧ c.sids = [sid]
  only : ∀ c ∈ st.covers, sid ∈ c.sids ∨ c.key = key → c.key = key ∧ c.sids = [sid]

theorem owns_claimPass (hix : IndexSpec rows ix) (hkeys : (rzp.map Prod.fst).Nodup) {p : Credit}
    {sid : String} (h : Served U ix rows rzp p sid) : Owns (claimPass U ix rzp) p.1 sid where
  served := by
    obtain ⟨c, hc, hkey, _, hsids⟩ := exists_makeCover p.1
      ((isSome_makeResult hix p.2 [sid]).mpr h.balances)
    exact ⟨c, mem_claimPass_covers.mpr ⟨sid, p, h.sole, hc⟩, hkey, hsids⟩
  only := by
    intro c hc hor
    obtain ⟨sid', q, hclaims, hmake⟩ := mem_claimPass_covers.mp hc
    obtain ⟨hkey, _, hsids⟩ := makeCover_eq_some hmake
    have hp : p ∈ claimants U ix rzp sid := by simp [h.sole]
    have hq : q ∈ claimants U ix rzp sid' := by simp [hclaims]
    have hsid : sid' = sid := by
      rcases hor with hmem | hk
      · rw [hsids, List.mem_singleton] at hmem
        exact hmem.symm
      · have hqp : q = p := credit_ext hkeys (mem_claimants.mp hq).1 (mem_claimants.mp hp).1
          (hkey.symm.trans hk)
        subst hqp
        have hutr := (mem_claimants.mp hq).2.symm.trans (mem_claimants.mp hp).2
        exact Option.some.inj hutr
    subst hsid
    rw [h.sole] at hclaims
    rw [hkey, hsids, (List.cons.inj hclaims).1]
    exact ⟨rfl, rfl⟩

/-- Pass 2 takes only free settlements for unresolved credits, so ownership persists. -/
theorem AmountStep.owns (hix : IndexSpec rows ix) {st st' : ReconcileState ix} {q : Credit}
    {key sid : String} (hstep : AmountStep ix st q st') (h : Owns st key sid) : Owns st' key sid := by
  obtain ⟨c, hc, hkey, hsids⟩ := h.served
  cases hstep with
  | skip => exact h
  | refuse _ giveup =>
      constructor
      · rw [noteGiveup_covers]
        exact h.served
      · rw [noteGiveup_covers]
        exact h.only
  | cover hskip d dkey _ _ _ sound =>
      refine ⟨⟨c, List.mem_append_left _ hc, hkey, hsids⟩, ?_⟩
      intro e he hor
      rcases List.mem_append.mp he with he | he
      · exact h.only e he hor
      · rw [List.mem_singleton] at he
        subst he
        rcases hor with hmem | hk
        · have hused : sid ∈ st.usedSids := List.mem_flatMap.mpr ⟨c, hc, by simp [hsids]⟩
          exact absurd hused ((answerFacts hix sound).unused sid hmem)
        · have hresolved : q.1 ∈ st.resolved := List.mem_map.mpr ⟨c, hc, by rw [hkey, ← dkey, hk]⟩
          exact absurd (Or.inl hresolved) hskip

/-- A credit set aside by pass 1 that has no cover never gets one. -/
theorem AmountStep.uncovered {st st' : ReconcileState ix} {q : Credit} {key : String}
    (hstep : AmountStep ix st q st')
    (h : key ∈ st.notes.duplicateOrSplitLines ∧ ∀ c ∈ st.covers, c.key ≠ key) :
    key ∈ st'.notes.duplicateOrSplitLines ∧ ∀ c ∈ st'.covers, c.key ≠ key := by
  rw [hstep.duplicates]
  refine ⟨h.1, ?_⟩
  cases hstep with
  | skip => exact h.2
  | refuse _ giveup =>
      rw [noteGiveup_covers]
      exact h.2
  | cover hskip d dkey =>
      intro e he
      rcases List.mem_append.mp he with he | he
      · exact h.2 e he
      · rw [List.mem_singleton] at he
        subst he
        intro hk
        exact hskip (Or.inr (by rw [← dkey, hk]; exact h.1))

theorem uncovered_claimPass (hkeys : (rzp.map Prod.fst).Nodup) {p : Credit} {sid : String}
    (hp : p ∈ claimants U ix rzp sid) (hlen : 2 ≤ (claimants U ix rzp sid).length) :
    p.1 ∈ (claimPass U ix rzp).notes.duplicateOrSplitLines ∧
      ∀ c ∈ (claimPass U ix rzp).covers, c.key ≠ p.1 := by
  refine ⟨mem_claimPass_duplicates.mpr ⟨sid, hlen, List.mem_map_of_mem hp⟩, ?_⟩
  intro c hc hk
  obtain ⟨sid', q, hclaims, hmake⟩ := mem_claimPass_covers.mp hc
  have hq : q ∈ claimants U ix rzp sid' := by simp [hclaims]
  have hqp : q = p := credit_ext hkeys (mem_claimants.mp hq).1 (mem_claimants.mp hp).1
    ((makeCover_eq_some hmake).1.symm.trans hk)
  subst hqp
  have hsid := Option.some.inj ((mem_claimants.mp hq).2.symm.trans (mem_claimants.mp hp).2)
  subst hsid
  rw [hclaims] at hlen
  simp at hlen

end Ownership

/-! ## The two halves of UTR-first ordering -/

/-- What a served claim is promised by the finished run, and what a contested claim is. -/
structure UtrOwnership (U : Unicode) (rows : List ReconRow) (rzp : List Credit) (out : ReconcileOutput) :
    Prop where
  /-- A served claim: its credit covers exactly the settlement, and no other result touches either. -/
  served : ∀ p sid, Served U out.index rows rzp p sid →
    (∃ c ∈ out.covers, c.key = p.1 ∧ c.sids = [sid]) ∧
      ∀ c ∈ out.covers, sid ∈ c.sids ∨ c.key = p.1 → c.key = p.1 ∧ c.sids = [sid]
  /-- A settlement claimed by several credits: none of them is balanced against anything. -/
  contested : ∀ p ∈ rzp, ∀ q ∈ rzp, p ≠ q → ∀ sid, out.index.utrSid U p.2 = some sid →
    out.index.utrSid U q.2 = some sid → p.1 ∈ out.unresolved ∧ ∀ c ∈ out.covers, c.key ≠ p.1

theorem two_le_claimants {U : Unicode} {ix : SettlementIndex} {rzp : List Credit} {p q : Credit}
    {sid : String} (hp : p ∈ claimants U ix rzp sid) (hq : q ∈ claimants U ix rzp sid) (hne : p ≠ q) :
    2 ≤ (claimants U ix rzp sid).length := by
  match hl : claimants U ix rzp sid with
  | [] => rw [hl] at hp; exact absurd hp List.not_mem_nil
  | [a] =>
      rw [hl, List.mem_singleton] at hp hq
      exact absurd (hp.trans hq.symm) hne
  | a :: b :: l => simp

/-- **UTR ownership.** For credits with distinct keys, a settlement whose only claimant by UTR is balanced
    by it goes to that claimant alone, and credits that claim one settlement together get none. -/
theorem utr_ownership (U : Unicode) (digest : RowSignature → String) (lines : LinesByKey)
    (attributions : List RailAttribution) (rows : List ReconRow)
    (hkeys : (attributions.map RailAttribution.lineKey).Nodup) :
    ∃ out, reconcile U digest lines attributions rows = .ok out ∧
      UtrOwnership U rows (provenLines lines attributions) out := by
  obtain ⟨st, hout, hrun⟩ := reconcile_spec U digest lines attributions rows
  have hix := SettlementIndex.ofRows_spec U digest rows
  have hnd := nodup_provenLines lines hkeys
  refine ⟨_, hout, ?_, ?_⟩
  · intro p sid h
    have howns := hrun.preserves (fun _ _ _ _ hstep => hstep.owns hix) (owns_claimPass hix hnd h)
    obtain ⟨c, hc, hkey, hsids⟩ := howns.served
    exact ⟨⟨c, mem_closeReconcile_covers.mpr hc, hkey, hsids⟩,
      fun d hd => howns.only d (mem_closeReconcile_covers.mp hd)⟩
  · intro p hp q hq hne sid hpsid hqsid
    have hpc := mem_claimants.mpr ⟨hp, hpsid⟩
    have hqc := mem_claimants.mpr ⟨hq, hqsid⟩
    have huncovered := hrun.preserves (fun _ _ _ _ hstep => hstep.uncovered)
      (uncovered_claimPass hnd hpc (two_le_claimants hpc hqc hne))
    refine ⟨?_, fun c hc => huncovered.2 c (mem_closeReconcile_covers.mp hc)⟩
    refine List.mem_map_of_mem (List.mem_filter.mpr ⟨hp, ?_⟩)
    rw [decide_eq_true_eq]
    intro hmem
    obtain ⟨c, hc, hk⟩ := List.mem_map.mp hmem
    exact huncovered.2 c hc hk

/-! ## Claims that pass 1 does not serve -/

/-- Ownership with no proviso: whoever quotes the UTR of a settlement is the only one covered by it, and is
    covered by nothing else. -/
def UtrExclusive (U : Unicode) (rzp : List Credit) (out : ReconcileOutput) : Prop :=
  ∀ p ∈ rzp, ∀ sid, out.index.utrSid U p.2 = some sid →
    ∀ c ∈ out.covers, (sid ∈ c.sids → c.key = p.1) ∧ (c.key = p.1 → ∀ s ∈ c.sids, s = sid)

/-- `a` quotes the UTR of `S1` with another settlement's amount, `c` and `d` quote the UTR of `S2` together,
    `b` and `e` quote nothing and carry the nets of `S1` and `S2`; `f` quotes `S3` and carries its net. -/
def contestedCredits : List BankCreditLine :=
  [creditLine "a" "NEFT 1111111111aaaaaa" 70000, creditLine "b" "NEFT" 100000,
    creditLine "c" "NEFT 2222222222bbbbbb" 90000, creditLine "d" "NEFT 2222222222bbbbbb" 110000,
    creditLine "e" "NEFT" 200000, creditLine "f" "NEFT 3333333333cccccc" 40000]

def contestedReport : List ReconRow :=
  [settledRow "pay_1" "S1" (some "1111111111aaaaaa") 100000,
    settledRow "pay_2" "S2" (some "2222222222bbbbbb") 200000, settledRow "pay_3" "T" none 70000,
    settledRow "pay_4" "S3" (some "3333333333cccccc") 40000]

/-- The hypotheses of `utr_ownership` hold of a statement with served, unserved and contested claims. -/
theorem utr_ownership_contested : ∃ out,
    reconcile asciiUnicode RowSignature.entityId (linesByKey contestedCredits)
        (contestedCredits.map provenAttribution) contestedReport = .ok out ∧
      UtrOwnership asciiUnicode contestedReport
        (provenLines (linesByKey contestedCredits) (contestedCredits.map provenAttribution)) out :=
  utr_ownership asciiUnicode RowSignature.entityId (linesByKey contestedCredits)
    (contestedCredits.map provenAttribution) contestedReport (by decide)

/-- **Ownership needs its proviso.** `a` is balanced against `T` although it quotes `S1`, and the amount-only
    credits `b` and `e` take `S1` and the twice-claimed `S2`. -/
theorem utr_exclusive_fails : ∃ out,
    reconcile asciiUnicode RowSignature.entityId (linesByKey contestedCredits)
        (contestedCredits.map provenAttribution) contestedReport = .ok out ∧
      out.covers.map (fun c => (c.key, c.sids)) =
        [("a", ["T"]), ("b", ["S1"]), ("e", ["S2"]), ("f", ["S3"])] ∧
      ¬ UtrExclusive asciiUnicode
        (provenLines (linesByKey contestedCredits) (contestedCredits.map provenAttribution)) out := by
  have hrun : (reconcile asciiUnicode RowSignature.entityId (linesByKey contestedCredits)
        (contestedCredits.map provenAttribution) contestedReport).map
      (fun out => out.covers.map fun c => (c.key, c.sids)) =
        .ok [("a", ["T"]), ("b", ["S1"]), ("e", ["S2"]), ("f", ["S3"])] := by decide +kernel
  obtain ⟨st, hout, _⟩ := reconcile_spec asciiUnicode RowSignature.entityId
    (linesByKey contestedCredits) (contestedCredits.map provenAttribution) contestedReport
  rw [hout] at hrun
  have hcovers := Except.ok.inj hrun
  refine ⟨_, hout, hcovers, ?_⟩
  intro hexclusive
  have hb : ("b", ["S1"]) ∈ [("a", ["T"]), ("b", ["S1"]), ("e", ["S2"]), ("f", ["S3"])] := by simp
  rw [← hcovers] at hb
  obtain ⟨c, hc, hcb⟩ := List.mem_map.mp hb
  obtain ⟨hkey, hsids⟩ := Prod.mk.inj hcb
  have hproven : ("a", creditLine "a" "NEFT 1111111111aaaaaa" 70000) ∈
      provenLines (linesByKey contestedCredits) (contestedCredits.map provenAttribution) := by
    decide +kernel
  have hutr : (SettlementIndex.ofRows asciiUnicode RowSignature.entityId contestedReport).utrSid
      asciiUnicode (creditLine "a" "NEFT 1111111111aaaaaa" 70000) = some "S1" := by decide +kernel
  have ha := (hexclusive _ hproven "S1" hutr c hc).1 (by simp [hsids])
  rw [hkey] at ha
  exact absurd ha (by decide)

end Untangle
