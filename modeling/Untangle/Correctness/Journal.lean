import Untangle.Correctness.Covered
import Untangle.Correctness.Reconcile.Conservation
import Untangle.Engine.FeeGst
import Untangle.Engine.Journal
import Untangle.Lib.Fallible

/-!
# `Correctness.Journal` — one number for one fact across the artifacts

The journal and the fee-GST report each resolve the covered rows again from their ids. Every voucher balances by
itself, and posts to each ledger what its reconciliation and its rows say (`voucher_balanced`, `bank_voucher`,
`inputTax_voucher`, `clearing_voucher`). So the artifacts agree with the report as soon as both find the rows that
were covered, and the only coverage they refuse is the doubled one (`journal_agrees_iff`).
-/

namespace Untangle

open Lib

/-! ## The postings of a voucher -/

/-- What a voucher debits and credits to a ledger. -/
def JournalEntry.debitOn (e : JournalEntry) (ledger : String) : ℤ :=
  ((e.lines.filter fun l => l.ledger = ledger).map JournalLine.debitPaise).sum

def JournalEntry.creditOn (e : JournalEntry) (ledger : String) : ℤ :=
  ((e.lines.filter fun l => l.ledger = ledger).map JournalLine.creditPaise).sum

/-- The input-tax postings of a voucher, central, state and integrated. -/
def JournalEntry.inputTax (e : JournalEntry) : ℤ :=
  e.debitOn ledgerItcCgst + e.debitOn ledgerItcSgst + e.debitOn ledgerItcIgst

section Voucher

variable (intraState : Bool) (rec : ReconciliationResult) (covered : List ReconRow)

/-- **Every voucher balances**, whatever the drift, the charges and the tax are. -/
theorem voucher_balanced : (voucher intraState rec covered).balanced = true := by
  unfold JournalEntry.balanced JournalEntry.totalDebitPaise JournalEntry.totalCreditPaise voucher roundingLines
    mdrLines itcLines
  rw [decide_eq_true_eq]
  dsimp only
  -- the drift goes to one side or the other, and a part that is zero has no line
  split_ifs <;> simp <;> omega

theorem bank_voucher : (voucher intraState rec covered).debitOn ledgerBank = rec.creditAmountPaise := by
  unfold JournalEntry.debitOn voucher roundingLines mdrLines itcLines
  dsimp only
  split_ifs <;> simp [ledgerBank, ledgerRounding, ledgerMdr, ledgerItcCgst, ledgerItcSgst, ledgerItcIgst,
    ledgerClearing]

theorem clearing_voucher : (voucher intraState rec covered).creditOn ledgerClearing =
    rec.coveredNetPaise + mdrExGst covered + itcOf covered := by
  unfold JournalEntry.creditOn voucher roundingLines mdrLines itcLines
  dsimp only
  split_ifs <;> simp [ledgerBank, ledgerRounding, ledgerMdr, ledgerItcCgst, ledgerItcSgst, ledgerItcIgst,
    ledgerClearing]

/-- The halves of an odd tax are put together again. -/
theorem inputTax_voucher : (voucher intraState rec covered).inputTax = itcOf covered := by
  unfold JournalEntry.inputTax JournalEntry.debitOn voucher roundingLines mdrLines itcLines
  dsimp only
  split_ifs <;> simp [ledgerBank, ledgerRounding, ledgerMdr, ledgerItcCgst, ledgerItcSgst, ledgerItcIgst,
    ledgerClearing] <;> omega

end Voucher

/-! ## The rows of a cover -/

section Cover

variable {U : Unicode} {digest : RowSignature → String} {rows : List ReconRow}

/-- The rows of the settlements of a cover. -/
def rowsCovered (rows : List ReconRow) (sids : List String) : List ReconRow :=
  (sids.flatMap (rowsOf rows)).map Prod.fst

/-- A position is covered twice as soon as a settlement is. -/
theorem nodup_positions_iff {sids : List String} (hsettles : ∀ sid ∈ sids, Settles rows sid) :
    ((sids.flatMap (rowsOf rows)).map Prod.snd).Nodup ↔ sids.Nodup := by
  constructor
  · intro h
    rw [List.map_flatMap, List.nodup_flatMap] at h
    refine h.2.imp_of_mem ?_
    rintro sid _ hsid _ hdisjoint rfl
    obtain ⟨p, hp⟩ := List.exists_mem_of_ne_nil _ (rowsOf_ne_nil (hsettles sid hsid))
    exact hdisjoint (List.mem_map_of_mem hp) (List.mem_map_of_mem hp)
  · exact positions_nodup rows

/-- A cover made of settlements of the report, at least one. -/
structure SettledCover (rows : List ReconRow) {ix : SettlementIndex} (c : Cover ix) : Prop where
  ne_nil : c.sids ≠ []
  settles : ∀ sid ∈ c.sids, Settles rows sid

theorem settled_claimPass {ix : SettlementIndex} (hix : IndexSpec rows ix) {rzp : List Credit} :
    ∀ c ∈ (claimPass U ix rzp).covers, SettledCover rows c := by
  intro c hc
  obtain ⟨sid, p, hclaims, hmake⟩ := mem_claimPass_covers.mp hc
  have hp : p ∈ claimants U ix rzp sid := by simp [hclaims]
  have hsids := (makeCover_eq_some hmake).2.2
  refine ⟨by rw [hsids]; exact List.cons_ne_nil _ _, ?_⟩
  intro sid' hsid'
  rw [hsids, List.mem_singleton] at hsid'
  exact hsid' ▸ utrSid_settles hix (mem_claimants.mp hp).2

theorem AmountStep.settled {ix : SettlementIndex} (hix : IndexSpec rows ix) {st st' : ReconcileState ix}
    {p : Credit} (hstep : AmountStep ix st p st') (h : ∀ c ∈ st.covers, SettledCover rows c) :
    ∀ c ∈ st'.covers, SettledCover rows c := by
  cases hstep with
  | skip => exact h
  | refuse _ giveup =>
      rw [noteGiveup_covers]
      exact h
  | cover _ c _ _ _ _ sound =>
      intro d hd
      rcases List.mem_append.mp hd with hd | hd
      · exact h d hd
      · rw [List.mem_singleton] at hd
        rw [hd]
        exact ⟨(answerFacts hix sound).ne_nil, (answerFacts hix sound).settles⟩

theorem AmountRun.settled_covers {ix : SettlementIndex} (hix : IndexSpec rows ix) {rzp : List Credit}
    {st : ReconcileState ix} (hrun : AmountRun ix (claimPass U ix rzp) rzp st) :
    ∀ c ∈ (closeReconcile U ix rzp st).covers, SettledCover rows c := fun c hc =>
  hrun.preserves (fun _ _ _ _ hstep => hstep.settled hix) (settled_claimPass hix) c (mem_closeReconcile_covers.mp hc)

variable {c : Cover (SettlementIndex.ofRows U digest rows)}

/-- A cover has row ids. -/
theorem SettledCover.coveredRowIds_ne_nil (h : SettledCover rows c) : c.result.coveredRowIds ≠ [] := by
  rw [c.fields.2.2.2.2.2.2, coveredRows_eq (SettlementIndex.ofRows_spec U digest rows)]
  obtain ⟨sid, hsid⟩ := List.exists_mem_of_ne_nil _ h.ne_nil
  obtain ⟨p, hp⟩ := List.exists_mem_of_ne_nil _ (rowsOf_ne_nil (h.settles sid hsid))
  exact List.ne_nil_of_mem (List.mem_map_of_mem (List.mem_flatMap.mpr ⟨sid, hsid, hp⟩))

/-- **A cover of distinct settlements resolves to its rows.** -/
theorem resolve_cover (hdigest : Fingerprints digest rows) (hnodup : c.sids.Nodup) :
    resolveCoveredRowsById U c.result (rowsByCanonicalId digest rows) = .ok (rowsCovered rows c.sids) := by
  have hrows := coveredRows_eq (SettlementIndex.ofRows_spec U digest rows) c.sids
  apply resolveCoveredRowsById_eq hdigest
  · intro p hp
    obtain ⟨sid, _, hmem⟩ := List.mem_flatMap.mp hp
    exact (mem_rowsOf.mp hmem).1
  · rw [c.fields.2.2.2.2.2.2, hrows]
    rfl
  · rw [c.fields.2.1, hrows]
  · exact positions_nodup rows hnodup

/-- A doubled cover is refused. -/
theorem SettledCover.resolve_refuses (h : SettledCover rows c) (hdoubled : ¬ c.sids.Nodup) (byId : Dict String ReconRow) :
    ∃ e, resolveCoveredRowsById U c.result byId = .error e := by
  have hids : c.result.coveredRowIds = (c.sids.flatMap (rowsOf rows)).map (idOf digest rows) := by
    rw [c.fields.2.2.2.2.2.2, coveredRows_eq (SettlementIndex.ofRows_spec U digest rows)]
    rfl
  apply resolveCoveredRowsById_refuses hids
  rwa [nodup_positions_iff h.settles]

/-! ## One turn of each artifact -/

theorem feeGstRows_cover (hdigest : Fingerprints digest rows) (h : SettledCover rows c) (hnodup : c.sids.Nodup) :
    feeGstRows U (rowsByCanonicalId digest rows) (rowsByEntity rows) c.result = .ok (rowsCovered rows c.sids) := by
  unfold feeGstRows
  rw [if_pos h.coveredRowIds_ne_nil]
  exact resolve_cover hdigest hnodup

theorem journalRows_cover (h : SettledCover rows c) (byId : Dict String ReconRow)
    (byKey : Dict (String × String) (List ReconRow)) :
    journalRows U byId byKey c.result = resolveCoveredRowsById U c.result byId := by
  unfold journalRows
  rw [if_pos h.coveredRowIds_ne_nil]

theorem rowsCovered_ne_nil (h : SettledCover rows c) : rowsCovered rows c.sids ≠ [] := by
  obtain ⟨sid, hsid⟩ := List.exists_mem_of_ne_nil _ h.ne_nil
  obtain ⟨p, hp⟩ := List.exists_mem_of_ne_nil _ (rowsOf_ne_nil (h.settles sid hsid))
  exact List.ne_nil_of_mem (List.mem_map_of_mem (List.mem_flatMap.mpr ⟨sid, hsid, hp⟩))

theorem journalStep_cover (hdigest : Fingerprints digest rows) (h : SettledCover rows c) (hnodup : c.sids.Nodup)
    (intraState : Bool) (byKey : Dict (String × String) (List ReconRow)) :
    journalStep U intraState (rowsByCanonicalId digest rows) byKey c.result =
      .ok (some (voucher intraState c.result (rowsCovered rows c.sids))) := by
  unfold journalStep
  rw [journalRows_cover h, resolve_cover hdigest hnodup]
  simp only [Except.mapError, bind, Except.bind]
  rw [if_neg (rowsCovered_ne_nil h), voucher_balanced]
  rfl

theorem journalStep_refuses (h : SettledCover rows c) (hdoubled : ¬ c.sids.Nodup) (intraState : Bool)
    (byId : Dict String ReconRow) (byKey : Dict (String × String) (List ReconRow)) :
    ∃ e, journalStep U intraState byId byKey c.result = .error e := by
  obtain ⟨e, he⟩ := h.resolve_refuses hdoubled byId
  refine ⟨.identity e, ?_⟩
  unfold journalStep
  rw [journalRows_cover h, he]
  rfl

end Cover

/-! ## The artifacts together -/

/-- What the entries debit and credit to a ledger, all together. -/
def debitsOn (entries : List JournalEntry) (ledger : String) : ℤ := (entries.map fun e => e.debitOn ledger).sum

def creditsOn (entries : List JournalEntry) (ledger : String) : ℤ := (entries.map fun e => e.creditOn ledger).sum

/-- **The artifacts agree** with the reconciliations and with each other. -/
structure JournalAgrees (rows : List ReconRow) (out : ReconcileOutput) (intraState : Bool)
    (entries : List JournalEntry) (recovery : FeeGstRecovery) : Prop where
  /-- One voucher for each reconciliation, made of the rows of its settlements; -/
  vouchers : entries.Perm (out.covers.map fun c => voucher intraState c.result (rowsCovered rows c.sids))
  balanced : ∀ e ∈ entries, e.balanced = true
  /-- the input tax is the recoverable fee-GST; -/
  input_tax : (entries.map JournalEntry.inputTax).sum = recovery.totalRecoverablePaise
  /-- the bank has received what the report calls reconciled; -/
  bank : debitsOn entries ledgerBank = (out.results.map ReconciliationResult.creditAmountPaise).sum
  /-- and the clearing account is relieved of the covered nets, the charges and their tax. -/
  clearing : creditsOn entries ledgerClearing = (out.covers.map fun c =>
    c.result.coveredNetPaise + mdrExGst (rowsCovered rows c.sids) + itcOf (rowsCovered rows c.sids)).sum

/-- Both artifacts are made, and they agree. -/
def OneNumber (U : Unicode) (digest : RowSignature → String) (rows : List ReconRow) (out : ReconcileOutput)
    (intraState : Bool) : Prop :=
  ∃ entries recovery, buildJournalEntries U digest out.results rows intraState = .ok entries ∧
    feeGst U digest out.results rows = .ok recovery ∧ JournalAgrees rows out intraState entries recovery

theorem sum_taxed (rows : List ReconRow) :
    ((rows.filter fun r => r.taxPaise ≠ 0).map ReconRow.taxPaise).sum = itcOf rows := by
  unfold itcOf
  induction rows with
  | nil => rfl
  | cons r rows ih =>
      rw [List.map_cons, List.sum_cons, ← ih]
      by_cases h : r.taxPaise = 0
      · rw [List.filter_cons_of_neg (by simpa using h), h, zero_add]
      · rw [List.filter_cons_of_pos (by simpa using h), List.map_cons, List.sum_cons]

theorem itcOf_flatten (covered : List (List ReconRow)) : itcOf covered.flatten = (covered.map itcOf).sum := by
  induction covered with
  | nil => rfl
  | cons rows covered ih =>
      rw [List.flatten_cons, List.map_cons, List.sum_cons, ← ih]
      unfold itcOf
      rw [List.map_append, List.sum_append]

/-- The sum over the entries is the sum over the covers of what a voucher contributes. -/
theorem sum_vouchers {ix : SettlementIndex} {covers : List (Cover ix)} {rows : List ReconRow} {intraState : Bool}
    {entries : List JournalEntry}
    (hentries : entries.Perm (covers.map fun c => voucher intraState c.result (rowsCovered rows c.sids)))
    {posted : JournalEntry → ℤ} {due : Cover ix → ℤ}
    (h : ∀ c, posted (voucher intraState c.result (rowsCovered rows c.sids)) = due c) :
    (entries.map posted).sum = (covers.map due).sum := by
  rw [(hentries.map posted).sum_eq, List.map_map]
  exact congrArg List.sum (List.map_congr_left fun c _ => h c)

section Together

variable {U : Unicode} {digest : RowSignature → String} {rows : List ReconRow}
  {covers : List (Cover (SettlementIndex.ofRows U digest rows))}

theorem feeGst_covers (hdigest : Fingerprints digest rows) (hsettled : ∀ c ∈ covers, SettledCover rows c)
    (hnodup : ∀ c ∈ covers, c.sids.Nodup) :
    ∃ recovery, feeGst U digest (covers.map Cover.result) rows = .ok recovery ∧
      recovery.totalRecoverablePaise = (covers.map fun c => itcOf (rowsCovered rows c.sids)).sum := by
  have hrows : (covers.map Cover.result).mapM (feeGstRows U (rowsByCanonicalId digest rows) (rowsByEntity rows)) =
      .ok (covers.map fun c => rowsCovered rows c.sids) := by
    apply mapM_eq_ok.mpr
    rw [List.forall₂_map_left_iff, List.forall₂_map_right_iff, List.forall₂_same]
    exact fun c hc => feeGstRows_cover hdigest (hsettled c hc) (hnodup c hc)
  unfold feeGst
  rw [hrows]
  refine ⟨_, rfl, ?_⟩
  dsimp only
  rw [sum_taxed, itcOf_flatten, List.map_map]
  rfl

/-- The journal is sorted by line key, and otherwise one voucher for each cover. -/
theorem buildJournalEntries_covers (hdigest : Fingerprints digest rows)
    (hsettled : ∀ c ∈ covers, SettledCover rows c) (hnodup : ∀ c ∈ covers, c.sids.Nodup) (intraState : Bool) :
    ∃ entries, buildJournalEntries U digest (covers.map Cover.result) rows intraState = .ok entries ∧
      entries.Perm (covers.map fun c => voucher intraState c.result (rowsCovered rows c.sids)) := by
  obtain ⟨turns, hturns, hperm⟩ := mapM_perm
    (f := journalStep U intraState (rowsByCanonicalId digest rows) (rowsByKey rows))
    (List.perm_insertionSort (fun r r' : ReconciliationResult => r.lineKey ≤ r'.lineKey) (covers.map Cover.result))
    fun c hc => journalStep_cover hdigest (hsettled c hc) (hnodup c hc) intraState (rowsByKey rows)
  unfold buildJournalEntries
  rw [hturns]
  refine ⟨_, rfl, (hperm.filterMap id).trans (List.Perm.of_eq ?_)⟩
  -- no turn passes its reconciliation over
  rw [List.filterMap_map]
  exact congrFun List.filterMap_eq_map covers

/-- A doubled cover stops the export. -/
theorem nodup_of_buildJournalEntries (hsettled : ∀ c ∈ covers, SettledCover rows c) {intraState : Bool}
    {entries : List JournalEntry}
    (h : buildJournalEntries U digest (covers.map Cover.result) rows intraState = .ok entries) :
    ∀ c ∈ covers, c.sids.Nodup := by
  intro c hc
  by_contra hdoubled
  obtain ⟨e, he⟩ := journalStep_refuses (hsettled c hc) hdoubled intraState (rowsByCanonicalId digest rows)
    (rowsByKey rows)
  unfold buildJournalEntries at h
  cases hturns : ((covers.map Cover.result).insertionSort fun r r' => r.lineKey ≤ r'.lineKey).mapM
      (journalStep U intraState (rowsByCanonicalId digest rows) (rowsByKey rows)) with
  | error e' =>
      rw [hturns] at h
      cases h
  | ok turns =>
      have hmem := (List.perm_insertionSort (fun r r' : ReconciliationResult => r.lineKey ≤ r'.lineKey)
        (covers.map Cover.result)).mem_iff.mpr (List.mem_map_of_mem hc)
      obtain ⟨turn, hturn⟩ := forall_ok_of_mapM hturns c.result hmem
      rw [he] at hturn
      cases hturn

end Together

/-- **One number for one fact.** The journal and the fee-GST report of a finished reconciliation are made and agree
    with it, for either split of the tax, exactly when no step of pass 2 meets the doubled situation. -/
theorem journal_agrees_iff (U : Unicode) (digest : RowSignature → String) (lines : LinesByKey)
    (attributions : List RailAttribution) (rows : List ReconRow) (hdigest : Fingerprints digest rows) :
    ∃ out, reconcile U digest lines attributions rows = .ok out ∧
      ((∀ intraState, OneNumber U digest rows out intraState) ↔
        BeforeEachStep Undoubled
          (claimPass U (SettlementIndex.ofRows U digest rows) (provenLines lines attributions))
          (provenLines lines attributions)) := by
  obtain ⟨st, hout, hrun⟩ := reconcile_spec U digest lines attributions rows
  have hix := SettlementIndex.ofRows_spec U digest rows
  have hsettled := hrun.settled_covers hix
  refine ⟨_, hout, ?_⟩
  rw [← hrun.nodup_covers_iff hix]
  constructor
  · intro h
    obtain ⟨entries, _, hentries, _⟩ := h true
    exact nodup_of_buildJournalEntries hsettled hentries
  · intro hnodup intraState
    obtain ⟨recovery, hrecovery, htotal⟩ := feeGst_covers hdigest hsettled hnodup
    obtain ⟨entries, hentries, hvouchers⟩ := buildJournalEntries_covers hdigest hsettled hnodup intraState
    refine ⟨entries, recovery, hentries, hrecovery, hvouchers, ?_, ?_, ?_, ?_⟩
    · intro e he
      obtain ⟨c, _, rfl⟩ := List.mem_map.mp (hvouchers.mem_iff.mp he)
      exact voucher_balanced _ _ _
    · rw [htotal]
      exact sum_vouchers hvouchers fun c => inputTax_voucher _ _ _
    · unfold ReconcileOutput.results
      rw [List.map_map]
      exact sum_vouchers hvouchers fun c => bank_voucher _ _ _
    · exact sum_vouchers hvouchers fun c => clearing_voucher _ _ _

/-- The hypothesis of `journal_agrees_iff` holds of the doubling report. -/
theorem journal_agrees_iff_doubling : ∃ out,
    reconcile asciiUnicode RowSignature.entityId (linesByKey doublingCredits)
        (doublingCredits.map provenAttribution) doublingReport = .ok out ∧
      ((∀ intraState, OneNumber asciiUnicode RowSignature.entityId doublingReport out intraState) ↔
        BeforeEachStep Undoubled
          (claimPass asciiUnicode
            (SettlementIndex.ofRows asciiUnicode RowSignature.entityId doublingReport)
            (provenLines (linesByKey doublingCredits) (doublingCredits.map provenAttribution)))
          (provenLines (linesByKey doublingCredits) (doublingCredits.map provenAttribution))) :=
  journal_agrees_iff asciiUnicode RowSignature.entityId (linesByKey doublingCredits)
    (doublingCredits.map provenAttribution) doublingReport (by unfold Fingerprints; decide +kernel)

/-- **No journal for the doubled coverage**: `reconcile` returns one reconciliation, and the export stops on it. -/
theorem journal_refuses_doubling : ∃ out,
    reconcile asciiUnicode RowSignature.entityId (linesByKey doublingCredits)
        (doublingCredits.map provenAttribution) doublingReport = .ok out ∧
      out.results.length = 1 ∧
      buildJournalEntries asciiUnicode RowSignature.entityId out.results doublingReport true =
        .error (.identity ⟨"a: covered row identity contains duplicate row ids"⟩) ∧
      ¬ ∀ intraState, OneNumber asciiUnicode RowSignature.entityId doublingReport out intraState := by
  have hrun : (reconcile asciiUnicode RowSignature.entityId (linesByKey doublingCredits)
        (doublingCredits.map provenAttribution) doublingReport).map (fun out => (out.results.length,
          buildJournalEntries asciiUnicode RowSignature.entityId out.results doublingReport true)) =
      .ok (1, .error (.identity ⟨"a: covered row identity contains duplicate row ids"⟩)) := by
    decide +kernel
  obtain ⟨st, hout, _⟩ := reconcile_spec asciiUnicode RowSignature.entityId
    (linesByKey doublingCredits) (doublingCredits.map provenAttribution) doublingReport
  rw [hout] at hrun
  obtain ⟨hlength, hjournal⟩ := Prod.mk.inj (Except.ok.inj hrun)
  refine ⟨_, hout, hlength, hjournal, ?_⟩
  intro h
  obtain ⟨entries, _, hentries, _⟩ := h true
  rw [hjournal] at hentries
  cases hentries

end Untangle
