import Untangle.Correctness.Investigate
import Untangle.Correctness.Recovery
import Untangle.Correctness.Verifier

/-!
# `Correctness.Completes` — when a report is made at all

Six modules of the engine can refuse: attribution and reconciliation never do, the strict zip has equal lengths, and
the vouchers balance. What is left are two ways to fail. A reconciliation that covers a settlement twice is refused by
every artifact that resolves its rows; and an export window of a line at the very start or end of the calendar leaves
it. `report_completes_iff` says that nothing else stops a report.
-/

namespace Untangle

open Lib

variable {H : Hashing} {U : Unicode} {standardFee : ℤ → ℤ} {digest : RowSignature → String} {cfg : Config}
  {lines : List BankCreditLine} {line : BankCreditLine} {rows : List ReconRow}

/-! ## Export windows -/

/-- Both ends of the line's export window are dates. -/
def WindowDated (line : BankCreditLine) : Prop :=
  1 ≤ line.valueDate - splitDateWindow ∧ line.valueDate + splitDateWindow ≤ lastOrdinal

instance (line : BankCreditLine) : Decidable (WindowDated line) := inferInstanceAs (Decidable (_ ∧ _))

/-- The reasons that ask for an export of the settlement report. -/
def BlockingReason.exports (reason : BlockingReason) : Prop := reason = .brandNoTie ∨ reason = .reconFailure

theorem addDays_eq_ok {d d' : Date} {n : ℤ} :
    addDays d n = .ok d' ↔ (1 ≤ d + n ∧ d + n ≤ lastOrdinal) ∧ d' = d + n := by
  unfold addDays
  split
  · rename_i h
    exact ⟨fun heq => ⟨h, (Except.ok.inj heq).symm⟩, fun heq => congrArg Except.ok heq.2.symm⟩
  · rename_i h
    constructor
    · intro heq
      cases heq
    · exact fun heq => absurd heq.1 h

/-- The window of a day in the calendar, as the two sums that the source forms. -/
theorem window_iff (d : ℤ) : (1 ≤ d + -5 ∧ d + -5 ≤ 3652059) ∧ (1 ≤ d + 5 ∧ d + 5 ≤ 3652059) ↔
    1 ≤ d - 5 ∧ d + 5 ≤ 3652059 := by
  omega

theorem exportWindow_ok_iff : (∃ w, exportWindow line = .ok w) ↔ WindowDated line := by
  unfold exportWindow WindowDated
  refine Iff.trans ?_ (window_iff line.valueDate)
  constructor
  · rintro ⟨w, hw⟩
    obtain ⟨dateFrom, hfrom, hw⟩ := bind_eq_ok.mp hw
    obtain ⟨dateTo, hto, _⟩ := bind_eq_ok.mp hw
    exact ⟨(addDays_eq_ok.mp hfrom).1, (addDays_eq_ok.mp hto).1⟩
  · rintro ⟨hlow, hhigh⟩
    have hfrom := addDays_eq_ok.mpr ⟨hlow, rfl⟩
    have hto := addDays_eq_ok.mpr ⟨hhigh, rfl⟩
    exact ⟨_, bind_eq_ok.mpr ⟨_, hfrom, bind_eq_ok.mpr ⟨_, hto, rfl⟩⟩⟩

theorem mapBlockingToAction_ok_iff (reason : BlockingReason) :
    (∃ action, mapBlockingToAction line reason = .ok action) ↔ (reason.exports → WindowDated line) := by
  have hwindow : (∃ action, (exportWindow line).map (fun w => (ActionType.exportSettlementReport, w)) = .ok action) ↔
      WindowDated line := by
    rw [← exportWindow_ok_iff]
    constructor
    · rintro ⟨_, h⟩
      obtain ⟨w, hw, _⟩ := map_eq_ok.mp h
      exact ⟨w, hw⟩
    · rintro ⟨w, hw⟩
      exact ⟨_, map_eq_ok.mpr ⟨w, hw, rfl⟩⟩
  unfold BlockingReason.exports
  cases reason with
  | brandNoTie => simpa [mapBlockingToAction] using hwindow
  | reconFailure => simpa [mapBlockingToAction] using hwindow
  | _ => simp [mapBlockingToAction]

section Plan

variable {pack : NarrationEvidencePack} {index : ReconIndex} {attributions : List RailAttribution}
  {exceptions : List ExceptionRecord}

/-- The reason that blocks a line of the plan. -/
def blockingReasonOf (U : Unicode) (pack : NarrationEvidencePack) (index : ReconIndex)
    (attributions : List RailAttribution) (exceptions : List ExceptionRecord) (line : BankCreditLine) :
    BlockingReason :=
  deriveBlockingReason U pack index line (((attributionsByKey attributions).get? line.key).getD (abstain line 0 []))
    ((exceptionsByKey exceptions).get? line.key)

/-- Every unresolved line that asks for an export is far enough from the ends of the calendar. -/
def ExportsDated (U : Unicode) (pack : NarrationEvidencePack) (index : ReconIndex) (lines : List BankCreditLine)
    (attributions : List RailAttribution) (exceptions : List ExceptionRecord) : Prop :=
  ∀ line ∈ unresolvedLines lines (attributionsByKey attributions) (exceptionsByKey exceptions),
    (blockingReasonOf U pack index attributions exceptions line).exports → WindowDated line

/-- **A plan is made unless an export window leaves the calendar.** -/
theorem buildRecoveryPlan_ok_iff {maxActions : ℤ} :
    (∃ plan, buildRecoveryPlan U pack index lines attributions exceptions maxActions = .ok plan) ↔
      ExportsDated U pack index lines attributions exceptions := by
  have hline : ∀ line, (∃ p, lineAction U pack index (attributionsByKey attributions) (exceptionsByKey exceptions)
      line = .ok p) ↔ ((blockingReasonOf U pack index attributions exceptions line).exports → WindowDated line) := by
    intro line
    rw [← mapBlockingToAction_ok_iff]
    constructor
    · rintro ⟨_, h⟩
      obtain ⟨action, haction, _⟩ := bind_eq_ok.mp h
      exact ⟨action, haction⟩
    · rintro ⟨action, haction⟩
      exact ⟨_, bind_eq_ok.mpr ⟨action, haction, rfl⟩⟩
  unfold buildRecoveryPlan ExportsDated
  dsimp only
  split
  · rename_i hnil
    rw [hnil]
    exact ⟨fun _ line hmem => absurd hmem List.not_mem_nil, fun _ => ⟨_, rfl⟩⟩
  · constructor
    · rintro ⟨plan, hplan⟩ line hmem
      obtain ⟨mapped, hmapped, _⟩ := bind_eq_ok.mp hplan
      exact (hline line).mp (forall_ok_of_mapM hmapped line hmem)
    · intro h
      obtain ⟨mapped, hmapped⟩ := exists_mapM_ok fun line hmem => (hline line).mpr (h line hmem)
      exact ⟨_, bind_eq_ok.mpr ⟨mapped, hmapped, rfl⟩⟩

end Plan

/-! ## What resolves the rows of a reconciliation -/

section Resolve

variable {index : ReconIndex} {results : List ReconciliationResult} {exceptions : List ExceptionRecord}

theorem mem_of_reconciliationsByKey {key : String} {r : ReconciliationResult}
    (h : (reconciliationsByKey results).get? key = some r) : r ∈ results := by
  unfold reconciliationsByKey at h
  rw [Dict.get?_gather_last] at h
  obtain ⟨r', hlast, rfl⟩ := Option.map_eq_some_iff.mp h
  exact (List.mem_filter.mp (List.mem_of_getLast? hlast)).1

/-- Every reconciliation that has row ids resolves to its rows. -/
def Resolvable (U : Unicode) (digest : RowSignature → String) (rows : List ReconRow)
    (results : List ReconciliationResult) : Prop :=
  ∀ r ∈ results, r.coveredRowIds ≠ [] → ∃ covered, resolveCoveredRowsById U r (rowsByCanonicalId digest rows) =
    .ok covered

theorem packetStep_completes (pack : NarrationEvidencePack) (rejected : Option (List RejectedMatch))
    (h : Resolvable U digest rows results) (byKey : LinesByKey) (a : RailAttribution) :
    ∃ made, packetStep U digest pack rows byKey (reconciliationsByKey results) rejected a = .ok made := by
  unfold packetStep
  split
  · exact ⟨_, rfl⟩
  · split
    · exact ⟨_, rfl⟩
    · split
      · exact ⟨_, rfl⟩
      · split
        · exact ⟨_, rfl⟩
        · rename_i r hr
          apply exists_bind_ok
          · unfold packetRows
            by_cases hids : r.coveredRowIds ≠ []
            · rw [if_pos hids]
              obtain ⟨covered, hcovered⟩ := h r (mem_of_reconciliationsByKey hr) hids
              exact ⟨_, map_eq_ok.mpr ⟨covered, hcovered, rfl⟩⟩
            · rw [if_neg hids]
              exact ⟨_, rfl⟩
          · intro p _
            exact ⟨_, rfl⟩

/-- **The packets are made** if every reconciliation resolves. -/
theorem buildProofPackets_completes (pack : NarrationEvidencePack) (rejected : Option (List RejectedMatch))
    (h : Resolvable U digest rows results) (lines : List BankCreditLine) (attributions : List RailAttribution) :
    ∃ packets, buildProofPackets U digest pack rows lines attributions results rejected = .ok packets := by
  obtain ⟨made, hmade⟩ := exists_mapM_ok (l := attributions) fun a _ =>
    packetStep_completes pack rejected h (linesByKey lines) a
  exact ⟨_, bind_eq_ok.mpr ⟨made, hmade, rfl⟩⟩

theorem associate_completes (h : Resolvable U digest rows results) (line : BankCreditLine) :
    ∃ a, associate U index digest rows line ((reconciliationsByKey results).get? line.key) = .ok a := by
  unfold associate
  cases hnamed : namedCoverage ((reconciliationsByKey results).get? line.key) with
  | none =>
      dsimp only
      split <;> exact ⟨_, rfl⟩
  | some r =>
      have hget := (Option.filter_eq_some_iff.mp hnamed).1
      dsimp only
      by_cases hids : r.coveredRowIds ≠ []
      · rw [if_pos hids]
        apply exists_bind_ok (h r (mem_of_reconciliationsByKey hget) hids)
        intro covered _
        split <;> exact ⟨_, rfl⟩
      · rw [if_neg hids]
        apply exists_bind_ok ⟨_, rfl⟩
        intro covered _
        split <;> exact ⟨_, rfl⟩

/-- **The investigations are made** if every reconciliation resolves. -/
theorem buildInvestigations_completes (standardFee : ℤ → ℤ) (index : ReconIndex)
    (exceptions : List ExceptionRecord) (h : Resolvable U digest rows results) (lines : List BankCreditLine) :
    ∃ found, buildInvestigations U standardFee digest index rows lines results exceptions = .ok found := by
  unfold buildInvestigations
  apply exists_mapM_ok
  intro line _
  unfold investigate
  apply exists_bind_ok (associate_completes h line)
  intro a _
  dsimp only
  split
  · exact ⟨_, rfl⟩
  · split <;> exact ⟨_, rfl⟩

/-- **The corrective entries balance**, as the source asserts. -/
theorem investigate_balanced {line : BankCreditLine} {rec : Option ReconciliationResult} {inv : Investigation}
    {entry : JournalEntry} (h : investigate U standardFee digest index rows line rec = .ok inv)
    (hentry : inv.correctiveEntry = some entry) : entry.balanced = true := by
  unfold investigate at h
  obtain ⟨a, _, h⟩ := bind_eq_ok.mp h
  dsimp only at h
  split at h
  · rw [← Except.ok.inj h] at hentry
    cases hentry
  · split at h
    · rw [← Except.ok.inj h] at hentry
      cases hentry
    · rw [← Except.ok.inj h] at hentry
      unfold classify at hentry
      dsimp only at hentry
      split at hentry
      · cases hentry
      · rw [← Option.some.inj hentry]
        exact correctiveEntry_balanced _ _ _ _ _ _

end Resolve

/-! ## Runs -/

/-- The exceptions of a report. -/
def exceptionsOf (U : Unicode) (lines : List BankCreditLine) (rows : List ReconRow)
    (orderLedger : List OrderLedgerEntry) (decided : List RailAttribution) (out : ReconcileOutput) :
    List ExceptionRecord :=
  buildExceptions decided out.unresolved (linesByKey lines) out.notes ++ reconcileLedger U orderLedger out.results rows

section Runs

variable {orderLedger : List OrderLedgerEntry} {decided : List RailAttribution}
  {rejected : Option (List RejectedMatch)} {solverActive : Bool}

/-- **A report is made exactly if** no cover is doubled and every export window is dated. -/
theorem assembleReport_completes_iff (hdigest : Fingerprints digest rows) (hlength : decided.length = lines.length)
    {st : ReconcileState (SettlementIndex.ofRows U digest rows)}
    (hout : reconcile U digest (linesByKey lines) decided rows = .ok (closeReconcile U
      (SettlementIndex.ofRows U digest rows) (provenLines (linesByKey lines) decided) st))
    (hrun : AmountRun (SettlementIndex.ofRows U digest rows) (claimPass U (SettlementIndex.ofRows U digest rows)
      (provenLines (linesByKey lines) decided)) (provenLines (linesByKey lines) decided) st) :
    (∃ report, assembleReport H U standardFee digest cfg lines rows (ReconIndex.ofRows U rows) decided rejected
        orderLedger true true solverActive = .ok report) ↔
      BeforeEachStep Undoubled (claimPass U (SettlementIndex.ofRows U digest rows)
          (provenLines (linesByKey lines) decided)) (provenLines (linesByKey lines) decided) ∧
        ExportsDated U cfg.evidencePack.rules (ReconIndex.ofRows U rows) lines decided
          (exceptionsOf U lines rows orderLedger decided (closeReconcile U (SettlementIndex.ofRows U digest rows)
            (provenLines (linesByKey lines) decided) st)) := by
  have hix := SettlementIndex.ofRows_spec U digest rows
  have hsettled := hrun.settled_covers hix
  rw [← hrun.nodup_covers_iff hix]
  unfold assembleReport exceptionsOf
  rw [zipStrict_eq hlength, hout]
  constructor
  · rintro ⟨report, h⟩
    simp only [bind_eq_ok, mapError_eq_ok, map_eq_ok, if_true] at h
    obtain ⟨_, _, out, hreconciled, _, _, _, ⟨plan, hplan, _⟩, _, _, journal, hjournal, _⟩ := h
    obtain rfl := Except.ok.inj hreconciled
    exact ⟨nodup_of_buildJournalEntries hsettled hjournal, buildRecoveryPlan_ok_iff.mp ⟨plan, hplan⟩⟩
  · rintro ⟨hnodup, hdated⟩
    have hresolves : Resolvable U digest rows (closeReconcile U (SettlementIndex.ofRows U digest rows)
        (provenLines (linesByKey lines) decided) st).results := by
      intro r hr _
      obtain ⟨c, hc, rfl⟩ := List.mem_map.mp hr
      exact ⟨_, resolve_cover hdigest (hnodup c hc)⟩
    obtain ⟨recovery, hrecovery, _⟩ := feeGst_covers hdigest hsettled hnodup
    obtain ⟨plan, hplan⟩ := buildRecoveryPlan_ok_iff.mpr hdated
    obtain ⟨packets, hpackets⟩ := buildProofPackets_completes cfg.evidencePack.rules rejected hresolves lines
      decided
    obtain ⟨entries, hentries, _⟩ := buildJournalEntries_covers hdigest hsettled hnodup true
    obtain ⟨found, hfound⟩ := buildInvestigations_completes standardFee (ReconIndex.ofRows U rows) _ hresolves lines
    simp only [bind_eq_ok, mapError_eq_ok, map_eq_ok, if_true]
    exact ⟨_, _, rfl, _, rfl, recovery, hrecovery, _, ⟨plan, hplan, rfl⟩, packets, hpackets, entries, hentries, _,
      ⟨found, hfound, rfl⟩, rfl⟩

/-- The entries of the investigations balance. -/
theorem assembleReport_balanced {index : ReconIndex} {report : RunReport}
    (h : assembleReport H U standardFee digest cfg lines rows index decided rejected orderLedger true true
      solverActive = .ok report) :
    ∀ found ∈ report.investigations, ∀ inv ∈ found, ∀ entry ∈ inv.correctiveEntry, entry.balanced = true := by
  unfold assembleReport at h
  simp only [bind_eq_ok, mapError_eq_ok, map_eq_ok, if_true] at h
  obtain ⟨_, _, out, _, _, _, _, _, _, _, _, _, _, ⟨found, hfound, rfl⟩, hreport⟩ := h
  obtain rfl := Except.ok.inj hreport
  intro found' hfound' inv hinv entry hentry
  obtain rfl := Option.some.inj hfound'
  unfold buildInvestigations at hfound
  obtain ⟨line, _, hline⟩ := exists_of_mem_mapM hfound hinv
  exact investigate_balanced hline hentry

theorem length_solverStage (U : Unicode) (cfg : Config) (index : ReconIndex) (active : Bool)
    (solverResult : Option SolverResult) {verdict : BankCreditLine → RailAttribution} (hnd : (lines.map BankCreditLine.key).Nodup)
    (hkey : ∀ line ∈ lines, (verdict line).lineKey = line.key) :
    (solverStage U cfg lines index (lines.map verdict) active solverResult).1.length = lines.length := by
  unfold solverStage
  split
  · exact List.length_map _
  · split
    · exact List.length_map _
    · split
      · exact List.length_map _
      · dsimp only
        rw [runGlobalSolver_map hnd hkey, List.length_map]

end Runs

/-- **Which runs complete.** Attribution and reconciliation always return; the report is made exactly if no step of
    pass 2 meets the doubled situation and every export window of the plan lies in the calendar. Then every corrective
    entry in it balances. -/
theorem report_completes_iff (H : Hashing) (U : Unicode) (standardFee : ℤ → ℤ) (digest : RowSignature → String)
    (cfg : Config) (s : Settings) (globalSolver : Bool) (rules : List ProposedRule) (lines : List BankCreditLine)
    (rows : List ReconRow) (orderLedger : List OrderLedgerEntry) (reportSolver : Bool)
    (solverResult : Option SolverResult) (hnd : (lines.map BankCreditLine.key).Nodup)
    (hdigest : Fingerprints digest rows) :
    ∃ attributions decided out,
      attributeAllRules U s (ReconIndex.ofRows U rows) globalSolver rules lines = .ok attributions ∧
      (solverStage U cfg lines (ReconIndex.ofRows U rows) attributions (reportSolver || cfg.globalSolver)
        solverResult).1 = decided ∧
      reconcile U digest (linesByKey lines) decided rows = .ok out ∧
      ((∃ report, buildReport H U standardFee digest cfg lines rows (ReconIndex.ofRows U rows) attributions orderLedger
          true true reportSolver solverResult = .ok report) ↔
        BeforeEachStep Undoubled (claimPass U (SettlementIndex.ofRows U digest rows)
            (provenLines (linesByKey lines) decided)) (provenLines (linesByKey lines) decided) ∧
          ExportsDated U cfg.evidencePack.rules (ReconIndex.ofRows U rows) lines decided
            (exceptionsOf U lines rows orderLedger decided out)) ∧
      ∀ report, buildReport H U standardFee digest cfg lines rows (ReconIndex.ofRows U rows) attributions orderLedger
          true true reportSolver solverResult = .ok report →
        ∀ found ∈ report.investigations, ∀ inv ∈ found, ∀ entry ∈ inv.correctiveEntry, entry.balanced = true := by
  obtain ⟨verdict, hattributions, hkept⟩ := attributeAllRules_spec U s (ReconIndex.ofRows U rows) globalSolver rules hnd
  obtain ⟨st, hout, hrun⟩ := reconcile_spec U digest (linesByKey lines) (solverStage U cfg lines
    (ReconIndex.ofRows U rows) (lines.map verdict) (reportSolver || cfg.globalSolver) solverResult).1 rows
  have hlength := length_solverStage U cfg (ReconIndex.ofRows U rows) (reportSolver || cfg.globalSolver) solverResult hnd
    hkept.key
  refine ⟨_, _, _, hattributions, rfl, hout, ?_, fun report hreport => assembleReport_balanced hreport⟩
  exact assembleReport_completes_iff hdigest hlength hout hrun

/-- A credit of the brand that no settlement explains, dated on the third day of the calendar. -/
def earlyCredit : BankCreditLine := { creditLine "k_164ef54aea187b4e" "RAZORPAY PAYOUT" 100000 with valueDate := 3 }

/-- The credit of the doubling report, with the brand beside it. -/
def brandedCredit : BankCreditLine := creditLine "k_a453164ed05239b2" "NEFT RAZORPAY" 250100

/-- The statement of both credits, against the doubling report. -/
theorem report_completes_iff_early : ∃ attributions decided out,
    attributeAllRules asciiUnicode (plainConfig.settings false) (ReconIndex.ofRows asciiUnicode doublingReport) false []
      [earlyCredit, brandedCredit] = .ok attributions ∧
    (solverStage asciiUnicode plainConfig [earlyCredit, brandedCredit] (ReconIndex.ofRows asciiUnicode doublingReport)
      attributions false none).1 = decided ∧
    reconcile asciiUnicode RowSignature.entityId (linesByKey [earlyCredit, brandedCredit]) decided doublingReport =
      .ok out ∧
    ((∃ report, buildReport blankHashing asciiUnicode (fun _ => 0) RowSignature.entityId plainConfig
        [earlyCredit, brandedCredit] doublingReport (ReconIndex.ofRows asciiUnicode doublingReport) attributions []
        true true false none = .ok report) ↔
      BeforeEachStep Undoubled
          (claimPass asciiUnicode (SettlementIndex.ofRows asciiUnicode RowSignature.entityId doublingReport)
            (provenLines (linesByKey [earlyCredit, brandedCredit]) decided))
          (provenLines (linesByKey [earlyCredit, brandedCredit]) decided) ∧
        ExportsDated asciiUnicode plainConfig.evidencePack.rules (ReconIndex.ofRows asciiUnicode doublingReport)
          [earlyCredit, brandedCredit] decided
          (exceptionsOf asciiUnicode [earlyCredit, brandedCredit] doublingReport [] decided out)) ∧
    ∀ report, buildReport blankHashing asciiUnicode (fun _ => 0) RowSignature.entityId plainConfig
        [earlyCredit, brandedCredit] doublingReport (ReconIndex.ofRows asciiUnicode doublingReport) attributions []
        true true false none = .ok report →
      ∀ found ∈ report.investigations, ∀ inv ∈ found, ∀ entry ∈ inv.correctiveEntry, entry.balanced = true :=
  report_completes_iff blankHashing asciiUnicode (fun _ => 0) RowSignature.entityId plainConfig
    (plainConfig.settings false) false [] [earlyCredit, brandedCredit] doublingReport [] false none (by decide)
    (by unfold Fingerprints; decide +kernel)

/-- **Two statements that stop the close**: the export window of the one leaves the calendar, and the rows of the
    other do not resolve. -/
theorem close_stopped :
    reconcileLoaded blankHashing asciiUnicode (fun _ => 0) RowSignature.entityId plainConfig false [earlyCredit]
      doublingReport [] = .error (.overflow ⟨"date value out of range"⟩) ∧
    reconcileLoaded blankHashing asciiUnicode (fun _ => 0) RowSignature.entityId plainConfig false [brandedCredit]
      doublingReport [] =
        .error (.value ⟨"k_a453164ed05239b2: covered row identity contains duplicate row ids"⟩) := by
  have hearly : (reconcileLoaded blankHashing asciiUnicode (fun _ => 0) RowSignature.entityId plainConfig false
      [earlyCredit] doublingReport []).map (fun _ => ()) = .error (.overflow ⟨"date value out of range"⟩) := by
    decide +kernel
  have hbranded : (reconcileLoaded blankHashing asciiUnicode (fun _ => 0) RowSignature.entityId plainConfig false
      [brandedCredit] doublingReport []).map (fun _ => ()) =
        .error (.value ⟨"k_a453164ed05239b2: covered row identity contains duplicate row ids"⟩) := by
    decide +kernel
  exact ⟨map_eq_error.mp hearly, map_eq_error.mp hbranded⟩

end Untangle
