import Untangle.Correctness.Debit
import Untangle.Correctness.Journal
import Untangle.Engine.RunReport

/-!
# `Correctness.RunReport` — what a report is made of

A run decides every line, reconciles, and puts the report together. `Assembled` says which stage each part of a
report comes from, and what is proved about reports is read off it: a report that is made has the attributions of
`attribute_all`, in the order of the lines, and the reconciliations of `reconcile` (`reconcileLoaded_assembled`).
-/

namespace Untangle

open Lib

variable {H : Hashing} {U : Unicode} {standardFee : ℤ → ℤ} {digest : RowSignature → String} {cfg : Config}
  {audit : Bool} {lines : List BankCreditLine} {rows : List ReconRow} {orderLedger : List OrderLedgerEntry}
  {report : RunReport}

/-! ## Statements as they are loaded -/

/-- What the bank adapter is meant to hand over: keys are distinct, and an amount in the credit column is not negative. -/
structure LoadedStatement (lines : List BankCreditLine) : Prop where
  nodup : (lines.map BankCreditLine.key).Nodup
  credit : ∀ line ∈ lines, line.isCredit = true → 0 ≤ line.amountPaise

/-- A registered pack has no keyword for Razorpay itself. -/
theorem keywordFree_of_registered {pack : EvidencePack} (h : pack ∈ packRegistry) : KeywordFree pack.rules := by
  rw [packRegistry, List.mem_singleton] at h
  subst h
  exact keywordFree_default

/-! ## The parts of a report -/

/-- The report of these attributions and of this reconciliation. -/
structure Assembled (H : Hashing) (U : Unicode) (digest : RowSignature → String) (cfg : Config)
    (lines : List BankCreditLine) (rows : List ReconRow) (decided : List RailAttribution) (out : ReconcileOutput)
    (report : RunReport) : Prop where
  attributions : report.attributions = decided
  reconciliations : report.reconciliations = out.results
  feeGst : feeGst U digest out.results rows = .ok report.feeGst
  journal : buildJournalEntries U digest out.results rows true = .ok report.journal
  packets : ∃ rejected, buildProofPackets U digest cfg.evidencePack.rules rows lines decided out.results
    rejected = .ok report.proofPackets
  plan : ∃ plan exceptions, buildRecoveryPlan U cfg.evidencePack.rules (ReconIndex.ofRows U rows) lines decided
    exceptions maxRecoveryActions = .ok plan ∧ report.recoveryPlan = some plan
  totals : ∃ exceptions, report.totals = totalsOf lines rows decided (decided.zip lines) out.results
    out.unresolved report.feeGst exceptions
  config : ∃ solverActive, report.config = configDict cfg solverActive
  auditRoot : ∃ events, report.auditRoot = (AuditLedger.ofEvents H events).root

theorem zipStrict_eq {α β : Type} {xs : List α} {ys : List β} (h : xs.length = ys.length) :
    zipStrict xs ys = .ok (xs.zip ys) := by
  unfold zipStrict
  rw [if_neg (by omega), if_neg (by omega)]

theorem assembleReport_assembled {attributions : List RailAttribution} {rejected : Option (List RejectedMatch)}
    {solverActive : Bool} {out : ReconcileOutput} (hlength : attributions.length = lines.length)
    (hout : reconcile U digest (linesByKey lines) attributions rows = .ok out)
    (h : assembleReport H U standardFee digest cfg lines rows (ReconIndex.ofRows U rows) attributions rejected
      orderLedger true true solverActive = .ok report) :
    Assembled H U digest cfg lines rows attributions out report := by
  unfold assembleReport at h
  rw [zipStrict_eq hlength, hout] at h
  simp only [bind_eq_ok, mapError_eq_ok, map_eq_ok, if_true] at h
  obtain ⟨_, hzipped, _, hreconciled, gst, hgst, _, ⟨plan, hplan, rfl⟩, packets, hpackets, journal, hjournal, _,
    ⟨found, _, rfl⟩, hreport⟩ := h
  obtain rfl := Except.ok.inj hzipped
  obtain rfl := Except.ok.inj hreconciled
  obtain rfl := Except.ok.inj hreport
  exact ⟨rfl, rfl, hgst, hjournal, ⟨rejected, hpackets⟩, ⟨plan, _, hplan, rfl⟩, ⟨_, rfl⟩, ⟨_, rfl⟩, ⟨_, rfl⟩⟩

/-! ## The document of a report -/

theorem get_totals (r : RunReport) : r.toDict.get "totals" = r.totals.toDict := rfl

theorem get_attributions (r : RunReport) :
    r.toDict.get "attributions" = .arr (r.attributions.map RailAttribution.toDict) := rfl

theorem get_config (r : RunReport) : r.toDict.get "config" = r.config := rfl

theorem get_recoveryPlan {r : RunReport} {plan : RecoveryPlan} (h : r.recoveryPlan = some plan) :
    r.toDict.get "recovery_plan" = plan.toDict := by
  simp [RunReport.toDict, Json.get_obj, h]

/-! ## A run -/

/-- The solver's own run reaches the report as it is, so the attributions are not touched again. -/
theorem solverStage_attributions {index : ReconIndex} {attributions : List RailAttribution}
    {solverResult : Option SolverResult} {active : Bool} (h : active = true → solverResult.isSome) :
    (solverStage U cfg lines index attributions active solverResult).1 = attributions := by
  unfold solverStage
  cases active with
  | false => rfl
  | true =>
      obtain ⟨result, rfl⟩ := Option.isSome_iff_exists.mp (h rfl)
      rfl

theorem isSome_solverResultOut {index : ReconIndex} {solverResult : Option SolverResult}
    (h : solverResultOut U cfg audit index lines = .ok solverResult) (hsolver : cfg.globalSolver = true) :
    solverResult.isSome := by
  unfold solverResultOut at h
  rw [if_pos hsolver, map_eq_ok] at h
  obtain ⟨_, _, rfl⟩ := h
  rfl

/-- **What a run reports**: the verdicts of `attribute_all`, one a line, and what `reconcile` makes of them. -/
theorem reconcileLoaded_assembled (H : Hashing) (U : Unicode) (standardFee : ℤ → ℤ) (digest : RowSignature → String)
    (cfg : Config) (audit : Bool) (rows : List ReconRow) (orderLedger : List OrderLedgerEntry)
    {attributions : List RailAttribution}
    (hattributions : attributeAllRules U (cfg.settings audit) (ReconIndex.ofRows U rows) cfg.globalSolver [] lines =
      .ok attributions)
    (hlength : attributions.length = lines.length) {out : ReconcileOutput}
    (hout : reconcile U digest (linesByKey lines) attributions rows = .ok out)
    (h : reconcileLoaded H U standardFee digest cfg audit lines rows orderLedger = .ok report) :
    Assembled H U digest cfg lines rows attributions out report := by
  unfold reconcileLoaded at h
  dsimp only at h
  rw [hattributions] at h
  simp only [bind_eq_ok, mapError_eq_ok] at h
  obtain ⟨_, hdecided, solverResult, hsolver, hreport⟩ := h
  obtain rfl := Except.ok.inj hdecided
  unfold buildReport at hreport
  dsimp only at hreport
  rw [Bool.or_self, solverStage_attributions (isSome_solverResultOut hsolver)] at hreport
  exact assembleReport_assembled hlength hout hreport

/-! ## Plain settings

What a run is given besides its inputs, for concrete inputs: no hash of these is ever compared. -/

def blankHashing : Hashing where
  canonical := fun _ => ""
  sha256 := fun _ => genesis
  length_sha256 := fun _ => by decide +kernel
  hex_sha256 := fun _ c hc =>
    have hall : genesis.toList.all (fun c => decide (c ∈ hexDigits)) = true := by decide +kernel
    of_decide_eq_true (List.all_eq_true.mp hall c hc)

def plainConfig : Config where
  threshold := 55 / 100
  seed := 42
  threshold_unit := by norm_num
  registered := List.mem_singleton_self _

end Untangle
