import Untangle.Correctness.Verifier
import Untangle.Engine.Certificate

/-!
# `Correctness.Certificate` — whether the engine's reports pass its own verifier

The producer of a report and its verifier are two pieces of code. On a report of the engine the verifier finds the
audit root and the evidence pack in order (`verifyReport_engine`), and a certificate issued for the report and
verified with it attached stands or falls with the packets (`verifyCertificate_issued`). A packet fails for one
reason: its audit came to a margin that is not positive. The producer attaches such an audit all the same, and the
verifier refuses it on purpose, so a run passes exactly if none of its audited credits is disputed
(`verified_iff`).
-/

namespace Untangle

open Lib

variable {H : Hashing} {U : Unicode} {repr : Json → String} {standardFee : ℤ → ℤ} {digest : RowSignature → String}
  {cfg : Config} {lines : List BankCreditLine} {rows : List ReconRow} {report : RunReport}

/-! ## The report -/

theorem isHexDigest_sha256 (H : Hashing) (text : String) : isHexDigest (H.sha256 text) = true := by
  have hall : hexDigits.all (fun c => decide (c ∈ "0123456789abcdefABCDEF".toList)) = true := by decide +kernel
  unfold isHexDigest
  rw [H.length_sha256, decide_eq_true rfl, Bool.true_and, List.all_eq_true]
  intro c hc
  exact List.all_eq_true.mp hall c (H.hex_sha256 text c hc)

/-- The root of a ledger is a digest, the empty ledger's too. -/
theorem isHexDigest_root (H : Hashing) (events : List (String × Json)) :
    isHexDigest (AuditLedger.ofEvents H events).root = true := by
  rcases List.eq_nil_or_concat' events with rfl | ⟨init, e, rfl⟩
  · show isHexDigest genesis = true
    decide +kernel
  · unfold AuditLedger.ofEvents
    rw [List.foldl_append]
    exact isHexDigest_sha256 H _

/-- Every check of every result passes. -/
def AllPass (results : List VerificationResult) : Prop :=
  ∀ r ∈ results, r.ok = true ∧ ∀ check ∈ r.checks, check.passed = true

/-- **What the verifier finds on a report of the engine**: everything but the packets is in order. -/
theorem verifyReport_engine (U : Unicode) (repr : Json → String) {events : List (String × Json)} {solverActive : Bool}
    (hroot : report.auditRoot = (AuditLedger.ofEvents H events).root)
    (hconfig : report.config = configDict cfg solverActive) {results : List VerificationResult}
    (hpackets : report.proofPackets.mapM (fun packet => verifyProofPacket U repr packet none) = .ok results) :
    ∃ root pack, verifyReport U repr report.toDict = .ok (root :: results ++ [pack]) ∧ AllPass [root, pack] := by
  have haudit : ∃ root, auditRootResult repr report.toDict = root ∧ AllPass [root] := by
    unfold auditRootResult
    rw [show report.toDict.get "audit_root" = .str report.auditRoot from rfl]
    dsimp only [Json.asStr?]
    rw [Option.filter_some, hroot, if_pos (isHexDigest_root H events)]
    exact ⟨_, rfl, by simp [AllPass]⟩
  have hpack : ∃ pack, provenanceResults repr report.toDict = [pack] ∧ AllPass [pack] := by
    unfold provenanceResults
    rw [get_config, hconfig]
    dsimp only
    rw [show (configDict cfg solverActive).get "evidence_pack" = cfg.evidencePack.provenance.toDict from rfl,
      resolvePackProvenance_toDict cfg.registered,
      if_pos (show ((configDict cfg solverActive).get "report_schema_version").isStr "1.1.0" = true from rfl)]
    exact ⟨_, rfl, by simp [AllPass]⟩
  obtain ⟨root, hroot, hrootok⟩ := haudit
  obtain ⟨pack, hpack, hpackok⟩ := hpack
  refine ⟨root, pack, ?_, ?_⟩
  · unfold verifyReport
    rw [if_neg (show ¬ (!report.toDict.isObj) = true from Bool.false_ne_true), hroot, hpack]
    apply bind_eq_ok.mpr
    exact ⟨results, hpackets, rfl⟩
  · intro r hr
    rcases List.mem_pair.mp hr with rfl | rfl
    · exact hrootok _ (List.mem_singleton_self _)
    · exact hpackok _ (List.mem_singleton_self _)

/-! ## The certificate -/

/-- The amount of a rail, zero if the report has none of it. -/
theorem getAttr_rail (items : List (String × ℤ)) (rail : String) :
    getAttr (.obj (items.map fun p => (p.1, .int p.2))) rail (.int 0) = .ok (.int ((items.lookup rail).getD 0)) := by
  show Except.ok (((Json.obj (items.map fun p => (p.1, .int p.2))).get? rail).getD (.int 0)) = _
  congr 1
  induction items with
  | nil => rfl
  | cons p items ih =>
      rw [List.map_cons, Json.get?_obj_cons, List.lookup_cons]
      by_cases h : rail = p.1
      · rw [if_pos h, h, beq_self_eq_true]
        rfl
      · rw [if_neg h, beq_eq_false_iff_ne.mpr h]
        exact ih

/-- **A certificate can be issued** for every report of the engine that can be verified; it names the pack. -/
theorem buildCloseCertificate_engine {solverActive : Bool} (hconfig : report.config = configDict cfg solverActive)
    {results : List VerificationResult} (hresults : verifyReport U repr report.toDict = .ok results) :
    ∃ body, buildCloseCertificate U repr report.toDict = .ok body ∧
      body.lookup "certificate_schema_version" = some (.str reportSchemaVersion) ∧
      body.lookup "evidence_pack" = some cfg.evidencePack.provenance.toDict ∧ body.lookup "report_sha256" = none ∧
      (body.all fun p => sortableKeys p.2) = true := by
  have hprovenance : checkProvenance repr (.str reportSchemaVersion) cfg.evidencePack.provenance.toDict = .ok () := by
    unfold checkProvenance
    rw [resolvePackProvenance_toDict cfg.registered]
    rfl
  have hproven := getAttr_rail report.totals.byRailPaise "razorpay_settlement"
  have hcount := getAttr_rail (report.totals.byRailCount.map fun p => (p.1, (p.2 : ℤ))) "razorpay_settlement"
  rw [List.map_map] at hcount
  have hconfig : (report.toDict.get? "config").getD (.obj []) = configDict cfg solverActive := hconfig
  have htotals : (report.toDict.get? "totals").getD (.obj []) = report.totals.toDict := rfl
  unfold buildCloseCertificate
  rw [if_neg (show ¬ (!report.toDict.isObj) = true from Bool.false_ne_true)]
  simp only [bind_eq_ok, hresults, hconfig, htotals]
  exact ⟨_, ⟨_, rfl, _, rfl, _, rfl, _, hcount, _, hproven, _, rfl, _, rfl, _, rfl, _, rfl, _, rfl, _, rfl, _, rfl, _, rfl,
    _, rfl, _, rfl, _, rfl, _, rfl, _, rfl, _, rfl, _, rfl, _, rfl, (), hprovenance, rfl⟩, rfl, rfl, rfl, rfl⟩

theorem same_provenance (p : PackProvenance) : Json.same p.toDict p.toDict = true := by
  simp [PackProvenance.toDict, Json.same, Json.sameFields, Json.sameLeaf, List.lookup_cons]

/-- The certificate of a payload: the one it carries, or else the payload itself. -/
def certificateOf (payload : Json) : Json :=
  if (payload.get "certificate").isObj then payload.get "certificate" else payload

theorem certificateOf_cons {cert : Json} (h : cert.isObj = true) (fields : List (String × Json)) :
    certificateOf (.obj (("certificate", cert) :: fields)) = cert :=
  if_pos h

/-- What the verifier says about the report of a payload. -/
def reportOf (H : Hashing) (U : Unicode) (repr : Json → String) (payload : Json) : AttachedReport :=
  attachedReport H U repr payload (certificateOf payload) (certificatePackValid (certificateOf payload)).2

/-- **What decides about an envelope**: its hash, its signature's absence, its report and its pack. -/
theorem verifyCertificate_eq (H : Hashing) (U : Unicode) (repr : Json → String) (payload : Json)
    (hpayload : payload.isObj = true) :
    ∃ v, verifyCertificate H U repr payload = .ok v ∧
      v.reportBindingValid = (reportOf H U repr payload).bindingValid ∧
      (v.ok = true ↔
        (payload.get "content_sha256").isStr (H.sha256 (H.canonical (certificateOf payload))) = true ∧
        signatureContract payload = true ∧ (payload.get? "signature").isSome = false ∧
        (reportOf H U repr payload).bindingValid ≠ some false ∧
        (∀ p, (reportOf H U repr payload).packets = some p → p.2 = p.1) ∧
        (reportOf H U repr payload).packValid = true) := by
  unfold verifyCertificate
  rw [hpayload, if_neg (by decide)]
  refine ⟨_, rfl, rfl, ?_⟩
  dsimp only
  rw [Bool.and_eq_true, Bool.and_eq_true, Bool.and_eq_true, Bool.and_eq_true, Bool.and_eq_true, Bool.not_eq_true',
    decide_eq_true_eq, Option.all_eq_true]
  simp only [decide_eq_true_eq, and_assoc]
  exact Iff.rfl

/-- **A certificate and its report stand or fall with the results** of verifying the report. -/
theorem verifyCertificate_issued {solverActive : Bool} (hconfig : report.config = configDict cfg solverActive)
    {results : List VerificationResult} (hresults : verifyReport U repr report.toDict = .ok results) :
    ∃ envelope v, issueCertificate H U repr report.toDict = .ok envelope ∧
      verifyCertificate H U repr (.obj (envelope ++ [("report", report.toDict)])) = .ok v ∧
      (v.ok = true ↔ ∀ r ∈ results, r.ok = true) := by
  obtain ⟨body, hbody, hschema, hpack, hfree, hsortable⟩ := buildCloseCertificate_engine hconfig hresults
  have hissue : ∃ cert : Json, cert = .obj (body ++ [("report_sha256", .str (H.sha256 (H.canonical report.toDict)))]) ∧
      issueCertificate H U repr report.toDict = .ok [("certificate", cert),
        ("content_sha256", .str (H.sha256 (H.canonical cert))), ("signed", .bool false),
        ("note", .str certificateNote)] := by
    refine ⟨_, rfl, bind_eq_ok.mpr ⟨body, hbody, ?_⟩⟩
    rw [hsortable]
    rfl
  obtain ⟨cert, hcert, hissue⟩ := hissue
  have hget : ∀ key v, body.lookup key = some v → cert.get key = v := by
    intro key v h
    rw [hcert, Json.get_obj, Json.get?_obj_append, show (Json.obj body).get? key = some v from h]
    rfl
  have hdigest : cert.get "report_sha256" = .str (H.sha256 (H.canonical report.toDict)) := by
    rw [hcert, Json.get_obj, Json.get?_obj_append, show (Json.obj body).get? "report_sha256" = none from hfree]
    rfl
  have hobj : cert.isObj = true := by
    rw [hcert]
    rfl
  have hvalid : certificatePackValid cert = (true, true) := by
    unfold certificatePackValid
    rw [hget _ _ hschema, hget _ _ hpack]
    rfl
  -- the report is bound to the certificate, so what is left is the verification of the report
  have hattached : verifyAttached H U repr cert report.toDict true = ⟨some (results.all VerificationResult.ok), true,
      some ((packetOnly results).length, ((packetOnly results).filter VerificationResult.ok).length)⟩ := by
    have hsame : Json.same (cert.get "evidence_pack") cfg.evidencePack.provenance.toDict = true := by
      rw [hget _ _ hpack]
      exact same_provenance _
    unfold verifyAttached
    rw [show (report.toDict.get? "config").getD (.obj []) = configDict cfg solverActive from hconfig, hresults, hdigest]
    dsimp only
    rw [if_neg (show ¬ (!(configDict cfg solverActive).isObj) = true from Bool.false_ne_true),
      show (configDict cfg solverActive).get "evidence_pack" = cfg.evidencePack.provenance.toDict from rfl,
      show (configDict cfg solverActive).get "report_schema_version" = .str reportSchemaVersion from rfl, hsame]
    simp [Json.isStr, pairedMetadata, Json.isNull, PackProvenance.toDict, reportSchemaVersion]
  have hpayload : (Json.obj ([("certificate", cert), ("content_sha256", .str (H.sha256 (H.canonical cert))),
      ("signed", .bool false), ("note", .str certificateNote)] ++ [("report", report.toDict)])).isObj = true := rfl
  obtain ⟨v, hv, _, hok⟩ := verifyCertificate_eq H U repr _ hpayload
  refine ⟨_, v, hissue, hv, ?_⟩
  have hcertificate : certificateOf (.obj ([("certificate", cert),
      ("content_sha256", .str (H.sha256 (H.canonical cert))), ("signed", .bool false),
      ("note", .str certificateNote)] ++ [("report", report.toDict)])) = cert := certificateOf_cons hobj _
  have hreport : reportOf H U repr (.obj ([("certificate", cert),
      ("content_sha256", .str (H.sha256 (H.canonical cert))), ("signed", .bool false),
      ("note", .str certificateNote)] ++ [("report", report.toDict)])) =
        verifyAttached H U repr cert report.toDict true := by
    unfold reportOf
    rw [hcertificate, hvalid]
    rfl
  rw [hreport, hattached, hcertificate] at hok
  rw [hok]
  constructor
  · rintro ⟨_, _, _, hbound, _⟩ r hr
    have hall : results.all VerificationResult.ok = true := by
      cases hcase : results.all VerificationResult.ok with
      | true => rfl
      | false => exact absurd (congrArg some hcase) hbound
    exact List.all_eq_true.mp hall r hr
  · intro hall
    refine ⟨decide_eq_true rfl, rfl, rfl, ?_, ?_, rfl⟩
    · rw [List.all_eq_true.mpr hall]
      intro h
      cases h
    · intro p hp
      obtain rfl := Option.some.inj hp
      exact congrArg List.length (List.filter_eq_self.mpr fun r hr => hall r (List.mem_filter.mp hr).1)

/-! ## Which runs verify -/

/-- The engine's verifier accepts a report: each packet, each check of the report, and its certificate with the
    report attached. -/
structure Verified (H : Hashing) (U : Unicode) (repr : Json → String) (report : RunReport) : Prop where
  packets : ∀ packet ∈ report.proofPackets, ∃ result, verifyProofPacket U repr packet none = .ok result ∧
    result.ok = true
  checks : ∃ results, verifyReport U repr report.toDict = .ok results ∧ AllPass results
  certificate : ∃ envelope v, issueCertificate H U repr report.toDict = .ok envelope ∧
    verifyCertificate H U repr (.obj (envelope ++ [("report", report.toDict)])) = .ok v ∧ v.ok = true

/-- **A report of the engine is verified if its packets are.** -/
theorem verified_engine {events : List (String × Json)} {solverActive : Bool}
    (hroot : report.auditRoot = (AuditLedger.ofEvents H events).root)
    (hconfig : report.config = configDict cfg solverActive)
    (hpackets : ∀ packet ∈ report.proofPackets, ∃ result, verifyProofPacket U repr packet none = .ok result ∧
      (result.ok = true ↔ ∀ check ∈ result.checks, check.passed)) :
    Verified H U repr report ↔ ∀ packet ∈ report.proofPackets, ∃ result,
      verifyProofPacket U repr packet none = .ok result ∧ result.ok = true := by
  constructor
  · intro h
    exact h.packets
  · intro hpass
    have hsteps : ∀ packet ∈ report.proofPackets, ∃ result, verifyProofPacket U repr packet none = .ok result ∧
        (result.ok = true ∧ ∀ check ∈ result.checks, check.passed = true) := by
      intro packet hpacket
      obtain ⟨result, hresult, hchecks⟩ := hpackets packet hpacket
      obtain ⟨result', hresult', hok⟩ := hpass packet hpacket
      obtain rfl := Except.ok.inj (hresult.symm.trans hresult')
      exact ⟨result, hresult, hok, hchecks.mp hok⟩
    obtain ⟨results, hresults, hall⟩ := exists_mapM_eq_ok hsteps
    obtain ⟨root, pack, hverify, hends⟩ := verifyReport_engine U repr hroot hconfig hresults
    have hallpass : AllPass (root :: results ++ [pack]) := by
      intro r hr
      rcases List.mem_append.mp hr with hr | hr
      · rcases List.mem_cons.mp hr with rfl | hr
        · exact hends _ List.mem_cons_self
        · exact hall r hr
      · exact hends r (List.mem_cons_of_mem _ hr)
    obtain ⟨envelope, v, hissue, hcertificate, hok⟩ := verifyCertificate_issued (H := H) hconfig hverify
    exact ⟨hpass, ⟨_, hverify, hallpass⟩, ⟨envelope, v, hissue, hcertificate, hok.mpr fun r hr => (hallpass r hr).1⟩⟩

/-- The reconciliation that a packet shows is one of the packet's line. -/
theorem settlement_of_covers {out : ReconcileOutput} {attributions : List RailAttribution}
    (hout : reconcile U digest (linesByKey lines) attributions rows = .ok out)
    (hkeys : (attributions.map RailAttribution.lineKey).Nodup) {key : String} {line : BankCreditLine}
    (hline : (linesByKey lines).dict.get? key = some line) {r : ReconciliationResult}
    (hr : (reconciliationsByKey out.results).get? key = some r) : r ∈ out.results ∧ Settlement line r := by
  obtain ⟨st, hst, hrun⟩ := reconcile_spec U digest (linesByKey lines) attributions rows
  obtain rfl := Except.ok.inj (hout.symm.trans hst)
  have hinv := hrun.runInv (SettlementIndex.ofRows_spec U digest rows) (nodup_provenLines (linesByKey lines) hkeys)
  unfold reconciliationsByKey at hr
  rw [Dict.get?_gather_last] at hr
  obtain ⟨r', hlast, rfl⟩ := Option.map_eq_some_iff.mp hr
  obtain ⟨hmem, hkey⟩ := List.mem_filter.mp (List.mem_of_getLast? hlast)
  refine ⟨hmem, ?_⟩
  obtain ⟨c, hc, rfl⟩ := List.mem_map.mp hmem
  have hproven := hinv.proven c (mem_closeReconcile_covers.mp hc)
  obtain ⟨hlineKey, _, _, hcredit, hresidual, hbalanced, _⟩ := c.fields
  rw [decide_eq_true_eq, hlineKey, key_of_mem_provenLines hproven] at hkey
  obtain ⟨_, _, _, _, hget⟩ := mem_provenLines.mp hproven
  rw [show c.key = key from Option.some.inj hkey, hline] at hget
  obtain rfl := Option.some.inj hget
  exact ⟨hcredit, hresidual, hbalanced⟩

/-- **Which runs verify.** On the audit path the report of a run, its packets and its certificate pass the engine's own
    verifier exactly if no audited credit is disputed, given that the amounts of its reconciliations read back. -/
theorem verified_iff (H : Hashing) (U : Unicode) (repr : Json → String) (standardFee : ℤ → ℤ)
    (digest : RowSignature → String) (cfg : Config) (lines : List BankCreditLine) (rows : List ReconRow)
    (orderLedger : List OrderLedgerEntry) (hnd : (lines.map BankCreditLine.key).Nodup)
    (hloaded : ∀ line ∈ lines, |line.amountPaise| < loadedPaise) :
    ∃ attributions out,
      attributeAllRules U (cfg.settings true) (ReconIndex.ofRows U rows) cfg.globalSolver [] lines =
        .ok attributions ∧
      reconcile U digest (linesByKey lines) attributions rows = .ok out ∧
      ∀ report, reconcileLoaded H U standardFee digest cfg true lines rows orderLedger = .ok report →
        (∀ r ∈ out.results, ReadsBack r) →
        (Verified H U repr report ↔ ∀ line ∈ lines, CreditUndisputed U cfg (ReconIndex.ofRows U rows) line) := by
  obtain ⟨verdict, hattributions, hkept, hvetted⟩ :=
    attributeAllRules_audited U cfg (ReconIndex.ofRows U rows) hnd
  obtain ⟨out, hout⟩ : ∃ out, reconcile U digest (linesByKey lines) (lines.map verdict) rows = .ok out :=
    (reconcile_spec U digest (linesByKey lines) (lines.map verdict) rows).imp' _ fun _ h => h.1
  refine ⟨_, out, hattributions, hout, fun report hreport hreads => ?_⟩
  have hassembled := reconcileLoaded_assembled H U standardFee digest cfg true rows orderLedger hattributions
    (List.length_map _) hout hreport
  obtain ⟨rejected, hpackets⟩ := hassembled.packets
  obtain ⟨hmade, hmakes⟩ := mem_buildProofPackets hpackets
  obtain ⟨events, hroot⟩ := hassembled.auditRoot
  obtain ⟨solverActive, hconfig⟩ := hassembled.config
  -- what the verifier says about the packet of a line
  have hpacket : ∀ line ∈ lines, ∀ packet,
      packetStep U digest cfg.evidencePack.rules rows (linesByKey lines) (reconciliationsByKey out.results) rejected
        (verdict line) = .ok (some packet) →
      ∃ result, verifyProofPacket U repr packet none = .ok result ∧
        (result.ok = true ↔ ∀ check ∈ result.checks, check.passed) ∧ Packeted (verdict line) ∧
        (result.ok = true ↔ MarginShown (verdict line)) := by
    intro line hline packet hstep
    have hget : (linesByKey lines).dict.get? (verdict line).lineKey = some line := by
      rw [hkept.key line hline, get?_linesByKey hnd hline]
    obtain ⟨hyes, hno⟩ := packetStep_eq_ok hget hstep
    by_cases hpacketed : Packeted (verdict line)
    · obtain ⟨sids, fee, heq⟩ := hyes hpacketed
      obtain ⟨result, hresult, hok, hchecks⟩ := verifyProofPacket_proofPacket U repr
        cfg.evidencePack.rules sids rejected fee hpacketed (hloaded line hline) fun r hr =>
          have hsettled := settlement_of_covers hout (hkept.nodup hnd) hget hr
          ⟨hsettled.2, hreads r hsettled.1⟩
      rw [Option.some.inj heq]
      exact ⟨result, hresult, hchecks, hpacketed, hok⟩
    · cases hno hpacketed
  rw [verified_engine hroot hconfig]
  · constructor
    · intro hpass line hline
      rw [← hvetted line hline]
      intro hpacketed
      have hget : (linesByKey lines).dict.get? (verdict line).lineKey = some line := by
        rw [hkept.key line hline, get?_linesByKey hnd hline]
      obtain ⟨made, hstep, hmem⟩ := hmakes (verdict line) (List.mem_map_of_mem hline)
      obtain ⟨sids, fee, rfl⟩ := (packetStep_eq_ok hget hstep).1 hpacketed
      obtain ⟨result, hresult, _, _, hok⟩ := hpacket line hline _ hstep
      obtain ⟨result', hresult', hok'⟩ := hpass _ (hmem _ rfl)
      obtain rfl := Except.ok.inj (hresult.symm.trans hresult')
      exact hok.mp hok'
    · intro hundisputed packet hpacket'
      obtain ⟨a, ha, hstep⟩ := hmade packet hpacket'
      obtain ⟨line, hline, rfl⟩ := List.mem_map.mp ha
      obtain ⟨result, hresult, _, hpacketed, hok⟩ := hpacket line hline packet hstep
      exact ⟨result, hresult, hok.mpr ((hvetted line hline).mpr (hundisputed line hline) hpacketed)⟩
  · intro packet hpacket'
    obtain ⟨a, ha, hstep⟩ := hmade packet hpacket'
    obtain ⟨line, hline, rfl⟩ := List.mem_map.mp ha
    obtain ⟨result, hresult, hchecks, _⟩ := hpacket line hline packet hstep
    exact ⟨result, hresult, hchecks⟩

/-- One settlement, and a credit that quotes its UTR and pays its net. -/
def quotedReport : List ReconRow := [settledRow "pay_1" "S1" (some "1111111111aaaaaa") 100000]

def quietCredit : BankCreditLine := creditLine "a" "NEFT 1111111111aaaaaa" 100000

/-- A run with an undisputed credit, verified by its condition. -/
theorem verified_iff_quiet : ∃ report,
    reconcileLoaded blankHashing asciiUnicode (fun _ => 0) RowSignature.entityId plainConfig true [quietCredit]
      quotedReport [] = .ok report ∧ Verified blankHashing asciiUnicode (fun _ => "") report := by
  have hrun : (reconcileLoaded blankHashing asciiUnicode (fun _ => 0) RowSignature.entityId plainConfig true
      [quietCredit] quotedReport []).toOption.isSome = true := by decide +kernel
  have hamounts : (attributeAllRules asciiUnicode (plainConfig.settings true)
      (ReconIndex.ofRows asciiUnicode quotedReport) plainConfig.globalSolver [] [quietCredit] >>= fun attributions =>
        reconcile asciiUnicode RowSignature.entityId (linesByKey [quietCredit]) attributions quotedReport).map
      (fun out => out.results.map fun r => (r.creditAmountPaise, r.coveredNetPaise, r.residualPaise)) =
        .ok [(100000, 100000, 0)] := by decide +kernel
  have hundisputed : LineUndisputed asciiUnicode (plainConfig.settings true)
      (ReconIndex.ofRows asciiUnicode quotedReport) quietCredit := by decide +kernel
  obtain ⟨attributions, out, hattributions, hout, hiff⟩ := verified_iff blankHashing asciiUnicode (fun _ => "")
    (fun _ => 0) RowSignature.entityId plainConfig [quietCredit] quotedReport [] (by decide) (by decide)
  cases hreport : reconcileLoaded blankHashing asciiUnicode (fun _ => 0) RowSignature.entityId plainConfig true
      [quietCredit] quotedReport [] with
  | error e =>
      rw [hreport] at hrun
      cases hrun
  | ok report =>
      refine ⟨report, rfl, (hiff report hreport ?_).mpr ?_⟩
      · intro r hr
        rw [hattributions] at hamounts
        rw [show (Except.ok attributions >>= fun attributions => reconcile asciiUnicode RowSignature.entityId
          (linesByKey [quietCredit]) attributions quotedReport) = .ok out from hout] at hamounts
        have hresults : out.results.map (fun r => (r.creditAmountPaise, r.coveredNetPaise, r.residualPaise)) =
            [(100000, 100000, 0)] := Except.ok.inj hamounts
        have hmem := List.mem_map_of_mem (f := fun r : ReconciliationResult =>
          (r.creditAmountPaise, r.coveredNetPaise, r.residualPaise)) hr
        rw [hresults, List.mem_singleton, Prod.mk.injEq, Prod.mk.injEq] at hmem
        obtain ⟨hcredit, hnet, hresidual⟩ := hmem
        unfold ReadsBack
        rw [hcredit, hnet, hresidual, sub_self]
      · intro line hline _
        rw [List.mem_singleton.mp hline]
        exact hundisputed

/-- The same credit with the keyword of another gateway, and an amount that the settlement does not have. -/
def disputedCredit : BankCreditLine := creditLine "a" "NEFT 1111111111aaaaaa PAYU" 70000

/-- **A report that the engine makes and its own verifier refuses**: the exact UTR and the keyword weigh the same, so the
    audit comes to a margin of zero, and the packet, the report and the certificate fail for it. -/
theorem disputed_refused : ∃ report,
    reconcileLoaded blankHashing asciiUnicode (fun _ => 0) RowSignature.entityId plainConfig true [disputedCredit]
      quotedReport [] = .ok report ∧
    (∃ packet ∈ report.proofPackets, ∃ result, verifyProofPacket asciiUnicode (fun _ => "") packet none = .ok result ∧
      result.ok = false) ∧
    ¬ Verified blankHashing asciiUnicode (fun _ => "") report := by
  have hrun : (reconcileLoaded blankHashing asciiUnicode (fun _ => 0) RowSignature.entityId plainConfig true
      [disputedCredit] quotedReport []).toOption.map (fun report => report.proofPackets.map fun packet =>
        (verifyProofPacket asciiUnicode (fun _ => "") packet none).toOption.map VerificationResult.ok) =
      some [some false] := by decide +kernel
  cases hreport : reconcileLoaded blankHashing asciiUnicode (fun _ => 0) RowSignature.entityId plainConfig true
      [disputedCredit] quotedReport [] with
  | error e =>
      rw [hreport] at hrun
      cases hrun
  | ok report =>
      rw [hreport] at hrun
      have hverdicts : report.proofPackets.map (fun packet =>
          (verifyProofPacket asciiUnicode (fun _ => "") packet none).toOption.map VerificationResult.ok) =
          [some false] := Option.some.inj hrun
      have hfails : ∃ packet ∈ report.proofPackets, ∃ result,
          verifyProofPacket asciiUnicode (fun _ => "") packet none = .ok result ∧ result.ok = false := by
        obtain ⟨packet, hpacket, hverdict⟩ := List.mem_map.mp (hverdicts ▸ List.mem_singleton_self (some false))
        refine ⟨packet, hpacket, ?_⟩
        cases hresult : verifyProofPacket asciiUnicode (fun _ => "") packet none with
        | error e =>
            rw [hresult] at hverdict
            cases hverdict
        | ok result =>
            rw [hresult] at hverdict
            exact ⟨result, rfl, Option.some.inj hverdict⟩
      refine ⟨report, rfl, hfails, fun hverified => ?_⟩
      obtain ⟨packet, hpacket, result, hresult, hno⟩ := hfails
      obtain ⟨result', hresult', hok⟩ := hverified.packets packet hpacket
      obtain rfl := Except.ok.inj (hresult.symm.trans hresult')
      rw [hno] at hok
      cases hok

end Untangle
