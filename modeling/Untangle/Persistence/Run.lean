import Untangle.Engine.Persistence
import Untangle.Lib.Json
import Untangle.Lib.Transactions
import Untangle.Persistence.Job

/-!
# `Persistence.Run` — the lifecycle of a run

Model of `persistence/repositories/run.py` with the records that hang on a run, and of `execute_reconciliation` in
`persistence/service.py`. A run is written under its row lock, so each operation is one step on the run's records.
Phase 1 and phase 3 are transactions whose statements may raise at any position, phase 2 is the outcome of the engine,
and the recording of a failure is a transaction of its own.
-/

namespace Untangle

open Lib

/-! ## Roles -/

inductive Role
  | owner
  | admin
  | operator
  | reviewer
  | auditor
deriving DecidableEq, Repr

/-- `RUN_PERMISSIONS`. -/
def runPermissions (action : String) : Option (List Role) :=
  List.lookup action [("create", [.owner, .admin, .operator]), ("complete", [.owner, .admin, .operator]),
    ("fail", [.owner, .admin, .operator]), ("cancel", [.owner, .admin, .operator]), ("delete", [.owner, .admin]),
    ("legal_hold", [.owner, .admin])]

/-! ## Records -/

structure RunHashes where
  reconciliationHash : Option String := none
  bankStatementHash : Option String := none
  reconReportHash : Option String := none
  orderLedgerHash : Option String := none
  evidencePackId : Option String := none
  evidencePackVersion : Option String := none
deriving DecidableEq, Repr

/-- The hashes that are given replace those that are stored. -/
def RunHashes.updated (stored given : RunHashes) : RunHashes where
  reconciliationHash := given.reconciliationHash.or stored.reconciliationHash
  bankStatementHash := given.bankStatementHash.or stored.bankStatementHash
  reconReportHash := given.reconReportHash.or stored.reconReportHash
  orderLedgerHash := given.orderLedgerHash.or stored.orderLedgerHash
  evidencePackId := given.evidencePackId.or stored.evidencePackId
  evidencePackVersion := given.evidencePackVersion.or stored.evidencePackVersion

structure UploadedFileMetadata where
  fileRole : String
  originalFilename : String
  contentType : String
  sizeBytes : Nat
  sha256Checksum : String
deriving DecidableEq, Repr

structure ReconciliationResultRow where
  summary : Json
  presentation : Json
  canonicalReportText : String
  auditRoot : Json
  reportSha256 : String

structure CertificateRecord where
  certificate : Json
  contentSha256 : String
  reportSha256 : String
  isSigned : Bool
  signature : Option String
  publicKeyPem : Option String

structure OutputMetadata where
  artifactType : String
  filename : String
  mediaType : String
  sizeBytes : Nat
  contentSha256 : String
deriving DecidableEq, Repr

structure AuditEvent where
  eventType : String
  metadata : List (String × String)
deriving DecidableEq, Repr

/-- A run with everything that is stored for it. -/
structure RunRecords where
  row : RunRecord
  hashes : RunHashes := {}
  files : List UploadedFileMetadata := []
  result : Option ReconciliationResultRow := none
  investigations : List InvestigationRecord := []
  certificate : Option CertificateRecord := none
  artifacts : List OutputMetadata := []
  events : List AuditEvent := []

inductive ServiceError
  | permission
  | invalidRunState
  | resultIntegrity
  | unsupportedEvent
  | integrity (refusal : Refusal)
  | violation (violation : Violation)
  | exception (message : String)
deriving DecidableEq, Repr

/-- `require_run_mutation`. -/
def requireRunMutation (role : Role) (action : String) : Except ServiceError Unit :=
  match runPermissions action with
  | none => .error (.exception "unknown run mutation")
  | some allowed => if role ∈ allowed then .ok () else .error .permission

def ServiceError.ofRefusal : Refusal → ServiceError
  | .invalidRunState => .invalidRunState
  | refusal => .integrity refusal

namespace RunRecords

/-- The exceptions that a crash raises. -/
def raised (crash : Nat → Option String) (i : Nat) : Option ServiceError := (crash i).map ServiceError.exception

/-! ## Statements on a run -/

/-- The action that an event stands for. -/
def actionOf (eventType : String) : Option String :=
  List.lookup eventType [("run.initiated", "create"), ("run.completed", "complete"), ("run.failed", "fail"),
    ("certificate.issued", "complete"), ("organisation.deactivated", "delete"), ("membership.assigned", "delete"),
    ("run.deleted", "delete"), ("run.purged", "delete"), ("run.legal_hold_placed", "legal_hold"),
    ("run.legal_hold_released", "legal_hold"), ("job.cancelled", "cancel")]

/-- `append_audit_event`. -/
def appendAuditEvent (role : Role) (eventType : String) (metadata : List (String × String)) (d : RunRecords) :
    Except ServiceError RunRecords :=
  match actionOf eventType with
  | none => .error .unsupportedEvent
  | some action => do
    requireRunMutation role action
    return { d with events := d.events ++ [⟨eventType, metadata⟩] }

/-- `save_uploaded_file_metadata`. -/
def saveUploadedFileMetadata (role : Role) (file : UploadedFileMetadata) (d : RunRecords) :
    Except ServiceError RunRecords := do
  requireRunMutation role "create"
  if file.fileRole ∈ d.files.map UploadedFileMetadata.fileRole then .error (.integrity .uniqueViolation)
  else return { d with files := d.files ++ [file] }

/-- `complete_run`. -/
def completeRun (role : Role) (hashes : RunHashes) (now : Instant) (d : RunRecords) :
    Except ServiceError RunRecords := do
  requireRunMutation role "complete"
  let row ← (Untangle.completeRun now d.row).mapError ServiceError.ofRefusal
  return { d with row := row, hashes := if d.row.val.status = .completed then d.hashes else d.hashes.updated hashes }

/-- A text cut to the width of its column. -/
def truncated (text : String) (width : Nat) : String := String.ofList (text.toList.take width)

/-- The row that `fail_run` writes. -/
def failedRow (code summary : String) (now : Instant) (r : ReconciliationRun) : ReconciliationRun :=
  { r with
    status := .failed
    failedAt := some now
    errorCode := some (truncated code 64)
    errorSummary := some (truncated summary 255) }

/-- `fail_run`. -/
def failRun (role : Role) (code summary : String) (now : Instant) (d : RunRecords) : Except ServiceError RunRecords := do
  requireRunMutation role "fail"
  if d.row.val.status = .completed then return d
  else
    let row ← (storeRun (failedRow code summary now d.row.val)).mapError ServiceError.ofRefusal
    return { d with row := row }

/-- The transaction of `_record_failure`. -/
def recordFailure (role : Role) (code summary : String) (now : Instant) (d : RunRecords) :
    Except ServiceError RunRecords := do
  let d' ← d.failRun role code summary now
  if d'.row.val.status = .completed then return d'
  else d'.appendAuditEvent role "run.failed" [("error_code", code)]

/-! ## Phase 3 -/

/-- What phase 2 hands over to phase 3. -/
structure EngineOutput where
  totals : Json
  presentation : Json
  canonicalText : String
  auditRoot : Json
  reportSha256 : String
  investigations : List Investigation
  certificate : Json
  contentSha256 : String
  signed : Bool
  signature : Option String
  publicKeyPem : Option String
  tallyXml : String
  evidencePackId : Option String
  evidencePackVersion : Option String

section Completion

variable (sha256 : String → String)

/-- What `save_result` inserts. -/
def resultOf (o : EngineOutput) : ReconciliationResultRow where
  summary := o.totals
  presentation := o.presentation
  canonicalReportText := o.canonicalText
  auditRoot := o.auditRoot
  reportSha256 := o.reportSha256

/-- `save_result`. -/
def saveResult (role : Role) (o : EngineOutput) (d : RunRecords) : Except ServiceError RunRecords := do
  requireRunMutation role "complete"
  if sha256 o.canonicalText ≠ o.reportSha256 then .error .resultIntegrity
  else if d.result.isSome then .error (.integrity .uniqueViolation)
  else return { d with result := some (resultOf o) }

/-- `save_investigations`. -/
def saveInvestigations (role : Role) (o : EngineOutput) (d : RunRecords) : Except ServiceError RunRecords := do
  requireRunMutation role "complete"
  let table ← (o.investigations.foldlM insertInvestigation d.investigations).mapError ServiceError.violation
  return { d with investigations := table }

/-- What `save_certificate` inserts. -/
def certificateOf (o : EngineOutput) : CertificateRecord where
  certificate := o.certificate
  contentSha256 := o.contentSha256
  reportSha256 := o.reportSha256
  isSigned := o.signed
  signature := o.signature
  publicKeyPem := o.publicKeyPem

/-- `save_certificate`. -/
def saveCertificate (role : Role) (o : EngineOutput) (d : RunRecords) : Except ServiceError RunRecords := do
  requireRunMutation role "complete"
  if d.certificate.isSome then .error (.integrity .uniqueViolation)
  else return { d with certificate := some (certificateOf o) }

/-- `save_artifact_metadata`. -/
def saveArtifactMetadata (role : Role) (m : OutputMetadata) (d : RunRecords) : Except ServiceError RunRecords := do
  requireRunMutation role "complete"
  if m.artifactType ∈ d.artifacts.map OutputMetadata.artifactType then .error (.integrity .uniqueViolation)
  else return { d with artifacts := d.artifacts ++ [m] }

def tallyMetadata (o : EngineOutput) : OutputMetadata where
  artifactType := "tally_xml"
  filename := "untangle_tally_vouchers.xml"
  mediaType := "application/xml"
  sizeBytes := o.tallyXml.utf8ByteSize
  contentSha256 := sha256 o.tallyXml

def reportMetadata (o : EngineOutput) : OutputMetadata where
  artifactType := "report_json"
  filename := "untangle_report.json"
  mediaType := "application/json"
  sizeBytes := o.canonicalText.utf8ByteSize
  contentSha256 := o.reportSha256

/-- The hashes of the inputs and of the output, as `complete_run` is given them. -/
def hashesOf (inputs : RunHashes) (o : EngineOutput) : RunHashes :=
  { inputs with
    reconciliationHash := some o.reportSha256
    evidencePackId := o.evidencePackId
    evidencePackVersion := o.evidencePackVersion }

/-- The statements that complete a run that is under way. -/
def completionStatements (role : Role) (inputs : RunHashes) (o : EngineOutput) (now : Instant) :
    List (RunRecords → Except ServiceError RunRecords) :=
  [saveResult sha256 role o, saveInvestigations role o, saveCertificate role o,
    saveArtifactMetadata role (tallyMetadata sha256 o), saveArtifactMetadata role (reportMetadata o),
    appendAuditEvent role "run.completed"
      [("report_sha256", o.reportSha256), ("content_sha256", o.contentSha256)],
    completeRun role (hashesOf inputs o) now]

/-- Phase 3: its first statement locks the row. -/
def phase3 (role : Role) (inputs : RunHashes) (o : EngineOutput) (now : Instant) (crash : Nat → Option String)
    (d : RunRecords) : Except ServiceError RunRecords := do
  crashAt (raised crash) 0
  match d.row.val.status with
  | .completed =>
    if d.hashes.reconciliationHash ≠ some o.reportSha256 then .error .invalidRunState
    else if d.certificate.isNone then .error .invalidRunState
    else transaction (raised crash) 1 [] d
  | .failed => .error .invalidRunState
  | .aborted => .error .invalidRunState
  | .initiated => transaction (raised crash) 1 (completionStatements sha256 role inputs o now) d
  | .running => transaction (raised crash) 1 (completionStatements sha256 role inputs o now) d

end Completion

/-! ## Phase 1 -/

/-- The input files of a run. -/
structure Inputs where
  bank : UploadedFileMetadata
  recon : UploadedFileMetadata
  ledger : UploadedFileMetadata

def Inputs.hashes (inputs : Inputs) : RunHashes where
  bankStatementHash := some inputs.bank.sha256Checksum
  reconReportHash := some inputs.recon.sha256Checksum
  orderLedgerHash := some inputs.ledger.sha256Checksum

/-- What `create_run` inserts. -/
def created (now : Instant) : RunRecords where
  row := initiatedRun now

/-- Phase 1: its first statement creates the run. -/
def phase1 (role : Role) (inputs : Inputs) (now : Instant) (crash : Nat → Option String) :
    Except ServiceError RunRecords := do
  crashAt (raised crash) 0
  requireRunMutation role "create"
  transaction (raised crash) 1
    [saveUploadedFileMetadata role { inputs.bank with fileRole := "bank_statement", contentType := "text/csv" },
      saveUploadedFileMetadata role
        { inputs.recon with fileRole := "recon_report", contentType := "application/json" },
      saveUploadedFileMetadata role { inputs.ledger with fileRole := "order_ledger", contentType := "text/csv" },
      appendAuditEvent role "run.initiated"
        [("bank_hash", inputs.bank.sha256Checksum), ("recon_hash", inputs.recon.sha256Checksum)]]
    (created now)

/-! ## Operations on one run -/

/-- What may be done to a run that exists, by anyone who works on it. -/
inductive RunOperation
  | completeRun (role : Role) (hashes : RunHashes) (now : Instant)
  | failRun (role : Role) (code summary : String) (now : Instant)
  | recordFailure (role : Role) (code summary : String) (now : Instant)
  | phase3 (role : Role) (inputs : RunHashes) (o : EngineOutput) (now : Instant) (crash : Nat → Option String)

def attempt (sha256 : String → String) (d : RunRecords) : RunOperation → Except ServiceError RunRecords
  | .completeRun role hashes now => d.completeRun role hashes now
  | .failRun role code summary now => d.failRun role code summary now
  | .recordFailure role code summary now => d.recordFailure role code summary now
  | .phase3 role inputs o now crash => d.phase3 sha256 role inputs o now crash

/-- An operation is a transaction under the row lock: it is made, or the records stay as they are. -/
def step (sha256 : String → String) (d : RunRecords) (op : RunOperation) : RunRecords :=
  match d.attempt sha256 op with
  | .ok d' => d'
  | .error _ => d

end RunRecords

/-! ## The whole call -/

/-- What a call of `execute_reconciliation` leaves: the error that it raises, whether the recording of a failure
    failed in turn, and the runs that are committed. -/
structure Execution where
  raised : Option ServiceError
  recordingFailed : Bool
  runs : Dict Nat RunRecords

/-- The clocks that the transactions read. -/
structure Clocks where
  started : Instant
  completed : Instant
  failed : Instant

/-- A failure is recorded, and the error raised again. -/
def recordAndRaise (role : Role) (code summary : String) (now : Instant) (runId : Nat) (raised : ServiceError)
    (runs : Dict Nat RunRecords) : Execution :=
  match runs.get? runId with
  | none => ⟨some raised, true, runs⟩
  | some d =>
    match d.recordFailure role code summary now with
    | .error _ => ⟨some raised, true, runs⟩
    | .ok d' => ⟨some raised, false, runs.insert runId d'⟩

/-- Phases 2 and 3, on the runs that phase 1 left. -/
def finish (sha256 : String → String) (role : Role) (inputs : RunRecords.Inputs) (clocks : Clocks)
    (engine : Except String RunRecords.EngineOutput) (crash : Nat → Option String) (runId : Nat)
    (runs : Dict Nat RunRecords) : Execution :=
  match engine with
  | .error message =>
    recordAndRaise role "RECONCILIATION_FAILED"
      "The deterministic reconciliation engine could not process the input." clocks.failed runId
      (.exception message) runs
  | .ok o =>
    match runs.get? runId with
    | none => ⟨some .invalidRunState, false, runs⟩
    | some d =>
      match d.phase3 sha256 role inputs.hashes o clocks.completed crash with
      | .ok d' => ⟨none, false, runs.insert runId d'⟩
      | .error .invalidRunState => ⟨some .invalidRunState, false, runs⟩
      | .error e =>
        recordAndRaise role "PERSISTENCE_FAILURE" "The reconciliation output could not be persisted." clocks.failed
          runId e runs

/-- `execute_reconciliation` with a fresh run identifier: where phases 1 and 3 raise, and what the engine makes of the
    inputs. -/
def executeReconciliation (sha256 : String → String) (role : Role) (inputs : RunRecords.Inputs) (clocks : Clocks)
    (engine : Except String RunRecords.EngineOutput) (crash1 crash3 : Nat → Option String) (runId : Nat)
    (runs : Dict Nat RunRecords) : Execution :=
  match RunRecords.phase1 role inputs clocks.started crash1 with
  | .error e => ⟨some e, false, runs⟩
  | .ok d => finish sha256 role inputs clocks engine crash3 runId (runs.insert runId d)

end Untangle
