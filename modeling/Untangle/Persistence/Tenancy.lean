import Untangle.Lib.Noninterference
import Untangle.Persistence.Listing
import Untangle.Persistence.Run

/-!
# `Persistence.Tenancy` — the repositories of all tenants

Model of the repositories of runs, results, certificates, investigations, files, artifacts and audit events
(`persistence/repositories/`) on the tables that all organisations share, with `TenantContext` and
`insert_with_public_id_retry`. An operation runs in a unit of work: it is committed, or rolled back if it raises. What
hangs on a run is kept with its row, since the foreign keys bind it to a run of the same organisation. The surrogate ids
and the random tokens of the public ids are drawn for an operation from outside.
-/

namespace Untangle

open Lib

/-! ## The database -/

/-- `TenantContext`. -/
structure TenantContext where
  organisationId : ℤ
  principalId : ℤ
  role : Role
  requestId : String := ""
  organisation_pos : 0 < organisationId
  principal_pos : 0 < principalId

/-- A row of `reconciliation_runs`, with what hangs on it. -/
structure StoredRun where
  publicId : String
  createdByPrincipalId : ℤ
  configJson : String
  isDeleted : Bool := false
  deletedAt : Option Instant := none
  legalHold : Bool := false
  records : RunRecords
  certificatePublicId : Option String := none

/-- A row of `audit_events`. -/
structure StoredEvent where
  publicId : String
  actorPrincipalId : ℤ
  eventType : String
  subjectType : String
  subjectPublicId : String
  requestId : Option String
  metadata : Json

/-- A table with its primary key. -/
structure RunTable where
  rows : List (TenantRow StoredRun) := []
  nodup : (rows.map TenantRow.id).Nodup := by exact List.nodup_nil

namespace RunTable

def insert (table : RunTable) (row : TenantRow StoredRun) (h : row.id ∉ table.rows.map TenantRow.id) : RunTable where
  rows := table.rows ++ [row]
  nodup := by
    rw [List.map_append]
    exact List.Nodup.append table.nodup (List.nodup_singleton _) (List.disjoint_singleton.mpr h)

/-- Write a row of an organisation. -/
def update (table : RunTable) (organisationId runId : ℤ) (f : StoredRun → StoredRun) : RunTable where
  rows := table.rows.map fun r =>
    if r.organisationId = organisationId ∧ r.id = runId then { r with columns := f r.columns } else r
  nodup := by
    rw [List.map_map]
    refine (congrArg List.Nodup (List.map_congr_left fun r _ => ?_)).mpr table.nodup
    dsimp only [Function.comp]
    split <;> rfl

end RunTable

/-- The tables of all organisations, and the public ids that are taken. -/
structure TenantDatabase where
  runs : RunTable := {}
  events : List (TenantRow StoredEvent) := []
  publicIds : List String := []

/-- `secrets.token_hex(16)`. -/
abbrev PublicToken := {token : String // token.toList.length = 32}

/-- A token, and the surrogate ids of a row for the case that it is of one of the two tables. -/
structure Draw where
  runId : ℤ
  eventId : ℤ
  token : PublicToken
deriving DecidableEq

/-- The database as an operation sees it, and the draws that are left for it. -/
structure TenantSession where
  database : TenantDatabase
  draws : List Draw

inductive RepositoryError
  | service (error : ServiceError)
  /-- `RecordNotFoundError`. -/
  | recordNotFound
  /-- `RunUnderLegalHoldError`. -/
  | underLegalHold
  | primaryKey
  | foreignKey
  /-- `PublicIdCollisionError`. -/
  | publicIdCollision
  | listing (error : ListingError)
  /-- No draw is left. -/
  | noDraw
deriving DecidableEq, Repr

abbrev TenantTx (α : Type) : Type := Tx TenantSession RepositoryError α

/-- What names a run. -/
inductive RunKey
  | id (runId : ℤ)
  | publicId (publicId : String)
deriving DecidableEq, Repr

def RunKey.matches (key : RunKey) (r : TenantRow StoredRun) : Bool :=
  match key with
  | .id runId => r.id = runId
  | .publicId named => r.columns.publicId = named

namespace TenantContext

variable (context : TenantContext)

/-! ## Statements -/

/-- `require_run_mutation`. -/
def require (action : String) : TenantTx Unit :=
  liftM ((requireRunMutation context.role action).mapError RepositoryError.service)

/-- The organisation's rows of `reconciliation_runs`. -/
def allRuns : TenantTx (List (TenantRow StoredRun)) :=
  ask fun s => scopedSelect context.organisationId s.database.runs.rows

/-- `scoped_select(ReconciliationRun, context)`: those that are not deleted. -/
def selectRuns : TenantTx (List (TenantRow StoredRun)) := do
  return (← context.allRuns).filter fun r => !r.columns.isDeleted

/-- `scoped_select(AuditEvent, context)`. -/
def selectEvents : TenantTx (List (TenantRow StoredEvent)) :=
  ask fun s => scopedSelect context.organisationId s.database.events

/-- `max_retries`. -/
def maxRetries : Nat := 3

/-- What an insertion makes of the database. -/
abbrev Insertion : Type := Draw → String → TenantDatabase → Except RepositoryError TenantDatabase

/-- `insert_with_public_id_retry`: a savepoint is rolled back, and the insertion retried, if the public id is taken. -/
def insertWithPublicIdRetry (idPrefix : String) (insert : Insertion) : Nat → TenantTx (Draw × String)
  | 0 => throw .publicIdCollision
  | attempts + 1 => do
    match ← ask TenantSession.draws with
    | [] => throw .noDraw
    | draw :: draws =>
      modify fun s => { s with draws := draws }
      let publicId := idPrefix ++ draw.token.val
      let database ← ask TenantSession.database
      if publicId ∈ database.publicIds then insertWithPublicIdRetry idPrefix insert attempts
      else
        let inserted ← liftM (insert draw publicId database)
        modify fun s => { s with database := { inserted with publicIds := database.publicIds ++ [publicId] } }
        return (draw, publicId)

/-- Write a row that is locked. -/
def updateRun (runId : ℤ) (f : StoredRun → StoredRun) : TenantTx Unit :=
  modify fun s => { s with database.runs := s.database.runs.update context.organisationId runId f }

/-! ## Runs -/

/-- The row that `create_run` inserts. -/
def createdRun (configJson : String) (now : Timestamp) (publicId : String) : StoredRun where
  publicId := publicId
  createdByPrincipalId := context.principalId
  configJson := configJson
  records := .created now.instant

def insertRun (configJson : String) (now : Timestamp) : Insertion := fun draw publicId database =>
  let row : TenantRow StoredRun :=
    ⟨draw.runId, context.organisationId, now, context.createdRun configJson now publicId⟩
  if h : row.id ∉ database.runs.rows.map TenantRow.id then .ok { database with runs := database.runs.insert row h }
  else .error .primaryKey

/-- `create_run`. -/
def createRun (configJson : String) (startedAt : Option Timestamp) (now : Timestamp) : TenantTx (TenantRow StoredRun) := do
  context.require "create"
  let now := startedAt.getD now
  let (draw, publicId) ← insertWithPublicIdRetry "run_" (context.insertRun configJson now) maxRetries
  return ⟨draw.runId, context.organisationId, now, context.createdRun configJson now publicId⟩

/-- `get_run_by_id`, `get_run_by_public_id` and `lock_run_for_update`. -/
def findRun (key : RunKey) : TenantTx (Option (TenantRow StoredRun)) := do
  return (← context.selectRuns).find? key.matches

/-- `list_runs`. -/
def listRuns (limit offset : Nat) : TenantTx (List (TenantRow StoredRun)) := do
  let rows := (← context.selectRuns).insertionSort fun a b =>
    b.columns.records.row.val.startedAt ≤ a.columns.records.row.val.startedAt
  return (rows.drop offset).take limit

/-- `list_runs_cursor`. -/
def listRunsCursor (limit : Nat) (cursor : Option String) : TenantTx (List (TenantRow StoredRun) × Option String) := do
  let rows ← context.selectRuns
  liftM ((listByCursor rows limit cursor).mapError RepositoryError.listing)

/-- A change of the records of a run that is locked. -/
def changeRun (runId : ℤ) (f : RunRecords → Except ServiceError RunRecords) : TenantTx Unit := do
  match ← context.findRun (.id runId) with
  | none => throw .recordNotFound
  | some run =>
    let records ← liftM ((f run.columns.records).mapError RepositoryError.service)
    context.updateRun runId fun columns => { columns with records := records }

/-- `complete_run`. -/
def completeRun (runId : ℤ) (hashes : RunHashes) (completedAt : Instant) : TenantTx Unit := do
  context.require "complete"
  context.changeRun runId (RunRecords.completeRun context.role hashes completedAt)

/-- `fail_run`. -/
def failRun (runId : ℤ) (code summary : String) (failedAt : Instant) : TenantTx Unit := do
  context.require "fail"
  context.changeRun runId (RunRecords.failRun context.role code summary failedAt)

/-! ## Audit events -/

def insertEvent (now : Timestamp) (event : String → StoredEvent) : Insertion := fun draw publicId database =>
  .ok { database with events := database.events ++ [⟨draw.eventId, context.organisationId, now, event publicId⟩] }

/-- `append_audit_event`. -/
def appendAuditEvent (eventType subjectType subjectPublicId : String) (metadata : Json)
    (requestId : Option String) (now : Timestamp) : TenantTx Unit := do
  match RunRecords.actionOf eventType with
  | none => throw (.service .unsupportedEvent)
  | some action =>
    context.require action
    let requestId := truthy (some (requestId.getD context.requestId))
    let event (publicId : String) : StoredEvent :=
      { publicId := publicId, actorPrincipalId := context.principalId, eventType := eventType,
        subjectType := subjectType, subjectPublicId := subjectPublicId, requestId := requestId, metadata := metadata }
    let _ ← insertWithPublicIdRetry "aud_" (context.insertEvent now event) maxRetries

/-- `list_audit_events`. -/
def listAuditEvents (limit offset : Nat) : TenantTx (List (TenantRow StoredEvent)) := do
  let rows := (← context.selectEvents).insertionSort fun a b => b.createdAt.instant ≤ a.createdAt.instant
  return (rows.drop offset).take limit

/-- `soft_delete_run`. -/
def softDeleteRun (publicId : String) (now : Timestamp) : TenantTx Bool := do
  context.require "delete"
  match ← context.findRun (.publicId publicId) with
  | none => return false
  | some run =>
    if run.columns.legalHold then throw .underLegalHold
    else
      context.updateRun run.id fun columns => { columns with isDeleted := true, deletedAt := some now.instant }
      context.appendAuditEvent "run.deleted" "reconciliation_run" run.columns.publicId
        (.obj [("deleted_at", .str now.isoformat)]) none now
      return true

/-- `set_run_legal_hold`. -/
def setRunLegalHold (publicId : String) (legalHold : Bool) (now : Timestamp) : TenantTx Unit := do
  context.require "legal_hold"
  match ← context.findRun (.publicId publicId) with
  | none => throw .recordNotFound
  | some run =>
    context.updateRun run.id fun columns => { columns with legalHold := legalHold }
    context.appendAuditEvent (if legalHold then "run.legal_hold_placed" else "run.legal_hold_released")
      "reconciliation_run" run.columns.publicId (.obj [("legal_hold", .bool legalHold)]) none now

/-! ## What hangs on a run -/

/-- The insertion of a record for a run, which may be deleted: the foreign key is on its organisation and its id. -/
def insertRecord (runId : ℤ) (f : String → StoredRun → Except ServiceError StoredRun) : Insertion :=
  fun _ publicId database =>
    match (scopedSelect context.organisationId database.runs.rows).find? fun r => r.id = runId with
    | none => .error .foreignKey
    | some run =>
      match f publicId run.columns with
      | .error error => .error (.service error)
      | .ok columns =>
        .ok { database with runs := database.runs.update context.organisationId runId fun _ => columns }

/-- The same for a record of the run's. -/
def saveRecord (idPrefix : String) (runId : ℤ) (f : RunRecords → Except ServiceError RunRecords) : TenantTx Unit := do
  let insert := context.insertRecord runId fun _ columns =>
    (f columns.records).map fun records => { columns with records := records }
  let _ ← insertWithPublicIdRetry idPrefix insert maxRetries

/-- The records of a run, if there is one. -/
def recordsOf (runId : ℤ) : TenantTx (Option StoredRun) := do
  return ((← context.allRuns).find? fun r => r.id = runId).map TenantRow.columns

variable (sha256 : String → String)

/-- `save_result`. -/
def saveResult (runId : ℤ) (o : RunRecords.EngineOutput) : TenantTx Unit := do
  context.require "complete"
  if sha256 o.canonicalText ≠ o.reportSha256 then throw (.service .resultIntegrity)
  else context.saveRecord "res_" runId (RunRecords.saveResult sha256 context.role o)

/-- `save_certificate`. -/
def saveCertificate (runId : ℤ) (o : RunRecords.EngineOutput) : TenantTx Unit := do
  context.require "complete"
  let insert := context.insertRecord runId fun publicId columns =>
    (RunRecords.saveCertificate context.role o columns.records).map fun records =>
      { columns with records := records, certificatePublicId := some publicId }
  let _ ← insertWithPublicIdRetry "cert_" insert maxRetries

/-- `save_investigations`, of a case after the other. -/
def saveInvestigations (runId : ℤ) (o : RunRecords.EngineOutput) : TenantTx Unit := do
  context.require "complete"
  o.investigations.forM fun case =>
    context.saveRecord "inv_" runId (RunRecords.saveInvestigations context.role { o with investigations := [case] })

/-- `save_uploaded_file_metadata`. -/
def saveUploadedFileMetadata (runId : ℤ) (file : UploadedFileMetadata) : TenantTx Unit := do
  context.require "create"
  context.saveRecord "file_" runId (RunRecords.saveUploadedFileMetadata context.role file)

/-- `save_artifact_metadata`. -/
def saveArtifactMetadata (runId : ℤ) (m : OutputMetadata) : TenantTx Unit := do
  context.require "complete"
  context.saveRecord "art_" runId (RunRecords.saveArtifactMetadata context.role m)

end TenantContext

/-! ## Operations -/

inductive TenantOperation
  | createRun (configJson : String) (startedAt : Option Timestamp)
  | getRun (key : RunKey)
  | listRuns (limit offset : Nat)
  | listRunsCursor (limit : Nat) (cursor : Option String)
  | completeRun (runId : ℤ) (hashes : RunHashes) (completedAt : Option Instant)
  | failRun (runId : ℤ) (code summary : String) (failedAt : Option Instant)
  | softDeleteRun (publicId : String)
  | setRunLegalHold (publicId : String) (legalHold : Bool)
  | saveResult (runId : ℤ) (o : RunRecords.EngineOutput)
  | getResult (runId : ℤ)
  | saveCertificate (runId : ℤ) (o : RunRecords.EngineOutput)
  | getCertificate (runId : ℤ)
  | getCertificateByPublicId (publicId : String)
  | saveInvestigations (runId : ℤ) (o : RunRecords.EngineOutput)
  | listInvestigations (runId : ℤ)
  | saveUploadedFile (runId : ℤ) (file : UploadedFileMetadata)
  | listUploadedFiles (runId : ℤ)
  | saveArtifact (runId : ℤ) (m : OutputMetadata)
  | listArtifacts (runId : ℤ)
  | getArtifactByType (runId : ℤ) (artifactType : String)
  | appendAuditEvent (eventType subjectType subjectPublicId : String) (metadata : Json)
      (requestId : Option String)
  | listAuditEvents (limit offset : Nat)

inductive TenantAnswer
  | done
  | flag (b : Bool)
  | run (row : Option (TenantRow StoredRun))
  | runs (rows : List (TenantRow StoredRun))
  | page (rows : List (TenantRow StoredRun)) (nextCursor : Option String)
  | result (row : Option ReconciliationResultRow)
  | certificate (row : Option CertificateRecord)
  | investigations (rows : List InvestigationRecord)
  | files (rows : List UploadedFileMetadata)
  | artifacts (rows : List OutputMetadata)
  | artifact (row : Option OutputMetadata)
  | events (rows : List (TenantRow StoredEvent))

/-- An operation in the context of its caller, at a time and with the draws for it. -/
structure TenantAction where
  context : TenantContext
  operation : TenantOperation
  now : Timestamp
  draws : List Draw := []

namespace TenantAction

variable (sha256 : String → String)

def program (a : TenantAction) : TenantTx TenantAnswer :=
  match a.operation with
  | .createRun configJson startedAt => do
    return .run (some (← a.context.createRun configJson startedAt a.now))
  | .getRun key => do return .run (← a.context.findRun key)
  | .listRuns limit offset => do return .runs (← a.context.listRuns limit offset)
  | .listRunsCursor limit cursor => do
    let (rows, nextCursor) ← a.context.listRunsCursor limit cursor
    return .page rows nextCursor
  | .completeRun runId hashes completedAt => do
    a.context.completeRun runId hashes (completedAt.getD a.now.instant)
    return .run (← a.context.findRun (.id runId))
  | .failRun runId code summary failedAt => do
    a.context.failRun runId code summary (failedAt.getD a.now.instant)
    return .run (← a.context.findRun (.id runId))
  | .softDeleteRun publicId => do return .flag (← a.context.softDeleteRun publicId a.now)
  | .setRunLegalHold publicId legalHold => do
    a.context.setRunLegalHold publicId legalHold a.now
    return .run (← a.context.findRun (.publicId publicId))
  | .saveResult runId o => do
    a.context.saveResult sha256 runId o
    return .done
  | .getResult runId => do return .result ((← a.context.recordsOf runId).bind fun r => r.records.result)
  | .saveCertificate runId o => do
    a.context.saveCertificate runId o
    return .done
  | .getCertificate runId => do
    return .certificate ((← a.context.recordsOf runId).bind fun r => r.records.certificate)
  | .getCertificateByPublicId publicId => do
    let run := (← a.context.allRuns).find? fun r => r.columns.certificatePublicId = some publicId
    return .certificate (run.bind fun r => r.columns.records.certificate)
  | .saveInvestigations runId o => do
    a.context.saveInvestigations runId o
    return .done
  | .listInvestigations runId => do
    return .investigations (((← a.context.recordsOf runId).map fun r => r.records.investigations).getD [])
  | .saveUploadedFile runId file => do
    a.context.saveUploadedFileMetadata runId file
    return .done
  | .listUploadedFiles runId => do
    return .files (((← a.context.recordsOf runId).map fun r => r.records.files).getD [])
  | .saveArtifact runId m => do
    a.context.saveArtifactMetadata runId m
    return .done
  | .listArtifacts runId => do
    return .artifacts (((← a.context.recordsOf runId).map fun r => r.records.artifacts).getD [])
  | .getArtifactByType runId artifactType => do
    let artifacts := ((← a.context.recordsOf runId).map fun r => r.records.artifacts).getD []
    return .artifact (artifacts.find? fun m => m.artifactType = artifactType)
  | .appendAuditEvent eventType subjectType subjectPublicId metadata requestId => do
    a.context.appendAuditEvent eventType subjectType subjectPublicId metadata requestId a.now
    return .done
  | .listAuditEvents limit offset => do return .events (← a.context.listAuditEvents limit offset)

/-- The unit of work: it commits, or rolls back what raises. -/
def perform (a : TenantAction) (database : TenantDatabase) :
    Except RepositoryError TenantAnswer × TenantDatabase :=
  match (a.program sha256).run ⟨database, a.draws⟩ with
  | .ok (answer, s) => (.ok answer, s.database)
  | .error error => (.error error, database)

/-- The organisation that an action is for. -/
def organisation (a : TenantAction) : ℤ := a.context.organisationId

end TenantAction

end Untangle
