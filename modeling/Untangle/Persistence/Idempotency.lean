import Untangle.Engine.Format
import Untangle.Engine.Text
import Untangle.Lib.JsonText
import Untangle.Persistence.Run

/-!
# `Persistence.Idempotency` — idempotent submission of a job

Model of `persistence/repositories/idempotency.py` and of the part of `submit_reconciliation_job` that decides what a
request becomes: the digest it is recognised by, the answer where the key has a record, and the fields of the run and
the file metadata that it leaves otherwise. Bytes are lists of bytes, and SHA-256 and the table of printable characters
are parameters.
-/

namespace Untangle

open Lib

/-! ## Requests -/

/-- A date of the calendar. -/
abbrev CalendarDate := {d : Date // InCalendar d}

/-- What a caller hands to `submit_reconciliation_job` besides the key. -/
structure JobRequest where
  bankBytes : List UInt8
  reconBytes : List UInt8
  ledgerBytes : List UInt8
  bankFilename : String := "bank_statement.csv"
  reconFilename : String := "recon_report.json"
  ledgerFilename : String := "order_ledger.csv"
  reportingPeriodStart : Option CalendarDate := none
  reportingPeriodEnd : Option CalendarDate := none
  engineVersion : Option String := none
  schemaVersion : Option String := some "1.0.0"
  rulePackId : Option String := none
  rulePackVersion : Option String := none
  bankAdapterId : Option String := none
  bankAdapterVersion : Option String := none

/-- `ENGINE_VERSION`. -/
def currentEngineVersion : String := "1.2.0"

namespace JobRequest

/-- The version that the run is recorded with. -/
def recordedEngineVersion (q : JobRequest) : String := q.engineVersion.getD currentEngineVersion

/-- The period does not end before it starts. -/
def Ordered (q : JobRequest) : Prop :=
  ∀ start ∈ q.reportingPeriodStart, ∀ finish ∈ q.reportingPeriodEnd, start.1 ≤ finish.1

instance (q : JobRequest) : Decidable q.Ordered := inferInstanceAs (Decidable (∀ _ ∈ _, _))

end JobRequest

/-! ## The request hash -/

/-- SHA-256 on bytes. -/
structure Sha256 where
  digest : List UInt8 → List UInt8
  length_digest : ∀ bytes, (digest bytes).length = 32

/-- `text.encode("utf-8")`. -/
def encodeUtf8 (text : String) : List UInt8 := text.toUTF8.data.toList

/-- `bytes.hex()`. -/
def hexText (bytes : List UInt8) : String :=
  String.ofList (bytes.flatMap fun b => [Nat.digitChar (b.toNat / 16), Nat.digitChar (b.toNat % 16)])

def optionalText : Option String → Json
  | none => .null
  | some text => .str text

namespace JobRequest

variable (q : JobRequest)

/-- `extra_params`. -/
def extraParams : List (String × Json) :=
  [("period_start", optionalText (q.reportingPeriodStart.map fun d => isoDate d.1)),
    ("period_end", optionalText (q.reportingPeriodEnd.map fun d => isoDate d.1)),
    ("rule_pack_id", optionalText q.rulePackId),
    ("bank_adapter_id", optionalText q.bankAdapterId)]

end JobRequest

section Hash

variable (sha : Sha256)

/-- What `compute_request_hash` feeds to the hash; no parameter is a float. -/
def requestPreimage (bankBytes reconBytes ledgerBytes : List UInt8) (extraParams : List (String × Json)) :
    List UInt8 :=
  encodeUtf8 "BANK:" ++ (sha.digest bankBytes ++ (encodeUtf8 "RECON:" ++ (sha.digest reconBytes ++
    (encodeUtf8 "LEDGER:" ++ (sha.digest ledgerBytes ++
      (if extraParams.isEmpty then []
      else encodeUtf8 "PARAMS:" ++ encodeUtf8 (Json.canonicalText (fun _ => "") (.obj extraParams))))))))

def computeRequestHash (bankBytes reconBytes ledgerBytes : List UInt8) (extraParams : List (String × Json)) : String :=
  hexText (sha.digest (requestPreimage sha bankBytes reconBytes ledgerBytes extraParams))

def JobRequest.requestHash (q : JobRequest) : String :=
  computeRequestHash sha q.bankBytes q.reconBytes q.ledgerBytes q.extraParams

end Hash

/-! ## The record of a key -/

/-- What is kept for an idempotency key. -/
structure IdempotencyRecord where
  requestHash : String
  responseStatusCode : Nat
  responseJson : Json

inductive SubmissionError
  | value (message : String)
  | collision (message : String)
deriving DecidableEq, Repr

/-- `IdempotencyCollisionError` of the first check. -/
def conflictingRequest : SubmissionError :=
  .collision "Idempotency key reused with conflicting request payload or parameters"

/-- The start of `submit_reconciliation_job`, with the unexpired record of its key: a refusal, the recorded response, or
    `none` to go on. -/
def submissionAnswer (sha : Sha256) (existing : Option IdempotencyRecord) (q : JobRequest) :
    Except SubmissionError (Option (Json × Nat)) :=
  if ¬ q.Ordered then
    .error (.value ("reporting_period_start (" ++ ((q.reportingPeriodStart.map fun d => isoDate d.1).getD "None") ++
      ") cannot be after reporting_period_end (" ++ ((q.reportingPeriodEnd.map fun d => isoDate d.1).getD "None") ++
      ")"))
  else
    match existing with
    | none => .ok none
    | some record =>
      if record.requestHash ≠ q.requestHash sha then .error conflictingRequest
      else .ok (some (record.responseJson, record.responseStatusCode))

/-! ## What a new run records -/

/-- The run of an accepted request and the metadata of its files. -/
structure SubmittedRun where
  reportingPeriodStart : Option CalendarDate
  reportingPeriodEnd : Option CalendarDate
  engineVersion : String
  schemaVersion : Option String
  rulePackId : Option String
  rulePackVersion : Option String
  bankAdapterId : Option String
  bankAdapterVersion : Option String
  hashes : RunHashes
  files : List UploadedFileMetadata
deriving DecidableEq

/-- Control characters are dropped from a file name, and its length is limited. -/
def cleanFilename (isPrintable : Char → Bool) (filename : String) : String :=
  (truthy (some (String.ofList ((filename.toList.filter isPrintable).take 255)))).getD "unnamed_file"

section Persisted

variable (sha : Sha256) (isPrintable : Char → Bool)

def fileMetadata (role filename contentType : String) (bytes : List UInt8) : UploadedFileMetadata where
  fileRole := role
  originalFilename := cleanFilename isPrintable filename
  contentType := contentType
  sizeBytes := bytes.length
  sha256Checksum := hexText (sha.digest bytes)

/-- What `submit_reconciliation_job` records of a request. -/
def JobRequest.submittedRun (q : JobRequest) : SubmittedRun where
  reportingPeriodStart := q.reportingPeriodStart
  reportingPeriodEnd := q.reportingPeriodEnd
  engineVersion := q.recordedEngineVersion
  schemaVersion := q.schemaVersion
  rulePackId := q.rulePackId
  rulePackVersion := q.rulePackVersion
  bankAdapterId := q.bankAdapterId
  bankAdapterVersion := q.bankAdapterVersion
  hashes :=
    { bankStatementHash := some (hexText (sha.digest q.bankBytes))
      reconReportHash := some (hexText (sha.digest q.reconBytes))
      orderLedgerHash := some (hexText (sha.digest q.ledgerBytes)) }
  files :=
    [fileMetadata sha isPrintable "bank_statement" q.bankFilename "text/csv" q.bankBytes,
      fileMetadata sha isPrintable "recon_report" q.reconFilename "application/json" q.reconBytes,
      fileMetadata sha isPrintable "order_ledger" q.ledgerFilename "text/csv" q.ledgerBytes]

/-- The record that an accepted request leaves for its key. -/
def JobRequest.record (q : JobRequest) (responseJson : Json) : IdempotencyRecord where
  requestHash := q.requestHash sha
  responseStatusCode := 202
  responseJson := responseJson

end Persisted

end Untangle
