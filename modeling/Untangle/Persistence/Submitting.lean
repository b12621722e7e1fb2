import Untangle.Lib.Locks
import Untangle.Lib.Runs
import Untangle.Persistence.Storage

/-!
# `Persistence.Submitting` — calls of `submit_reconciliation_job`

Model of `submit_reconciliation_job` in `persistence/service.py`, with `get_idempotency_record` and
`save_idempotency_record`, as a machine in which any number of calls of one tenant run side by side. A step is one
read, one statement, one operation of the object store or the end of a transaction, and the steps of the calls come in
any order. What a transaction has written is seen by the others once it is committed; the insertion of a record locks
its key until then. A call's index stands for the job and the run that it creates.
-/

namespace Untangle

open Lib

/-! ## Calls -/

/-- `secrets.token_hex(8)`. -/
abbrev UploadToken := {token : String // token.toList.length = 16}

/-- What a caller hands in, and what is drawn at random for the call. -/
structure SubmitCall where
  idempotencyKey : Option String := none
  request : JobRequest
  uploadToken : UploadToken
  jobPublicId : String
  runPublicId : String

namespace SubmitCall

variable (sha : Sha256) (orgPublicId : String) (c : SubmitCall)

/-- `if idempotency_key:`. -/
def key? : Option String := truthy c.idempotencyKey

def stagedFile (fileRole filename : String) (bytes : Bytes) : String × Bytes :=
  (generateInputObjectKey orgPublicId c.uploadToken.val fileRole (hexText (sha.digest bytes)) filename, bytes)

/-- The objects that the call uploads. -/
def staged : List (String × Bytes) :=
  [c.stagedFile sha orgPublicId "bank_statement" c.request.bankFilename c.request.bankBytes,
    c.stagedFile sha orgPublicId "recon_report" c.request.reconFilename c.request.reconBytes,
    c.stagedFile sha orgPublicId "order_ledger" c.request.ledgerFilename c.request.ledgerBytes]

/-- `staged_keys`. -/
def stagedKeys : List String := (c.staged sha orgPublicId).map Prod.fst

/-- The response of a new job; the creation time is the database's. -/
def response (createdAt : String) : Json :=
  .obj [("job_id", .str c.jobPublicId), ("run_id", .str c.runPublicId), ("status", .str "queued"),
    ("stage", .str "queued"), ("created_at", .str createdAt),
    ("links", .obj [("status", .str ("/api/tenant/jobs/" ++ c.jobPublicId)),
      ("cancel", .str ("/api/tenant/jobs/" ++ c.jobPublicId ++ "/cancel")),
      ("run", .str ("/api/tenant/runs/" ++ c.runPublicId))])]

end SubmitCall

/-! ## Records -/

/-- A row of `idempotency_records`. -/
structure IdempotencyRow extends IdempotencyRecord where
  idempotencyKey : String
  jobId : Nat
  createdAt : Instant
  expiresAt : Instant

/-- `timedelta(hours=24)`, in microseconds. -/
def idempotencyTtl : ℤ := 24 * 3600 * 1000000

/-- `get_idempotency_record` on the row of the key. -/
def unexpired (now : Instant) (row : Option IdempotencyRow) : Option IdempotencyRow :=
  row.filter fun r => now ≤ r.expiresAt

/-- The row that `save_idempotency_record` is about to insert. -/
def SubmitCall.row (sha : Sha256) (c : SubmitCall) (key : String) (index : Nat) (response : Json) (now : Instant) :
    IdempotencyRow where
  toIdempotencyRecord := c.request.record sha response
  idempotencyKey := key
  jobId := index
  createdAt := now
  expiresAt := now + idempotencyTtl

/-! ## A call under way -/

inductive CallError
  | submission (error : SubmissionError)
  /-- Any other exception. -/
  | exception
deriving DecidableEq, Repr

/-- The response, its status code, and whether it is a replay. -/
abbrev CallOutcome := Except CallError (Json × Nat × Bool)

/-- How far a call has come. -/
inductive CallPhase
  | begun
  /-- So many of the files are stored. -/
  | uploading (stored : Nat)
  /-- In the transaction, after the second check. -/
  | creating
  /-- The run, the metadata of its files, the audit event and the job are inserted. -/
  | created (response : Json)
  /-- `save_idempotency_record` has read the clock, and the row of the key if that has expired. -/
  | looked (response : Json) (now : Instant) (expired : Option Nat)
  /-- Before the commit, with the row that is inserted if the call has a key. -/
  | inserted (response : Json) (row : Option IdempotencyRow)
  /-- The insertion violates the unique key. -/
  | conflicted
  /-- The transaction is over and `staged_keys` are deleted. -/
  | undoing (keys : List String) (outcome : CallOutcome)
  | finished (outcome : CallOutcome)
  | crashed

structure SubmitState where
  call : SubmitCall
  phase : CallPhase := .begun

/-- The keys that a call has locked. -/
def SubmitState.lockedKeys (c : SubmitState) : List String :=
  match c.phase with
  | .inserted _ (some row) => [row.idempotencyKey]
  | _ => []

/-- What a committed call leaves in the tables besides its record: the job with its run. -/
structure SubmittedJob where
  index : Nat
  call : SubmitCall
  response : Json
  record : Option IdempotencyRow

/-- The tables and the storage of the tenant, and the calls. -/
structure SubmitService where
  records : Dict String IdempotencyRow := Dict.empty
  jobs : List SubmittedJob := []
  storage : Files String Bytes := Dict.empty
  calls : List SubmitState := []

/-- The steps of a call. -/
inductive CallStep
  | check (now : Instant)
  | store (succeeds : Bool)
  | recheck (now : Instant)
  | create (createdAt : String)
  | look (now : Instant)
  | insert
  | readWinner
  | commit
  | delete (succeeds : Bool)
  /-- Something raises an exception. -/
  | fail
  | crash

inductive SubmitAction
  | begin (call : SubmitCall)
  | step (index : Nat) (step : CallStep)

namespace SubmitService

variable (sha : Sha256) (orgPublicId : String)

/-- The call goes on. -/
def goTo (s : SubmitService) (index : Nat) (c : SubmitState) (phase : CallPhase) : SubmitService :=
  { s with calls := s.calls.set index { c with phase := phase } }

/-- The call is given up: its transaction is rolled back, and what it uploaded is deleted. -/
def undo (s : SubmitService) (index : Nat) (c : SubmitState) (outcome : CallOutcome) : SubmitService :=
  s.goTo index c (.undoing (c.call.stagedKeys sha orgPublicId) outcome)

/-- Before anything is done: the order of the period, then the record of the key. -/
def firstCheck (s : SubmitService) (c : SubmitCall) (now : Instant) : Except SubmissionError (Option (Json × Nat)) :=
  match c.key? with
  | none => submissionAnswer sha none c.request
  | some key =>
    if c.request.Ordered ∧ 64 < key.toList.length then
      .error (.value "idempotency key must be at most 64 characters")
    else
      submissionAnswer sha ((unexpired now (s.records.get? key)).map IdempotencyRow.toIdempotencyRecord) c.request

def check (s : SubmitService) (index : Nat) (c : SubmitState) (now : Instant) : SubmitService :=
  match firstCheck sha s c.call now with
  | .error error => s.goTo index c (.finished (.error (.submission error)))
  | .ok (some (response, status)) => s.goTo index c (.finished (.ok (response, status, true)))
  | .ok none => s.goTo index c (.uploading 0)

/-- `store_bytes` of the next file; one that raises an exception can have stored it. -/
def store (s : SubmitService) (index : Nat) (c : SubmitState) (stored : Nat) (succeeds : Bool) : SubmitService :=
  match (c.call.staged sha orgPublicId).drop stored with
  | [] => s
  | (key, bytes) :: _ =>
    let s := { s with storage := s.storage.write key bytes }
    if succeeds then s.goTo index c (.uploading (stored + 1))
    else s.undo sha orgPublicId index c (.error .exception)

/-- What a record that is found in the transaction makes of the call. -/
def replayed (c : SubmitCall) (row : IdempotencyRow) : CallOutcome :=
  if row.requestHash ≠ c.request.requestHash sha then
    .error (.submission (.collision "Idempotency key reused with conflicting request payload"))
  else .ok (row.responseJson, row.responseStatusCode, true)

/-- The second check, in the transaction. -/
def recheck (s : SubmitService) (index : Nat) (c : SubmitState) (now : Instant) : SubmitService :=
  match c.call.key?.bind fun key => unexpired now (s.records.get? key) with
  | some row => s.undo sha orgPublicId index c (replayed sha c.call row)
  | none => s.goTo index c .creating

/-- The clock and the old row of the key. -/
def look (s : SubmitService) (index : Nat) (c : SubmitState) (response : Json) (now : Instant) : SubmitService :=
  match c.call.key? with
  | none => s.goTo index c (.inserted response none)
  | some key =>
    let old := s.records.get? key
    s.goTo index c
      (.looked response now (((old.filter fun row => row.expiresAt < now)).map IdempotencyRow.jobId))

/-- The old row is deleted if it had expired and is still there, and the new one is inserted. Both wait for whoever has
    locked the key. -/
def insert (s : SubmitService) (index : Nat) (c : SubmitState) (response : Json) (now : Instant)
    (expired : Option Nat) : SubmitService :=
  match c.call.key? with
  | none => s
  | some key =>
    if busy SubmitState.lockedKeys s.calls index key then s
    else if (s.records.get? key).all fun row => expired = some row.jobId then
      s.goTo index c (.inserted response (some (c.call.row sha key index response now)))
    else s.goTo index c .conflicted

/-- The row that has won the key. What was uploaded is deleted before a replay is raised, and again when it is
    caught. -/
def readWinner (s : SubmitService) (index : Nat) (c : SubmitState) : SubmitService :=
  match c.call.key?.bind s.records.get? with
  | none => s.undo sha orgPublicId index c (.error .exception)
  | some row =>
    match replayed sha c.call row with
    | .error error => s.undo sha orgPublicId index c (.error error)
    | .ok response =>
      s.goTo index c
        (.undoing (c.call.stagedKeys sha orgPublicId ++ c.call.stagedKeys sha orgPublicId) (.ok response))

def commit (s : SubmitService) (index : Nat) (c : SubmitState) (response : Json) (row : Option IdempotencyRow) :
    SubmitService :=
  { s with
    records := row.elim s.records fun r => s.records.insert r.idempotencyKey r
    jobs := s.jobs ++ [⟨index, c.call, response, row⟩]
    calls := s.calls.set index { c with phase := .finished (.ok (response, 202, false)) } }

/-- `delete_object` of the next key; what it raises is swallowed. -/
def delete (s : SubmitService) (index : Nat) (c : SubmitState) (keys : List String) (outcome : CallOutcome)
    (succeeds : Bool) : SubmitService :=
  match keys with
  | [] => s.goTo index c (.finished outcome)
  | key :: keys =>
    ({ s with storage := if succeeds then s.storage.unlink key else s.storage } : SubmitService).goTo index c
      (.undoing keys outcome)

/-- An exception before the upload, in the upload or in the transaction, up to the end of one that was for nothing. -/
def fail (s : SubmitService) (index : Nat) (c : SubmitState) : SubmitService :=
  match c.phase with
  | .begun => s.goTo index c (.finished (.error .exception))
  | .undoing _ (.error _) | .finished _ | .crashed => s
  | _ => s.undo sha orgPublicId index c (.error .exception)

/-- A step of a call; one that is not possible in its phase does nothing. -/
def perform (s : SubmitService) (index : Nat) (c : SubmitState) : CallStep → SubmitService
  | .check now =>
    match c.phase with
    | .begun => s.check sha index c now
    | _ => s
  | .store succeeds =>
    match c.phase with
    | .uploading stored => s.store sha orgPublicId index c stored succeeds
    | _ => s
  | .recheck now =>
    match c.phase with
    | .uploading stored =>
      if stored = (c.call.staged sha orgPublicId).length then s.recheck sha orgPublicId index c now else s
    | _ => s
  | .create createdAt =>
    match c.phase with
    | .creating => s.goTo index c (.created (c.call.response createdAt))
    | _ => s
  | .look now =>
    match c.phase with
    | .created response => s.look index c response now
    | _ => s
  | .insert =>
    match c.phase with
    | .looked response now expired => s.insert sha index c response now expired
    | _ => s
  | .readWinner =>
    match c.phase with
    | .conflicted => s.readWinner sha orgPublicId index c
    | _ => s
  | .commit =>
    match c.phase with
    | .inserted response row => s.commit index c response row
    | _ => s
  | .delete succeeds =>
    match c.phase with
    | .undoing keys outcome => s.delete index c keys outcome succeeds
    | _ => s
  | .fail => s.fail sha orgPublicId index c
  | .crash =>
    match c.phase with
    | .finished _ => s
    | _ => s.goTo index c .crashed

/-- A step of the machine. No two calls draw the same token. -/
def step (s : SubmitService) : SubmitAction → SubmitService
  | .begin call =>
    if s.calls.any fun c => c.call.uploadToken = call.uploadToken then s
    else { s with calls := s.calls ++ [{ call := call }] }
  | .step index step =>
    match s.calls[index]? with
    | none => s
    | some c => s.perform sha orgPublicId index c step

end SubmitService

end Untangle
