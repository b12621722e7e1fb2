import Untangle.Persistence.ControlPlane
import Untangle.Persistence.Storage

/-!
# `Persistence.Worker` — attempts at a job

Model of `_execute_claimed_job` in `persistence/worker.py`, with any number of workers that claim one job: what an
attempt publishes, its check for a cancellation, its completion transaction, the handlers of its exceptions, and the
clean-up of what it has published. A step is one transaction or one operation of the object store, and the steps of the
attempts and of a user's `request_job_cancellation` come in any order. The engine is a function of the inputs, so every
attempt publishes the same bytes. The copies that an attempt stages under keys with its own token are left out: no
other attempt has the token.
-/

namespace Untangle

open Lib

/-! ## What is published -/

structure ArtifactMetadata where
  artifactType : String
  filename : String
  mediaType : String
  sizeBytes : Nat
  contentSha256 : String
  objectKey : String
  lifecycleState : String := "active"
deriving DecidableEq, Repr

/-- A file to publish, with the record that the completion transaction saves of it. -/
structure ArtifactFile where
  metadata : ArtifactMetadata
  content : Bytes
deriving DecidableEq, Repr

def ArtifactFile.key (f : ArtifactFile) : String := f.metadata.objectKey

/-- The files of a run, in the order they are copied in. Each has a key of its own. -/
structure Publication where
  files : List ArtifactFile
  nodup : (files.map ArtifactFile.key).Nodup

/-- The three files of a run. -/
structure PublishedBytes where
  tallyBytes : Bytes
  canonicalBytes : Bytes
  certBytes : Bytes

/-- A file under its final key. -/
def artifactFile (sha : Sha256) (orgPublicId runPublicId artifactType filename mediaType ext : String)
    (content : Bytes) : ArtifactFile where
  metadata :=
    { artifactType
      filename
      mediaType
      sizeBytes := content.length
      contentSha256 := hexText (sha.digest content)
      objectKey := generateArtifactObjectKey orgPublicId runPublicId artifactType (hexText (sha.digest content)) ext }
  content

def artifactFiles (sha : Sha256) (orgPublicId runPublicId : String) (o : PublishedBytes) : List ArtifactFile :=
  [artifactFile sha orgPublicId runPublicId "tally_xml" "untangle_tally_vouchers.xml" "application/xml" "xml"
      o.tallyBytes,
    artifactFile sha orgPublicId runPublicId "report_json" "untangle_report.json" "application/json" "json"
      o.canonicalBytes,
    artifactFile sha orgPublicId runPublicId "certificate_json" "untangle_certificate.json" "application/json" "json"
      o.certBytes]

/-! ## Attempts -/

/-- How far an attempt has come. -/
inductive AttemptPhase
  | working
  /-- The check before the completion transaction has found no cancellation. -/
  | cleared
  | acknowledging
  /-- An exception handler is about to fail the job. -/
  | failing (code summary : String) (retryable : Bool)
  /-- The `finally` block, before it looks up who owns the keys. -/
  | finishing
  /-- The keys without an owner that are still to be deleted. -/
  | deleting (keys : List String)
  | stopped
deriving DecidableEq, Repr

structure Attempt where
  workerId : String
  attemptToken : String
  leaseGeneration : Nat
  /-- `promoted_final_keys`. -/
  promoted : List String := []
  phase : AttemptPhase := .working
deriving DecidableEq, Repr

/-- What leaves the `try` block. -/
inductive AttemptError
  | jobFencing
  | input (message : String)
  | exception (message : String)

/-- The `except` clauses. -/
def AttemptError.handler : AttemptError → AttemptPhase
  | .jobFencing => .finishing
  | .input message => .failing "INVALID_INPUT" message false
  | .exception message => .failing "EXECUTION_FAILURE" message true

/-- A refused completion transaction raises what refuses it. -/
def AttemptError.ofRefusal (message : String) : Refusal → AttemptError
  | .jobFencing => .jobFencing
  | _ => .exception message

/-- What becomes of a request to the database or to the object store: the other two end in an exception. -/
inductive Delivery
  | answered
  /-- It is carried out, and the answer is lost. -/
  | unanswered
  | undelivered
deriving DecidableEq, Repr

/-- The steps of an attempt. `message` is the text of the exception, where a step raises one. -/
inductive AttemptStep
  | heartbeat (leaseTime : ℤ)
  | transitionStage (newStage : JobStage)
  | revoke
  | raise (error : AttemptError)
  | promote (delivery : Delivery) (message : String)
  | checkCancellation
  | acknowledge (delivery : Delivery) (message : String)
  | commit (delivery : Delivery) (message : String)
  | fail (delivery : Delivery)
  | lookUp (answered : Bool)
  | delete (succeeds : Bool)
  | crash

/-- An attempt with the rows and the objects that its steps work on. -/
structure Scene where
  submission : Submission ArtifactMetadata
  storage : Files String Bytes
  attempt : Attempt

/-- The keys that the rows of artifact metadata record. -/
def Submission.recordedKeys (e : Submission ArtifactMetadata) : List String :=
  (e.result.getD []).map ArtifactMetadata.objectKey

namespace Attempt

/-- A statement with the attempt's token and generation. -/
def ask (a : Attempt) (statement : Statement ArtifactMetadata) (now : Instant) : Change ArtifactMetadata :=
  .attempt a.attemptToken a.leaseGeneration statement now

section Steps

variable (backend : Backend) (p : Publication) (now : Instant) (e : Submission ArtifactMetadata)
  (storage : Files String Bytes) (a : Attempt)

/-- `copy_object` of the next file to its final key. -/
def promote (delivery : Delivery) (message : String) : Scene :=
  match p.files.drop a.promoted.length with
  | [] => ⟨e, storage, a⟩
  | f :: _ =>
    match delivery with
    | .answered => ⟨e, storage.write f.key f.content, { a with promoted := a.promoted ++ [f.key] }⟩
    | .unanswered =>
      ⟨e, storage.write f.key f.content, { a with phase := (AttemptError.exception message).handler }⟩
    | .undelivered => ⟨e, storage, { a with phase := (AttemptError.exception message).handler }⟩

/-- The check before the completion transaction, once everything is copied. -/
def checkCancellation : Scene :=
  if a.promoted.length < p.files.length then ⟨e, storage, a⟩
  else if Untangle.checkJobCancellation backend a.attemptToken a.leaseGeneration e.job.val then
    ⟨e, storage, { a with phase := .acknowledging }⟩
  else ⟨e, storage, { a with phase := .cleared }⟩

def acknowledge (delivery : Delivery) (message : String) : Scene :=
  match delivery with
  | .answered => ⟨e.change backend (a.ask .cancelAck now), storage, { a with phase := .finishing }⟩
  | .unanswered =>
    ⟨e.change backend (a.ask .cancelAck now), storage, { a with phase := (AttemptError.exception message).handler }⟩
  | .undelivered => ⟨e, storage, { a with phase := (AttemptError.exception message).handler }⟩

/-- The completion transaction. -/
def commit (delivery : Delivery) (message : String) : Scene :=
  match delivery with
  | .undelivered => ⟨e, storage, { a with phase := (AttemptError.exception message).handler }⟩
  | delivery =>
    match e.tryChange backend (a.ask (.complete (p.files.map ArtifactFile.metadata)) now) with
    | .error refusal => ⟨e, storage, { a with phase := (AttemptError.ofRefusal message refusal).handler }⟩
    | .ok e' =>
      ⟨e', storage, { a with
        phase := if delivery = .answered then .finishing else (AttemptError.exception message).handler }⟩

/-- `fail_job` in a handler; what it raises leaves through the `finally` block. -/
def fail (code summary : String) (retryable : Bool) (delivery : Delivery) : Scene :=
  match delivery with
  | .undelivered => ⟨e, storage, { a with phase := .finishing }⟩
  | _ => ⟨e.change backend (a.ask (.fail code summary retryable) now), storage, { a with phase := .finishing }⟩

/-- The clean-up looks up which of its keys are recorded; where the look-up raises, nothing is deleted. -/
def lookUp (answered : Bool) : Scene :=
  if a.promoted = [] ∨ answered = false then ⟨e, storage, { a with phase := .stopped }⟩
  else ⟨e, storage, { a with phase := .deleting (a.promoted.filter fun key => key ∉ e.recordedKeys) }⟩

/-- `delete_object` of the next key; what it raises is swallowed. -/
def delete (keys : List String) (succeeds : Bool) : Scene :=
  match keys with
  | [] => ⟨e, storage, { a with phase := .stopped }⟩
  | key :: keys => ⟨e, if succeeds then storage.unlink key else storage, { a with phase := .deleting keys }⟩

/-- A step of an attempt; one that is not possible in its phase does nothing. The heartbeats come from a thread of their
    own. -/
def perform : AttemptStep → Scene
  | .heartbeat leaseTime => ⟨e.change backend (a.ask (.heartbeat a.workerId leaseTime) now), storage, a⟩
  | .crash => ⟨e, storage, { a with phase := .stopped }⟩
  | .transitionStage newStage =>
    if a.phase = .working then
      ⟨e.change backend (a.ask (.transitionStage a.workerId newStage) now), storage, a⟩
    else ⟨e, storage, a⟩
  | .revoke =>
    if a.phase = .working ∧ a.promoted = [] then
      ⟨e, storage, { a with
        phase := .failing "creator_membership_revoked"
          "Job creator no longer has active organisation membership" false }⟩
    else ⟨e, storage, a⟩
  | .raise error =>
    if a.phase = .working ∨ a.phase = .cleared then ⟨e, storage, { a with phase := error.handler }⟩
    else ⟨e, storage, a⟩
  | .promote delivery message => if a.phase = .working then a.promote p e storage delivery message else ⟨e, storage, a⟩
  | .checkCancellation => if a.phase = .working then a.checkCancellation backend p e storage else ⟨e, storage, a⟩
  | .acknowledge delivery message =>
    if a.phase = .acknowledging then a.acknowledge backend now e storage delivery message else ⟨e, storage, a⟩
  | .commit delivery message =>
    if a.phase = .cleared then a.commit backend p now e storage delivery message else ⟨e, storage, a⟩
  | .fail delivery =>
    match a.phase with
    | .failing code summary retryable => a.fail backend now e storage code summary retryable delivery
    | _ => ⟨e, storage, a⟩
  | .lookUp answered => if a.phase = .finishing then a.lookUp e storage answered else ⟨e, storage, a⟩
  | .delete succeeds =>
    match a.phase with
    | .deleting keys => a.delete e storage keys succeeds
    | _ => ⟨e, storage, a⟩

end Steps

end Attempt

/-! ## The job, its attempts and its users -/

/-- One job, whose number in the requests is 0. -/
structure JobExecution where
  submission : Submission ArtifactMetadata
  requests : List CancelRequest := []
  attempts : List Attempt := []
  storage : Files String Bytes := Dict.empty

inductive WorkerAction
  | claim (workerId attemptToken : String) (leaseTime : ℤ) (now : Instant)
  | attempt (index : Nat) (step : AttemptStep) (now : Instant)
  | readJob (principalId : Nat) (now : Instant)
  | readRun (request : Nat)
  | writeCancellation (request : Nat)

namespace JobExecution

/-- A job that was submitted and not claimed yet. -/
def initial (now : Instant) : JobExecution where
  submission := ControlPlane.submitted now

def claim (backend : Backend) (s : JobExecution) (workerId attemptToken : String) (leaseTime : ℤ) (now : Instant) :
    JobExecution :=
  match s.submission.tryChange backend (.claim workerId attemptToken leaseTime now) with
  | .error _ => s
  | .ok e =>
    { s with
      submission := e
      attempts := s.attempts ++
        [{ workerId := workerId, attemptToken := attemptToken, leaseGeneration := e.job.val.leaseGeneration }] }

/-- `request_job_cancellation` reads the job, then the run, and writes. -/
def readJob (s : JobExecution) (principalId : Nat) (now : Instant) : JobExecution :=
  if s.submission.job.val.status.terminal then s
  else
    { s with
      requests := s.requests ++
        [{ jobId := 0, principalId := principalId, now := now, queued := s.submission.job.val.status = .queued }] }

def readRun (s : JobExecution) (request : Nat) : JobExecution :=
  match s.requests[request]? with
  | none => s
  | some r =>
    { s with
      requests := s.requests.set request { r with runInitiated := some (s.submission.run.val.status = .initiated) } }

def writeCancellation (backend : Backend) (s : JobExecution) (request : Nat) : JobExecution :=
  match s.requests[request]? with
  | none => s
  | some r =>
    if r.queued ∧ r.runInitiated = none then s
    else
      { s with
        submission := s.submission.change backend (.cancel r)
        requests := s.requests.eraseIdx request }

def step (backend : Backend) (p : Publication) (s : JobExecution) : WorkerAction → JobExecution
  | .claim workerId attemptToken leaseTime now => s.claim backend workerId attemptToken leaseTime now
  | .attempt index step now =>
    match s.attempts[index]? with
    | none => s
    | some a =>
      let scene := a.perform backend p now s.submission s.storage step
      { s with
        submission := scene.submission
        storage := scene.storage
        attempts := s.attempts.set index scene.attempt }
  | .readJob principalId now => s.readJob principalId now
  | .readRun request => s.readRun request
  | .writeCancellation request => s.writeCancellation backend request

end JobExecution

end Untangle
