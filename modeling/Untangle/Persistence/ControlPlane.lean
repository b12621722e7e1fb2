import Mathlib.Data.List.Sort
import Untangle.Lib.Runs
import Untangle.Persistence.Job

/-!
# `Persistence.ControlPlane` — workers and users on the job table

The machine whose steps are the statements of the job repository, issued by any client at any time with any token:
`submit_reconciliation_job`, the claims, an attempt's statements, the completion transaction, and a user's
`request_job_cancellation`. That one reads the job, then the job's run if the job is queued, both without a lock, and
writes later by identifier; what it has read stands in `CancelRequest` until then. A statement that matches no row, or
is refused, changes nothing. What a worker does in order stands in `Persistence.Worker`.
-/

namespace Untangle

open Lib

/-- A cancellation between its reads and its write. -/
structure CancelRequest where
  jobId : Nat
  principalId : Nat
  now : Instant
  /-- The status that was read is `queued`; otherwise it is `running`. -/
  queued : Bool
  /-- The run has been read, as initiated or not. -/
  runInitiated : Option Bool := none
deriving DecidableEq, Repr

/-- What a cancellation sets on the job. -/
def ReconciliationJob.afterCancellation (j : ReconciliationJob) (r : CancelRequest) : ReconciliationJob :=
  let j := { j with
    isCancelled := true
    cancelledAt := some r.now
    cancelledByPrincipalId := some r.principalId
    updatedAt := r.now }
  if r.queued then { j with status := .cancelled, stage := .completed } else j

/-- What a cancellation sets on the run. -/
def ReconciliationRun.afterCancellation (run : ReconciliationRun) (r : CancelRequest) : ReconciliationRun :=
  if r.queued ∧ r.runInitiated = some true then
    { run with
      status := .failed
      errorCode := some "job_cancelled"
      errorSummary := some "Reconciliation job was cancelled by user before execution"
      failedAt := some r.now }
  else run

namespace Submission

variable {Artifact : Type}

/-- The write of `request_job_cancellation`. -/
def cancel (r : CancelRequest) (e : Submission Artifact) : Except Refusal (Submission Artifact) := do
  let run ← storeRun (e.run.val.afterCancellation r)
  let job ← storeJob (e.job.val.afterCancellation r)
  return { e with job := job, run := run }

end Submission

/-! ## Changes of one submission -/

/-- What an attempt can ask for, with the token and the generation that it was given. -/
inductive Statement (Artifact : Type)
  | heartbeat (workerId : String) (leaseTime : ℤ)
  | transitionStage (workerId : String) (newStage : JobStage)
  | fail (code summary : String) (retryable : Bool)
  | cancelAck
  | complete (artifacts : List Artifact)

/-- What can be done to a submission, by whoever does it. -/
inductive Change (Artifact : Type)
  | claim (workerId attemptToken : String) (leaseTime : ℤ) (now : Instant)
  | attempt (attemptToken : String) (leaseGeneration : Nat) (statement : Statement Artifact) (now : Instant)
  | cancel (request : CancelRequest)

namespace Submission

variable {Artifact : Type}

def execute (backend : Backend) (token : String) (generation : Nat) (now : Instant) (e : Submission Artifact) :
    Statement Artifact → Except Refusal (Submission Artifact)
  | .heartbeat workerId leaseTime => e.withJob (heartbeatJob backend workerId token generation leaseTime now e.job)
  | .transitionStage workerId newStage =>
    e.withJob (transitionJobStage backend workerId token generation newStage now e.job)
  | .fail code summary retryable => e.failJob backend token generation code summary retryable now
  | .cancelAck => e.cancelAckJob backend token generation now
  | .complete artifacts => e.complete token generation artifacts now

/-- What comes of a change. -/
def tryChange (backend : Backend) (e : Submission Artifact) : Change Artifact → Except Refusal (Submission Artifact)
  | .claim workerId token leaseTime now => e.withJob (claimJob backend workerId token leaseTime now e.job)
  | .attempt token generation statement now => e.execute backend token generation now statement
  | .cancel request => e.cancel request

/-- The submission after a change; one that is refused is rolled back. -/
def change (backend : Backend) (e : Submission Artifact) (c : Change Artifact) : Submission Artifact :=
  (e.tryChange backend c).toOption.getD e

end Submission

/-! ## The table -/

structure ControlPlane (Artifact : Type) where
  submissions : Dict Nat (Submission Artifact) := Dict.empty
  requests : List CancelRequest := []

inductive Action (Artifact : Type)
  | submit (jobId : Nat) (now : Instant)
  | claimNext (workerId attemptToken : String) (leaseTime : ℤ) (now : Instant) (locked : List Nat)
  | attempt (jobId : Nat) (attemptToken : String) (leaseGeneration : Nat) (statement : Statement Artifact)
      (now : Instant)
  | readJob (jobId principalId : Nat) (now : Instant)
  | readRun (request : Nat)
  | writeCancellation (request : Nat)

namespace ControlPlane

variable {Artifact : Type}

/-- The rows that `create_run` and `create_reconciliation_job` insert. -/
def submitted (now : Instant) : Submission Artifact where
  job := ⟨{ scheduledAt := now, updatedAt := now }, rfl⟩
  run := initiatedRun now

/-- `ORDER BY scheduled_at ASC FOR UPDATE SKIP LOCKED LIMIT 1`; the emulation does not skip a row. -/
def candidate (backend : Backend) (now : Instant) (locked : List Nat) (s : ControlPlane Artifact) : Option Nat :=
  let free := s.submissions.items.filter fun p =>
    p.2.job.val.eligible now backend && !(backend = .postgres && p.1 ∈ locked)
  (free.insertionSort fun p q => p.2.job.val.scheduledAt ≤ q.2.job.val.scheduledAt).head?.map Prod.fst

/-- A change of one submission. -/
def modify (backend : Backend) (s : ControlPlane Artifact) (jobId : Nat) (c : Change Artifact) :
    ControlPlane Artifact :=
  match s.submissions.get? jobId with
  | none => s
  | some e => { s with submissions := s.submissions.insert jobId (e.change backend c) }

/-- What `request_job_cancellation` reads first; of a terminal job it is done with that. -/
def readJob (s : ControlPlane Artifact) (jobId principalId : Nat) (now : Instant) : ControlPlane Artifact :=
  match s.submissions.get? jobId with
  | none => s
  | some e =>
    if e.job.val.status.terminal then s
    else
      { s with
        requests := s.requests ++
          [{ jobId := jobId, principalId := principalId, now := now, queued := e.job.val.status = .queued }] }

/-- Then it reads the run. -/
def readRun (s : ControlPlane Artifact) (request : Nat) : ControlPlane Artifact :=
  match s.requests[request]? with
  | none => s
  | some r =>
    match s.submissions.get? r.jobId with
    | none => s
    | some e =>
      { s with
        requests := s.requests.set request { r with runInitiated := some (e.run.val.status = .initiated) } }

/-- Then it writes, once it has read what it needs. -/
def writeCancellation (backend : Backend) (s : ControlPlane Artifact) (request : Nat) : ControlPlane Artifact :=
  match s.requests[request]? with
  | none => s
  | some r =>
    if r.queued ∧ r.runInitiated = none then s
    else { s.modify backend r.jobId (.cancel r) with requests := s.requests.eraseIdx request }

def step (backend : Backend) (s : ControlPlane Artifact) : Action Artifact → ControlPlane Artifact
  | .submit jobId now =>
    if (s.submissions.get? jobId).isSome then s
    else { s with submissions := s.submissions.insert jobId (submitted now) }
  | .claimNext workerId token leaseTime now locked =>
    match s.candidate backend now locked with
    | none => s
    | some jobId => s.modify backend jobId (.claim workerId token leaseTime now)
  | .attempt jobId token generation statement now => s.modify backend jobId (.attempt token generation statement now)
  | .readJob jobId principalId now => s.readJob jobId principalId now
  | .readRun request => s.readRun request
  | .writeCancellation request => s.writeCancellation backend request

end ControlPlane

end Untangle
