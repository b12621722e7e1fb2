import Untangle.Lib.Dict

/-!
# `Persistence.Job` — the statements on a job and its run

Model of the job and run tables (`persistence/models.py`), of the job functions of the migration
`0003_reconciliation_jobs_and_storage.py` and of `persistence/repositories/job.py`, for both back ends. A row that
violates a CHECK constraint cannot be built (`JobRecord`, `RunRecord`), so a statement that would store one is refused.
Every submission creates a run of its own, and the two rows are kept together. Each function is one statement that
reads the clock once; `request_job_cancellation` is not, and stands in `Persistence.ControlPlane`.
-/

namespace Untangle

open Lib

/-- A point in time, in microseconds. -/
abbrev Instant := ℤ

inductive Backend
  | postgres
  | sqlite
deriving DecidableEq, Repr

theorem Backend.sqlite_ne_postgres : Backend.sqlite ≠ .postgres := by decide

/-! ## Rows -/

inductive JobStatus
  | queued
  | running
  | completed
  | failed
  | cancelled
deriving DecidableEq, Repr

def JobStatus.terminal : JobStatus → Bool
  | .completed | .failed | .cancelled => true
  | .queued | .running => false

inductive JobStage
  | queued
  | ingesting
  | attributing
  | reconciling
  | investigating
  | persisting
  | completed
deriving DecidableEq, Repr

inductive RunStatus
  | initiated
  | running
  | completed
  | failed
  | aborted
deriving DecidableEq, Repr

structure ReconciliationJob where
  status : JobStatus := .queued
  stage : JobStage := .queued
  workerId : Option String := none
  attemptToken : Option String := none
  leaseGeneration : Nat := 0
  attemptCount : Nat := 0
  maxAttempts : Nat := 3
  leaseExpiresAt : Option Instant := none
  lastHeartbeatAt : Option Instant := none
  scheduledAt : Instant
  startedAt : Option Instant := none
  completedAt : Option Instant := none
  failedAt : Option Instant := none
  errorCode : Option String := none
  errorSummary : Option String := none
  isCancelled : Bool := false
  cancelledAt : Option Instant := none
  cancelledByPrincipalId : Option Nat := none
  updatedAt : Instant
deriving DecidableEq, Repr

structure ReconciliationRun where
  status : RunStatus := .initiated
  errorCode : Option String := none
  errorSummary : Option String := none
  startedAt : Instant
  completedAt : Option Instant := none
  failedAt : Option Instant := none
deriving DecidableEq, Repr

/-- `later >= earlier`, both of them there. -/
def atOrAfter (later earlier : Option Instant) : Bool := later.any fun l => earlier.any fun e => e ≤ l

/-- `chk_jobs_lifecycle_state_machine`. -/
def ReconciliationJob.lifecycle (j : ReconciliationJob) : Bool :=
  match j.status with
  | .queued => j.startedAt.isNone && j.completedAt.isNone && j.failedAt.isNone && j.attemptToken.isNone
  | .running => j.startedAt.isSome && j.completedAt.isNone && j.failedAt.isNone && j.attemptToken.isSome &&
      j.leaseExpiresAt.isSome
  | .completed => atOrAfter j.completedAt j.startedAt && j.failedAt.isNone && j.errorCode.isNone
  | .failed => atOrAfter j.failedAt j.startedAt && j.completedAt.isNone && j.errorCode.isSome
  | .cancelled => j.cancelledAt.isSome && j.completedAt.isNone

/-- `chk_jobs_lifecycle_state_machine` and `chk_jobs_attempt_bounds`. -/
def ReconciliationJob.check (j : ReconciliationJob) : Bool := j.lifecycle && j.attemptCount ≤ j.maxAttempts

/-- `chk_runs_lifecycle_state_machine`. -/
def ReconciliationRun.check (r : ReconciliationRun) : Bool :=
  match r.status with
  | .initiated | .running => r.completedAt.isNone && r.failedAt.isNone && r.errorCode.isNone
  | .completed => atOrAfter r.completedAt (some r.startedAt) && r.failedAt.isNone && r.errorCode.isNone
  | .failed => atOrAfter r.failedAt (some r.startedAt) && r.completedAt.isNone && r.errorCode.isSome
  | .aborted => atOrAfter r.failedAt (some r.startedAt) && r.completedAt.isNone

/-- A row that the job table can hold. -/
abbrev JobRecord := {j : ReconciliationJob // j.check = true}

/-- A row that the run table can hold. -/
abbrev RunRecord := {r : ReconciliationRun // r.check = true}

/-- The row that `create_run` inserts. -/
def initiatedRun (now : Instant) : RunRecord := ⟨{ startedAt := now }, rfl⟩

/-- Why a statement or a transaction leaves the rows as they are. -/
inductive Refusal
  | noRow
  | checkViolation
  | uniqueViolation
  | invalidRunState
  | jobFencing
deriving DecidableEq, Repr

def storeJob (j : ReconciliationJob) : Except Refusal JobRecord :=
  if h : j.check = true then .ok ⟨j, h⟩ else .error .checkViolation

def storeRun (r : ReconciliationRun) : Except Refusal RunRecord :=
  if h : r.check = true then .ok ⟨r, h⟩ else .error .checkViolation

/-- `UPDATE reconciliation_jobs SET … WHERE …` on one row. -/
def updateWhere (matched : Bool) (j : ReconciliationJob) : Except Refusal JobRecord :=
  if matched then storeJob j else .error .noRow

/-- The WHERE clause on the attempt: its token and its generation. -/
def ReconciliationJob.heldBy (j : ReconciliationJob) (attemptToken : String) (leaseGeneration : Nat) : Bool :=
  j.attemptToken = some attemptToken && j.leaseGeneration = leaseGeneration

/-- The same while the job is running. -/
def ReconciliationJob.fencedBy (j : ReconciliationJob) (attemptToken : String) (leaseGeneration : Nat) : Bool :=
  j.heldBy attemptToken leaseGeneration && j.status = .running

/-! ## Claims -/

/-- A running job whose lease has run out. -/
def ReconciliationJob.leaseExpired (j : ReconciliationJob) (now : Instant) : Bool :=
  j.status = .running && j.leaseExpiresAt.any fun expires => expires < now

/-- Which jobs `fn_job_claim_next` and the SQLite `claim_next_job` select from. -/
def ReconciliationJob.eligible (j : ReconciliationJob) (now : Instant) : Backend → Bool
  | .postgres => (j.status = .queued || j.leaseExpired now) && j.attemptCount < j.maxAttempts && !j.isCancelled
  | .sqlite => (j.status = .queued || (j.leaseExpired now && j.attemptCount < j.maxAttempts)) && !j.isCancelled

/-- What a claim sets. -/
def ReconciliationJob.claimed (j : ReconciliationJob) (workerId attemptToken : String) (leaseTime : ℤ)
    (now : Instant) : ReconciliationJob :=
  { j with
    status := .running
    stage := .ingesting
    workerId := some workerId
    attemptToken := some attemptToken
    leaseGeneration := j.leaseGeneration + 1
    attemptCount := j.attemptCount + 1
    startedAt := some (j.startedAt.getD now)
    lastHeartbeatAt := some now
    leaseExpiresAt := some (now + leaseTime)
    updatedAt := now }

/-- `fn_job_claim_next` on the row that it selected. -/
def claimJob (backend : Backend) (workerId attemptToken : String) (leaseTime : ℤ) (now : Instant)
    (job : JobRecord) : Except Refusal JobRecord :=
  updateWhere (job.val.eligible now backend) (job.val.claimed workerId attemptToken leaseTime now)

/-! ## The attempt's own statements -/

/-- On SQLite `heartbeat_job` and `transition_job_stage` also compare the worker. -/
def workerMatches (backend : Backend) (workerId : String) (j : ReconciliationJob) : Bool :=
  backend = .postgres || j.workerId = some workerId

/-- `heartbeat_job`. -/
def heartbeatJob (backend : Backend) (workerId attemptToken : String) (leaseGeneration : Nat) (leaseTime : ℤ)
    (now : Instant) (job : JobRecord) : Except Refusal JobRecord :=
  updateWhere (job.val.fencedBy attemptToken leaseGeneration && workerMatches backend workerId job.val)
    { job.val with lastHeartbeatAt := some now, leaseExpiresAt := some (now + leaseTime), updatedAt := now }

/-- `transition_job_stage`. -/
def transitionJobStage (backend : Backend) (workerId attemptToken : String) (leaseGeneration : Nat)
    (newStage : JobStage) (now : Instant) (job : JobRecord) : Except Refusal JobRecord :=
  updateWhere (job.val.fencedBy attemptToken leaseGeneration && workerMatches backend workerId job.val)
    { job.val with stage := newStage, updatedAt := now }

/-- `check_job_cancellation`. -/
def checkJobCancellation (backend : Backend) (attemptToken : String) (leaseGeneration : Nat)
    (j : ReconciliationJob) : Bool :=
  match backend with
  | .postgres => j.fencedBy attemptToken leaseGeneration && j.isCancelled
  | .sqlite => j.heldBy attemptToken leaseGeneration && j.isCancelled

/-- An attempt that failed is queued again if that is allowed and attempts are left. -/
def ReconciliationJob.retries (j : ReconciliationJob) (retryable : Bool) : Bool :=
  retryable && j.attemptCount < j.maxAttempts

/-- What a failure sets. -/
def ReconciliationJob.afterFailure (j : ReconciliationJob) (code summary : String) (retryable : Bool)
    (now : Instant) : ReconciliationJob :=
  if j.retries retryable then
    { j with
      status := .queued
      stage := .queued
      failedAt := none
      attemptToken := none
      workerId := none
      leaseExpiresAt := none
      startedAt := none
      completedAt := none
      errorCode := none
      errorSummary := none
      updatedAt := now }
  else
    { j with
      status := .failed
      stage := .completed
      failedAt := some now
      errorCode := some code
      errorSummary := some summary
      updatedAt := now }

/-- A run that is under way, failed. -/
def ReconciliationRun.afterFailure (r : ReconciliationRun) (code summary : String) (now : Instant) :
    ReconciliationRun :=
  if r.status = .initiated ∨ r.status = .running then
    { r with status := .failed, errorCode := some code, errorSummary := some summary, failedAt := some now }
  else r

/-- A job, the run it was submitted with, and the artifacts that were saved with the run's result. -/
structure Submission (Artifact : Type) where
  job : JobRecord
  run : RunRecord
  result : Option (List Artifact) := none

namespace Submission

variable {Artifact : Type}

/-- A statement on the job alone. -/
def withJob (e : Submission Artifact) (job : Except Refusal JobRecord) : Except Refusal (Submission Artifact) :=
  job.map fun job => { e with job := job }

/-- `fail_job`: `fn_job_fail` can touch the job only; the emulation does not compare the status, and fails the run. -/
def failJob (backend : Backend) (attemptToken : String) (leaseGeneration : Nat) (code summary : String)
    (retryable : Bool) (now : Instant) (e : Submission Artifact) : Except Refusal (Submission Artifact) :=
  match backend with
  | .postgres => e.withJob (updateWhere (e.job.val.fencedBy attemptToken leaseGeneration)
      (e.job.val.afterFailure code summary retryable now))
  | .sqlite => do
    let job ← updateWhere (e.job.val.heldBy attemptToken leaseGeneration)
      (e.job.val.afterFailure code summary retryable now)
    let run ← if e.job.val.retries retryable then pure e.run else storeRun (e.run.val.afterFailure code summary now)
    return { e with job := job, run := run }

/-- `cancel_ack_job`, with the same difference. -/
def cancelAckJob (backend : Backend) (attemptToken : String) (leaseGeneration : Nat) (now : Instant)
    (e : Submission Artifact) : Except Refusal (Submission Artifact) :=
  match backend with
  | .postgres => e.withJob (updateWhere (e.job.val.fencedBy attemptToken leaseGeneration)
      { e.job.val with
        status := .cancelled
        cancelledAt := some (e.job.val.cancelledAt.getD now)
        updatedAt := now })
  | .sqlite => do
    let job ← updateWhere (e.job.val.heldBy attemptToken leaseGeneration)
      { e.job.val with status := .cancelled, stage := .completed, updatedAt := now }
    let run ← storeRun (e.run.val.afterFailure "job_cancelled" "Reconciliation job was cancelled" now)
    return { e with job := job, run := run }

end Submission

/-! ## The completion transaction -/

/-- `complete_run`. -/
def completeRun (now : Instant) (run : RunRecord) : Except Refusal RunRecord :=
  match run.val.status with
  | .completed => .ok run
  | .failed | .aborted => .error .invalidRunState
  | .initiated | .running => storeRun { run.val with status := .completed, completedAt := some now }

/-- `complete_job_fenced`. -/
def completeJobFenced (attemptToken : String) (leaseGeneration : Nat) (now : Instant) (job : JobRecord) :
    Except Refusal JobRecord :=
  if job.val.fencedBy attemptToken leaseGeneration then
    storeJob { job.val with status := .completed, stage := .completed, completedAt := some now, updatedAt := now }
  else .error .jobFencing

/-- The one transaction that saves the result and its artifacts and completes the run and the job. A run has one
    result. -/
def Submission.complete {Artifact : Type} (attemptToken : String) (leaseGeneration : Nat) (artifacts : List Artifact)
    (now : Instant) (e : Submission Artifact) : Except Refusal (Submission Artifact) := do
  if e.result.isSome then
    throw .uniqueViolation
  let run ← completeRun now e.run
  let job ← completeJobFenced attemptToken leaseGeneration now e.job
  return ⟨job, run, some artifacts⟩

end Untangle
