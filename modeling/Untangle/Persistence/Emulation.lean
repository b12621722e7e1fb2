import Untangle.Persistence.ControlPlane

/-!
# `Persistence.Emulation` — the worker functions and their replies

The six functions of `persistence/repositories/job.py` that a worker calls, with what each returns on the two back
ends: on PostgreSQL they wrap the functions of the migration, on SQLite they are written out. A statement that the
database refuses raises, and leaves the table as it is. `fail_job` reads only whether a row was updated on PostgreSQL,
and replies from that; the emulation replies from the row.
-/

namespace Untangle

open Lib

/-- What `fail_job` returns. -/
structure FailReply where
  isPermanentFailure : Bool
  newStatus : String
  newAttemptCount : Nat
deriving DecidableEq, Repr

inductive Reply
  | claimed (found : Option (Nat × String × Nat))
  | flag (b : Bool)
  | failure (reply : FailReply)
  | raised (refusal : Refusal)
deriving DecidableEq, Repr

/-- The calls of a worker, with the clock that they read. -/
inductive WorkerCall
  | claimNextJob (workerId attemptToken : String) (leaseTime : ℤ) (now : Instant)
  | heartbeatJob (jobId : Nat) (workerId attemptToken : String) (leaseGeneration : Nat) (leaseTime : ℤ)
      (now : Instant)
  | checkJobCancellation (jobId : Nat) (attemptToken : String) (leaseGeneration : Nat)
  | transitionJobStage (jobId : Nat) (workerId attemptToken : String) (leaseGeneration : Nat) (newStage : JobStage)
      (now : Instant)
  | failJob (jobId : Nat) (attemptToken : String) (leaseGeneration : Nat) (code summary : String) (retryable : Bool)
      (now : Instant)
  | cancelAckJob (jobId : Nat) (attemptToken : String) (leaseGeneration : Nat) (now : Instant)
deriving DecidableEq, Repr

/-- The reply of a function that was not refused, `stale` if it matched no row. -/
def replyOf {α : Type} (stale : Reply) (reply : α → Reply) : Except Refusal α → Reply
  | .ok a => reply a
  | .error .noRow => stale
  | .error refusal => .raised refusal

/-- What `fail_job` replies of a job that it updated. -/
def failReply (backend : Backend) (retryable : Bool) (job : ReconciliationJob) : FailReply :=
  match backend with
  | .postgres => { isPermanentFailure := true, newStatus := "failed", newAttemptCount := 0 }
  | .sqlite =>
    if job.retries retryable then
      { isPermanentFailure := false, newStatus := "queued", newAttemptCount := job.attemptCount }
    else { isPermanentFailure := true, newStatus := "failed", newAttemptCount := job.attemptCount }

def staleReply : FailReply where
  isPermanentFailure := false
  newStatus := "stale"
  newAttemptCount := 0

/-- The statement of a call; `check_job_cancellation` only reads. -/
def WorkerCall.action {Artifact : Type} : WorkerCall → Option (Action Artifact)
  | .claimNextJob workerId token leaseTime now => some (.claimNext workerId token leaseTime now [])
  | .heartbeatJob jobId workerId token generation leaseTime now =>
    some (.attempt jobId token generation (.heartbeat workerId leaseTime) now)
  | .checkJobCancellation .. => none
  | .transitionJobStage jobId workerId token generation newStage now =>
    some (.attempt jobId token generation (.transitionStage workerId newStage) now)
  | .failJob jobId token generation code summary retryable now =>
    some (.attempt jobId token generation (.fail code summary retryable) now)
  | .cancelAckJob jobId token generation now => some (.attempt jobId token generation .cancelAck now)

namespace ControlPlane

variable {Artifact : Type}

/-- The table after a call. -/
def after (backend : Backend) (s : ControlPlane Artifact) (call : WorkerCall) : ControlPlane Artifact :=
  match call.action with
  | none => s
  | some a => s.step backend a

/-- A change of one job, or why there is none. -/
def tryModify (backend : Backend) (s : ControlPlane Artifact) (jobId : Nat) (c : Change Artifact) :
    Except Refusal (Submission Artifact) :=
  match s.submissions.get? jobId with
  | none => .error .noRow
  | some e => e.tryChange backend c

/-- What a call returns. -/
def replyTo (backend : Backend) (s : ControlPlane Artifact) : WorkerCall → Reply
  | .claimNextJob workerId token leaseTime now =>
    match s.candidate backend now [] with
    | none => .claimed none
    | some jobId =>
      replyOf (.claimed none) (fun e => .claimed (some (jobId, token, e.job.val.leaseGeneration)))
        (s.tryModify backend jobId (.claim workerId token leaseTime now))
  | .heartbeatJob jobId workerId token generation leaseTime now =>
    replyOf (.flag false) (fun _ => .flag true)
      (s.tryModify backend jobId (.attempt token generation (.heartbeat workerId leaseTime) now))
  | .checkJobCancellation jobId token generation =>
    .flag ((s.submissions.get? jobId).any fun e => Untangle.checkJobCancellation backend token generation e.job.val)
  | .transitionJobStage jobId workerId token generation newStage now =>
    replyOf (.flag false) (fun _ => .flag true)
      (s.tryModify backend jobId (.attempt token generation (.transitionStage workerId newStage) now))
  | .failJob jobId token generation code summary retryable now =>
    match s.submissions.get? jobId with
    | none => .failure staleReply
    | some e =>
      replyOf (.failure staleReply) (fun _ => .failure (failReply backend retryable e.job.val))
        (e.tryChange backend (.attempt token generation (.fail code summary retryable) now))
  | .cancelAckJob jobId token generation now =>
    replyOf (.flag false) (fun _ => .flag true)
      (s.tryModify backend jobId (.attempt token generation .cancelAck now))

end ControlPlane

end Untangle
