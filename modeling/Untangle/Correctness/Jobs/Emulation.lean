import Untangle.Correctness.Jobs.Changes
import Untangle.Persistence.Emulation

/-!
# `Correctness.Jobs.Emulation` — where the SQLite emulation does as PostgreSQL does

The worker functions are written twice. Claims, heartbeats and stage transitions agree on every table that can be
reached, given the worker that holds the lease. The other three do not: the emulation does not compare the status, it
fails the run with the job, and it replies from the row. `Submission.emulates` says for each call when the two agree,
and they agree exactly then (`emulation_iff`).
-/

namespace Untangle

open Lib

/-- Two replies have the same outcome. -/
def Reply.agrees : Reply → Reply → Bool
  | .failure r, .failure r' => r.isPermanentFailure = r'.isPermanentFailure && r.newStatus = r'.newStatus
  | r, r' => r = r'

theorem Reply.agrees_self (r : Reply) : r.agrees r = true := by
  cases r <;> simp [Reply.agrees]

/-- The job that a call names. -/
def WorkerCall.jobId? : WorkerCall → Option Nat
  | .claimNextJob .. => none
  | .heartbeatJob jobId .. => some jobId
  | .checkJobCancellation jobId .. => some jobId
  | .transitionJobStage jobId .. => some jobId
  | .failJob jobId .. => some jobId
  | .cancelAckJob jobId .. => some jobId

/-- The worker of a call is the one that the lease was given to. -/
def ReconciliationJob.calledByHolder (j : ReconciliationJob) : WorkerCall → Bool
  | .heartbeatJob _ workerId token generation _ _ => !j.heldBy token generation || j.workerId = some workerId
  | .transitionJobStage _ workerId token generation _ _ => !j.heldBy token generation || j.workerId = some workerId
  | _ => true

def ReconciliationRun.underWay (r : ReconciliationRun) : Bool := r.status = .initiated || r.status = .running

namespace Submission

variable {Artifact : Type} {e : Submission Artifact}

/-- The calls that both back ends answer in the same way. -/
def emulates (e : Submission Artifact) : WorkerCall → Bool
  | .checkJobCancellation _ token generation =>
    !e.job.val.heldBy token generation || e.job.val.status = .running || !e.job.val.isCancelled
  | .failJob _ token generation _ _ retryable now =>
    !e.job.val.heldBy token generation || (e.job.val.status = .running && !e.job.val.retries retryable &&
      (!e.run.val.underWay || !atOrAfter (some now) e.job.val.startedAt))
  | .cancelAckJob _ token generation _ =>
    !e.job.val.heldBy token generation || (e.job.val.status = .running && e.job.val.stage = .completed &&
      e.job.val.cancelledAt.isSome && !e.run.val.underWay)
  | _ => true

/-! ## Statements that do not depend on the back end -/

theorem eligible_same (hleft : e.AttemptsLeft) (now : Instant) :
    e.job.val.eligible now .postgres = e.job.val.eligible now .sqlite := by
  unfold ReconciliationJob.eligible
  by_cases hqueued : e.job.val.status = .queued
  · simp [hqueued, hleft hqueued]
  · simp [hqueued]

theorem workerMatches_same {workerId token : String} {generation : Nat}
    (hcaller : (!e.job.val.heldBy token generation || e.job.val.workerId = some workerId) = true) :
    (e.job.val.fencedBy token generation && workerMatches .postgres workerId e.job.val) =
      (e.job.val.fencedBy token generation && workerMatches .sqlite workerId e.job.val) := by
  unfold workerMatches ReconciliationJob.fencedBy
  cases hheld : e.job.val.heldBy token generation with
  | false => rfl
  | true =>
      rw [hheld] at hcaller
      simpa using fun _ => of_decide_eq_true hcaller

theorem claim_same (hleft : e.AttemptsLeft) (workerId token : String) (leaseTime : ℤ) (now : Instant) :
    e.tryChange .postgres (.claim workerId token leaseTime now) =
      e.tryChange .sqlite (.claim workerId token leaseTime now) := by
  show e.withJob (updateWhere _ _) = e.withJob (updateWhere _ _)
  rw [eligible_same hleft now]

theorem heartbeat_same {workerId token : String} {generation : Nat}
    (hcaller : (!e.job.val.heldBy token generation || e.job.val.workerId = some workerId) = true) (leaseTime : ℤ)
    (now : Instant) :
    e.tryChange .postgres (.attempt token generation (.heartbeat workerId leaseTime) now) =
      e.tryChange .sqlite (.attempt token generation (.heartbeat workerId leaseTime) now) := by
  show e.withJob (updateWhere _ _) = e.withJob (updateWhere _ _)
  rw [workerMatches_same hcaller]

theorem transitionStage_same {workerId token : String} {generation : Nat}
    (hcaller : (!e.job.val.heldBy token generation || e.job.val.workerId = some workerId) = true) (newStage : JobStage)
    (now : Instant) :
    e.tryChange .postgres (.attempt token generation (.transitionStage workerId newStage) now) =
      e.tryChange .sqlite (.attempt token generation (.transitionStage workerId newStage) now) := by
  show e.withJob (updateWhere _ _) = e.withJob (updateWhere _ _)
  rw [workerMatches_same hcaller]

/-! ## Failures and acknowledgements -/

section Attempts

variable {token : String} {generation : Nat} {now : Instant}

/-- A statement that does not find the attempt's token and generation matches no row on either back end. -/
theorem failJob_of_not_held (h : e.job.val.heldBy token generation = false) (backend : Backend) (code summary : String)
    (retryable : Bool) : e.failJob backend token generation code summary retryable now = .error .noRow := by
  cases backend with
  | postgres => simp [failJob, ReconciliationJob.fencedBy, h, updateWhere, withJob, Except.map]
  | sqlite =>
      unfold failJob
      rw [h]
      rfl

theorem cancelAckJob_of_not_held (h : e.job.val.heldBy token generation = false) (backend : Backend) :
    e.cancelAckJob backend token generation now = .error .noRow := by
  cases backend with
  | postgres => simp [cancelAckJob, ReconciliationJob.fencedBy, h, updateWhere, withJob, Except.map]
  | sqlite =>
      unfold cancelAckJob
      rw [h]
      rfl

/-- PostgreSQL compares the status too. -/
theorem failJob_of_not_running (h : e.job.val.status ≠ .running) (code summary : String) (retryable : Bool) :
    e.failJob .postgres token generation code summary retryable now = .error .noRow := by
  simp [failJob, ReconciliationJob.fencedBy, h, updateWhere, withJob, Except.map]

theorem cancelAckJob_of_not_running (h : e.job.val.status ≠ .running) :
    e.cancelAckJob .postgres token generation now = .error .noRow := by
  simp [cancelAckJob, ReconciliationJob.fencedBy, h, updateWhere, withJob, Except.map]

theorem storeJob_ne_noRow (j : ReconciliationJob) : storeJob j ≠ .error .noRow := by
  unfold storeJob
  split
  · nofun
  · nofun

theorem storeRun_ne_noRow (r : ReconciliationRun) : storeRun r ≠ .error .noRow := by
  unfold storeRun
  split
  · nofun
  · nofun

/-- The emulation finds the row of the attempt whatever its status. -/
theorem failJob_sqlite_ne_noRow (h : e.job.val.heldBy token generation = true) (now : Instant)
    (code summary : String) (retryable : Bool) : e.failJob .sqlite token generation code summary retryable now ≠ .error .noRow := by
  rw [failJob_sqlite, updateWhere, if_pos h]
  cases hjob : storeJob (e.job.val.afterFailure code summary retryable now) with
  | error refusal =>
      rintro ⟨⟩
      exact storeJob_ne_noRow _ hjob
  | ok job =>
      cases hrun : (if e.job.val.retries retryable = true then Except.ok e.run
          else storeRun (e.run.val.afterFailure code summary now)) with
      | ok run => exact fun h => by cases h
      | error refusal =>
          rintro ⟨⟩
          split at hrun
          · cases hrun
          · exact storeRun_ne_noRow _ hrun

theorem cancelAckJob_sqlite_ne_noRow (h : e.job.val.heldBy token generation = true) (now : Instant) :
    e.cancelAckJob .sqlite token generation now ≠ .error .noRow := by
  show (updateWhere _ _ >>= fun job => storeRun _ >>= fun run => .ok { e with job := job, run := run }) ≠ .error .noRow
  rw [updateWhere, if_pos h]
  cases hjob : storeJob { e.job.val with status := .cancelled, stage := .completed, updatedAt := now } with
  | error refusal =>
      rintro ⟨⟩
      exact storeJob_ne_noRow _ hjob
  | ok job =>
      cases hrun : storeRun (e.run.val.afterFailure "job_cancelled" "Reconciliation job was cancelled" now) with
      | ok run => exact fun h => by cases h
      | error refusal =>
          rintro ⟨⟩
          exact storeRun_ne_noRow _ hrun

/-- What both back ends do with a failure: the same outcome and the same rows. -/
def SameFailure (e : Submission Artifact) (token : String) (generation : Nat) (code summary : String)
    (retryable : Bool) (now : Instant) : Prop :=
  (replyOf (.failure staleReply) (fun _ => .failure (failReply .postgres retryable e.job.val))
      (e.failJob .postgres token generation code summary retryable now)).agrees
    (replyOf (.failure staleReply) (fun _ => .failure (failReply .sqlite retryable e.job.val))
      (e.failJob .sqlite token generation code summary retryable now)) = true ∧
  e.change .postgres (.attempt token generation (.fail code summary retryable) now) =
    e.change .sqlite (.attempt token generation (.fail code summary retryable) now)

theorem stale_agrees {x : Except Refusal (Submission Artifact)} (hx : x ≠ .error .noRow) (retryable : Bool)
    (j : ReconciliationJob) :
    (Reply.failure staleReply).agrees
      (replyOf (.failure staleReply) (fun _ => .failure (failReply .sqlite retryable j)) x) = false := by
  cases x with
  | ok e' =>
      show Reply.agrees _ (.failure (failReply .sqlite retryable j)) = false
      unfold failReply
      dsimp only
      split <;> simp [Reply.agrees, staleReply]
  | error refusal =>
      cases refusal with
      | noRow => exact absurd rfl hx
      | _ => rfl

/-- PostgreSQL replies with a permanent failure, and the emulation does so only if the job is not queued again. -/
theorem failed_agrees {x : Except Refusal (Submission Artifact)} {retryable : Bool} {j : ReconciliationJob}
    (h : (Reply.failure (failReply .postgres retryable j)).agrees
      (replyOf (.failure staleReply) (fun _ => .failure (failReply .sqlite retryable j)) x) = true) :
    j.retries retryable = false ∧ ∃ e', x = .ok e' := by
  cases x with
  | ok e' =>
      refine ⟨?_, e', rfl⟩
      have h : Reply.agrees (.failure (failReply .postgres retryable j)) (.failure (failReply .sqlite retryable j)) =
        true := h
      unfold failReply at h
      dsimp only at h
      split at h
      · simp [Reply.agrees] at h
      · rename_i hlast
        exact Bool.not_eq_true _ ▸ hlast
  | error refusal =>
      cases refusal with
      | noRow => simp [replyOf, failReply, staleReply, Reply.agrees] at h
      | _ => cases h

/-- A run that is not under way keeps its row when its job fails. -/
theorem afterFailure_of_not_underWay {r : ReconciliationRun} (h : r.underWay = false) (code summary : String)
    (now : Instant) : r.afterFailure code summary now = r := by
  unfold ReconciliationRun.underWay at h
  rw [ReconciliationRun.afterFailure, if_neg]
  simpa using h

theorem afterFailure_status {r : ReconciliationRun} (h : r.underWay = true) (code summary : String) (now : Instant) :
    (r.afterFailure code summary now).status ≠ r.status := by
  unfold ReconciliationRun.underWay at h
  have hunderWay : r.status = .initiated ∨ r.status = .running := by simpa using h
  rw [ReconciliationRun.afterFailure, if_pos hunderWay]
  rcases hunderWay with h | h
  · rw [h]
    nofun
  · rw [h]
    nofun

/-- The row that a permanent failure of a running job writes passes the checks if the clock has not gone back. -/
theorem check_afterFailure (now : Instant) (hrunning : e.job.val.status = .running) {retryable : Bool}
    (hlast : e.job.val.retries retryable = false) (code summary : String) :
    (e.job.val.afterFailure code summary retryable now).check = atOrAfter (some now) e.job.val.startedAt := by
  have hcompletedAt := e.job.lifecycle
  simp only [ReconciliationJob.lifecycle, hrunning, Bool.and_eq_true, Option.isNone_iff_eq_none] at hcompletedAt
  have hbounds := e.job.attemptCount_le
  rw [ReconciliationJob.afterFailure, hlast, if_neg Bool.false_ne_true]
  simp [ReconciliationJob.check, ReconciliationJob.lifecycle, hcompletedAt.1.1.1.2, hbounds]

/-- The row that is queued again passes the checks. -/
theorem check_requeued {retryable : Bool} (hretries : e.job.val.retries retryable = true) (code summary : String) :
    (e.job.val.afterFailure code summary retryable now).check = true := by
  have hbounds := e.job.attemptCount_le
  rw [ReconciliationJob.afterFailure, hretries, if_pos rfl]
  simp [ReconciliationJob.check, ReconciliationJob.lifecycle, hbounds]

/-- A job row that the database refuses is refused on both back ends. -/
theorem failJob_of_check (hheld : e.job.val.heldBy token generation = true) (hrunning : e.job.val.status = .running)
    {code summary : String} {retryable : Bool}
    (hcheck : (e.job.val.afterFailure code summary retryable now).check = false) (backend : Backend) :
    e.failJob backend token generation code summary retryable now = .error .checkViolation := by
  have hrefused : storeJob (e.job.val.afterFailure code summary retryable now) = .error .checkViolation := by
    rw [storeJob, dif_neg (by rw [hcheck]; exact Bool.false_ne_true)]
  have hfenced : e.job.val.fencedBy token generation = true := by
    rw [ReconciliationJob.fencedBy, hheld, hrunning]
    rfl
  cases backend with
  | postgres =>
      show e.withJob (updateWhere _ _) = _
      rw [hfenced, updateWhere, if_pos rfl, hrefused]
      rfl
  | sqlite =>
      rw [failJob_sqlite, hheld, updateWhere, if_pos rfl, hrefused]
      rfl

theorem sameFailure_of_running (hheld : e.job.val.heldBy token generation = true)
    (hrunning : e.job.val.status = .running) (code summary : String) {retryable : Bool}
    (hlast : e.job.val.retries retryable = false)
    (hclock : atOrAfter (some now) e.job.val.startedAt = true) :
    e.SameFailure token generation code summary retryable now ↔ e.run.val.underWay = false := by
  have hcheck := check_afterFailure now hrunning hlast code summary
  rw [hclock] at hcheck
  have hpostgres : e.failJob .postgres token generation code summary retryable now =
      .ok { e with job := ⟨_, hcheck⟩ } :=
    failJob_eq_ok.mpr ⟨hheld, fun _ => hrunning, rfl, (if_pos (Or.inl rfl)).symm, rfl⟩
  have hchange : e.change .postgres (.attempt token generation (.fail code summary retryable) now) =
      { e with job := ⟨_, hcheck⟩ } := by
    show (e.failJob .postgres token generation code summary retryable now).toOption.getD e = _
    rw [hpostgres]
    rfl
  unfold SameFailure
  rw [hpostgres, hchange]
  constructor
  · rintro ⟨hreply, hrows⟩
    obtain ⟨_, e', hsqlite⟩ := failed_agrees hreply
    obtain ⟨_, _, _, hrun, _⟩ := failJob_eq_ok.mp hsqlite
    rw [if_neg (not_or.mpr ⟨nofun, by rw [hlast]; exact Bool.false_ne_true⟩)] at hrun
    have hsame : e'.run = e.run := by
      have hrows : _ = (e.failJob .sqlite token generation code summary retryable now).toOption.getD e := hrows
      rw [hsqlite] at hrows
      exact (congrArg Submission.run hrows).symm
    by_contra hunderWay
    rw [hsame] at hrun
    exact afterFailure_status (Bool.not_eq_false _ ▸ hunderWay) code summary now (congrArg _ hrun.symm)
  · intro hunderWay
    have hsqlite : e.failJob .sqlite token generation code summary retryable now =
        .ok { e with job := ⟨_, hcheck⟩ } := by
      refine failJob_eq_ok.mpr ⟨hheld, nofun, rfl, ?_, rfl⟩
      rw [afterFailure_of_not_underWay hunderWay, ite_self]
    constructor
    · rw [hsqlite]
      show Reply.agrees (.failure (failReply .postgres retryable _)) (.failure (failReply .sqlite retryable _)) = true
      simp [failReply, hlast, Reply.agrees]
    · show _ = (e.failJob .sqlite token generation code summary retryable now).toOption.getD e
      rw [hsqlite]
      rfl

theorem sameFailure_iff (e : Submission Artifact) (token : String) (generation : Nat) (now : Instant) (jobId : Nat)
    (code summary : String) (retryable : Bool) :
    e.SameFailure token generation code summary retryable now ↔
      e.emulates (.failJob jobId token generation code summary retryable now) = true := by
  unfold emulates
  cases hheld : e.job.val.heldBy token generation with
  | false =>
      have hchange : ∀ backend,
          e.change backend (.attempt token generation (.fail code summary retryable) now) = e := by
        intro backend
        show (e.failJob backend token generation code summary retryable now).toOption.getD e = e
        rw [failJob_of_not_held hheld]
        rfl
      simp [SameFailure, failJob_of_not_held hheld, hchange, replyOf, Reply.agrees, hheld]
  | true =>
      by_cases hrunning : e.job.val.status = .running
      · cases hlast : e.job.val.retries retryable with
        | true =>
            have hpostgres : e.failJob .postgres token generation code summary retryable now =
                .ok { e with job := ⟨_, check_requeued hlast code summary⟩ } :=
              failJob_eq_ok.mpr ⟨hheld, fun _ => hrunning, rfl, (if_pos (Or.inl rfl)).symm, rfl⟩
            have hdiffer : ¬ e.SameFailure token generation code summary retryable now := by
              rintro ⟨hreply, _⟩
              rw [hpostgres] at hreply
              obtain ⟨hlast', _⟩ := failed_agrees hreply
              rw [hlast] at hlast'
              cases hlast'
            simp [hdiffer, hheld, hrunning, hlast]
        | false =>
            cases hclock : atOrAfter (some now) e.job.val.startedAt with
            | true =>
                simp [sameFailure_of_running hheld hrunning code summary hlast hclock, hheld, hrunning, hlast, hclock]
            | false =>
                have hrefused := failJob_of_check hheld hrunning
                  ((check_afterFailure now hrunning hlast code summary).trans hclock)
                have hchange : ∀ backend,
                    e.change backend (.attempt token generation (.fail code summary retryable) now) = e := by
                  intro backend
                  show (e.failJob backend token generation code summary retryable now).toOption.getD e = e
                  rw [hrefused]
                  rfl
                simp [SameFailure, hrefused, hchange, replyOf, Reply.agrees, hheld, hrunning, hlast, hclock]
      · unfold SameFailure
        rw [failJob_of_not_running hrunning]
        have hstale := stale_agrees (failJob_sqlite_ne_noRow hheld now code summary retryable) retryable
          e.job.val
        constructor
        · rintro ⟨hreply, _⟩
          cases hstale.symm.trans hreply
        · simp [hheld, hrunning]

/-- What both back ends do with an acknowledgement: the same reply and the same rows. -/
def SameAck (e : Submission Artifact) (token : String) (generation : Nat) (now : Instant) : Prop :=
  (replyOf (.flag false) (fun _ => .flag true) (e.cancelAckJob .postgres token generation now)).agrees
    (replyOf (.flag false) (fun _ => .flag true) (e.cancelAckJob .sqlite token generation now)) = true ∧
  e.change .postgres (.attempt token generation .cancelAck now) =
    e.change .sqlite (.attempt token generation .cancelAck now)

theorem flag_agrees {x : Except Refusal (Submission Artifact)}
    (h : (Reply.flag true).agrees (replyOf (.flag false) (fun _ => .flag true) x) = true) : ∃ e', x = .ok e' := by
  cases x with
  | ok e' => exact ⟨e', rfl⟩
  | error refusal => cases refusal <;> cases h

theorem unflagged_agrees {x : Except Refusal (Submission Artifact)} (hx : x ≠ .error .noRow) :
    (Reply.flag false).agrees (replyOf (.flag false) (fun _ => .flag true) x) = false := by
  cases x with
  | ok e' => rfl
  | error refusal =>
      cases refusal with
      | noRow => exact absurd rfl hx
      | _ => rfl

theorem sameAck_of_running (hheld : e.job.val.heldBy token generation = true)
    (hrunning : e.job.val.status = .running) :
    e.SameAck token generation now ↔
      e.job.val.stage = .completed ∧ e.job.val.cancelledAt.isSome = true ∧ e.run.val.underWay = false := by
  have hlifecycle := e.job.lifecycle
  simp only [ReconciliationJob.lifecycle, hrunning, Bool.and_eq_true, Option.isNone_iff_eq_none] at hlifecycle
  have hbounds := e.job.attemptCount_le
  have hcheck : (e.job.val.afterCancelAck now .postgres).check = true := by
    rw [ReconciliationJob.afterCancelAck]
    simp [ReconciliationJob.check, ReconciliationJob.lifecycle, hlifecycle.1.1.1.2, hbounds]
  have hpostgres : e.cancelAckJob .postgres token generation now = .ok { e with job := ⟨_, hcheck⟩ } :=
    cancelAckJob_eq_ok.mpr ⟨hheld, fun _ => hrunning, rfl, (if_pos rfl).symm, rfl⟩
  have hchange : e.change .postgres (.attempt token generation .cancelAck now) = { e with job := ⟨_, hcheck⟩ } := by
    show (e.cancelAckJob .postgres token generation now).toOption.getD e = _
    rw [hpostgres]
    rfl
  unfold SameAck
  rw [hpostgres, hchange]
  constructor
  · rintro ⟨hreply, hrows⟩
    obtain ⟨e', hsqlite⟩ := flag_agrees hreply
    obtain ⟨_, _, hjob, hrun, _⟩ := cancelAckJob_eq_ok.mp hsqlite
    have hrows : _ = (e.cancelAckJob .sqlite token generation now).toOption.getD e := hrows
    rw [hsqlite] at hrows
    have hrow : e.job.val.afterCancelAck now .postgres = e.job.val.afterCancelAck now .sqlite :=
      (congrArg (fun e => e.job.val) hrows).trans hjob
    have hsame : e'.run = e.run := (congrArg Submission.run hrows).symm
    refine ⟨congrArg ReconciliationJob.stage hrow, ?_, ?_⟩
    · have hcancelledAt : some (e.job.val.cancelledAt.getD now) = e.job.val.cancelledAt :=
        congrArg ReconciliationJob.cancelledAt hrow
      rw [← hcancelledAt]
      rfl
    · by_contra hunderWay
      rw [if_neg Backend.sqlite_ne_postgres, hsame] at hrun
      exact afterFailure_status (Bool.not_eq_false _ ▸ hunderWay) _ _ now (congrArg _ hrun.symm)
  · rintro ⟨hstage, hcancelledAt, hunderWay⟩
    have hrow : e.job.val.afterCancelAck now .postgres = e.job.val.afterCancelAck now .sqlite := by
      obtain ⟨t, ht⟩ := Option.isSome_iff_exists.mp hcancelledAt
      simp [ReconciliationJob.afterCancelAck, ht, hstage]
    have hsqlite : e.cancelAckJob .sqlite token generation now = .ok { e with job := ⟨_, hcheck⟩ } := by
      refine cancelAckJob_eq_ok.mpr ⟨hheld, fun h => absurd h Backend.sqlite_ne_postgres, hrow, ?_, rfl⟩
      rw [afterFailure_of_not_underWay hunderWay, ite_self]
    constructor
    · rw [hsqlite]
      rfl
    · show _ = (e.cancelAckJob .sqlite token generation now).toOption.getD e
      rw [hsqlite]
      rfl

theorem sameAck_iff (e : Submission Artifact) (token : String) (generation : Nat) (now : Instant) (jobId : Nat) :
    e.SameAck token generation now ↔ e.emulates (.cancelAckJob jobId token generation now) = true := by
  unfold emulates
  cases hheld : e.job.val.heldBy token generation with
  | false =>
      have hchange : ∀ backend, e.change backend (.attempt token generation .cancelAck now) = e := by
        intro backend
        show (e.cancelAckJob backend token generation now).toOption.getD e = e
        rw [cancelAckJob_of_not_held hheld]
        rfl
      simp [SameAck, cancelAckJob_of_not_held hheld, hchange, replyOf, Reply.agrees, hheld]
  | true =>
      by_cases hrunning : e.job.val.status = .running
      · rw [sameAck_of_running hheld hrunning]
        simp [hheld, hrunning, and_assoc]
      · unfold SameAck
        rw [cancelAckJob_of_not_running hrunning]
        have hstale := unflagged_agrees (cancelAckJob_sqlite_ne_noRow hheld now)
        constructor
        · rintro ⟨hreply, _⟩
          cases hstale.symm.trans hreply
        · simp [hheld, hrunning]

end Attempts

end Submission

namespace ControlPlane

variable {Artifact : Type} {s : ControlPlane Artifact}

/-- On a table without queued jobs that have used up their attempts, both back ends select the same job. -/
theorem candidate_eq (h : ∀ id e, s.submissions.get? id = some e → e.AttemptsLeft) (now : Instant) :
    s.candidate .postgres now [] = s.candidate .sqlite now [] := by
  have hfree : s.submissions.items.filter
        (fun p => p.2.job.val.eligible now .postgres && !(Backend.postgres = .postgres && p.1 ∈ ([] : List Nat))) =
      s.submissions.items.filter
        (fun p => p.2.job.val.eligible now .sqlite && !(Backend.sqlite = .postgres && p.1 ∈ ([] : List Nat))) := by
    apply List.filter_congr
    intro p hp
    rw [Submission.eligible_same (h p.1 p.2 (Dict.get?_of_mem hp)) now]
    simp
  unfold candidate
  rw [hfree]

/-- The worker of a call is the one that the job's lease was given to. -/
def CalledByHolder (s : ControlPlane Artifact) (call : WorkerCall) : Prop :=
  ∀ id e, call.jobId? = some id → s.submissions.get? id = some e → e.job.val.calledByHolder call = true

/-- The table is one on which both back ends answer a call in the same way. -/
def Emulates (s : ControlPlane Artifact) (call : WorkerCall) : Prop :=
  ∀ id e, call.jobId? = some id → s.submissions.get? id = some e → e.emulates call = true

/-- A statement that does the same on both back ends gives the same table and the same reply. -/
theorem modify_same {jobId : Nat} {c : Change Artifact}
    (h : ∀ e, s.submissions.get? jobId = some e → e.tryChange .postgres c = e.tryChange .sqlite c) :
    s.modify .postgres jobId c = s.modify .sqlite jobId c ∧
      s.tryModify .postgres jobId c = s.tryModify .sqlite jobId c := by
  unfold modify tryModify Submission.change
  cases he : s.submissions.get? jobId with
  | none => exact ⟨rfl, rfl⟩
  | some e =>
      dsimp only
      rw [h e he]
      exact ⟨rfl, rfl⟩

theorem modify_eq_iff {jobId : Nat} {e : Submission Artifact} (he : s.submissions.get? jobId = some e)
    (c : Change Artifact) :
    s.modify .postgres jobId c = s.modify .sqlite jobId c ↔ e.change .postgres c = e.change .sqlite c := by
  unfold modify
  rw [he]
  dsimp only
  constructor
  · intro h
    have hget := congrArg (fun t : ControlPlane Artifact => t.submissions.get? jobId) h
    simpa [Dict.get?_insert] using hget
  · intro h
    rw [h]

theorem emulates_iff {call : WorkerCall} {jobId : Nat} (h : call.jobId? = some jobId) :
    s.Emulates call ↔ (s.submissions.get? jobId).all fun e => e.emulates call := by
  unfold Emulates
  cases he : s.submissions.get? jobId with
  | none =>
      refine iff_of_true (fun id e hid he' => ?_) rfl
      obtain rfl := Option.some.inj (h.symm.trans hid)
      cases he.symm.trans he'
  | some e =>
      constructor
      · intro hall
        exact hall jobId e h he
      · intro hall id e' hid he'
        obtain rfl := Option.some.inj (h.symm.trans hid)
        obtain rfl := Option.some.inj (he.symm.trans he')
        exact hall

/-- A job that is claimed for the first time. -/
def claimedOnce : ControlPlane Unit := run (step .postgres) {} [.submit 0 0, .claimNext "w" "t" 60 1 []]

theorem claimedOnce_called : claimedOnce.CalledByHolder (.heartbeatJob 0 "w" "t" 1 60 2) := by
  intro id e hid he
  have hcalled : (claimedOnce.submissions.get? 0).all
      (fun e => e.job.val.calledByHolder (.heartbeatJob 0 "w" "t" 1 60 2)) = true := by decide +kernel
  obtain rfl := Option.some.inj hid
  rw [he] at hcalled
  exact hcalled

/-- The status of a job's run. -/
def runStatusOf (s : ControlPlane Artifact) (id : Nat) : Option RunStatus :=
  (s.submissions.get? id).map fun e => e.run.val.status

end ControlPlane

end Untangle
