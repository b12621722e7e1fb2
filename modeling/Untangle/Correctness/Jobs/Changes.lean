import Untangle.Lib.Fallible
import Untangle.Persistence.ControlPlane

/-!
# `Correctness.Jobs.Changes` — what can become of a submission

Every statement is said once: `Accepted` lists what a change that is not refused compares and sets, on both back ends
(`accepted`), and a refused one leaves the submission as it is (`change_cases`). A step of the table makes at most one
change, of the job that it is aimed at (`ControlPlane.target`, `get?_step`). All the facts about jobs are derived from
these, by cases on the change.
-/

namespace Untangle

open Lib

/-! ## Rows that are stored -/

theorem storeJob_eq_ok {j : ReconciliationJob} {job : JobRecord} : storeJob j = .ok job ↔ job.val = j := by
  unfold storeJob
  split
  · rw [Except.ok.injEq, Subtype.ext_iff, eq_comm]
  · rename_i h
    constructor
    · intro h
      cases h
    · rintro rfl
      exact absurd job.property h

theorem storeRun_eq_ok {r : ReconciliationRun} {run : RunRecord} : storeRun r = .ok run ↔ run.val = r := by
  unfold storeRun
  split
  · rw [Except.ok.injEq, Subtype.ext_iff, eq_comm]
  · rename_i h
    constructor
    · intro h
      cases h
    · rintro rfl
      exact absurd run.property h

theorem updateWhere_eq_ok {matched : Bool} {j : ReconciliationJob} {job : JobRecord} :
    updateWhere matched j = .ok job ↔ matched = true ∧ job.val = j := by
  cases matched with
  | true => exact storeJob_eq_ok.trans (by simp)
  | false => simp [updateWhere]

/-- The lifecycle of a stored job. -/
theorem JobRecord.lifecycle (job : JobRecord) : job.val.lifecycle = true := by
  have h := job.property
  unfold ReconciliationJob.check at h
  exact (Bool.and_eq_true_iff.mp h).1

/-- `chk_jobs_attempt_bounds`. -/
theorem JobRecord.attemptCount_le (job : JobRecord) : job.val.attemptCount ≤ job.val.maxAttempts := by
  have h := job.property
  unfold ReconciliationJob.check at h
  exact of_decide_eq_true (Bool.and_eq_true_iff.mp h).2

/-- A queued job is held by no attempt. -/
theorem JobRecord.attemptToken_of_queued {job : JobRecord} (h : job.val.status = .queued) :
    job.val.attemptToken = none := by
  have hlifecycle := job.lifecycle
  simp only [ReconciliationJob.lifecycle, h, Bool.and_eq_true, Option.isNone_iff_eq_none] at hlifecycle
  exact hlifecycle.2

theorem heldBy_iff {j : ReconciliationJob} {token : String} {generation : Nat} :
    j.heldBy token generation = true ↔ j.attemptToken = some token ∧ j.leaseGeneration = generation := by
  simp [ReconciliationJob.heldBy]

theorem fencedBy_iff {j : ReconciliationJob} {token : String} {generation : Nat} :
    j.fencedBy token generation = true ↔
      j.attemptToken = some token ∧ j.leaseGeneration = generation ∧ j.status = .running := by
  simp [ReconciliationJob.fencedBy, heldBy_iff, and_assoc]

/-- What an acknowledged cancellation sets on the job. -/
def ReconciliationJob.afterCancelAck (j : ReconciliationJob) (now : Instant) : Backend → ReconciliationJob
  | .postgres => { j with status := .cancelled, cancelledAt := some (j.cancelledAt.getD now), updatedAt := now }
  | .sqlite => { j with status := .cancelled, stage := .completed, updatedAt := now }

namespace Submission

variable {Artifact : Type} {backend : Backend} {e e' : Submission Artifact}

theorem withJob_eq_ok {x : Except Refusal JobRecord} :
    e.withJob x = .ok e' ↔ x = .ok e'.job ∧ e'.run = e.run ∧ e'.result = e.result := by
  unfold withJob
  rw [map_eq_ok]
  constructor
  · rintro ⟨job, hx, rfl⟩
    exact ⟨hx, rfl, rfl⟩
  · rintro ⟨hx, hrun, hresult⟩
    refine ⟨e'.job, hx, ?_⟩
    cases e'
    simp only at hrun hresult
    subst hrun hresult
    rfl

/-! ## What an accepted change compares and sets -/

/-- The changes that are accepted of a submission, with what becomes of it. -/
inductive Accepted (backend : Backend) (e e' : Submission Artifact) : Change Artifact → Prop
  | claim {workerId token : String} {leaseTime : ℤ} {now : Instant}
      (heligible : e.job.val.eligible now backend = true)
      (hjob : e'.job.val = e.job.val.claimed workerId token leaseTime now)
      (hrun : e'.run = e.run) (hresult : e'.result = e.result) :
      Accepted backend e e' (.claim workerId token leaseTime now)
  | heartbeat {token : String} {generation : Nat} {workerId : String} {leaseTime : ℤ} {now : Instant}
      (hfenced : e.job.val.fencedBy token generation = true)
      (hworker : workerMatches backend workerId e.job.val = true)
      (hjob : e'.job.val =
        { e.job.val with lastHeartbeatAt := some now, leaseExpiresAt := some (now + leaseTime), updatedAt := now })
      (hrun : e'.run = e.run) (hresult : e'.result = e.result) :
      Accepted backend e e' (.attempt token generation (.heartbeat workerId leaseTime) now)
  | transitionStage {token : String} {generation : Nat} {workerId : String} {newStage : JobStage} {now : Instant}
      (hfenced : e.job.val.fencedBy token generation = true)
      (hworker : workerMatches backend workerId e.job.val = true)
      (hjob : e'.job.val = { e.job.val with stage := newStage, updatedAt := now })
      (hrun : e'.run = e.run) (hresult : e'.result = e.result) :
      Accepted backend e e' (.attempt token generation (.transitionStage workerId newStage) now)
  | fail {token : String} {generation : Nat} {code summary : String} {retryable : Bool} {now : Instant}
      (hheld : e.job.val.heldBy token generation = true)
      (hrunning : backend = .postgres → e.job.val.status = .running)
      (hjob : e'.job.val = e.job.val.afterFailure code summary retryable now)
      (hrun : e'.run.val =
        if backend = .postgres ∨ e.job.val.retries retryable = true then e.run.val
        else e.run.val.afterFailure code summary now)
      (hresult : e'.result = e.result) :
      Accepted backend e e' (.attempt token generation (.fail code summary retryable) now)
  | cancelAck {token : String} {generation : Nat} {now : Instant}
      (hheld : e.job.val.heldBy token generation = true)
      (hrunning : backend = .postgres → e.job.val.status = .running)
      (hjob : e'.job.val = e.job.val.afterCancelAck now backend)
      (hrun : e'.run.val =
        if backend = .postgres then e.run.val
        else e.run.val.afterFailure "job_cancelled" "Reconciliation job was cancelled" now)
      (hresult : e'.result = e.result) :
      Accepted backend e e' (.attempt token generation .cancelAck now)
  | complete {token : String} {generation : Nat} {artifacts : List Artifact} {now : Instant}
      (hfenced : e.job.val.fencedBy token generation = true)
      (hfirst : e.result = none)
      (hjob : e'.job.val =
        { e.job.val with status := .completed, stage := .completed, completedAt := some now, updatedAt := now })
      (hrun : completeRun now e.run = .ok e'.run)
      (hresult : e'.result = some artifacts) :
      Accepted backend e e' (.attempt token generation (.complete artifacts) now)
  | cancel {request : CancelRequest}
      (hjob : e'.job.val = e.job.val.afterCancellation request)
      (hrun : e'.run.val = e.run.val.afterCancellation request)
      (hresult : e'.result = e.result) :
      Accepted backend e e' (.cancel request)

theorem complete_eq_ok {token : String} {generation : Nat} {artifacts : List Artifact} {now : Instant} :
    e.complete token generation artifacts now = .ok e' ↔
      e.result = none ∧ completeRun now e.run = .ok e'.run ∧ e.job.val.fencedBy token generation = true ∧
      e'.job.val =
        { e.job.val with status := .completed, stage := .completed, completedAt := some now, updatedAt := now } ∧
      e'.result = some artifacts := by
  unfold complete
  cases hresult : e.result with
  | some _ =>
      constructor
      · intro h
        cases h
      · intro h
        cases h.1
  | none =>
      show (completeRun now e.run >>= fun run => completeJobFenced token generation now e.job >>= fun job =>
        .ok ⟨job, run, some artifacts⟩) = .ok e' ↔ _
      rw [bind_eq_ok]
      constructor
      · rintro ⟨run, hrun, h⟩
        obtain ⟨job, hjob, h⟩ := bind_eq_ok.mp h
        obtain rfl := Except.ok.inj h
        unfold completeJobFenced at hjob
        split at hjob
        · rename_i hfenced
          exact ⟨rfl, hrun, hfenced, storeJob_eq_ok.mp hjob, rfl⟩
        · cases hjob
      · rintro ⟨_, hrun, hfenced, hjob, hresult⟩
        refine ⟨e'.run, hrun, bind_eq_ok.mpr ⟨e'.job, ?_, ?_⟩⟩
        · rw [completeJobFenced, if_pos hfenced]
          exact storeJob_eq_ok.mpr hjob
        · rw [← hresult]

theorem failJob_sqlite (token code summary : String) (generation : Nat) (retryable : Bool) (now : Instant) :
    e.failJob .sqlite token generation code summary retryable now =
      (updateWhere (e.job.val.heldBy token generation) (e.job.val.afterFailure code summary retryable now) >>=
        fun job => (if e.job.val.retries retryable = true then .ok e.run
          else storeRun (e.run.val.afterFailure code summary now)) >>= fun run =>
          .ok { e with job := job, run := run }) := by
  unfold failJob
  cases e.job.val.retries retryable with
  | true => rfl
  | false => rfl

theorem failJob_eq_ok {token code summary : String} {generation : Nat} {retryable : Bool} {now : Instant} :
    e.failJob backend token generation code summary retryable now = .ok e' ↔
      e.job.val.heldBy token generation = true ∧ (backend = .postgres → e.job.val.status = .running) ∧
      e'.job.val = e.job.val.afterFailure code summary retryable now ∧
      (e'.run.val = if backend = .postgres ∨ e.job.val.retries retryable = true then e.run.val
        else e.run.val.afterFailure code summary now) ∧
      e'.result = e.result := by
  cases backend with
  | postgres =>
      show e.withJob _ = .ok e' ↔ _
      rw [withJob_eq_ok, updateWhere_eq_ok, fencedBy_iff, heldBy_iff, if_pos (Or.inl rfl), Subtype.ext_iff]
      tauto
  | sqlite =>
      rw [failJob_sqlite, bind_eq_ok]
      constructor
      · rintro ⟨job, hjob, h⟩
        obtain ⟨run, hrun, h⟩ := bind_eq_ok.mp h
        obtain rfl := Except.ok.inj h
        obtain ⟨hheld, hjob⟩ := updateWhere_eq_ok.mp hjob
        refine ⟨hheld, nofun, hjob, ?_, rfl⟩
        split at hrun
        · rename_i hretries
          rw [if_pos (Or.inr hretries), Except.ok.inj hrun]
        · rename_i hretries
          rw [if_neg (not_or.mpr ⟨nofun, hretries⟩)]
          exact storeRun_eq_ok.mp hrun
      · rintro ⟨hheld, _, hjob, hrun, hresult⟩
        refine ⟨e'.job, updateWhere_eq_ok.mpr ⟨hheld, hjob⟩, bind_eq_ok.mpr ⟨e'.run, ?_, ?_⟩⟩
        · split
          · rename_i hretries
            rw [if_pos (Or.inr hretries)] at hrun
            exact congrArg Except.ok (Subtype.ext hrun.symm)
          · rename_i hretries
            rw [if_neg (not_or.mpr ⟨nofun, hretries⟩)] at hrun
            exact storeRun_eq_ok.mpr hrun
        · rw [← hresult]

theorem cancelAckJob_eq_ok {token : String} {generation : Nat} {now : Instant} :
    e.cancelAckJob backend token generation now = .ok e' ↔
      e.job.val.heldBy token generation = true ∧ (backend = .postgres → e.job.val.status = .running) ∧
      e'.job.val = e.job.val.afterCancelAck now backend ∧
      (e'.run.val = if backend = .postgres then e.run.val
        else e.run.val.afterFailure "job_cancelled" "Reconciliation job was cancelled" now) ∧
      e'.result = e.result := by
  cases backend with
  | postgres =>
      show e.withJob _ = .ok e' ↔ _
      rw [withJob_eq_ok, updateWhere_eq_ok, fencedBy_iff, heldBy_iff, if_pos rfl, Subtype.ext_iff]
      tauto
  | sqlite =>
      show (updateWhere _ _ >>= fun job => storeRun _ >>= fun run => .ok { e with job := job, run := run }) = .ok e' ↔ _
      rw [bind_eq_ok, if_neg nofun]
      constructor
      · rintro ⟨job, hjob, h⟩
        obtain ⟨run, hrun, h⟩ := bind_eq_ok.mp h
        obtain rfl := Except.ok.inj h
        obtain ⟨hheld, hjob⟩ := updateWhere_eq_ok.mp hjob
        exact ⟨hheld, nofun, hjob, storeRun_eq_ok.mp hrun, rfl⟩
      · rintro ⟨hheld, _, hjob, hrun, hresult⟩
        refine ⟨e'.job, updateWhere_eq_ok.mpr ⟨hheld, hjob⟩, bind_eq_ok.mpr ⟨e'.run, storeRun_eq_ok.mpr hrun, ?_⟩⟩
        rw [← hresult]

/-- **A change is accepted exactly as listed.** -/
theorem tryChange_eq_ok {c : Change Artifact} : e.tryChange backend c = .ok e' ↔ Accepted backend e e' c := by
  constructor
  · intro h
    cases c with
    | claim workerId token leaseTime now =>
        obtain ⟨hjob, hrun, hresult⟩ := withJob_eq_ok.mp h
        obtain ⟨heligible, hjob⟩ := updateWhere_eq_ok.mp hjob
        exact .claim heligible hjob hrun hresult
    | cancel request =>
        obtain ⟨run, hrun, h⟩ := bind_eq_ok.mp h
        obtain ⟨job, hjob, h⟩ := bind_eq_ok.mp h
        obtain rfl := Except.ok.inj h
        exact .cancel (storeJob_eq_ok.mp hjob) (storeRun_eq_ok.mp hrun) rfl
    | attempt token generation statement now =>
        cases statement with
        | heartbeat workerId leaseTime =>
            obtain ⟨hjob, hrun, hresult⟩ := withJob_eq_ok.mp h
            obtain ⟨hmatched, hjob⟩ := updateWhere_eq_ok.mp hjob
            obtain ⟨hfenced, hworker⟩ := Bool.and_eq_true_iff.mp hmatched
            exact .heartbeat hfenced hworker hjob hrun hresult
        | transitionStage workerId newStage =>
            obtain ⟨hjob, hrun, hresult⟩ := withJob_eq_ok.mp h
            obtain ⟨hmatched, hjob⟩ := updateWhere_eq_ok.mp hjob
            obtain ⟨hfenced, hworker⟩ := Bool.and_eq_true_iff.mp hmatched
            exact .transitionStage hfenced hworker hjob hrun hresult
        | fail code summary retryable =>
            obtain ⟨hheld, hrunning, hjob, hrun, hresult⟩ := failJob_eq_ok.mp h
            exact .fail hheld hrunning hjob hrun hresult
        | cancelAck =>
            obtain ⟨hheld, hrunning, hjob, hrun, hresult⟩ := cancelAckJob_eq_ok.mp h
            exact .cancelAck hheld hrunning hjob hrun hresult
        | complete artifacts =>
            obtain ⟨hfirst, hrun, hfenced, hjob, hresult⟩ := complete_eq_ok.mp h
            exact .complete hfenced hfirst hjob hrun hresult
  · intro h
    cases h with
    | claim heligible hjob hrun hresult =>
        exact withJob_eq_ok.mpr ⟨updateWhere_eq_ok.mpr ⟨heligible, hjob⟩, hrun, hresult⟩
    | heartbeat hfenced hworker hjob hrun hresult =>
        exact withJob_eq_ok.mpr ⟨updateWhere_eq_ok.mpr ⟨Bool.and_eq_true_iff.mpr ⟨hfenced, hworker⟩, hjob⟩, hrun, hresult⟩
    | transitionStage hfenced hworker hjob hrun hresult =>
        exact withJob_eq_ok.mpr ⟨updateWhere_eq_ok.mpr ⟨Bool.and_eq_true_iff.mpr ⟨hfenced, hworker⟩, hjob⟩, hrun, hresult⟩
    | fail hheld hrunning hjob hrun hresult => exact failJob_eq_ok.mpr ⟨hheld, hrunning, hjob, hrun, hresult⟩
    | cancelAck hheld hrunning hjob hrun hresult =>
        exact cancelAckJob_eq_ok.mpr ⟨hheld, hrunning, hjob, hrun, hresult⟩
    | complete hfenced hfirst hjob hrun hresult =>
        exact complete_eq_ok.mpr ⟨hfirst, hrun, hfenced, hjob, hresult⟩
    | cancel hjob hrun hresult =>
        refine bind_eq_ok.mpr ⟨e'.run, storeRun_eq_ok.mpr hrun, bind_eq_ok.mpr ⟨e'.job, storeJob_eq_ok.mpr hjob, ?_⟩⟩
        rw [← hresult]
        rfl

/-- A change is refused, or it is accepted. -/
theorem change_cases (backend : Backend) (e : Submission Artifact) (c : Change Artifact) :
    e.change backend c = e ∨ Accepted backend e (e.change backend c) c := by
  unfold change
  cases h : e.tryChange backend c with
  | error refusal => exact Or.inl rfl
  | ok e' => exact Or.inr (tryChange_eq_ok.mp h)

theorem change_of_accepted {c : Change Artifact} (h : Accepted backend e e' c) : e.change backend c = e' := by
  unfold change
  rw [tryChange_eq_ok.mpr h]
  rfl

/-! ## What holds of every change -/

/-- A held job stays held only by the same attempt: a new one comes with a claim, and the next generation. -/
theorem change_claimed (backend : Backend) (e : Submission Artifact) (c : Change Artifact) :
    (∃ workerId token leaseTime now, c = .claim workerId token leaseTime now ∧
        (e.change backend c).job.val = e.job.val.claimed workerId token leaseTime now ∧
        e.job.val.eligible now backend = true) ∨
      (e.change backend c).job.val.leaseGeneration = e.job.val.leaseGeneration ∧
        (e.change backend c).job.val.maxAttempts = e.job.val.maxAttempts ∧
        ((e.change backend c).job.val.attemptToken = e.job.val.attemptToken ∨
          (e.change backend c).job.val.attemptToken = none) := by
  rcases change_cases backend e c with h | h
  · rw [h]
    exact Or.inr ⟨rfl, rfl, Or.inl rfl⟩
  · cases h with
    | claim heligible hjob => exact Or.inl ⟨_, _, _, _, rfl, hjob, heligible⟩
    | heartbeat _ _ hjob => rw [hjob]; exact Or.inr ⟨rfl, rfl, Or.inl rfl⟩
    | transitionStage _ _ hjob => rw [hjob]; exact Or.inr ⟨rfl, rfl, Or.inl rfl⟩
    | fail _ _ hjob => 
        rw [hjob, ReconciliationJob.afterFailure]
        split
        · exact Or.inr ⟨rfl, rfl, Or.inr rfl⟩
        · exact Or.inr ⟨rfl, rfl, Or.inl rfl⟩
    | cancelAck _ _ hjob => 
        rw [hjob]
        cases backend
        · exact Or.inr ⟨rfl, rfl, Or.inl rfl⟩
        · exact Or.inr ⟨rfl, rfl, Or.inl rfl⟩
    | complete _ _ hjob => rw [hjob]; exact Or.inr ⟨rfl, rfl, Or.inl rfl⟩
    | cancel hjob => 
        rw [hjob, ReconciliationJob.afterCancellation]
        split
        · exact Or.inr ⟨rfl, rfl, Or.inl rfl⟩
        · exact Or.inr ⟨rfl, rfl, Or.inl rfl⟩

theorem status_of_eligible {j : ReconciliationJob} {now : Instant} {backend : Backend}
    (h : j.eligible now backend = true) : j.status = .queued ∨ j.status = .running := by
  cases backend <;> simp only [ReconciliationJob.eligible, ReconciliationJob.leaseExpired, Bool.and_eq_true,
    Bool.or_eq_true, decide_eq_true_eq] at h
  · exact h.1.1.imp_right And.left
  · exact h.1.imp_right fun h => h.1.1

/-- An eligible job with attempts left can be claimed. -/
theorem claim_accepted {now : Instant} (h : e.job.val.eligible now backend = true)
    (hleft : e.job.val.attemptCount < e.job.val.maxAttempts) (workerId token : String) (leaseTime : ℤ) :
    (e.change backend (.claim workerId token leaseTime now)).job.val =
      e.job.val.claimed workerId token leaseTime now := by
  have hlifecycle := e.job.lifecycle
  have hattempts : e.job.val.attemptCount + 1 ≤ e.job.val.maxAttempts := hleft
  have hcheck : (e.job.val.claimed workerId token leaseTime now).check = true := by
    rcases status_of_eligible h with hstatus | hstatus <;>
      simp only [ReconciliationJob.lifecycle, hstatus, Bool.and_eq_true, Option.isNone_iff_eq_none] at hlifecycle
    · simp [ReconciliationJob.claimed, ReconciliationJob.check, ReconciliationJob.lifecycle, hlifecycle, hattempts]
    · simp [ReconciliationJob.claimed, ReconciliationJob.check, ReconciliationJob.lifecycle, hlifecycle, hattempts]
  have haccepted : Accepted backend e { e with job := ⟨_, hcheck⟩ } (.claim workerId token leaseTime now) :=
    .claim h rfl rfl rfl
  rw [change_of_accepted haccepted]

/-- A queued job has attempts left. -/
def AttemptsLeft (e : Submission Artifact) : Prop :=
  e.job.val.status = .queued → e.job.val.attemptCount < e.job.val.maxAttempts

theorem AttemptsLeft.change (h : e.AttemptsLeft) (backend : Backend) (c : Change Artifact) :
    (e.change backend c).AttemptsLeft := by
  rcases change_cases backend e c with hsame | haccepted
  · rw [hsame]
    exact h
  · unfold AttemptsLeft
    cases haccepted with
    | claim _ hjob => rw [hjob]; nofun
    | heartbeat _ _ hjob => rw [hjob]; exact h
    | transitionStage _ _ hjob => rw [hjob]; exact h
    | fail _ _ hjob =>
        rw [hjob, ReconciliationJob.afterFailure]
        split
        · rename_i hretries
          intro _
          exact of_decide_eq_true (Bool.and_eq_true_iff.mp hretries).2
        · nofun
    | cancelAck _ _ hjob =>
        rw [hjob]
        cases backend
        · nofun
        · nofun
    | complete _ _ hjob => rw [hjob]; nofun
    | cancel hjob =>
        rw [hjob, ReconciliationJob.afterCancellation]
        split
        · nofun
        · exact h

end Submission

/-! ## Steps of the table -/

namespace ControlPlane

variable {Artifact : Type} {backend : Backend} {s : ControlPlane Artifact} {a : Action Artifact} {id : Nat}
  {e e' : Submission Artifact}

/-- The change that an action makes, and the job that it is aimed at. -/
def target (backend : Backend) (s : ControlPlane Artifact) : Action Artifact → Option (Nat × Change Artifact)
  | .submit .. => none
  | .claimNext workerId token leaseTime now locked =>
    (s.candidate backend now locked).map fun jobId => (jobId, .claim workerId token leaseTime now)
  | .attempt jobId token generation statement now => some (jobId, .attempt token generation statement now)
  | .readJob .. => none
  | .readRun _ => none
  | .writeCancellation request =>
    (s.requests[request]?).bind fun r =>
      if r.queued ∧ r.runInitiated = none then none else some (r.jobId, .cancel r)

theorem get?_modify (s : ControlPlane Artifact) (jobId : Nat) (c : Change Artifact) (id : Nat) :
    (s.modify backend jobId c).submissions.get? id =
      if id = jobId then (s.submissions.get? id).map fun e => e.change backend c else s.submissions.get? id := by
  cases h : s.submissions.get? jobId with
  | none =>
      have hmodify : s.modify backend jobId c = s := by rw [modify, h]
      rw [hmodify]
      split
      · rename_i heq
        rw [heq, h]
        rfl
      · rfl
  | some e =>
      have hmodify : s.modify backend jobId c =
          { s with submissions := s.submissions.insert jobId (e.change backend c) } := by rw [modify, h]
      rw [hmodify]
      show (s.submissions.insert jobId (e.change backend c)).get? id = _
      rw [Dict.get?_insert]
      split
      · rename_i heq
        rw [heq, h]
        rfl
      · rfl

/-- A step that is aimed at a job changes that one. -/
theorem step_of_target {jobId : Nat} {c : Change Artifact} (h : s.target backend a = some (jobId, c)) :
    (s.step backend a).submissions = (s.modify backend jobId c).submissions := by
  cases a with
  | submit => cases h
  | readJob => cases h
  | readRun => cases h
  | attempt =>
      cases h
      rfl
  | claimNext workerId token leaseTime now locked =>
      obtain ⟨_, hcandidate, heq⟩ := Option.map_eq_some_iff.mp h
      cases heq
      rw [step, hcandidate]
  | writeCancellation request =>
      obtain ⟨r, hr, h⟩ := Option.bind_eq_some_iff.mp h
      rw [step, writeCancellation, hr]
      dsimp only
      split at h
      · cases h
      · rename_i hready
        cases h
        rw [if_neg hready]

/-- A step that is aimed at no job is a submission, or leaves the rows as they are. -/
theorem step_of_no_target (h : s.target backend a = none) :
    (∃ jobId now, a = .submit jobId now) ∨ (s.step backend a).submissions = s.submissions := by
  cases a with
  | submit jobId now => exact Or.inl ⟨jobId, now, rfl⟩
  | readJob jobId principalId now =>
      apply Or.inr
      rw [step, readJob]
      split
      · rfl
      · split <;> rfl
  | readRun request =>
      apply Or.inr
      rw [step, readRun]
      split
      · rfl
      · split <;> rfl
  | attempt => cases h
  | claimNext workerId token leaseTime now locked =>
      apply Or.inr
      rw [step, Option.map_eq_none_iff.mp h]
  | writeCancellation request =>
      apply Or.inr
      rw [step, writeCancellation]
      split
      · rfl
      · rename_i r hr
        simp only [target, hr, Option.bind_some, ite_eq_left_iff, reduceCtorEq, imp_false, not_not] at h
        rw [if_pos h]

theorem get?_submit (jobId : Nat) (now : Instant) (id : Nat) :
    (s.step backend (.submit jobId now)).submissions.get? id =
      if id = jobId ∧ s.submissions.get? id = none then some (submitted now) else s.submissions.get? id := by
  rw [step]
  by_cases hfree : (s.submissions.get? jobId).isSome = true
  · rw [if_pos hfree, if_neg]
    rintro ⟨rfl, hnone⟩
    rw [hnone] at hfree
    cases hfree
  · rw [if_neg hfree]
    show (s.submissions.insert jobId (submitted now)).get? id = _
    rw [Dict.get?_insert]
    by_cases heq : id = jobId
    · subst heq
      rw [if_pos rfl, if_pos ⟨rfl, Option.not_isSome_iff_eq_none.mp hfree⟩]
    · rw [if_neg heq, if_neg fun h => heq h.1]

/-- What is selected is eligible. -/
theorem eligible_of_candidate {now : Instant} {locked : List Nat} (h : s.candidate backend now locked = some id) :
    ∃ e, s.submissions.get? id = some e ∧ e.job.val.eligible now backend = true := by
  unfold candidate at h
  obtain ⟨p, hp, rfl⟩ := Option.map_eq_some_iff.mp h
  have hmem := List.mem_of_mem_head? hp
  rw [List.mem_insertionSort, List.mem_filter, Bool.and_eq_true] at hmem
  exact ⟨p.2, Dict.get?_of_mem hmem.1, hmem.2.1⟩

/-- **A step makes the change that it is aimed at**, and no other. -/
theorem get?_step (backend : Backend) (a : Action Artifact) (he : s.submissions.get? id = some e) :
    (∀ c, s.target backend a ≠ some (id, c)) ∧ (s.step backend a).submissions.get? id = some e ∨
      ∃ c, s.target backend a = some (id, c) ∧
        (s.step backend a).submissions.get? id = some (e.change backend c) := by
  cases h : s.target backend a with
  | none =>
      refine Or.inl ⟨nofun, ?_⟩
      rcases step_of_no_target h with ⟨jobId, now, rfl⟩ | hsame
      · rw [get?_submit, he, if_neg]
        rintro ⟨_, h⟩
        cases h
      · rw [hsame, he]
  | some p =>
      obtain ⟨jobId, c⟩ := p
      rw [step_of_target h, get?_modify, he]
      by_cases heq : id = jobId
      · subst heq
        exact Or.inr ⟨c, rfl, if_pos rfl⟩
      · exact Or.inl ⟨fun c' h' => heq (Prod.mk.inj (Option.some.inj h')).1.symm, if_neg heq⟩

/-- A row that was not there is one of a submission. -/
theorem get?_step_new (he : s.submissions.get? id = none) (he' : (s.step backend a).submissions.get? id = some e') :
    ∃ now, a = .submit id now ∧ e' = submitted now := by
  cases h : s.target backend a with
  | some p =>
      obtain ⟨jobId, c⟩ := p
      rw [step_of_target h, get?_modify, he, Option.map_none, ite_self] at he'
      cases he'
  | none =>
      rcases step_of_no_target h with ⟨jobId, now, rfl⟩ | hsame
      · rw [get?_submit, he] at he'
        split at he'
        · rename_i heq
          rw [heq.1]
          exact ⟨now, rfl, (Option.some.inj he').symm⟩
        · cases he'
      · rw [hsame, he] at he'
        cases he'

/-- **What every change keeps** of a submission holds of all of them. -/
theorem forall_step {P : Nat → Submission Artifact → Prop} (hsubmit : ∀ id now, P id (submitted now))
    (hchange : ∀ id e c, s.submissions.get? id = some e → P id e → s.target backend a = some (id, c) →
      P id (e.change backend c))
    (h : ∀ id e, s.submissions.get? id = some e → P id e) :
    ∀ id e, (s.step backend a).submissions.get? id = some e → P id e := by
  intro id e' he'
  cases he : s.submissions.get? id with
  | none =>
      obtain ⟨now, _, rfl⟩ := get?_step_new he he'
      exact hsubmit id now
  | some e =>
      rcases get?_step backend a he with ⟨_, hsame⟩ | ⟨c, htarget, hchanged⟩
      · obtain rfl := Option.some.inj (hsame.symm.trans he')
        exact h id e he
      · obtain rfl := Option.some.inj (hchanged.symm.trans he')
        exact hchange id e c he (h id e he) htarget

theorem attemptsLeft_step (h : ∀ id e, s.submissions.get? id = some e → e.AttemptsLeft) :
    ∀ id e, (s.step backend a).submissions.get? id = some e → e.AttemptsLeft :=
  forall_step (P := fun _ e => e.AttemptsLeft) (fun _ _ _ => Nat.zero_lt_succ 2)
    (fun _ _ c _ he _ => he.change backend c) h

/-- **A queued job has attempts left**, in every state that the table can come to. -/
theorem attemptsLeft_of_reachable (h : Reachable (step backend) {} s) (he : s.submissions.get? id = some e) :
    e.AttemptsLeft :=
  Reachable.invariant (step backend) (I := fun s => ∀ id e, s.submissions.get? id = some e → e.AttemptsLeft)
    (fun _ _ => attemptsLeft_step) (fun _ _ he => by cases he) h id e he

end ControlPlane

end Untangle
