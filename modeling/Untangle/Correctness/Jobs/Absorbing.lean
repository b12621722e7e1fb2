import Untangle.Correctness.Jobs.Changes

/-!
# `Correctness.Jobs.Absorbing` — which steps leave a terminal status

A terminal status is meant to stay. The statements of PostgreSQL compare the status, and the lifecycle constraint
refuses most of what does not; three overwrites get through. A cancellation that read a queued job makes a failed one
cancelled, and the emulation's `fail_job` and `cancel_ack_job`, which do not compare the status, requeue a terminal
job or turn one terminal status into another. `Submission.overwrittenBy` lists them, and terminal statuses stay in
exactly the runs without such a step (`terminal_iff`).
-/

namespace Untangle

open Lib

/-- A job has a completion time exactly if it is completed. -/
theorem JobRecord.completedAt_isSome_iff (job : JobRecord) :
    job.val.completedAt.isSome = true ↔ job.val.status = .completed := by
  have h := job.lifecycle
  unfold ReconciliationJob.lifecycle at h
  cases hstatus : job.val.status <;> simp only [hstatus, Bool.and_eq_true, Option.isNone_iff_eq_none] at h
  · simp [h]
  · simp [h]
  · obtain ⟨c, hc, _⟩ := (Option.any_eq_true _ _).mp h.1.1
    simp [hc]
  · simp [h]
  · simp [h]

namespace Submission

variable {Artifact : Type}

/-- The changes that a terminal status does not survive. -/
def overwrittenBy (backend : Backend) (e : Submission Artifact) : Change Artifact → Bool
  | .cancel r => r.queued && e.job.val.status = .failed && (e.run.val.afterCancellation r).check
  | .attempt token generation (.fail code summary retryable) now =>
    backend = .sqlite && e.job.val.heldBy token generation && (e.job.val.retries retryable ||
      (e.job.val.status = .cancelled && atOrAfter (some now) e.job.val.startedAt &&
        (e.run.val.afterFailure code summary now).check))
  | .attempt token generation .cancelAck now =>
    backend = .sqlite && e.job.val.heldBy token generation && e.job.val.status = .failed &&
      e.job.val.cancelledAt.isSome &&
      (e.run.val.afterFailure "job_cancelled" "Reconciliation job was cancelled" now).check
  | _ => false

variable {backend : Backend} {e e' : Submission Artifact} {c : Change Artifact}

/-- A completed job stays completed for as long as its completion time stays. -/
theorem completed_of_completedAt (hcompleted : e.job.val.status = .completed)
    (hkept : e'.job.val.completedAt = e.job.val.completedAt) : e'.job.val.status = .completed :=
  e'.job.completedAt_isSome_iff.mp (hkept ▸ e.job.completedAt_isSome_iff.mpr hcompleted)

/-- **An accepted change of a terminal job** that is not listed leaves the status. -/
theorem status_of_accepted (hterminal : e.job.val.status.terminal = true) (h : Accepted backend e e' c)
    (hkept : e.overwrittenBy backend c = false) : e'.job.val.status = e.job.val.status := by
  have hnotRunning : e.job.val.status ≠ .running := by
    intro hrunning
    rw [hrunning] at hterminal
    cases hterminal
  cases h with
  | claim heligible =>
      rcases status_of_eligible heligible with hqueued | hrunning
      · rw [hqueued] at hterminal
        cases hterminal
      · exact absurd hrunning hnotRunning
  | heartbeat hfenced => exact absurd (fencedBy_iff.mp hfenced).2.2 hnotRunning
  | transitionStage hfenced => exact absurd (fencedBy_iff.mp hfenced).2.2 hnotRunning
  | complete hfenced => exact absurd (fencedBy_iff.mp hfenced).2.2 hnotRunning
  | @fail token generation code summary retryable now hheld hrunning hjob hrun =>
      cases backend with
      | postgres => exact absurd (hrunning rfl) hnotRunning
      | sqlite =>
          simp only [overwrittenBy, hheld, decide_true, Bool.true_and, Bool.or_eq_false_iff] at hkept
          obtain ⟨hlast, hcancelled⟩ := hkept
          rw [ReconciliationJob.afterFailure, if_neg (by rw [hlast]; exact Bool.false_ne_true)] at hjob
          rw [if_neg (by simp [hlast])] at hrun
          have hfailed : e'.job.val.status = .failed := by rw [hjob]
          cases hstatus : e.job.val.status with
          | queued => rw [hstatus] at hterminal; cases hterminal
          | running => exact absurd hstatus hnotRunning
          | failed => exact hfailed
          | completed => exact completed_of_completedAt hstatus (by rw [hjob])
          | cancelled =>
              -- the row that would be written passes both checks, so the change is listed
              have hlifecycle := e'.job.lifecycle
              have hcheck := e'.run.property
              simp only [ReconciliationJob.lifecycle, hfailed, Bool.and_eq_true] at hlifecycle
              rw [hjob] at hlifecycle
              rw [hrun] at hcheck
              simp [hstatus, hlifecycle.1.1, hcheck] at hcancelled
  | @cancelAck token generation now hheld hrunning hjob hrun =>
      cases backend with
      | postgres => exact absurd (hrunning rfl) hnotRunning
      | sqlite =>
          rw [ReconciliationJob.afterCancelAck] at hjob
          rw [if_neg Backend.sqlite_ne_postgres] at hrun
          have hcancelled : e'.job.val.status = .cancelled := by rw [hjob]
          cases hstatus : e.job.val.status with
          | queued => rw [hstatus] at hterminal; cases hterminal
          | running => exact absurd hstatus hnotRunning
          | cancelled => exact hcancelled
          | completed => exact completed_of_completedAt hstatus (by rw [hjob])
          | failed =>
              have hlifecycle := e'.job.lifecycle
              have hcheck := e'.run.property
              simp only [ReconciliationJob.lifecycle, hcancelled, Bool.and_eq_true] at hlifecycle
              rw [hjob] at hlifecycle
              rw [hrun] at hcheck
              simp [overwrittenBy, hheld, hstatus, hlifecycle.1, hcheck] at hkept
  | @cancel r hjob hrun =>
      rw [ReconciliationJob.afterCancellation] at hjob
      cases hqueued : r.queued with
      | false => rw [hjob, hqueued]; rfl
      | true =>
          rw [hqueued] at hjob
          have hcancelled : e'.job.val.status = .cancelled := by rw [hjob]; rfl
          cases hstatus : e.job.val.status with
          | queued => rw [hstatus] at hterminal; cases hterminal
          | running => exact absurd hstatus hnotRunning
          | cancelled => exact hcancelled
          | completed => exact completed_of_completedAt hstatus (by rw [hjob]; rfl)
          | failed =>
              have hcheck := e'.run.property
              rw [hrun] at hcheck
              simp [overwrittenBy, hqueued, hstatus, hcheck] at hkept

/-- A change that is accepted and writes another status is one that changes it. -/
theorem status_of_written (job : ReconciliationJob) {run : ReconciliationRun} (hjob : job.check = true)
    (hrun : run.check = true)
    (haccepted : Accepted backend e { e with job := ⟨job, hjob⟩, run := ⟨run, hrun⟩ } c)
    (hstatus : job.status ≠ e.job.val.status) : (e.change backend c).job.val.status ≠ e.job.val.status := by
  rw [change_of_accepted haccepted]
  exact hstatus

/-- A change that is listed is accepted, and makes another status of a terminal one. -/
theorem status_of_overwritten (hterminal : e.job.val.status.terminal = true)
    (h : e.overwrittenBy backend c = true) : (e.change backend c).job.val.status ≠ e.job.val.status := by
  have hbounds := e.job.attemptCount_le
  have hnotCompleted : e.job.val.status ≠ .completed → e.job.val.completedAt = none := by
    intro hstatus
    rw [← Option.not_isSome_iff_eq_none, e.job.completedAt_isSome_iff]
    exact hstatus
  cases c with
  | claim => cases h
  | cancel r =>
      simp only [overwrittenBy, Bool.and_eq_true, decide_eq_true_eq] at h
      obtain ⟨⟨hqueued, hfailed⟩, hrun⟩ := h
      have hcompletedAt := hnotCompleted (by rw [hfailed]; decide)
      apply status_of_written (e.job.val.afterCancellation r) _ hrun (.cancel rfl rfl rfl)
      · rw [hfailed, ReconciliationJob.afterCancellation, if_pos hqueued]
        intro h
        cases h
      · rw [ReconciliationJob.afterCancellation, if_pos hqueued]
        simp [ReconciliationJob.check, ReconciliationJob.lifecycle, hcompletedAt, hbounds]
  | attempt token generation statement now =>
      cases statement with
      | heartbeat => cases h
      | transitionStage => cases h
      | complete => cases h
      | fail code summary retryable =>
          simp only [overwrittenBy, Bool.and_eq_true, Bool.or_eq_true, decide_eq_true_eq] at h
          obtain ⟨⟨rfl, hheld⟩, h⟩ := h
          have hanyStatus : Backend.sqlite = .postgres → e.job.val.status = .running := fun h => absurd h Backend.sqlite_ne_postgres
          by_cases hretries : e.job.val.retries retryable = true
          · have hjob : e.job.val.afterFailure code summary retryable now =
                { e.job.val with
                  status := .queued, stage := .queued, failedAt := none, attemptToken := none, workerId := none
                  leaseExpiresAt := none, startedAt := none, completedAt := none, errorCode := none
                  errorSummary := none, updatedAt := now } := if_pos hretries
            apply status_of_written (e.job.val.afterFailure code summary retryable now) _ e.run.property
              (.fail hheld hanyStatus rfl (if_pos (Or.inr hretries)).symm rfl)
            · rw [hjob]
              intro hqueued
              rw [← hqueued] at hterminal
              cases hterminal
            · rw [hjob]
              simp [ReconciliationJob.check, ReconciliationJob.lifecycle, hbounds]
          · obtain ⟨⟨hcancelled, hclock⟩, hrun⟩ := h.resolve_left hretries
            have hcompletedAt := hnotCompleted (by rw [hcancelled]; decide)
            have hjob : e.job.val.afterFailure code summary retryable now =
                { e.job.val with
                  status := .failed, stage := .completed, failedAt := some now, errorCode := some code
                  errorSummary := some summary, updatedAt := now } := if_neg hretries
            apply status_of_written (e.job.val.afterFailure code summary retryable now) _ hrun
              (.fail hheld hanyStatus rfl (if_neg (not_or.mpr ⟨Backend.sqlite_ne_postgres, hretries⟩)).symm rfl)
            · rw [hjob, hcancelled]
              intro h
              cases h
            · rw [hjob]
              simp [ReconciliationJob.check, ReconciliationJob.lifecycle, hbounds, hclock, hcompletedAt]
      | cancelAck =>
          simp only [overwrittenBy, Bool.and_eq_true, decide_eq_true_eq] at h
          obtain ⟨⟨⟨⟨rfl, hheld⟩, hfailed⟩, hcancelledAt⟩, hrun⟩ := h
          have hcompletedAt := hnotCompleted (by rw [hfailed]; decide)
          have hanyStatus : Backend.sqlite = .postgres → e.job.val.status = .running := fun h => absurd h Backend.sqlite_ne_postgres
          apply status_of_written (e.job.val.afterCancelAck now .sqlite) _ hrun
            (.cancelAck hheld hanyStatus rfl (if_neg Backend.sqlite_ne_postgres).symm rfl)
          · rw [hfailed]
            intro h
            cases h
          · rw [ReconciliationJob.afterCancelAck]
            simp [ReconciliationJob.check, ReconciliationJob.lifecycle, hbounds, hcancelledAt, hcompletedAt]

/-- **A terminal status survives a change** exactly if the change is not listed. -/
theorem status_change_iff (hterminal : e.job.val.status.terminal = true) :
    (e.change backend c).job.val.status = e.job.val.status ↔ e.overwrittenBy backend c = false := by
  constructor
  · intro h
    by_contra hlisted
    exact status_of_overwritten hterminal (Bool.not_eq_false _ ▸ hlisted) h
  · intro h
    rcases change_cases backend e c with hsame | haccepted
    · rw [hsame]
    · exact status_of_accepted hterminal haccepted h

end Submission

/-! ## Runs -/

namespace ControlPlane

variable {Artifact : Type}

/-- Every job that is terminal in the first state has the same status in the second. -/
def KeepsTerminal (s t : ControlPlane Artifact) : Prop :=
  ∀ id e, s.submissions.get? id = some e → e.job.val.status.terminal = true →
    ∃ e', t.submissions.get? id = some e' ∧ e'.job.val.status = e.job.val.status

/-- A step that is aimed at a terminal job is not one of those that are listed. -/
def SparesTerminal (backend : Backend) (s : ControlPlane Artifact) (a : Action Artifact) : Prop :=
  ∀ id e c, s.submissions.get? id = some e → e.job.val.status.terminal = true → s.target backend a = some (id, c) →
    e.overwrittenBy backend c = false

theorem KeepsTerminal.refl (s : ControlPlane Artifact) : s.KeepsTerminal s := fun _ e he _ => ⟨e, he, rfl⟩

theorem KeepsTerminal.trans {s t u : ControlPlane Artifact} (h : s.KeepsTerminal t) (h' : t.KeepsTerminal u) :
    s.KeepsTerminal u := by
  intro id e he hterminal
  obtain ⟨e', he', hstatus⟩ := h id e he hterminal
  obtain ⟨e'', he'', hstatus'⟩ := h' id e' he' (hstatus ▸ hterminal)
  exact ⟨e'', he'', hstatus'.trans hstatus⟩

theorem keepsTerminal_step_iff (backend : Backend) (s : ControlPlane Artifact) (a : Action Artifact) :
    s.KeepsTerminal (s.step backend a) ↔ s.SparesTerminal backend a := by
  constructor
  · intro h id e c he hterminal htarget
    obtain ⟨e', he', hstatus⟩ := h id e he hterminal
    rcases get?_step backend a he with ⟨hother, _⟩ | ⟨c', htarget', hchanged⟩
    · exact absurd htarget (hother c)
    · obtain rfl := (Prod.mk.inj (Option.some.inj (htarget.symm.trans htarget'))).2
      obtain rfl := Option.some.inj (hchanged.symm.trans he')
      exact (Submission.status_change_iff hterminal).mp hstatus
  · intro h id e he hterminal
    rcases get?_step backend a he with ⟨_, hsame⟩ | ⟨c, htarget, hchanged⟩
    · exact ⟨e, hsame, rfl⟩
    · exact ⟨_, hchanged, (Submission.status_change_iff hterminal).mpr (h id e c he hterminal htarget)⟩

/-- **Terminal statuses stay throughout a run** exactly if no step of it is one of the overwrites. -/
theorem terminal_iff (backend : Backend) (s : ControlPlane Artifact) (actions : List (Action Artifact)) :
    Throughout (step backend) KeepsTerminal s actions ↔ Meets (step backend) (SparesTerminal backend) s actions := by
  rw [throughout_iff_meets _ KeepsTerminal.refl fun _ _ _ => KeepsTerminal.trans]
  exact meets_congr _ (keepsTerminal_step_iff backend) s actions

/-- The status of a job. -/
def statusOf (s : ControlPlane Artifact) (id : Nat) : Option JobStatus :=
  (s.submissions.get? id).map fun e => e.job.val.status

theorem KeepsTerminal.statusOf {s t : ControlPlane Artifact} (h : s.KeepsTerminal t) {id : Nat} {status : JobStatus}
    (hs : s.statusOf id = some status) (hterminal : status.terminal = true) : t.statusOf id = some status := by
  obtain ⟨e, he, rfl⟩ := Option.map_eq_some_iff.mp hs
  obtain ⟨e', he', hstatus⟩ := h id e he hterminal
  rw [ControlPlane.statusOf, he', ← hstatus]
  rfl

/-- A job fails between the reads of a cancellation and its write. -/
def lateCancellation : List (Action Unit) :=
  [.submit 0 0, .readJob 0 7 1, .readRun 0, .claimNext "w" "t" 60 2 [],
    .attempt 0 "t" 1 (.fail "INVALID_INPUT" "Missing required input file" false) 3, .writeCancellation 0]

theorem lateCancellation_overwrites :
    ¬ Throughout (step .postgres) KeepsTerminal {} lateCancellation ∧
      ¬ Throughout (step .sqlite) KeepsTerminal {} lateCancellation := by
  constructor
  · intro h
    have hfailed : (run (step .postgres) {} (lateCancellation.take 5)).statusOf 0 = some .failed := by decide +kernel
    have hcancelled : (run (step .postgres) {} lateCancellation).statusOf 0 = some .cancelled := by decide +kernel
    have hkept := (h (lateCancellation.take 5) (lateCancellation.drop 5) [] rfl).statusOf hfailed rfl
    cases hcancelled.symm.trans hkept
  · intro h
    have hfailed : (run (step .sqlite) {} (lateCancellation.take 5)).statusOf 0 = some .failed := by decide +kernel
    have hcancelled : (run (step .sqlite) {} lateCancellation).statusOf 0 = some .cancelled := by decide +kernel
    have hkept := (h (lateCancellation.take 5) (lateCancellation.drop 5) [] rfl).statusOf hfailed rfl
    cases hcancelled.symm.trans hkept

end ControlPlane

end Untangle
