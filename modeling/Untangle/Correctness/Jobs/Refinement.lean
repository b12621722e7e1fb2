import Untangle.Correctness.Jobs.Attempts

/-!
# `Correctness.Jobs.Refinement` — workers as clients of the job table

The machine of `Persistence.ControlPlane` lets anyone issue any statement at any time. What the workers do in order is
a special case of that: the table with the one job, and the cancellations that have been read, is a view of their
machine (`JobExecution.controlPlane`), every step is seen there as a step or not at all (`controlPlane_step`), and so
every run of the workers is a run of the table (`worker_runs_refine`).
-/

namespace Untangle

open Lib

namespace JobExecution

/-- The table with the one job. -/
def controlPlane (s : JobExecution) : ControlPlane ArtifactMetadata where
  submissions := ⟨[(0, s.submission)], List.nodup_singleton _⟩
  requests := s.requests

/-- Every request is about the one job. -/
def OneJob (s : JobExecution) : Prop := ∀ r ∈ s.requests, r.jobId = 0

variable {backend : Backend} {p : Publication} {s : JobExecution}

@[simp] theorem requests_controlPlane (s : JobExecution) : s.controlPlane.requests = s.requests := rfl

@[simp] theorem get?_controlPlane (s : JobExecution) : s.controlPlane.submissions.get? 0 = some s.submission := rfl

/-- A change of the one job. -/
theorem modify_controlPlane (s : JobExecution) (c : Change ArtifactMetadata) :
    s.controlPlane.modify backend 0 c = { s with submission := s.submission.change backend c }.controlPlane := rfl

/-- A claim finds the one job if it is eligible. -/
theorem candidate_controlPlane {now : Instant} (h : s.submission.job.val.eligible now backend = true) :
    s.controlPlane.candidate backend now [] = some 0 := by
  have hfree : (s.controlPlane.submissions.items.filter fun q =>
      q.2.job.val.eligible now backend && !(backend = .postgres && q.1 ∈ [])) = [(0, s.submission)] := by
    show List.filter _ [(0, s.submission)] = _
    rw [List.filter_cons_of_pos (by simp [h]), List.filter_nil]
  unfold ControlPlane.candidate
  rw [hfree]
  rfl

theorem oneJob_step (h : s.OneJob) (action : WorkerAction) : (s.step backend p action).OneJob := by
  cases action with
  | claim workerId attemptToken leaseTime now =>
      show (s.claim backend workerId attemptToken leaseTime now).OneJob
      unfold claim
      split
      · exact h
      · exact h
  | attempt index step now =>
      rw [JobExecution.step]
      split
      · exact h
      · exact h
  | readJob principalId now =>
      show (s.readJob principalId now).OneJob
      unfold readJob
      split
      · exact h
      · intro r hr
        rcases List.mem_append.mp hr with hr | hr
        · exact h r hr
        · obtain rfl := List.mem_singleton.mp hr
          rfl
  | readRun request =>
      show (s.readRun request).OneJob
      unfold readRun
      split
      · exact h
      · rename_i r hr
        intro r' hr'
        rcases List.mem_or_eq_of_mem_set hr' with hr' | rfl
        · exact h r' hr'
        · exact h r (List.mem_of_getElem? hr)
  | writeCancellation request =>
      show (s.writeCancellation backend request).OneJob
      unfold writeCancellation
      split
      · exact h
      · split
        · exact h
        · exact fun r hr => h r (List.mem_of_mem_eraseIdx hr)

/-- **A step of the workers is a step on the table, or is not seen there.** -/
theorem controlPlane_step (h : s.OneJob) (action : WorkerAction) :
    (s.step backend p action).controlPlane = s.controlPlane ∨
      ∃ seen, (s.step backend p action).controlPlane = s.controlPlane.step backend seen := by
  cases action with
  | claim workerId attemptToken leaseTime now =>
      show (s.claim backend workerId attemptToken leaseTime now).controlPlane = _ ∨
        ∃ seen, (s.claim backend workerId attemptToken leaseTime now).controlPlane = _
      unfold claim
      split
      · exact Or.inl rfl
      · rename_i e' hclaim
        have haccepted := Submission.tryChange_eq_ok.mp hclaim
        refine Or.inr ⟨.claimNext workerId attemptToken leaseTime now [], ?_⟩
        cases haccepted with
        | claim heligible =>
            rw [ControlPlane.step, candidate_controlPlane heligible]
            dsimp only
            rw [modify_controlPlane, Submission.change, hclaim]
            rfl
  | attempt index step now =>
      rw [JobExecution.step]
      split
      · exact Or.inl rfl
      · rename_i a ha
        rcases (perform_effect backend p now s.submission s.storage a step).submission_eq with hsame | ⟨statement, hchange⟩
        · refine Or.inl ?_
          show (⟨⟨[(0, _)], _⟩, _⟩ : ControlPlane ArtifactMetadata) = _
          simp only [hsame]
          rfl
        · refine Or.inr ⟨.attempt 0 a.attemptToken a.leaseGeneration statement now, ?_⟩
          show (⟨⟨[(0, _)], _⟩, _⟩ : ControlPlane ArtifactMetadata) = _
          simp only [hchange]
          rfl
  | readJob principalId now =>
      refine Or.inr ⟨.readJob 0 principalId now, ?_⟩
      show (s.readJob principalId now).controlPlane = s.controlPlane.readJob 0 principalId now
      unfold readJob ControlPlane.readJob
      rw [get?_controlPlane]
      dsimp only
      split
      · rfl
      · rfl
  | readRun request =>
      refine Or.inr ⟨.readRun request, ?_⟩
      show (s.readRun request).controlPlane = s.controlPlane.readRun request
      unfold readRun ControlPlane.readRun
      rw [requests_controlPlane]
      cases hr : s.requests[request]? with
      | none => rfl
      | some r =>
          dsimp only
          rw [h r (List.mem_of_getElem? hr), get?_controlPlane]
          rfl
  | writeCancellation request =>
      refine Or.inr ⟨.writeCancellation request, ?_⟩
      show (s.writeCancellation backend request).controlPlane = s.controlPlane.writeCancellation backend request
      unfold writeCancellation ControlPlane.writeCancellation
      rw [requests_controlPlane]
      cases hr : s.requests[request]? with
      | none => rfl
      | some r =>
          dsimp only
          rw [h r (List.mem_of_getElem? hr)]
          split
          · rfl
          · rfl

/-- **The workers refine the job table**: what any number of attempts and cancellations do to the rows, in any order,
    statements on the table do. -/
theorem worker_runs_refine (backend : Backend) (p : Publication) (now : Instant) (actions : List WorkerAction) :
    ∃ seen, (run (step backend p) (initial now) actions).controlPlane =
      run (ControlPlane.step backend) {} (.submit 0 now :: seen) := by
  have hkeeps : ∀ s action, OneJob s → OneJob (step backend p s action) := fun _ action h => oneJob_step h action
  have hinitial : OneJob (initial now) := fun _ hr => absurd hr List.not_mem_nil
  obtain ⟨seen, hseen⟩ := simulates (ControlPlane.step backend) hkeeps (fun _ action h => controlPlane_step h action)
    hinitial actions
  exact ⟨seen, hseen⟩

end JobExecution

end Untangle
