import Untangle.Correctness.Jobs.Absorbing

/-!
# `Correctness.Jobs.Agreement` — a job and its run

A job and its run are two rows. The completion transaction and the emulation write both; the functions of PostgreSQL
can write the job only, so a permanent failure and an acknowledged cancellation leave the run under way. The two rows
stay in step in every run without those steps, and without a retryable failure that finds a completed job on SQLite
(`jobRunAgree`). What carries it is `InStep`, with one fact on the cancellations that are under way: a run that was
read as no longer initiated does not become so again.
-/

namespace Untangle

open Lib

/-- A failed run has an error code. -/
theorem RunRecord.errorCode_of_failed {run : RunRecord} (h : run.val.status = .failed) :
    run.val.errorCode.isSome = true := by
  have hcheck := run.property
  simp only [ReconciliationRun.check, h, Bool.and_eq_true] at hcheck
  exact hcheck.2

namespace Submission

variable {Artifact : Type}

/-- What a user is told of a job and of its run says the same. -/
structure JobRunAgree (e : Submission Artifact) : Prop where
  completed : e.job.val.status = .completed ↔ e.run.val.status = .completed
  failed : e.job.val.status = .failed ∨ e.job.val.status = .cancelled →
    e.run.val.status = .failed ∧ e.run.val.errorCode.isSome = true
  started : e.job.val.status.terminal = true → e.run.val.status ≠ .initiated

/-- The runs that go with the status of a job. -/
def runStatuses : JobStatus → List RunStatus
  | .queued | .running => [.initiated, .failed]
  | .completed => [.completed]
  | .failed | .cancelled => [.failed]

/-- The run is one that goes with the job. -/
def InStep (e : Submission Artifact) : Prop := e.run.val.status ∈ runStatuses e.job.val.status

/-- The changes that separate the rows. -/
def splits (backend : Backend) (e : Submission Artifact) : Change Artifact → Bool
  | .attempt token generation (.fail _ _ retryable) now =>
    match backend with
    | .postgres => e.job.val.fencedBy token generation && !e.job.val.retries retryable &&
        atOrAfter (some now) e.job.val.startedAt && e.run.val.status = .initiated
    | .sqlite => e.job.val.heldBy token generation && e.job.val.status = .completed && e.job.val.retries retryable
  | .attempt token generation .cancelAck _ =>
    backend = .postgres && e.job.val.fencedBy token generation && e.run.val.status = .initiated
  | _ => false

variable {backend : Backend} {e e' : Submission Artifact} {c : Change Artifact}

theorem InStep.agrees (h : e.InStep) : e.JobRunAgree := by
  unfold InStep at h
  constructor
  · cases hstatus : e.job.val.status <;> rw [hstatus] at h <;> simp only [runStatuses, List.mem_cons, List.not_mem_nil, or_false] at h
    · rcases h with h | h <;> simp [h]
    · rcases h with h | h <;> simp [h]
    · simp [h]
    · simp [h]
    · simp [h]
  · intro hstatus
    have hfailed : e.run.val.status = .failed := by
      rcases hstatus with hstatus | hstatus <;> rw [hstatus] at h
      · exact List.mem_singleton.mp h
      · exact List.mem_singleton.mp h
    exact ⟨hfailed, RunRecord.errorCode_of_failed hfailed⟩
  · intro hterminal hinitiated
    rw [hinitiated] at h
    cases hstatus : e.job.val.status <;> rw [hstatus] at h hterminal
    · cases hterminal
    · cases hterminal
    · cases List.mem_singleton.mp h
    · cases List.mem_singleton.mp h
    · cases List.mem_singleton.mp h

/-- A job that is not completed has a run that is initiated or failed. -/
theorem InStep.of_not_completed (h : e.InStep) (hstatus : e.job.val.status ≠ .completed) :
    e.run.val.status = .initiated ∨ e.run.val.status = .failed := by
  unfold InStep at h
  cases hjob : e.job.val.status <;> rw [hjob] at h hstatus
  · simpa [runStatuses] using h
  · simpa [runStatuses] using h
  · exact absurd rfl hstatus
  · exact Or.inr (List.mem_singleton.mp h)
  · exact Or.inr (List.mem_singleton.mp h)

theorem inStep_of_underWay (hjob : e.job.val.status = .queued ∨ e.job.val.status = .running)
    (hrun : e.run.val.status = .initiated ∨ e.run.val.status = .failed) : e.InStep := by
  unfold InStep
  rcases hjob with hjob | hjob <;> rw [hjob]
  · simpa [runStatuses] using hrun
  · simpa [runStatuses] using hrun

theorem inStep_of_failed (hjob : e.job.val.status = .failed ∨ e.job.val.status = .cancelled)
    (hrun : e.run.val.status = .failed) : e.InStep := by
  unfold InStep
  rw [hrun]
  rcases hjob with hjob | hjob <;> rw [hjob] <;> exact List.mem_singleton_self _

theorem InStep.congr (h : e.InStep) (hjob : e'.job.val.status = e.job.val.status) (hrun : e'.run = e.run) :
    e'.InStep := by
  unfold InStep
  rw [hjob, hrun]
  exact h

/-- A run that is initiated or failed is failed after the emulation has failed its job. -/
theorem afterFailure_failed {r : ReconciliationRun} (h : r.status = .initiated ∨ r.status = .failed)
    (code summary : String) (now : Instant) : (r.afterFailure code summary now).status = .failed := by
  unfold ReconciliationRun.afterFailure
  rcases h with h | h
  · rw [if_pos (Or.inl h)]
  · rw [if_neg (by rw [h]; nofun)]
    exact h

theorem initiated_of_afterFailure {r : ReconciliationRun} {code summary : String} {now : Instant}
    (h : (r.afterFailure code summary now).status = .initiated) : r.status = .initiated := by
  rw [ReconciliationRun.afterFailure] at h
  split at h
  · cases h
  · exact h

theorem completeRun_completed {now : Instant} {run run' : RunRecord} (h : completeRun now run = .ok run') :
    run'.val.status = .completed := by
  unfold completeRun at h
  split at h
  · rename_i hstatus
    obtain rfl := Except.ok.inj h
    exact hstatus
  · cases h
  · cases h
  · rw [storeRun_eq_ok.mp h]
  · rw [storeRun_eq_ok.mp h]

/-- **An accepted change keeps the rows in step**, unless it is one that separates them. -/
theorem InStep.accepted (h : e.InStep) (haccepted : Accepted backend e e' c) (hsplits : e.splits backend c = false)
    (hread : ∀ r, c = .cancel r → r.queued = true → r.runInitiated ≠ some true → e.run.val.status ≠ .initiated) :
    e'.InStep := by
  cases haccepted with
  | heartbeat _ _ hjob hrun => exact h.congr (by rw [hjob]) hrun
  | transitionStage _ _ hjob hrun => exact h.congr (by rw [hjob]) hrun
  | claim heligible hjob hrun =>
      have hnot : e.job.val.status ≠ .completed := by
        rcases status_of_eligible heligible with hstatus | hstatus <;> rw [hstatus] <;> decide
      apply inStep_of_underWay (Or.inr (by rw [hjob]; rfl))
      rw [hrun]
      exact h.of_not_completed hnot
  | @fail token generation code summary retryable now hheld hrunning hjob hrun =>
      cases hretries : e.job.val.retries retryable with
      | true =>
          rw [hretries, if_pos (Or.inr rfl)] at hrun
          rw [ReconciliationJob.afterFailure, hretries, if_pos rfl] at hjob
          apply inStep_of_underWay (Or.inl (by rw [hjob]))
          rw [hrun]
          apply h.of_not_completed
          intro hcompleted
          cases backend with
          | postgres => cases (hrunning rfl).symm.trans hcompleted
          | sqlite => simp [splits, hheld, hcompleted, hretries] at hsplits
      | false =>
          rw [ReconciliationJob.afterFailure, hretries, if_neg Bool.false_ne_true] at hjob
          have hfailed : e'.job.val.status = .failed := by rw [hjob]
          have hnot : e.job.val.status ≠ .completed := by
            intro hcompleted
            cases hfailed.symm.trans (completed_of_completedAt hcompleted (by rw [hjob]))
          apply inStep_of_failed (Or.inl hfailed)
          cases backend with
          | sqlite =>
              rw [hretries, if_neg (not_or.mpr ⟨Backend.sqlite_ne_postgres, Bool.false_ne_true⟩)] at hrun
              rw [hrun]
              exact afterFailure_failed (h.of_not_completed hnot) code summary now
          | postgres =>
              rw [if_pos (Or.inl rfl)] at hrun
              rw [hrun]
              apply (h.of_not_completed hnot).resolve_left
              -- the failure was accepted, so the clock has not gone back
              intro hinitiated
              have hclock := e'.job.lifecycle
              simp only [ReconciliationJob.lifecycle, hfailed, Bool.and_eq_true] at hclock
              rw [hjob] at hclock
              simp [splits, ReconciliationJob.fencedBy, hheld, hrunning rfl, hretries, hclock.1.1, hinitiated]
                at hsplits
  | @cancelAck token generation now hheld hrunning hjob hrun =>
      have hcancelled : e'.job.val.status = .cancelled := by
        rw [hjob]
        cases backend <;> rfl
      have hnot : e.job.val.status ≠ .completed := by
        intro hcompleted
        have hkept : e'.job.val.completedAt = e.job.val.completedAt := by
          rw [hjob]
          cases backend <;> rfl
        cases hcancelled.symm.trans (completed_of_completedAt hcompleted hkept)
      apply inStep_of_failed (Or.inr hcancelled)
      cases backend with
      | sqlite =>
          rw [if_neg Backend.sqlite_ne_postgres] at hrun
          rw [hrun]
          exact afterFailure_failed (h.of_not_completed hnot) _ _ now
      | postgres =>
          rw [if_pos rfl] at hrun
          rw [hrun]
          apply (h.of_not_completed hnot).resolve_left
          intro hinitiated
          simp [splits, ReconciliationJob.fencedBy, hheld, hrunning rfl, hinitiated] at hsplits
  | complete hfenced _ hjob hrun =>
      unfold InStep
      rw [hjob, completeRun_completed hrun]
      exact List.mem_singleton_self _
  | @cancel r hjob hrun =>
      cases hqueued : r.queued with
      | false =>
          refine h.congr ?_ (Subtype.ext ?_)
          · rw [hjob, ReconciliationJob.afterCancellation, hqueued]
            rfl
          · rw [hrun, ReconciliationRun.afterCancellation, hqueued]
            rfl
      | true =>
          rw [ReconciliationJob.afterCancellation, hqueued, if_pos rfl] at hjob
          have hcancelled : e'.job.val.status = .cancelled := by rw [hjob]
          have hnot : e.job.val.status ≠ .completed := by
            intro hcompleted
            cases hcancelled.symm.trans (completed_of_completedAt hcompleted (by rw [hjob]))
          apply inStep_of_failed (Or.inr hcancelled)
          rw [hrun, ReconciliationRun.afterCancellation]
          split
          · rfl
          · rename_i hnotRead
            exact (h.of_not_completed hnot).resolve_left
              (hread r rfl hqueued fun hinitiated => hnotRead ⟨hqueued, hinitiated⟩)

/-- A run that is not initiated does not become so. -/
theorem initiated_of_change (h : (e.change backend c).run.val.status = .initiated) : e.run.val.status = .initiated := by
  rcases change_cases backend e c with hsame | haccepted
  · rw [hsame] at h
    exact h
  · generalize e.change backend c = e' at h haccepted
    cases haccepted with
    | claim _ _ hrun => exact hrun ▸ h
    | heartbeat _ _ _ hrun => exact hrun ▸ h
    | transitionStage _ _ _ hrun => exact hrun ▸ h
    | complete _ _ _ hrun => cases h.symm.trans (completeRun_completed hrun)
    | fail _ _ _ hrun =>
        rw [hrun] at h
        split at h
        · exact h
        · exact initiated_of_afterFailure h
    | cancelAck _ _ _ hrun =>
        rw [hrun] at h
        split at h
        · exact h
        · exact initiated_of_afterFailure h
    | cancel _ hrun =>
        rw [hrun, ReconciliationRun.afterCancellation] at h
        split at h
        · cases h
        · exact h

end Submission

namespace ControlPlane

variable {Artifact : Type} {backend : Backend} {s : ControlPlane Artifact}

/-- No step separates a job from its run. -/
def KeepsInStep (backend : Backend) (s : ControlPlane Artifact) (a : Action Artifact) : Prop :=
  ∀ id e c, s.submissions.get? id = some e → s.target backend a = some (id, c) → e.splits backend c = false

/-- The rows are in step, and a run that a cancellation has read as no longer initiated is not initiated. -/
structure Agreement (s : ControlPlane Artifact) : Prop where
  inStep : ∀ id e, s.submissions.get? id = some e → e.InStep
  read : ∀ r ∈ s.requests, r.runInitiated = some false →
    ∃ e, s.submissions.get? r.jobId = some e ∧ e.run.val.status ≠ .initiated

theorem requests_modify (s : ControlPlane Artifact) (jobId : Nat) (c : Change Artifact) :
    (s.modify backend jobId c).requests = s.requests := by
  unfold modify
  cases s.submissions.get? jobId with
  | none => rfl
  | some e => rfl

/-- A cancellation that has read its run is an old one, or has read it in this step. -/
theorem mem_requests_step {a : Action Artifact} {r : CancelRequest} (hr : r ∈ (s.step backend a).requests)
    (hread : r.runInitiated = some false) :
    r ∈ s.requests ∨ ∃ e, s.submissions.get? r.jobId = some e ∧ e.run.val.status ≠ .initiated := by
  cases a with
  | submit jobId now =>
      rw [step] at hr
      split at hr <;> exact Or.inl hr
  | claimNext workerId token leaseTime now locked =>
      rw [step] at hr
      split at hr
      · exact Or.inl hr
      · rw [requests_modify] at hr
        exact Or.inl hr
  | attempt jobId token generation statement now =>
      rw [step, requests_modify] at hr
      exact Or.inl hr
  | readJob jobId principalId now =>
      rw [step, readJob] at hr
      split at hr
      · exact Or.inl hr
      · split at hr
        · exact Or.inl hr
        · rcases List.mem_append.mp hr with hr | hr
          · exact Or.inl hr
          · obtain rfl := List.mem_singleton.mp hr
            cases hread
  | readRun request =>
      rw [step, readRun] at hr
      split at hr
      · exact Or.inl hr
      · split at hr
        · exact Or.inl hr
        · rename_i e he
          rcases List.mem_or_eq_of_mem_set hr with hr | rfl
          · exact Or.inl hr
          · exact Or.inr ⟨e, he, of_decide_eq_false (Option.some.inj hread)⟩
  | writeCancellation request =>
      rw [step, writeCancellation] at hr
      split at hr
      · exact Or.inl hr
      · split at hr
        · exact Or.inl hr
        · exact Or.inl (List.mem_of_mem_eraseIdx hr)

/-- A cancellation writes what it has read. -/
theorem request_of_target {a : Action Artifact} {id : Nat} {r : CancelRequest}
    (h : s.target backend a = some (id, .cancel r)) :
    r ∈ s.requests ∧ r.jobId = id ∧ (r.queued = true → r.runInitiated ≠ none) := by
  cases a with
  | writeCancellation request =>
      obtain ⟨r', hr', h⟩ := Option.bind_eq_some_iff.mp h
      split at h
      · cases h
      · rename_i hready
        cases h
        exact ⟨List.mem_of_getElem? hr', rfl, fun hqueued hnone => hready ⟨hqueued, hnone⟩⟩
  | claimNext => 
      obtain ⟨_, _, heq⟩ := Option.map_eq_some_iff.mp h
      cases heq
  | _ => cases h

/-- **A step keeps the rows in step**, unless it is one that separates them. -/
theorem Agreement.step (h : Agreement s) {a : Action Artifact} (hkeeps : s.KeepsInStep backend a) :
    Agreement (s.step backend a) where
  inStep := by
    refine forall_step (P := fun _ e => e.InStep) (fun id now => List.mem_cons_self) ?_ h.inStep
    intro id e c he hinStep htarget
    rcases Submission.change_cases backend e c with hsame | haccepted
    · rw [hsame]
      exact hinStep
    · refine hinStep.accepted haccepted (hkeeps id e c he htarget) ?_
      rintro r rfl hqueued hnotTrue
      obtain ⟨hr, hid, hready⟩ := request_of_target htarget
      cases hread : r.runInitiated with
      | none => exact absurd hread (hready hqueued)
      | some b =>
          cases b with
          | true => exact absurd hread hnotTrue
          | false =>
              obtain ⟨e', he', hnot⟩ := h.read r hr hread
              rw [hid, he] at he'
              obtain rfl := Option.some.inj he'
              exact hnot
  read := by
    intro r hr hread
    have hbefore : ∃ e, s.submissions.get? r.jobId = some e ∧ e.run.val.status ≠ .initiated := by
      rcases mem_requests_step hr hread with hold | hnew
      · exact h.read r hold hread
      · exact hnew
    obtain ⟨e, he, hnot⟩ := hbefore
    rcases get?_step backend a he with ⟨_, hsame⟩ | ⟨c, _, hchanged⟩
    · exact ⟨e, hsame, hnot⟩
    · exact ⟨_, hchanged, fun hinitiated => hnot (Submission.initiated_of_change hinitiated)⟩

/-- **Job and run agree** in every state of a run whose steps do not separate them. -/
theorem jobRunAgree (backend : Backend) {actions : List (Action Artifact)}
    (hmeets : Meets (step backend) (KeepsInStep backend) {} actions) :
    ∀ id e, (run (step backend) {} actions).submissions.get? id = some e → e.JobRunAgree := by
  have hinit : Agreement ({} : ControlPlane Artifact) :=
    ⟨fun _ _ he => (by cases he), fun _ hr => absurd hr List.not_mem_nil⟩
  have hagreement := run_invariant (step backend) (I := Agreement) (C := KeepsInStep backend)
    (fun _ _ h hkeeps => h.step hkeeps) hinit hmeets
  exact fun id e he => (hagreement.inStep id e he).agrees

/-- A job is submitted, claimed and completed. -/
def submittedAndCompleted : List (Action Unit) :=
  [.submit 0 0, .claimNext "w" "t" 60 1 [], .attempt 0 "t" 1 (.complete []) 2]

theorem jobRunAgree_completed :
    ((run (step .postgres) {} submittedAndCompleted).submissions.get? 0).isSome ∧
      ¬ ∃ e, (run (step .postgres) {} submittedAndCompleted).submissions.get? 0 = some e ∧ ¬ e.JobRunAgree := by
  refine ⟨by decide +kernel, ?_⟩
  rintro ⟨e, he, hnot⟩
  have hmeets : Meets (step .postgres) (KeepsInStep .postgres) {} submittedAndCompleted := by
    refine ⟨?_, ?_, ?_, trivial⟩
    · rintro id e c _ ⟨⟩
    · intro id e c _ htarget
      rw [target] at htarget
      obtain ⟨_, _, heq⟩ := Option.map_eq_some_iff.mp htarget
      cases heq
      rfl
    · rintro id e c _ ⟨⟩
      rfl
  exact hnot (jobRunAgree .postgres hmeets 0 e he)

/-- The rows do not agree in some state of a run from the empty table, with no cancellation under way. -/
def Separated (backend : Backend) (actions : List (Action Unit)) : Prop :=
  (run (step backend) {} actions).requests = [] ∧
    ¬ ∀ id e, (run (step backend) {} actions).submissions.get? id = some e → e.JobRunAgree

theorem separated {backend : Backend} {actions : List (Action Unit)}
    (hquiet : (run (step backend) {} actions).requests.isEmpty = true)
    (hrows : ((run (step backend) {} actions).submissions.get? 0).any (fun e =>
      e.job.val.status.terminal && e.run.val.status = .initiated ||
        !decide (e.job.val.status = .completed) && e.run.val.status = .completed) = true) :
    Separated backend actions := by
  refine ⟨List.isEmpty_iff.mp hquiet, fun hagree => ?_⟩
  obtain ⟨e, he, hrows⟩ := (Option.any_eq_true _ _).mp hrows
  have h := hagree 0 e he
  rcases Bool.or_eq_true_iff.mp hrows with hrows | hrows
  · obtain ⟨hterminal, hinitiated⟩ := Bool.and_eq_true_iff.mp hrows
    exact h.started hterminal (of_decide_eq_true hinitiated)
  · obtain ⟨hnot, hcompleted⟩ := Bool.and_eq_true_iff.mp hrows
    rw [decide_eq_true (h.completed.mpr (of_decide_eq_true hcompleted))] at hnot
    cases hnot

/-- A worker fails its job for good on PostgreSQL, or acknowledges a cancellation of it; on SQLite it fails a job that
    is completed. -/
theorem rows_separated :
    Separated .postgres [.submit 0 0, .claimNext "w" "t" 60 1 [],
        .attempt 0 "t" 1 (.fail "INVALID_INPUT" "Missing required input file" false) 2] ∧
      Separated .postgres [.submit 0 0, .claimNext "w" "t" 60 1 [], .readJob 0 7 2, .writeCancellation 0,
        .attempt 0 "t" 1 .cancelAck 3] ∧
      Separated .sqlite [.submit 0 0, .claimNext "w" "t" 60 1 [], .attempt 0 "t" 1 (.complete []) 2,
        .attempt 0 "t" 1 (.fail "EXECUTION_FAILURE" "timeout" true) 3] :=
  ⟨separated (by decide +kernel) (by decide +kernel), separated (by decide +kernel) (by decide +kernel),
    separated (by decide +kernel) (by decide +kernel)⟩

end ControlPlane

end Untangle
