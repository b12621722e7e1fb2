import Untangle.Correctness.Jobs.Changes
import Untangle.Lib.Locks
import Untangle.Persistence.Worker

/-!
# `Correctness.Jobs.Attempts` — what an attempt's steps can do

`AttemptEffect` lists what a step of an attempt can do to the rows, to the objects and to the attempt itself
(`perform_effect`), and `JobExecution.Effect` what a step of the machine can do (`step_effect`). The fence is passed on
by no change but a claim (`fencedBy_of_change`), so an attempt that does not hold the job never holds it again. An
accepted cancellation prevents the completion if it does not fall between the check of an attempt that holds the job
and its completion transaction (`cancellation_prevents_completion`).
-/

namespace Untangle

open Lib

/-! ## Changes and the fence -/

namespace Submission

variable {Artifact : Type} {backend : Backend} {e e' : Submission Artifact} {c : Change Artifact}

/-- Only a claim makes a job run. -/
theorem running_of_change (hclaim : ∀ workerId token leaseTime now, c ≠ .claim workerId token leaseTime now)
    (h : (e.change backend c).job.val.status = .running) : e.job.val.status = .running := by
  rcases change_cases backend e c with hsame | haccepted
  · rwa [hsame] at h
  · cases haccepted with
    | claim => exact absurd rfl (hclaim _ _ _ _)
    | heartbeat hfenced => exact (fencedBy_iff.mp hfenced).2.2
    | transitionStage hfenced => exact (fencedBy_iff.mp hfenced).2.2
    | complete hfenced => exact (fencedBy_iff.mp hfenced).2.2
    | fail _ _ hjob =>
        rw [hjob, ReconciliationJob.afterFailure] at h
        split at h
        · cases h
        · cases h
    | cancelAck _ _ hjob =>
        rw [hjob] at h
        cases backend
        · cases h
        · cases h
    | cancel hjob =>
        rw [hjob, ReconciliationJob.afterCancellation] at h
        split at h
        · cases h
        · exact h

/-- **An attempt that holds a running job held it before**, unless the change is a claim. -/
theorem fencedBy_of_change (hclaim : ∀ workerId token leaseTime now, c ≠ .claim workerId token leaseTime now)
    {token : String} {generation : Nat} (h : (e.change backend c).job.val.fencedBy token generation = true) :
    e.job.val.fencedBy token generation = true := by
  obtain ⟨htoken, hgeneration, hrunning⟩ := fencedBy_iff.mp h
  rcases change_claimed backend e c with ⟨_, _, _, _, hc, _⟩ | ⟨hsame, _, hkept | hnone⟩
  · exact absurd hc (hclaim _ _ _ _)
  · exact fencedBy_iff.mpr ⟨hkept ▸ htoken, hsame ▸ hgeneration, running_of_change hclaim hrunning⟩
  · rw [hnone] at htoken
    cases htoken

/-- A cancellation stays accepted. -/
theorem isCancelled_change (h : e.job.val.isCancelled = true) : (e.change backend c).job.val.isCancelled = true := by
  rcases change_cases backend e c with hsame | haccepted
  · rwa [hsame]
  · cases haccepted with
    | claim _ hjob => rw [hjob]; exact h
    | heartbeat _ _ hjob => rw [hjob]; exact h
    | transitionStage _ _ hjob => rw [hjob]; exact h
    | complete _ _ hjob => rw [hjob]; exact h
    | fail _ _ hjob =>
        rw [hjob, ReconciliationJob.afterFailure]
        split
        · exact h
        · exact h
    | cancelAck _ _ hjob =>
        rw [hjob]
        cases backend
        · exact h
        · exact h
    | cancel hjob =>
        rw [hjob, ReconciliationJob.afterCancellation]
        split
        · rfl
        · rfl

/-- Only the user's request has a job cancelled. -/
theorem isCancelled_of_change (hcancel : ∀ request, c ≠ .cancel request)
    (h : (e.change backend c).job.val.isCancelled = true) : e.job.val.isCancelled = true := by
  rcases change_cases backend e c with hsame | haccepted
  · rwa [hsame] at h
  · cases haccepted with
    | claim _ hjob => rw [hjob] at h; exact h
    | heartbeat _ _ hjob => rw [hjob] at h; exact h
    | transitionStage _ _ hjob => rw [hjob] at h; exact h
    | complete _ _ hjob => rw [hjob] at h; exact h
    | fail _ _ hjob =>
        rw [hjob, ReconciliationJob.afterFailure] at h
        split at h
        · exact h
        · exact h
    | cancelAck _ _ hjob =>
        rw [hjob] at h
        cases backend
        · exact h
        · exact h
    | cancel => exact absurd rfl (hcancel _)

/-- Only a completion completes a job or a run, or stores a result. -/
theorem completed_of_change (hcomplete : ∀ token generation artifacts now,
      c = .attempt token generation (.complete artifacts) now → ¬ Accepted backend e (e.change backend c) c) :
    ((e.change backend c).job.val.status = .completed → e.job.val.status = .completed) ∧
      ((e.change backend c).run.val.status = .completed → e.run.val.status = .completed) ∧
      (e.change backend c).result = e.result := by
  have hfailure : ∀ code summary now, (e.run.val.afterFailure code summary now).status = .completed →
      e.run.val.status = .completed := by
    intro code summary now h
    rw [ReconciliationRun.afterFailure] at h
    split at h
    · cases h
    · exact h
  rcases change_cases backend e c with hsame | haccepted
  · rw [hsame]
    exact ⟨id, id, rfl⟩
  · have hc := hcomplete
    cases haccepted with
    | claim _ hjob hrun hresult => rw [hjob, hrun, hresult]; exact ⟨(by rintro ⟨⟩), id, rfl⟩
    | heartbeat _ _ hjob hrun hresult => rw [hjob, hrun, hresult]; exact ⟨id, id, rfl⟩
    | transitionStage _ _ hjob hrun hresult => rw [hjob, hrun, hresult]; exact ⟨id, id, rfl⟩
    | complete hfenced hfirst hjob hrun hresult =>
        exact absurd (.complete hfenced hfirst hjob hrun hresult) (hc _ _ _ _ rfl)
    | fail _ _ hjob hrun hresult =>
        refine ⟨?_, ?_, hresult⟩
        · rw [hjob, ReconciliationJob.afterFailure]
          split
          · rintro ⟨⟩
          · rintro ⟨⟩
        · rw [hrun]
          split
          · exact id
          · exact hfailure _ _ _
    | cancelAck _ _ hjob hrun hresult =>
        refine ⟨?_, ?_, hresult⟩
        · rw [hjob]
          cases backend
          · rintro ⟨⟩
          · rintro ⟨⟩
        · rw [hrun]
          split
          · exact id
          · exact hfailure _ _ _
    | cancel hjob hrun hresult =>
        refine ⟨?_, ?_, hresult⟩
        · rw [hjob, ReconciliationJob.afterCancellation]
          split
          · rintro ⟨⟩
          · exact id
        · rw [hrun, ReconciliationRun.afterCancellation]
          split
          · rintro ⟨⟩
          · exact id

end Submission

/-! ## What a step of an attempt can do -/

/-- An attempt in this phase neither commits nor deletes before its next step. -/
def AttemptPhase.leaving : AttemptPhase → Bool
  | .acknowledging | .failing .. | .finishing | .stopped => true
  | .working | .cleared | .deleting _ => false

@[simp] theorem AttemptError.leaving_handler (error : AttemptError) : error.handler.leaving = true := by
  cases error <;> rfl

section Effects

variable (backend : Backend) (p : Publication) (now : Instant) (e : Submission ArtifactMetadata)
  (storage : Files String Bytes) (a : Attempt)

/-- What a step of an attempt can come to. -/
inductive AttemptEffect : AttemptStep → Scene → Prop
  | idle {step : AttemptStep} : AttemptEffect step ⟨e, storage, a⟩
  | leaves {step : AttemptStep} {phase : AttemptPhase} (hphase : phase.leaving = true) :
      AttemptEffect step ⟨e, storage, { a with phase := phase }⟩
  | asks {step : AttemptStep} {statement : Statement ArtifactMetadata} {phase : AttemptPhase}
      (hstatement : ∀ artifacts, statement ≠ .complete artifacts)
      (hphase : phase = a.phase ∨ phase.leaving = true) :
      AttemptEffect step ⟨e.change backend (a.ask statement now), storage, { a with phase := phase }⟩
  | copies {delivery : Delivery} {message : String} {f : ArtifactFile} {rest : List ArtifactFile}
      (hworking : a.phase = .working) (hnext : p.files.drop a.promoted.length = f :: rest) :
      AttemptEffect (.promote delivery message)
        ⟨e, storage.write f.key f.content, { a with promoted := a.promoted ++ [f.key] }⟩
  | copiesUnseen {step : AttemptStep} {f : ArtifactFile} {rest : List ArtifactFile} {phase : AttemptPhase}
      (hnext : p.files.drop a.promoted.length = f :: rest) (hphase : phase.leaving = true) :
      AttemptEffect step ⟨e, storage.write f.key f.content, { a with phase := phase }⟩
  | clears {step : AttemptStep} (hworking : a.phase = .working) (hall : p.files.length ≤ a.promoted.length)
      (hcheck : checkJobCancellation backend a.attemptToken a.leaseGeneration e.job.val = false) :
      AttemptEffect step ⟨e, storage, { a with phase := .cleared }⟩
  | commits {delivery : Delivery} {message : String} {e' : Submission ArtifactMetadata} {phase : AttemptPhase}
      (hcleared : a.phase = .cleared)
      (haccepted : Submission.Accepted backend e e'
        (a.ask (.complete (p.files.map ArtifactFile.metadata)) now))
      (hphase : phase.leaving = true) :
      AttemptEffect (.commit delivery message) ⟨e', storage, { a with phase := phase }⟩
  | lists {answered : Bool} (hfinishing : a.phase = .finishing) :
      AttemptEffect (.lookUp answered)
        ⟨e, storage, { a with phase := .deleting (a.promoted.filter fun key => key ∉ e.recordedKeys) }⟩
  | deletes {succeeds : Bool} {key : String} {keys : List String} (hdeleting : a.phase = .deleting (key :: keys)) :
      AttemptEffect (.delete succeeds)
        ⟨e, if succeeds then storage.unlink key else storage, { a with phase := .deleting keys }⟩

theorem promote_effect (hworking : a.phase = .working) (delivery : Delivery) (message : String) :
    AttemptEffect backend p now e storage a (.promote delivery message) (a.promote p e storage delivery message) := by
  unfold Attempt.promote
  split
  · exact .idle
  · rename_i f rest hnext
    cases delivery with
    | answered => exact .copies hworking hnext
    | unanswered => exact .copiesUnseen hnext (AttemptError.leaving_handler _)
    | undelivered => exact .leaves (AttemptError.leaving_handler _)

theorem checkCancellation_effect (hworking : a.phase = .working) :
    AttemptEffect backend p now e storage a .checkCancellation (a.checkCancellation backend p e storage) := by
  unfold Attempt.checkCancellation
  split
  · exact .idle
  · rename_i hall
    split
    · exact .leaves rfl
    · rename_i hcheck
      exact .clears hworking (Nat.le_of_not_lt hall) (Bool.eq_false_iff.mpr hcheck)

theorem acknowledge_effect (delivery : Delivery) (message : String) :
    AttemptEffect backend p now e storage a (.acknowledge delivery message)
      (a.acknowledge backend now e storage delivery message) := by
  cases delivery with
  | answered => exact .asks nofun (Or.inr rfl)
  | unanswered => exact .asks nofun (Or.inr (AttemptError.leaving_handler _))
  | undelivered => exact .leaves (AttemptError.leaving_handler _)

theorem commit_effect (hcleared : a.phase = .cleared) (delivery : Delivery) (message : String) :
    AttemptEffect backend p now e storage a (.commit delivery message)
      (a.commit backend p now e storage delivery message) := by
  unfold Attempt.commit
  split
  · exact .leaves (AttemptError.leaving_handler _)
  · split
    · exact .leaves (AttemptError.leaving_handler _)
    · rename_i e' hcommit
      refine .commits hcleared (Submission.tryChange_eq_ok.mp hcommit) ?_
      split
      · rfl
      · exact AttemptError.leaving_handler _

theorem fail_effect (code summary : String) (retryable : Bool) (delivery : Delivery) :
    AttemptEffect backend p now e storage a (.fail delivery)
      (a.fail backend now e storage code summary retryable delivery) := by
  cases delivery with
  | answered => exact .asks nofun (Or.inr rfl)
  | unanswered => exact .asks nofun (Or.inr rfl)
  | undelivered => exact .leaves rfl

/-- **A step of an attempt does what is listed.** -/
theorem perform_effect (step : AttemptStep) :
    AttemptEffect backend p now e storage a step (a.perform backend p now e storage step) := by
  cases step with
  | heartbeat leaseTime => exact .asks nofun (Or.inl rfl)
  | crash => exact .leaves rfl
  | transitionStage newStage =>
      rw [Attempt.perform]
      split
      · exact .asks nofun (Or.inl rfl)
      · exact .idle
  | revoke =>
      rw [Attempt.perform]
      split
      · exact .leaves rfl
      · exact .idle
  | raise error =>
      rw [Attempt.perform]
      split
      · exact .leaves (AttemptError.leaving_handler error)
      · exact .idle
  | promote delivery message =>
      rw [Attempt.perform]
      split
      · rename_i hworking
        exact promote_effect backend p now e storage a hworking delivery message
      · exact .idle
  | checkCancellation =>
      rw [Attempt.perform]
      split
      · rename_i hworking
        exact checkCancellation_effect backend p now e storage a hworking
      · exact .idle
  | acknowledge delivery message =>
      rw [Attempt.perform]
      split
      · exact acknowledge_effect backend p now e storage a delivery message
      · exact .idle
  | commit delivery message =>
      rw [Attempt.perform]
      split
      · rename_i hcleared
        exact commit_effect backend p now e storage a hcleared delivery message
      · exact .idle
  | fail delivery =>
      rw [Attempt.perform]
      split
      · exact fail_effect backend p now e storage a _ _ _ delivery
      · exact .idle
  | lookUp answered =>
      rw [Attempt.perform]
      split
      · rename_i hfinishing
        unfold Attempt.lookUp
        split
        · exact .leaves rfl
        · exact .lists hfinishing
      · exact .idle
  | delete succeeds =>
      rw [Attempt.perform]
      split
      · rename_i keys hdeleting
        cases keys with
        | nil => exact .leaves rfl
        | cons key keys => exact .deletes hdeleting
      · exact .idle

end Effects

namespace AttemptEffect

variable {backend : Backend} {p : Publication} {now : Instant} {e : Submission ArtifactMetadata}
  {storage : Files String Bytes} {a : Attempt} {step : AttemptStep} {scene : Scene}

/-- A step changes the rows by a statement of its own attempt, if at all. -/
theorem submission_eq (h : AttemptEffect backend p now e storage a step scene) :
    scene.submission = e ∨ ∃ statement, scene.submission = e.change backend (a.ask statement now) := by
  cases h with
  | idle => exact Or.inl rfl
  | leaves => exact Or.inl rfl
  | asks => exact Or.inr ⟨_, rfl⟩
  | copies => exact Or.inl rfl
  | copiesUnseen => exact Or.inl rfl
  | clears => exact Or.inl rfl
  | commits _ haccepted => exact Or.inr ⟨_, (Submission.change_of_accepted haccepted).symm⟩
  | lists => exact Or.inl rfl
  | deletes => exact Or.inl rfl

/-- Whoever holds the job after a step held it before. -/
theorem fencedBy_of (h : AttemptEffect backend p now e storage a step scene) {token : String} {generation : Nat}
    (hfenced : scene.submission.job.val.fencedBy token generation = true) :
    e.job.val.fencedBy token generation = true := by
  rcases h.submission_eq with hsame | ⟨statement, hchange⟩
  · rwa [hsame] at hfenced
  · rw [hchange] at hfenced
    exact Submission.fencedBy_of_change (by rintro _ _ _ _ ⟨⟩) hfenced

/-- An attempt neither cancels a job nor takes a cancellation back. -/
theorem isCancelled_eq (h : AttemptEffect backend p now e storage a step scene) :
    scene.submission.job.val.isCancelled = e.job.val.isCancelled := by
  rcases h.submission_eq with hsame | ⟨statement, hchange⟩
  · rw [hsame]
  · rw [hchange, Bool.eq_iff_iff]
    exact ⟨Submission.isCancelled_of_change (by rintro _ ⟨⟩), Submission.isCancelled_change⟩

end AttemptEffect

/-! ## What a step of the machine can do -/

namespace JobExecution

/-- What a step of the machine can come to. -/
inductive Effect (backend : Backend) (p : Publication) (s : JobExecution) : WorkerAction → JobExecution → Prop
  | idle {action : WorkerAction} : Effect backend p s action s
  | claims {workerId attemptToken : String} {leaseTime : ℤ} {now : Instant} {e' : Submission ArtifactMetadata}
      (haccepted : Submission.Accepted backend s.submission e' (.claim workerId attemptToken leaseTime now)) :
      Effect backend p s (.claim workerId attemptToken leaseTime now)
        { s with
          submission := e'
          attempts := s.attempts ++ [⟨workerId, attemptToken, e'.job.val.leaseGeneration, [], .working⟩] }
  | performs {index : Nat} {step : AttemptStep} {now : Instant} {a : Attempt} {scene : Scene}
      (ha : s.attempts[index]? = some a)
      (heffect : AttemptEffect backend p now s.submission s.storage a step scene) :
      Effect backend p s (.attempt index step now)
        { s with
          submission := scene.submission
          storage := scene.storage
          attempts := s.attempts.set index scene.attempt }
  | reads {action : WorkerAction} {requests : List CancelRequest} :
      Effect backend p s action { s with requests := requests }
  | cancels {request : Nat} {r : CancelRequest} (hr : s.requests[request]? = some r) :
      Effect backend p s (.writeCancellation request)
        { s with
          submission := s.submission.change backend (.cancel r)
          requests := s.requests.eraseIdx request }

/-- **A step of the machine does what is listed.** -/
theorem step_effect (backend : Backend) (p : Publication) (s : JobExecution) (action : WorkerAction) :
    Effect backend p s action (s.step backend p action) := by
  cases action with
  | claim workerId attemptToken leaseTime now =>
      show Effect backend p s _ (s.claim backend workerId attemptToken leaseTime now)
      unfold claim
      split
      · exact .idle
      · rename_i e' hclaim
        exact .claims (Submission.tryChange_eq_ok.mp hclaim)
  | attempt index step now =>
      rw [JobExecution.step]
      split
      · exact .idle
      · rename_i a ha
        exact .performs ha (perform_effect backend p now s.submission s.storage a step)
  | readJob principalId now =>
      show Effect backend p s _ (s.readJob principalId now)
      unfold readJob
      split
      · exact .idle
      · exact .reads
  | readRun request =>
      show Effect backend p s _ (s.readRun request)
      unfold readRun
      split
      · exact .idle
      · exact .reads
  | writeCancellation request =>
      show Effect backend p s _ (s.writeCancellation backend request)
      unfold writeCancellation
      split
      · exact .idle
      · rename_i r hr
        split
        · exact .idle
        · exact .cancels hr

end JobExecution

/-! ## Cancellations -/

/-- An attempt that has passed its check and still holds the job. -/
def Attempt.mayCommit (a : Attempt) (j : ReconciliationJob) : Bool :=
  a.phase = .cleared && j.fencedBy a.attemptToken a.leaseGeneration

theorem Attempt.mayCommit_iff {a : Attempt} {j : ReconciliationJob} :
    a.mayCommit j = true ↔ a.phase = .cleared ∧ j.fencedBy a.attemptToken a.leaseGeneration = true := by
  simp [Attempt.mayCommit]

theorem AttemptPhase.ne_cleared_of_leaving {phase : AttemptPhase} (h : phase.leaving = true) : phase ≠ .cleared := by
  rintro rfl
  cases h

namespace AttemptEffect

variable {backend : Backend} {p : Publication} {now : Instant} {e : Submission ArtifactMetadata}
  {storage : Files String Bytes} {a : Attempt} {step : AttemptStep} {scene : Scene}

/-- **The check lets nobody pass once the job is cancelled.** -/
theorem mayCommit_of (h : AttemptEffect backend p now e storage a step scene)
    (hcancelled : e.job.val.isCancelled = true) (hmay : scene.attempt.mayCommit scene.submission.job.val = true) :
    a.mayCommit e.job.val = true := by
  obtain ⟨hcleared, hfenced⟩ := Attempt.mayCommit_iff.mp hmay
  have hfenced := h.fencedBy_of hfenced
  cases h with
  | idle => exact hmay
  | leaves hphase => exact absurd hcleared (AttemptPhase.ne_cleared_of_leaving hphase)
  | asks _ hphase =>
      rcases hphase with rfl | hleaving
      · exact Attempt.mayCommit_iff.mpr ⟨hcleared, hfenced⟩
      · exact absurd hcleared (AttemptPhase.ne_cleared_of_leaving hleaving)
  | copies hworking => exact absurd (hworking.symm.trans hcleared) nofun
  | copiesUnseen _ hphase => exact absurd hcleared (AttemptPhase.ne_cleared_of_leaving hphase)
  | clears _ _ hcheck =>
      have hheld := (Bool.and_eq_true_iff.mp hfenced).1
      cases backend with
      | postgres => rw [checkJobCancellation, hfenced, hcancelled] at hcheck; cases hcheck
      | sqlite => rw [checkJobCancellation, hheld, hcancelled] at hcheck; cases hcheck
  | commits _ _ hphase => exact absurd hcleared (AttemptPhase.ne_cleared_of_leaving hphase)
  | lists => cases hcleared
  | deletes => cases hcleared

/-- Nothing but the completion transaction of an attempt that may commit completes the job or its run. -/
theorem completed_of (h : AttemptEffect backend p now e storage a step scene)
    (hmay : ¬ a.mayCommit e.job.val = true) :
    (scene.submission.job.val.status = .completed → e.job.val.status = .completed) ∧
      (scene.submission.run.val.status = .completed → e.run.val.status = .completed) ∧
      scene.submission.result = e.result := by
  cases h with
  | idle => exact ⟨id, id, rfl⟩
  | leaves => exact ⟨id, id, rfl⟩
  | asks hstatement =>
      refine Submission.completed_of_change ?_
      rintro _ _ _ _ hc _
      injection hc with _ _ hc _
      exact hstatement _ hc
  | copies => exact ⟨id, id, rfl⟩
  | copiesUnseen => exact ⟨id, id, rfl⟩
  | clears => exact ⟨id, id, rfl⟩
  | commits hcleared haccepted =>
      cases haccepted with
      | complete hfenced => exact absurd (Attempt.mayCommit_iff.mpr ⟨hcleared, hfenced⟩) hmay
  | lists => exact ⟨id, id, rfl⟩
  | deletes => exact ⟨id, id, rfl⟩

end AttemptEffect

namespace JobExecution

/-- A cancellation is written while an attempt that holds the job is between its check and its completion
    transaction. -/
def cancelRaced (s : JobExecution) : WorkerAction → Bool
  | .writeCancellation _ => s.attempts.any fun a => a.mayCommit s.submission.job.val
  | _ => false

/-- What an accepted cancellation keeps from one state to a later one. -/
structure CancellationKept (s t : JobExecution) : Prop where
  cancelled : s.submission.job.val.isCancelled = true → t.submission.job.val.isCancelled = true
  job : s.submission.job.val.isCancelled = true → t.submission.job.val.status = .completed →
    s.submission.job.val.status = .completed
  run : s.submission.job.val.isCancelled = true → t.submission.run.val.status = .completed →
    s.submission.run.val.status = .completed
  result : s.submission.job.val.isCancelled = true → t.submission.result = s.submission.result

theorem CancellationKept.refl (s : JobExecution) : CancellationKept s s := ⟨id, fun _ => id, fun _ => id, fun _ => rfl⟩

theorem CancellationKept.trans {s t u : JobExecution} (h : CancellationKept s t) (h' : CancellationKept t u) :
    CancellationKept s u where
  cancelled hs := h'.cancelled (h.cancelled hs)
  job hs hu := h.job hs (h'.job (h.cancelled hs) hu)
  run hs hu := h.run hs (h'.run (h.cancelled hs) hu)
  result hs := (h'.result (h.cancelled hs)).trans (h.result hs)

theorem CancellationKept.of_change {backend : Backend} {s t : JobExecution} {c : Change ArtifactMetadata}
    (hcomplete : ∀ token generation artifacts now, c ≠ .attempt token generation (.complete artifacts) now)
    (ht : t.submission = s.submission.change backend c) : CancellationKept s t := by
  obtain ⟨hjob, hrun, hresult⟩ := Submission.completed_of_change (e := s.submission) (c := c)
    fun token generation artifacts now hc _ => hcomplete token generation artifacts now hc
  rw [← ht] at hjob hrun hresult
  exact ⟨fun h => ht ▸ Submission.isCancelled_change h, fun _ => hjob, fun _ => hrun, fun _ => hresult⟩

/-- Of a cancelled job, no attempt is between its check and its completion transaction. -/
def NoneMayCommit (s : JobExecution) : Prop :=
  s.submission.job.val.isCancelled = true → ∀ (i : Nat) (a : Attempt), s.attempts[i]? = some a →
    ¬ a.mayCommit s.submission.job.val = true

variable {backend : Backend} {p : Publication} {s : JobExecution} {action : WorkerAction}

theorem noneMayCommit_step (hnone : s.NoneMayCommit) (hunraced : s.cancelRaced action = false) :
    (s.step backend p action).NoneMayCommit := by
  have heffect := step_effect backend p s action
  generalize s.step backend p action = t at heffect
  cases heffect with
  | idle => exact hnone
  | reads => exact hnone
  | claims haccepted =>
      -- a cancelled job is not claimed
      intro hcancelled
      cases haccepted with
      | claim heligible hjob =>
          rw [hjob] at hcancelled
          have hcancelled : s.submission.job.val.isCancelled = true := hcancelled
          cases backend with
          | postgres => simp [ReconciliationJob.eligible, hcancelled] at heligible
          | sqlite => simp [ReconciliationJob.eligible, hcancelled] at heligible
  | performs ha heffect =>
      intro hcancelled
      have hcancelled : s.submission.job.val.isCancelled = true := heffect.isCancelled_eq ▸ hcancelled
      refine forall_set (hnone hcancelled) (fun hmay => hnone hcancelled _ _ ha (heffect.mayCommit_of hcancelled hmay)) ?_
      intro j b _ _ hb hmay
      obtain ⟨hcleared, hfenced⟩ := Attempt.mayCommit_iff.mp hmay
      exact hb (Attempt.mayCommit_iff.mpr ⟨hcleared, heffect.fencedBy_of hfenced⟩)
  | cancels hr =>
      intro _ i a ha hmay
      obtain ⟨hcleared, hfenced⟩ := Attempt.mayCommit_iff.mp hmay
      exact List.any_eq_false.mp hunraced a (List.mem_of_getElem? ha)
        (Attempt.mayCommit_iff.mpr ⟨hcleared, Submission.fencedBy_of_change (by rintro _ _ _ _ ⟨⟩) hfenced⟩)

theorem cancellationKept_step (hnone : s.NoneMayCommit) : CancellationKept s (s.step backend p action) := by
  have heffect := step_effect backend p s action
  generalize s.step backend p action = t at heffect
  cases heffect with
  | idle => exact .refl s
  | reads => exact ⟨id, fun _ => id, fun _ => id, fun _ => rfl⟩
  | claims haccepted => exact .of_change (by rintro _ _ _ _ ⟨⟩) (Submission.change_of_accepted haccepted).symm
  | performs ha heffect =>
      have hkept := fun hcancelled => heffect.completed_of (hnone hcancelled _ _ ha)
      exact ⟨fun h => heffect.isCancelled_eq.trans h, fun h => (hkept h).1, fun h => (hkept h).2.1,
        fun h => (hkept h).2.2⟩
  | cancels hr => exact .of_change (by rintro _ _ _ _ ⟨⟩) rfl

/-- **An accepted cancellation prevents the completion**, in every run of any number of attempts in which no
    cancellation is written between the check of an attempt that holds the job and its completion transaction. -/
theorem cancellation_prevents_completion (backend : Backend) (p : Publication) (now : Instant)
    (actions : List WorkerAction)
    (hunraced : Meets (step backend p) (fun s action => s.cancelRaced action = false) (initial now) actions) :
    Throughout (step backend p) CancellationKept (initial now) actions := by
  have hinitial : (initial now).NoneMayCommit := by
    intro hcancelled
    cases hcancelled
  rw [throughout_iff_meets (step backend p) CancellationKept.refl (fun _ _ _ => .trans)]
  exact meets_of_invariant (step backend p) (I := NoneMayCommit) (fun _ _ => noneMayCommit_step)
    (fun _ _ hnone _ => cancellationKept_step hnone) hinitial hunraced

/-- A run that publishes one file. -/
def oneFile : Publication := ⟨[⟨⟨"report_json", "r.json", "application/json", 0, "", "k", "active"⟩, []⟩],
  List.nodup_singleton _⟩

/-- A user cancels while the attempt copies; its check finds that out. -/
def cancelledInTime : List WorkerAction :=
  [.claim "w" "t" 60 0, .readJob 7 1, .attempt 0 (.promote .answered "") 2, .writeCancellation 0,
    .attempt 0 .checkCancellation 3, .attempt 0 (.commit .answered "") 4, .attempt 0 (.acknowledge .answered "") 5]

theorem cancellation_prevents_completion_inTime :
    Throughout (step .postgres oneFile) CancellationKept (initial 0) cancelledInTime ∧
      (run (step .postgres oneFile) (initial 0) cancelledInTime).submission.job.val.status = .cancelled :=
  ⟨cancellation_prevents_completion .postgres oneFile 0 cancelledInTime (by decide +kernel), by decide +kernel⟩

end JobExecution

end Untangle
