import Untangle.Correctness.Jobs.Absorbing

/-!
# `Correctness.Jobs.Fencing` — the fence of the PostgreSQL statements

Each claim of a job issues an attempt: the token that it brings and the generation that it sets. Any client may issue
any statement with any token and generation at any time. Still a job that starts out queued is completed at most
once, by the attempt issued last; an attempt issued earlier changes nothing any more; generations increase; and the
attempts stay within their bound (`fenced`). What is carried along a run is `Tracks`: the row has the generation of
the attempt issued last, and its token or none.
-/

namespace Untangle

open Lib

namespace Submission

variable {Artifact : Type} {e e' : Submission Artifact}

/-- An attempt that does not hold the job changes nothing. -/
theorem change_of_not_held {token : String} {generation : Nat} (h : e.job.val.heldBy token generation = false)
    (backend : Backend) (statement : Statement Artifact) (now : Instant) :
    e.change backend (.attempt token generation statement now) = e := by
  have hnot : ¬ e.job.val.heldBy token generation = true := by
    rw [h]
    exact Bool.false_ne_true
  have hnotFenced : ¬ e.job.val.fencedBy token generation = true := by
    intro hfenced
    rw [ReconciliationJob.fencedBy, h] at hfenced
    cases hfenced
  rcases change_cases backend e (.attempt token generation statement now) with hsame | haccepted
  · exact hsame
  · cases haccepted with
    | heartbeat hfenced => exact absurd hfenced hnotFenced
    | transitionStage hfenced => exact absurd hfenced hnotFenced
    | complete hfenced => exact absurd hfenced hnotFenced
    | fail hheld => exact absurd hheld hnot
    | cancelAck hheld => exact absurd hheld hnot

/-- On PostgreSQL a completed job stays completed. -/
theorem completed_change (h : e.job.val.status = .completed) (c : Change Artifact) :
    (e.change .postgres c).job.val.status = .completed := by
  have hterminal : e.job.val.status.terminal = true := by
    rw [h]
    rfl
  rw [(status_change_iff hterminal).mpr ?_, h]
  cases c with
  | claim => rfl
  | cancel r => simp [overwrittenBy, h]
  | attempt token generation statement now => cases statement <;> rfl

/-- On PostgreSQL an eligible job has attempts left. -/
theorem attempts_of_eligible {j : ReconciliationJob} {now : Instant} (h : j.eligible now .postgres = true) :
    j.attemptCount < j.maxAttempts := by
  simp only [ReconciliationJob.eligible, Bool.and_eq_true, decide_eq_true_eq] at h
  exact h.1.2

/-- The attempts of a job up to a state: the row is the one that the last of them left, with its token or none. -/
structure Tracks (e₀ e : Submission Artifact) (attempts : List (String × Nat)) : Prop where
  increasing : (e₀.job.val.leaseGeneration :: attempts.map Prod.snd).Pairwise (· < ·)
  generation : (e₀.job.val.leaseGeneration :: attempts.map Prod.snd).getLast? = some e.job.val.leaseGeneration
  token : ∀ token, e.job.val.attemptToken = some token → attempts.getLast? = some (token, e.job.val.leaseGeneration)
  maxAttempts : e.job.val.maxAttempts = e₀.job.val.maxAttempts

theorem Tracks.init {e₀ : Submission Artifact} (h : e₀.job.val.status = .queued) : Tracks e₀ e₀ [] where
  increasing := List.pairwise_singleton _ _
  generation := rfl
  token := by
    intro token htoken
    rw [JobRecord.attemptToken_of_queued h] at htoken
    cases htoken
  maxAttempts := rfl

/-- In an increasing list every member is below the last one, or is it. -/
theorem le_getLast {l : List Nat} (h : l.Pairwise (· < ·)) {m : Nat} (hlast : l.getLast? = some m) :
    ∀ g ∈ l, g ≤ m := by
  obtain ⟨l', rfl⟩ := List.getLast?_eq_some_iff.mp hlast
  intro g hg
  rcases List.mem_append.mp hg with hg | hg
  · exact Nat.le_of_lt ((List.pairwise_append.mp h).2.2 g hg m (List.mem_singleton_self m))
  · exact Nat.le_of_eq (List.mem_singleton.mp hg)

/-- **A claim starts the next attempt.** -/
theorem Tracks.claim {e₀ : Submission Artifact} {attempts : List (String × Nat)} (h : Tracks e₀ e attempts)
    {workerId token : String} {leaseTime : ℤ} {now : Instant}
    (hjob : e'.job.val = e.job.val.claimed workerId token leaseTime now) :
    Tracks e₀ e' (attempts ++ [(token, e'.job.val.leaseGeneration)]) where
  increasing := by
    have hlast := h.generation
    have hnext : e'.job.val.leaseGeneration = e.job.val.leaseGeneration + 1 := by rw [hjob]; rfl
    rw [List.map_append, ← List.cons_append, List.pairwise_append]
    refine ⟨h.increasing, List.pairwise_singleton _ _, ?_⟩
    intro g hg g' hg'
    obtain rfl := List.mem_singleton.mp hg'
    show g < e'.job.val.leaseGeneration
    rw [hnext]
    -- the generations issued so far are at most the last of them
    exact Nat.lt_succ_of_le (le_getLast h.increasing hlast g hg)
  generation := by
    rw [List.map_append, ← List.cons_append, List.getLast?_append]
    rfl
  token := by
    intro token' htoken
    rw [hjob] at htoken
    obtain rfl := Option.some.inj htoken
    rw [List.getLast?_append]
    rfl
  maxAttempts := by rw [hjob]; exact h.maxAttempts

/-- Any other change leaves the generation, and the token or none. -/
theorem Tracks.keep {e₀ : Submission Artifact} {attempts : List (String × Nat)} (h : Tracks e₀ e attempts)
    (hgeneration : e'.job.val.leaseGeneration = e.job.val.leaseGeneration)
    (htoken : e'.job.val.attemptToken = e.job.val.attemptToken ∨ e'.job.val.attemptToken = none)
    (hmax : e'.job.val.maxAttempts = e.job.val.maxAttempts) : Tracks e₀ e' attempts where
  increasing := h.increasing
  generation := by rw [hgeneration]; exact h.generation
  token := by
    intro token' htoken'
    rcases htoken with hsame | hnone
    · rw [hgeneration]
      exact h.token token' (hsame ▸ htoken')
    · rw [hnone] at htoken'
      cases htoken'
  maxAttempts := hmax.trans h.maxAttempts

/-- An attempt issued earlier than the last one does not hold the job. -/
theorem Tracks.not_held {e₀ : Submission Artifact} {attempts : List (String × Nat)} (h : Tracks e₀ e attempts)
    {token : String} {generation : Nat} (hearlier : (token, generation) ∈ attempts.dropLast) :
    e.job.val.heldBy token generation = false := by
  rw [Bool.eq_false_iff]
  intro hheld
  obtain ⟨htoken, rfl⟩ := heldBy_iff.mp hheld
  obtain ⟨earlier, rfl⟩ := List.getLast?_eq_some_iff.mp (h.token token htoken)
  rw [List.dropLast_concat] at hearlier
  -- the generation of the last attempt is above those issued before it
  have hincreasing := h.increasing
  rw [List.map_append, ← List.cons_append, List.pairwise_append] at hincreasing
  exact Nat.lt_irrefl _ (hincreasing.2.2 _ (List.mem_cons_of_mem _ (List.mem_map_of_mem hearlier)) _
    (List.mem_singleton_self _))

end Submission

/-! ## Runs -/

namespace ControlPlane

variable {Artifact : Type}

/-- The attempt at a job that a step issues. -/
def issue (id : Nat) (s : ControlPlane Artifact) : Action Artifact → Option (String × Nat)
  | .claimNext workerId token leaseTime now locked =>
    if s.candidate .postgres now locked = some id then
      ((s.step .postgres (.claimNext workerId token leaseTime now locked)).submissions.get? id).map
        fun e => (token, e.job.val.leaseGeneration)
    else none
  | _ => none

/-- The attempts at a job that a run issues, in order. -/
def issued (id : Nat) : ControlPlane Artifact → List (Action Artifact) → List (String × Nat)
  | _, [] => []
  | s, a :: actions => (s.issue id a).toList ++ issued id (s.step .postgres a) actions

/-- A completion of a job that succeeds. -/
def completes (id : Nat) (s : ControlPlane Artifact) : Action Artifact → Bool
  | .attempt jobId token generation (.complete artifacts) now =>
    jobId = id && (s.submissions.get? id).any fun e => (e.complete token generation artifacts now).isOk
  | _ => false

/-- What the fence promises of a run, for one job that was `e₀` at its start. -/
structure Fenced (e₀ : Submission Artifact) (id : Nat) (s : ControlPlane Artifact) (actions : List (Action Artifact)) :
    Prop where
  /-- At most one completion succeeds. -/
  once : occurrences (step .postgres) (completes id) s actions ≤ 1
  /-- It presents the attempt issued last, and none is issued after it. -/
  latest : ∀ before token generation artifacts now after,
    actions = before ++ .attempt id token generation (.complete artifacts) now :: after →
    completes id (run (step .postgres) s before) (.attempt id token generation (.complete artifacts) now) = true →
    (issued id s before).getLast? = some (token, generation) ∧ issued id s actions = issued id s before
  /-- A statement of an attempt issued earlier leaves the row, and the run with it. -/
  stale : ∀ before token generation statement now after,
    actions = before ++ .attempt id token generation statement now :: after →
    (token, generation) ∈ (issued id s before).dropLast →
    (run (step .postgres) s (before ++ [.attempt id token generation statement now])).submissions.get? id =
      (run (step .postgres) s before).submissions.get? id
  /-- Every claim increases the generation. -/
  increasing : (e₀.job.val.leaseGeneration :: (issued id s actions).map Prod.snd).Pairwise (· < ·)
  /-- The attempts stay within the bound that the job was submitted with. -/
  bounded : ∃ e, (run (step .postgres) s actions).submissions.get? id = some e ∧
    e.job.val.attemptCount ≤ e₀.job.val.maxAttempts

variable {s : ControlPlane Artifact} {id : Nat} {e : Submission Artifact}

theorem issued_append (id : Nat) (s : ControlPlane Artifact) (actions more : List (Action Artifact)) :
    issued id s (actions ++ more) = issued id s actions ++ issued id (run (step .postgres) s actions) more := by
  induction actions generalizing s with
  | nil => rfl
  | cons a actions ih => rw [List.cons_append, issued, issued, ih, List.append_assoc, run_cons]

/-- **A step keeps track** of the attempts. -/
theorem tracks_step {e₀ : Submission Artifact} {attempts : List (String × Nat)}
    (he : s.submissions.get? id = some e) (h : Submission.Tracks e₀ e attempts) (a : Action Artifact) :
    ∃ e', (s.step .postgres a).submissions.get? id = some e' ∧
      Submission.Tracks e₀ e' (attempts ++ (s.issue id a).toList) := by
  have hkeep : ∀ c : Change Artifact, (∀ workerId token leaseTime now, c ≠ .claim workerId token leaseTime now) →
      Submission.Tracks e₀ (e.change .postgres c) attempts := by
    intro c hc
    rcases Submission.change_claimed .postgres e c with ⟨_, _, _, _, rfl, _⟩ | ⟨hgeneration, hmax, htoken⟩
    · exact absurd rfl (hc _ _ _ _)
    · exact h.keep hgeneration htoken hmax
  have hother : s.issue id a = none → (∀ c workerId token leaseTime now, s.target .postgres a = some (id, c) →
      c ≠ .claim workerId token leaseTime now) →
      ∃ e', (s.step .postgres a).submissions.get? id = some e' ∧
        Submission.Tracks e₀ e' (attempts ++ (s.issue id a).toList) := by
    intro hissue hc
    rw [hissue, Option.toList_none, List.append_nil]
    rcases get?_step .postgres a he with ⟨_, hsame⟩ | ⟨c, htarget, hchanged⟩
    · exact ⟨e, hsame, h⟩
    · exact ⟨_, hchanged, hkeep c fun workerId token leaseTime now => hc c workerId token leaseTime now htarget⟩
  cases a with
  | submit => exact hother rfl nofun
  | readJob => exact hother rfl nofun
  | readRun => exact hother rfl nofun
  | attempt jobId token generation statement now =>
      refine hother rfl ?_
      rintro c _ _ _ _ htarget rfl
      cases htarget
  | writeCancellation request =>
      refine hother rfl ?_
      rintro c _ _ _ _ htarget rfl
      obtain ⟨r, _, htarget⟩ := Option.bind_eq_some_iff.mp htarget
      split at htarget
      · cases htarget
      · cases htarget
  | claimNext workerId token leaseTime now locked =>
      by_cases hcandidate : s.candidate .postgres now locked = some id
      · obtain ⟨e', he', heligible⟩ := eligible_of_candidate hcandidate
        obtain rfl := Option.some.inj (he.symm.trans he')
        have hstep : (s.step .postgres (.claimNext workerId token leaseTime now locked)).submissions.get? id =
            some (e.change .postgres (.claim workerId token leaseTime now)) := by
          rw [step_of_target (by rw [target, hcandidate]; rfl), get?_modify, he, if_pos rfl]
          rfl
        have hissue : s.issue id (.claimNext workerId token leaseTime now locked) =
            some (token, (e.change .postgres (.claim workerId token leaseTime now)).job.val.leaseGeneration) := by
          rw [issue, if_pos hcandidate, hstep]
          rfl
        rw [hissue]
        exact ⟨_, hstep, h.claim (Submission.claim_accepted heligible (Submission.attempts_of_eligible heligible) _ _ _)⟩
      · refine hother (if_neg hcandidate) ?_
        rintro c _ _ _ _ htarget rfl
        obtain ⟨jobId, hjobId, heq⟩ := Option.map_eq_some_iff.mp htarget
        cases heq
        exact hcandidate hjobId

/-- **A run keeps track** of the attempts. -/
theorem tracks_run {e₀ : Submission Artifact} {attempts : List (String × Nat)}
    (he : s.submissions.get? id = some e) (h : Submission.Tracks e₀ e attempts) (actions : List (Action Artifact)) :
    ∃ e', (run (step .postgres) s actions).submissions.get? id = some e' ∧
      Submission.Tracks e₀ e' (attempts ++ issued id s actions) := by
  induction actions generalizing s e attempts with
  | nil => exact ⟨e, he, by rw [issued, List.append_nil]; exact h⟩
  | cons a actions ih =>
      obtain ⟨e', he', h'⟩ := tracks_step he h a
      rw [issued, ← List.append_assoc]
      exact ih he' h'

/-! ## Completed jobs -/

/-- A job that is completed. -/
def Completed (id : Nat) (s : ControlPlane Artifact) : Prop :=
  ∃ e, s.submissions.get? id = some e ∧ e.job.val.status = .completed

theorem Completed.step (h : Completed id s) (a : Action Artifact) : Completed id (s.step .postgres a) := by
  obtain ⟨e, he, hstatus⟩ := h
  rcases get?_step .postgres a he with ⟨_, hsame⟩ | ⟨c, _, hchanged⟩
  · exact ⟨e, hsame, hstatus⟩
  · exact ⟨_, hchanged, Submission.completed_change hstatus c⟩

/-- A completion that succeeds finds the job running, and held by the attempt that issued it. -/
theorem completes_spec {a : Action Artifact} (h : s.completes id a = true) :
    ∃ token generation artifacts now e e', a = .attempt id token generation (.complete artifacts) now ∧
      s.submissions.get? id = some e ∧ e.job.val.fencedBy token generation = true ∧
      (s.step .postgres a).submissions.get? id = some e' ∧ e'.job.val.status = .completed := by
  cases a with
  | attempt jobId token generation statement now =>
      cases statement with
      | complete artifacts =>
          rw [completes, Bool.and_eq_true, Option.any_eq_true] at h
          obtain ⟨hid, e, he, hok⟩ := h
          obtain rfl := of_decide_eq_true hid
          cases hcomplete : e.complete token generation artifacts now with
          | error refusal =>
              rw [hcomplete] at hok
              cases hok
          | ok e' =>
              obtain ⟨hfirst, hrun, hfenced, hjob, hresult⟩ := Submission.complete_eq_ok.mp hcomplete
              have hchange : e.change .postgres (.attempt token generation (.complete artifacts) now) = e' :=
                Submission.change_of_accepted (.complete hfenced hfirst hjob hrun hresult)
              refine ⟨token, generation, artifacts, now, e, e', rfl, he, hfenced, ?_, by rw [hjob]⟩
              show (s.modify .postgres jobId _).submissions.get? jobId = some e'
              rw [get?_modify, if_pos rfl, he, ← hchange]
              rfl
      | _ => cases h
  | _ => cases h

theorem Completed.completes (h : Completed id s) (a : Action Artifact) : s.completes id a = false := by
  obtain ⟨e, he, hstatus⟩ := h
  rw [Bool.eq_false_iff]
  intro hcompletes
  obtain ⟨_, _, _, _, e', _, _, he', hfenced, _⟩ := completes_spec hcompletes
  obtain rfl := Option.some.inj (he.symm.trans he')
  rw [(fencedBy_iff.mp hfenced).2.2] at hstatus
  cases hstatus

theorem Completed.issue (h : Completed id s) (a : Action Artifact) : s.issue id a = none := by
  obtain ⟨e, he, hstatus⟩ := h
  cases a with
  | claimNext workerId token leaseTime now locked =>
      apply if_neg
      intro hcandidate
      obtain ⟨e', he', heligible⟩ := eligible_of_candidate hcandidate
      obtain rfl := Option.some.inj (he.symm.trans he')
      rcases Submission.status_of_eligible heligible with h | h <;> cases hstatus.symm.trans h
  | _ => rfl

/-- No attempt is issued at a completed job. -/
theorem Completed.issued (h : Completed id s) (actions : List (Action Artifact)) : s.issued id actions = [] := by
  induction actions generalizing s with
  | nil => rfl
  | cons a actions ih =>
      rw [ControlPlane.issued, h.issue a, ih (h.step a)]
      rfl

/-! ## The fence -/

/-- **The fence.** In every run from a state where the job is queued, whatever the clients do. -/
theorem fenced {e₀ : Submission Artifact} (he : s.submissions.get? id = some e₀)
    (hqueued : e₀.job.val.status = .queued) (actions : List (Action Artifact)) : Fenced e₀ id s actions := by
  have htracks := tracks_run he (Submission.Tracks.init hqueued)
  constructor
  · exact occurrences_le_one _ (fun _ a h => Completed.step h a) (fun _ a h => Completed.completes h a)
      (fun s a h => by
        obtain ⟨_, _, _, _, _, e', _, _, _, he', hstatus⟩ := completes_spec h
        exact ⟨e', he', hstatus⟩) s actions
  · rintro before token generation artifacts now after rfl hcompletes
    obtain ⟨_, _, _, _, e, e', hsame, hbefore, hfenced, hafter, hstatus⟩ := completes_spec hcompletes
    cases hsame
    obtain ⟨e₁, he₁, h₁⟩ := htracks before
    obtain rfl := Option.some.inj (hbefore.symm.trans he₁)
    obtain ⟨htoken, hgeneration, _⟩ := fencedBy_iff.mp hfenced
    constructor
    · rw [← hgeneration]
      exact h₁.token token htoken
    · have hcompleted : Completed id (ControlPlane.step .postgres (run (ControlPlane.step .postgres) s before)
          (.attempt id token generation (.complete artifacts) now)) := ⟨e', hafter, hstatus⟩
      rw [issued_append, issued, hcompleted.issued after]
      exact List.append_nil _
  · rintro before token generation statement now after rfl hearlier
    obtain ⟨e₁, he₁, h₁⟩ := htracks before
    rw [run_append, run_cons, run_nil]
    show (modify .postgres _ id _).submissions.get? id = _
    rw [get?_modify, if_pos rfl, he₁, Option.map_some, Submission.change_of_not_held (h₁.not_held hearlier)]
  · obtain ⟨e₁, _, h₁⟩ := htracks actions
    exact h₁.increasing
  · obtain ⟨e₁, he₁, h₁⟩ := htracks actions
    exact ⟨e₁, he₁, h₁.maxAttempts ▸ e₁.job.attemptCount_le⟩

/-- The second worker takes a job over, and the first one is too late. -/
theorem fenced_takeover :
    Fenced (submitted 0) 0 (({} : ControlPlane Unit).step .postgres (.submit 0 0))
      [.claimNext "w1" "a" 60 1 [], .claimNext "w2" "b" 60 100 [], .attempt 0 "a" 1 (.complete []) 101,
        .attempt 0 "b" 2 (.complete []) 102] :=
  fenced ((get?_submit 0 0 0).trans (if_pos ⟨rfl, rfl⟩)) rfl _

end ControlPlane

end Untangle
