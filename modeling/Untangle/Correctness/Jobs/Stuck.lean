import Mathlib.Data.Finset.Card
import Untangle.Correctness.Jobs.Fencing

/-!
# `Correctness.Jobs.Stuck` — which jobs a worker can still move

A worker that has lost an attempt does not come back, so a job that is queued, or running with an expired lease, has to
be moved by a claim, or by a statement that does not present the lost token. It is moved exactly if it has attempts
left and no cancellation has been accepted for it (`movable_iff`): the claims are the only such statements that match
its row. A claim takes the earliest eligible job of the table, so the claims before it are made first (`drain`).
-/

namespace Untangle

open Lib

namespace Submission

variable {Artifact : Type} {e : Submission Artifact} {backend : Backend} {now : Instant}

/-- An eligible job has attempts left, given that a queued one does. -/
theorem AttemptsLeft.of_eligible (hleft : e.AttemptsLeft) (h : e.job.val.eligible now backend = true) :
    e.job.val.attemptCount < e.job.val.maxAttempts := by
  cases backend with
  | postgres => exact attempts_of_eligible h
  | sqlite =>
      simp only [ReconciliationJob.eligible, Bool.and_eq_true, Bool.or_eq_true, decide_eq_true_eq] at h
      rcases h.1 with hqueued | hexpired
      · exact hleft hqueued
      · exact hexpired.2

/-- What makes a job that is due eligible. -/
theorem eligible_iff (hleft : e.AttemptsLeft)
    (hdue : e.job.val.status = .queued ∨ e.job.val.leaseExpired now = true) (backend : Backend) :
    e.job.val.eligible now backend = true ↔
      e.job.val.attemptCount < e.job.val.maxAttempts ∧ e.job.val.isCancelled = false := by
  constructor
  · intro h
    refine ⟨hleft.of_eligible h, ?_⟩
    cases backend <;> simp only [ReconciliationJob.eligible, Bool.and_eq_true, Bool.not_eq_true'] at h
    · exact h.2
    · exact h.2
  · rintro ⟨hattempts, hcancelled⟩
    cases backend with
    | postgres => simpa [ReconciliationJob.eligible, hattempts, hcancelled] using hdue
    | sqlite => simpa [ReconciliationJob.eligible, hattempts, hcancelled] using hdue

/-- A job without attempts left, or with an accepted cancellation, is never eligible. -/
theorem not_eligible (hleft : e.AttemptsLeft)
    (h : ¬ (e.job.val.attemptCount < e.job.val.maxAttempts ∧ e.job.val.isCancelled = false)) (backend : Backend)
    (now : Instant) : e.job.val.eligible now backend = false := by
  rw [Bool.eq_false_iff]
  intro heligible
  refine h ⟨hleft.of_eligible heligible, ?_⟩
  cases backend <;> simp only [ReconciliationJob.eligible, Bool.and_eq_true, Bool.not_eq_true'] at heligible
  · exact heligible.2
  · exact heligible.2

end Submission

namespace ControlPlane

variable {Artifact : Type} {backend : Backend} {s : ControlPlane Artifact} {id : Nat} {e : Submission Artifact}
  {now : Instant}

/-- An operation of a worker that does not present the token that was lost with a job. -/
def Foreign (id : Nat) (e : Submission Artifact) : Action Artifact → Prop
  | .claimNext .. => True
  | .attempt jobId token _ _ _ => jobId = id → e.job.val.attemptToken ≠ some token
  | .submit .. => False
  | .readJob .. => False
  | .readRun _ => False
  | .writeCancellation _ => False

/-- Workers can have the job claimed, or bring it to an end. -/
def Movable (backend : Backend) (s : ControlPlane Artifact) (id : Nat) : Prop :=
  ∃ e, s.submissions.get? id = some e ∧ ∃ actions, (∀ a ∈ actions, Foreign id e a) ∧
    ∃ e', (run (step backend) s actions).submissions.get? id = some e' ∧
      (e.job.val.leaseGeneration < e'.job.val.leaseGeneration ∨ e'.job.val.status.terminal = true)

/-! ## Jobs that stay -/

/-- A job that is never eligible keeps its row, whatever the workers do. -/
theorem get?_foreign (backend : Backend) (he : s.submissions.get? id = some e) (hnever : ∀ now, e.job.val.eligible now backend = false)
    {actions : List (Action Artifact)} (hforeign : ∀ a ∈ actions, Foreign id e a) :
    (run (step backend) s actions).submissions.get? id = some e := by
  induction actions generalizing s with
  | nil => exact he
  | cons a actions ih =>
      refine ih ?_ fun b hb => hforeign b (List.mem_cons_of_mem a hb)
      have ha := hforeign a List.mem_cons_self
      rcases get?_step backend a he with ⟨_, hsame⟩ | ⟨c, htarget, hchanged⟩
      · exact hsame
      · cases a with
        | claimNext workerId token leaseTime now locked =>
            obtain ⟨jobId, hcandidate, heq⟩ := Option.map_eq_some_iff.mp htarget
            cases heq
            obtain ⟨e', he', heligible⟩ := eligible_of_candidate hcandidate
            obtain rfl := Option.some.inj (he.symm.trans he')
            rw [hnever now] at heligible
            cases heligible
        | attempt jobId token generation statement now =>
            cases htarget
            rw [hchanged, Submission.change_of_not_held]
            rw [Bool.eq_false_iff]
            exact fun hheld => ha rfl (heldBy_iff.mp hheld).1
        | _ => exact absurd ha not_false

/-! ## Jobs that are claimed -/

/-- If a job is eligible, some job is selected. -/
theorem exists_candidate (he : s.submissions.get? id = some e) (h : e.job.val.eligible now backend = true) :
    ∃ jobId, s.candidate backend now [] = some jobId := by
  unfold candidate
  have hmem : (id, e) ∈ s.submissions.items.filter
      (fun p => p.2.job.val.eligible now backend && !(backend = .postgres && p.1 ∈ ([] : List Nat))) := by
    rw [List.mem_filter]
    exact ⟨Dict.get?_eq_some.mp he, by simp [h]⟩
  have hsorted := (List.mem_insertionSort
    (fun p q : Nat × Submission Artifact => p.2.job.val.scheduledAt ≤ q.2.job.val.scheduledAt)).mpr hmem
  obtain ⟨p, hp⟩ := Option.isSome_iff_exists.mp (List.isSome_head?.mpr (List.ne_nil_of_mem hsorted))
  exact ⟨p.1, congrArg (Option.map Prod.fst) hp⟩

/-- The jobs among `keys` that are eligible. -/
def eligibleAmong (backend : Backend) (now : Instant) (keys : Finset Nat) (s : ControlPlane Artifact) : Finset Nat :=
  keys.filter fun k => (s.submissions.get? k).any (fun e => e.job.val.eligible now backend) = true

/-- A claim of the job that is selected leaves fewer eligible ones. -/
theorem eligibleAmong_claim {keys : Finset Nat} {jobId : Nat} (hkeys : jobId ∈ keys)
    (hleft : ∀ id e, s.submissions.get? id = some e → e.AttemptsLeft)
    (hcandidate : s.candidate backend now [] = some jobId) (workerId token : String) :
    (eligibleAmong backend now keys (s.modify backend jobId (.claim workerId token 0 now))).card <
      (eligibleAmong backend now keys s).card := by
  obtain ⟨e, he, heligible⟩ := eligible_of_candidate hcandidate
  have hclaimed := Submission.claim_accepted heligible ((hleft jobId e he).of_eligible heligible) workerId token 0
  -- the new lease has not run out at the time of the claim
  have hnot : (e.change backend (.claim workerId token 0 now)).job.val.eligible now backend = false := by
    rw [hclaimed]
    cases backend <;> simp [ReconciliationJob.eligible, ReconciliationJob.leaseExpired, ReconciliationJob.claimed]
  have hstep : ∀ k, (s.modify backend jobId (.claim workerId token 0 now)).submissions.get? k =
      if k = jobId then some (e.change backend (.claim workerId token 0 now)) else s.submissions.get? k := by
    intro k
    rw [get?_modify]
    split
    · rename_i hk
      rw [hk, he]
      rfl
    · rfl
  apply Finset.card_lt_card
  rw [Finset.ssubset_iff_of_subset]
  · refine ⟨jobId, ?_, ?_⟩
    · rw [eligibleAmong, Finset.mem_filter, he]
      exact ⟨hkeys, heligible⟩
    · rw [eligibleAmong, Finset.mem_filter, hstep, if_pos rfl]
      intro h
      rw [Option.any_some, hnot] at h
      cases h.2
  · intro k hk
    rw [eligibleAmong, Finset.mem_filter, hstep] at hk
    rw [eligibleAmong, Finset.mem_filter]
    refine ⟨hk.1, ?_⟩
    have hk := hk.2
    split at hk
    · rw [Option.any_some, hnot] at hk
      cases hk
    · exact hk

/-- **Claims reach every eligible job**, one after the other. -/
theorem drain (keys : Finset Nat) (hkeys : ∀ k e, s.submissions.get? k = some e → k ∈ keys)
    (hleft : ∀ id e, s.submissions.get? id = some e → e.AttemptsLeft) (he : s.submissions.get? id = some e)
    (heligible : e.job.val.eligible now backend = true) :
    ∃ actions : List (Action Artifact), (∀ a ∈ actions, Foreign id e a) ∧
      ∃ e', (run (step backend) s actions).submissions.get? id = some e' ∧
        e.job.val.leaseGeneration < e'.job.val.leaseGeneration := by
  induction hcard : (eligibleAmong backend now keys s).card using Nat.strong_induction_on generalizing s with
  | h n ih =>
      obtain ⟨jobId, hcandidate⟩ := exists_candidate he heligible
      obtain ⟨e₁, he₁, heligible₁⟩ := eligible_of_candidate hcandidate
      have hstep : s.step backend (.claimNext "worker" "token" 0 now []) =
          s.modify backend jobId (.claim "worker" "token" 0 now) := by
        simp only [step]
        rw [hcandidate]
      by_cases heq : id = jobId
      · subst heq
        have hclaimed := Submission.claim_accepted heligible ((hleft id e he).of_eligible heligible) "worker" "token" 0
        refine ⟨[.claimNext "worker" "token" 0 now []], fun a ha => ?_,
          e.change backend (.claim "worker" "token" 0 now), ?_, ?_⟩
        · obtain rfl := List.mem_singleton.mp ha
          trivial
        · rw [run_cons, run_nil, hstep, get?_modify, if_pos rfl, he]
          rfl
        · rw [hclaimed]
          exact Nat.lt_succ_self _
      · -- another job is claimed first, and the rest of the table is smaller
        have hfewer := eligibleAmong_claim (hkeys jobId e₁ he₁) hleft hcandidate "worker" "token"
        rw [← hstep, hcard] at hfewer
        obtain ⟨actions, hforeign, e', he', hmoved⟩ := ih _ hfewer
          (fun k e he => by
            rw [hstep, get?_modify] at he
            split at he
            · obtain ⟨e₂, he₂, _⟩ := Option.map_eq_some_iff.mp he
              exact hkeys k e₂ he₂
            · exact hkeys k e he)
          (attemptsLeft_step hleft) (by rw [hstep, get?_modify, if_neg heq, he]) rfl
        refine ⟨.claimNext "worker" "token" 0 now [] :: actions, fun a ha => ?_, e', he', hmoved⟩
        rcases List.mem_cons.mp ha with rfl | ha
        · trivial
        · exact hforeign a ha

/-- A job that is due without attempts left, or with an accepted cancellation, cannot be moved. -/
theorem not_movable (hleft : e.AttemptsLeft) (he : s.submissions.get? id = some e)
    (hdue : e.job.val.status = .queued ∨ e.job.val.leaseExpired now = true)
    (hstuck : ¬ (e.job.val.attemptCount < e.job.val.maxAttempts ∧ e.job.val.isCancelled = false)) :
    ¬ Movable backend s id := by
  rintro ⟨e₁, he₁, actions, hforeign, e', he', hmoved⟩
  obtain rfl := Option.some.inj (he.symm.trans he₁)
  have hsame := get?_foreign backend he (Submission.not_eligible hleft hstuck backend) hforeign
  obtain rfl := Option.some.inj (hsame.symm.trans he')
  rcases hmoved with hlt | hterminal
  · exact Nat.lt_irrefl _ hlt
  · rcases hdue with hqueued | hexpired
    · rw [hqueued] at hterminal
      cases hterminal
    · rw [of_decide_eq_true (Bool.and_eq_true_iff.mp hexpired).1] at hterminal
      cases hterminal

/-- **A job that is due can be moved** by the workers exactly if it has attempts left and is not flagged as
    cancelled. -/
theorem movable_iff (backend : Backend) (now : Instant) (hreach : Reachable (step backend) {} s)
    (he : s.submissions.get? id = some e)
    (hdue : e.job.val.status = .queued ∨ e.job.val.leaseExpired now = true) :
    Movable backend s id ↔ e.job.val.attemptCount < e.job.val.maxAttempts ∧ e.job.val.isCancelled = false := by
  have hleft : ∀ id e, s.submissions.get? id = some e → e.AttemptsLeft := fun _ _ => attemptsLeft_of_reachable hreach
  constructor
  · intro h
    by_contra hstuck
    exact not_movable (hleft id e he) he hdue hstuck h
  · intro h
    have heligible := (Submission.eligible_iff (hleft id e he) hdue backend).mpr h
    obtain ⟨actions, hforeign, e', he', hmoved⟩ := drain s.submissions.keys.toFinset
      (fun k e he => List.mem_toFinset.mpr (Dict.mem_keys_of_get? he)) hleft he heligible
    exact ⟨e, he, actions, hforeign, e', he', Or.inl hmoved⟩

theorem get?_submitted : (run (step .postgres) ({} : ControlPlane Unit) [.submit 0 0]).submissions.get? 0 =
    some (submitted 0) := by
  rw [run_cons, run_nil, get?_submit]
  rfl

/-- A job is submitted, and can be claimed. -/
theorem movable_submitted :
    Movable .postgres (run (step .postgres) ({} : ControlPlane Unit) [.submit 0 0]) 0 ↔
      (submitted 0 : Submission Unit).job.val.attemptCount < (submitted 0 : Submission Unit).job.val.maxAttempts ∧
        (submitted 0 : Submission Unit).job.val.isCancelled = false :=
  movable_iff .postgres 0 ⟨_, rfl⟩ get?_submitted (Or.inl rfl)

/-- Three workers crash, each with an attempt of the job. -/
def threeCrashes : List (Action Unit) :=
  [.submit 0 0, .claimNext "w" "a" 60 1 [], .claimNext "w" "b" 60 100 [], .claimNext "w" "c" 60 200 []]

/-- A worker crashes after a cancellation of the running job was accepted. -/
def cancelledCrash : List (Action Unit) :=
  [.submit 0 0, .claimNext "w" "a" 60 1 [], .readJob 0 7 2, .writeCancellation 0]

/-- The job's lease has run out at time 300, and it cannot be moved. -/
def StuckAt300 (backend : Backend) (s : ControlPlane Unit) : Prop :=
  Reachable (step backend) {} s ∧ (∃ e, s.submissions.get? 0 = some e ∧ e.job.val.leaseExpired 300 = true) ∧
    ¬ Movable backend s 0

theorem stuckAt300 (backend : Backend) (actions : List (Action Unit))
    (h : ((run (step backend) {} actions).submissions.get? 0).any (fun e => e.job.val.leaseExpired 300 &&
      (e.job.val.maxAttempts ≤ e.job.val.attemptCount || e.job.val.isCancelled)) = true) :
    StuckAt300 backend (run (step backend) {} actions) := by
  obtain ⟨e, he, h⟩ := (Option.any_eq_true _ _).mp h
  obtain ⟨hexpired, hspent⟩ := Bool.and_eq_true_iff.mp h
  have hreach : Reachable (step backend) {} (run (step backend) {} actions) := ⟨actions, rfl⟩
  refine ⟨hreach, ⟨e, he, hexpired⟩, not_movable (attemptsLeft_of_reachable hreach he) he (Or.inr hexpired) ?_⟩
  rintro ⟨hattempts, hcancelled⟩
  rcases Bool.or_eq_true_iff.mp hspent with hspent | hflagged
  · exact absurd hattempts (Nat.not_lt.mpr (of_decide_eq_true hspent))
  · rw [hcancelled] at hflagged
    cases hflagged

theorem crashes_stuck :
    StuckAt300 .postgres (run (step .postgres) {} threeCrashes) ∧
      StuckAt300 .sqlite (run (step .sqlite) {} threeCrashes) ∧
      StuckAt300 .postgres (run (step .postgres) {} cancelledCrash) ∧
      StuckAt300 .sqlite (run (step .sqlite) {} cancelledCrash) :=
  ⟨stuckAt300 _ _ (by decide +kernel), stuckAt300 _ _ (by decide +kernel), stuckAt300 _ _ (by decide +kernel),
    stuckAt300 _ _ (by decide +kernel)⟩

end ControlPlane

end Untangle
