import Untangle.Lib.Runs
import Untangle.Persistence.Run

/-!
# `Correctness.Lifecycle` — what a run is left with

`execute_reconciliation` leaves a run completed with all its records, or failed with none of them, wherever it raises:
phases 1 and 3 are transactions, and every exception between them is recorded (`execute_atomic`). A run that is
completed keeps its row and its hashes; one that is failed or aborted does so only until a failure of it is recorded
again, since `fail_run` spares completed runs only (`diagnostics_kept`).
-/

namespace Untangle

open Lib

namespace RunRecords

variable {sha256 : String → String} {role : Role} {d d' : RunRecords} {o : EngineOutput} {now : Instant}

/-! ## What the statements do -/

theorem appendAuditEvent_eq_ok {eventType : String} {metadata : List (String × String)}
    (h : d.appendAuditEvent role eventType metadata = .ok d') :
    d' = { d with events := d.events ++ [⟨eventType, metadata⟩] } := by
  unfold appendAuditEvent at h
  split at h
  · cases h
  · exact (Except.ok.inj (bind_unit_eq_ok.mp h).2).symm

theorem saveUploadedFileMetadata_eq_ok {file : UploadedFileMetadata}
    (h : d.saveUploadedFileMetadata role file = .ok d') : d' = { d with files := d.files ++ [file] } := by
  have h := (bind_unit_eq_ok.mp h).2
  split at h
  · cases h
  · exact (Except.ok.inj h).symm

theorem saveResult_eq_ok (h : d.saveResult sha256 role o = .ok d') : d' = { d with result := some (resultOf o) } := by
  have h := (bind_unit_eq_ok.mp h).2
  split at h
  · cases h
  · split at h
    · cases h
    · exact (Except.ok.inj h).symm

theorem foldlM_insertInvestigation_records {cases : List Investigation} {table table' : List InvestigationRecord}
    (h : cases.foldlM insertInvestigation table = .ok table') : table' = table ++ cases.map Investigation.record := by
  induction cases generalizing table with
  | nil =>
      obtain rfl := Except.ok.inj h
      rw [List.map_nil, List.append_nil]
  | cons inv cases ih =>
      rw [List.foldlM_cons] at h
      obtain ⟨next, hnext, h⟩ := bind_eq_ok.mp h
      unfold insertInvestigation at hnext
      split at hnext
      · cases hnext
      · split at hnext
        · cases hnext
        · split at hnext
          · cases hnext
          · obtain rfl := Except.ok.inj hnext
            rw [ih h, List.map_cons, List.append_assoc, List.singleton_append]

theorem saveInvestigations_eq_ok (h : d.saveInvestigations role o = .ok d') :
    d' = { d with investigations := d.investigations ++ o.investigations.map Investigation.record } := by
  obtain ⟨table, htable, h⟩ := bind_eq_ok.mp (bind_unit_eq_ok.mp h).2
  rw [← foldlM_insertInvestigation_records (mapError_eq_ok.mp htable)]
  exact (Except.ok.inj h).symm

theorem saveCertificate_eq_ok (h : d.saveCertificate role o = .ok d') :
    d' = { d with certificate := some (certificateOf o) } := by
  have h := (bind_unit_eq_ok.mp h).2
  split at h
  · cases h
  · exact (Except.ok.inj h).symm

theorem saveArtifactMetadata_eq_ok {m : OutputMetadata} (h : d.saveArtifactMetadata role m = .ok d') :
    d' = { d with artifacts := d.artifacts ++ [m] } := by
  have h := (bind_unit_eq_ok.mp h).2
  split at h
  · cases h
  · exact (Except.ok.inj h).symm

/-- `complete_run` leaves a run completed. -/
theorem completeRun_eq_ok {hashes : RunHashes} (h : d.completeRun role hashes now = .ok d') :
    d'.row.val.status = .completed ∧ d' = { d with row := d'.row, hashes := d'.hashes } := by
  obtain ⟨row, hrow, h⟩ := bind_eq_ok.mp (bind_unit_eq_ok.mp h).2
  obtain rfl := Except.ok.inj h
  have hrow := mapError_eq_ok.mp hrow
  refine ⟨?_, rfl⟩
  show row.val.status = .completed
  unfold Untangle.completeRun at hrow
  split at hrow
  · rename_i hstatus
    obtain rfl := Except.ok.inj hrow
    exact hstatus
  · cases hrow
  · cases hrow
  · unfold storeRun at hrow
    split at hrow
    · obtain rfl := Except.ok.inj hrow
      rfl
    · cases hrow
  · unfold storeRun at hrow
    split at hrow
    · obtain rfl := Except.ok.inj hrow
      rfl
    · cases hrow

/-- A terminal run that `complete_run` accepts is completed, and stays as it is. -/
theorem completeRun_terminal {hashes : RunHashes} (h : d.completeRun role hashes now = .ok d')
    (hterminal : d.row.val.status = .completed ∨ d.row.val.status = .failed ∨ d.row.val.status = .aborted) :
    d' = d := by
  obtain ⟨row, hrow, h⟩ := bind_eq_ok.mp (bind_unit_eq_ok.mp h).2
  obtain rfl := Except.ok.inj h
  have hrow := mapError_eq_ok.mp hrow
  unfold Untangle.completeRun at hrow
  rcases hterminal with hstatus | hstatus | hstatus <;> rw [hstatus] at hrow
  · obtain rfl := Except.ok.inj hrow
    rw [if_pos hstatus]
  · cases hrow
  · cases hrow

/-- `fail_run` leaves a completed run as it is, and any other one failed. -/
theorem failRun_eq_ok {code summary : String} (h : d.failRun role code summary now = .ok d') :
    (d.row.val.status = .completed ∧ d' = d) ∨
      (d.row.val.status ≠ .completed ∧ requireRunMutation role "fail" = .ok () ∧
        d'.row.val = failedRow code summary now d.row.val ∧ d' = { d with row := d'.row }) := by
  obtain ⟨hrole, h⟩ := bind_unit_eq_ok.mp h
  split at h
  · rename_i hstatus
    exact Or.inl ⟨hstatus, (Except.ok.inj h).symm⟩
  · rename_i hstatus
    obtain ⟨row, hrow, h⟩ := bind_eq_ok.mp h
    obtain rfl := Except.ok.inj h
    have hrow := mapError_eq_ok.mp hrow
    unfold storeRun at hrow
    split at hrow
    · obtain rfl := Except.ok.inj hrow
      exact Or.inr ⟨hstatus, hrole, rfl, rfl⟩
    · cases hrow

/-- Recording a failure appends its event, unless the run is completed. -/
theorem recordFailure_eq_ok {code summary : String} (h : d.recordFailure role code summary now = .ok d') :
    (d.row.val.status = .completed ∧ d' = d) ∨
      (d.row.val.status ≠ .completed ∧ requireRunMutation role "fail" = .ok () ∧
        d'.row.val = failedRow code summary now d.row.val ∧
        d' = { d with row := d'.row, events := d.events ++ [⟨"run.failed", [("error_code", code)]⟩] }) := by
  obtain ⟨failed, hfail, happend⟩ := bind_eq_ok.mp h
  rcases failRun_eq_ok hfail with ⟨hstatus, hsame⟩ | ⟨hstatus, hrole, hrow, hsame⟩
  · rw [hsame, if_pos hstatus] at happend
    exact Or.inl ⟨hstatus, (Except.ok.inj happend).symm⟩
  · rw [if_neg (by rw [hrow]; nofun)] at happend
    have hevent := appendAuditEvent_eq_ok happend
    refine Or.inr ⟨hstatus, hrole, by rw [hevent]; exact hrow, ?_⟩
    rw [hevent, hsame]

/-! ## What the phases leave -/

/-- How many events of a type a run has. -/
def eventCount (eventType : String) (d : RunRecords) : Nat := d.events.countP fun e => e.eventType = eventType

/-- A run that is completed with the output of the engine, and with all its records. -/
structure Completed (sha256 : String → String) (o : EngineOutput) (d : RunRecords) : Prop where
  status : d.row.val.status = .completed
  result : d.result = some (resultOf o)
  investigations : d.investigations = o.investigations.map Investigation.record
  certificate : d.certificate = some (certificateOf o)
  artifacts : d.artifacts = [tallyMetadata sha256 o, reportMetadata o]
  completedEvents : d.eventCount "run.completed" = 1
  failedEvents : d.eventCount "run.failed" = 0

/-- A run without records of a completion. -/
structure Bare (d : RunRecords) : Prop where
  result : d.result = none
  investigations : d.investigations = []
  certificate : d.certificate = none
  artifacts : d.artifacts = []
  completedEvents : d.eventCount "run.completed" = 0

/-- A run that failed with an error code, and has no records of a completion. -/
structure Failed (code : String) (d : RunRecords) : Prop where
  status : d.row.val.status = .failed
  errorCode : d.row.val.errorCode = some code
  bare : d.Bare
  failedEvents : d.eventCount "run.failed" = 1

/-- A run that phase 1 has created. -/
structure Started (d : RunRecords) : Prop where
  status : d.row.val.status = .initiated
  bare : d.Bare
  failedEvents : d.eventCount "run.failed" = 0

theorem started_of_phase1 {inputs : Inputs} {crash : Nat → Option String}
    (h : phase1 role inputs now crash = .ok d) : d.Started := by
  obtain ⟨_, h⟩ := bind_unit_eq_ok.mp h
  obtain ⟨_, h⟩ := bind_unit_eq_ok.mp h
  have h := (transaction_eq_ok.mp h).2
  simp only [List.foldlM_cons, List.foldlM_nil, bind_eq_ok] at h
  obtain ⟨d₁, h₁, d₂, h₂, d₃, h₃, d₄, h₄, h⟩ := h
  obtain rfl := Except.ok.inj h
  rw [appendAuditEvent_eq_ok h₄, saveUploadedFileMetadata_eq_ok h₃, saveUploadedFileMetadata_eq_ok h₂,
    saveUploadedFileMetadata_eq_ok h₁]
  exact ⟨rfl, ⟨rfl, rfl, rfl, rfl, rfl⟩, rfl⟩

theorem eventCount_append {e : AuditEvent} {eventType : String} :
    (d.events ++ [e]).countP (fun e => e.eventType = eventType) =
      d.eventCount eventType + if e.eventType = eventType then 1 else 0 := by
  rw [List.countP_append, List.countP_singleton]
  simp [eventCount]

/-- What the statements of a completion make of a run. -/
theorem completionStatements_eq_ok {inputs : RunHashes}
    (h : (completionStatements sha256 role inputs o now).foldlM (fun d statement => statement d) d = .ok d') :
    d'.row.val.status = .completed ∧
      d' = { d with
        row := d'.row
        hashes := d'.hashes
        result := some (resultOf o)
        investigations := d.investigations ++ o.investigations.map Investigation.record
        certificate := some (certificateOf o)
        artifacts := d.artifacts ++ [tallyMetadata sha256 o] ++ [reportMetadata o]
        events := d.events ++ [⟨"run.completed",
          [("report_sha256", o.reportSha256), ("content_sha256", o.contentSha256)]⟩] } := by
  simp only [completionStatements, List.foldlM_cons, List.foldlM_nil, bind_eq_ok] at h
  obtain ⟨d₁, h₁, d₂, h₂, d₃, h₃, d₄, h₄, d₅, h₅, d₆, h₆, d₇, h₇, h⟩ := h
  obtain rfl := Except.ok.inj h
  obtain ⟨hstatus, hsame⟩ := completeRun_eq_ok h₇
  refine ⟨hstatus, ?_⟩
  rw [hsame, appendAuditEvent_eq_ok h₆, saveArtifactMetadata_eq_ok h₅, saveArtifactMetadata_eq_ok h₄,
    saveCertificate_eq_ok h₃, saveInvestigations_eq_ok h₂, saveResult_eq_ok h₁]

/-- What phase 3 makes of a run: a completed one stays as it is, and one that is under way is completed. -/
theorem phase3_eq_ok {inputs : RunHashes} {crash : Nat → Option String}
    (h : d.phase3 sha256 role inputs o now crash = .ok d') :
    (d.row.val.status = .completed ∧ d' = d) ∨
      ((d.row.val.status = .initiated ∨ d.row.val.status = .running) ∧
        (completionStatements sha256 role inputs o now).foldlM (fun d statement => statement d) d = .ok d') := by
  have h := (bind_unit_eq_ok.mp h).2
  split at h
  · rename_i hstatus
    split at h
    · cases h
    · split at h
      · cases h
      · exact Or.inl ⟨hstatus, (Except.ok.inj (transaction_eq_ok.mp h).2).symm⟩
  · cases h
  · cases h
  · rename_i hstatus
    exact Or.inr ⟨Or.inl hstatus, (transaction_eq_ok.mp h).2⟩
  · rename_i hstatus
    exact Or.inr ⟨Or.inr hstatus, (transaction_eq_ok.mp h).2⟩

/-- **Phase 3 completes a run with everything**, or raises. -/
theorem Started.completed (hstarted : d.Started) {inputs : RunHashes} {crash : Nat → Option String}
    (h : d.phase3 sha256 role inputs o now crash = .ok d') : d'.Completed sha256 o := by
  rcases phase3_eq_ok h with ⟨hstatus, _⟩ | ⟨_, h⟩
  · cases hstarted.status.symm.trans hstatus
  · obtain ⟨hstatus, hsame⟩ := completionStatements_eq_ok h
    rw [hstarted.bare.investigations, hstarted.bare.artifacts] at hsame
    rw [hsame]
    refine ⟨hstatus, rfl, rfl, rfl, rfl, ?_, ?_⟩
    · show List.countP _ (d.events ++ _) = 1
      rw [eventCount_append, hstarted.bare.completedEvents]
      rfl
    · show List.countP _ (d.events ++ _) = 0
      rw [eventCount_append, hstarted.failedEvents]
      rfl

/-! ### The error that is not recorded -/

theorem requireRunMutation_ne {action : String} : requireRunMutation role action ≠ .error .invalidRunState := by
  unfold requireRunMutation
  split
  · nofun
  · split
    · nofun
    · nofun

/-- A statement behind a permission raises that error itself, if it does. -/
theorem error_of_mutation {action : String} {f : Unit → Except ServiceError RunRecords}
    (h : (requireRunMutation role action >>= f) = .error .invalidRunState) : f () = .error .invalidRunState := by
  rcases bind_eq_error.mp h with h | ⟨_, _, h⟩
  · exact absurd h requireRunMutation_ne
  · exact h

theorem saveResult_ne : d.saveResult sha256 role o ≠ .error .invalidRunState := by
  intro h
  have h := error_of_mutation h
  split at h
  · cases h
  · split at h
    · cases h
    · cases h

theorem saveInvestigations_ne : d.saveInvestigations role o ≠ .error .invalidRunState := by
  intro h
  rcases bind_eq_error.mp (error_of_mutation h) with h | ⟨_, _, h⟩
  · obtain ⟨_, _, h⟩ := mapError_eq_error.mp h
    cases h
  · cases h

theorem saveCertificate_ne : d.saveCertificate role o ≠ .error .invalidRunState := by
  intro h
  have h := error_of_mutation h
  split at h
  · cases h
  · cases h

theorem saveArtifactMetadata_ne {m : OutputMetadata} : d.saveArtifactMetadata role m ≠ .error .invalidRunState := by
  intro h
  have h := error_of_mutation h
  split at h
  · cases h
  · cases h

theorem appendAuditEvent_ne {eventType : String} {metadata : List (String × String)} :
    d.appendAuditEvent role eventType metadata ≠ .error .invalidRunState := by
  unfold appendAuditEvent
  split
  · nofun
  · intro h
    cases error_of_mutation h

/-- A run that is neither failed nor aborted. -/
def Unfailed (d : RunRecords) : Prop := d.row.val.status ≠ .failed ∧ d.row.val.status ≠ .aborted

theorem completeRun_ne {hashes : RunHashes} (hunfailed : d.Unfailed) :
    d.completeRun role hashes now ≠ .error .invalidRunState := by
  intro h
  rcases bind_eq_error.mp (error_of_mutation h) with h | ⟨_, _, h⟩
  · obtain ⟨refusal, hrefusal, h⟩ := mapError_eq_error.mp h
    unfold Untangle.completeRun at hrefusal
    split at hrefusal
    · cases hrefusal
    · exact hunfailed.1 ‹_›
    · exact hunfailed.2 ‹_›
    all_goals
      unfold storeRun at hrefusal
      split at hrefusal
      · cases hrefusal
      · cases hrefusal
        cases h
  · cases h

/-- The statements of a completion keep a run unfailed, and do not raise that error on one. -/
theorem completionStatements_unfailed (sha256 : String → String) (role : Role) (inputs : RunHashes)
    (o : EngineOutput) (now : Instant) :
    ∀ statement ∈ completionStatements sha256 role inputs o now, ∀ d : RunRecords, d.Unfailed →
      (∀ d', statement d = .ok d' → d'.Unfailed) ∧ statement d ≠ .error .invalidRunState := by
  intro statement hstatement d hunfailed
  simp only [completionStatements, List.mem_cons, List.not_mem_nil, or_false] at hstatement
  rcases hstatement with rfl | rfl | rfl | rfl | rfl | rfl | rfl
  · exact ⟨fun d' h => by rw [saveResult_eq_ok h]; exact hunfailed, saveResult_ne⟩
  · exact ⟨fun d' h => by rw [saveInvestigations_eq_ok h]; exact hunfailed, saveInvestigations_ne⟩
  · exact ⟨fun d' h => by rw [saveCertificate_eq_ok h]; exact hunfailed, saveCertificate_ne⟩
  · exact ⟨fun d' h => by rw [saveArtifactMetadata_eq_ok h]; exact hunfailed, saveArtifactMetadata_ne⟩
  · exact ⟨fun d' h => by rw [saveArtifactMetadata_eq_ok h]; exact hunfailed, saveArtifactMetadata_ne⟩
  · exact ⟨fun d' h => by rw [appendAuditEvent_eq_ok h]; exact hunfailed, appendAuditEvent_ne⟩
  · refine ⟨fun d' h => ?_, completeRun_ne hunfailed⟩
    obtain ⟨hstatus, _⟩ := completeRun_eq_ok h
    exact ⟨by rw [hstatus]; nofun, by rw [hstatus]; nofun⟩

/-- On a run that is under way phase 3 does not raise the error that is not recorded. -/
theorem Started.phase3_ne (hstarted : d.Started) {inputs : RunHashes} {crash : Nat → Option String} :
    d.phase3 sha256 role inputs o now crash ≠ .error .invalidRunState := by
  -- A crash raises another error.
  have hraised : ∀ i, raised crash i ≠ some .invalidRunState := by
    intro i h
    obtain ⟨_, _, h⟩ := Option.map_eq_some_iff.mp h
    cases h
  have hunfailed : d.Unfailed := by
    unfold Unfailed
    rw [hstarted.status]
    exact ⟨nofun, nofun⟩
  intro h
  rcases bind_eq_error.mp h with hcrash | ⟨_, _, h⟩
  · exact hraised 0 (crashAt_eq_error.mp hcrash)
  · rw [hstarted.status] at h
    have hkeeps := completionStatements_unfailed sha256 role inputs o now
    rcases transaction_eq_error (P := Unfailed) (fun statement hs d d' hd => (hkeeps statement hs d hd).1 d') hunfailed h
      with ⟨i, hcrash⟩ | ⟨statement, hstatement, d', hd', herror⟩
    · exact hraised i hcrash
    · exact (hkeeps statement hstatement d' hd').2 herror

/-! ### Failures -/

theorem Started.recorded (hstarted : d.Started) {code summary : String} (hcode : truncated code 64 = code)
    (h : d.recordFailure role code summary now = .ok d') : d'.Failed code := by
  rcases recordFailure_eq_ok h with ⟨hstatus, _⟩ | ⟨_, _, hrow, hsame⟩
  · cases hstarted.status.symm.trans hstatus
  · have hstatus : d'.row.val.status = .failed := by rw [hrow]; rfl
    have hstored : d'.row.val.errorCode = some code := by
      rw [hrow]
      exact congrArg some hcode
    refine ⟨hstatus, hstored, ?_, ?_⟩
    · rw [hsame]
      refine ⟨hstarted.bare.result, hstarted.bare.investigations, hstarted.bare.certificate,
        hstarted.bare.artifacts, ?_⟩
      show List.countP _ (d.events ++ _) = 0
      rw [eventCount_append, hstarted.bare.completedEvents]
      rfl
    · rw [hsame]
      show List.countP _ (d.events ++ _) = 1
      rw [eventCount_append, hstarted.failedEvents]
      rfl

/-! ## Any order of operations -/

/-- `failed` and `aborted`, the terminal states that `fail_run` does not spare. -/
def Unspared (d : RunRecords) : Prop := d.row.val.status = .failed ∨ d.row.val.status = .aborted

def Terminal (d : RunRecords) : Prop := d.row.val.status = .completed ∨ d.Unspared

/-- A run that is terminal before keeps its row and its hashes. -/
def KeepsDiagnostics (d d' : RunRecords) : Prop := d.Terminal → d'.row = d.row ∧ d'.hashes = d.hashes

/-- How many events say that the run has come to an end. -/
def terminalEvents (d : RunRecords) : Nat := d.eventCount "run.completed" + d.eventCount "run.failed"

/-- A failure that may be stored finds no run that has failed or was aborted. -/
def FindsNoFailure (d : RunRecords) : RunOperation → Prop
  | .failRun role _ _ now => d.Unspared → requireRunMutation role "fail" = .ok () → now < d.row.val.startedAt
  | .recordFailure role _ _ now => d.Unspared → requireRunMutation role "fail" = .ok () → now < d.row.val.startedAt
  | .completeRun _ _ _ => True
  | .phase3 _ _ _ _ _ => True

/-- What an operation may make of a run: nothing, or, of one that is under way, a terminal one with at most one event
    of its end. -/
def Ends (d d' : RunRecords) : Prop :=
  d' = d ∨ (¬ d.Terminal ∧ d'.Terminal ∧ d'.terminalEvents ≤ d.terminalEvents + 1)

theorem completeRun_ends {hashes : RunHashes} (h : d.completeRun role hashes now = .ok d') : d.Ends d' := by
  by_cases hterminal : d.Terminal
  · exact Or.inl (completeRun_terminal h hterminal)
  · obtain ⟨hstatus, hsame⟩ := completeRun_eq_ok h
    refine Or.inr ⟨hterminal, Or.inl hstatus, ?_⟩
    rw [hsame]
    exact Nat.le_succ _

/-- A row that stores a failure does not put it before the run's start. -/
theorem startedAt_le_of_failedRow {code summary : String} {r : ReconciliationRun} {row : RunRecord}
    (h : row.val = failedRow code summary now r) : r.startedAt ≤ now := by
  have hcheck := row.property
  rw [h] at hcheck
  simp only [ReconciliationRun.check, failedRow, atOrAfter, Option.any_some, Bool.and_eq_true, decide_eq_true_eq]
    at hcheck
  exact hcheck.1.1

/-- Where a failure is stored and none was there before, the run was under way. -/
theorem not_terminal_of_failedRow {code summary : String} (hstatus : d.row.val.status ≠ .completed)
    (hrole : requireRunMutation role "fail" = .ok ()) {row : RunRecord}
    (hrow : row.val = failedRow code summary now d.row.val)
    (hfinds : d.Unspared → requireRunMutation role "fail" = .ok () → now < d.row.val.startedAt) : ¬ d.Terminal := by
  rintro (hcompleted | hunspared)
  · exact hstatus hcompleted
  · exact absurd (startedAt_le_of_failedRow hrow) (not_le.mpr (hfinds hunspared hrole))

theorem failRun_ends {code summary : String} (h : d.failRun role code summary now = .ok d')
    (hfinds : d.FindsNoFailure (.failRun role code summary now)) : d.Ends d' := by
  rcases failRun_eq_ok h with ⟨_, hsame⟩ | ⟨hstatus, hrole, hrow, hsame⟩
  · exact Or.inl hsame
  · have hterminal := not_terminal_of_failedRow hstatus hrole hrow hfinds
    refine Or.inr ⟨hterminal, Or.inr (Or.inl (by rw [hrow]; rfl)), ?_⟩
    rw [hsame]
    exact Nat.le_succ _

theorem recordFailure_ends {code summary : String} (h : d.recordFailure role code summary now = .ok d')
    (hfinds : d.FindsNoFailure (.recordFailure role code summary now)) : d.Ends d' := by
  rcases recordFailure_eq_ok h with ⟨_, hsame⟩ | ⟨hstatus, hrole, hrow, hsame⟩
  · exact Or.inl hsame
  · have hterminal := not_terminal_of_failedRow hstatus hrole hrow hfinds
    refine Or.inr ⟨hterminal, Or.inr (Or.inl (by rw [hrow]; rfl)), ?_⟩
    rw [hsame]
    show List.countP _ (d.events ++ _) + List.countP _ (d.events ++ _) ≤ _
    rw [eventCount_append, eventCount_append]
    exact Nat.le_refl _

theorem phase3_ends {inputs : RunHashes} {crash : Nat → Option String}
    (h : d.phase3 sha256 role inputs o now crash = .ok d') : d.Ends d' := by
  rcases phase3_eq_ok h with ⟨_, hsame⟩ | ⟨hunderWay, h⟩
  · exact Or.inl hsame
  · obtain ⟨hstatus, hsame⟩ := completionStatements_eq_ok h
    have hterminal : ¬ d.Terminal := by
      unfold Terminal Unspared
      rcases hunderWay with hunderWay | hunderWay <;> simp [hunderWay]
    refine Or.inr ⟨hterminal, Or.inl hstatus, ?_⟩
    rw [hsame]
    show List.countP _ (d.events ++ _) + List.countP _ (d.events ++ _) ≤ _
    rw [eventCount_append, eventCount_append]
    show d.eventCount "run.completed" + 1 + (d.eventCount "run.failed" + 0) ≤ _
    unfold terminalEvents
    omega

/-- **What one operation does.** -/
theorem step_ends {op : RunOperation} (hfinds : d.FindsNoFailure op) : d.Ends (d.step sha256 op) := by
  unfold step
  cases hop : d.attempt sha256 op with
  | error e => exact Or.inl rfl
  | ok d' =>
      cases op with
      | completeRun role hashes now => exact completeRun_ends hop
      | failRun role code summary now => exact failRun_ends hop hfinds
      | recordFailure role code summary now => exact recordFailure_ends hop hfinds
      | phase3 role inputs o now crash => exact phase3_ends hop

/-- At most one event so far, and none while the run is under way. -/
def OneEnd (d : RunRecords) : Prop := d.terminalEvents ≤ 1 ∧ (¬ d.Terminal → d.terminalEvents = 0)

theorem OneEnd.step {op : RunOperation} (hone : d.OneEnd) (hfinds : d.FindsNoFailure op) :
    (d.step sha256 op).OneEnd := by
  have hends : d.Ends (d.step sha256 op) := step_ends hfinds
  rcases hends with hsame | ⟨hbefore, hafter, hevents⟩
  · rw [hsame]
    exact hone
  · rw [hone.2 hbefore] at hevents
    exact ⟨hevents, fun hnot => absurd hafter hnot⟩

theorem keepsDiagnostics_step {op : RunOperation} (hfinds : d.FindsNoFailure op) :
    d.KeepsDiagnostics (d.step sha256 op) := by
  intro hterminal
  have hends : d.Ends (d.step sha256 op) := step_ends hfinds
  rcases hends with hsame | ⟨hbefore, _⟩
  · rw [hsame]
    exact ⟨rfl, rfl⟩
  · exact absurd hterminal hbefore

theorem KeepsDiagnostics.refl (d : RunRecords) : d.KeepsDiagnostics d := fun _ => ⟨rfl, rfl⟩

theorem KeepsDiagnostics.trans (d d' d'' : RunRecords) (h : d.KeepsDiagnostics d') (h' : d'.KeepsDiagnostics d'') :
    d.KeepsDiagnostics d'' := by
  intro hterminal
  obtain ⟨hrow, hhashes⟩ := h hterminal
  have hterminal' : d'.Terminal := by
    unfold Terminal Unspared
    rw [hrow]
    exact hterminal
  obtain ⟨hrow', hhashes'⟩ := h' hterminal'
  exact ⟨hrow'.trans hrow, hhashes'.trans hhashes⟩

/-- **A terminal run keeps its diagnostics**, and at most one event says how it ended, in every run of operations in
    which no failure is stored over another one. -/
theorem diagnostics_kept (sha256 : String → String) (d : RunRecords) (ops : List RunOperation)
    (hnew : d.terminalEvents = 0) (hmeets : Meets (step sha256) FindsNoFailure d ops) :
    Throughout (step sha256) KeepsDiagnostics d ops ∧ (run (step sha256) d ops).terminalEvents ≤ 1 := by
  constructor
  · apply (throughout_iff_meets (step sha256) KeepsDiagnostics.refl KeepsDiagnostics.trans d ops).mpr
    clear hnew
    induction ops generalizing d with
    | nil => trivial
    | cons op ops ih => exact ⟨keepsDiagnostics_step hmeets.1, ih _ hmeets.2⟩
  · have hone : d.OneEnd := ⟨by rw [hnew]; exact Nat.zero_le 1, fun _ => hnew⟩
    exact (run_invariant (step sha256) (fun _ _ => OneEnd.step) hone hmeets).1

/-- A failure, and a completion that comes too late. -/
theorem diagnostics_kept_failed :
    Throughout (step id) KeepsDiagnostics (created 0)
        [.recordFailure .operator "RECONCILIATION_FAILED" "engine" 1, .completeRun .operator {} 2] ∧
      (run (step id) (created 0)
        [.recordFailure .operator "RECONCILIATION_FAILED" "engine" 1, .completeRun .operator {} 2]).terminalEvents ≤ 1 :=
  diagnostics_kept id (created 0) _ rfl ⟨fun hunspared => absurd hunspared (by unfold Unspared; decide), trivial, trivial⟩

/-- A failure that is recorded twice: the second recording replaces the first one and appends another event. -/
theorem recordedTwice_overwrites :
    let ops : List RunOperation :=
      [.recordFailure .operator "RECONCILIATION_FAILED" "engine" 1,
        .recordFailure .operator "PERSISTENCE_FAILURE" "database" 2]
    ¬ Throughout (step id) KeepsDiagnostics (created 0) ops ∧
      ¬ (run (step id) (created 0) ops).terminalEvents ≤ 1 := by
  intro ops
  constructor
  · intro hkeeps
    have hsame := (hkeeps [ops[0]] [ops[1]] [] rfl (Or.inr (Or.inl (by decide)))).1
    have hcode : (run (step id) (created 0) ops).row.val.errorCode = some "RECONCILIATION_FAILED" := by
      rw [show run (step id) (created 0) ops = run (step id) (created 0) ([ops[0]] ++ [ops[1]]) from rfl, hsame]
      decide
    revert hcode
    decide
  · decide

end RunRecords

/-! ## The whole call -/

section Call

variable {sha256 : String → String} {role : Role} {inputs : RunRecords.Inputs} {clocks : Clocks}
  {engine : Except String RunRecords.EngineOutput} {crash crash' : Nat → Option String} {runId : Nat}
  {runs : Dict Nat RunRecords}

/-- The code that a failure after phase 1 is recorded with. -/
def failureCode : Except String RunRecords.EngineOutput → String
  | .error _ => "RECONCILIATION_FAILED"
  | .ok _ => "PERSISTENCE_FAILURE"

theorem truncated_failureCode : RunRecords.truncated (failureCode engine) 64 = failureCode engine := by
  cases engine with
  | error message =>
      show RunRecords.truncated "RECONCILIATION_FAILED" 64 = "RECONCILIATION_FAILED"
      decide
  | ok o =>
      show RunRecords.truncated "PERSISTENCE_FAILURE" 64 = "PERSISTENCE_FAILURE"
      decide

/-- A call that raised after phase 1 leaves its run failed, and the other runs as they were. -/
structure LeavesFailed (code : String) (runId : Nat) (runs : Dict Nat RunRecords) (x : Execution) : Prop where
  raised : x.raised ≠ none
  failed : ∃ d, x.runs.get? runId = some d ∧ d.Failed code
  others : ∀ other, other ≠ runId → x.runs.get? other = runs.get? other

/-- A call that returned leaves its run completed, and the other runs as they were. -/
structure LeavesCompleted (sha256 : String → String) (o : RunRecords.EngineOutput) (runId : Nat)
    (runs : Dict Nat RunRecords) (x : Execution) : Prop where
  returned : x.raised = none
  completed : ∃ d, x.runs.get? runId = some d ∧ d.Completed sha256 o
  others : ∀ other, other ≠ runId → x.runs.get? other = runs.get? other

theorem get?_insert_ne {d : RunRecords} {other : Nat} (h : other ≠ runId) :
    (runs.insert runId d).get? other = runs.get? other := by
  rw [Dict.get?_insert, if_neg h]

theorem get?_insert_self {d : RunRecords} : (runs.insert runId d).get? runId = some d := by
  rw [Dict.get?_insert, if_pos rfl]

/-- A failure of a run that phase 1 has created, recorded. -/
theorem recordAndRaise_leaves {d : RunRecords} (hstarted : d.Started) {code summary : String}
    (hcode : RunRecords.truncated code 64 = code) {now : Instant} {e : ServiceError}
    (hrecorded : (recordAndRaise role code summary now runId e (runs.insert runId d)).recordingFailed = false) :
    LeavesFailed code runId runs (recordAndRaise role code summary now runId e (runs.insert runId d)) := by
  cases hrecord : d.recordFailure role code summary now with
  | error e' =>
      simp only [recordAndRaise, get?_insert_self, hrecord] at hrecorded
      cases hrecorded
  | ok d' =>
      have hx : recordAndRaise role code summary now runId e (runs.insert runId d) =
          ⟨some e, false, (runs.insert runId d).insert runId d'⟩ := by
        simp only [recordAndRaise, get?_insert_self, hrecord]
      rw [hx]
      refine ⟨Option.some_ne_none e, ⟨d', get?_insert_self, hstarted.recorded hcode hrecord⟩, fun other hother => ?_⟩
      show ((runs.insert runId d).insert runId d').get? other = runs.get? other
      rw [get?_insert_ne hother, get?_insert_ne hother]

/-- Phases 2 and 3 on a run that phase 1 has created. -/
theorem finish_leaves {d : RunRecords} (hstarted : d.Started)
    (hrecorded : (finish sha256 role inputs clocks engine crash runId (runs.insert runId d)).recordingFailed = false) :
    (∃ o, engine = .ok o ∧
        LeavesCompleted sha256 o runId runs (finish sha256 role inputs clocks engine crash runId (runs.insert runId d))) ∨
      LeavesFailed (failureCode engine) runId runs
        (finish sha256 role inputs clocks engine crash runId (runs.insert runId d)) := by
  cases engine with
  | error message => exact Or.inr (recordAndRaise_leaves hstarted truncated_failureCode hrecorded)
  | ok o =>
      simp only [finish, get?_insert_self] at hrecorded ⊢
      cases hphase : d.phase3 sha256 role inputs.hashes o clocks.completed crash with
      | ok d' =>
          refine Or.inl ⟨o, rfl, rfl, ⟨d', get?_insert_self, hstarted.completed hphase⟩, fun other hother => ?_⟩
          show ((runs.insert runId d).insert runId d').get? other = runs.get? other
          rw [get?_insert_ne hother, get?_insert_ne hother]
      | error e =>
          simp only [hphase] at hrecorded
          apply Or.inr
          cases e with
          | invalidRunState => exact absurd hphase hstarted.phase3_ne
          | permission => exact recordAndRaise_leaves hstarted truncated_failureCode hrecorded
          | resultIntegrity => exact recordAndRaise_leaves hstarted truncated_failureCode hrecorded
          | unsupportedEvent => exact recordAndRaise_leaves hstarted truncated_failureCode hrecorded
          | integrity refusal => exact recordAndRaise_leaves hstarted truncated_failureCode hrecorded
          | violation violation => exact recordAndRaise_leaves hstarted truncated_failureCode hrecorded
          | exception message => exact recordAndRaise_leaves hstarted truncated_failureCode hrecorded

end Call

/-- **A call of `execute_reconciliation` is atomic**, wherever phase 1, the engine, or phase 3 raises, if the failure is
    recorded: it returns and leaves the run completed with all its records, or it raises and leaves no run, where
    phase 1 raised, or the run failed without any of them. -/
theorem execute_atomic (sha256 : String → String) (role : Role) (inputs : RunRecords.Inputs) (clocks : Clocks)
    (engine : Except String RunRecords.EngineOutput) (crash1 crash3 : Nat → Option String) (runId : Nat)
    (runs : Dict Nat RunRecords) (hfresh : runs.get? runId = none)
    (hrecorded :
      (executeReconciliation sha256 role inputs clocks engine crash1 crash3 runId runs).recordingFailed = false) :
    let x := executeReconciliation sha256 role inputs clocks engine crash1 crash3 runId runs
    (∃ o, engine = .ok o ∧ LeavesCompleted sha256 o runId runs x) ∨
      LeavesFailed (failureCode engine) runId runs x ∨
      (∃ e, RunRecords.phase1 role inputs clocks.started crash1 = .error e ∧ x.raised = some e ∧
        x.runs.get? runId = none ∧ x.runs = runs) := by
  intro x
  cases hphase : RunRecords.phase1 role inputs clocks.started crash1 with
  | error e =>
      have hx : x = ⟨some e, false, runs⟩ := by
        show executeReconciliation sha256 role inputs clocks engine crash1 crash3 runId runs = _
        unfold executeReconciliation
        rw [hphase]
      rw [hx]
      exact Or.inr (Or.inr ⟨e, rfl, rfl, hfresh, rfl⟩)
  | ok d =>
      have hx : x = finish sha256 role inputs clocks engine crash3 runId (runs.insert runId d) := by
        show executeReconciliation sha256 role inputs clocks engine crash1 crash3 runId runs = _
        unfold executeReconciliation
        rw [hphase]
      have hrecorded : x.recordingFailed = false := hrecorded
      rw [hx] at hrecorded ⊢
      have hstarted := RunRecords.started_of_phase1 hphase
      exact (finish_leaves hstarted hrecorded).imp_right Or.inl

/-- Phase 3 loses its connection at the commit. -/
theorem execute_atomic_commitLost :
    let o : RunRecords.EngineOutput :=
      { totals := .null, presentation := .null, canonicalText := "\x7b\x7d", auditRoot := .null,
        reportSha256 := "\x7b\x7d", investigations := [], certificate := .null, contentSha256 := "c",
        signed := false, signature := none, publicKeyPem := none, tallyXml := "", evidencePackId := none,
        evidencePackVersion := none }
    let file : UploadedFileMetadata := ⟨"", "upload.csv", "", 0, "h"⟩
    LeavesFailed "PERSISTENCE_FAILURE" 7 Dict.empty
      (executeReconciliation id .operator ⟨file, file, file⟩ ⟨0, 5, 6⟩ (.ok o) (fun _ => none)
        (fun i => if i = 8 then some "connection lost" else none) 7 Dict.empty) := by
  intro o file
  have hatomic := execute_atomic id .operator ⟨file, file, file⟩ ⟨0, 5, 6⟩ (.ok o) (fun _ => none)
    (fun i => if i = 8 then some "connection lost" else none) 7 Dict.empty rfl (by decide)
  rcases hatomic with ⟨_, _, hcompleted⟩ | hfailed | ⟨_, hphase, _⟩
  · exact absurd hcompleted.returned (by decide)
  · exact hfailed
  · cases hphase

end Untangle
