import Untangle.Correctness.Idempotency
import Untangle.Persistence.Submitting

/-!
# `Correctness.Submitting` — a key stands for one job

`SubmitEffect` lists what a step of a call can do to the tables, to the storage and to the call (`perform_effect`). A
call that has inserted the record of a key holds the lock of the key, so the record that is committed under the key
stays as it is until the call has ended; and the objects of two calls have different keys. From these, two jobs with
one idempotency key are created further apart than the time that a record is valid, every answer is the one of a job
with the same request, a call that is refused leaves no job, and the inputs of every job are in storage
(`idempotent_submission`). If no call crashes and the deletions succeed, nothing else is (`no_orphans`).
-/

namespace Untangle

open Lib

/-! ## The keys of uploads -/

section Keys

variable {sha : Sha256} {orgPublicId : String}

theorem append_left_of_length {token token' rest rest' : List Char} (hlength : token.length = token'.length)
    (h : token ++ rest = token' ++ rest') : token = token' := (List.append_inj h hlength).1

/-- **Two calls with different tokens upload to different keys.** -/
theorem uploadToken_eq_of_key {c d : SubmitCall} {role role' filename filename' : String} {bytes bytes' : Bytes}
    (h : (c.stagedFile sha orgPublicId role filename bytes).1 = (d.stagedFile sha orgPublicId role' filename' bytes').1) :
    c.uploadToken = d.uploadToken := by
  unfold SubmitCall.stagedFile generateInputObjectKey at h
  have h := congrArg String.toList h
  simp only [String.toList_append, List.append_assoc, List.append_cancel_left_eq] at h
  exact Subtype.ext (String.toList_inj.mp (append_left_of_length (c.uploadToken.2.trans d.uploadToken.2.symm) h))

theorem uploadToken_eq_of_staged {c d : SubmitCall} {f g : String × Bytes} (hf : f ∈ c.staged sha orgPublicId)
    (hg : g ∈ d.staged sha orgPublicId) (h : f.1 = g.1) : c.uploadToken = d.uploadToken := by
  simp only [SubmitCall.staged, List.mem_cons, List.not_mem_nil, or_false] at hf hg
  rcases hf with rfl | rfl | rfl <;> rcases hg with rfl | rfl | rfl <;> exact uploadToken_eq_of_key h

/-- Files of different roles have different keys. -/
theorem stagedFile_ne (c : SubmitCall) {role role' : String} {x x' : Char} {rest rest' : List Char}
    (hrole : role.toList = x :: rest) (hrole' : role'.toList = x' :: rest') (hne : x ≠ x') (filename filename' : String)
    (bytes bytes' : Bytes) :
    (c.stagedFile sha orgPublicId role filename bytes).1 ≠ (c.stagedFile sha orgPublicId role' filename' bytes').1 := by
  intro h
  unfold SubmitCall.stagedFile generateInputObjectKey at h
  have h := congrArg String.toList h
  simp only [String.toList_append, hrole, hrole', List.append_assoc, List.cons_append, List.append_cancel_left_eq,
    List.cons.injEq] at h
  exact hne h.1

theorem nodup_stagedKeys (c : SubmitCall) : (c.stagedKeys sha orgPublicId).Nodup := by
  have hbank : "bank_statement".toList = 'b' :: "ank_statement".toList := by decide
  have hrecon : "recon_report".toList = 'r' :: "econ_report".toList := by decide
  have hledger : "order_ledger".toList = 'o' :: "rder_ledger".toList := by decide
  simp only [SubmitCall.stagedKeys, SubmitCall.staged, List.map_cons, List.map_nil, List.nodup_cons, List.mem_cons,
    List.not_mem_nil, or_false, not_or, not_false_eq_true, List.nodup_nil, and_true]
  exact ⟨⟨stagedFile_ne c hbank hrecon (by decide) _ _ _ _, stagedFile_ne c hbank hledger (by decide) _ _ _ _⟩,
    stagedFile_ne c hrecon hledger (by decide) _ _ _ _⟩

theorem staged_eq_of_key {c : SubmitCall} {f g : String × Bytes} (hf : f ∈ c.staged sha orgPublicId)
    (hg : g ∈ c.staged sha orgPublicId) (h : f.1 = g.1) : f = g :=
  List.inj_on_of_nodup_map (nodup_stagedKeys c) hf hg h

end Keys

/-! ## What a step can do -/

/-- A call that can still be given up, and has not committed anything. -/
def CallPhase.isOpen : CallPhase → Bool
  | .uploading _ | .creating | .created _ | .looked .. | .inserted .. | .conflicted | .undoing _ (.ok _) => true
  | .begun | .undoing _ (.error _) | .finished _ | .crashed => false

section Effects

variable (sha : Sha256) (orgPublicId : String) (s : SubmitService) (index : Nat) (c : SubmitState)

/-- An outcome that the records bear out: a replay is the response recorded for the same request, and a collision is
    with another request. -/
def FromRecords : CallOutcome → Prop
  | .ok (response, status, replay) => replay = true ∧ ∃ key row, c.call.key? = some key ∧
      s.records.get? key = some row ∧ row.requestHash = c.call.request.requestHash sha ∧ row.responseJson = response ∧
      row.responseStatusCode = status
  | .error (.submission (.collision _)) => ∃ key row, c.call.key? = some key ∧ s.records.get? key = some row ∧
      row.requestHash ≠ c.call.request.requestHash sha
  | .error _ => True

/-- The phases that a call can go on to without touching anything else. -/
inductive Goes : CallPhase → Prop
  | answers {outcome : CallOutcome} (hbegun : c.phase = .begun) (hrecords : FromRecords sha s c outcome) :
      Goes (.finished outcome)
  | starts (hbegun : c.phase = .begun) : Goes (.uploading 0)
  | creates (huploaded : c.phase = .uploading (c.call.staged sha orgPublicId).length) : Goes .creating
  | inserts {createdAt : String} (hcreating : c.phase = .creating) : Goes (.created (c.call.response createdAt))
  | looks {response : Json} {key : String} {now : Instant} (hcreated : c.phase = .created response)
      (hkey : c.call.key? = some key) :
      Goes (.looked response now
        (((s.records.get? key).filter fun row => row.expiresAt < now).map IdempotencyRow.jobId))
  | skips {response : Json} (hcreated : c.phase = .created response) (hkey : c.call.key? = none) :
      Goes (.inserted response none)
  | records {response : Json} {key : String} {now : Instant} {expired : Option Nat}
      (hlooked : c.phase = .looked response now expired) (hkey : c.call.key? = some key)
      (hfree : busy SubmitState.lockedKeys s.calls index key = false)
      (hold : (s.records.get? key).all (fun row => expired = some row.jobId) = true) :
      Goes (.inserted response (some (c.call.row sha key index response now)))
  | conflicts {response : Json} {now : Instant} {expired : Option Nat}
      (hlooked : c.phase = .looked response now expired) : Goes .conflicted
  | undoes {keys : List String} {outcome : CallOutcome} (hopen : c.phase.isOpen = true)
      (hkeys : ∀ key, key ∈ keys ↔ key ∈ c.call.stagedKeys sha orgPublicId) (hrecords : FromRecords sha s c outcome) :
      Goes (.undoing keys outcome)
  | ends {outcome : CallOutcome} (hundone : c.phase = .undoing [] outcome) : Goes (.finished outcome)

/-- What a step of a call can come to. -/
inductive SubmitEffect : CallStep → SubmitService → Prop
  | idle {step : CallStep} : SubmitEffect step s
  | goes {step : CallStep} {phase : CallPhase} (hgoes : Goes sha orgPublicId s index c phase) :
      SubmitEffect step (s.goTo index c phase)
  | crashes (hrunning : ∀ outcome, c.phase ≠ .finished outcome) : SubmitEffect .crash (s.goTo index c .crashed)
  | stores {step : CallStep} {stored : Nat} {file : String × Bytes} {rest : List (String × Bytes)} {phase : CallPhase}
      (huploading : c.phase = .uploading stored) (hnext : (c.call.staged sha orgPublicId).drop stored = file :: rest)
      (hphase : phase = .uploading (stored + 1) ∨
        phase = .undoing (c.call.stagedKeys sha orgPublicId) (.error .exception)) :
      SubmitEffect step (({ s with storage := s.storage.write file.1 file.2 } : SubmitService).goTo index c phase)
  | commits {step : CallStep} {response : Json} {row : Option IdempotencyRow}
      (hinserted : c.phase = .inserted response row) : SubmitEffect step (s.commit index c response row)
  | deletes {succeeds : Bool} {key : String} {keys : List String} {outcome : CallOutcome}
      (hundoing : c.phase = .undoing (key :: keys) outcome) :
      SubmitEffect (.delete succeeds)
        (({ s with storage := if succeeds then s.storage.unlink key else s.storage } : SubmitService).goTo index c
          (.undoing keys outcome))

/-- A row that is found in a transaction bears out what is made of the call. -/
theorem fromRecords_replayed {key : String} {row : IdempotencyRow} (hkey : c.call.key? = some key)
    (hrow : s.records.get? key = some row) : FromRecords sha s c (SubmitService.replayed sha c.call row) := by
  unfold SubmitService.replayed
  split
  · rename_i hhash
    exact ⟨key, row, hkey, hrow, hhash⟩
  · rename_i hhash
    exact ⟨rfl, key, row, hkey, hrow, Decidable.of_not_not hhash, rfl, rfl⟩

theorem unexpired_eq_some {now : Instant} {found : Option IdempotencyRow} {row : IdempotencyRow} :
    unexpired now found = some row ↔ found = some row ∧ now ≤ row.expiresAt := by
  unfold unexpired
  rw [Option.filter_eq_some_iff, decide_eq_true_eq]

/-- So does the record of its key what the first check makes of it. -/
theorem fromRecords_submissionAnswer {existing : Option IdempotencyRecord}
    (hexisting : ∀ record, existing = some record → ∃ key row, c.call.key? = some key ∧
      s.records.get? key = some row ∧ row.toIdempotencyRecord = record) :
    (∀ error, submissionAnswer sha existing c.call.request = .error error →
        FromRecords sha s c (.error (.submission error))) ∧
      ∀ response status, submissionAnswer sha existing c.call.request = .ok (some (response, status)) →
        FromRecords sha s c (.ok (response, status, true)) := by
  unfold submissionAnswer
  by_cases hordered : c.call.request.Ordered
  · rw [if_neg (not_not.mpr hordered)]
    cases existing with
    | none => exact ⟨nofun, nofun⟩
    | some record =>
        obtain ⟨key, row, hkey, hrow, rfl⟩ := hexisting record rfl
        dsimp only
        split
        · rename_i hhash
          refine ⟨fun error h => ?_, nofun⟩
          obtain rfl := Except.error.inj h
          exact ⟨key, row, hkey, hrow, hhash⟩
        · rename_i hhash
          refine ⟨nofun, fun response status h => ?_⟩
          obtain ⟨rfl, rfl⟩ := Prod.mk.inj (Option.some.inj (Except.ok.inj h))
          exact ⟨rfl, key, row, hkey, hrow, Decidable.of_not_not hhash, rfl, rfl⟩
  · rw [if_pos hordered]
    refine ⟨fun error h => ?_, nofun⟩
    obtain rfl := Except.error.inj h
    trivial

theorem fromRecords_firstCheck (now : Instant) :
    (∀ error, SubmitService.firstCheck sha s c.call now = .error error →
        FromRecords sha s c (.error (.submission error))) ∧
      ∀ response status, SubmitService.firstCheck sha s c.call now = .ok (some (response, status)) →
        FromRecords sha s c (.ok (response, status, true)) := by
  unfold SubmitService.firstCheck
  cases hkey : c.call.key? with
  | none => exact fromRecords_submissionAnswer sha s c (by rintro _ ⟨⟩)
  | some key =>
      dsimp only
      split
      · refine ⟨fun error h => ?_, by rintro _ _ ⟨⟩⟩
        obtain rfl := Except.error.inj h
        trivial
      · refine fromRecords_submissionAnswer sha s c ?_
        intro record hrecord
        obtain ⟨row, hrow, rfl⟩ := Option.map_eq_some_iff.mp hrecord
        exact ⟨key, row, hkey, (unexpired_eq_some.mp hrow).1, rfl⟩

/-- **A step of a call does what is listed.** -/
theorem submit_effect (step : CallStep) :
    SubmitEffect sha orgPublicId s index c step (s.perform sha orgPublicId index c step) := by
  have hsame : ∀ key, key ∈ c.call.stagedKeys sha orgPublicId ↔ key ∈ c.call.stagedKeys sha orgPublicId :=
    fun _ => Iff.rfl
  cases step with
  | check now =>
      rw [SubmitService.perform]
      split
      · rename_i hbegun
        unfold SubmitService.check
        split
        · rename_i error h
          exact .goes (.answers hbegun ((fromRecords_firstCheck sha s c now).1 error h))
        · rename_i response status h
          exact .goes (.answers hbegun ((fromRecords_firstCheck sha s c now).2 response status h))
        · exact .goes (.starts hbegun)
      · exact .idle
  | store succeeds =>
      rw [SubmitService.perform]
      split
      · rename_i stored huploading
        unfold SubmitService.store
        split
        · exact .idle
        · rename_i key bytes rest hnext
          cases succeeds with
          | true => exact .stores huploading hnext (Or.inl rfl)
          | false => exact .stores huploading hnext (Or.inr rfl)
      · exact .idle
  | recheck now =>
      rw [SubmitService.perform]
      split
      · rename_i stored huploading
        split
        · rename_i hall
          unfold SubmitService.recheck
          split
          · rename_i row hrow
            obtain ⟨key, hkey, hrow⟩ := Option.bind_eq_some_iff.mp hrow
            exact .goes (.undoes (by rw [huploading]; rfl) hsame
              (fromRecords_replayed sha s c hkey (unexpired_eq_some.mp hrow).1))
          · exact .goes (.creates (hall ▸ huploading))
        · exact .idle
      · exact .idle
  | create createdAt =>
      rw [SubmitService.perform]
      split
      · rename_i hcreating
        exact .goes (.inserts hcreating)
      · exact .idle
  | look now =>
      rw [SubmitService.perform]
      split
      · rename_i response hcreated
        unfold SubmitService.look
        split
        · rename_i hkey
          exact .goes (.skips hcreated hkey)
        · rename_i key hkey
          exact .goes (.looks hcreated hkey)
      · exact .idle
  | insert =>
      rw [SubmitService.perform]
      split
      · rename_i response now expired hlooked
        unfold SubmitService.insert
        split
        · exact .idle
        · rename_i key hkey
          split
          · exact .idle
          · rename_i hfree
            split
            · rename_i hold
              exact .goes (.records hlooked hkey (Bool.eq_false_iff.mpr hfree) hold)
            · exact .goes (.conflicts hlooked)
      · exact .idle
  | readWinner =>
      rw [SubmitService.perform]
      split
      · rename_i hconflicted
        have hopen : c.phase.isOpen = true := by rw [hconflicted]; rfl
        unfold SubmitService.readWinner
        split
        · exact .goes (.undoes hopen hsame trivial)
        · rename_i row hrow
          obtain ⟨key, hkey, hrow⟩ := Option.bind_eq_some_iff.mp hrow
          have hrecords := fromRecords_replayed sha s c hkey hrow
          split
          · rename_i error h
            rw [h] at hrecords
            exact .goes (.undoes hopen hsame hrecords)
          · rename_i response h
            rw [h] at hrecords
            exact .goes (.undoes hopen (fun key => by rw [List.mem_append, or_self]) hrecords)
      · exact .idle
  | commit =>
      rw [SubmitService.perform]
      split
      · rename_i response row hinserted
        exact .commits hinserted
      · exact .idle
  | delete succeeds =>
      rw [SubmitService.perform]
      split
      · rename_i keys outcome hundoing
        cases keys with
        | nil => exact .goes (.ends hundoing)
        | cons key keys => exact .deletes hundoing
      · exact .idle
  | fail =>
      rw [SubmitService.perform]
      unfold SubmitService.fail
      split
      · rename_i hbegun
        exact .goes (.answers hbegun trivial)
      · exact .idle
      · exact .idle
      · exact .idle
      · rename_i hbegun hundoing hfinished hcrashed
        refine .goes (.undoes ?_ hsame trivial)
        cases hphase : c.phase with
        | begun => exact absurd hphase hbegun
        | finished outcome => exact absurd hphase (hfinished outcome)
        | crashed => exact absurd hphase hcrashed
        | undoing keys outcome =>
            cases outcome with
            | error error => exact absurd hphase (hundoing keys error)
            | ok response => rfl
        | _ => rfl
  | crash =>
      rw [SubmitService.perform]
      split
      · exact .idle
      · rename_i hrunning
        exact .crashes hrunning

end Effects

/-! ## The invariant -/

/-- How many of the files of a call are stored. -/
def CallPhase.stored (files : Nat) : CallPhase → Nat
  | .uploading stored => stored
  | .creating | .created _ | .looked .. | .inserted .. | .conflicted => files
  | .begun | .undoing .. | .finished _ | .crashed => 0

/-- The outcome of a call that is over, or will be once the deletions are done. -/
def CallPhase.outcome? : CallPhase → Option CallOutcome
  | .undoing _ outcome | .finished outcome => some outcome
  | _ => none

section Invariant

variable (sha : Sha256) (orgPublicId : String)

/-- An outcome that the jobs bear out. -/
def Justified (jobs : List SubmittedJob) (index : Nat) (c : SubmitCall) : CallOutcome → Prop
  | .ok (response, status, replay) => ∃ job ∈ jobs, job.call.key? = c.key? ∧
      job.call.request.requestHash sha = c.request.requestHash sha ∧ job.response = response ∧ status = 202 ∧
      (replay = false → job.index = index)
  | .error (.submission (.collision _)) => ∃ job ∈ jobs, job.call.key? = c.key? ∧
      job.call.request.requestHash sha ≠ c.request.requestHash sha
  | .error _ => True

/-- What is known of a call. -/
structure CallKept (s : SubmitService) (index : Nat) (c : SubmitState) : Prop where
  files : ∀ f ∈ (c.call.staged sha orgPublicId).take (c.phase.stored (c.call.staged sha orgPublicId).length),
    Dict.get? s.storage f.1 = some f.2
  committed : ∀ job ∈ s.jobs, job.index = index →
    job.call = c.call ∧ c.phase = .finished (.ok (job.response, 202, false))
  outcome : ∀ outcome, c.phase.outcome? = some outcome → Justified sha s.jobs index c.call outcome
  undoing : ∀ keys outcome, c.phase = .undoing keys outcome → ∀ key ∈ keys, key ∈ c.call.stagedKeys sha orgPublicId
  looked : ∀ response now expired, c.phase = .looked response now (some expired) → ∃ job ∈ s.jobs, ∃ old,
    job.index = expired ∧ job.record = some old ∧ old.expiresAt < now
  inserted : ∀ response row, c.phase = .inserted response row →
    match row with
    | none => c.call.key? = none
    | some row => ∃ key now, c.call.key? = some key ∧ row = c.call.row sha key index response now ∧
        ∀ old, s.records.get? key = some old → old.expiresAt < now

/-- The record of a job is the one that its call has made. -/
def SubmittedJob.Recorded (job : SubmittedJob) : Prop :=
  match job.record with
  | none => job.call.key? = none
  | some row => ∃ key now, job.call.key? = some key ∧ row = job.call.row sha key job.index job.response now

/-- The record of the later job begins after that of the earlier has expired. -/
def SubmittedJob.Apart (a b : SubmittedJob) : Prop :=
  ∀ row row', a.record = some row → b.record = some row' → row.idempotencyKey = row'.idempotencyKey →
    row.expiresAt < row'.createdAt

/-- What is known of the tables and the storage. -/
structure TablesKept (s : SubmitService) : Prop where
  jobs : ∀ job ∈ s.jobs, job.Recorded sha ∧ job.index < s.calls.length
  indices : (s.jobs.map SubmittedJob.index).Nodup
  apart : s.jobs.Pairwise SubmittedJob.Apart
  recorded : ∀ key row, s.records.get? key = some row → row.idempotencyKey = key ∧ ∃ job ∈ s.jobs, job.record = some row
  current : ∀ job ∈ s.jobs, ∀ row, job.record = some row → ∃ latest, s.records.get? row.idempotencyKey = some latest ∧
    (row = latest ∨ row.expiresAt < latest.createdAt)
  inputs : ∀ job ∈ s.jobs, ∀ f ∈ job.call.staged sha orgPublicId, Dict.get? s.storage f.1 = some f.2

/-- What is known of a state. -/
structure ServiceKept (s : SubmitService) : Prop where
  calls : ∀ (i : Nat) (c : SubmitState), s.calls[i]? = some c → CallKept sha orgPublicId s i c
  tokens : ∀ (i : Nat) (c : SubmitState), s.calls[i]? = some c → ∀ (j : Nat) (d : SubmitState), s.calls[j]? = some d →
    c.call.uploadToken = d.call.uploadToken → i = j
  locks : Exclusive SubmitState.lockedKeys s.calls
  tables : TablesKept sha orgPublicId s

variable {sha orgPublicId}

theorem justified_mono {jobs jobs' : List SubmittedJob} {index : Nat} {c : SubmitCall} {outcome : CallOutcome}
    (h : Justified sha jobs index c outcome) (hjobs : ∀ job ∈ jobs, job ∈ jobs') :
    Justified sha jobs' index c outcome := by
  unfold Justified at h ⊢
  split at h
  · obtain ⟨job, hjob, h⟩ := h
    exact ⟨job, hjobs job hjob, h⟩
  · obtain ⟨job, hjob, h⟩ := h
    exact ⟨job, hjobs job hjob, h⟩
  · rename_i error hne
    cases error with
    | exception => trivial
    | submission error =>
        cases error with
        | value message => trivial
        | collision message => exact absurd rfl (hne message)

/-- The record of a job names its key, its request and its response. -/
theorem SubmittedJob.Recorded.row {job : SubmittedJob} (h : job.Recorded sha) {row : IdempotencyRow}
    (hrow : job.record = some row) : job.call.key? = some row.idempotencyKey ∧ row.jobId = job.index ∧
      row.requestHash = job.call.request.requestHash sha ∧ row.responseJson = job.response ∧
      row.responseStatusCode = 202 ∧ row.createdAt < row.expiresAt := by
  unfold SubmittedJob.Recorded at h
  rw [hrow] at h
  obtain ⟨key, now, hkey, rfl⟩ := h
  refine ⟨hkey, rfl, rfl, rfl, rfl, ?_⟩
  exact Int.lt_add_of_pos_right now (by decide)

variable {s : SubmitService}

/-- What the records bear out, the jobs do. -/
theorem TablesKept.justified (h : TablesKept sha orgPublicId s) {index : Nat} {c : SubmitState}
    {outcome : CallOutcome} (hrecords : FromRecords sha s c outcome) : Justified sha s.jobs index c.call outcome := by
  unfold FromRecords at hrecords
  split at hrecords
  · obtain ⟨rfl, key, row, hkey, hrow, hhash, rfl, rfl⟩ := hrecords
    obtain ⟨hname, job, hjob, hrecord⟩ := h.recorded key row hrow
    obtain ⟨hjobKey, _, hjobHash, hresponse, hstatus, _⟩ := (h.jobs job hjob).1.row hrecord
    exact ⟨job, hjob, by rw [hjobKey, hname, hkey], hjobHash.symm.trans hhash, hresponse.symm, hstatus, nofun⟩
  · obtain ⟨key, row, hkey, hrow, hhash⟩ := hrecords
    obtain ⟨hname, job, hjob, hrecord⟩ := h.recorded key row hrow
    obtain ⟨hjobKey, _, hjobHash, _⟩ := (h.jobs job hjob).1.row hrecord
    exact ⟨job, hjob, by rw [hjobKey, hname, hkey], fun heq => hhash (hjobHash.trans heq)⟩
  · rename_i error hne
    cases error with
    | exception => trivial
    | submission error =>
        cases error with
        | value message => trivial
        | collision message => exact absurd rfl (hne message)

/-- Jobs with one index are one job. -/
theorem TablesKept.eq_of_index (h : TablesKept sha orgPublicId s) {a b : SubmittedJob} (ha : a ∈ s.jobs)
    (hb : b ∈ s.jobs) (hindex : a.index = b.index) : a = b := List.inj_on_of_nodup_map h.indices ha hb hindex

/-- **What is known of a call stays so** while others take their steps: they add jobs of their own, leave the records of
    the keys that it has locked, and its files. -/
theorem CallKept.frame {s' : SubmitService} {index : Nat} {c : SubmitState} (h : CallKept sha orgPublicId s index c)
    (hjobs : ∀ job ∈ s.jobs, job ∈ s'.jobs) (hnew : ∀ job ∈ s'.jobs, job.index = index → job ∈ s.jobs)
    (hrecords : ∀ key ∈ c.lockedKeys, s'.records.get? key = s.records.get? key)
    (hstorage : ∀ f ∈ c.call.staged sha orgPublicId, Dict.get? s.storage f.1 = some f.2 →
      Dict.get? s'.storage f.1 = some f.2) : CallKept sha orgPublicId s' index c where
  files f hf := hstorage f (List.mem_of_mem_take hf) (h.files f hf)
  committed job hjob hindex := h.committed job (hnew job hjob hindex) hindex
  outcome outcome houtcome := justified_mono (h.outcome outcome houtcome) hjobs
  undoing := h.undoing
  looked response now expired hlooked := by
    obtain ⟨job, hjob, old, hold⟩ := h.looked response now expired hlooked
    exact ⟨job, hjobs job hjob, old, hold⟩
  inserted response row hinserted := by
    have hrow := h.inserted response row hinserted
    cases row with
    | none => exact hrow
    | some row =>
        obtain ⟨key, now, hkey, rfl, hexpired⟩ := hrow
        refine ⟨key, now, hkey, rfl, fun old hold => hexpired old ?_⟩
        rwa [hrecords key (by unfold SubmitState.lockedKeys; rw [hinserted]; exact List.mem_singleton_self _)] at hold

/-- An open call has committed nothing. -/
theorem CallKept.index_ne (h : CallKept sha orgPublicId s index c) (hphase : ∀ response, c.phase ≠ .finished response)
    {job : SubmittedJob} (hjob : job ∈ s.jobs) : job.index ≠ index :=
  fun hindex => hphase _ (h.committed job hjob hindex).2

/-! ## Steps -/

section Steps

variable {i : Nat} {c : SubmitState} {phase : CallPhase}

/-- The files of two calls have different keys. -/
theorem ServiceKept.key_ne (h : ServiceKept sha orgPublicId s) (hc : s.calls[i]? = some c) {j : Nat} {d : SubmitState}
    (hd : s.calls[j]? = some d) (hij : j ≠ i) {f g : String × Bytes} (hf : f ∈ d.call.staged sha orgPublicId)
    (hg : g ∈ c.call.staged sha orgPublicId) : f.1 ≠ g.1 :=
  fun hkey => hij (h.tokens j d hd i c hc (uploadToken_eq_of_staged hf hg hkey))

/-- A job's files have other keys than those of a call that has not committed it. -/
theorem ServiceKept.key_ne_of_job (h : ServiceKept sha orgPublicId s) (hc : s.calls[i]? = some c)
    (hrunning : ∀ outcome, c.phase ≠ .finished outcome) {job : SubmittedJob} (hjob : job ∈ s.jobs)
    {f g : String × Bytes} (hf : f ∈ job.call.staged sha orgPublicId) (hg : g ∈ c.call.staged sha orgPublicId) :
    f.1 ≠ g.1 := by
  obtain ⟨d, hd⟩ : ∃ d, s.calls[job.index]? = some d := ⟨_, List.getElem?_eq_getElem (h.tables.jobs job hjob).2⟩
  rw [((h.calls _ d hd).committed job hjob rfl).1] at hf
  exact h.key_ne hc hd ((h.calls i c hc).index_ne hrunning hjob) hf hg

/-- A step of a call, from what is known of the call and the tables afterwards. -/
theorem ServiceKept.set (h : ServiceKept sha orgPublicId s) (hc : s.calls[i]? = some c) {s' : SubmitService}
    (hcalls : s'.calls = s.calls.set i { c with phase := phase })
    (hself : CallKept sha orgPublicId s' i { c with phase := phase })
    (hothers : ∀ (j : Nat) (d : SubmitState), j ≠ i → s.calls[j]? = some d → CallKept sha orgPublicId s j d →
      CallKept sha orgPublicId s' j d)
    (hlocks : ∀ key ∈ SubmitState.lockedKeys { c with phase := phase },
      key ∈ c.lockedKeys ∨ busy SubmitState.lockedKeys s.calls i key = false)
    (htables : TablesKept sha orgPublicId s') : ServiceKept sha orgPublicId s' where
  calls := by
    rw [hcalls]
    exact forall_set h.calls hself hothers
  tokens := by
    have hcall : ∀ (j : Nat) (d : SubmitState), s'.calls[j]? = some d →
        ∃ d', s.calls[j]? = some d' ∧ d'.call = d.call := by
      rw [hcalls]
      intro j d hd
      by_cases hij : i = j
      · subst hij
        have hlt := (List.getElem?_eq_some_iff.mp hc).1
        rw [List.getElem?_set_self hlt] at hd
        obtain rfl := Option.some.inj hd
        exact ⟨c, hc, rfl⟩
      · rw [List.getElem?_set_ne hij] at hd
        exact ⟨d, hd, rfl⟩
    intro j d hd k e he htoken
    obtain ⟨d', hd', hcd⟩ := hcall j d hd
    obtain ⟨e', he', hce⟩ := hcall k e he
    exact h.tokens j d' hd' k e' he' (by rw [hcd, hce, htoken])
  locks := by
    rw [hcalls]
    exact h.locks.set hc hlocks
  tables := htables

/-- What is known of a call that goes on. -/
theorem CallKept.goTo (h : CallKept sha orgPublicId s i c) (hrunning : ∀ outcome, c.phase ≠ .finished outcome)
    (hfiles : phase.stored (c.call.staged sha orgPublicId).length ≤ c.phase.stored (c.call.staged sha orgPublicId).length)
    (houtcome : ∀ outcome, phase.outcome? = some outcome → Justified sha s.jobs i c.call outcome)
    (hundoing : ∀ keys outcome, phase = .undoing keys outcome → ∀ key ∈ keys, key ∈ c.call.stagedKeys sha orgPublicId)
    (hlooked : ∀ response now expired, phase = .looked response now (some expired) → ∃ job ∈ s.jobs, ∃ old,
      job.index = expired ∧ job.record = some old ∧ old.expiresAt < now)
    (hinserted : ∀ response row, phase = .inserted response row →
      match row with
      | none => c.call.key? = none
      | some row => ∃ key now, c.call.key? = some key ∧ row = c.call.row sha key i response now ∧
          ∀ old, s.records.get? key = some old → old.expiresAt < now) :
    CallKept sha orgPublicId (s.goTo i c phase) i { c with phase := phase } where
  files f hf := h.files f (List.take_subset_take_left _ hfiles hf)
  committed _ hjob hindex := absurd hindex (h.index_ne hrunning hjob)
  outcome := houtcome
  undoing := hundoing
  looked := hlooked
  inserted := hinserted

/-- What only touches the call leaves the tables. -/
theorem TablesKept.goTo (h : TablesKept sha orgPublicId s) : TablesKept sha orgPublicId (s.goTo i c phase) where
  jobs job hjob := ⟨(h.jobs job hjob).1, by
    show job.index < (s.calls.set i _).length
    rw [List.length_set]
    exact (h.jobs job hjob).2⟩
  indices := h.indices
  apart := h.apart
  recorded := h.recorded
  current := h.current
  inputs := h.inputs

/-- So does a change of the storage that leaves the files of the jobs. -/
theorem TablesKept.of_storage (h : TablesKept sha orgPublicId s) {storage : Files String Bytes}
    (hinputs : ∀ job ∈ s.jobs, ∀ f ∈ job.call.staged sha orgPublicId, Dict.get? storage f.1 = Dict.get? s.storage f.1) :
    TablesKept sha orgPublicId { s with storage := storage } where
  jobs := h.jobs
  indices := h.indices
  apart := h.apart
  recorded := h.recorded
  current := h.current
  inputs job hjob f hf := (hinputs job hjob f hf).trans (h.inputs job hjob f hf)

/-- The old row of the key, if there is one, has expired when the new one is inserted. -/
theorem ServiceKept.expired_of_insert (h : ServiceKept sha orgPublicId s) (hc : s.calls[i]? = some c) {response : Json}
    {key : String} {now : Instant} {expired : Option Nat} (hlooked : c.phase = .looked response now expired)
    (hold : (s.records.get? key).all (fun row => expired = some row.jobId) = true) {old : IdempotencyRow}
    (hrow : s.records.get? key = some old) : old.expiresAt < now := by
  rw [hrow, Option.all_some, decide_eq_true_eq] at hold
  subst hold
  obtain ⟨job, hjob, seen, hindex, hseen, hexpired⟩ := (h.calls i c hc).looked response now old.jobId hlooked
  obtain ⟨_, job', hjob', hrecord'⟩ := h.tables.recorded key old hrow
  obtain rfl : job' = job :=
    h.tables.eq_of_index hjob' hjob (((h.tables.jobs job' hjob').1.row hrecord').2.1.symm.trans hindex.symm)
  obtain rfl : seen = old := Option.some.inj (hseen.symm.trans hrecord')
  exact hexpired

theorem ServiceKept.goes (h : ServiceKept sha orgPublicId s) (hc : s.calls[i]? = some c)
    (hgoes : Goes sha orgPublicId s i c phase) : ServiceKept sha orgPublicId (s.goTo i c phase) := by
  have hkept := h.calls i c hc
  refine h.set hc rfl ?_ (fun j d _ _ hd => hd.frame (fun _ => id) (fun _ hjob _ => hjob) (fun _ _ => rfl)
    (fun _ _ => id)) ?_ h.tables.goTo
  · cases hgoes with
    | answers hbegun hrecords =>
        refine hkept.goTo (by rw [hbegun]; nofun) (Nat.zero_le _) (fun outcome houtcome => ?_) nofun nofun nofun
        obtain rfl := Option.some.inj houtcome
        exact h.tables.justified hrecords
    | starts hbegun => exact hkept.goTo (by rw [hbegun]; nofun) (Nat.zero_le _) nofun nofun nofun nofun
    | creates huploaded =>
        refine hkept.goTo (by rw [huploaded]; nofun) (Nat.le_of_eq ?_) nofun nofun nofun nofun
        rw [huploaded]
        rfl
    | inserts hcreating =>
        refine hkept.goTo (by rw [hcreating]; nofun) (Nat.le_of_eq ?_) nofun nofun nofun nofun
        rw [hcreating]
        rfl
    | @looks response key now hcreated hkey =>
        refine hkept.goTo (by rw [hcreated]; nofun) (Nat.le_of_eq ?_) nofun nofun ?_ nofun
        · rw [hcreated]
          rfl
        · intro response' now' expired hlooked
          injection hlooked with _ hnow hexpired
          subst hnow
          obtain ⟨old, hold, rfl⟩ := Option.map_eq_some_iff.mp hexpired
          obtain ⟨hrow, hbefore⟩ := Option.filter_eq_some_iff.mp hold
          obtain ⟨_, job, hjob, hrecord⟩ := h.tables.recorded key old hrow
          exact ⟨job, hjob, old, ((h.tables.jobs job hjob).1.row hrecord).2.1.symm, hrecord,
            of_decide_eq_true hbefore⟩
    | skips hcreated hkey =>
        refine hkept.goTo (by rw [hcreated]; nofun) (Nat.le_of_eq ?_) nofun nofun nofun ?_
        · rw [hcreated]
          rfl
        · intro response row hinserted
          injection hinserted with _ hrow
          subst hrow
          exact hkey
    | @records response key now expired hlooked hkey hfree hold =>
        refine hkept.goTo (by rw [hlooked]; nofun) (Nat.le_of_eq ?_) nofun nofun nofun ?_
        · rw [hlooked]
          rfl
        · intro response' row hinserted
          injection hinserted with hresponse hrow
          subst hresponse hrow
          exact ⟨key, now, hkey, rfl, fun old hrow => h.expired_of_insert hc hlooked hold hrow⟩
    | conflicts hlooked =>
        refine hkept.goTo (by rw [hlooked]; nofun) (Nat.le_of_eq ?_) nofun nofun nofun nofun
        rw [hlooked]
        rfl
    | undoes hopen hkeys hrecords =>
        refine hkept.goTo ?_ (Nat.zero_le _) (fun outcome houtcome => ?_) ?_ nofun nofun
        · intro outcome hfinished
          rw [hfinished] at hopen
          cases hopen
        · obtain rfl := Option.some.inj houtcome
          exact h.tables.justified hrecords
        · intro keys' outcome' hundoing key hkey
          injection hundoing with hkeys'
          subst hkeys'
          exact (hkeys key).mp hkey
    | ends hundone =>
        refine hkept.goTo (by rw [hundone]; nofun) (Nat.zero_le _) (fun outcome houtcome => ?_) nofun nofun nofun
        obtain rfl := Option.some.inj houtcome
        exact hkept.outcome _ (by rw [hundone]; rfl)
  · intro key hkey
    cases hgoes with
    | @records response key' now expired hlooked hcallKey hfree hold =>
        obtain rfl := List.mem_singleton.mp hkey
        exact Or.inr hfree
    | _ => exact absurd hkey List.not_mem_nil

theorem ServiceKept.crashes (h : ServiceKept sha orgPublicId s) (hc : s.calls[i]? = some c)
    (hrunning : ∀ outcome, c.phase ≠ .finished outcome) : ServiceKept sha orgPublicId (s.goTo i c .crashed) :=
  h.set hc rfl ((h.calls i c hc).goTo hrunning (Nat.zero_le _) nofun nofun nofun nofun)
    (fun _ _ _ _ hd => hd.frame (fun _ => id) (fun _ hjob _ => hjob) (fun _ _ => rfl) (fun _ _ => id))
    (fun _ hkey => absurd hkey List.not_mem_nil) h.tables.goTo

/-- A step that changes the object of a call's own file. -/
theorem ServiceKept.of_storage (h : ServiceKept sha orgPublicId s) (hc : s.calls[i]? = some c)
    (hrunning : ∀ outcome, c.phase ≠ .finished outcome) {storage : Files String Bytes} {file : String × Bytes}
    (hfile : file ∈ c.call.staged sha orgPublicId)
    (hstorage : ∀ key, key ≠ file.1 → Dict.get? storage key = Dict.get? s.storage key)
    (hself : CallKept sha orgPublicId (({ s with storage := storage } : SubmitService).goTo i c phase) i
      { c with phase := phase })
    (hlocks : SubmitState.lockedKeys { c with phase := phase } = []) :
    ServiceKept sha orgPublicId (({ s with storage := storage } : SubmitService).goTo i c phase) := by
  refine h.set hc rfl hself (fun j d hij hd hdkept => ?_) (fun key hkey => ?_) (TablesKept.goTo ?_)
  · refine hdkept.frame (fun _ => id) (fun _ hjob _ => hjob) (fun _ _ => rfl) fun f hf hstored => ?_
    exact (hstorage f.1 (h.key_ne hc hd hij hf hfile)).trans hstored
  · rw [hlocks] at hkey
    exact absurd hkey List.not_mem_nil
  · exact h.tables.of_storage fun job hjob f hf => hstorage f.1 (h.key_ne_of_job hc hrunning hjob hf hfile)

theorem ServiceKept.stores (h : ServiceKept sha orgPublicId s) (hc : s.calls[i]? = some c) {stored : Nat}
    {file : String × Bytes} {rest : List (String × Bytes)} (huploading : c.phase = .uploading stored)
    (hnext : (c.call.staged sha orgPublicId).drop stored = file :: rest)
    (hphase : phase = .uploading (stored + 1) ∨
      phase = .undoing (c.call.stagedKeys sha orgPublicId) (.error .exception)) :
    ServiceKept sha orgPublicId
      (({ s with storage := s.storage.write file.1 file.2 } : SubmitService).goTo i c phase) := by
  have hrunning : ∀ outcome, c.phase ≠ .finished outcome := by rw [huploading]; rintro _ ⟨⟩
  have hkept := h.calls i c hc
  have hfile : file ∈ c.call.staged sha orgPublicId := List.mem_of_mem_drop (hnext ▸ List.mem_cons_self)
  refine h.of_storage hc hrunning hfile (fun key hkey => by rw [Files.get?_write, if_neg hkey]) ?_ ?_
  · rcases hphase with rfl | rfl
    · refine ⟨?_, fun job hjob hindex => absurd hindex (hkept.index_ne hrunning hjob), by rintro _ ⟨⟩, by rintro _ _ ⟨⟩,
        by rintro _ _ _ ⟨⟩, by rintro _ _ ⟨⟩⟩
      show ∀ f ∈ (c.call.staged sha orgPublicId).take (stored + 1), _
      rw [List.take_add, hnext, List.take_succ_cons, List.take_zero]
      intro f hf
      show Dict.get? (s.storage.write file.1 file.2) f.1 = some f.2
      rw [Files.get?_write]
      split
      · rename_i hkey
        have hf : f ∈ c.call.staged sha orgPublicId := by
          rcases List.mem_append.mp hf with hf | hf
          · exact List.mem_of_mem_take hf
          · exact List.mem_singleton.mp hf ▸ hfile
        rw [staged_eq_of_key hf hfile hkey]
      · rename_i hkey
        rcases List.mem_append.mp hf with hf | hf
        · exact hkept.files f (by rw [huploading]; exact hf)
        · exact absurd (congrArg Prod.fst (List.mem_singleton.mp hf)) hkey
    · refine ⟨fun f hf => absurd hf List.not_mem_nil, fun job hjob hindex => absurd hindex (hkept.index_ne hrunning hjob),
        fun outcome houtcome => ?_, fun keys outcome hundoing key hkey => ?_,
        by rintro _ _ _ ⟨⟩, by rintro _ _ ⟨⟩⟩
      · obtain rfl := Option.some.inj houtcome
        trivial
      · injection hundoing with hkeys
        subst hkeys
        exact hkey
  · rcases hphase with rfl | rfl
    · rfl
    · rfl

theorem ServiceKept.deletes (h : ServiceKept sha orgPublicId s) (hc : s.calls[i]? = some c) (succeeds : Bool)
    {key : String} {keys : List String} {outcome : CallOutcome} (hundoing : c.phase = .undoing (key :: keys) outcome) :
    ServiceKept sha orgPublicId
      (({ s with storage := if succeeds then s.storage.unlink key else s.storage } : SubmitService).goTo i c
        (.undoing keys outcome)) := by
  have hrunning : ∀ outcome, c.phase ≠ .finished outcome := by rw [hundoing]; nofun
  have hkept := h.calls i c hc
  obtain ⟨file, hfile, rfl⟩ := List.mem_map.mp (hkept.undoing _ _ hundoing key List.mem_cons_self)
  refine h.of_storage hc hrunning hfile (fun other hother => ?_) ?_ rfl
  · cases succeeds with
    | false => rfl
    | true => rw [if_pos rfl, Files.get?_unlink, if_neg hother]
  · refine ⟨fun f hf => absurd hf List.not_mem_nil, fun job hjob hindex => absurd hindex (hkept.index_ne hrunning hjob),
      fun outcome' houtcome => ?_, fun keys' outcome' hundoing' other hother => ?_, nofun, nofun⟩
    · obtain rfl := Option.some.inj houtcome
      exact hkept.outcome _ (by rw [hundoing]; rfl)
    · injection hundoing' with hkeys
      subst hkeys
      exact hkept.undoing _ _ hundoing other (List.mem_cons_of_mem _ hother)

/-- A commit replaces the record of the call's key, and no other. -/
theorem get?_records_commit (s : SubmitService) (i : Nat) (c : SubmitState) (response : Json)
    (row : Option IdempotencyRow) (key : String) : (s.commit i c response row).records.get? key =
      match row with
      | none => s.records.get? key
      | some row => if key = row.idempotencyKey then some row else s.records.get? key := by
  cases row with
  | none => rfl
  | some row => exact Dict.get?_insert s.records row.idempotencyKey key row

/-- **The tables after a commit.** What the record replaces had expired when it was made. -/
theorem ServiceKept.tables_commit (h : ServiceKept sha orgPublicId s) (hc : s.calls[i]? = some c) {response : Json}
    {row : Option IdempotencyRow} (hinserted : c.phase = .inserted response row) :
    TablesKept sha orgPublicId (s.commit i c response row) := by
  have hkept := h.calls i c hc
  have hrunning : ∀ outcome, c.phase ≠ .finished outcome := by rw [hinserted]; nofun
  have hrow := hkept.inserted response row hinserted
  have hrecorded : (⟨i, c.call, response, row⟩ : SubmittedJob).Recorded sha := by
    unfold SubmittedJob.Recorded
    cases row with
    | none => exact hrow
    | some row =>
        obtain ⟨key, now, hkey, rfl, _⟩ := hrow
        exact ⟨key, now, hkey, rfl⟩
  -- a record that is replaced ends before the new one begins
  have hbefore : ∀ r old, row = some r → s.records.get? r.idempotencyKey = some old → old.expiresAt < r.createdAt := by
    rintro r old rfl hold
    obtain ⟨key, now, hkey, rfl, hexpired⟩ := hrow
    exact hexpired old hold
  have happart : ∀ job ∈ s.jobs, job.Apart ⟨i, c.call, response, row⟩ := by
    intro job hjob r r' hr hr' hkey
    obtain ⟨latest, hlatest, hcase⟩ := h.tables.current job hjob r hr
    rw [hkey] at hlatest
    have hexpired := hbefore r' latest hr' hlatest
    rcases hcase with rfl | hearlier
    · exact hexpired
    · obtain ⟨_, job', hjob', hrecord'⟩ := h.tables.recorded _ latest hlatest
      exact (hearlier.trans ((h.tables.jobs job' hjob').1.row hrecord').2.2.2.2.2).trans hexpired
  constructor
  · intro job hjob
    rw [show (s.commit i c response row).calls.length = s.calls.length from List.length_set ..]
    rcases List.mem_append.mp hjob with hjob | hjob
    · exact h.tables.jobs job hjob
    · obtain rfl := List.mem_singleton.mp hjob
      exact ⟨hrecorded, (List.getElem?_eq_some_iff.mp hc).1⟩
  · show ((s.jobs ++ [(⟨i, c.call, response, row⟩ : SubmittedJob)]).map SubmittedJob.index).Nodup
    rw [List.map_append, List.nodup_append]
    refine ⟨h.tables.indices, List.nodup_singleton _, ?_⟩
    rintro index hindex _ hnew rfl
    obtain ⟨job, hjob, rfl⟩ := List.mem_map.mp hindex
    exact hkept.index_ne hrunning hjob (List.mem_singleton.mp hnew)
  · refine List.pairwise_append.mpr ⟨h.tables.apart, List.pairwise_singleton _ _, fun job hjob new hnew => ?_⟩
    obtain rfl := List.mem_singleton.mp hnew
    exact happart job hjob
  · intro key found hfound
    rw [get?_records_commit] at hfound
    have hold : s.records.get? key = some found → found.idempotencyKey = key ∧
        ∃ job ∈ s.jobs ++ [⟨i, c.call, response, row⟩], job.record = some found := by
      intro hfound
      obtain ⟨hname, job, hjob, hrecord⟩ := h.tables.recorded key found hfound
      exact ⟨hname, job, List.mem_append_left _ hjob, hrecord⟩
    cases row with
    | none => exact hold hfound
    | some r =>
        dsimp only at hfound
        split at hfound
        · rename_i hkey
          obtain rfl := Option.some.inj hfound
          exact ⟨hkey.symm, _, List.mem_append_right _ (List.mem_singleton_self _), rfl⟩
        · exact hold hfound
  · intro job hmem r hr
    rw [get?_records_commit]
    rcases List.mem_append.mp hmem with hjob | hjob
    · obtain ⟨latest, hlatest, hcase⟩ := h.tables.current job hjob r hr
      cases row with
      | none => exact ⟨latest, hlatest, hcase⟩
      | some r' =>
          dsimp only
          split
          · rename_i hkey
            exact ⟨r', rfl, Or.inr (happart job hjob r r' hr rfl hkey)⟩
          · exact ⟨latest, hlatest, hcase⟩
    · obtain rfl := List.mem_singleton.mp hjob
      obtain rfl : row = some r := hr
      exact ⟨r, if_pos rfl, Or.inl rfl⟩
  · intro job hjob f hf
    rcases List.mem_append.mp hjob with hjob | hjob
    · exact h.tables.inputs job hjob f hf
    · obtain rfl := List.mem_singleton.mp hjob
      refine hkept.files f ?_
      rw [hinserted]
      exact (List.take_length (l := c.call.staged sha orgPublicId)).symm ▸ hf

theorem ServiceKept.commits (h : ServiceKept sha orgPublicId s) (hc : s.calls[i]? = some c) {response : Json}
    {row : Option IdempotencyRow} (hinserted : c.phase = .inserted response row) :
    ServiceKept sha orgPublicId (s.commit i c response row) := by
  have hkept := h.calls i c hc
  have hrunning : ∀ outcome, c.phase ≠ .finished outcome := by rw [hinserted]; nofun
  refine h.set hc rfl ?_ (fun j d hij hd hdkept => ?_) (fun _ hkey => absurd hkey List.not_mem_nil)
    (h.tables_commit hc hinserted)
  · refine ⟨fun f hf => absurd hf List.not_mem_nil, fun job hjob hindex => ?_, fun outcome houtcome => ?_, nofun, nofun,
      nofun⟩
    · rcases List.mem_append.mp hjob with hjob | hjob
      · exact absurd hindex (hkept.index_ne hrunning hjob)
      · obtain rfl := List.mem_singleton.mp hjob
        exact ⟨rfl, rfl⟩
    · obtain rfl := Option.some.inj houtcome
      exact ⟨_, List.mem_append_right _ (List.mem_singleton_self _), rfl, rfl, rfl, rfl, fun _ => rfl⟩
  · refine hdkept.frame (fun _ => List.mem_append_left _) (fun job hjob hindex => ?_) (fun key hkey => ?_)
      (fun _ _ => id)
    · rcases List.mem_append.mp hjob with hjob | hjob
      · exact hjob
      · obtain rfl := List.mem_singleton.mp hjob
        exact absurd hindex.symm hij
    · -- the key of the record is locked by the call that commits it
      rw [get?_records_commit]
      cases row with
      | none => rfl
      | some row =>
          refine if_neg ?_
          rintro rfl
          refine h.locks.ne hc hd hij ?_ hkey
          unfold SubmitState.lockedKeys
          rw [hinserted]
          exact List.mem_singleton_self _

theorem ServiceKept.begins (h : ServiceKept sha orgPublicId s) {call : SubmitCall}
    (hfresh : (s.calls.any fun c => c.call.uploadToken = call.uploadToken) = false) :
    ServiceKept sha orgPublicId { s with calls := s.calls ++ [{ call := call }] } where
  calls := by
    refine forall_append (fun j d hd => (h.calls j d hd).frame (fun _ => id) (fun _ hjob _ => hjob) (fun _ _ => rfl)
      (fun _ _ => id)) ?_
    refine ⟨fun f hf => absurd hf List.not_mem_nil, fun job hjob hindex => ?_, nofun, nofun, nofun, nofun⟩
    exact absurd hindex (Nat.ne_of_lt (h.tables.jobs job hjob).2)
  tokens := by
    have hnew : ∀ (j : Nat) (d : SubmitState), s.calls[j]? = some d → d.call.uploadToken ≠ call.uploadToken :=
      fun j d hd htoken => List.any_eq_false.mp hfresh d (List.mem_of_getElem? hd) (decide_eq_true htoken)
    refine forall_append (fun j d hd => ?_) ?_
    · exact forall_append (h.tokens j d hd) fun htoken => absurd htoken (hnew j d hd)
    · exact forall_append (fun k e he htoken => absurd htoken.symm (hnew k e he)) fun _ => rfl
  locks := h.locks.append rfl
  tables :=
    { jobs := fun job hjob => ⟨(h.tables.jobs job hjob).1, by
        show job.index < (s.calls ++ [_]).length
        rw [List.length_append]
        exact Nat.lt_add_right _ (h.tables.jobs job hjob).2⟩
      indices := h.tables.indices
      apart := h.tables.apart
      recorded := h.tables.recorded
      current := h.tables.current
      inputs := h.tables.inputs }

/-- **Every step of the machine keeps what is known of the state.** -/
theorem serviceKept_step (h : ServiceKept sha orgPublicId s) (action : SubmitAction) :
    ServiceKept sha orgPublicId (s.step sha orgPublicId action) := by
  cases action with
  | begin call =>
      rw [SubmitService.step]
      split
      · exact h
      · rename_i hfresh
        exact h.begins (Bool.eq_false_iff.mpr hfresh)
  | step index step =>
      rw [SubmitService.step]
      split
      · exact h
      · rename_i c hc
        have heffect := submit_effect sha orgPublicId s index c step
        generalize s.perform sha orgPublicId index c step = t at heffect
        cases heffect with
        | idle => exact h
        | goes hgoes => exact h.goes hc hgoes
        | crashes hrunning => exact h.crashes hc hrunning
        | stores huploading hnext hphase => exact h.stores hc huploading hnext hphase
        | commits hinserted => exact h.commits hc hinserted
        | deletes hundoing => exact h.deletes hc _ hundoing

theorem serviceKept_initial : ServiceKept sha orgPublicId {} where
  calls _ _ hc := by cases hc
  tokens _ _ hc := by cases hc
  locks := exclusive_nil
  tables :=
    { jobs := fun _ hjob => absurd hjob List.not_mem_nil
      indices := List.nodup_nil
      apart := .nil
      recorded := fun _ _ hrow => by cases hrow
      current := fun _ hjob => absurd hjob List.not_mem_nil
      inputs := fun _ hjob => absurd hjob List.not_mem_nil }

end Steps

end Invariant

/-! ## Runs -/

/-- A key stands for one job at a time, and every call is answered for one. -/
structure Idempotent (sha : Sha256) (orgPublicId : String) (s : SubmitService) : Prop where
  /-- Of two jobs with one key, the later is created when the record of the earlier has expired. -/
  apart : s.jobs.Pairwise SubmittedJob.Apart
  /-- A job of a call with a key has its record. -/
  recorded : ∀ job ∈ s.jobs, job.Recorded sha
  /-- An answer is the response of a job with the same key and the same request; one that is no replay is the call's
      own. -/
  answered : ∀ (i : Nat) (c : SubmitState), s.calls[i]? = some c → ∀ response status replay,
    c.phase = .finished (.ok (response, status, replay)) → ∃ job ∈ s.jobs, job.call.key? = c.call.key? ∧
      job.call.request.requestHash sha = c.call.request.requestHash sha ∧ job.response = response ∧ status = 202 ∧
      (replay = false → job.index = i)
  /-- A collision is with a job of the same key for another request. -/
  collides : ∀ (i : Nat) (c : SubmitState), s.calls[i]? = some c → ∀ message,
    c.phase = .finished (.error (.submission (.collision message))) → ∃ job ∈ s.jobs, job.call.key? = c.call.key? ∧
      job.call.request.requestHash sha ≠ c.call.request.requestHash sha
  /-- A call leaves at most one job, and only if it is answered with it. -/
  committed : (s.jobs.map SubmittedJob.index).Nodup ∧ ∀ job ∈ s.jobs, ∃ c, s.calls[job.index]? = some c ∧
    job.call = c.call ∧ c.phase = .finished (.ok (job.response, 202, false))
  /-- The inputs of every job are in storage. -/
  inputs : ∀ job ∈ s.jobs, ∀ f ∈ job.call.staged sha orgPublicId, Dict.get? s.storage f.1 = some f.2

/-- The objects of a call that are not given up: those of an upload under way, those that are still to be deleted, and
    those of a job. -/
def CallPhase.keeps (key : String) : CallPhase → Prop
  | .uploading _ | .creating | .created _ | .looked .. | .inserted .. | .conflicted => True
  | .undoing keys _ => key ∈ keys
  | .finished (.ok (_, _, false)) => True
  | .begun | .finished _ | .crashed => False

def CallPhase.ended : CallPhase → Bool
  | .finished _ => true
  | _ => false

theorem CallPhase.ended_iff {phase : CallPhase} : phase.ended = true ↔ ∃ outcome, phase = .finished outcome := by
  unfold CallPhase.ended
  split
  · exact iff_of_true rfl ⟨_, rfl⟩
  · rename_i h
    exact iff_of_false Bool.false_ne_true fun ⟨outcome, houtcome⟩ => h outcome houtcome

/-- No crash, and no deletion that fails. -/
def SubmitAction.careful : SubmitAction → Bool
  | .step _ .crash | .step _ (.delete false) => false
  | _ => true

section Orphans

variable {sha : Sha256} {orgPublicId : String} {s : SubmitService} {i : Nat} {c : SubmitState} {phase : CallPhase}

/-- Every object is a file of a call that has not given it up. -/
def ObjectsOwned (sha : Sha256) (orgPublicId : String) (s : SubmitService) : Prop :=
  ∀ key bytes, Dict.get? s.storage key = some bytes → ∃ (i : Nat) (c : SubmitState), s.calls[i]? = some c ∧
    (key, bytes) ∈ c.call.staged sha orgPublicId ∧ c.phase.keeps key

/-- A step of a call that gives up no object but those that it deletes. -/
theorem ObjectsOwned.set (h : ObjectsOwned sha orgPublicId s) (hc : s.calls[i]? = some c) {s' : SubmitService}
    (hcalls : s'.calls = s.calls.set i { c with phase := phase })
    (hstorage : ∀ key bytes, Dict.get? s'.storage key = some bytes → Dict.get? s.storage key = some bytes ∨
      (key, bytes) ∈ c.call.staged sha orgPublicId ∧ phase.keeps key)
    (hkeeps : ∀ key bytes, Dict.get? s'.storage key = some bytes → (key, bytes) ∈ c.call.staged sha orgPublicId →
      c.phase.keeps key → phase.keeps key) : ObjectsOwned sha orgPublicId s' := by
  have hlt := (List.getElem?_eq_some_iff.mp hc).1
  have hself : s'.calls[i]? = some { c with phase := phase } := by
    rw [hcalls, List.getElem?_set_self hlt]
  intro key bytes hstored
  rcases hstorage key bytes hstored with hbefore | ⟨hfile, hkept⟩
  · obtain ⟨j, d, hd, hfile, hkept⟩ := h key bytes hbefore
    by_cases hij : i = j
    · subst hij
      obtain rfl := Option.some.inj (hc.symm.trans hd)
      exact ⟨i, _, hself, hfile, hkeeps key bytes hstored hfile hkept⟩
    · exact ⟨j, d, by rw [hcalls, List.getElem?_set_ne hij]; exact hd, hfile, hkept⟩
  · exact ⟨i, _, hself, hfile, hkept⟩

theorem Goes.keeps (hgoes : Goes sha orgPublicId s i c phase) {key : String}
    (hkey : key ∈ c.call.stagedKeys sha orgPublicId) (hkept : c.phase.keeps key) : phase.keeps key := by
  cases hgoes with
  | answers hbegun => rw [hbegun] at hkept; exact hkept.elim
  | undoes _ hkeys => exact (hkeys key).mpr hkey
  | ends hundone =>
      rw [hundone] at hkept
      exact absurd hkept List.not_mem_nil
  | starts => trivial
  | creates => trivial
  | inserts => trivial
  | looks => trivial
  | skips => trivial
  | records => trivial
  | conflicts => trivial

theorem owned_step (h : ObjectsOwned sha orgPublicId s) {action : SubmitAction} (hcareful : action.careful = true) :
    ObjectsOwned sha orgPublicId (s.step sha orgPublicId action) := by
  cases action with
  | begin call =>
      rw [SubmitService.step]
      split
      · exact h
      · intro key bytes hstored
        obtain ⟨i, c, hc, howned⟩ := h key bytes hstored
        exact ⟨i, c, List.getElem?_append_left (List.getElem?_eq_some_iff.mp hc).1 ▸ hc, howned⟩
  | step index step =>
      rw [SubmitService.step]
      split
      · exact h
      · rename_i c hc
        have heffect := submit_effect sha orgPublicId s index c step
        generalize s.perform sha orgPublicId index c step = t at heffect
        cases heffect with
        | idle => exact h
        | goes hgoes =>
            exact h.set hc rfl (fun _ _ => Or.inl) fun key bytes _ hfile hkept =>
              hgoes.keeps (List.mem_map.mpr ⟨_, hfile, rfl⟩) hkept
        | crashes => cases hcareful
        | @stores _ stored file rest phase huploading hnext hphase =>
            have hfile : file ∈ c.call.staged sha orgPublicId := List.mem_of_mem_drop (hnext ▸ List.mem_cons_self)
            have hkeeps : ∀ f ∈ c.call.staged sha orgPublicId, phase.keeps f.1 := by
              intro f hf
              rcases hphase with rfl | rfl
              · trivial
              · exact List.mem_map_of_mem hf
            refine h.set hc rfl (fun key bytes hstored => ?_) fun key bytes _ hf _ => hkeeps _ hf
            change Dict.get? (s.storage.write file.1 file.2) key = some bytes at hstored
            rw [Files.get?_write] at hstored
            split at hstored
            · rename_i hkey
              obtain rfl := Option.some.inj hstored
              subst hkey
              exact Or.inr ⟨hfile, hkeeps file hfile⟩
            · exact Or.inl hstored
        | commits hinserted =>
            exact h.set hc rfl (fun _ _ => Or.inl) fun _ _ _ _ _ => trivial
        | @deletes succeeds key keys outcome hundoing =>
            cases succeeds with
            | false => cases hcareful
            | true =>
                have hleft : ∀ other bytes, Dict.get? (s.storage.unlink key) other = some bytes →
                    other ≠ key ∧ Dict.get? s.storage other = some bytes := by
                  intro other bytes hstored
                  rw [Files.get?_unlink] at hstored
                  split at hstored
                  · cases hstored
                  · rename_i hother
                    exact ⟨hother, hstored⟩
                refine h.set hc rfl (fun other bytes hstored => Or.inl (hleft other bytes hstored).2) ?_
                intro other bytes hstored _ hkept
                rw [hundoing] at hkept
                exact (List.mem_cons.mp hkept).resolve_left (hleft other bytes hstored).1

/-- A call that submits the files of `packRequest`. -/
def packCall (token : UploadToken) : SubmitCall := ⟨some "k", packRequest "1.0.0", token, "job_1", "run_1"⟩

def firstToken : UploadToken := ⟨"0123456789abcdef", by decide⟩

def secondToken : UploadToken := ⟨"fedcba9876543210", by decide⟩

/-- Two calls upload the same files under one key, side by side; the second finds the record of the first. -/
def sideBySide : List SubmitAction :=
  let upload (i : Nat) : List SubmitAction :=
    [.step i (.check 0), .step i (.store true), .step i (.store true), .step i (.store true)]
  [.begin (packCall firstToken), .begin (packCall secondToken)] ++ upload 0 ++ upload 1 ++
    [.step 0 (.recheck 1), .step 0 (.create "2026-01-01T00:00:00"), .step 0 (.look 2), .step 0 .insert, .step 0 .commit,
      .step 1 (.recheck 3), .step 1 (.delete true), .step 1 (.delete true), .step 1 (.delete true),
      .step 1 (.delete true)]

end Orphans

end Untangle
