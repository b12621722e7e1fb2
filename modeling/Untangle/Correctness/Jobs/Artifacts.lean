import Untangle.Correctness.Jobs.Attempts

/-!
# `Correctness.Jobs.Artifacts` — recorded artifacts stay in storage

The final keys of a run are the same in every attempt. The clean-up of an attempt looks up which keys are recorded and
deletes the others later, so another attempt can copy to the same keys and commit in between. If no clean-up overlaps
with the copies of an attempt that holds the job (`cleanUpRaced`), every artifact that is recorded is in storage, as it
is recorded (`artifacts_intact`). The invariant says of every attempt what it has copied (`AttemptKept`), and that no
attempt is in its clean-up while one that holds the job has copied a file (`ArtifactsKept.apart`).
-/

namespace Untangle

open Lib

/-! ## The files of a run -/

/-- Artifacts whose types begin with different letters have different keys. -/
theorem artifactKey_ne (org run : String) {type type' : String} {c c' : Char} {rest rest' : List Char}
    (htype : type.toList = c :: rest) (htype' : type'.toList = c' :: rest') (hne : c ≠ c') (sha sha' ext ext' : String) :
    generateArtifactObjectKey org run type sha ext ≠ generateArtifactObjectKey org run type' sha' ext' := by
  intro h
  unfold generateArtifactObjectKey at h
  have h := congrArg String.toList h
  simp only [String.toList_append, htype, htype', List.append_assoc, List.cons_append, List.append_cancel_left_eq,
    List.cons.injEq] at h
  exact hne h.1

/-- What a run publishes. -/
def publication (sha : Sha256) (orgPublicId runPublicId : String) (o : PublishedBytes) : Publication where
  files := artifactFiles sha orgPublicId runPublicId o
  nodup := by
    have htally : "tally_xml".toList = 't' :: "ally_xml".toList := by decide
    have hreport : "report_json".toList = 'r' :: "eport_json".toList := by decide
    have hcert : "certificate_json".toList = 'c' :: "ertificate_json".toList := by decide
    simp only [artifactFiles, artifactFile, ArtifactFile.key, List.map_cons, List.map_nil, List.nodup_cons,
      List.mem_cons, List.not_mem_nil, or_false, not_or, not_false_eq_true, List.nodup_nil, and_true]
    exact ⟨⟨artifactKey_ne _ _ htally hreport (by decide) _ _ _ _, artifactKey_ne _ _ htally hcert (by decide) _ _ _ _⟩,
      artifactKey_ne _ _ hreport hcert (by decide) _ _ _ _⟩

/-- Every file of a run is recorded with its size and its digest. -/
theorem publication_metadata {sha : Sha256} {org run : String} {o : PublishedBytes} {f : ArtifactFile}
    (hf : f ∈ (publication sha org run o).files) :
    f.metadata.sizeBytes = f.content.length ∧ f.metadata.contentSha256 = hexText (sha.digest f.content) := by
  have hf : f ∈ artifactFiles sha org run o := hf
  simp only [artifactFiles, List.mem_cons, List.not_mem_nil, or_false] at hf
  rcases hf with rfl | rfl | rfl
  · exact ⟨rfl, rfl⟩
  · exact ⟨rfl, rfl⟩
  · exact ⟨rfl, rfl⟩

/-! ## Publishing and cleaning up -/

/-- An attempt that holds the job and can still complete it. -/
def Attempt.publishes (a : Attempt) (j : ReconciliationJob) : Bool :=
  (a.phase = .working || a.phase = .cleared) && j.fencedBy a.attemptToken a.leaseGeneration

/-- An attempt between the look-up and the end of its clean-up. -/
def Attempt.cleans (a : Attempt) : Bool :=
  match a.phase with
  | .deleting _ => true
  | _ => false

theorem Attempt.publishes_iff {a : Attempt} {j : ReconciliationJob} :
    a.publishes j = true ↔
      (a.phase = .working ∨ a.phase = .cleared) ∧ j.fencedBy a.attemptToken a.leaseGeneration = true := by
  simp [Attempt.publishes]

theorem Attempt.cleans_iff {a : Attempt} : a.cleans = true ↔ ∃ keys, a.phase = .deleting keys := by
  unfold Attempt.cleans
  split
  · rename_i keys h
    exact iff_of_true rfl ⟨keys, h⟩
  · rename_i h
    exact iff_of_false Bool.false_ne_true fun ⟨keys, hkeys⟩ => h keys hkeys

theorem Attempt.not_publishes_of_cleans {a : Attempt} {j : ReconciliationJob} (h : a.cleans = true) :
    ¬ a.publishes j = true := by
  obtain ⟨keys, hkeys⟩ := Attempt.cleans_iff.mp h
  rw [Attempt.publishes_iff, hkeys]
  rintro ⟨hphase | hphase, _⟩
  · cases hphase
  · cases hphase

theorem Attempt.publishes_of_fencedBy {a : Attempt} {j j' : ReconciliationJob} (h : a.publishes j' = true)
    (hfenced : j'.fencedBy a.attemptToken a.leaseGeneration = true → j.fencedBy a.attemptToken a.leaseGeneration = true) :
    a.publishes j = true :=
  Attempt.publishes_iff.mpr ⟨(Attempt.publishes_iff.mp h).1, hfenced (Attempt.publishes_iff.mp h).2⟩

theorem AttemptPhase.not_publishing_of_leaving {phase : AttemptPhase} (h : phase.leaving = true) :
    ¬ (phase = .working ∨ phase = .cleared) := by
  rintro (rfl | rfl)
  · cases h
  · cases h

theorem AttemptPhase.ne_deleting_of_leaving {phase : AttemptPhase} (h : phase.leaving = true) (keys : List String) :
    phase ≠ .deleting keys := by
  rintro rfl
  cases h

/-- What the rows of a result record under its keys. -/
theorem Submission.recordedKeys_of_result {e : Submission ArtifactMetadata} {p : Publication}
    (h : e.result = some (p.files.map ArtifactFile.metadata)) : e.recordedKeys = p.files.map ArtifactFile.key := by
  rw [Submission.recordedKeys, h, Option.getD_some, List.map_map]
  rfl

/-- Files of a run with one key are one file. -/
theorem Publication.eq_of_key (p : Publication) {f g : ArtifactFile} (hf : f ∈ p.files) (hg : g ∈ p.files)
    (hkey : f.key = g.key) : f = g := List.inj_on_of_nodup_map p.nodup hf hg hkey

/-! ## What a step of an attempt does about them -/

namespace AttemptEffect

variable {backend : Backend} {p : Publication} {now : Instant} {e : Submission ArtifactMetadata}
  {storage : Files String Bytes} {a : Attempt} {step : AttemptStep} {scene : Scene}

theorem leaseGeneration_job (h : AttemptEffect backend p now e storage a step scene) :
    scene.submission.job.val.leaseGeneration = e.job.val.leaseGeneration := by
  rcases h.submission_eq with hsame | ⟨statement, hchange⟩
  · rw [hsame]
  · rw [hchange]
    rcases Submission.change_claimed backend e (a.ask statement now) with ⟨_, _, _, _, hc, _⟩ | ⟨hsame, _⟩
    · cases hc
    · exact hsame

theorem leaseGeneration_attempt (h : AttemptEffect backend p now e storage a step scene) :
    scene.attempt.leaseGeneration = a.leaseGeneration := by
  cases h <;> rfl

/-- An attempt that can complete the job after a step could before. -/
theorem publishes_of (h : AttemptEffect backend p now e storage a step scene)
    (hpublishes : scene.attempt.publishes scene.submission.job.val = true) : a.publishes e.job.val = true := by
  obtain ⟨hphase, hfenced⟩ := Attempt.publishes_iff.mp hpublishes
  have hfenced := h.fencedBy_of hfenced
  cases h with
  | idle => exact hpublishes
  | leaves hleaving => exact absurd hphase (AttemptPhase.not_publishing_of_leaving hleaving)
  | asks _ hnext =>
      rcases hnext with rfl | hleaving
      · exact Attempt.publishes_iff.mpr ⟨hphase, hfenced⟩
      · exact absurd hphase (AttemptPhase.not_publishing_of_leaving hleaving)
  | copies hworking => exact Attempt.publishes_iff.mpr ⟨Or.inl hworking, hfenced⟩
  | copiesUnseen _ hleaving => exact absurd hphase (AttemptPhase.not_publishing_of_leaving hleaving)
  | clears hworking => exact Attempt.publishes_iff.mpr ⟨Or.inl hworking, hfenced⟩
  | commits _ _ hleaving => exact absurd hphase (AttemptPhase.not_publishing_of_leaving hleaving)
  | lists => rcases hphase with hphase | hphase <;> cases hphase
  | deletes => rcases hphase with hphase | hphase <;> cases hphase

/-- A file that a step does not delete stays as it is. -/
theorem get?_storage (h : AttemptEffect backend p now e storage a step scene) {f : ArtifactFile} (hf : f ∈ p.files)
    (hstored : Dict.get? storage f.key = some f.content)
    (hkept : ∀ key keys, a.phase = .deleting (key :: keys) → f.key ≠ key) :
    Dict.get? scene.storage f.key = some f.content := by
  have hwrite : ∀ g rest, p.files.drop a.promoted.length = g :: rest →
      Dict.get? (storage.write g.key g.content) f.key = some f.content := by
    intro g rest hnext
    have hg : g ∈ p.files := List.mem_of_mem_drop (hnext ▸ List.mem_cons_self)
    rw [Files.get?_write]
    split
    · rename_i hkey
      rw [p.eq_of_key hf hg hkey]
    · exact hstored
  cases h with
  | idle => exact hstored
  | leaves => exact hstored
  | asks => exact hstored
  | copies _ hnext => exact hwrite _ _ hnext
  | copiesUnseen hnext => exact hwrite _ _ hnext
  | clears => exact hstored
  | commits => exact hstored
  | lists => exact hstored
  | @deletes succeeds key keys hdeleting =>
      show Dict.get? (if succeeds = true then storage.unlink key else storage) f.key = some f.content
      cases succeeds with
      | false => exact hstored
      | true => rw [if_pos rfl, Files.get?_unlink, if_neg (hkept key keys hdeleting), hstored]

/-- Only a completion transaction records artifacts. -/
theorem result_of (h : AttemptEffect backend p now e storage a step scene) :
    scene.submission.result = e.result ∨
      a.mayCommit e.job.val = true ∧ scene.submission.result = some (p.files.map ArtifactFile.metadata) ∧
        scene.attempt.phase.leaving = true ∧ scene.storage = storage := by
  cases h with
  | commits hcleared haccepted hphase =>
      cases haccepted with
      | complete hfenced _ _ _ hresult =>
          exact Or.inr ⟨Attempt.mayCommit_iff.mpr ⟨hcleared, hfenced⟩, hresult, hphase, rfl⟩
  | asks hstatement =>
      refine Or.inl (Submission.completed_of_change ?_).2.2
      rintro _ _ _ _ hc _
      injection hc with _ _ hc _
      exact absurd hc (hstatement _)
  | idle => exact Or.inl rfl
  | leaves => exact Or.inl rfl
  | copies => exact Or.inl rfl
  | copiesUnseen => exact Or.inl rfl
  | clears => exact Or.inl rfl
  | lists => exact Or.inl rfl
  | deletes => exact Or.inl rfl

/-- An attempt notes a file only with the copy. -/
theorem promoted_of (h : AttemptEffect backend p now e storage a step scene) :
    scene.attempt.promoted = a.promoted ∨
      (∃ delivery message, step = .promote delivery message) ∧ a.phase = .working ∧
        ∃ f rest, p.files.drop a.promoted.length = f :: rest ∧ scene.attempt.promoted = a.promoted ++ [f.key] ∧
          scene.storage = storage.write f.key f.content := by
  cases h with
  | copies hworking hnext => exact Or.inr ⟨⟨_, _, rfl⟩, hworking, _, _, hnext, rfl, rfl⟩
  | idle => exact Or.inl rfl
  | leaves => exact Or.inl rfl
  | asks => exact Or.inl rfl
  | copiesUnseen => exact Or.inl rfl
  | clears => exact Or.inl rfl
  | commits => exact Or.inl rfl
  | lists => exact Or.inl rfl
  | deletes => exact Or.inl rfl

/-- An attempt passes its check once everything is copied. -/
theorem cleared_of (h : AttemptEffect backend p now e storage a step scene) (hcleared : scene.attempt.phase = .cleared) :
    scene.attempt.promoted = a.promoted ∧ (a.phase = .cleared ∨ p.files.length ≤ a.promoted.length) := by
  cases h with
  | idle => exact ⟨rfl, Or.inl hcleared⟩
  | leaves hphase => exact absurd hcleared (AttemptPhase.ne_cleared_of_leaving hphase)
  | asks _ hphase =>
      rcases hphase with rfl | hleaving
      · exact ⟨rfl, Or.inl hcleared⟩
      · exact absurd hcleared (AttemptPhase.ne_cleared_of_leaving hleaving)
  | copies hworking => exact absurd (hworking.symm.trans hcleared) nofun
  | copiesUnseen _ hphase => exact absurd hcleared (AttemptPhase.ne_cleared_of_leaving hphase)
  | clears _ hall => exact ⟨rfl, Or.inr hall⟩
  | commits _ _ hphase => exact absurd hcleared (AttemptPhase.ne_cleared_of_leaving hphase)
  | lists => cases hcleared
  | deletes => cases hcleared

/-- An attempt is about to delete what it was about to delete before, or what the look-up has found unrecorded. -/
theorem deleting_of (h : AttemptEffect backend p now e storage a step scene) {keys : List String}
    (hdeleting : scene.attempt.phase = .deleting keys) :
    (∃ keys', a.phase = .deleting keys' ∧ keys ⊆ keys') ∨
      (∃ answered, step = .lookUp answered) ∧ a.phase = .finishing ∧ scene.submission = e ∧
        ∀ key ∈ keys, key ∉ e.recordedKeys := by
  cases h with
  | idle => exact Or.inl ⟨keys, hdeleting, fun _ => id⟩
  | leaves hphase => exact absurd hdeleting (AttemptPhase.ne_deleting_of_leaving hphase keys)
  | asks _ hphase =>
      rcases hphase with rfl | hleaving
      · exact Or.inl ⟨keys, hdeleting, fun _ => id⟩
      · exact absurd hdeleting (AttemptPhase.ne_deleting_of_leaving hleaving keys)
  | copies hworking => exact absurd (hworking.symm.trans hdeleting) nofun
  | copiesUnseen _ hphase => exact absurd hdeleting (AttemptPhase.ne_deleting_of_leaving hphase keys)
  | clears => cases hdeleting
  | commits _ _ hphase => exact absurd hdeleting (AttemptPhase.ne_deleting_of_leaving hphase keys)
  | lists hfinishing =>
      injection hdeleting with hkeys
      subst hkeys
      exact Or.inr ⟨⟨_, rfl⟩, hfinishing, rfl, fun key hkey => of_decide_eq_true (List.mem_filter.mp hkey).2⟩
  | deletes hbefore =>
      injection hdeleting with hkeys
      subst hkeys
      exact Or.inl ⟨_, hbefore, fun _ => List.mem_cons_of_mem _⟩

end AttemptEffect

/-! ## The invariant -/

/-- What is known of an attempt. -/
structure AttemptKept (p : Publication) (e : Submission ArtifactMetadata) (storage : Files String Bytes)
    (a : Attempt) : Prop where
  generation : a.leaseGeneration ≤ e.job.val.leaseGeneration
  /-- The files are copied in order. -/
  promoted : a.promoted = (p.files.take a.promoted.length).map ArtifactFile.key
  cleared : a.phase = .cleared → p.files.length ≤ a.promoted.length
  stored : a.publishes e.job.val = true → ∀ f ∈ p.files.take a.promoted.length,
    Dict.get? storage f.key = some f.content
  pending : ∀ keys, a.phase = .deleting keys → ∀ key ∈ keys, key ∉ e.recordedKeys

/-- What is known of a state in which no clean-up has overlapped with the copies of an attempt that held the job. -/
structure ArtifactsKept (p : Publication) (s : JobExecution) : Prop where
  attempts : ∀ (i : Nat) (a : Attempt), s.attempts[i]? = some a → AttemptKept p s.submission s.storage a
  apart : ∀ (i : Nat) (a : Attempt), s.attempts[i]? = some a → a.cleans = true →
    ∀ (j : Nat) (b : Attempt), s.attempts[j]? = some b → b.publishes s.submission.job.val = true → b.promoted = []
  result : ∀ artifacts, s.submission.result = some artifacts → artifacts = p.files.map ArtifactFile.metadata ∧
    ∀ f ∈ p.files, Dict.get? s.storage f.key = some f.content

section AttemptSteps

variable {backend : Backend} {p : Publication} {now : Instant} {e : Submission ArtifactMetadata}
  {storage : Files String Bytes} {a b : Attempt} {step : AttemptStep} {scene : Scene}

/-- What is known of an attempt after a change of the rows alone. -/
theorem AttemptKept.of_change {e' : Submission ArtifactMetadata} (h : AttemptKept p e storage b)
    (hgeneration : e.job.val.leaseGeneration ≤ e'.job.val.leaseGeneration)
    (hfenced : e'.job.val.fencedBy b.attemptToken b.leaseGeneration = true →
      e.job.val.fencedBy b.attemptToken b.leaseGeneration = true)
    (hresult : e'.result = e.result) : AttemptKept p e' storage b where
  generation := Nat.le_trans h.generation hgeneration
  promoted := h.promoted
  cleared := h.cleared
  stored hpublishes := h.stored (Attempt.publishes_of_fencedBy hpublishes hfenced)
  pending keys hdeleting key hkey := by
    rw [Submission.recordedKeys, hresult]
    exact h.pending keys hdeleting key hkey

/-- What a step records, no attempt is about to delete: the one that records it holds the job and has copied files, so
    none is cleaning up, unless there are no files. -/
theorem AttemptEffect.recordedKeys_of (h : AttemptEffect backend p now e storage a step scene)
    (ha : AttemptKept p e storage a) {key : String} (hkey : key ∉ e.recordedKeys)
    (hapart : a.publishes e.job.val = true → a.promoted = []) : key ∉ scene.submission.recordedKeys := by
  rcases h.result_of with hsame | ⟨hmay, hresult, _, _⟩
  · rwa [Submission.recordedKeys, hsame]
  · obtain ⟨hcleared, hfenced⟩ := Attempt.mayCommit_iff.mp hmay
    have hnil : a.promoted = [] := hapart (Attempt.publishes_iff.mpr ⟨Or.inr hcleared, hfenced⟩)
    have hlength := ha.cleared hcleared
    rw [hnil] at hlength
    rw [Submission.recordedKeys_of_result hresult, List.eq_nil_of_length_eq_zero (Nat.le_zero.mp hlength)]
    exact List.not_mem_nil

/-- What is known of an attempt after a step of another. -/
theorem AttemptKept.other (h : AttemptEffect backend p now e storage a step scene) (ha : AttemptKept p e storage a)
    (hb : AttemptKept p e storage b)
    (hcleans : a.cleans = true → b.publishes e.job.val = true → b.promoted = [])
    (hcleaned : b.cleans = true → a.publishes e.job.val = true → a.promoted = []) :
    AttemptKept p scene.submission scene.storage b where
  generation := h.leaseGeneration_job ▸ hb.generation
  promoted := hb.promoted
  cleared := hb.cleared
  stored hpublishes f hf := by
    have hbefore := Attempt.publishes_of_fencedBy hpublishes h.fencedBy_of
    refine h.get?_storage (List.mem_of_mem_take hf) (hb.stored hbefore f hf) ?_
    intro key keys hdeleting
    -- while the other is cleaning up, this one has copied nothing
    rw [hcleans (Attempt.cleans_iff.mpr ⟨_, hdeleting⟩) hbefore] at hf
    exact absurd hf List.not_mem_nil
  pending keys hdeleting key hkey :=
    h.recordedKeys_of ha (hb.pending keys hdeleting key hkey) (hcleaned (Attempt.cleans_iff.mpr ⟨keys, hdeleting⟩))

/-- What is known of an attempt after a step of its own. -/
theorem AttemptKept.self (h : AttemptEffect backend p now e storage a step scene) (ha : AttemptKept p e storage a) :
    AttemptKept p scene.submission scene.storage scene.attempt where
  generation := by
    rw [h.leaseGeneration_job, h.leaseGeneration_attempt]
    exact ha.generation
  promoted := by
    rcases h.promoted_of with hsame | ⟨_, _, f, rest, hnext, hcopied, _⟩
    · rw [hsame]
      exact ha.promoted
    · have htake : p.files.take (a.promoted.length + 1) = p.files.take a.promoted.length ++ [f] := by
        rw [List.take_add, hnext, List.take_succ_cons, List.take_zero]
      rw [hcopied, List.length_append, List.length_singleton, htake, List.map_append, ← ha.promoted, List.map_singleton]
  cleared hcleared := by
    obtain ⟨hsame, hbefore | hall⟩ := h.cleared_of hcleared
    · rw [hsame]
      exact ha.cleared hbefore
    · rw [hsame]
      exact hall
  stored hpublishes := by
    have hbefore := h.publishes_of hpublishes
    have hkept : ∀ f ∈ p.files.take a.promoted.length, Dict.get? scene.storage f.key = some f.content := by
      intro f hf
      refine h.get?_storage (List.mem_of_mem_take hf) (ha.stored hbefore f hf) ?_
      intro key keys hdeleting
      exact absurd hbefore (Attempt.not_publishes_of_cleans (Attempt.cleans_iff.mpr ⟨_, hdeleting⟩))
    rcases h.promoted_of with hsame | ⟨_, _, f, rest, hnext, hcopied, hstorage⟩
    · rw [hsame]
      exact hkept
    · rw [hcopied, List.length_append, List.length_singleton, List.take_add, hnext, List.take_succ_cons, List.take_zero]
      intro g hg
      rcases List.mem_append.mp hg with hg | hg
      · exact hkept g hg
      · obtain rfl := List.mem_singleton.mp hg
        rw [hstorage, Files.get?_write, if_pos rfl]
  pending keys hdeleting key hkey := by
    rcases h.deleting_of hdeleting with ⟨keys', hbefore, hsub⟩ | ⟨_, _, hsame, hunrecorded⟩
    · exact h.recordedKeys_of ha (ha.pending keys' hbefore key (hsub hkey)) fun hpublishes =>
        absurd hpublishes (Attempt.not_publishes_of_cleans (Attempt.cleans_iff.mpr ⟨_, hbefore⟩))
    · rw [hsame]
      exact hunrecorded key hkey

end AttemptSteps

namespace JobExecution

/-- Every recorded artifact is in storage, as it is recorded. -/
def Intact (sha : Sha256) (s : JobExecution) : Prop :=
  ∀ artifacts, s.submission.result = some artifacts → ∀ m ∈ artifacts, ∃ content,
    Dict.get? s.storage m.objectKey = some content ∧ m.sizeBytes = content.length ∧
      m.contentSha256 = hexText (sha.digest content)

/-- A clean-up overlaps with the copies of an attempt that holds the job: such an attempt copies a file while another
    is cleaning up, or a clean-up begins when it has copied a file. -/
def cleanUpRaced (s : JobExecution) : WorkerAction → Bool
  | .attempt index (.promote ..) _ =>
    s.attempts[index]?.any fun a => a.publishes s.submission.job.val && s.attempts.any Attempt.cleans
  | .attempt index (.lookUp _) _ =>
    s.attempts[index]?.any fun a =>
      a.phase = .finishing && s.attempts.any fun b => b.publishes s.submission.job.val && !b.promoted.isEmpty
  | _ => false

theorem not_cleans_of_promote {s : JobExecution} {index : Nat} {delivery : Delivery} {message : String} {now : Instant}
    (h : s.cleanUpRaced (.attempt index (.promote delivery message) now) = false) {a : Attempt}
    (ha : s.attempts[index]? = some a) (hpublishes : a.publishes s.submission.job.val = true) {j : Nat} {b : Attempt}
    (hb : s.attempts[j]? = some b) : ¬ b.cleans = true := by
  rw [cleanUpRaced, ha, Option.any_some, hpublishes, Bool.true_and] at h
  exact List.any_eq_false.mp h b (List.mem_of_getElem? hb)

theorem promoted_of_lookUp {s : JobExecution} {index : Nat} {answered : Bool} {now : Instant}
    (h : s.cleanUpRaced (.attempt index (.lookUp answered) now) = false) {a : Attempt}
    (ha : s.attempts[index]? = some a) (hfinishing : a.phase = .finishing) (j : Nat) (b : Attempt)
    (hb : s.attempts[j]? = some b) (hpublishes : b.publishes s.submission.job.val = true) : b.promoted = [] := by
  rw [cleanUpRaced, ha, Option.any_some, decide_eq_true hfinishing, Bool.true_and] at h
  have hb := List.any_eq_false.mp h b (List.mem_of_getElem? hb)
  rw [hpublishes, Bool.true_and, Bool.not_eq_true, Bool.not_eq_false'] at hb
  exact List.isEmpty_iff.mp hb

variable {backend : Backend} {p : Publication} {s : JobExecution} {action : WorkerAction}

theorem artifactsKept_step (h : ArtifactsKept p s) (hunraced : s.cleanUpRaced action = false) :
    ArtifactsKept p (s.step backend p action) := by
  have heffect := step_effect backend p s action
  generalize s.step backend p action = t at heffect
  cases heffect with
  | idle => exact h
  | reads => exact ⟨h.attempts, h.apart, h.result⟩
  | @claims workerId attemptToken leaseTime now e' haccepted =>
      cases haccepted with
      | claim _ hjob _ hresult =>
          -- the generation is a new one, so no earlier attempt holds the job
          have hgeneration : e'.job.val.leaseGeneration = s.submission.job.val.leaseGeneration + 1 := by
            rw [hjob]
            rfl
          have hlost : ∀ (i : Nat) (a : Attempt), s.attempts[i]? = some a →
              ¬ e'.job.val.fencedBy a.attemptToken a.leaseGeneration = true := by
            intro i a ha hfenced
            have hle := (h.attempts i a ha).generation
            have heq := (fencedBy_iff.mp hfenced).2.1
            omega
          refine ⟨forall_append (fun i a ha => ?_) ?_, ?_, ?_⟩
          · exact (h.attempts i a ha).of_change (hgeneration ▸ Nat.le_succ _) (fun hfenced => absurd hfenced (hlost i a ha)) hresult
          · exact ⟨Nat.le_refl _, rfl, nofun, fun _ _ hf => absurd hf List.not_mem_nil, nofun⟩
          · intro _ _ _ _
            refine forall_append (fun j b hb hpublishes => ?_) fun _ => rfl
            exact absurd (Attempt.publishes_iff.mp hpublishes).2 (hlost j b hb)
          · intro artifacts hartifacts
            exact h.result artifacts (hresult ▸ hartifacts)
  | @performs index step now a scene ha heffect =>
      have hkept := h.attempts index a ha
      refine ⟨forall_set h.attempts (.self heffect hkept) fun j b _ hb hbkept =>
        .other heffect hkept hbkept (fun hcleans => h.apart index a ha hcleans j b hb)
          (fun hcleans => h.apart j b hb hcleans index a ha), ?_, ?_⟩
      · -- an attempt that starts its clean-up, and one that copies a file
        have hstart : scene.attempt.cleans = true → ∀ (j : Nat) (b : Attempt), s.attempts[j]? = some b →
            b.publishes s.submission.job.val = true → b.promoted = [] := by
          intro hcleans
          obtain ⟨keys, hdeleting⟩ := Attempt.cleans_iff.mp hcleans
          rcases heffect.deleting_of hdeleting with ⟨keys', hbefore, _⟩ | ⟨⟨answered, rfl⟩, hfinishing, _⟩
          · exact h.apart index a ha (Attempt.cleans_iff.mpr ⟨_, hbefore⟩)
          · exact promoted_of_lookUp hunraced ha hfinishing
        have hcopy : ∀ (i : Nat) (c : Attempt), s.attempts[i]? = some c → c.cleans = true →
            scene.attempt.publishes scene.submission.job.val = true → scene.attempt.promoted = [] := by
          intro i c hc hcleans hpublishes
          have hbefore := heffect.publishes_of hpublishes
          rcases heffect.promoted_of with hsame | ⟨⟨_, _, rfl⟩, _⟩
          · rw [hsame]
            exact h.apart i c hc hcleans index a ha hbefore
          · exact absurd hcleans (not_cleans_of_promote hunraced ha hbefore hc)
        refine forall_set h.apart (fun hcleans => ?_) fun i c _ hc hapart hcleans => ?_
        · exact forall_set (hstart hcleans)
            (fun hpublishes => absurd hpublishes (Attempt.not_publishes_of_cleans hcleans))
            fun j b _ _ hb hpublishes => hb (Attempt.publishes_of_fencedBy hpublishes heffect.fencedBy_of)
        · exact forall_set (hapart hcleans) (hcopy i c hc hcleans)
            fun j b _ _ hb hpublishes => hb (Attempt.publishes_of_fencedBy hpublishes heffect.fencedBy_of)
      · intro artifacts hartifacts
        rcases heffect.result_of with hsame | ⟨hmay, hresult, _, hstorage⟩
        · have hartifacts : s.submission.result = some artifacts := hsame ▸ hartifacts
          obtain ⟨rfl, hstored⟩ := h.result artifacts hartifacts
          refine ⟨rfl, fun f hf => heffect.get?_storage hf (hstored f hf) ?_⟩
          rintro key keys hdeleting rfl
          refine hkept.pending _ hdeleting _ List.mem_cons_self ?_
          rw [Submission.recordedKeys_of_result hartifacts]
          exact List.mem_map_of_mem hf
        · obtain ⟨hcleared, hfenced⟩ := Attempt.mayCommit_iff.mp hmay
          have hstored := hkept.stored (Attempt.publishes_iff.mpr ⟨Or.inr hcleared, hfenced⟩)
          rw [List.take_of_length_le (hkept.cleared hcleared), ← hstorage] at hstored
          exact ⟨Option.some.inj (hartifacts.symm.trans hresult), hstored⟩
  | @cancels request r hr =>
      have hresult : (s.submission.change backend (.cancel r)).result = s.submission.result :=
        (Submission.completed_of_change (by rintro _ _ _ _ ⟨⟩)).2.2
      refine ⟨fun i a ha => (h.attempts i a ha).of_change (Nat.le_of_eq ?_) (Submission.fencedBy_of_change (by rintro _ _ _ _ ⟨⟩)) hresult,
        fun i a ha hcleans j b hb hpublishes => ?_, fun artifacts hartifacts => h.result artifacts (hresult ▸ hartifacts)⟩
      · rcases Submission.change_claimed backend s.submission (.cancel r) with ⟨_, _, _, _, hc, _⟩ | ⟨hsame, _⟩
        · cases hc
        · exact hsame.symm
      · exact h.apart i a ha hcleans j b hb
          (Attempt.publishes_of_fencedBy hpublishes (Submission.fencedBy_of_change (by rintro _ _ _ _ ⟨⟩)))

/-- **What a run records is in storage**, as it is recorded, in every run of any number of attempts in which no clean-up
    overlaps with the copies of an attempt that holds the job. -/
theorem artifacts_intact (sha : Sha256) (orgPublicId runPublicId : String) (o : PublishedBytes) (backend : Backend)
    (now : Instant) (actions : List WorkerAction)
    (hunraced : Meets (step backend (publication sha orgPublicId runPublicId o))
      (fun s action => s.cleanUpRaced action = false) (initial now) actions) :
    (run (step backend (publication sha orgPublicId runPublicId o)) (initial now) actions).Intact sha := by
  have hinitial : ArtifactsKept (publication sha orgPublicId runPublicId o) (initial now) := by
    refine ⟨fun i a ha => ?_, fun i a ha => ?_, fun artifacts hartifacts => ?_⟩
    · cases ha
    · cases ha
    · cases hartifacts
  have hkept := run_invariant (step backend (publication sha orgPublicId runPublicId o))
    (I := ArtifactsKept (publication sha orgPublicId runPublicId o)) (fun _ _ => artifactsKept_step) hinitial hunraced
  intro artifacts hartifacts m hm
  obtain ⟨rfl, hstored⟩ := hkept.result artifacts hartifacts
  obtain ⟨f, hf, rfl⟩ := List.mem_map.mp hm
  obtain ⟨hsize, hsha⟩ := publication_metadata hf
  exact ⟨f.content, hstored f hf, hsize, hsha⟩

/-- The digest of the empty content. -/
def emptySha : Sha256 where
  digest _ := [0xe3, 0xb0, 0xc4, 0x42, 0x98, 0xfc, 0x1c, 0x14, 0x9a, 0xfb, 0xf4, 0xc8, 0x99, 0x6f, 0xb9, 0x24, 0x27, 0xae,
    0x41, 0xe4, 0x64, 0x9b, 0x93, 0x4c, 0xa4, 0x95, 0x99, 0x1b, 0x78, 0x52, 0xb8, 0x55]
  length_digest _ := rfl

def emptyFiles : Publication := publication emptySha "org_1" "run_1" ⟨[], [], []⟩

/-- An attempt loses its lease after its first copy. It has cleaned up when the next one copies and commits, and
    cleans up in its turn. -/
def takenOver : List WorkerAction :=
  [.claim "w" "t" 60 0, .attempt 0 (.promote .answered "") 1, .claim "v" "u" 60 100,
    .attempt 0 (.raise .jobFencing) 101, .attempt 0 (.lookUp true) 102, .attempt 0 (.delete true) 103,
    .attempt 0 (.delete true) 104, .attempt 1 (.promote .answered "") 105, .attempt 1 (.promote .answered "") 106,
    .attempt 1 (.promote .answered "") 107, .attempt 1 .checkCancellation 108, .attempt 1 (.commit .answered "") 109,
    .attempt 1 (.lookUp true) 110, .attempt 1 (.delete true) 111]

theorem artifacts_intact_takenOver :
    (run (step .postgres emptyFiles) (initial 0) takenOver).Intact emptySha ∧
      (run (step .postgres emptyFiles) (initial 0) takenOver).submission.result.isSome = true :=
  ⟨artifacts_intact emptySha "org_1" "run_1" ⟨[], [], []⟩ .postgres 0 takenOver (by decide +kernel), by decide +kernel⟩

end JobExecution

end Untangle
