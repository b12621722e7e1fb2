import Untangle.Correctness.Lifecycle
import Untangle.Correctness.Tenancy

/-!
# `Correctness.History` — what is stored is not taken back

The tables only grow: no row of a run goes, no audit event changes or goes, and what hangs on a run is added to but not
replaced (`HistoryKept`). A run that is completed or deleted keeps its row, and no run that is under legal hold is
deleted. Reviewers and auditors change nothing at all.
-/

namespace Untangle

open Lib

/-! ## One run -/

/-- What becomes of the records of a run. -/
structure RecordsKept (d d' : RunRecords) : Prop where
  completed : d.row.val.status = .completed → d'.row = d.row ∧ d'.hashes = d.hashes
  result : ∀ result, d.result = some result → d'.result = some result
  certificate : ∀ certificate, d.certificate = some certificate → d'.certificate = some certificate
  investigations : d.investigations <+: d'.investigations
  files : d.files <+: d'.files
  artifacts : d.artifacts <+: d'.artifacts

/-- What becomes of the row of a run. -/
structure RunKept (r r' : StoredRun) : Prop where
  publicId : r'.publicId = r.publicId
  createdBy : r'.createdByPrincipalId = r.createdByPrincipalId
  configJson : r'.configJson = r.configJson
  records : RecordsKept r.records r'.records
  deleted : r.isDeleted = true → r'.isDeleted = true ∧ r'.deletedAt = r.deletedAt ∧ r'.legalHold = r.legalHold ∧
    r'.records.row = r.records.row ∧ r'.records.hashes = r.records.hashes
  /-- A run is deleted only when it is not under legal hold. -/
  held : (r.isDeleted = true → r.legalHold = false) → r'.isDeleted = true → r'.legalHold = false

theorem RecordsKept.refl (d : RunRecords) : RecordsKept d d :=
  ⟨fun _ => ⟨rfl, rfl⟩, fun _ h => h, fun _ h => h, List.prefix_rfl, List.prefix_rfl, List.prefix_rfl⟩

theorem RecordsKept.trans {d d' d'' : RunRecords} (h : RecordsKept d d') (h' : RecordsKept d' d'') :
    RecordsKept d d'' where
  completed := by
    intro hcompleted
    obtain ⟨hrow, hhashes⟩ := h.completed hcompleted
    obtain ⟨hrow', hhashes'⟩ := h'.completed (hrow ▸ hcompleted)
    exact ⟨hrow'.trans hrow, hhashes'.trans hhashes⟩
  result := fun result hresult => h'.result result (h.result result hresult)
  certificate := fun certificate hcertificate => h'.certificate certificate (h.certificate certificate hcertificate)
  investigations := h.investigations.trans h'.investigations
  files := h.files.trans h'.files
  artifacts := h.artifacts.trans h'.artifacts

theorem RunKept.refl (r : StoredRun) : RunKept r r :=
  ⟨rfl, rfl, rfl, .refl _, fun h => ⟨h, rfl, rfl, rfl, rfl⟩, fun h => h⟩

theorem RunKept.trans {r r' r'' : StoredRun} (h : RunKept r r') (h' : RunKept r' r'') : RunKept r r'' where
  publicId := h'.publicId.trans h.publicId
  createdBy := h'.createdBy.trans h.createdBy
  configJson := h'.configJson.trans h.configJson
  records := h.records.trans h'.records
  deleted := by
    intro hdeleted
    obtain ⟨hdeleted', hat, hhold, hrow, hhashes⟩ := h.deleted hdeleted
    obtain ⟨hdeleted'', hat', hhold', hrow', hhashes'⟩ := h'.deleted hdeleted'
    exact ⟨hdeleted'', hat'.trans hat, hhold'.trans hhold, hrow'.trans hrow, hhashes'.trans hhashes⟩
  held := fun hheld => h'.held (h.held hheld)

/-- A run that only gets other records. -/
theorem RunKept.of_records {r : StoredRun} {records : RunRecords} {certificatePublicId : Option String}
    (hrecords : RecordsKept r.records records)
    (hrow : r.isDeleted = true → records.row = r.records.row ∧ records.hashes = r.records.hashes) :
    RunKept r { r with records := records, certificatePublicId := certificatePublicId } :=
  ⟨rfl, rfl, rfl, hrecords, fun h => ⟨h, rfl, rfl, hrow h⟩, fun h => h⟩

/-! ## The functions on its records -/

section Records

variable {sha256 : String → String} {role : Role} {d d' : RunRecords} {o : RunRecords.EngineOutput} {now : Instant}

theorem recordsKept_completeRun {hashes : RunHashes} (h : d.completeRun role hashes now = .ok d') :
    RecordsKept d d' := by
  obtain ⟨_, heq⟩ := RunRecords.completeRun_eq_ok h
  rw [heq]
  refine ⟨fun hcompleted => ?_, fun _ h => h, fun _ h => h, List.prefix_rfl, List.prefix_rfl, List.prefix_rfl⟩
  rw [RunRecords.completeRun_terminal h (Or.inl hcompleted)]
  exact ⟨rfl, rfl⟩

theorem recordsKept_failRun {code summary : String} (h : d.failRun role code summary now = .ok d') :
    RecordsKept d d' := by
  rcases RunRecords.failRun_eq_ok h with ⟨_, rfl⟩ | ⟨hstatus, _, _, heq⟩
  · exact .refl _
  · rw [heq]
    exact ⟨fun hcompleted => absurd hcompleted hstatus, fun _ h => h, fun _ h => h, List.prefix_rfl, List.prefix_rfl,
      List.prefix_rfl⟩

/-- What `save_…` does: nothing of the row, and something more of the rest. -/
structure OnlyAdds (d d' : RunRecords) : Prop where
  kept : RecordsKept d d'
  row : d'.row = d.row ∧ d'.hashes = d.hashes

theorem onlyAdds_saveResult (h : d.saveResult sha256 role o = .ok d') : OnlyAdds d d' := by
  have hnone : d.result = none := by
    have h := (bind_unit_eq_ok.mp h).2
    split at h
    · cases h
    · split at h
      · cases h
      · rename_i hsome
        exact Option.not_isSome_iff_eq_none.mp hsome
  rw [RunRecords.saveResult_eq_ok h]
  refine ⟨⟨fun _ => ⟨rfl, rfl⟩, fun result hresult => ?_, fun _ h => h, List.prefix_rfl, List.prefix_rfl,
    List.prefix_rfl⟩, rfl, rfl⟩
  rw [hnone] at hresult
  cases hresult

theorem onlyAdds_saveCertificate (h : d.saveCertificate role o = .ok d') : OnlyAdds d d' := by
  have hnone : d.certificate = none := by
    have h := (bind_unit_eq_ok.mp h).2
    split at h
    · cases h
    · rename_i hsome
      exact Option.not_isSome_iff_eq_none.mp hsome
  rw [RunRecords.saveCertificate_eq_ok h]
  refine ⟨⟨fun _ => ⟨rfl, rfl⟩, fun _ h => h, fun certificate hcertificate => ?_, List.prefix_rfl, List.prefix_rfl,
    List.prefix_rfl⟩, rfl, rfl⟩
  rw [hnone] at hcertificate
  cases hcertificate

theorem onlyAdds_saveInvestigations (h : d.saveInvestigations role o = .ok d') : OnlyAdds d d' := by
  rw [RunRecords.saveInvestigations_eq_ok h]
  exact ⟨⟨fun _ => ⟨rfl, rfl⟩, fun _ h => h, fun _ h => h, List.prefix_append _ _, List.prefix_rfl, List.prefix_rfl⟩,
    rfl, rfl⟩

theorem onlyAdds_saveUploadedFileMetadata {file : UploadedFileMetadata}
    (h : d.saveUploadedFileMetadata role file = .ok d') : OnlyAdds d d' := by
  rw [RunRecords.saveUploadedFileMetadata_eq_ok h]
  exact ⟨⟨fun _ => ⟨rfl, rfl⟩, fun _ h => h, fun _ h => h, List.prefix_rfl, List.prefix_append _ _, List.prefix_rfl⟩,
    rfl, rfl⟩

theorem onlyAdds_saveArtifactMetadata {m : OutputMetadata} (h : d.saveArtifactMetadata role m = .ok d') :
    OnlyAdds d d' := by
  rw [RunRecords.saveArtifactMetadata_eq_ok h]
  exact ⟨⟨fun _ => ⟨rfl, rfl⟩, fun _ h => h, fun _ h => h, List.prefix_rfl, List.prefix_rfl, List.prefix_append _ _⟩,
    rfl, rfl⟩

end Records

/-! ## The tables -/

/-- What becomes of the tables. -/
structure HistoryKept (d e : TenantDatabase) : Prop where
  runs : ∀ (i : Nat) (r : TenantRow StoredRun), d.runs.rows[i]? = some r → ∃ columns, RunKept r.columns columns ∧
    e.runs.rows[i]? = some { r with columns := columns }
  events : d.events <+: e.events
  publicIds : d.publicIds <+: e.publicIds

theorem HistoryKept.refl (d : TenantDatabase) : HistoryKept d d :=
  ⟨fun _ r hr => ⟨r.columns, .refl _, hr⟩, List.prefix_rfl, List.prefix_rfl⟩

theorem HistoryKept.trans {c d e : TenantDatabase} (h : HistoryKept c d) (h' : HistoryKept d e) : HistoryKept c e where
  runs := by
    intro i r hr
    obtain ⟨columns, hkept, hr'⟩ := h.runs i r hr
    obtain ⟨columns', hkept', hr''⟩ := h'.runs i _ hr'
    exact ⟨columns', hkept.trans hkept', hr''⟩
  events := h.events.trans h'.events
  publicIds := h.publicIds.trans h'.publicIds

/-- A row of the table is found under its id only. -/
theorem RunTable.eq_of_id (table : RunTable) {r r' : TenantRow StoredRun} (hr : r ∈ table.rows) (hr' : r' ∈ table.rows)
    (hid : r.id = r'.id) : r = r' := List.inj_on_of_nodup_map table.nodup hr hr' hid

/-- The row of a run is written. -/
theorem historyKept_update {d : TenantDatabase} {row : TenantRow StoredRun} (hrow : row ∈ d.runs.rows) (org : ℤ)
    {f : StoredRun → StoredRun} (hkept : RunKept row.columns (f row.columns)) {publicIds : List String}
    (hids : d.publicIds <+: publicIds) :
    HistoryKept d { d with runs := d.runs.update org row.id f, publicIds := publicIds } := by
  refine ⟨fun i r hr => ?_, List.prefix_rfl, hids⟩
  have hget : (d.runs.update org row.id f).rows[i]? =
      some (if r.organisationId = org ∧ r.id = row.id then { r with columns := f r.columns } else r) := by
    rw [TenantContext.rows_update, changeRows, List.getElem?_map, hr]
    rfl
  by_cases hhere : r.organisationId = org ∧ r.id = row.id
  · obtain rfl := d.runs.eq_of_id (List.mem_of_getElem? hr) hrow hhere.2
    rw [if_pos hhere] at hget
    exact ⟨_, hkept, hget⟩
  · rw [if_neg hhere] at hget
    exact ⟨_, .refl _, hget⟩

theorem mem_of_find?_scoped {org : ℤ} {rows : List (TenantRow StoredRun)} {p : TenantRow StoredRun → Bool}
    {row : TenantRow StoredRun} (h : (scopedSelect org rows).find? p = some row) : row ∈ rows ∧ p row = true :=
  ⟨(List.mem_filter.mp (List.mem_of_find?_eq_some h)).1, List.find?_some h⟩

/-! ## Programs -/

/-- A program adds to the history. -/
abbrev Adds {α : Type} (m : TenantTx α) : Prop :=
  Respects (fun _ _ => False) (fun s t : TenantSession => HistoryKept s.database t.database) m

section Rules

variable {α β : Type}

theorem Adds.of_frame {m : TenantTx α} (h : ∀ s a s', m.run s = .ok (a, s') → HistoryKept s.database s'.database) :
    Adds m := ⟨fun _ _ h => h.elim, h⟩

theorem Adds.pure (a : α) : Adds (pure a : TenantTx α) := Respects.pure (fun _ => .refl _) a

theorem Adds.bind {m : TenantTx α} {f : α → TenantTx β} (hm : Adds m) (hf : ∀ a, Adds (f a)) : Adds (m >>= f) :=
  Respects.bind (fun _ _ _ h h' => h.trans h') hm hf

theorem Adds.ask (f : TenantSession → α) : Adds (Lib.ask f : TenantTx α) :=
  Respects.ask (fun _ => .refl _) fun _ _ h => h.elim

theorem Adds.lift (x : Except RepositoryError α) : Adds (liftM x : TenantTx α) := Respects.lift (fun _ => .refl _) x

end Rules

namespace TenantContext

variable {α : Type} {context : TenantContext}

theorem adds_insertWithPublicIdRetry {idPrefix : String} {insert : Insertion} {attempts : Nat}
    (hinsert : ∀ draw publicId d d', insert draw publicId d = .ok d' →
      HistoryKept d { d' with publicIds := d.publicIds ++ [publicId] }) :
    Adds (insertWithPublicIdRetry idPrefix insert attempts) :=
  Adds.of_frame fun _ _ _ h => insertWithPublicIdRetry_frame hinsert h

theorem adds_createRun (configJson : String) (startedAt : Option Timestamp) (now : Timestamp) :
    Adds (context.createRun configJson startedAt now) := by
  refine (Adds.lift _).bind fun _ =>
    Adds.bind (adds_insertWithPublicIdRetry fun draw publicId d d' h => ?_) fun _ => Adds.pure _
  unfold insertRun at h
  dsimp only at h
  split at h
  · obtain rfl := Except.ok.inj h
    refine ⟨fun i r hr => ⟨r.columns, .refl _, ?_⟩, List.prefix_rfl, List.prefix_append _ _⟩
    exact (List.getElem?_append_left (List.getElem?_eq_some_iff.mp hr).1).trans hr
  · cases h

theorem adds_appendAuditEvent (eventType subjectType subjectPublicId : String) (metadata : Json)
    (requestId : Option String) (now : Timestamp) :
    Adds (context.appendAuditEvent eventType subjectType subjectPublicId metadata requestId now) := by
  unfold appendAuditEvent
  split
  · exact Respects.throw _
  · refine (Adds.lift _).bind fun _ =>
      Adds.bind (adds_insertWithPublicIdRetry fun draw publicId d d' h => ?_) fun _ => Adds.pure _
    obtain rfl := Except.ok.inj h
    exact ⟨fun _ r hr => ⟨r.columns, .refl _, hr⟩, List.prefix_append _ _, List.prefix_append _ _⟩

theorem adds_insertRecord {idPrefix : String} {runId : ℤ} {f : String → StoredRun → Except ServiceError StoredRun}
    (hf : ∀ publicId columns columns', f publicId columns = .ok columns' → RunKept columns columns') {attempts : Nat} :
    Adds (insertWithPublicIdRetry idPrefix (context.insertRecord runId f) attempts) := by
  refine adds_insertWithPublicIdRetry fun draw publicId d d' h => ?_
  unfold insertRecord at h
  split at h
  · cases h
  · rename_i row hfound
    obtain ⟨hrow, hid⟩ := mem_of_find?_scoped hfound
    obtain rfl := of_decide_eq_true hid
    split at h
    · cases h
    · rename_i columns hcolumns
      obtain rfl := Except.ok.inj h
      exact historyKept_update (f := fun _ => columns) hrow _ (hf publicId _ _ hcolumns) (List.prefix_append _ _)

theorem adds_saveRecord {idPrefix : String} {runId : ℤ} {f : RunRecords → Except ServiceError RunRecords}
    (hf : ∀ d d', f d = .ok d' → OnlyAdds d d') : Adds (context.saveRecord idPrefix runId f) := by
  refine Adds.bind (adds_insertRecord fun publicId columns columns' h => ?_) fun _ => Adds.pure _
  obtain ⟨records, hrecords, rfl⟩ := map_eq_ok.mp h
  have hadds := hf _ _ hrecords
  exact .of_records hadds.kept fun _ => hadds.row

theorem adds_findRun (key : RunKey) : Adds (context.findRun key) := (Adds.ask _).bind fun _ => Adds.pure _

/-- A program on a run that is found, and not deleted. -/
theorem adds_found {key : RunKey} {f : TenantRow StoredRun → TenantTx α} {none : TenantTx α} (hnone : Adds none)
    (hf : ∀ row s a s', row ∈ s.database.runs.rows → row.columns.isDeleted = false → key.matches row = true →
      (f row).run s = .ok (a, s') → HistoryKept s.database s'.database) :
    Adds (context.findRun key >>= fun found => match found with
      | .none => none
      | some row => f row) := by
  refine Adds.of_frame fun s a s' h => ?_
  change StateT.run (match ((scopedSelect context.organisationId s.database.runs.rows).filter
    fun r => !r.columns.isDeleted).find? key.matches with
    | .none => none
    | some row => f row) s = _ at h
  split at h
  · exact hnone.frame _ _ _ h
  · rename_i row hfound
    obtain ⟨hscoped, hvisible⟩ := List.mem_filter.mp (List.mem_of_find?_eq_some hfound)
    exact hf row s a s' (List.mem_filter.mp hscoped).1 (by simpa using hvisible) (List.find?_some hfound) h

/-- A run that is not deleted gets other records. -/
theorem adds_changeRun {runId : ℤ} {f : RunRecords → Except ServiceError RunRecords}
    (hf : ∀ d d', f d = .ok d' → RecordsKept d d') : Adds (context.changeRun runId f) := by
  refine adds_found (Respects.throw _) fun row s a s' hrow hvisible hkey h => ?_
  obtain rfl : row.id = runId := by simpa [RunKey.matches] using hkey
  rw [StateT.run_bind] at h
  cases hrecords : f row.columns.records with
  | error error =>
      rw [hrecords] at h
      cases h
  | ok records =>
      rw [hrecords] at h
      obtain ⟨_, rfl⟩ := Prod.mk.inj (Except.ok.inj h)
      refine historyKept_update (f := fun columns => { columns with records := records }) hrow _
        (.of_records (hf _ _ hrecords) fun hdeleted => ?_) List.prefix_rfl
      rw [hvisible] at hdeleted
      cases hdeleted

theorem adds_softDeleteRun (publicId : String) (now : Timestamp) : Adds (context.softDeleteRun publicId now) := by
  refine (Adds.lift _).bind fun _ => adds_found (Adds.pure _) fun row s a s' hrow hvisible _ h => ?_
  by_cases hheld : row.columns.legalHold = true
  · rw [if_pos hheld] at h
    cases h
  · rw [if_neg hheld, StateT.run_bind] at h
    have hkept : RunKept row.columns { row.columns with isDeleted := true, deletedAt := some now.instant } := by
      refine ⟨rfl, rfl, rfl, .refl _, fun hdeleted => ?_, fun _ _ => Bool.eq_false_iff.mpr hheld⟩
      rw [hvisible] at hdeleted
      cases hdeleted
    exact (historyKept_update (f := fun columns => { columns with isDeleted := true, deletedAt := some now.instant })
      hrow context.organisationId hkept List.prefix_rfl).trans
      (((adds_appendAuditEvent _ _ _ _ _ _).bind fun _ => Adds.pure _).frame _ _ _ h)

theorem adds_setRunLegalHold (publicId : String) (legalHold : Bool) (now : Timestamp) :
    Adds (context.setRunLegalHold publicId legalHold now) := by
  refine (Adds.lift _).bind fun _ => adds_found (Respects.throw _) fun row s a s' hrow hvisible _ h => ?_
  rw [StateT.run_bind] at h
  have hkept : RunKept row.columns { row.columns with legalHold := legalHold } := by
    refine ⟨rfl, rfl, rfl, .refl _, fun hdeleted => ?_, fun _ hdeleted => ?_⟩
    · rw [hvisible] at hdeleted
      cases hdeleted
    · change row.columns.isDeleted = true at hdeleted
      rw [hvisible] at hdeleted
      cases hdeleted
  exact (historyKept_update (f := fun columns => { columns with legalHold := legalHold }) hrow context.organisationId
    hkept List.prefix_rfl).trans ((adds_appendAuditEvent _ _ _ _ _ _).frame _ _ _ h)

theorem adds_saveInvestigations (runId : ℤ) (o : RunRecords.EngineOutput) :
    Adds (context.saveInvestigations runId o) := by
  refine (Adds.lift _).bind fun _ =>
    Respects.forM (fun _ => .refl _) (fun _ _ _ h h' => h.trans h') (fun case => ?_) _
  exact adds_saveRecord fun _ _ => onlyAdds_saveInvestigations

theorem adds_saveCertificate (runId : ℤ) (o : RunRecords.EngineOutput) : Adds (context.saveCertificate runId o) := by
  refine (Adds.lift _).bind fun _ => Adds.bind (adds_insertRecord fun publicId columns columns' h => ?_) fun _ =>
    Adds.pure _
  obtain ⟨records, hrecords, rfl⟩ := map_eq_ok.mp h
  have hadds := onlyAdds_saveCertificate hrecords
  exact .of_records hadds.kept fun _ => hadds.row

end TenantContext

/-! ## Whole runs -/

namespace TenantAction

variable (sha256 : String → String)

theorem adds_program (a : TenantAction) : Adds (a.program sha256) := by
  unfold program
  cases a.operation with
  | createRun => exact (TenantContext.adds_createRun _ _ _).bind fun _ => Adds.pure _
  | getRun => exact (TenantContext.adds_findRun _).bind fun _ => Adds.pure _
  | listRuns => exact (((Adds.ask _).bind fun _ => Adds.pure _).bind fun _ => Adds.pure _).bind fun _ => Adds.pure _
  | listRunsCursor =>
      exact (((Adds.ask _).bind fun _ => Adds.pure _).bind fun _ => Adds.lift _).bind fun _ => Adds.pure _
  | completeRun =>
      exact ((Adds.lift _).bind fun _ => TenantContext.adds_changeRun fun _ _ => recordsKept_completeRun).bind fun _ =>
        (TenantContext.adds_findRun _).bind fun _ => Adds.pure _
  | failRun =>
      exact ((Adds.lift _).bind fun _ => TenantContext.adds_changeRun fun _ _ => recordsKept_failRun).bind fun _ =>
        (TenantContext.adds_findRun _).bind fun _ => Adds.pure _
  | softDeleteRun => exact (TenantContext.adds_softDeleteRun _ _).bind fun _ => Adds.pure _
  | setRunLegalHold =>
      exact (TenantContext.adds_setRunLegalHold _ _ _).bind fun _ =>
        (TenantContext.adds_findRun _).bind fun _ => Adds.pure _
  | saveResult =>
      refine ((Adds.lift _).bind fun _ => Respects.ite (Respects.throw _) ?_).bind fun _ => Adds.pure _
      exact TenantContext.adds_saveRecord fun _ _ => onlyAdds_saveResult
  | getResult => exact ((Adds.ask _).bind fun _ => Adds.pure _).bind fun _ => Adds.pure _
  | saveCertificate => exact (TenantContext.adds_saveCertificate _ _).bind fun _ => Adds.pure _
  | getCertificate => exact ((Adds.ask _).bind fun _ => Adds.pure _).bind fun _ => Adds.pure _
  | getCertificateByPublicId => exact (Adds.ask _).bind fun _ => Adds.pure _
  | saveInvestigations => exact (TenantContext.adds_saveInvestigations _ _).bind fun _ => Adds.pure _
  | listInvestigations => exact ((Adds.ask _).bind fun _ => Adds.pure _).bind fun _ => Adds.pure _
  | saveUploadedFile =>
      refine ((Adds.lift _).bind fun _ => ?_).bind fun _ => Adds.pure _
      exact TenantContext.adds_saveRecord fun _ _ => onlyAdds_saveUploadedFileMetadata
  | listUploadedFiles => exact ((Adds.ask _).bind fun _ => Adds.pure _).bind fun _ => Adds.pure _
  | saveArtifact =>
      refine ((Adds.lift _).bind fun _ => ?_).bind fun _ => Adds.pure _
      exact TenantContext.adds_saveRecord fun _ _ => onlyAdds_saveArtifactMetadata
  | listArtifacts => exact ((Adds.ask _).bind fun _ => Adds.pure _).bind fun _ => Adds.pure _
  | getArtifactByType => exact ((Adds.ask _).bind fun _ => Adds.pure _).bind fun _ => Adds.pure _
  | appendAuditEvent => exact (TenantContext.adds_appendAuditEvent _ _ _ _ _ _).bind fun _ => Adds.pure _
  | listAuditEvents => exact ((Adds.ask _).bind fun _ => Adds.pure _).bind fun _ => Adds.pure _

theorem historyKept_perform (a : TenantAction) (database : TenantDatabase) :
    HistoryKept database (a.perform sha256 database).2 := by
  unfold perform
  split
  · rename_i answer s hrun
    exact (adds_program sha256 a).frame _ _ _ hrun
  · exact .refl _

end TenantAction

/-- **What is stored is not taken back**, by any operations of any organisations in any order. -/
theorem history_kept (sha256 : String → String) (database : TenantDatabase) (actions : List TenantAction) :
    HistoryKept database (run (performed (TenantAction.perform sha256)) database actions) := by
  induction actions generalizing database with
  | nil => exact .refl _
  | cons a actions ih => exact (TenantAction.historyKept_perform sha256 a database).trans (ih _)

/-! ## Reviewers and auditors -/

/-- Who may inspect the evidence but change nothing. -/
def Role.reads (role : Role) : Bool := role = .reviewer || role = .auditor

theorem requireRunMutation_reads {role : Role} (h : role.reads = true) (action : String) :
    ∃ error, requireRunMutation role action = .error error := by
  unfold requireRunMutation
  cases hallowed : runPermissions action with
  | none => exact ⟨_, rfl⟩
  | some allowed =>
      obtain ⟨rows, rows', hrows, -⟩ := List.lookup_eq_some_iff.mp hallowed
      have hmem : (action, allowed) ∈ rows ++ (action, allowed) :: rows' :=
        List.mem_append_right _ List.mem_cons_self
      rw [← hrows] at hmem
      refine ⟨.permission, if_neg ?_⟩
      simp only [List.mem_cons, Prod.mk.injEq, List.not_mem_nil, or_false] at hmem
      rcases hmem with ⟨-, rfl⟩ | ⟨-, rfl⟩ | ⟨-, rfl⟩ | ⟨-, rfl⟩ | ⟨-, rfl⟩ | ⟨-, rfl⟩ <;>
        cases role <;> first | decide | cases h

def SameDatabase (s s' : TenantSession) : Prop := s'.database = s.database

theorem SameDatabase.refl (s : TenantSession) : SameDatabase s s := Eq.refl s.database

theorem SameDatabase.trans (s t u : TenantSession) (h : SameDatabase s t) (h' : SameDatabase t u) : SameDatabase s u :=
  Eq.trans h' h

/-- A program that does not write. -/
abbrev ReadOnly {α : Type} (m : TenantTx α) : Prop := Respects Eq SameDatabase m

section ReadOnly

variable {α β : Type}

theorem ReadOnly.bind {m : TenantTx α} {f : α → TenantTx β} (hm : ReadOnly m) (hf : ∀ a, ReadOnly (f a)) :
    ReadOnly (m >>= f) :=
  Respects.bind SameDatabase.trans hm hf

theorem ReadOnly.pure (a : α) : ReadOnly (pure a : TenantTx α) := Respects.pure SameDatabase.refl a

theorem ReadOnly.ask (f : TenantSession → α) : ReadOnly (ask f) :=
  Respects.ask SameDatabase.refl fun _ _ h => congrArg f h

theorem ReadOnly.lift (x : Except RepositoryError α) : ReadOnly (liftM x : TenantTx α) :=
  Respects.lift SameDatabase.refl x

/-- What a reader may not do is not begun. -/
theorem ReadOnly.require {context : TenantContext} (h : context.role.reads = true) (action : String)
    (f : Unit → TenantTx α) : ReadOnly (context.require action >>= f) := by
  obtain ⟨error, herror⟩ := requireRunMutation_reads h action
  have hthrow : context.require action >>= f = throw (.service error) := by
    rw [TenantContext.require, herror]
    rfl
  rw [hthrow]
  exact Respects.throw _

end ReadOnly

namespace TenantContext

variable {context : TenantContext} (h : context.role.reads = true)

theorem readOnly_allRuns : ReadOnly context.allRuns := ReadOnly.ask _

theorem readOnly_selectRuns : ReadOnly context.selectRuns := readOnly_allRuns.bind fun _ => ReadOnly.pure _

theorem readOnly_findRun (key : RunKey) : ReadOnly (context.findRun key) :=
  readOnly_selectRuns.bind fun _ => ReadOnly.pure _

theorem readOnly_recordsOf (runId : ℤ) : ReadOnly (context.recordsOf runId) :=
  readOnly_allRuns.bind fun _ => ReadOnly.pure _

include h in
theorem readOnly_appendAuditEvent (eventType subjectType subjectPublicId : String) (metadata : Json)
    (requestId : Option String) (now : Timestamp) :
    ReadOnly (context.appendAuditEvent eventType subjectType subjectPublicId metadata requestId now) := by
  unfold appendAuditEvent
  cases RunRecords.actionOf eventType with
  | none => exact Respects.throw _
  | some action => exact ReadOnly.require h action _

end TenantContext

namespace TenantAction

variable (sha256 : String → String)

theorem readOnly_program {a : TenantAction} (h : a.context.role.reads = true) : ReadOnly (a.program sha256) := by
  unfold program
  cases a.operation with
  | createRun => exact (ReadOnly.require h _ _).bind fun _ => ReadOnly.pure _
  | getRun => exact (TenantContext.readOnly_findRun _).bind fun _ => ReadOnly.pure _
  | listRuns => exact (TenantContext.readOnly_selectRuns.bind fun _ => ReadOnly.pure _).bind fun _ => ReadOnly.pure _
  | listRunsCursor =>
      exact (TenantContext.readOnly_selectRuns.bind fun _ => ReadOnly.lift _).bind fun _ => ReadOnly.pure _
  | completeRun =>
      exact (ReadOnly.require h _ _).bind fun _ => (TenantContext.readOnly_findRun _).bind fun _ => ReadOnly.pure _
  | failRun =>
      exact (ReadOnly.require h _ _).bind fun _ => (TenantContext.readOnly_findRun _).bind fun _ => ReadOnly.pure _
  | softDeleteRun => exact (ReadOnly.require h _ _).bind fun _ => ReadOnly.pure _
  | setRunLegalHold =>
      exact (ReadOnly.require h _ _).bind fun _ => (TenantContext.readOnly_findRun _).bind fun _ => ReadOnly.pure _
  | saveResult => exact (ReadOnly.require h _ _).bind fun _ => ReadOnly.pure _
  | getResult => exact (TenantContext.readOnly_recordsOf _).bind fun _ => ReadOnly.pure _
  | saveCertificate => exact (ReadOnly.require h _ _).bind fun _ => ReadOnly.pure _
  | getCertificate => exact (TenantContext.readOnly_recordsOf _).bind fun _ => ReadOnly.pure _
  | getCertificateByPublicId => exact TenantContext.readOnly_allRuns.bind fun _ => ReadOnly.pure _
  | saveInvestigations => exact (ReadOnly.require h _ _).bind fun _ => ReadOnly.pure _
  | listInvestigations => exact (TenantContext.readOnly_recordsOf _).bind fun _ => ReadOnly.pure _
  | saveUploadedFile => exact (ReadOnly.require h _ _).bind fun _ => ReadOnly.pure _
  | listUploadedFiles => exact (TenantContext.readOnly_recordsOf _).bind fun _ => ReadOnly.pure _
  | saveArtifact => exact (ReadOnly.require h _ _).bind fun _ => ReadOnly.pure _
  | listArtifacts => exact (TenantContext.readOnly_recordsOf _).bind fun _ => ReadOnly.pure _
  | getArtifactByType => exact (TenantContext.readOnly_recordsOf _).bind fun _ => ReadOnly.pure _
  | appendAuditEvent =>
      exact (TenantContext.readOnly_appendAuditEvent h _ _ _ _ _ _).bind fun _ => ReadOnly.pure _
  | listAuditEvents => exact ((ReadOnly.ask _).bind fun _ => ReadOnly.pure _).bind fun _ => ReadOnly.pure _

theorem perform_reads {a : TenantAction} (h : a.context.role.reads = true) (database : TenantDatabase) :
    (a.perform sha256 database).2 = database := by
  unfold perform
  split
  · rename_i answer s hrun
    exact (readOnly_program sha256 h).frame _ _ _ hrun
  · rfl

/-- Those that are not of reviewers and auditors. -/
def others (actions : List TenantAction) : List TenantAction := actions.filter fun a => !a.context.role.reads

end TenantAction

/-- **Reviewers and auditors leave no trace.** Any run ends in the database that it ends in without them. -/
theorem readers_leave_no_trace (sha256 : String → String) (database : TenantDatabase) (actions : List TenantAction) :
    run (performed (TenantAction.perform sha256)) database actions =
      run (performed (TenantAction.perform sha256)) database (TenantAction.others actions) := by
  induction actions generalizing database with
  | nil => rfl
  | cons a actions ih =>
      cases hreads : a.context.role.reads with
      | true =>
          have hothers : TenantAction.others (a :: actions) = TenantAction.others actions :=
            List.filter_cons_of_neg (by simp [hreads])
          have hstep : performed (TenantAction.perform sha256) database a = database :=
            TenantAction.perform_reads sha256 hreads database
          rw [hothers, ← ih, run_cons, hstep]
      | false =>
          have hothers : TenantAction.others (a :: actions) = a :: TenantAction.others actions :=
            List.filter_cons_of_pos (by simp [hreads])
          rw [hothers, run_cons, run_cons, ih]

end Untangle
