import Untangle.Persistence.Tenancy

/-!
# `Correctness.Tenancy` — no organisation notices another

Every statement of the repositories is on the rows of the organisation of its context. So an operation does the same in
two databases that agree on those rows (`AgreeFor`), and leaves the rows of all the others alone (`Confined`); what is
answered to an organisation in any run of operations is what it is answered without the others
(`tenants_isolated`). The one thing that the organisations share are the public ids: a token that another has drawn would
be drawn again, so the tokens are taken to be new.
-/

namespace Untangle

open Lib

/-! ## Rows -/

section Rows

variable {α : Type} {org other : ℤ} {table : List (TenantRow α)}

theorem scopedSelect_append (row : TenantRow α) :
    scopedSelect org (table ++ [row]) = scopedSelect org table ++ if row.organisationId = org then [row] else [] := by
  unfold scopedSelect
  rw [List.filter_append]
  congr 1
  by_cases h : row.organisationId = org
  · rw [if_pos h, List.filter_cons_of_pos (by simpa using h), List.filter_nil]
  · rw [if_neg h, List.filter_cons_of_neg (by simpa using h), List.filter_nil]

/-- A change of the rows of an organisation. -/
def changeRows (org runId : ℤ) (f : α → α) (table : List (TenantRow α)) : List (TenantRow α) :=
  table.map fun r => if r.organisationId = org ∧ r.id = runId then { r with columns := f r.columns } else r

theorem scopedSelect_changeRows (runId : ℤ) (f : α → α) :
    scopedSelect other (changeRows org runId f table) = changeRows org runId f (scopedSelect other table) := by
  unfold scopedSelect changeRows
  rw [List.filter_map]
  congr 1
  refine List.filter_congr fun r _ => ?_
  dsimp only [Function.comp]
  split <;> rfl

theorem map_id_changeRows (runId : ℤ) (f : α → α) :
    (changeRows org runId f table).map TenantRow.id = table.map TenantRow.id := by
  unfold changeRows
  rw [List.map_map]
  refine List.map_congr_left fun r _ => ?_
  dsimp only [Function.comp]
  split <;> rfl

theorem changeRows_other (hother : other ≠ org) (runId : ℤ) (f : α → α) :
    changeRows org runId f (scopedSelect other table) = scopedSelect other table := by
  unfold changeRows
  refine (List.map_congr_left fun r hr => if_neg ?_).trans (List.map_id _)
  rintro ⟨horg, _⟩
  exact hother ((of_decide_eq_true (List.mem_filter.mp hr).2).symm.trans horg)

end Rows

/-! ## The relations -/

/-- The surrogate ids of the runs. -/
def TenantDatabase.runIds (database : TenantDatabase) : List ℤ := database.runs.rows.map TenantRow.id

/-- What is drawn is new: no public id that is taken ends in a token, and no run has one of the ids. -/
structure FreshDraws (database : TenantDatabase) (draws : List Draw) : Prop where
  tokens : (draws.map Draw.token).Nodup
  unused : ∀ draw ∈ draws, ∀ publicId ∈ database.publicIds, ¬ draw.token.val.toList <:+ publicId.toList
  runIds : (draws.map Draw.runId).Nodup
  newRuns : ∀ draw ∈ draws, draw.runId ∉ database.runIds

instance (database : TenantDatabase) (draws : List Draw) : Decidable (FreshDraws database draws) :=
  decidable_of_iff (((draws.map Draw.token).Nodup ∧
      ∀ draw ∈ draws, ∀ publicId ∈ database.publicIds, ¬ draw.token.val.toList <:+ publicId.toList) ∧
      (draws.map Draw.runId).Nodup ∧ ∀ draw ∈ draws, draw.runId ∉ database.runIds)
    ⟨fun h => ⟨h.1.1, h.1.2, h.2.1, h.2.2⟩, fun h => ⟨⟨h.tokens, h.unused⟩, h.runIds, h.newRuns⟩⟩

/-- Two databases are the same for an organisation, and what is taken in the second is taken in the first. -/
structure SameFor (org : ℤ) (d e : TenantDatabase) : Prop where
  runs : scopedSelect org d.runs.rows = scopedSelect org e.runs.rows
  events : scopedSelect org d.events = scopedSelect org e.events
  publicIds : ∀ publicId ∈ e.publicIds, publicId ∈ d.publicIds
  runIds : ∀ id ∈ e.runIds, id ∈ d.runIds

/-- So are two sessions, which have the same draws before them. -/
structure AgreeFor (org : ℤ) (s t : TenantSession) : Prop where
  database : SameFor org s.database t.database
  draws : s.draws = t.draws
  fresh : FreshDraws s.database s.draws

/-- The rows of the other organisations are left alone, and what is taken stays so. -/
structure OthersKept (org : ℤ) (d e : TenantDatabase) : Prop where
  runs : ∀ other, other ≠ org → scopedSelect other e.runs.rows = scopedSelect other d.runs.rows
  events : ∀ other, other ≠ org → scopedSelect other e.events = scopedSelect other d.events
  publicIds : ∀ publicId ∈ d.publicIds, publicId ∈ e.publicIds
  runIds : ∀ id ∈ d.runIds, id ∈ e.runIds

def Confined (org : ℤ) (s t : TenantSession) : Prop := OthersKept org s.database t.database

/-- The program knows and changes what belongs to an organisation only. -/
abbrev Isolated (org : ℤ) {α : Type} (m : TenantTx α) : Prop := Respects (AgreeFor org) (Confined org) m

section Rules

variable {α β : Type} {org : ℤ}

theorem confined_refl (s : TenantSession) : Confined org s s :=
  ⟨fun _ _ => rfl, fun _ _ => rfl, fun _ h => h, fun _ h => h⟩

theorem confined_trans (s t u : TenantSession) (h : Confined org s t) (h' : Confined org t u) : Confined org s u where
  runs := fun other hother => (h'.runs other hother).trans (h.runs other hother)
  events := fun other hother => (h'.events other hother).trans (h.events other hother)
  publicIds := fun publicId hmem => h'.publicIds publicId (h.publicIds publicId hmem)
  runIds := fun id hmem => h'.runIds id (h.runIds id hmem)

theorem Isolated.pure (a : α) : Isolated org (pure a : TenantTx α) := Respects.pure confined_refl a

theorem Isolated.bind {m : TenantTx α} {f : α → TenantTx β} (hm : Isolated org m) (hf : ∀ a, Isolated org (f a)) :
    Isolated org (m >>= f) := Respects.bind confined_trans hm hf

/-- An answer that is made of what a program answers. -/
theorem Isolated.map {m : TenantTx α} (hm : Isolated org m) (f : α → β) :
    Isolated org (m >>= fun a => Pure.pure (f a)) := hm.bind fun a => Isolated.pure (f a)

theorem Isolated.lift (x : Except RepositoryError α) : Isolated org (liftM x : TenantTx α) :=
  Respects.lift confined_refl x

end Rules

/-! ## Statements -/

namespace TenantContext

variable {context : TenantContext}

theorem require_isolated (action : String) : Isolated context.organisationId (context.require action) :=
  Isolated.lift _

theorem allRuns_isolated : Isolated context.organisationId context.allRuns :=
  Respects.ask confined_refl fun _ _ h => h.database.runs

theorem selectRuns_isolated : Isolated context.organisationId context.selectRuns := allRuns_isolated.map _

theorem selectEvents_isolated : Isolated context.organisationId context.selectEvents :=
  Respects.ask confined_refl fun _ _ h => h.database.events

/-- What is left of fresh draws after one of them. -/
theorem freshDraws_cons {database : TenantDatabase} {draw : Draw} {draws : List Draw}
    (h : FreshDraws database (draw :: draws)) (idPrefix : String) :
    idPrefix ++ draw.token.val ∉ database.publicIds ∧
      ∀ inserted : TenantDatabase, (∀ id ∈ inserted.runIds, id ∈ database.runIds ∨ id = draw.runId) →
        FreshDraws { inserted with publicIds := database.publicIds ++ [idPrefix ++ draw.token.val] } draws := by
  have hsuffix : ∀ token : PublicToken, token.val.toList <:+ (idPrefix ++ draw.token.val).toList → token = draw.token := by
    intro token htoken
    rw [String.toList_append] at htoken
    have hlength : token.val.toList.length = draw.token.val.toList.length := token.2.trans draw.token.2.symm
    have hends := List.suffix_append idPrefix.toList draw.token.val.toList
    exact Subtype.ext (String.toList_injective
      ((List.suffix_of_suffix_length_le htoken hends hlength.le).eq_of_length hlength))
  obtain ⟨hnew, hnodup⟩ := List.nodup_cons.mp h.tokens
  obtain ⟨hnewId, hnodupIds⟩ := List.nodup_cons.mp h.runIds
  refine ⟨fun hmem => ?_, fun inserted hids => ⟨hnodup, fun other hother publicId hmem => ?_, hnodupIds, ?_⟩⟩
  · refine h.unused draw List.mem_cons_self _ hmem ?_
    rw [String.toList_append]
    exact List.suffix_append _ _
  · rcases List.mem_append.mp hmem with hold | hlast
    · exact h.unused other (List.mem_cons_of_mem _ hother) publicId hold
    · rw [List.mem_singleton.mp hlast]
      intro hends
      exact hnew (hsuffix other.token hends ▸ List.mem_map_of_mem hother)
  · intro other hother hmem
    rcases hids _ hmem with hold | hsame
    · exact h.newRuns other (List.mem_cons_of_mem _ hother) hold
    · exact hnewId (hsame ▸ List.mem_map_of_mem hother)

/-- An insertion knows and changes what belongs to an organisation only. -/
structure IsolatedInsertion (org : ℤ) (insert : Insertion) : Prop where
  same : ∀ draw publicId d e, SameFor org d e → draw.runId ∉ d.runIds →
    (∃ error, insert draw publicId d = .error error ∧ insert draw publicId e = .error error) ∨
      ∃ d' e', insert draw publicId d = .ok d' ∧ insert draw publicId e = .ok e' ∧
        scopedSelect org d'.runs.rows = scopedSelect org e'.runs.rows ∧
        scopedSelect org d'.events = scopedSelect org e'.events ∧
        (∀ id ∈ e'.runIds, id ∈ d'.runIds) ∧ ∀ id ∈ d'.runIds, id ∈ d.runIds ∨ id = draw.runId
  othersKept : ∀ draw publicId d d', insert draw publicId d = .ok d' → OthersKept org d { d' with publicIds := d.publicIds }

/-- What an insertion does to the database, with its public id taken, is what its retries do. -/
theorem insertWithPublicIdRetry_frame {insert : Insertion} {G : TenantDatabase → TenantDatabase → Prop}
    (hinsert : ∀ draw publicId d d', insert draw publicId d = .ok d' →
      G d { d' with publicIds := d.publicIds ++ [publicId] }) {idPrefix : String} {attempts : Nat} {s s' : TenantSession}
    {a : Draw × String} (h : (insertWithPublicIdRetry idPrefix insert attempts).run s = .ok (a, s')) :
    G s.database s'.database := by
  induction attempts generalizing s with
  | zero => cases h
  | succ attempts ih =>
      obtain ⟨database, draws⟩ := s
      cases draws with
      | nil => cases h
      | cons draw draws =>
          change (if idPrefix ++ draw.token.val ∈ database.publicIds
            then insertWithPublicIdRetry idPrefix insert attempts else _ : TenantTx (Draw × String)).run _ = _ at h
          by_cases htaken : idPrefix ++ draw.token.val ∈ database.publicIds
          · rw [if_pos htaken] at h
            exact ih (s := ⟨database, draws⟩) h
          · rw [if_neg htaken] at h
            cases hrun : insert draw (idPrefix ++ draw.token.val) database with
            | error error =>
                rw [hrun] at h
                cases h
            | ok inserted =>
                rw [hrun] at h
                obtain ⟨_, rfl⟩ := Prod.mk.inj (Except.ok.inj h)
                exact hinsert _ _ _ _ hrun

theorem insertWithPublicIdRetry_isolated {insert : Insertion}
    (hinsert : IsolatedInsertion context.organisationId insert) (idPrefix : String) (attempts : Nat) :
    Isolated context.organisationId (insertWithPublicIdRetry idPrefix insert attempts) where
  frame := by
    intro s a s' h
    refine insertWithPublicIdRetry_frame (G := OthersKept context.organisationId) (fun draw publicId d d' hd => ?_) h
    have hkept := hinsert.othersKept draw publicId d d' hd
    exact ⟨hkept.runs, hkept.events, fun _ hmem => List.mem_append_left _ hmem, hkept.runIds⟩
  same := by
    rintro ⟨d, draws⟩ ⟨e, draws'⟩ h
    obtain rfl : draws = draws' := h.draws
    cases attempts with
    | zero => exact .error _
    | succ attempts =>
        cases draws with
        | nil => exact .error _
        | cons draw draws =>
            -- The public id is new, to the second database too, so that the first attempt is the last.
            obtain ⟨hnew, hrest⟩ := freshDraws_cons h.fresh idPrefix
            have hnew' : idPrefix ++ draw.token.val ∉ e.publicIds := fun hmem => hnew (h.database.publicIds _ hmem)
            show SameEnd _ ((if idPrefix ++ draw.token.val ∈ d.publicIds then
                insertWithPublicIdRetry idPrefix insert attempts else _ : TenantTx (Draw × String)).run _)
              ((if idPrefix ++ draw.token.val ∈ e.publicIds then
                insertWithPublicIdRetry idPrefix insert attempts else _ : TenantTx (Draw × String)).run _)
            rw [if_neg hnew, if_neg hnew']
            have hid := h.fresh.newRuns draw List.mem_cons_self
            rcases hinsert.same draw (idPrefix ++ draw.token.val) d e h.database hid with
              ⟨error, hd, he⟩ | ⟨d', e', hd, he, hruns, hevents, hids, hnext⟩
            · rw [hd, he]
              exact .error _
            · rw [hd, he]
              refine .ok _ ⟨⟨hruns, hevents, fun publicId hmem => ?_, hids⟩, rfl, hrest d' hnext⟩
              rcases List.mem_append.mp hmem with hold | hlast
              · exact List.mem_append_left _ (h.database.publicIds publicId hold)
              · exact List.mem_append_right _ hlast

theorem mem_runIds_insert {d : TenantDatabase} {row : TenantRow StoredRun} (h : row.id ∉ d.runs.rows.map TenantRow.id)
    {id : ℤ} : id ∈ ({ d with runs := d.runs.insert row h } : TenantDatabase).runIds ↔ id ∈ d.runIds ∨ id = row.id := by
  show id ∈ (d.runs.rows ++ [row]).map TenantRow.id ↔ _
  rw [List.map_append, List.mem_append, List.map_singleton, List.mem_singleton]
  exact Iff.rfl

theorem rows_update (table : RunTable) (org runId : ℤ) (f : StoredRun → StoredRun) :
    (table.update org runId f).rows = changeRows org runId f table.rows := rfl

theorem insertRun_isolated (configJson : String) (now : Timestamp) :
    IsolatedInsertion context.organisationId (context.insertRun configJson now) where
  same := by
    intro draw publicId d e h hid
    have hid' : draw.runId ∉ e.runIds := fun hmem => hid (h.runIds _ hmem)
    refine Or.inr ⟨_, _, dif_pos hid, dif_pos hid', ?_, h.events, ?_, ?_⟩
    · show scopedSelect _ (d.runs.rows ++ [_]) = scopedSelect _ (e.runs.rows ++ [_])
      rw [scopedSelect_append, scopedSelect_append, h.runs]
    · exact fun id hmem => (mem_runIds_insert hid).mpr (((mem_runIds_insert hid').mp hmem).imp_left (h.runIds id))
    · exact fun id hmem => (mem_runIds_insert hid).mp hmem
  othersKept := by
    intro draw publicId d d' hinsert
    unfold insertRun at hinsert
    dsimp only at hinsert
    split at hinsert
    · rename_i hid
      obtain rfl := Except.ok.inj hinsert
      refine ⟨fun other hother => ?_, fun _ _ => rfl, fun _ h => h, fun id hmem => ?_⟩
      · show scopedSelect other (d.runs.rows ++ [_]) = _
        rw [scopedSelect_append, if_neg (Ne.symm hother), List.append_nil]
      · exact (mem_runIds_insert hid).mpr (Or.inl hmem)
    · cases hinsert

theorem insertEvent_isolated (now : Timestamp) (event : String → StoredEvent) :
    IsolatedInsertion context.organisationId (context.insertEvent now event) where
  same := by
    intro draw publicId d e h _
    refine Or.inr ⟨_, _, rfl, rfl, h.runs, ?_, h.runIds, fun _ hmem => Or.inl hmem⟩
    dsimp only
    rw [scopedSelect_append, scopedSelect_append, h.events]
  othersKept := by
    rintro draw publicId d d' hinsert
    obtain rfl := Except.ok.inj hinsert
    refine ⟨fun _ _ => rfl, fun other hother => ?_, fun _ h => h, fun _ h => h⟩
    dsimp only
    rw [scopedSelect_append, if_neg (Ne.symm hother), List.append_nil]

theorem insertRecord_isolated (runId : ℤ) (f : String → StoredRun → Except ServiceError StoredRun) :
    IsolatedInsertion context.organisationId (context.insertRecord runId f) where
  same := by
    intro draw publicId d e h _
    unfold insertRecord
    rw [← h.runs]
    split
    · exact Or.inl ⟨_, rfl, rfl⟩
    · split
      · exact Or.inl ⟨_, rfl, rfl⟩
      · refine Or.inr ⟨_, _, rfl, rfl, ?_, h.events, ?_, ?_⟩
        · dsimp only
          rw [rows_update, rows_update, scopedSelect_changeRows, scopedSelect_changeRows, h.runs]
        · intro id hmem
          rw [TenantDatabase.runIds, rows_update, map_id_changeRows] at hmem ⊢
          exact h.runIds id hmem
        · intro id hmem
          rw [TenantDatabase.runIds, rows_update, map_id_changeRows] at hmem
          exact Or.inl hmem
  othersKept := by
    intro draw publicId d d' hinsert
    unfold insertRecord at hinsert
    split at hinsert
    · cases hinsert
    · split at hinsert
      · cases hinsert
      · obtain rfl := Except.ok.inj hinsert
        refine ⟨fun other hother => ?_, fun _ _ => rfl, fun _ h => h, fun id hmem => ?_⟩
        · dsimp only
          rw [rows_update, scopedSelect_changeRows, changeRows_other hother]
        · rw [TenantDatabase.runIds, rows_update, map_id_changeRows]
          exact hmem

theorem updateRun_isolated (runId : ℤ) (f : StoredRun → StoredRun) :
    Isolated context.organisationId (context.updateRun runId f) := by
  have hids : ∀ s : TenantSession, TenantDatabase.runIds
      { s.database with runs := s.database.runs.update context.organisationId runId f } = s.database.runIds :=
    fun s => map_id_changeRows runId f
  refine Respects.modify (fun s t h => ⟨⟨?_, h.database.events, h.database.publicIds, ?_⟩, h.draws,
    ⟨h.fresh.tokens, h.fresh.unused, h.fresh.runIds, ?_⟩⟩) fun s => ⟨fun other hother => ?_, fun _ _ => rfl, fun _ h => h, ?_⟩
  · dsimp only
    rw [rows_update, rows_update, scopedSelect_changeRows, scopedSelect_changeRows, h.database.runs]
  · rw [hids s, hids t]
    exact h.database.runIds
  · rw [hids s]
    exact h.fresh.newRuns
  · dsimp only
    rw [rows_update, scopedSelect_changeRows, changeRows_other hother]
  · rw [hids s]
    exact fun _ h => h

/-! ## Repository functions -/

theorem findRun_isolated (key : RunKey) : Isolated context.organisationId (context.findRun key) :=
  selectRuns_isolated.map _

theorem recordsOf_isolated (runId : ℤ) : Isolated context.organisationId (context.recordsOf runId) :=
  allRuns_isolated.map _

theorem createRun_isolated (configJson : String) (startedAt : Option Timestamp) (now : Timestamp) :
    Isolated context.organisationId (context.createRun configJson startedAt now) := by
  refine (require_isolated "create").bind fun _ => ?_
  exact (insertWithPublicIdRetry_isolated (insertRun_isolated _ _) _ _).map fun inserted => _

theorem listRuns_isolated (limit offset : Nat) : Isolated context.organisationId (context.listRuns limit offset) :=
  selectRuns_isolated.map _

theorem listRunsCursor_isolated (limit : Nat) (cursor : Option String) :
    Isolated context.organisationId (context.listRunsCursor limit cursor) :=
  selectRuns_isolated.bind fun _ => Isolated.lift _

theorem changeRun_isolated (runId : ℤ) (f : RunRecords → Except ServiceError RunRecords) :
    Isolated context.organisationId (context.changeRun runId f) := by
  refine (findRun_isolated _).bind fun found => ?_
  cases found with
  | none => exact Respects.throw _
  | some row => exact (Isolated.lift _).bind fun _ => updateRun_isolated _ _

theorem completeRun_isolated (runId : ℤ) (hashes : RunHashes) (completedAt : Instant) :
    Isolated context.organisationId (context.completeRun runId hashes completedAt) :=
  (require_isolated _).bind fun _ => changeRun_isolated _ _

theorem failRun_isolated (runId : ℤ) (code summary : String) (failedAt : Instant) :
    Isolated context.organisationId (context.failRun runId code summary failedAt) :=
  (require_isolated _).bind fun _ => changeRun_isolated _ _

theorem appendAuditEvent_isolated (eventType subjectType subjectPublicId : String) (metadata : Json)
    (requestId : Option String) (now : Timestamp) :
    Isolated context.organisationId
      (context.appendAuditEvent eventType subjectType subjectPublicId metadata requestId now) := by
  unfold appendAuditEvent
  split
  · exact Respects.throw _
  · refine (require_isolated _).bind fun _ => ?_
    exact (insertWithPublicIdRetry_isolated (insertEvent_isolated _ _) _ _).map _

theorem listAuditEvents_isolated (limit offset : Nat) :
    Isolated context.organisationId (context.listAuditEvents limit offset) := selectEvents_isolated.map _

theorem softDeleteRun_isolated (publicId : String) (now : Timestamp) :
    Isolated context.organisationId (context.softDeleteRun publicId now) := by
  refine (require_isolated _).bind fun _ => (findRun_isolated _).bind fun found => ?_
  cases found with
  | none => exact Isolated.pure _
  | some row =>
      refine Respects.ite (Respects.throw _) ?_
      exact (updateRun_isolated _ _).bind fun _ =>
        (appendAuditEvent_isolated _ _ _ _ _ _).bind fun _ => Isolated.pure _

theorem setRunLegalHold_isolated (publicId : String) (legalHold : Bool) (now : Timestamp) :
    Isolated context.organisationId (context.setRunLegalHold publicId legalHold now) := by
  refine (require_isolated _).bind fun _ => (findRun_isolated _).bind fun found => ?_
  cases found with
  | none => exact Respects.throw _
  | some row => exact (updateRun_isolated _ _).bind fun _ => appendAuditEvent_isolated _ _ _ _ _ _

theorem saveRecord_isolated (idPrefix : String) (runId : ℤ) (f : RunRecords → Except ServiceError RunRecords) :
    Isolated context.organisationId (context.saveRecord idPrefix runId f) :=
  (insertWithPublicIdRetry_isolated (insertRecord_isolated _ _) _ _).map _

theorem saveResult_isolated (sha256 : String → String) (runId : ℤ) (o : RunRecords.EngineOutput) :
    Isolated context.organisationId (context.saveResult sha256 runId o) :=
  (require_isolated _).bind fun _ => Respects.ite (Respects.throw _) (saveRecord_isolated _ _ _)

theorem saveCertificate_isolated (runId : ℤ) (o : RunRecords.EngineOutput) :
    Isolated context.organisationId (context.saveCertificate runId o) :=
  (require_isolated _).bind fun _ => (insertWithPublicIdRetry_isolated (insertRecord_isolated _ _) _ _).map _

theorem saveInvestigations_isolated (runId : ℤ) (o : RunRecords.EngineOutput) :
    Isolated context.organisationId (context.saveInvestigations runId o) :=
  (require_isolated _).bind fun _ =>
    Respects.forM confined_refl confined_trans (fun _ => saveRecord_isolated _ _ _) _

theorem saveUploadedFileMetadata_isolated (runId : ℤ) (file : UploadedFileMetadata) :
    Isolated context.organisationId (context.saveUploadedFileMetadata runId file) :=
  (require_isolated _).bind fun _ => saveRecord_isolated _ _ _

theorem saveArtifactMetadata_isolated (runId : ℤ) (m : OutputMetadata) :
    Isolated context.organisationId (context.saveArtifactMetadata runId m) :=
  (require_isolated _).bind fun _ => saveRecord_isolated _ _ _

end TenantContext

/-! ## Operations -/

namespace TenantAction

variable (sha256 : String → String)

theorem program_isolated (a : TenantAction) : Isolated a.organisation (a.program sha256) := by
  unfold program
  cases a.operation with
  | createRun => exact (TenantContext.createRun_isolated _ _ _).map _
  | getRun => exact (TenantContext.findRun_isolated _).map _
  | listRuns => exact (TenantContext.listRuns_isolated _ _).map _
  | listRunsCursor => exact (TenantContext.listRunsCursor_isolated _ _).map _
  | completeRun =>
      exact (TenantContext.completeRun_isolated _ _ _).bind fun _ => (TenantContext.findRun_isolated _).map _
  | failRun => exact (TenantContext.failRun_isolated _ _ _ _).bind fun _ => (TenantContext.findRun_isolated _).map _
  | softDeleteRun => exact (TenantContext.softDeleteRun_isolated _ _).map _
  | setRunLegalHold =>
      exact (TenantContext.setRunLegalHold_isolated _ _ _).bind fun _ => (TenantContext.findRun_isolated _).map _
  | saveResult => exact (TenantContext.saveResult_isolated _ _ _).map _
  | getResult => exact (TenantContext.recordsOf_isolated _).map _
  | saveCertificate => exact (TenantContext.saveCertificate_isolated _ _).map _
  | getCertificate => exact (TenantContext.recordsOf_isolated _).map _
  | getCertificateByPublicId => exact TenantContext.allRuns_isolated.map _
  | saveInvestigations => exact (TenantContext.saveInvestigations_isolated _ _).map _
  | listInvestigations => exact (TenantContext.recordsOf_isolated _).map _
  | saveUploadedFile => exact (TenantContext.saveUploadedFileMetadata_isolated _ _).map _
  | listUploadedFiles => exact (TenantContext.recordsOf_isolated _).map _
  | saveArtifact => exact (TenantContext.saveArtifactMetadata_isolated _ _).map _
  | listArtifacts => exact (TenantContext.recordsOf_isolated _).map _
  | getArtifactByType => exact (TenantContext.recordsOf_isolated _).map _
  | appendAuditEvent => exact (TenantContext.appendAuditEvent_isolated _ _ _ _ _ _).map _
  | listAuditEvents => exact (TenantContext.listAuditEvents_isolated _ _).map _

/-- The tokens of an action are new to the database. -/
def Fresh (database : TenantDatabase) (a : TenantAction) : Prop := FreshDraws database a.draws

instance (database : TenantDatabase) (a : TenantAction) : Decidable (Fresh database a) :=
  inferInstanceAs (Decidable (FreshDraws database a.draws))

theorem perform_own {d e : TenantDatabase} {a : TenantAction} (h : SameFor a.organisation d e) (hfresh : Fresh d a) :
    (a.perform sha256 d).1 = (a.perform sha256 e).1 ∧
      SameFor a.organisation (a.perform sha256 d).2 (a.perform sha256 e).2 := by
  have hsame := (program_isolated sha256 a).same ⟨d, a.draws⟩ ⟨e, a.draws⟩ ⟨h, rfl, hfresh⟩
  unfold perform
  generalize (a.program sha256).run ⟨d, a.draws⟩ = x at hsame
  generalize (a.program sha256).run ⟨e, a.draws⟩ = y at hsame
  cases hsame with
  | ok answer hnext => exact ⟨rfl, hnext.database⟩
  | error error => exact ⟨rfl, h⟩

theorem perform_other {org : ℤ} {d e : TenantDatabase} {a : TenantAction} (hother : a.organisation ≠ org)
    (h : SameFor org d e) : SameFor org (a.perform sha256 d).2 e := by
  unfold perform
  split
  · rename_i answer s hrun
    have hconfined := (program_isolated sha256 a).frame _ _ _ hrun
    refine ⟨(hconfined.runs org (Ne.symm hother)).trans h.runs, (hconfined.events org (Ne.symm hother)).trans h.events, ?_, ?_⟩
    · exact fun publicId hmem => hconfined.publicIds publicId (h.publicIds publicId hmem)
    · exact fun id hmem => hconfined.runIds id (h.runIds id hmem)
  · exact h

end TenantAction

/-- **No organisation notices another.** In any run of operations of any organisations, in any order, an organisation is
    answered as if the operations of the others had not been, and ends with the same rows. -/
theorem tenants_isolated (sha256 : String → String) (organisation : ℤ) (database : TenantDatabase)
    (actions : List TenantAction)
    (hfresh : Meets (performed (TenantAction.perform sha256)) TenantAction.Fresh database actions) :
    let own := stepsOf TenantAction.organisation organisation actions
    answers (TenantAction.perform sha256) TenantAction.organisation organisation database actions =
        answers (TenantAction.perform sha256) TenantAction.organisation organisation database own ∧
      scopedSelect organisation (run (performed (TenantAction.perform sha256)) database actions).runs.rows =
        scopedSelect organisation (run (performed (TenantAction.perform sha256)) database own).runs.rows ∧
      scopedSelect organisation (run (performed (TenantAction.perform sha256)) database actions).events =
        scopedSelect organisation (run (performed (TenantAction.perform sha256)) database own).events := by
  obtain ⟨hanswers, hend⟩ := noninterference (TenantAction.perform sha256) TenantAction.organisation
    (R := SameFor organisation) (C := TenantAction.Fresh) (d := organisation)
    (by rintro d e a rfl h hfresh; exact TenantAction.perform_own sha256 h hfresh)
    (fun d e a hother h => TenantAction.perform_other sha256 hother h)
    (⟨rfl, rfl, fun _ h => h, fun _ h => h⟩ : SameFor organisation database database) hfresh
  exact ⟨hanswers, hend.runs, hend.events⟩

theorem abs_utc_lt : ∀ o ∈ some (0 : ℤ), |o| < dayLength := by
  rintro o ho
  obtain rfl := Option.some.inj ho
  rw [abs_zero]
  decide

def newYear : Timestamp := ⟨2026, 1, 1, 0, 0, 0, 0, some 0, by decide, by decide, abs_utc_lt⟩

/-- An owner of each of two organisations creates a run, and the first lists the runs. -/
def bothOwners : List TenantAction :=
  let owner (organisation : ℤ) (h : 0 < organisation) : TenantContext := ⟨organisation, 7, .owner, "", h, by decide⟩
  [⟨owner 1 (by decide), .createRun "\x7b\x7d" none, newYear, [⟨1, 1, ⟨"0123456789abcdef0123456789abcdef", by decide⟩⟩]⟩,
    ⟨owner 2 (by decide), .createRun "\x7b\x7d" none, newYear, [⟨2, 2, ⟨"fedcba9876543210fedcba9876543210", by decide⟩⟩]⟩,
    ⟨owner 1 (by decide), .listRunsCursor 10 none, newYear, []⟩]

theorem tenants_isolated_twoOwners :
    let own := stepsOf TenantAction.organisation 1 bothOwners
    answers (TenantAction.perform id) TenantAction.organisation 1 {} bothOwners =
        answers (TenantAction.perform id) TenantAction.organisation 1 {} own ∧
      scopedSelect 1 (run (performed (TenantAction.perform id)) {} bothOwners).runs.rows =
        scopedSelect 1 (run (performed (TenantAction.perform id)) {} own).runs.rows ∧
      scopedSelect 1 (run (performed (TenantAction.perform id)) {} bothOwners).events =
        scopedSelect 1 (run (performed (TenantAction.perform id)) {} own).events :=
  tenants_isolated id 1 {} bothOwners (by decide +kernel)

end Untangle
