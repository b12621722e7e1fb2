import Untangle.Correctness.Presentation

/-!
# `Correctness.Projection` — what a payload says about its report

The payload of a report is a function of a projection of it: the totals, the configuration, the audit root, the
amounts of the recovery plan and of its actions, and six fields of each attribution and two of each reconciliation.
Whatever else two reports hold, they are presented alike (`payload_eq`).

A line key is read only to sort the attributions and to find the balanced ones, so an order-preserving renaming of the
keys does not show either (`payload_renamed`). An attribution without a key is read as one with the empty key: it has
to stay there.
-/

namespace Untangle

open Lib

variable {H : Hashing} {U : Unicode} {repr : Json → String}

/-! ## The projection -/

/-- What is read of a recovery action. -/
structure ActionProjection where
  actionType : Json
  description : Json
  recoverablePaise : Json
  debitExposurePaise : Json
  gainPerCost : Json
  resolved : Option Nat

def actionProjection (action : Json) : ActionProjection where
  actionType := action.get "action_type"
  description := action.get "description"
  recoverablePaise := action.get "recoverable_paise"
  debitExposurePaise := action.get "debit_exposure_paise"
  gainPerCost := action.get "gain_per_cost"
  resolved := (action.get "resolves").asArr?.map List.length

/-- The actions of a plan. -/
def planActions (plan : Json) : List Json := (((plan.get? "actions").getD (.arr [])).asArr?).getD []

structure PlanProjection where
  recoverableIfActionedPaise : Json
  unresolvedCreditPaise : Json
  unresolvedDebitPaise : Json
  actions : List ActionProjection

def planProjection (plan : Json) : PlanProjection where
  recoverableIfActionedPaise := plan.get "recoverable_if_actioned_paise"
  unresolvedCreditPaise := plan.get "unresolved_credit_paise"
  unresolvedDebitPaise := plan.get "unresolved_debit_paise"
  actions := (planActions plan).map actionProjection

/-- What is read of an attribution. -/
structure AttributionProjection where
  lineKey : Option Json
  rail : Option Json
  confidence : Option Json
  tier : Option Json
  abstained : Option Json
  signals : Option (List Json)

def AttributionView.projection (v : AttributionView) : AttributionProjection :=
  ⟨v.lineKey, v.rail, v.confidence, v.tier, v.abstained, v.signals.toOption⟩

/-- The items of a list of the report. -/
def reportItems (report : Json) (name : String) : List Json := ((report.get name).asArr?).getD []

/-- Two reports with one projection. -/
structure SameProjection (report report' : Json) : Prop where
  totals : report.get "totals" = report'.get "totals"
  config : report.get "config" = report'.get "config"
  auditRoot : report.get? "audit_root" = report'.get? "audit_root"
  recovery : planProjection (report.get "recovery_plan") = planProjection (report'.get "recovery_plan")
  attributions : (reportItems report "attributions").map (fun a => (attributionView a).toOption.map (·.projection)) =
    (reportItems report' "attributions").map fun a => (attributionView a).toOption.map (·.projection)
  reconciliations : (reportItems report "reconciliations").filterMap reconciliationView =
    (reportItems report' "reconciliations").filterMap reconciliationView

/-! ## The recovery plan -/

theorem actionText_ok {i : Nat} {action : Json} {name text : String} (h : actionText U i action name = .ok text) :
    action.get name = .str text := by
  unfold actionText at h
  cases hfield : action.get name <;> rw [hfield] at h <;> cases h
  rfl

theorem actionPaise_ok {i : Nat} {action : Json} {name : String} {n : ℤ} (h : actionPaise U i action name = .ok n) :
    action.get name = .int n := by
  unfold actionPaise at h
  cases hn : (action.get name).asInt?.filter fun n => 0 ≤ n with
  | none =>
      rw [hn] at h
      cases h
  | some m =>
      rw [hn] at h
      cases h
      exact Json.asInt?_eq_some.mp (Option.filter_eq_some_iff.mp hn).1

theorem planPaise_ok {plan : Json} {name : String} {n : ℤ} (h : planPaise U plan name = .ok n) :
    plan.get name = .int n := by
  unfold planPaise at h
  cases hv : plan.get? name with
  | none =>
      rw [hv] at h
      cases h
  | some v =>
      rw [hv] at h
      dsimp only at h
      cases hn : v.asInt?.filter fun n => 0 ≤ n with
      | none =>
          rw [hn] at h
          cases h
      | some m =>
          rw [hn] at h
          cases h
          unfold Json.get
          rw [hv]
          exact Json.asInt?_eq_some.mp (Option.filter_eq_some_iff.mp hn).1

/-- The gain is read of its field alone. -/
theorem actionGain_congr {i i' : Nat} {action action' : Json} {q q' : ℚ} (h : actionGain i action = .ok q)
    (h' : actionGain i' action' = .ok q') (hfield : action.get "gain_per_cost" = action'.get "gain_per_cost") :
    q = q' := by
  unfold actionGain at h h'
  rw [hfield] at h
  split at h
  · rename_i n hn
    rw [hn] at h'
    split at h <;> rename_i hfloat
    · simp only [hfloat] at h'
      split at h
      · cases h
      · rename_i hneg
        rw [if_neg hneg] at h'
        exact (Except.ok.inj h).symm.trans (Except.ok.inj h')
    · cases h
  · rename_i r hr
    rw [hr] at h'
    dsimp only at h'
    split at h
    · cases h
    · rename_i hneg
      rw [if_neg hneg] at h'
      exact (Except.ok.inj h).symm.trans (Except.ok.inj h')
  · cases h

/-- A list of texts. -/
theorem items_of_mapM_asStr? {items : List Json} {texts : List String} (h : items.mapM Json.asStr? = some texts) :
    items = texts.map .str := by
  induction items generalizing texts with
  | nil =>
      cases h
      rfl
  | cons v items ih =>
      rw [List.mapM_cons] at h
      obtain ⟨text, htext, h⟩ := Option.bind_eq_some_iff.mp h
      obtain ⟨texts', htexts, h⟩ := Option.bind_eq_some_iff.mp h
      cases h
      rw [ih htexts, List.map_cons]
      cases v <;> cases htext
      rfl

/-- The keys an action lists. -/
theorem actionResolves_ok {i : Nat} {action : Json} {keys : List String}
    (h : actionResolves i action = .ok (some keys)) :
    (action.get "resolves").asArr?.map List.length = some keys.length := by
  unfold actionResolves at h
  cases hv : action.get? "resolves" with
  | none =>
      rw [hv] at h
      cases h
  | some v =>
      rw [hv] at h
      dsimp only at h
      cases hitems : v.asArr?.bind fun items => items.mapM Json.asStr? with
      | none =>
          rw [hitems] at h
          cases h
      | some texts =>
          rw [hitems] at h
          cases h
          obtain ⟨items, harr, htexts⟩ := Option.bind_eq_some_iff.mp hitems
          unfold Json.get
          rw [hv, Option.getD_some, harr, Option.map_some]
          rw [items_of_mapM_asStr? htexts, List.length_map]

/-- What is shown of two actions with one projection. -/
theorem presentedAction_congr {i i' : Nat} {action action' shown shown' : Json} {clean clean' : CleanAction}
    (h : validateAction U i action = .ok clean) (h' : validateAction U i' action' = .ok clean')
    (hshown : presentedAction clean = .ok shown) (hshown' : presentedAction clean' = .ok shown')
    (hfields : actionProjection action = actionProjection action') : shown = shown' := by
  unfold validateAction at h h'
  simp only [refused_unless, bind_eq_ok] at h h'
  obtain ⟨_, _, htype, _, hdescription, _, hrecoverable, _, hexposure, _, hgain, _, hresolves, h⟩ := h
  obtain ⟨_, _, htype', _, hdescription', _, hrecoverable', _, hexposure', _, hgain', _, hresolves', h'⟩ := h'
  cases h
  cases h'
  unfold actionProjection at hfields
  injection hfields with htypes hdescriptions hrecoverables hexposures hgains hresolved
  rw [actionText_ok htype, actionText_ok htype'] at htypes
  rw [actionText_ok hdescription, actionText_ok hdescription'] at hdescriptions
  rw [actionPaise_ok hrecoverable, actionPaise_ok hrecoverable'] at hrecoverables
  rw [actionPaise_ok hexposure, actionPaise_ok hexposure'] at hexposures
  have hgained := actionGain_congr hgain hgain' hgains
  unfold presentedAction at hshown hshown'
  dsimp only at hshown hshown'
  split at hshown
  · cases hshown
  · rename_i keys
    split at hshown'
    · cases hshown'
    · rename_i keys'
      cases hshown
      cases hshown'
      rw [actionResolves_ok hresolves, actionResolves_ok hresolves', Option.some.injEq] at hresolved
      cases htypes
      cases hdescriptions
      cases hrecoverables
      cases hexposures
      rw [hgained, hresolved]

theorem presentedActions_congr {actions actions' : List Json}
    (h : actions.map actionProjection = actions'.map actionProjection) :
    ∀ {k k' : Nat} {clean clean' : List CleanAction} {shown shown' : List Json},
      ((actions.zipIdx k).mapM fun p => validateAction U p.2 p.1) = .ok clean →
      ((actions'.zipIdx k').mapM fun p => validateAction U p.2 p.1) = .ok clean' →
      clean.mapM presentedAction = .ok shown → clean'.mapM presentedAction = .ok shown' → shown = shown' := by
  induction actions generalizing actions' with
  | nil =>
      intro k k' clean clean' shown shown' hclean hclean' hshown hshown'
      obtain rfl := List.map_eq_nil_iff.mp h.symm
      cases hclean
      cases hclean'
      exact Except.ok.inj (hshown.symm.trans hshown')
  | cons action actions ih =>
      intro k k' clean clean' shown shown' hclean hclean' hshown hshown'
      obtain ⟨action', actions', rfl, hhead, htail⟩ := List.map_eq_cons_iff.mp h.symm
      rw [List.zipIdx_cons, mapM_eq_ok] at hclean hclean'
      obtain ⟨c, cs, hc, hcs, rfl⟩ := List.forall₂_cons_left_iff.mp hclean
      obtain ⟨c', cs', hc', hcs', rfl⟩ := List.forall₂_cons_left_iff.mp hclean'
      rw [mapM_eq_ok] at hshown hshown'
      obtain ⟨j, js, hj, hjs, rfl⟩ := List.forall₂_cons_left_iff.mp hshown
      obtain ⟨j', js', hj', hjs', rfl⟩ := List.forall₂_cons_left_iff.mp hshown'
      rw [← mapM_eq_ok] at hcs hcs' hjs hjs'
      rw [presentedAction_congr hc hc' hj hj' hhead.symm, ih htail.symm hcs hcs' hjs hjs']

/-- An accepted plan is none, or a dictionary with three amounts. -/
theorem validateRecoveryPlan_ok {plan : Json} {clean : CleanPlan} (h : validateRecoveryPlan U plan = .ok clean) :
    plan = .null ∧ clean = {} ∨
      ∃ actions, (planActions plan).zipIdx.mapM (fun p => validateAction U p.2 p.1) = .ok actions ∧
        clean.actions = actions ∧
        plan.get "recoverable_if_actioned_paise" = .int clean.recoverableIfActionedPaise ∧
        plan.get "unresolved_credit_paise" = .int clean.unresolvedCreditPaise ∧
        plan.get "unresolved_debit_paise" = .int clean.unresolvedDebitPaise := by
  unfold validateRecoveryPlan at h
  split at h
  · rename_i hnull
    cases plan <;> cases hnull
    exact Or.inl ⟨rfl, (Except.ok.inj h).symm⟩
  · simp only [refused_unless] at h
    obtain ⟨_, h⟩ := h
    split at h
    · cases h
    · rename_i actions hactions
      simp only [bind_eq_ok] at h
      obtain ⟨clean', hclean, _, hrecoverable, _, hcredit, _, hdebit, h⟩ := h
      cases h
      refine Or.inr ⟨clean', ?_, rfl, planPaise_ok hrecoverable, planPaise_ok hcredit, planPaise_ok hdebit⟩
      unfold planActions
      rw [hactions]
      exact hclean

/-- **The recovery part** is a function of the projection of the plan. -/
theorem recoveryDict_congr {report report' recovery recovery' : Json}
    (h : recoveryDict U report = .ok recovery) (h' : recoveryDict U report' = .ok recovery')
    (hplan : planProjection (report.get "recovery_plan") = planProjection (report'.get "recovery_plan")) :
    recovery = recovery' := by
  unfold recoveryDict at h h'
  obtain ⟨clean, hclean, h⟩ := bind_eq_ok.mp h
  obtain ⟨shown, hshown, h⟩ := bind_eq_ok.mp h
  obtain ⟨clean', hclean', h'⟩ := bind_eq_ok.mp h'
  obtain ⟨shown', hshown', h'⟩ := bind_eq_ok.mp h'
  cases h
  cases h'
  injection hplan with hrecoverable hcredit hdebit hactions
  obtain ⟨hnull, rfl⟩ | ⟨actions, hvalid, rfl, ha, hb, hc⟩ := validateRecoveryPlan_ok hclean
  · obtain ⟨hnull', rfl⟩ | ⟨actions', hvalid', rfl, ha', hb', hc'⟩ := validateRecoveryPlan_ok hclean'
    · rw [Except.ok.inj (hshown.symm.trans hshown')]
    · -- a plan that is none has no amounts
      rw [hnull, ha'] at hrecoverable
      cases hrecoverable
  · obtain ⟨hnull', rfl⟩ | ⟨actions', hvalid', rfl, ha', hb', hc'⟩ := validateRecoveryPlan_ok hclean'
    · rw [hnull', ha] at hrecoverable
      cases hrecoverable
    · rw [ha, ha', Json.int.injEq] at hrecoverable
      rw [hb, hb', Json.int.injEq] at hcredit
      rw [hc, hc', Json.int.injEq] at hdebit
      rw [hrecoverable, hcredit, hdebit, presentedActions_congr hactions hvalid hvalid' hshown hshown']

/-! ## The line verdicts -/

/-- Only a list holds reconciliations. -/
theorem reconciliations_of_iterate {report : Json} {recs : List Json}
    (h : iterate ((report.get? "reconciliations").getD (.arr [])) = .ok recs) :
    recs.filterMap reconciliationView = (reportItems report "reconciliations").filterMap reconciliationView := by
  unfold reportItems Json.get
  cases hfield : report.get? "reconciliations" with
  | none =>
      rw [hfield] at h
      cases h
      rfl
  | some v =>
      rw [hfield] at h
      cases v <;> cases h
      · -- the characters of a text
        apply List.filterMap_eq_nil_iff.mpr
        intro r hr
        obtain ⟨c, _, rfl⟩ := List.mem_map.mp hr
        rfl
      · rfl
      · apply List.filterMap_eq_nil_iff.mpr
        intro r hr
        obtain ⟨p, _, rfl⟩ := List.mem_map.mp hr
        rfl
      · apply List.filterMap_eq_nil_iff.mpr
        intro r hr
        obtain ⟨p, _, rfl⟩ := List.mem_map.mp hr
        unfold reconciliationView
        cases p.1 <;> rfl

/-- The keys of the reconciled lines, of what is read of the reconciliations. -/
theorem reconciledKeys_ok {report : Json} {keys : List Json} (h : reconciledKeys report = .ok keys) :
    (((reportItems report "reconciliations").filterMap reconciliationView).filter Prod.snd).mapM
      (fun p => setElement p.1) = .ok keys := by
  unfold reconciledKeys at h
  obtain ⟨recs, hrecs, h⟩ := bind_eq_ok.mp h
  rwa [reconciliations_of_iterate (mapError_eq_ok.mp hrecs)] at h

theorem verdictItem_congr {keys : List Json} {ordinal : Nat} {v v' : AttributionView} {item item' : Json}
    (h : verdictItem U repr keys ordinal v = .ok item) (h' : verdictItem U repr keys ordinal v' = .ok item')
    (hview : v.projection = v'.projection) : item = item' := by
  unfold verdictItem at h h'
  obtain ⟨signals, hsignals, h⟩ := bind_eq_ok.mp h
  obtain ⟨signals', hsignals', h'⟩ := bind_eq_ok.mp h'
  rw [mapError_eq_ok] at hsignals hsignals'
  injection hview with hkey hrail hconfidence htier habstained hsame
  rw [hsignals, hsignals'] at hsame
  obtain rfl : signals = signals' := Option.some.inj hsame
  have hread : v.readKey = v'.readKey := by
    unfold AttributionView.readKey
    rw [hkey]
  rw [hread, hrail, hconfidence, htier, habstained] at h
  exact Except.ok.inj (h.symm.trans h')

/-- The keys that the attributions are sorted by, of the projections. -/
def AttributionProjection.sortKey (p : AttributionProjection) : List Json :=
  [p.rail.getD (.str ""), p.confidence.getD (.float 0), p.lineKey.getD (.str "")]

/-- The sorted attributions of two reports have the same projections. -/
theorem sortedViews_congr {views views' sorted sorted' : List AttributionView}
    (h : sortedBy (fun v w => Json.ltItems? v.sortKey w.sortKey) views = .ok sorted)
    (h' : sortedBy (fun v w => Json.ltItems? v.sortKey w.sortKey) views' = .ok sorted')
    (hviews : views.map (·.projection) = views'.map (·.projection)) :
    sorted.map (·.projection) = sorted'.map (·.projection) := by
  have hmap : ∀ {views sorted : List AttributionView},
      sortedBy (fun v w => Json.ltItems? v.sortKey w.sortKey) views = .ok sorted →
      Lib.sorted (fun p q => Json.ltItems? p.sortKey q.sortKey) (views.map (·.projection)) =
        some (sorted.map (·.projection)) := by
    intro views sorted hsorted
    have hmapped : Lib.sorted (fun p q => Json.ltItems? p.sortKey q.sortKey) (views.map (·.projection)) =
        (Lib.sorted (fun v w => Json.ltItems? v.sortKey w.sortKey) views).map (List.map (·.projection)) :=
      sorted_map fun _ _ _ _ => rfl
    rw [hmapped]
    unfold sortedBy at hsorted
    split at hsorted
    · rename_i items hitems
      cases hsorted
      rw [hitems, Option.map_some]
    · cases hsorted
  exact Option.some.inj ((hmap h).symm.trans (hviews ▸ hmap h'))

theorem verdictItems_congr {keys : List Json} {first : Nat} {page page' : List AttributionView}
    (hpage : page.map (·.projection) = page'.map (·.projection)) :
    ∀ {k : Nat} {items items' : List Json},
      ((page.zipIdx k).mapM fun p => verdictItem U repr keys (first + p.2) p.1) = .ok items →
      ((page'.zipIdx k).mapM fun p => verdictItem U repr keys (first + p.2) p.1) = .ok items' → items = items' := by
  induction page generalizing page' with
  | nil =>
      intro k items items' h h'
      obtain rfl := List.map_eq_nil_iff.mp hpage.symm
      exact Except.ok.inj (h.symm.trans h')
  | cons v page ih =>
      intro k items items' h h'
      obtain ⟨v', page', rfl, hhead, htail⟩ := List.map_eq_cons_iff.mp hpage.symm
      rw [List.zipIdx_cons, mapM_eq_ok] at h h'
      obtain ⟨j, js, hj, hjs, rfl⟩ := List.forall₂_cons_left_iff.mp h
      obtain ⟨j', js', hj', hjs', rfl⟩ := List.forall₂_cons_left_iff.mp h'
      rw [← mapM_eq_ok] at hjs hjs'
      rw [verdictItem_congr hj hj' hhead.symm, ih htail.symm hjs hjs']

/-- Views that could be made have the projections of their attributions. -/
theorem projections_of_views {attributions : List Json} {views : List AttributionView}
    (h : attributions.mapM attributionView = .ok views) :
    attributions.map (fun a => (attributionView a).toOption.map (·.projection)) =
      (views.map (·.projection)).map some := by
  rw [mapM_eq_ok] at h
  induction h with
  | nil => rfl
  | cons hview _ ih => rw [List.map_cons, List.map_cons, List.map_cons, ih, hview]; rfl

/-- **The page of line verdicts** is a function of the projections of attributions and reconciliations. -/
theorem lineVerdicts_congr {report report' verdicts verdicts' : Json} {limit offset : ℤ}
    (h : lineVerdicts U repr report limit offset = .ok verdicts)
    (h' : lineVerdicts U repr report' limit offset = .ok verdicts') (hsame : SameProjection report report') :
    verdicts = verdicts' := by
  unfold lineVerdicts at h h'
  obtain ⟨keys, hkeys, h⟩ := bind_eq_ok.mp h
  obtain ⟨views, hviews, h⟩ := bind_eq_ok.mp h
  obtain ⟨sorted, hsorted, h⟩ := bind_eq_ok.mp h
  obtain ⟨items, hitems, h⟩ := bind_eq_ok.mp h
  obtain ⟨keys', hkeys', h'⟩ := bind_eq_ok.mp h'
  obtain ⟨views', hviews', h'⟩ := bind_eq_ok.mp h'
  obtain ⟨sorted', hsorted', h'⟩ := bind_eq_ok.mp h'
  obtain ⟨items', hitems', h'⟩ := bind_eq_ok.mp h'
  cases h
  cases h'
  have hkeysok := reconciledKeys_ok hkeys
  rw [hsame.reconciliations, reconciledKeys_ok hkeys'] at hkeysok
  obtain rfl := Except.ok.inj hkeysok
  have hprojected := projections_of_views hviews
  rw [show ((report.get "attributions").asArr?).getD [] = reportItems report "attributions" from rfl,
    hsame.attributions] at hprojected
  have hviewsame := List.map_injective_iff.mpr (Option.some_injective _)
    (hprojected.symm.trans (projections_of_views hviews'))
  have hsortedsame := sortedViews_congr hsorted hsorted' hviewsame
  have hlength : sorted.length = sorted'.length := by
    rw [← List.length_map (f := (·.projection)), hsortedsame, List.length_map]
  have hpage : ((sorted.drop offset.toNat).take limit.toNat).map (·.projection) =
      ((sorted'.drop offset.toNat).take limit.toNat).map (·.projection) := by
    rw [List.map_take, List.map_drop, hsortedsame, List.map_take, List.map_drop]
  rw [verdictItems_congr hpage hitems hitems', hlength]

/-! ## Two reports -/

theorem totals_schema {report : Json} {schema : Bool × String} (h : validateReportStructure U repr report = .ok schema) :
    validateSchemaVersion repr report = .ok schema := (validateReportStructure_eq_ok.mp h).2.2.2.2

/-- **A payload shows the projection only.** -/
theorem payload_eq (limit offset : Json) {report report' payload payload' : Json}
    (h : buildPresentationPayload H U repr report none limit offset = .ok payload)
    (h' : buildPresentationPayload H U repr report' none limit offset = .ok payload')
    (hsame : SameProjection report report') : payload = payload' := by
  unfold buildPresentationPayload at h h'
  obtain ⟨schema, hschema, h⟩ := bind_eq_ok.mp h
  obtain ⟨limited, hlimited, h⟩ := bind_eq_ok.mp h
  obtain ⟨start, hstart, h⟩ := bind_eq_ok.mp h
  obtain ⟨exceptions, hexceptions, h⟩ := bind_eq_ok.mp h
  obtain ⟨recovery, hrecovery, h⟩ := bind_eq_ok.mp h
  obtain ⟨verdicts, hverdicts, h⟩ := bind_eq_ok.mp h
  obtain ⟨schema', hschema', h'⟩ := bind_eq_ok.mp h'
  obtain ⟨limited', hlimited', h'⟩ := bind_eq_ok.mp h'
  obtain ⟨start', hstart', h'⟩ := bind_eq_ok.mp h'
  obtain ⟨exceptions', hexceptions', h'⟩ := bind_eq_ok.mp h'
  obtain ⟨recovery', hrecovery', h'⟩ := bind_eq_ok.mp h'
  obtain ⟨verdicts', hverdicts', h'⟩ := bind_eq_ok.mp h'
  obtain rfl := Except.ok.inj (hlimited.symm.trans hlimited')
  obtain rfl := Except.ok.inj (hstart.symm.trans hstart')
  rw [hsame.totals] at hexceptions
  obtain rfl := Except.ok.inj (hexceptions.symm.trans hexceptions')
  obtain rfl := recoveryDict_congr hrecovery hrecovery' hsame.recovery
  obtain rfl := lineVerdicts_congr hverdicts hverdicts' hsame
  have hversion := totals_schema hschema
  unfold validateSchemaVersion at hversion
  rw [hsame.config] at hversion
  obtain rfl := Except.ok.inj (hversion.symm.trans (totals_schema hschema'))
  cases h
  cases h'
  unfold runIdentity
  rw [hsame.config, hsame.totals, hsame.auditRoot]
  rfl

/-! ## Renaming the line keys -/

/-- The document with a field changed, where it has the field. -/
def mapField (name : String) (g : Json → Json) : Json → Json
  | .obj fields => .obj (fields.map fun p => if p.1 = name then (p.1, g p.2) else p)
  | v => v

/-- The list with its items changed. -/
def mapItems (g : Json → Json) : Json → Json
  | .arr items => .arr (items.map g)
  | v => v

def renameText (f : String → String) : Json → Json
  | .str s => .str (f s)
  | v => v

/-- The line keys of a list of attributions, or of reconciliations. -/
def renameLines (f : String → String) : Json → Json := mapItems (mapField "line_key" (renameText f))

/-- The line keys that the actions of a plan resolve. -/
def renamePlan (f : String → String) : Json → Json :=
  mapField "actions" (mapItems (mapField "resolves" (mapItems (renameText f))))

/-- The second report has the keys of its lines renamed, and anything in the parts that are not read. -/
structure Renamed (f : String → String) (report report' : Json) : Prop where
  document : report'.isObj = true
  totals : report'.get? "totals" = report.get? "totals"
  config : report'.get? "config" = report.get? "config"
  auditRoot : report'.get? "audit_root" = report.get? "audit_root"
  recovery : report'.get? "recovery_plan" = (report.get? "recovery_plan").map (renamePlan f)
  attributions : report'.get? "attributions" = (report.get? "attributions").map (renameLines f)
  reconciliations : report'.get? "reconciliations" = (report.get? "reconciliations").map (renameLines f)

/-- The line keys of a report. -/
def lineKeys (report : Json) : List String :=
  (reportItems report "attributions" ++ reportItems report "reconciliations").filterMap fun j =>
    (j.get "line_key").asStr?

/-- Some attribution has no line key. -/
def Keyless (report : Json) : Prop := ∃ a ∈ reportItems report "attributions", a.get? "line_key" = none

theorem get?_mapField (name key : String) (g : Json → Json) (j : Json) :
    (mapField name g j).get? key = if key = name then (j.get? key).map g else j.get? key := by
  cases j with
  | obj fields =>
      induction fields with
      | nil => simp [mapField]
      | cons p fields ih =>
          simp only [mapField] at ih ⊢
          rw [List.map_cons, Json.get?_obj_cons]
          by_cases hp : p.1 = name
          · rw [if_pos hp, Json.get?_obj_cons, ih]
            by_cases hkey : key = p.1
            · rw [if_pos hkey, if_pos hkey, if_pos (hkey.trans hp), Option.map_some]
            · rw [if_neg hkey, if_neg hkey]
          · rw [if_neg hp, Json.get?_obj_cons, ih]
            by_cases hkey : key = p.1
            · rw [if_pos hkey, if_pos hkey, if_neg fun h => hp (hkey.symm.trans h)]
            · rw [if_neg hkey, if_neg hkey]
  | _ => simp [mapField, Json.get?]

@[simp] theorem isObj_mapField (name : String) (g : Json → Json) (j : Json) : (mapField name g j).isObj = j.isObj := by
  cases j <;> rfl

@[simp] theorem isNull_mapField (name : String) (g : Json → Json) (j : Json) :
    (mapField name g j).isNull = j.isNull := by
  cases j <;> rfl

@[simp] theorem typeName_mapField (name : String) (g : Json → Json) (j : Json) :
    (mapField name g j).typeName = j.typeName := by
  cases j <;> rfl

theorem asArr?_mapItems (g : Json → Json) (j : Json) : (mapItems g j).asArr? = j.asArr?.map (List.map g) := by
  cases j <;> rfl

theorem mapItems_of_none (g : Json → Json) {j : Json} (h : j.asArr? = none) : mapItems g j = j := by
  cases j with
  | arr items => cases h
  | _ => rfl

theorem get_mapField_ne {name key : String} (h : key ≠ name) (g : Json → Json) (j : Json) :
    (mapField name g j).get key = j.get key := by
  unfold Json.get
  rw [get?_mapField, if_neg h]

/-! ### The recovery plan -/

theorem mapM_renameText (f : String → String) {items : List Json} {texts : List String}
    (h : items.mapM Json.asStr? = some texts) :
    (items.map (renameText f)).mapM Json.asStr? = some (texts.map f) := by
  rw [items_of_mapM_asStr? h, List.map_map, ← Json.mapM_asStr?, List.map_map]
  rfl

/-- An action with renamed keys resolves as many. -/
theorem validateAction_rename (f : String → String) {i : Nat} {action : Json} {clean : CleanAction}
    (h : validateAction U i action = .ok clean) :
    validateAction U i (mapField "resolves" (mapItems (renameText f)) action) =
      .ok { clean with resolves := clean.resolves.map (List.map f) } := by
  unfold validateAction at h ⊢
  simp only [refused_unless, bind_eq_ok] at h ⊢
  obtain ⟨hobj, _, htype, _, hdescription, _, hrecoverable, _, hexposure, _, hgain, _, hresolves, h⟩ := h
  cases h
  refine ⟨by rwa [isObj_mapField], _, ?_, _, ?_, _, ?_, _, ?_, _, ?_, _, ?_, rfl⟩
  · unfold actionText at htype ⊢
    rwa [get_mapField_ne (by decide)]
  · unfold actionText at hdescription ⊢
    rwa [get_mapField_ne (by decide)]
  · unfold actionPaise at hrecoverable ⊢
    rwa [get_mapField_ne (by decide)]
  · unfold actionPaise at hexposure ⊢
    rwa [get_mapField_ne (by decide)]
  · unfold actionGain at hgain ⊢
    rwa [get_mapField_ne (by decide)]
  · unfold actionResolves at hresolves ⊢
    rw [get?_mapField, if_pos rfl]
    cases hv : action.get? "resolves" with
    | none =>
        rw [hv] at hresolves
        cases hresolves
        rfl
    | some v =>
        rw [hv] at hresolves
        dsimp only [Option.map_some] at hresolves ⊢
        rw [asArr?_mapItems]
        cases hitems : v.asArr?.bind fun items => items.mapM Json.asStr? with
        | none =>
            rw [hitems] at hresolves
            cases hresolves
        | some texts =>
            rw [hitems] at hresolves
            cases hresolves
            obtain ⟨items, harr, htexts⟩ := Option.bind_eq_some_iff.mp hitems
            rw [harr, Option.map_some, Option.bind_some, mapM_renameText f htexts]
            rfl

theorem presentedAction_rename (f : String → String) (clean : CleanAction) :
    presentedAction { clean with resolves := clean.resolves.map (List.map f) } = presentedAction clean := by
  unfold presentedAction
  cases hresolves : clean.resolves with
  | none => rfl
  | some keys =>
      dsimp only [Option.map_some]
      rw [List.length_map]

theorem validateRecoveryPlan_rename (f : String → String) {plan : Json} {clean : CleanPlan}
    (h : validateRecoveryPlan U plan = .ok clean) :
    validateRecoveryPlan U (renamePlan f plan) = .ok { clean with actions := clean.actions.map fun c =>
      { c with resolves := c.resolves.map (List.map f) } } := by
  unfold validateRecoveryPlan renamePlan at *
  rw [isNull_mapField]
  split at h
  · rename_i hnull
    rw [if_pos hnull]
    cases h
    rfl
  · rename_i hnull
    rw [if_neg hnull]
    simp only [refused_unless] at h ⊢
    refine ⟨by rw [isObj_mapField]; exact h.1, ?_⟩
    replace h := h.2
    rw [get?_mapField, if_pos rfl]
    have hactions : ((plan.get? "actions").map (mapItems (mapField "resolves" (mapItems (renameText f))))).getD
        (.arr []) = mapItems (mapField "resolves" (mapItems (renameText f))) ((plan.get? "actions").getD (.arr [])) := by
      cases plan.get? "actions" <;> rfl
    rw [hactions, asArr?_mapItems]
    split at h
    · cases h
    · rename_i actions hlist
      rw [hlist, Option.map_some]
      simp only [bind_eq_ok] at h ⊢
      obtain ⟨cleaned, hcleaned, _, hrecoverable, _, hcredit, _, hdebit, h⟩ := h
      cases h
      refine ⟨_, ?_, _, ?_, _, ?_, _, ?_, rfl⟩
      · rw [mapM_eq_ok] at hcleaned ⊢
        rw [List.zipIdx_map, List.forall₂_map_left_iff, List.forall₂_map_right_iff]
        refine hcleaned.imp ?_
        intro p c hc
        exact validateAction_rename f hc
      · unfold planPaise at hrecoverable ⊢
        rwa [get?_mapField, if_neg (by decide)]
      · unfold planPaise at hcredit ⊢
        rwa [get?_mapField, if_neg (by decide)]
      · unfold planPaise at hdebit ⊢
        rwa [get?_mapField, if_neg (by decide)]

theorem recoveryDict_rename {f : String → String} {report report' recovery : Json} (hr : Renamed f report report')
    (h : recoveryDict U report = .ok recovery) : recoveryDict U report' = .ok recovery := by
  unfold recoveryDict at h ⊢
  obtain ⟨clean, hclean, h⟩ := bind_eq_ok.mp h
  obtain ⟨shown, hshown, h⟩ := bind_eq_ok.mp h
  have hplan : report'.get "recovery_plan" = renamePlan f (report.get "recovery_plan") := by
    unfold Json.get
    rw [hr.recovery]
    cases report.get? "recovery_plan" <;> rfl
  have hrenamed := validateRecoveryPlan_rename f hclean
  rw [← hplan] at hrenamed
  refine bind_eq_ok.mpr ⟨_, hrenamed, bind_eq_ok.mpr ⟨shown, ?_, h⟩⟩
  rw [mapM_eq_ok] at hshown ⊢
  rw [List.forall₂_map_left_iff]
  refine hshown.imp ?_
  intro c j hj
  rwa [presentedAction_rename]

/-! ### The lines -/

theorem asStr?_eq_some {j : Json} {s : String} : j.asStr? = some s ↔ j = .str s := by
  cases j <;> simp [Json.asStr?]

theorem renameText_of_none {f : String → String} {j : Json} (h : j.asStr? = none) : renameText f j = j := by
  cases j with
  | str s => cases h
  | _ => rfl

/-- A value that is no text outside the given ones. -/
def NamedIn (S : Set String) (k : Json) : Prop := ∀ s, k = .str s → s ∈ S

/-- **Comparisons do not notice a renaming.** -/
theorem lt?_renameText {f : String → String} {S : Set String} (hf : StrictMonoOn f S) {k l : Json} (hk : NamedIn S k)
    (hl : NamedIn S l) : (renameText f k).lt? (renameText f l) = k.lt? l ∧
      (renameText f k).same (renameText f l) = k.same l := by
  cases hks : k.asStr? with
  | none =>
      rw [renameText_of_none hks]
      cases hls : l.asStr? with
      | none =>
          rw [renameText_of_none hls]
          exact ⟨rfl, rfl⟩
      | some t =>
          rw [asStr?_eq_some] at hls
          subst hls
          exact ⟨(Json.lt?_str_right hks _).trans (Json.lt?_str_right hks _).symm,
            (Json.same_str_right hks _).trans (Json.same_str_right hks _).symm⟩
  | some s =>
      rw [asStr?_eq_some] at hks
      subst hks
      cases hls : l.asStr? with
      | none =>
          rw [renameText_of_none hls]
          exact ⟨(Json.lt?_str_left hls _).trans (Json.lt?_str_left hls _).symm,
            (Json.same_str_left hls _).trans (Json.same_str_left hls _).symm⟩
      | some t =>
          rw [asStr?_eq_some] at hls
          subst hls
          simp only [renameText, Json.lt?_str, Json.same_str, hf.lt_iff_lt (hk s rfl) (hl t rfl),
            hf.injOn.eq_iff (hk s rfl) (hl t rfl), and_self]

theorem hashable_renameText (f : String → String) (k : Json) : (renameText f k).hashable = k.hashable := by
  cases k <;> rfl

theorem setElement_rename (f : String → String) {k k' : Json} (h : setElement k = .ok k') :
    setElement (renameText f k) = .ok (renameText f k') := by
  unfold setElement at h ⊢
  rw [hashable_renameText]
  split at h
  · rename_i hk
    rw [if_pos hk]
    cases h
    rfl
  · cases h

/-- The attribution with its line key renamed. -/
def AttributionView.rename (f : String → String) (v : AttributionView) : AttributionView :=
  { v with lineKey := v.lineKey.map (renameText f) }

theorem attributionView_rename (f : String → String) {a : Json} {v : AttributionView} (h : attributionView a = .ok v) :
    attributionView (mapField "line_key" (renameText f) a) = .ok (v.rename f) := by
  unfold attributionView at h ⊢
  rw [isObj_mapField]
  split at h
  · rename_i hobj
    rw [if_pos hobj]
    cases h
    unfold AttributionView.rename evidenceSignals
    rw [get?_mapField, if_pos rfl]
    simp only [get?_mapField, show ¬ ("rail" = "line_key") by decide, show ¬ ("confidence" = "line_key") by decide,
      show ¬ ("tier" = "line_key") by decide, show ¬ ("abstained" = "line_key") by decide,
      show ¬ ("evidence" = "line_key") by decide, if_false]
  · cases h

theorem reconciliationView_rename (f : String → String) (r : Json) :
    reconciliationView (mapField "line_key" (renameText f) r) =
      (reconciliationView r).map fun p => (renameText f p.1, p.2) := by
  unfold reconciliationView
  rw [isObj_mapField]
  split
  · rw [Option.map_some]
    unfold Json.get
    rw [get?_mapField, if_pos rfl, get?_mapField, if_neg (by decide)]
    cases r.get? "line_key" <;> rfl
  · rfl

section Lines

variable {f g : String → String} {S : Set String} {report report' : Json}

theorem sortKey_rename {v w : AttributionView} (hg : StrictMonoOn g S) (hv : NamedIn S v.readKey)
    (hw : NamedIn S w.readKey) (hvg : (v.rename f).readKey = renameText g v.readKey)
    (hwg : (w.rename f).readKey = renameText g w.readKey) :
    Json.ltItems? (v.rename f).sortKey (w.rename f).sortKey = Json.ltItems? v.sortKey w.sortKey := by
  obtain ⟨hlt, hsame⟩ := lt?_renameText hg hv hw
  unfold AttributionView.sortKey
  rw [hvg, hwg]
  simp only [Json.ltItems?_cons, hlt, hsame]
  rfl

theorem verdictItem_rename {keys : List Json} {ordinal : Nat} {v : AttributionView} {item : Json}
    (hg : StrictMonoOn g S) (hv : NamedIn S v.readKey) (hkeys : ∀ k ∈ keys, NamedIn S k)
    (hvg : (v.rename f).readKey = renameText g v.readKey) (h : verdictItem U repr keys ordinal v = .ok item) :
    verdictItem U repr (keys.map (renameText g)) ordinal (v.rename f) = .ok item := by
  unfold verdictItem at h ⊢
  obtain ⟨signals, hsignals, h⟩ := bind_eq_ok.mp h
  obtain ⟨confidence, hconfidence, h⟩ := bind_eq_ok.mp h
  obtain ⟨shown, hshown, h⟩ := bind_eq_ok.mp h
  obtain ⟨key, hkey, h⟩ := bind_eq_ok.mp h
  refine bind_eq_ok.mpr ⟨signals, hsignals, bind_eq_ok.mpr ⟨confidence, hconfidence, bind_eq_ok.mpr ⟨shown, hshown,
    bind_eq_ok.mpr ⟨renameText g key, hvg ▸ setElement_rename g hkey, ?_⟩⟩⟩⟩
  obtain rfl : v.readKey = key := by
    unfold setElement at hkey
    split at hkey
    · exact Except.ok.inj hkey
    · cases hkey
  have hany : (keys.map (renameText g)).any (fun k => (renameText g v.readKey).same k) =
      keys.any fun k => v.readKey.same k := by
    rw [List.any_map, Bool.eq_iff_iff, List.any_eq_true, List.any_eq_true]
    refine exists_congr fun k => and_congr_right fun hk => ?_
    rw [Function.comp_apply, (lt?_renameText hg hv (hkeys k hk)).2]
  rw [hany]
  exact h

/-- The reconciliations are renamed one by one. -/
theorem reconciliations_rename {recs : List Json} (hr : Renamed f report report')
    (h : iterate ((report.get? "reconciliations").getD (.arr [])) = .ok recs) :
    ∃ recs', iterate ((report'.get? "reconciliations").getD (.arr [])) = .ok recs' ∧
      recs'.filterMap reconciliationView =
        (recs.filterMap reconciliationView).map fun p => (renameText f p.1, p.2) := by
  have hlist := reconciliations_of_iterate h
  rw [hr.reconciliations]
  cases hfield : report.get? "reconciliations" with
  | none =>
      rw [hfield] at h
      cases h
      exact ⟨[], rfl, rfl⟩
  | some v =>
      rw [hfield] at h
      rw [Option.map_some, Option.getD_some]
      cases hv : v.asArr? with
      | some items =>
          cases v <;> cases hv
          cases h
          refine ⟨_, rfl, ?_⟩
          rw [List.filterMap_map, List.map_filterMap]
          refine List.filterMap_congr fun r _ => ?_
          exact reconciliationView_rename f r
      | none =>
          -- nothing is renamed in what is no list, and it holds no reconciliation
          refine ⟨recs, ?_, ?_⟩
          · unfold renameLines
            rwa [mapItems_of_none _ hv]
          · have hnone : recs.filterMap reconciliationView = [] := by
              rw [hlist]
              unfold reportItems Json.get
              rw [hfield, Option.getD_some, hv]
              rfl
            rw [hnone]
            rfl

/-- The key of a reconciliation is a line key of the report. -/
theorem reconciliation_named {recs : List Json}
    (h : iterate ((report.get? "reconciliations").getD (.arr [])) = .ok recs) {p : Json × Bool}
    (hp : p ∈ recs.filterMap reconciliationView) : NamedIn {s | s ∈ lineKeys report} p.1 := by
  rw [reconciliations_of_iterate h] at hp
  intro s hs
  obtain ⟨r, hmem, hview⟩ := List.mem_filterMap.mp hp
  unfold reconciliationView at hview
  split at hview
  · cases hview
    refine List.mem_filterMap.mpr ⟨r, List.mem_append_right _ hmem, ?_⟩
    dsimp only at hs
    rw [hs]
    rfl
  · cases hview

/-- Two renamings that agree on the line keys. -/
theorem renameText_congr (hfg : ∀ s ∈ S, f s = g s) {k : Json} (hk : NamedIn S k) :
    renameText f k = renameText g k := by
  cases hs : k.asStr? with
  | none => rw [renameText_of_none hs, renameText_of_none hs]
  | some s =>
      rw [asStr?_eq_some] at hs
      rw [hs]
      exact congrArg Json.str (hfg s (hk s hs))

/-- The keys of the reconciled lines are renamed. -/
theorem reconciledKeys_rename {keys : List Json} (hr : Renamed f report report')
    (hfg : ∀ s ∈ lineKeys report, f s = g s) (h : reconciledKeys report = .ok keys) :
    reconciledKeys report' = .ok (keys.map (renameText g)) ∧
      ∀ k ∈ keys, NamedIn {s | s ∈ lineKeys report} k := by
  unfold reconciledKeys at h ⊢
  obtain ⟨recs, hrecs, h⟩ := bind_eq_ok.mp h
  rw [mapError_eq_ok] at hrecs
  obtain ⟨recs', hrecs', hviews⟩ := reconciliations_rename hr hrecs
  have hnamed : ∀ p ∈ (recs.filterMap reconciliationView).filter Prod.snd, NamedIn {s | s ∈ lineKeys report} p.1 :=
    fun p hp => reconciliation_named hrecs (List.mem_filter.mp hp).1
  constructor
  · refine bind_eq_ok.mpr ⟨recs', mapError_eq_ok.mpr hrecs', ?_⟩
    rw [hviews, List.filter_map]
    rw [mapM_eq_ok] at h ⊢
    rw [List.forall₂_map_left_iff, List.forall₂_map_right_iff]
    refine ((List.forall₂_and_left _ _).mpr ⟨hnamed, h⟩).imp ?_
    rintro p k ⟨hp, hk⟩
    dsimp only
    rw [renameText_congr hfg hp]
    exact setElement_rename g hk
  · intro k hk
    obtain ⟨p, hp, hset⟩ := exists_of_mem_mapM h hk
    unfold setElement at hset
    split at hset
    · cases hset
      exact hnamed p hp
    · cases hset

/-- The attributions of the renamed report. -/
theorem attributions_rename {views : List AttributionView} (hr : Renamed f report report')
    (h : (reportItems report "attributions").mapM attributionView = .ok views) :
    (reportItems report' "attributions").mapM attributionView = .ok (views.map (·.rename f)) := by
  have hitems : reportItems report' "attributions" =
      (reportItems report "attributions").map (mapField "line_key" (renameText f)) := by
    unfold reportItems Json.get
    rw [hr.attributions]
    cases report.get? "attributions" with
    | none => rfl
    | some v =>
        rw [Option.map_some, Option.getD_some, Option.getD_some]
        unfold renameLines
        rw [asArr?_mapItems]
        cases v.asArr? <;> rfl
  rw [hitems]
  rw [mapM_eq_ok] at h ⊢
  rw [List.forall₂_map_left_iff, List.forall₂_map_right_iff]
  exact h.imp fun a v hv => attributionView_rename f hv

theorem empty_le (s : String) : "" ≤ s := by
  apply not_lt.mp
  rw [String.lt_iff_toList_lt]
  exact List.not_lt_nil _

/-- The text that a line key is renamed to, other texts being left alone. -/
def onLineKeys (f : String → String) (report : Json) (s : String) : String :=
  if s ∈ lineKeys report then f s else s

/-- The texts that the attributions are sorted by. -/
def readKeys (report : Json) : Set String := {s | s ∈ lineKeys report ∨ Keyless report ∧ s = ""}

theorem strictMonoOn_onLineKeys (hf : StrictMonoOn f {s | s ∈ lineKeys report})
    (hkeyless : Keyless report → ∀ s ∈ lineKeys report, f s = "" ↔ s = "") :
    StrictMonoOn (onLineKeys f report) (readKeys report) := by
  have hempty : Keyless report → onLineKeys f report "" = "" := by
    intro hk
    unfold onLineKeys
    split
    · rename_i hmem
      exact (hkeyless hk "" hmem).mpr rfl
    · rfl
  rintro s hs t ht hlt
  obtain hs | ⟨hk, rfl⟩ := hs
  · obtain ht | ⟨_, rfl⟩ := ht
    · unfold onLineKeys
      rw [if_pos hs, if_pos ht]
      exact hf hs ht hlt
    · exact absurd hlt (not_lt.mpr (empty_le s))
  · rw [hempty hk]
    obtain ht | ⟨_, rfl⟩ := ht
    · unfold onLineKeys
      rw [if_pos ht]
      have hne : f t ≠ "" := fun h => hlt.ne' ((hkeyless hk t ht).mp h)
      exact lt_of_le_of_ne (empty_le (f t)) hne.symm
    · exact absurd hlt (lt_irrefl _)

/-- What an attribution of the report is sorted by. -/
theorem readKey_named (hkeyless : Keyless report → ∀ s ∈ lineKeys report, f s = "" ↔ s = "") {a : Json}
    (ha : a ∈ reportItems report "attributions") {v : AttributionView} (hv : attributionView a = .ok v) :
    NamedIn (readKeys report) v.readKey ∧ (v.rename f).readKey = renameText (onLineKeys f report) v.readKey := by
  have hfield : v.lineKey = a.get? "line_key" := by
    unfold attributionView at hv
    split at hv
    · cases hv
      rfl
    · cases hv
  unfold AttributionView.readKey AttributionView.rename
  dsimp only
  rw [hfield]
  cases hkey : a.get? "line_key" with
  | none =>
      have hk : Keyless report := ⟨a, ha, hkey⟩
      constructor
      · intro s hs
        cases hs
        exact Or.inr ⟨hk, rfl⟩
      · show Json.str "" = .str (onLineKeys f report "")
        unfold onLineKeys
        split
        · rename_i hmem
          rw [(hkeyless hk "" hmem).mpr rfl]
        · rfl
  | some k =>
      have hnamed : NamedIn {s | s ∈ lineKeys report} k := by
        intro s hs
        refine List.mem_filterMap.mpr ⟨a, List.mem_append_left _ ha, ?_⟩
        unfold Json.get
        rw [hkey, hs]
        rfl
      refine ⟨fun s hs => Or.inl (hnamed s hs), ?_⟩
      exact renameText_congr (fun s hs => (if_pos hs).symm) hnamed

/-- **The verdicts do not show a renaming.** -/
theorem lineVerdicts_rename {verdicts : Json} {limit offset : ℤ} (hr : Renamed f report report')
    (hf : StrictMonoOn f {s | s ∈ lineKeys report})
    (hkeyless : Keyless report → ∀ s ∈ lineKeys report, f s = "" ↔ s = "")
    (h : lineVerdicts U repr report limit offset = .ok verdicts) :
    lineVerdicts U repr report' limit offset = .ok verdicts := by
  have hmono := strictMonoOn_onLineKeys hf hkeyless
  unfold lineVerdicts at h ⊢
  obtain ⟨keys, hkeys, h⟩ := bind_eq_ok.mp h
  obtain ⟨views, hviews, h⟩ := bind_eq_ok.mp h
  obtain ⟨sorted, hsorted, h⟩ := bind_eq_ok.mp h
  obtain ⟨items, hitems, h⟩ := bind_eq_ok.mp h
  obtain ⟨hkeys', hkeysnamed⟩ := reconciledKeys_rename hr
    (fun s hs => show f s = onLineKeys f report s from (if_pos hs).symm) hkeys
  have hnamed : ∀ v ∈ views, NamedIn (readKeys report) v.readKey ∧
      (v.rename f).readKey = renameText (onLineKeys f report) v.readKey := by
    intro v hv
    obtain ⟨a, ha, hview⟩ := exists_of_mem_mapM hviews hv
    exact readKey_named hkeyless ha hview
  have hsorted' : sortedBy (fun v w => Json.ltItems? v.sortKey w.sortKey) (views.map (·.rename f)) =
      .ok (sorted.map (·.rename f)) := by
    have hmapped : Lib.sorted (fun v w => Json.ltItems? v.sortKey w.sortKey) (views.map (·.rename f)) =
        (Lib.sorted (fun v w => Json.ltItems? v.sortKey w.sortKey) views).map (List.map (·.rename f)) := by
      apply sorted_map
      intro v hv w hw
      exact sortKey_rename hmono (hnamed v hv).1 (hnamed w hw).1 (hnamed v hv).2 (hnamed w hw).2
    unfold sortedBy at hsorted ⊢
    rw [hmapped]
    split at hsorted
    · rename_i views' hviews'
      rw [hviews']
      cases hsorted
      rfl
    · cases hsorted
  refine bind_eq_ok.mpr ⟨_, hkeys', bind_eq_ok.mpr ⟨_, attributions_rename hr hviews, bind_eq_ok.mpr ⟨_, hsorted',
    bind_eq_ok.mpr ⟨items, ?_, ?_⟩⟩⟩⟩
  · rw [← List.map_drop, ← List.map_take, List.zipIdx_map]
    rw [mapM_eq_ok] at hitems ⊢
    rw [List.forall₂_map_left_iff]
    have hpage : ∀ p ∈ ((sorted.drop offset.toNat).take limit.toNat).zipIdx,
        NamedIn (readKeys report) p.1.readKey ∧
          (p.1.rename f).readKey = renameText (onLineKeys f report) p.1.readKey := by
      intro p hp
      have hmem := List.mem_of_mem_drop (List.mem_of_mem_take (List.fst_mem_of_mem_zipIdx hp))
      exact hnamed p.1 (mem_of_sortedBy hsorted hmem)
    refine ((List.forall₂_and_left _ _).mpr ⟨hpage, hitems⟩).imp ?_
    rintro p item ⟨hv, hitem⟩
    exact verdictItem_rename hmono hv.1 (fun k hk s hs => Or.inl (hkeysnamed k hk s hs)) hv.2 hitem
  · rw [List.length_map]
    exact h

end Lines

/-- **A renaming of the lines does not show in the payload.** -/
theorem payload_renamed {limit offset : Json} {f : String → String} {report report' payload : Json}
    (hr : Renamed f report report') (hf : StrictMonoOn f {s | s ∈ lineKeys report})
    (hkeyless : Keyless report → ∀ s ∈ lineKeys report, f s = "" ↔ s = "")
    (h : buildPresentationPayload H U repr report none limit offset = .ok payload) :
    buildPresentationPayload H U repr report' none limit offset = .ok payload := by
  have htotals : report'.get "totals" = report.get "totals" := by
    unfold Json.get
    rw [hr.totals]
  have hconfig : report'.get "config" = report.get "config" := by
    unfold Json.get
    rw [hr.config]
  unfold buildPresentationPayload at h ⊢
  obtain ⟨schema, hschema, h⟩ := bind_eq_ok.mp h
  obtain ⟨limited, hlimited, h⟩ := bind_eq_ok.mp h
  obtain ⟨start, hstart, h⟩ := bind_eq_ok.mp h
  obtain ⟨exceptions, hexceptions, h⟩ := bind_eq_ok.mp h
  obtain ⟨recovery, hrecovery, h⟩ := bind_eq_ok.mp h
  obtain ⟨verdicts, hverdicts, h⟩ := bind_eq_ok.mp h
  obtain ⟨_, hobj, hlist, hwell, hversion⟩ := validateReportStructure_eq_ok.mp hschema
  have hschema' : validateReportStructure U repr report' = .ok schema := by
    refine validateReportStructure_eq_ok.mpr ⟨hr.document, by rwa [htotals], ?_, by rwa [htotals], ?_⟩
    · unfold Json.get at hlist ⊢
      rw [hr.attributions]
      cases hfield : report.get? "attributions" with
      | none =>
          rw [hfield] at hlist
          cases hlist
      | some v =>
          rw [hfield, Option.getD_some] at hlist
          rw [Option.map_some, Option.getD_some]
          unfold renameLines
          rwa [asArr?_mapItems, Option.isSome_map]
    · unfold validateSchemaVersion at hversion ⊢
      rwa [hconfig]
  refine bind_eq_ok.mpr ⟨schema, hschema', bind_eq_ok.mpr ⟨limited, hlimited, bind_eq_ok.mpr ⟨start, hstart,
    bind_eq_ok.mpr ⟨exceptions, htotals ▸ hexceptions, bind_eq_ok.mpr ⟨recovery, recoveryDict_rename hr hrecovery,
    bind_eq_ok.mpr ⟨verdicts, lineVerdicts_rename hr hf hkeyless hverdicts, ?_⟩⟩⟩⟩⟩⟩
  unfold runIdentity at h ⊢
  rw [htotals, hconfig, hr.auditRoot]
  exact h

/-- **What a payload reveals**: of two reports with one projection the same, and of the line keys only their order and
    the empty one, where an attribution without a key is read as having it. -/
theorem payload_projects (H : Hashing) (U : Unicode) (repr : Json → String) (limit offset : Json) :
    (∀ report report' payload payload',
      buildPresentationPayload H U repr report none limit offset = .ok payload →
      buildPresentationPayload H U repr report' none limit offset = .ok payload' →
      SameProjection report report' → payload = payload') ∧
    (∀ f report report' payload, Renamed f report report' → StrictMonoOn f {s | s ∈ lineKeys report} →
      (Keyless report → ∀ s ∈ lineKeys report, f s = "" ↔ s = "") →
      buildPresentationPayload H U repr report none limit offset = .ok payload →
      buildPresentationPayload H U repr report' none limit offset = .ok payload) :=
  ⟨fun _ _ _ _ h h' hsame => payload_eq limit offset h h' hsame,
    fun _ _ _ _ hr hf hkeyless h => payload_renamed hr hf hkeyless h⟩

/-! ### Small reports -/

/-- A report of totals that are zero. -/
def smallReport (attributions reconciliations : List Json) (rest : List (String × Json)) : Json :=
  .obj ([("totals", .obj (requiredTotals.map fun field => (field, .int 0))), ("attributions", .arr attributions),
    ("reconciliations", .arr reconciliations)] ++ rest)

def keyedAttribution (key detail : String) : Json :=
  .obj [("line_key", .str key), ("rail", .str "direct_upi"),
    ("evidence", .arr [.obj [("signal", .str "amount_corr"), ("detail", .str detail)]])]

def balancedReconciliation (key : String) : Json := .obj [("line_key", .str key), ("balanced", .bool true)]

/-- A report, another one that tells more of the evidence and lists an exception, and the first one with its line
    renamed have one payload. -/
theorem payload_projects_small :
    ∃ payload,
      buildPresentationPayload blankHashing asciiUnicode (fun _ => "") (smallReport [keyedAttribution "k" ""]
        [balancedReconciliation "k"] []) none (.int 10) (.int 0) = .ok payload ∧
      (∀ payload', buildPresentationPayload blankHashing asciiUnicode (fun _ => "") (smallReport
        [keyedAttribution "k" "UTR 4711"] [balancedReconciliation "k"] [("exceptions", .arr [.str "hidden"])])
        none (.int 10) (.int 0) = .ok payload' → payload = payload') ∧
      buildPresentationPayload blankHashing asciiUnicode (fun _ => "") (smallReport [keyedAttribution "xk" ""]
        [balancedReconciliation "xk"] []) none (.int 10) (.int 0) = .ok payload := by
  have hsome : (buildPresentationPayload blankHashing asciiUnicode (fun _ => "") (smallReport
      [keyedAttribution "k" ""] [balancedReconciliation "k"] []) none (.int 10) (.int 0)).toOption.isSome = true := by
    decide +kernel
  obtain ⟨payload, hpayload⟩ : ∃ payload, buildPresentationPayload blankHashing asciiUnicode (fun _ => "")
      (smallReport [keyedAttribution "k" ""] [balancedReconciliation "k"] []) none (.int 10) (.int 0) =
        .ok payload := by
    cases h : buildPresentationPayload blankHashing asciiUnicode (fun _ => "") (smallReport
        [keyedAttribution "k" ""] [balancedReconciliation "k"] []) none (.int 10) (.int 0) with
    | ok payload => exact ⟨payload, rfl⟩
    | error e =>
        rw [h] at hsome
        cases hsome
  have hprojects := payload_projects blankHashing asciiUnicode (fun _ => "") (.int 10) (.int 0)
  refine ⟨payload, hpayload, ?_, ?_⟩
  · intro payload' hpayload'
    exact hprojects.1 _ _ _ _ hpayload hpayload' ⟨rfl, rfl, rfl, rfl, rfl, rfl⟩
  · have hr : Renamed (fun s => "x" ++ s) (smallReport [keyedAttribution "k" ""] [balancedReconciliation "k"] [])
        (smallReport [keyedAttribution "xk" ""] [balancedReconciliation "xk"] []) :=
      ⟨rfl, rfl, rfl, rfl, rfl, rfl, rfl⟩
    refine hprojects.2 _ _ _ _ hr ?_ ?_ hpayload
    · intro s hs t ht hlt
      simp [smallReport, keyedAttribution, balancedReconciliation, lineKeys, reportItems, Json.get, Json.asArr?,
        Json.asStr?] at hs ht
      rw [hs, ht] at hlt
      exact absurd hlt (lt_irrefl _)
    · rintro ⟨a, ha, hnone⟩
      simp [smallReport, reportItems, Json.get, Json.asArr?] at ha
      rw [ha] at hnone
      cases hnone

/-- Which verdicts of a payload say that the line is reconciled. -/
def reconciledVerdicts (payload : Json) : Option (List Bool) :=
  ((payload.get "line_verdicts").get "items").asArr?.map (List.map fun item => (item.get "reconciled").truth)

theorem strictMono_prepend : StrictMono fun s : String => "x" ++ s := by
  intro s t h
  rw [String.lt_iff_toList_lt] at h ⊢
  rw [String.toList_append, String.toList_append]
  exact List.cons_lt_cons_self.mpr h

/-- **A renaming can show**: an attribution without a line key counts as reconciled as long as the empty text is the
    key of a balanced reconciliation, and no longer once that key is renamed. -/
theorem renaming_shows : StrictMono (fun s : String => "x" ++ s) ∧
    Renamed (fun s => "x" ++ s) (smallReport [.obj []] [balancedReconciliation ""] [])
      (smallReport [.obj []] [balancedReconciliation "x"] []) ∧
    ∃ payload payload',
      buildPresentationPayload blankHashing asciiUnicode (fun _ => "") (smallReport [.obj []]
        [balancedReconciliation ""] []) none (.int 10) (.int 0) = .ok payload ∧
      buildPresentationPayload blankHashing asciiUnicode (fun _ => "") (smallReport [.obj []]
        [balancedReconciliation "x"] []) none (.int 10) (.int 0) = .ok payload' ∧ payload ≠ payload' := by
  have hread : ∀ (report : Json) (verdicts : List Bool),
      (buildPresentationPayload blankHashing asciiUnicode (fun _ => "") report none (.int 10) (.int 0)).toOption.bind
        reconciledVerdicts = some verdicts →
      ∃ payload, buildPresentationPayload blankHashing asciiUnicode (fun _ => "") report none (.int 10) (.int 0) =
        .ok payload ∧ reconciledVerdicts payload = some verdicts := by
    intro report verdicts h
    cases hbuilt : buildPresentationPayload blankHashing asciiUnicode (fun _ => "") report none (.int 10) (.int 0) with
    | ok payload =>
        rw [hbuilt] at h
        exact ⟨payload, rfl, h⟩
    | error e =>
        rw [hbuilt] at h
        cases h
  obtain ⟨payload, hpayload, hverdicts⟩ := hread (smallReport [.obj []] [balancedReconciliation ""] [])
    [true] (by decide +kernel)
  obtain ⟨payload', hpayload', hverdicts'⟩ := hread (smallReport [.obj []] [balancedReconciliation "x"] [])
    [false] (by decide +kernel)
  refine ⟨strictMono_prepend, ⟨rfl, rfl, rfl, rfl, rfl, rfl, rfl⟩, payload, payload', hpayload, hpayload', ?_⟩
  rintro rfl
  rw [hverdicts] at hverdicts'
  cases hverdicts'

end Untangle
