import Untangle.Correctness.Recovery
import Untangle.Correctness.RunReport
import Untangle.Webapp.Presentation

/-!
# `Correctness.Presentation` — which reports the presentation boundary accepts

The validator asks of a report that certain totals are not negative. The engine's reports have every field it asks
for, of the type it asks for (`wellFormedTotals_toDict`), and their recovery plans have no negative amount, so what
decides is the sign of four numbers. Two of them are never negative, because a credit is not and a debit is never
reconciled; the other two are the totals of the rails and the recoverable GST (`presented_iff`).
-/

namespace Untangle

open Lib

variable {H : Hashing} {U : Unicode} {repr : Json → String}

/-! ## The validator, check by check -/

/-- A refusal before the rest: it does not happen. -/
theorem refused_unless {α : Type} {c : Prop} [Decidable c] {message : String}
    {next : Unit → Except PresentationError α} {rest : Except PresentationError α} {a : α} :
    (if c then schemaError message >>= next else rest) = .ok a ↔ ¬ c ∧ rest = .ok a := by
  by_cases hc : c
  · rw [if_pos hc]
    constructor
    · intro h
      cases h
    · intro h
      exact absurd hc h.1
  · rw [if_neg hc]
    exact ⟨fun h => ⟨hc, h⟩, fun h => h.2⟩

theorem validateTotal_eq_ok {totals : Json} {field : String} :
    validateTotal U repr totals field = .ok () ↔ ∃ n, totals.get? field = some (.int n) ∧ 0 ≤ n := by
  unfold validateTotal
  cases hfield : totals.get? field with
  | none =>
      constructor
      · intro h
        cases h
      · rintro ⟨n, h, _⟩
        cases h
  | some v =>
      cases hn : v.asInt? with
      | none =>
          simp only [hn]
          constructor
          · intro h
            cases h
          · rintro ⟨n, hv, _⟩
            rw [Json.asInt?_eq_some.mpr (Option.some.inj hv)] at hn
            cases hn
      | some n =>
          rw [Json.asInt?_eq_some] at hn
          subst hn
          simp only [Json.asInt?]
          by_cases hneg : n < 0
          · rw [if_pos hneg]
            constructor
            · intro h
              cases h
            · rintro ⟨m, hm, hle⟩
              cases hm
              omega
          · rw [if_neg hneg]
            exact ⟨fun _ => ⟨n, rfl, not_lt.mp hneg⟩, fun _ => rfl⟩

/-- A map from rails, if there is one, as the validator wants it. -/
def RailMap (totals : Json) (field : String) : Prop :=
  ∀ v, totals.get? field = some v → ∃ fields, v = .obj fields ∧ ∀ p ∈ fields, ∃ n, p.2 = .int n ∧ 0 ≤ n

theorem validateRailMap_eq_ok {totals : Json} {field : String} :
    validateRailMap U totals field = .ok () ↔ RailMap totals field := by
  unfold validateRailMap RailMap
  cases hfield : totals.get? field with
  | none => exact ⟨fun _ v hv => (by cases hv), fun _ => rfl⟩
  | some v =>
      cases hfields : v.asObj? with
      | none =>
          simp only [hfields]
          constructor
          · intro h
            cases h
          · intro h
            obtain ⟨fields, hv, _⟩ := h v rfl
            rw [Json.asObj?_eq_some.mpr hv] at hfields
            cases hfields
      | some fields =>
          rw [Json.asObj?_eq_some] at hfields
          subst hfields
          simp only [Json.asObj?]
          rw [forM_eq_ok]
          have hstep : ∀ p : String × Json, ((if p.2.asInt?.any fun n => 0 ≤ n then .ok ()
              else schemaError ("Report totals " ++ field ++ "[" ++ U.repr p.1 ++ "] must be a non-negative integer")) :
                Except PresentationError Unit) = .ok () ↔ ∃ n, p.2 = .int n ∧ 0 ≤ n := by
            intro p
            by_cases hp : (p.2.asInt?.any fun n => 0 ≤ n) = true
            · rw [if_pos hp]
              obtain ⟨n, hn, hle⟩ := (Option.any_eq_true _ _).mp hp
              exact ⟨fun _ => ⟨n, Json.asInt?_eq_some.mp hn, of_decide_eq_true hle⟩, fun _ => rfl⟩
            · rw [if_neg hp]
              constructor
              · intro h
                cases h
              · rintro ⟨n, hn, hle⟩
                refine absurd ((Option.any_eq_true _ _).mpr ⟨n, Json.asInt?_eq_some.mpr hn, ?_⟩) hp
                exact decide_eq_true hle
          constructor
          · intro h w hw
            exact ⟨fields, (Option.some.inj hw).symm, fun p hp => (hstep p).mp (h p hp)⟩
          · intro h p hp
            obtain ⟨fields', hfields', hall⟩ := h _ rfl
            cases hfields'
            exact (hstep p).mpr (hall p hp)

/-- The totals that the validator accepts. -/
structure WellFormedTotals (totals : Json) : Prop where
  required : ∀ field ∈ requiredTotals, ∃ n, totals.get? field = some (.int n) ∧ 0 ≤ n
  counts : RailMap totals "by_rail_count"
  paise : RailMap totals "by_rail_paise"

/-- **What the validator asks of a report.** -/
theorem validateReportStructure_eq_ok {report : Json} {schema : Bool × String} :
    validateReportStructure U repr report = .ok schema ↔
      report.isObj = true ∧ (report.get "totals").isObj = true ∧ (report.get "attributions").asArr?.isSome ∧
        WellFormedTotals (report.get "totals") ∧ validateSchemaVersion repr report = .ok schema := by
  unfold validateReportStructure
  simp only [refused_unless, bind_unit_eq_ok, forM_eq_ok, validateTotal_eq_ok, validateRailMap_eq_ok,
    Bool.not_eq_true', Bool.not_eq_false, Option.isNone_iff_eq_none]
  constructor
  · rintro ⟨hobj, htotals, hlist, hrequired, hcounts, hpaise, hversion⟩
    exact ⟨hobj, htotals, Option.isSome_iff_ne_none.mpr hlist, ⟨hrequired, hcounts, hpaise⟩, hversion⟩
  · rintro ⟨hobj, htotals, hlist, hwell, hversion⟩
    exact ⟨hobj, htotals, Option.isSome_iff_ne_none.mp hlist, hwell.required, hwell.counts, hwell.paise, hversion⟩

/-! ## The reports of the engine -/

theorem railMap_of_items {totals : Json} {field : String} (items : List (String × ℤ))
    (h : totals.get? field = some (.obj (items.map fun p => (p.1, .int p.2)))) :
    RailMap totals field ↔ ∀ p ∈ items, 0 ≤ p.2 := by
  unfold RailMap
  rw [h]
  constructor
  · intro hall p hp
    obtain ⟨fields, hfields, hentries⟩ := hall _ rfl
    cases hfields
    obtain ⟨n, hn, hle⟩ := hentries _ (List.mem_map_of_mem hp)
    cases hn
    exact hle
  · intro hall v hv
    refine ⟨_, (Option.some.inj hv).symm, ?_⟩
    intro q hq
    obtain ⟨p, hp, rfl⟩ := List.mem_map.mp hq
    exact ⟨p.2, rfl, hall p hp⟩

/-- The engine's totals: only four of them can be negative. -/
theorem wellFormedTotals_toDict (t : RunTotals) : WellFormedTotals t.toDict ↔
    0 ≤ t.totalCreditPaise ∧ 0 ≤ t.reconciledPaise ∧ 0 ≤ t.feeGstRecoverablePaise ∧ ∀ p ∈ t.byRailPaise, 0 ≤ p.2 := by
  have hpaise : RailMap t.toDict "by_rail_paise" ↔ ∀ p ∈ t.byRailPaise, 0 ≤ p.2 := railMap_of_items _ rfl
  have hcounts : RailMap t.toDict "by_rail_count" := by
    apply (railMap_of_items (t.byRailCount.map fun p => (p.1, (p.2 : ℤ))) ?_).mpr
    · intro p hp
      obtain ⟨q, _, rfl⟩ := List.mem_map.mp hp
      exact Int.natCast_nonneg q.2
    · rw [List.map_map]
      rfl
  have hrequired : (∀ field ∈ requiredTotals, ∃ n, t.toDict.get? field = some (.int n) ∧ 0 ≤ n) ↔
      0 ≤ t.totalCreditPaise ∧ 0 ≤ t.reconciledPaise ∧ 0 ≤ t.feeGstRecoverablePaise := by
    simp [requiredTotals, RunTotals.toDict]
  constructor
  · rintro ⟨h, _, hp⟩
    obtain ⟨hcredit, hreconciled, hgst⟩ := hrequired.mp h
    exact ⟨hcredit, hreconciled, hgst, hpaise.mp hp⟩
  · rintro ⟨hcredit, hreconciled, hgst, hp⟩
    exact ⟨hrequired.mpr ⟨hcredit, hreconciled, hgst⟩, hcounts, hpaise.mpr hp⟩

theorem validateSchemaVersion_engine {report : Json} {cfg : Config} {solverActive : Bool}
    (h : report.get "config" = configDict cfg solverActive) :
    validateSchemaVersion repr report = .ok (false, reportSchemaVersion) := by
  unfold validateSchemaVersion
  rw [h]
  rfl

/-- **The validator reads the totals of an engine report** and nothing else of it. -/
theorem validateReportStructure_engine (U : Unicode) (repr : Json → String) {report : RunReport} {cfg : Config}
    {solverActive : Bool}
    (h : report.config = configDict cfg solverActive) :
    (∃ schema, validateReportStructure U repr report.toDict = .ok schema) ↔ WellFormedTotals report.totals.toDict := by
  have hversion : validateSchemaVersion repr report.toDict = .ok (false, reportSchemaVersion) :=
    validateSchemaVersion_engine ((get_config report).trans h)
  constructor
  · rintro ⟨schema, hok⟩
    have hwell := (validateReportStructure_eq_ok.mp hok).2.2.2.1
    rwa [get_totals] at hwell
  · intro hwell
    refine ⟨_, validateReportStructure_eq_ok.mpr ⟨rfl, rfl, ?_, ?_, hversion⟩⟩
    · rw [get_attributions]
      rfl
    · rwa [get_totals]

/-! ## The recovery plan -/

theorem actionText_str {action : Json} {name text : String} (h : action.get name = .str text) (i : Nat) :
    actionText U i action name = .ok text := by
  unfold actionText
  rw [h]
  rfl

theorem actionPaise_int {action : Json} {name : String} {n : ℤ} (h : action.get name = .int n) (hn : 0 ≤ n) (i : Nat) :
    actionPaise U i action name = .ok n := by
  unfold actionPaise
  rw [h]
  simp [Json.asInt?, Option.filter_some, hn]

theorem actionGain_float {action : Json} {q : ℚ} (h : action.get "gain_per_cost" = .float q) (hq : 0 ≤ q) (i : Nat) :
    actionGain i action = .ok q := by
  unfold actionGain
  rw [h]
  exact if_neg (not_lt.mpr hq)

theorem actionResolves_arr {action : Json} {keys : List String}
    (h : action.get? "resolves" = some (.arr (keys.map .str))) (i : Nat) :
    actionResolves i action = .ok (some keys) := by
  unfold actionResolves
  rw [h]
  dsimp only [Json.asArr?, Option.bind_some]
  rw [Json.mapM_asStr?]

theorem planPaise_int {plan : Json} {name : String} {n : ℤ} (h : plan.get? name = some (.int n)) (hn : 0 ≤ n) :
    planPaise U plan name = .ok n := by
  unfold planPaise
  rw [h]
  simp [Json.asInt?, Option.filter_some, hn]

/-- An action of the engine is accepted as it stands. -/
theorem validateAction_toDict {a : RecoveryAction} (h : a.Amounts) (i : Nat) :
    validateAction U i a.toDict = .ok ⟨a.actionType.value, a.description, a.recoverablePaise, a.debitExposurePaise,
      roundTo 4 a.gainPerCost, some a.resolves⟩ := by
  unfold validateAction
  simp only [refused_unless, bind_eq_ok]
  refine ⟨Bool.false_ne_true, _, actionText_str rfl i, _, actionText_str rfl i, _, actionPaise_int rfl h.recoverable i, _,
    actionPaise_int rfl h.exposure i, _, actionGain_float rfl (roundTo_nonneg 4 h.gain) i, _,
    actionResolves_arr rfl i, rfl⟩

/-- **A plan of the engine is accepted**, each action with the keys it resolves. -/
theorem validateRecoveryPlan_toDict {plan : RecoveryPlan} (h : plan.Amounts) :
    ∃ clean, validateRecoveryPlan U plan.toDict = .ok clean ∧ ∀ a ∈ clean.actions, a.resolves.isSome := by
  have hstep : ∀ p ∈ (plan.actions.map RecoveryAction.toDict).zipIdx,
      ∃ clean, validateAction U p.2 p.1 = .ok clean ∧ clean.resolves.isSome := by
    intro p hp
    obtain ⟨a, ha, hdict⟩ := List.mem_map.mp (List.fst_mem_of_mem_zipIdx hp)
    rw [← hdict]
    exact ⟨_, validateAction_toDict (h.actions a ha) p.2, rfl⟩
  obtain ⟨actions, hactions, hkeys⟩ := exists_mapM_eq_ok hstep
  refine ⟨⟨actions, plan.recoverableIfActionedPaise, plan.unresolvedCreditPaise, plan.unresolvedDebitPaise⟩, ?_, hkeys⟩
  unfold validateRecoveryPlan
  rw [if_neg (show ¬ plan.toDict.isNull = true from Bool.false_ne_true)]
  simp only [refused_unless]
  refine ⟨Bool.false_ne_true, ?_⟩
  rw [show ((plan.toDict.get? "actions").getD (.arr [])).asArr? = some (plan.actions.map RecoveryAction.toDict) from rfl]
  simp only [bind_eq_ok]
  exact ⟨_, hactions, _, planPaise_int rfl h.recoverable, _, planPaise_int rfl h.credit, _, planPaise_int rfl h.debit,
    rfl⟩

/-! ## The payload -/

theorem recoveryDict_toDict {report : RunReport} {plan : RecoveryPlan} (hplan : report.recoveryPlan = some plan)
    (h : plan.Amounts) : ∃ recovery, recoveryDict U report.toDict = .ok recovery := by
  obtain ⟨clean, hclean, hkeys⟩ := validateRecoveryPlan_toDict (U := U) h
  have hshown : ∀ a ∈ clean.actions, ∃ shown, presentedAction a = .ok shown := by
    intro a ha
    obtain ⟨keys, hresolves⟩ := Option.isSome_iff_exists.mp (hkeys a ha)
    unfold presentedAction
    rw [hresolves]
    exact ⟨_, rfl⟩
  obtain ⟨actions, hactions⟩ := exists_mapM_ok hshown
  unfold recoveryDict
  rw [get_recoveryPlan hplan, hclean]
  exact ⟨_, bind_eq_ok.mpr ⟨clean, rfl, bind_eq_ok.mpr ⟨actions, hactions, rfl⟩⟩⟩

/-- What compares is sorted. -/
theorem exists_sortedBy {α : Type} {lt? : α → α → Option Bool} {items : List α}
    (h : ∀ a ∈ items, ∀ b ∈ items, (lt? a b).isSome = true) : ∃ sorted, sortedBy lt? items = .ok sorted := by
  obtain ⟨sorted, hsorted⟩ := isSome_sorted h
  unfold sortedBy
  rw [hsorted]
  exact ⟨sorted, rfl⟩

theorem mem_of_sortedBy {α : Type} {lt? : α → α → Option Bool} {items sorted : List α}
    (h : sortedBy lt? items = .ok sorted) {a : α} (ha : a ∈ sorted) : a ∈ items := by
  unfold sortedBy at h
  cases hsorted : Lib.sorted lt? items with
  | none =>
      rw [hsorted] at h
      cases h
  | some items' =>
      rw [hsorted] at h
      cases h
      exact (mem_sorted hsorted).mp ha

theorem exceptionsSummary_toDict (t : RunTotals) : ∃ summary, exceptionsSummary t.toDict = .ok summary := by
  unfold exceptionsSummary
  rw [show ((t.toDict.get? "exceptions_by_reason").getD (.obj [])).asObj? =
    some (t.exceptionsByReason.map fun p => (p.1, .int p.2)) from rfl]
  have hranked : ∀ p ∈ t.exceptionsByReason.map fun p => (p.1, Json.int p.2),
      ∃ r, ((negated p.2).map fun rank => (rank, p)) = .ok r ∧ ∃ n, r.1 = .int n := by
    intro p hp
    obtain ⟨q, _, rfl⟩ := List.mem_map.mp hp
    exact ⟨_, rfl, _, rfl⟩
  obtain ⟨ranked, hranked, hints⟩ := exists_mapM_eq_ok hranked
  refine exists_bind_ok ⟨ranked, hranked⟩ fun ranked' hranked' => ?_
  obtain rfl : ranked = ranked' := Except.ok.inj (hranked.symm.trans hranked')
  refine exists_bind_ok (exists_sortedBy ?_) fun _ _ => ⟨_, rfl⟩
  intro r hr r' hr'
  obtain ⟨n, hn⟩ := hints r hr
  obtain ⟨n', hn'⟩ := hints r' hr'
  rw [hn, hn']
  apply Json.isSome_ltItems?_cons (Json.lt?_int n n')
  exact Json.isSome_ltItems?_cons (by simp) (by simp [Json.ltItems?])

/-- The view of an attribution as the engine writes it. -/
def RailAttribution.view (a : RailAttribution) : AttributionView where
  lineKey := some (.str a.lineKey)
  rail := some (.str a.rail)
  confidence := some (.float (roundTo 4 a.confidence))
  tier := some (.str a.tier)
  abstained := some (.bool a.abstained)
  signals := .ok (a.evidence.map fun e => .str e.signal)

theorem attributionView_toDict (a : RailAttribution) : attributionView a.toDict = .ok a.view := by
  have hsignals : evidenceSignals a.toDict = .ok (a.evidence.map fun e => .str e.signal) := by
    unfold evidenceSignals
    rw [show iterate ((a.toDict.get? "evidence").getD (.arr [])) = .ok (a.evidence.map EvidenceItem.toDict) from rfl]
    show Except.ok _ = Except.ok _
    rw [List.filter_eq_self.mpr ?_, List.map_map]
    · rfl
    · intro e he
      obtain ⟨item, _, rfl⟩ := List.mem_map.mp he
      rfl
  unfold attributionView
  rw [if_pos (show a.toDict.isObj = true from rfl), hsignals]
  rfl

/-- Attributions of the engine compare with each other. -/
theorem sortKey_comparable (a b : RailAttribution) :
    (Json.ltItems? a.view.sortKey b.view.sortKey).isSome = true := by
  apply Json.isSome_ltItems?_cons (by simp [RailAttribution.view])
  apply Json.isSome_ltItems?_cons (by simp [RailAttribution.view])
  exact Json.isSome_ltItems?_cons (by simp [RailAttribution.view, AttributionView.readKey]) (by simp [Json.ltItems?])

/-- The verdict of an attribution of the engine is shown. -/
theorem verdictItem_view (U : Unicode) (repr : Json → String) (keys : List Json) (ordinal : Nat)
    (a : RailAttribution) : ∃ item, verdictItem U repr keys ordinal a.view = .ok item := by
  unfold verdictItem
  refine exists_bind_ok ⟨_, rfl⟩ fun signals hsignals => ?_
  obtain rfl : a.evidence.map (fun e => Json.str e.signal) = signals := Except.ok.inj hsignals
  refine exists_bind_ok ⟨_, rfl⟩ fun _ _ => exists_bind_ok (exists_sortedBy ?_) fun _ _ => ?_
  · intro s hs t ht
    obtain ⟨e, _, rfl⟩ := List.mem_map.mp hs
    obtain ⟨e', _, rfl⟩ := List.mem_map.mp ht
    simp
  · exact exists_bind_ok ⟨_, rfl⟩ fun _ _ => ⟨_, rfl⟩

theorem reconciledKeys_toDict (report : RunReport) : ∃ keys, reconciledKeys report.toDict = .ok keys := by
  unfold reconciledKeys
  refine exists_bind_ok ⟨report.reconciliations.map ReconciliationResult.toDict, rfl⟩ fun recs hrecs => ?_
  obtain rfl : report.reconciliations.map ReconciliationResult.toDict = recs := Except.ok.inj hrecs
  refine exists_mapM_ok fun p hp => ?_
  obtain ⟨r, hr, hview⟩ := List.mem_filterMap.mp (List.mem_filter.mp hp).1
  obtain ⟨rec, _, rfl⟩ := List.mem_map.mp hr
  cases hview
  exact ⟨_, rfl⟩

theorem lineVerdicts_toDict (U : Unicode) (repr : Json → String) (report : RunReport) (limit offset : ℤ) :
    ∃ verdicts, lineVerdicts U repr report.toDict limit offset = .ok verdicts := by
  have hviews : (report.attributions.map RailAttribution.toDict).mapM attributionView =
      .ok (report.attributions.map RailAttribution.view) := by
    rw [mapM_eq_ok, List.forall₂_map_left_iff, List.forall₂_map_right_iff]
    exact List.forall₂_same.mpr fun a _ => attributionView_toDict a
  have hview : ∀ v ∈ report.attributions.map RailAttribution.view, ∃ a : RailAttribution, a.view = v := by
    intro v hv
    obtain ⟨a, _, ha⟩ := List.mem_map.mp hv
    exact ⟨a, ha⟩
  unfold lineVerdicts
  refine exists_bind_ok (reconciledKeys_toDict report) fun keys _ => exists_bind_ok ⟨_, hviews⟩ fun views hviews' => ?_
  obtain rfl := Except.ok.inj (hviews.symm.trans hviews')
  refine exists_bind_ok (exists_sortedBy ?_) fun sorted hsorted => exists_bind_ok (exists_mapM_ok ?_) fun _ _ => ⟨_, rfl⟩
  · intro v hv w hw
    obtain ⟨a, rfl⟩ := hview v hv
    obtain ⟨b, rfl⟩ := hview w hw
    exact sortKey_comparable a b
  · intro p hp
    have hmem := List.mem_of_mem_drop (List.mem_of_mem_take (List.fst_mem_of_mem_zipIdx hp))
    obtain ⟨a, ha⟩ := hview p.1 (mem_of_sortedBy hsorted hmem)
    rw [← ha]
    exact verdictItem_view U repr keys _ a

theorem validatePage_int {name kind : String} {least n : ℤ} (h : least ≤ n) :
    validatePage repr name kind least (.int n) = .ok n := by
  unfold validatePage
  simp [Json.asInt?, Option.filter_some, h]

/-- **Past the validator nothing stops an engine report.** -/
theorem buildPresentationPayload_engine {report : RunReport} {plan : RecoveryPlan} {schema : Bool × String}
    (hschema : validateReportStructure U repr report.toDict = .ok schema) (hplan : report.recoveryPlan = some plan)
    (h : plan.Amounts) (certificate : Option Json) {limit offset : ℤ} (hlimit : 1 ≤ limit) (hoffset : 0 ≤ offset) :
    ∃ payload, buildPresentationPayload H U repr report.toDict certificate (.int limit) (.int offset) =
      .ok payload := by
  obtain ⟨summary, hsummary⟩ := exceptionsSummary_toDict report.totals
  obtain ⟨recovery, hrecovery⟩ := recoveryDict_toDict (U := U) hplan h
  obtain ⟨verdicts, hverdicts⟩ := lineVerdicts_toDict U repr report (min limit maxVerdictsLimit) offset
  unfold buildPresentationPayload
  rw [hschema, get_totals]
  exact ⟨_, bind_eq_ok.mpr ⟨_, rfl, bind_eq_ok.mpr ⟨_, validatePage_int hlimit, bind_eq_ok.mpr ⟨_,
    validatePage_int hoffset, bind_eq_ok.mpr ⟨_, hsummary, bind_eq_ok.mpr ⟨_, hrecovery, bind_eq_ok.mpr ⟨_, hverdicts,
    rfl⟩⟩⟩⟩⟩⟩⟩

/-! ## The totals of a run -/

/-- What the credits of a rail bring in. -/
def broughtIn (zipped : List (RailAttribution × BankCreditLine)) (rail : String) : ℤ :=
  ((zipped.filter fun p => p.1.rail = rail ∧ p.2.isCredit).map fun p => p.2.amountPaise).sum

/-- What the debits of a rail take out. -/
def takenOut (zipped : List (RailAttribution × BankCreditLine)) (rail : String) : ℤ :=
  ((zipped.filter fun p => p.1.rail = rail ∧ ¬ p.2.isCredit).map fun p => -p.2.amountPaise).sum

theorem sum_rail (zipped : List (RailAttribution × BankCreditLine)) (rail : String) :
    ((zipped.filter fun p => some p.1.rail = some rail).map fun p => p.2.amountPaise).sum =
      broughtIn zipped rail - takenOut zipped rail := by
  unfold broughtIn takenOut
  induction zipped with
  | nil => rfl
  | cons p zipped ih =>
      by_cases hrail : p.1.rail = rail
      · cases hcredit : p.2.isCredit with
        | true =>
            simp only [List.filter_cons, hrail, hcredit] at ih ⊢
            simp only [decide_true, if_true, List.map_cons, List.sum_cons, ih]
            simp
            omega
        | false =>
            simp only [List.filter_cons, hrail, hcredit] at ih ⊢
            simp only [decide_true, if_true, List.map_cons, List.sum_cons, ih]
            simp
            omega
      · simp only [List.filter_cons, Option.some.injEq, hrail] at ih ⊢
        simpa using ih

/-- The total of a rail is negative as soon as its debits outweigh its credits. -/
theorem paiseByRail_nonneg_iff (zipped : List (RailAttribution × BankCreditLine)) :
    (∀ p ∈ sortedItems (paiseByRail zipped), 0 ≤ p.2) ↔ ∀ rail, takenOut zipped rail ≤ broughtIn zipped rail := by
  have hitem : ∀ rail n, (rail, n) ∈ sortedItems (paiseByRail zipped) ↔
      (∃ p ∈ zipped, p.1.rail = rail) ∧ n = broughtIn zipped rail - takenOut zipped rail := by
    intro rail n
    unfold sortedItems paiseByRail
    rw [(List.perm_insertionSort _ _).mem_iff, ← Dict.get?_eq_some, Dict.get?_gather_sum, sum_rail]
    simp only [Option.some.injEq]
    split
    · rename_i hmet
      rw [Option.some.injEq, eq_comm]
      exact ⟨fun h => ⟨hmet, h⟩, fun h => h.2⟩
    · rename_i hnone
      exact ⟨fun h => (by cases h), fun h => absurd h.1 hnone⟩
  constructor
  · intro h rail
    by_cases hmet : ∃ p ∈ zipped, p.1.rail = rail
    · have hle := h _ ((hitem rail _).mpr ⟨hmet, rfl⟩)
      dsimp only at hle
      omega
    · have hempty : broughtIn zipped rail - takenOut zipped rail = 0 := by
        rw [← sum_rail, List.filter_eq_nil_iff.mpr ?_]
        · rfl
        · intro p hp hrail
          exact hmet ⟨p, hp, Option.some.inj (of_decide_eq_true hrail)⟩
      omega
  · rintro h ⟨rail, n⟩ hp
    have hn := ((hitem rail n).mp hp).2
    have hle := h rail
    dsimp only
    omega

/-! ## What is reconciled -/

section Reconciled

variable {s : Settings} {index : ReconIndex} {cfg : Config} {digest : RowSignature → String}
  {lines : List BankCreditLine} {rows : List ReconRow} {verdict : BankCreditLine → RailAttribution}

/-- **A line that is put up for reconciliation is a credit of the statement.** -/
theorem credit_of_mem_provenLines (hnd : (lines.map BankCreditLine.key).Nodup)
    (hkept : DebitsKept U s index lines verdict) (hpack : s.pack = cfg.evidencePack.rules) {p : Credit}
    (hp : p ∈ provenLines (linesByKey lines) (lines.map verdict)) : p.2 ∈ lines ∧ p.2.isCredit = true := by
  obtain ⟨a, ha, ⟨hrail, _⟩, hkey, hget⟩ := mem_provenLines.mp hp
  obtain ⟨line, hline, rfl⟩ := List.mem_map.mp ha
  rw [hkept.key line hline] at hkey
  rw [← hkey, get?_linesByKey hnd hline] at hget
  rw [← Option.some.inj hget]
  refine ⟨hline, ?_⟩
  cases hcredit : line.isCredit with
  | true => rfl
  | false =>
      rw [hkept.debit line hline hcredit] at hrail
      have hclass := debit_razorpay_iff.mp hrail
      have hhit := hclass.hit
      rw [hpack] at hhit
      exact absurd hhit ((keywordFree_of_registered cfg.registered).not_hit line)

theorem reconciledPaise_nonneg (hlines : LoadedStatement lines) (hkept : DebitsKept U s index lines verdict)
    (hpack : s.pack = cfg.evidencePack.rules) {st : ReconcileState (SettlementIndex.ofRows U digest rows)}
    (hrun : RunInv rows (provenLines (linesByKey lines) (lines.map verdict)) st) :
    0 ≤ ((closeReconcile U (SettlementIndex.ofRows U digest rows)
      (provenLines (linesByKey lines) (lines.map verdict)) st).results.map
        ReconciliationResult.creditAmountPaise).sum := by
  apply List.sum_nonneg
  intro n hn
  obtain ⟨rec, hrec, rfl⟩ := List.mem_map.mp hn
  obtain ⟨c, hc, rfl⟩ := List.mem_map.mp hrec
  obtain ⟨hline, hcredit⟩ := credit_of_mem_provenLines hlines.nodup hkept hpack
    (hrun.proven c (mem_closeReconcile_covers.mp hc))
  rw [c.fields.2.2.2.1]
  exact hlines.credit c.line hline hcredit

theorem totalCreditPaise_nonneg (hlines : LoadedStatement lines) : 0 ≤ totalCreditPaise lines := by
  apply List.sum_nonneg
  intro n hn
  obtain ⟨line, hline, rfl⟩ := List.mem_map.mp hn
  obtain ⟨hmem, hcredit⟩ := List.mem_filter.mp hline
  exact hlines.credit line hmem hcredit

/-- **Only debits and tax can get in the way** of a run on a statement without negative credits. -/
theorem credits_nonneg {audit : Bool} {attributions : List RailAttribution} {out : ReconcileOutput}
    (hlines : LoadedStatement lines)
    (hattributions : attributeAllRules U (cfg.settings audit) (ReconIndex.ofRows U rows) cfg.globalSolver [] lines =
      .ok attributions)
    (hout : reconcile U digest (linesByKey lines) attributions rows = .ok out) :
    0 ≤ totalCreditPaise lines ∧ 0 ≤ (out.results.map ReconciliationResult.creditAmountPaise).sum := by
  obtain ⟨verdict, hverdict, hkept⟩ := attributeAllRules_spec U (cfg.settings audit) (ReconIndex.ofRows U rows)
    cfg.globalSolver [] hlines.nodup
  obtain rfl := Except.ok.inj (hattributions.symm.trans hverdict)
  obtain ⟨st, hst, hrun⟩ := reconcile_spec U digest (linesByKey lines) (lines.map verdict) rows
  obtain rfl := Except.ok.inj (hout.symm.trans hst)
  have hinv := hrun.runInv (SettlementIndex.ofRows_spec U digest rows)
    (nodup_provenLines _ (hkept.nodup hlines.nodup))
  exact ⟨totalCreditPaise_nonneg hlines, reconciledPaise_nonneg hlines hkept rfl hinv⟩

end Reconciled

/-! ## Which reports are presented -/

/-- **The report reaches the interface**: both validators accept it, and every page of the payload is built. -/
structure Presented (H : Hashing) (U : Unicode) (repr : Json → String) (report : Json) : Prop where
  valid : ∃ schema, validateReportStructure U repr report = .ok schema
  plan : ∃ clean, validateRecoveryPlan U (report.get "recovery_plan") = .ok clean
  payload : ∀ certificate limit offset, 1 ≤ limit → 0 ≤ offset →
    ∃ payload, buildPresentationPayload H U repr report certificate (.int limit) (.int offset) = .ok payload

/-- An engine report is presented exactly when its totals are well formed. -/
theorem presented_engine {report : RunReport} {cfg : Config} {solverActive : Bool} {plan : RecoveryPlan}
    (hconfig : report.config = configDict cfg solverActive) (hplan : report.recoveryPlan = some plan)
    (h : plan.Amounts) : Presented H U repr report.toDict ↔ WellFormedTotals report.totals.toDict := by
  rw [← validateReportStructure_engine U repr hconfig]
  constructor
  · intro hpresented
    exact hpresented.valid
  · rintro ⟨schema, hschema⟩
    refine ⟨⟨schema, hschema⟩, ?_, ?_⟩
    · rw [get_recoveryPlan hplan]
      exact (validateRecoveryPlan_toDict h).imp fun _ hclean => hclean.1
    · intro certificate limit offset hlimit hoffset
      exact buildPresentationPayload_engine hschema hplan h certificate hlimit hoffset

/-- **Which runs can be presented.** The report of a run passes the presentation boundary exactly when on no rail the
    debits outweigh the credits, the GST on the rows of the covered settlements is not negative, and neither are the
    credits and the reconciled ones among them (`credits_nonneg` for a statement as it should be loaded). -/
theorem presented_iff (H : Hashing) (U : Unicode) (repr : Json → String) (standardFee : ℤ → ℤ)
    (digest : RowSignature → String) (cfg : Config) (audit : Bool) (lines : List BankCreditLine)
    (rows : List ReconRow) (orderLedger : List OrderLedgerEntry) (hnd : (lines.map BankCreditLine.key).Nodup)
    (hdigest : Fingerprints digest rows) :
    ∃ attributions out,
      attributeAllRules U (cfg.settings audit) (ReconIndex.ofRows U rows) cfg.globalSolver [] lines =
        .ok attributions ∧
      reconcile U digest (linesByKey lines) attributions rows = .ok out ∧
      ∀ report, reconcileLoaded H U standardFee digest cfg audit lines rows orderLedger = .ok report →
        (Presented H U repr report.toDict ↔
          (∀ rail, takenOut (attributions.zip lines) rail ≤ broughtIn (attributions.zip lines) rail) ∧
            0 ≤ (out.covers.map fun c => itcOf (rowsCovered rows c.sids)).sum ∧
            0 ≤ totalCreditPaise lines ∧ 0 ≤ (out.results.map ReconciliationResult.creditAmountPaise).sum) := by
  obtain ⟨verdict, hattributions, hkept⟩ := attributeAllRules_spec U (cfg.settings audit) (ReconIndex.ofRows U rows)
    cfg.globalSolver [] hnd
  obtain ⟨st, hout, hrun⟩ := reconcile_spec U digest (linesByKey lines) (lines.map verdict) rows
  have hix := SettlementIndex.ofRows_spec U digest rows
  have hinv := hrun.runInv hix (nodup_provenLines _ (hkept.nodup hnd))
  refine ⟨_, _, hattributions, hout, ?_⟩
  intro report hreport
  have hparts := reconcileLoaded_assembled H U standardFee digest cfg audit rows orderLedger hattributions
    (by rw [List.length_map]) hout hreport
  obtain ⟨solverActive, hconfig⟩ := hparts.config
  obtain ⟨plan, _, hbuilt, hplan⟩ := hparts.plan
  obtain ⟨_, htotals⟩ := hparts.totals
  have hsettled : ∀ c ∈ (closeReconcile U (SettlementIndex.ofRows U digest rows)
      (provenLines (linesByKey lines) (lines.map verdict)) st).covers, SettledCover rows c := fun c hc =>
    ⟨hinv.sids_ne_nil c (mem_closeReconcile_covers.mp hc), hinv.settles c (mem_closeReconcile_covers.mp hc)⟩
  -- a doubled cover would have stopped the journal, so the GST is the sum over the covers
  have hnodup := nodup_of_buildJournalEntries hsettled hparts.journal
  obtain ⟨recovery, hrecovery, hgst⟩ := feeGst_covers hdigest hsettled hnodup
  have hfee : report.feeGst = recovery := Except.ok.inj (hparts.feeGst.symm.trans hrecovery)
  rw [presented_engine hconfig hplan (buildRecoveryPlan_amounts hbuilt), wellFormedTotals_toDict, htotals]
  unfold totalsOf
  dsimp only
  rw [paiseByRail_nonneg_iff, hfee, hgst]
  constructor
  · rintro ⟨hcredits, hreconciled, hgst, hrails⟩
    exact ⟨hrails, hgst, hcredits, hreconciled⟩
  · rintro ⟨hrails, hgst, hcredits, hreconciled⟩
    exact ⟨hcredits, hreconciled, hgst, hrails⟩

/-! ### A withdrawal -/

def cashWithdrawal : BankCreditLine := { creditLine "k" "ATM CASH WITHDRAWAL" (-50000) with isCredit := false }

theorem loaded_cashWithdrawal : LoadedStatement [cashWithdrawal] where
  nodup := by decide
  credit := by decide

/-- The hypotheses of `presented_iff` hold of a statement of that one line, against a report of one settlement. -/
theorem presented_iff_withdrawal : ∃ attributions out,
    attributeAllRules asciiUnicode (plainConfig.settings true) (ReconIndex.ofRows asciiUnicode utrReport) false []
      [cashWithdrawal] = .ok attributions ∧
    reconcile asciiUnicode RowSignature.entityId (linesByKey [cashWithdrawal]) attributions utrReport = .ok out ∧
    ∀ report, reconcileLoaded blankHashing asciiUnicode (fun _ => 0) RowSignature.entityId plainConfig true
        [cashWithdrawal] utrReport [] = .ok report →
      (Presented blankHashing asciiUnicode (fun _ => "") report.toDict ↔
        (∀ rail, takenOut (attributions.zip [cashWithdrawal]) rail ≤
            broughtIn (attributions.zip [cashWithdrawal]) rail) ∧
          0 ≤ (out.covers.map fun c => itcOf (rowsCovered utrReport c.sids)).sum ∧
          0 ≤ totalCreditPaise [cashWithdrawal] ∧
          0 ≤ (out.results.map ReconciliationResult.creditAmountPaise).sum) :=
  presented_iff blankHashing asciiUnicode (fun _ => "") (fun _ => 0) RowSignature.entityId plainConfig true
    [cashWithdrawal] utrReport [] (by decide) (by unfold Fingerprints; decide +kernel)

/-- **A withdrawal is refused**: the engine reports on a statement of one debit, and the presentation boundary raises
    its schema error on the total of the rail that the debit is on. -/
theorem withdrawal_refused : LoadedStatement [cashWithdrawal] ∧
    ∃ report, reconcileLoaded blankHashing asciiUnicode (fun _ => 0) RowSignature.entityId plainConfig true
        [cashWithdrawal] utrReport [] = .ok report ∧
      buildPresentationPayload blankHashing asciiUnicode (fun _ => "") report.toDict none (.int 100) (.int 0) =
        schemaError "Report totals by_rail_paise['UNKNOWN'] must be a non-negative integer" ∧
      ¬ Presented blankHashing asciiUnicode (fun _ => "") report.toDict := by
  have hrun : (reconcileLoaded blankHashing asciiUnicode (fun _ => 0) RowSignature.entityId plainConfig true
        [cashWithdrawal] utrReport []).map (fun report => (buildPresentationPayload blankHashing asciiUnicode
          (fun _ => "") report.toDict none (.int 100) (.int 0)).map fun _ => ()) =
      .ok (schemaError "Report totals by_rail_paise['UNKNOWN'] must be a non-negative integer") := by
    decide +kernel
  obtain ⟨report, hreport, hpayload⟩ := map_eq_ok.mp hrun
  have hrefused : buildPresentationPayload blankHashing asciiUnicode (fun _ => "") report.toDict none (.int 100)
      (.int 0) = schemaError "Report totals by_rail_paise['UNKNOWN'] must be a non-negative integer" := by
    cases hbuilt : buildPresentationPayload blankHashing asciiUnicode (fun _ => "") report.toDict none (.int 100)
        (.int 0) with
    | error e =>
        rw [hbuilt] at hpayload
        exact congrArg Except.error (Except.error.inj hpayload)
    | ok payload =>
        rw [hbuilt] at hpayload
        cases hpayload
  refine ⟨loaded_cashWithdrawal, report, hreport, hrefused, ?_⟩
  intro hpresented
  obtain ⟨payload, hok⟩ := hpresented.payload none 100 0 (by decide) (by decide)
  rw [hrefused] at hok
  cases hok

end Untangle
