import Untangle.Correctness.RunReport
import Untangle.Persistence.Comparison
import Untangle.Webapp.Presentation

/-!
# `Correctness.Comparison` — deltas between periods

A summary shows `null` for the unresolved amount where no line of the period is attributed to settlements, and the
comparison subtracts what it finds under the key: it answers for two runs exactly if neither shows `null`
(`compareRuns_iff`). Where it answers, it answers with the differences of the two reports, which is why the other
direction is the same answer read backwards, and the deltas of two comparisons in a row add up.
-/

namespace Untangle

open Lib

/-! ## Answers read backwards -/

def Figures.swap (c : Figures) : Figures := ⟨c.target, c.base, -c.delta⟩

def RailComparison.swap (r : RailComparison) : RailComparison := ⟨r.rail, r.label, r.amountPaise.swap, r.count.swap⟩

def RootCauseDrift.swap (d : RootCauseDrift) : RootCauseDrift := ⟨d.rootCause, d.count.swap⟩

def SummaryDeltas.neg (d : SummaryDeltas) : SummaryDeltas :=
  ⟨-d.totalCreditDeltaPaise, -d.reconciledDeltaPaise, -d.unresolvedDeltaPaise, -d.feeGstRecoverableDeltaPaise,
    -d.exceptionCountDelta⟩

def SummaryDeltas.add (d d' : SummaryDeltas) : SummaryDeltas :=
  ⟨d.totalCreditDeltaPaise + d'.totalCreditDeltaPaise, d.reconciledDeltaPaise + d'.reconciledDeltaPaise,
    d.unresolvedDeltaPaise + d'.unresolvedDeltaPaise,
    d.feeGstRecoverableDeltaPaise + d'.feeGstRecoverableDeltaPaise, d.exceptionCountDelta + d'.exceptionCountDelta⟩

/-- The other of the two relationships. -/
def reversed (relationship : String) : String := if relationship = "subsequent" then "preceding" else "subsequent"

/-- The same answer with base and target exchanged: every delta is negated. -/
def RunComparison.swap (c : RunComparison) : RunComparison where
  baseRun := c.targetRun
  targetRun := c.baseRun
  periodRelationship := reversed c.periodRelationship
  deltas := c.deltas.neg
  railsComparison := c.railsComparison.map RailComparison.swap
  rootCauseDrift := c.rootCauseDrift.map RootCauseDrift.swap

/-- What a comparison says of a rail: the deltas of its amount and its count. -/
def RunComparison.railDelta (c : RunComparison) (rail : String) : ℤ × ℤ :=
  ((c.railsComparison.find? fun r => r.rail = rail).map fun r => (r.amountPaise.delta, r.count.delta)).getD (0, 0)

/-- What it says of a root cause; one that neither run has is not listed. -/
def RunComparison.drift (c : RunComparison) (rootCause : String) : ℤ :=
  ((c.rootCauseDrift.find? fun d => d.rootCause = rootCause).map fun d => d.count.delta).getD 0

/-- Every delta of the third comparison is the sum of those of the first two. -/
structure RunComparison.Adds (c c' c'' : RunComparison) : Prop where
  deltas : c''.deltas = c.deltas.add c'.deltas
  rails : ∀ rail, c''.railDelta rail = c.railDelta rail + c'.railDelta rail
  rootCauses : ∀ rootCause, c''.drift rootCause = c.drift rootCause + c'.drift rootCause

/-! ## What is compared -/

section Compare

variable (H : Hashing) (U : Unicode) (repr : Json → String)

/-- A completed run of an engine report, which the presentation boundary has accepted. -/
structure ComparableReport (runs : List ComparableRun) (id : String) (run : ComparableRun) (report : RunReport)
    (period : Date × Date) : Prop where
  found : runs.find? (fun run => run.publicId = id) = some run
  kept : run.isDeleted = false
  completed : run.records.row.val.status = .completed
  start : run.reportingPeriodStart = some period.1
  finish : run.reportingPeriodEnd = some period.2
  valid : period.1 ≤ period.2
  presented : ∃ result certificate limit offset, run.records.result = some result ∧
    buildPresentationPayload H U repr report.toDict certificate limit offset = .ok result.presentation

/-- The unresolved amount of a summary, `none` where it shows `null`. -/
def unresolvedOf (t : RunTotals) : Option ℤ :=
  (t.byRailPaise.lookup Rail.razorpaySettlement.value).map fun proven => max 0 (proven - t.reconciledPaise)

/-- The amount and the number of lines of a rail. -/
def railPaise (t : RunTotals) (rail : Rail) : ℤ := (t.byRailPaise.lookup rail.value).getD 0

def railCount (t : RunTotals) (rail : Rail) : Nat := (t.byRailCount.lookup rail.value).getD 0

variable {H U repr} {runs : List ComparableRun} {id : String} {run : ComparableRun} {report : RunReport}
  {period : Date × Date}

/-- The summary and the rails of the payload, whatever else it holds. -/
theorem payload_fields {payload : Json} {certificate : Option Json} {limit offset : Json}
    (h : buildPresentationPayload H U repr report.toDict certificate limit offset = .ok payload) :
    payload.isObj = true ∧ payload.truth = true ∧ payload.get? "summary" = some (summaryDict report.totals.toDict) ∧
      payload.get? "rails" = some (.arr (presentedRails.map (railRow report.totals.toDict
        (totalInt report.totals.toDict "total_credit_paise")))) := by
  unfold buildPresentationPayload at h
  obtain ⟨schema, _, h⟩ := bind_eq_ok.mp h
  obtain ⟨_, _, h⟩ := bind_eq_ok.mp h
  obtain ⟨_, _, h⟩ := bind_eq_ok.mp h
  obtain ⟨_, _, h⟩ := bind_eq_ok.mp h
  obtain ⟨_, _, h⟩ := bind_eq_ok.mp h
  obtain ⟨_, _, h⟩ := bind_eq_ok.mp h
  cases h
  exact ⟨rfl, rfl, rfl, rfl⟩

/-! ### The summary -/

theorem lookup_ints {α : Type} (f : α → ℤ) (items : List (String × α)) (key : String) :
    (Json.obj (items.map fun p => (p.1, .int (f p.2)))).get? key = (items.lookup key).map fun n => .int (f n) := by
  induction items with
  | nil => rfl
  | cons p items ih =>
      rw [List.map_cons, Json.get?_obj_cons, ih, List.lookup_cons]
      by_cases h : key = p.1
      · rw [if_pos h, h, beq_self_eq_true]
        rfl
      · rw [if_neg h, beq_eq_false_iff_ne.mpr h]

theorem presentedUnresolved_toDict (t : RunTotals) :
    presentedUnresolved t.toDict = Json.ofOption .int (unresolvedOf t) := by
  have hlookup : ((t.toDict.get "by_rail_paise").get? "razorpay_settlement").bind Json.asInt? =
      t.byRailPaise.lookup "razorpay_settlement" := by
    show ((Json.obj (t.byRailPaise.map fun p => (p.1, .int p.2))).get? "razorpay_settlement").bind Json.asInt? = _
    rw [lookup_ints fun n => n]
    cases t.byRailPaise.lookup "razorpay_settlement" with
    | none => rfl
    | some n => rfl
  unfold presentedUnresolved unresolvedOf
  rw [hlookup]
  show _ = Json.ofOption Json.int ((t.byRailPaise.lookup "razorpay_settlement").map _)
  cases t.byRailPaise.lookup "razorpay_settlement" with
  | none => rfl
  | some n => rfl

theorem summaryDelta_ints {base target : Json} {key : String} {b t : ℤ} (hbase : base.isObj = true)
    (htarget : target.isObj = true) (hb : base.get? key = some (.int b)) (ht : target.get? key = some (.int t)) :
    summaryDelta base target key = .ok (t - b) := by
  simp [summaryDelta, fieldOf, hbase, htarget, hb, ht, change, Json.asInt?, bind, Except.bind, pure, Except.pure]

/-- The difference of the unresolved amounts is taken exactly if neither is `null`. -/
theorem summaryDelta_unresolved (b t : RunTotals) :
    summaryDelta (summaryDict b.toDict) (summaryDict t.toDict) "unresolved_paise" =
      match unresolvedOf t, unresolvedOf b with
      | some ut, some ub => .ok (ut - ub)
      | ut, ub => .error (.raised (.type ("unsupported operand type(s) for -: '" ++
          (Json.ofOption Json.int ut).typeName ++ "' and '" ++ (Json.ofOption Json.int ub).typeName ++ "'"))) := by
  have hshown : ∀ t : RunTotals, (summaryDict t.toDict).get? "unresolved_paise" =
      some (Json.ofOption .int (unresolvedOf t)) := fun t =>
    (show _ = some (presentedUnresolved t.toDict) from rfl).trans (congrArg some (presentedUnresolved_toDict t))
  have hobj : ∀ t : RunTotals, (summaryDict t.toDict).isObj = true := fun t => rfl
  unfold summaryDelta fieldOf
  rw [if_pos (hobj t), if_pos (hobj b), hshown t, hshown b]
  cases unresolvedOf t with
  | none => rfl
  | some ut =>
      cases unresolvedOf b with
      | none => rfl
      | some ub => rfl

/-- The deltas of two summaries whose unresolved amounts are shown. -/
def deltasOf (b t : RunTotals) (ub ut : ℤ) : SummaryDeltas :=
  ⟨t.totalCreditPaise - b.totalCreditPaise, t.reconciledPaise - b.reconciledPaise, ut - ub,
    t.feeGstRecoverablePaise - b.feeGstRecoverablePaise, t.exceptionCount - b.exceptionCount⟩

theorem summaryDeltas_presented {b t : RunTotals} {deltas : SummaryDeltas} :
    summaryDeltas (summaryDict b.toDict) (summaryDict t.toDict) = .ok deltas ↔
      ∃ ub ut, unresolvedOf b = some ub ∧ unresolvedOf t = some ut ∧ deltas = deltasOf b t ub ut := by
  have hints : ∀ (key : String) (f : RunTotals → ℤ), (∀ t, (summaryDict t.toDict).get? key = some (.int (f t))) →
      summaryDelta (summaryDict b.toDict) (summaryDict t.toDict) key = .ok (f t - f b) := fun key f h =>
    summaryDelta_ints rfl rfl (h b) (h t)
  unfold summaryDeltas
  rw [hints "total_credit_paise" RunTotals.totalCreditPaise fun _ => rfl,
    hints "reconciled_paise" RunTotals.reconciledPaise fun _ => rfl, summaryDelta_unresolved,
    hints "fee_gst_recoverable_paise" RunTotals.feeGstRecoverablePaise fun _ => rfl,
    hints "exception_count" (fun t => t.exceptionCount) fun _ => rfl]
  simp only [bind, Except.bind]
  cases unresolvedOf t with
  | none =>
      constructor
      · intro h
        cases h
      · rintro ⟨_, _, _, ht, _⟩
        cases ht
  | some ut =>
      cases unresolvedOf b with
      | none =>
          constructor
          · intro h
            cases h
          · rintro ⟨_, _, hb, _⟩
            cases hb
      | some ub =>
          constructor
          · intro h
            cases h
            exact ⟨ub, ut, rfl, rfl, rfl⟩
          · rintro ⟨_, _, hb, ht, rfl⟩
            cases hb
            cases ht
            rfl

/-! ### The rails -/

/-- The rails as a comparison lists them. -/
def sortedRails : List Rail :=
  [.unknown, .codRemittance, .directUpi, .otherGateway, .razorpaySettlement, .unrelated]

def rowsByRail (t : RunTotals) : Dict String Json :=
  Dict.gather (fun p => some p.1) (fun p _ => p.2)
    (presentedRails.map fun rail => (rail.value, railRow t.toDict (totalInt t.toDict "total_credit_paise") rail))

theorem get?_rowsByRail (t : RunTotals) (rail : Rail) : (rowsByRail t).get? rail.value =
    some (railRow t.toDict (totalInt t.toDict "total_credit_paise") rail) := by
  cases rail <;> rfl

theorem sortedUnion_rails (b t : RunTotals) :
    sortedUnion (rowsByRail b).keys (rowsByRail t).keys = sortedRails.map Rail.value := by
  have hkeys : ∀ t, (rowsByRail t).keys = presentedRails.map Rail.value := fun t => rfl
  rw [hkeys, hkeys]
  decide +kernel

/-- The comparison of a rail that both presentations list. -/
def railComparison (b t : RunTotals) (rail : Rail) : RailComparison :=
  ⟨rail.value, .str (railLabel rail), ⟨railPaise b rail, railPaise t rail, railPaise t rail - railPaise b rail⟩,
    ⟨railCount b rail, railCount t rail, railCount t rail - railCount b rail⟩⟩

/-- `value or 0` of an integer or `null`. -/
theorem orElse_ofOption (n : Option ℤ) : orElse (some (Json.ofOption .int n)) (.int 0) = .int (n.getD 0) := by
  cases n with
  | none => rfl
  | some n =>
      by_cases h : n = 0
      · rw [h]
        rfl
      · simp [orElse, Json.ofOption, Json.truth, h]

theorem railRow_amount (t : RunTotals) (rail : Rail) (total : ℤ) :
    (railRow t.toDict total rail).get? "amount_paise" = some (Json.ofOption .int (t.byRailPaise.lookup rail.value)) := by
  show some ((Json.obj (t.byRailPaise.map fun p => (p.1, .int p.2))).get rail.value) = _
  rw [Json.get, lookup_ints fun n => n]
  cases t.byRailPaise.lookup rail.value <;> rfl

theorem railRow_count (t : RunTotals) (rail : Rail) (total : ℤ) : (railRow t.toDict total rail).get? "count" =
    some (Json.ofOption .int ((t.byRailCount.lookup rail.value).map fun (n : Nat) => (n : ℤ))) := by
  show some ((Json.obj (t.byRailCount.map fun p => (p.1, .int p.2))).get rail.value) = _
  rw [Json.get, lookup_ints fun (n : Nat) => (n : ℤ)]
  cases t.byRailCount.lookup rail.value <;> rfl

theorem compareRail_presented (b t : RunTotals) (rail : Rail) :
    compareRail (rowsByRail b) (rowsByRail t) rail.value = .ok (railComparison b t rail) := by
  unfold compareRail
  rw [get?_rowsByRail, get?_rowsByRail]
  have hrow : ∀ (t : RunTotals) (total : ℤ),
      orElse (some (railRow t.toDict total rail)) (.obj []) = railRow t.toDict total rail := fun t total => rfl
  rw [hrow, hrow]
  dsimp only
  rw [railRow_amount, railRow_amount, railRow_count, railRow_count, orElse_ofOption, orElse_ofOption,
    orElse_ofOption, orElse_ofOption]
  have hlabel : ∀ (t : RunTotals) (total : ℤ) (fallback : Json),
      orElse ((railRow t.toDict total rail).get? "label") fallback = .str (railLabel rail) := by
    intro t total fallback
    cases rail <;> rfl
  rw [hlabel]
  have hcount : ∀ o : Option Nat, (o.map fun (n : Nat) => (n : ℤ)).getD 0 = ((o.getD 0 : Nat) : ℤ) := fun o => by
    cases o <;> rfl
  rw [hcount, hcount]
  rfl

theorem railsOf_presented {run : ComparableRun} {result : ReconciliationResultRow} {certificate : Option Json}
    {limit offset : Json} {report : RunReport} (hresult : run.records.result = some result)
    (h : buildPresentationPayload H U repr report.toDict certificate limit offset = .ok result.presentation) :
    presentationOf run = result.presentation ∧ summaryOf (presentationOf run) = .ok (summaryDict report.totals.toDict) ∧
      railsOf (presentationOf run) = .ok (rowsByRail report.totals) := by
  obtain ⟨hobj, htruth, hsummary, hrails⟩ := payload_fields h
  have hpresentation : presentationOf run = result.presentation := by
    rw [presentationOf, hresult]
    exact if_pos htruth
  refine ⟨hpresentation, ?_, ?_⟩
  · rw [hpresentation, summaryOf, fieldOf, if_pos hobj, hsummary]
    rfl
  · rw [hpresentation, railsOf, fieldOf, if_pos hobj, hrails]
    rfl

/-! ## The comparison of two reports -/

/-- The answer for two reports whose unresolved amounts are shown. -/
def comparisonOf (base target : ComparableRun) (b t : RunTotals) (basePeriod targetPeriod : Date × Date) (ub ut : ℤ) :
    RunComparison where
  baseRun := ⟨base.publicId, isoDate basePeriod.1, isoDate basePeriod.2, summaryDict b.toDict⟩
  targetRun := ⟨target.publicId, isoDate targetPeriod.1, isoDate targetPeriod.2, summaryDict t.toDict⟩
  periodRelationship := if basePeriod.2 < targetPeriod.1 then "subsequent" else "preceding"
  deltas := deltasOf b t ub ut
  railsComparison := sortedRails.map (railComparison b t)
  rootCauseDrift := rootCauseDrift (rootCauseCounts base) (rootCauseCounts target)

/-- The reporting periods do not overlap. -/
def Apart (p q : Date × Date) : Prop := p.2 < q.1 ∨ q.2 < p.1

theorem Apart.symm {p q : Date × Date} (h : Apart p q) : Apart q p := Or.symm h

theorem compareRuns_presented {base target : ComparableRun} {baseId targetId : String} {b t : RunReport}
    {p q : Date × Date} (hb : ComparableReport H U repr runs baseId base b p)
    (ht : ComparableReport H U repr runs targetId target t q) (hapart : Apart p q) {c : RunComparison} :
    compareRuns U runs baseId targetId = .ok c ↔
      ∃ ub ut, unresolvedOf b.totals = some ub ∧ unresolvedOf t.totals = some ut ∧
        c = comparisonOf base target b.totals t.totals p q ub ut := by
  obtain ⟨_, _, _, _, hbresult, hbpayload⟩ := hb.presented
  obtain ⟨_, _, _, _, htresult, htpayload⟩ := ht.presented
  obtain ⟨_, hbsummary, hbrails⟩ := railsOf_presented hbresult hbpayload
  obtain ⟨_, htsummary, htrails⟩ := railsOf_presented htresult htpayload
  have hfind : ∀ side {id run report period}, ComparableReport H U repr runs id run report period →
      findRun U side runs id = .ok run := by
    intro side id run report period h
    rw [findRun, h.found, Option.filter_some, if_pos (by rw [h.kept]; rfl)]
  have hdone : ∀ side {id run report period}, ComparableReport H U repr runs id run report period →
      requireCompleted side run = .ok () := fun _ _ _ _ _ h => refuseIf_eq_ok.mpr (not_not.mpr h.completed)
  have hperiod : ∀ side {id run report period}, ComparableReport H U repr runs id run report period →
      reportingPeriod side run = .ok period := by
    intro side id run report period h
    rw [reportingPeriod, h.start, h.finish]
  have hapart' : refuseIf (¬ (p.2 < q.1 ∨ q.2 < p.1)) (CompareError.raised (.value (overlapMessage p q))) = .ok () :=
    refuseIf_eq_ok.mpr (not_not.mpr hapart)
  have hrails : (sortedUnion (rowsByRail b.totals).keys (rowsByRail t.totals).keys).mapM
      (compareRail (rowsByRail b.totals) (rowsByRail t.totals)) =
        .ok (sortedRails.map (railComparison b.totals t.totals)) := by
    rw [sortedUnion_rails, List.mapM_map]
    exact mapM_eq_ok_map fun rail _ => compareRail_presented b.totals t.totals rail
  unfold compareRuns
  rw [hfind "Base" hb, hfind "Target" ht]
  simp only [bind, Except.bind, hdone "Base" hb, hdone "Target" ht, hperiod "Base" hb, hperiod "Target" ht, hapart',
    hbsummary, htsummary, hbrails, htrails, hrails]
  cases hdeltas : summaryDeltas (summaryDict b.totals.toDict) (summaryDict t.totals.toDict) with
  | error e =>
      constructor
      · intro h
        cases h
      · rintro ⟨ub, ut, hub, hut, _⟩
        rw [summaryDeltas_presented.mpr ⟨ub, ut, hub, hut, rfl⟩] at hdeltas
        cases hdeltas
  | ok deltas =>
      obtain ⟨ub, ut, hub, hut, rfl⟩ := summaryDeltas_presented.mp hdeltas
      constructor
      · intro h
        cases h
        exact ⟨ub, ut, hub, hut, rfl⟩
      · rintro ⟨ub', ut', hub', hut', rfl⟩
        rw [hub] at hub'
        rw [hut] at hut'
        cases hub'
        cases hut'
        rfl

/-! ## The other way round, and in a row -/

theorem mem_sortedUnion {a b : List String} {x : String} : x ∈ sortedUnion a b ↔ x ∈ a ∨ x ∈ b := by
  unfold sortedUnion
  rw [(List.perm_insertionSort _ _).mem_iff, List.mem_dedup, List.mem_append]

/-- A union does not depend on which of the two comes first. -/
theorem sortedUnion_comm (a b : List String) : sortedUnion a b = sortedUnion b a := by
  have hperm : (sortedUnion a b).Perm (sortedUnion b a) := by
    apply (List.perm_ext_iff_of_nodup _ _).mpr
    · intro x
      rw [mem_sortedUnion, mem_sortedUnion, or_comm]
    · exact (List.perm_insertionSort _ _).nodup_iff.mpr (List.nodup_dedup _)
    · exact (List.perm_insertionSort _ _).nodup_iff.mpr (List.nodup_dedup _)
  exact hperm.eq_of_pairwise (fun x y _ _ => le_antisymm) (List.pairwise_insertionSort _ _)
    (List.pairwise_insertionSort _ _)

theorem swap_figures (b t : ℤ) : Figures.swap ⟨b, t, t - b⟩ = ⟨t, b, b - t⟩ := by
  rw [Figures.swap, neg_sub]

theorem swap_railComparison (b t : RunTotals) (rail : Rail) :
    (railComparison b t rail).swap = railComparison t b rail := by
  unfold railComparison RailComparison.swap
  dsimp only
  rw [swap_figures, swap_figures]

theorem swap_rootCauseDrift (b t : Dict String Nat) :
    (rootCauseDrift b t).map RootCauseDrift.swap = rootCauseDrift t b := by
  unfold rootCauseDrift
  rw [List.map_map, sortedUnion_comm b.keys]
  exact List.map_congr_left fun rc _ => congrArg (RootCauseDrift.mk rc) (swap_figures _ _)

/-- Of two valid periods that do not overlap, one comes first. -/
theorem reversed_relationship {p q : Date × Date} (hp : p.1 ≤ p.2) (hq : q.1 ≤ q.2) (hapart : Apart p q) :
    reversed (if p.2 < q.1 then "subsequent" else "preceding") = if q.2 < p.1 then "subsequent" else "preceding" := by
  by_cases hpq : p.2 < q.1
  · have hqp : ¬ q.2 < p.1 := fun h => absurd (hp.trans_lt (hpq.trans_le (hq.trans h.le))) (lt_irrefl _)
    rw [if_pos hpq, if_neg hqp]
    rfl
  · rw [if_neg hpq, if_pos (hapart.resolve_left hpq)]
    rfl

/-- **The comparison of the same runs the other way round.** -/
theorem swap_comparisonOf {base target : ComparableRun} {b t : RunTotals} {p q : Date × Date} (hp : p.1 ≤ p.2)
    (hq : q.1 ≤ q.2) (hapart : Apart p q) (ub ut : ℤ) :
    (comparisonOf base target b t p q ub ut).swap = comparisonOf target base t b q p ut ub := by
  unfold comparisonOf RunComparison.swap
  dsimp only
  rw [reversed_relationship hp hq hapart, swap_rootCauseDrift]
  congr 1
  · unfold deltasOf SummaryDeltas.neg
    dsimp only
    rw [neg_sub, neg_sub, neg_sub, neg_sub, neg_sub]
  · rw [List.map_map]
    exact List.map_congr_left fun rail _ => swap_railComparison b t rail

theorem drift_rootCauseDrift (b t : Dict String Nat) (rc : String) :
    (((rootCauseDrift b t).find? fun d => d.rootCause = rc).map fun d => d.count.delta).getD 0 =
      ((t.get? rc).getD 0 : Nat) - ((b.get? rc).getD 0 : Nat) := by
  unfold rootCauseDrift
  rw [List.find?_map]
  cases hfound : (sortedUnion b.keys t.keys).find? ((fun d : RootCauseDrift => decide (d.rootCause = rc)) ∘ fun rc =>
      ⟨rc, ⟨((b.get? rc).getD 0 : Nat), ((t.get? rc).getD 0 : Nat),
        ((t.get? rc).getD 0 : Nat) - ((b.get? rc).getD 0 : Nat)⟩⟩) with
  | some rc' =>
      have hnamed := List.find?_some hfound
      have heq : rc' = rc := of_decide_eq_true hnamed
      rw [heq]
      rfl
  | none =>
      have habsent : rc ∉ sortedUnion b.keys t.keys := fun hmem =>
        List.find?_eq_none.mp hfound rc hmem (decide_eq_true rfl)
      rw [mem_sortedUnion, not_or] at habsent
      rw [Dict.get?_eq_none.mpr habsent.1, Dict.get?_eq_none.mpr habsent.2]
      rfl

theorem railDelta_comparisonOf {base target : ComparableRun} {b t : RunTotals} {p q : Date × Date} {ub ut : ℤ}
    (name : String) : (comparisonOf base target b t p q ub ut).railDelta name =
      ((sortedRails.find? fun rail => rail.value = name).map fun rail =>
        (railPaise t rail - railPaise b rail, (railCount t rail : ℤ) - railCount b rail)).getD (0, 0) := by
  unfold RunComparison.railDelta comparisonOf
  dsimp only
  rw [List.find?_map, Option.map_map]
  rfl

/-- **Comparisons in a row add up.** -/
theorem comparisonOf_adds (a b c : ComparableRun) (ta tb tc : RunTotals) (p q r : Date × Date) (ua ub uc : ℤ) :
    RunComparison.Adds (comparisonOf a b ta tb p q ua ub) (comparisonOf b c tb tc q r ub uc)
      (comparisonOf a c ta tc p r ua uc) where
  deltas := by
    unfold comparisonOf deltasOf SummaryDeltas.add
    dsimp only
    congr 1 <;> omega
  rails := by
    intro name
    rw [railDelta_comparisonOf, railDelta_comparisonOf, railDelta_comparisonOf]
    cases sortedRails.find? fun rail => rail.value = name with
    | none => rfl
    | some rail =>
        rw [Option.map_some, Option.map_some, Option.map_some, Option.getD_some, Option.getD_some, Option.getD_some]
        ext
        · show _ = _ + _
          omega
        · show _ = _ + _
          omega
  rootCauses := by
    intro rc
    unfold RunComparison.drift comparisonOf
    dsimp only
    rw [drift_rootCauseDrift, drift_rootCauseDrift, drift_rootCauseDrift]
    omega

theorem unresolvedOf_isSome {t : RunTotals} :
    (∃ u, unresolvedOf t = some u) ↔ Rail.razorpaySettlement.value ∈ t.byRailPaise.map Prod.fst := by
  unfold unresolvedOf
  rw [← Option.isSome_iff_exists, Option.isSome_map]
  induction t.byRailPaise with
  | nil => exact iff_of_false (fun h => by cases h) List.not_mem_nil
  | cons p items ih =>
      rw [List.lookup_cons, List.map_cons, List.mem_cons]
      by_cases h : Rail.razorpaySettlement.value = p.1
      · rw [h, beq_self_eq_true]
        exact iff_of_true rfl (Or.inl rfl)
      · rw [beq_eq_false_iff_ne.mpr h, or_iff_right h]
        exact ih

/-- **Which periods can be compared.** For runs of engine reports with valid periods that do not overlap: a comparison
    and the one the other way round answer, each the other read backwards, exactly if both reports have lines on the
    settlement rail; and the three comparisons of three runs answer and add up exactly if all three have. -/
theorem compareRuns_iff (H : Hashing) (U : Unicode) (repr : Json → String) {runs : List ComparableRun}
    {ida idb idc : String} {a b c : ComparableRun} {ra rb rc : RunReport} {p q r : Date × Date}
    (ha : ComparableReport H U repr runs ida a ra p) (hb : ComparableReport H U repr runs idb b rb q)
    (hc : ComparableReport H U repr runs idc c rc r) (hab : Apart p q) (hbc : Apart q r) (hac : Apart p r) :
    ((∃ ab, compareRuns U runs ida idb = .ok ab ∧ compareRuns U runs idb ida = .ok ab.swap) ↔
        Rail.razorpaySettlement.value ∈ ra.totals.byRailPaise.map Prod.fst ∧
          Rail.razorpaySettlement.value ∈ rb.totals.byRailPaise.map Prod.fst) ∧
      ((∃ ab bc ac, compareRuns U runs ida idb = .ok ab ∧ compareRuns U runs idb idc = .ok bc ∧
          compareRuns U runs ida idc = .ok ac ∧ RunComparison.Adds ab bc ac) ↔
        Rail.razorpaySettlement.value ∈ ra.totals.byRailPaise.map Prod.fst ∧
          Rail.razorpaySettlement.value ∈ rb.totals.byRailPaise.map Prod.fst ∧
          Rail.razorpaySettlement.value ∈ rc.totals.byRailPaise.map Prod.fst) := by
  rw [← unresolvedOf_isSome, ← unresolvedOf_isSome, ← unresolvedOf_isSome]
  refine ⟨⟨?_, ?_⟩, ⟨?_, ?_⟩⟩
  · rintro ⟨ab, h, _⟩
    obtain ⟨ua, ub, hua, hub, _⟩ := (compareRuns_presented ha hb hab).mp h
    exact ⟨⟨ua, hua⟩, ⟨ub, hub⟩⟩
  · rintro ⟨⟨ua, hua⟩, ⟨ub, hub⟩⟩
    refine ⟨_, (compareRuns_presented ha hb hab).mpr ⟨ua, ub, hua, hub, rfl⟩, ?_⟩
    rw [swap_comparisonOf ha.valid hb.valid hab]
    exact (compareRuns_presented hb ha hab.symm).mpr ⟨ub, ua, hub, hua, rfl⟩
  · rintro ⟨ab, bc, ac, h, h', _, _⟩
    obtain ⟨ua, ub, hua, hub, _⟩ := (compareRuns_presented ha hb hab).mp h
    obtain ⟨_, uc, _, huc, _⟩ := (compareRuns_presented hb hc hbc).mp h'
    exact ⟨⟨ua, hua⟩, ⟨ub, hub⟩, ⟨uc, huc⟩⟩
  · rintro ⟨⟨ua, hua⟩, ⟨ub, hub⟩, ⟨uc, huc⟩⟩
    exact ⟨_, _, _, (compareRuns_presented ha hb hab).mpr ⟨ua, ub, hua, hub, rfl⟩,
      (compareRuns_presented hb hc hbc).mpr ⟨ub, uc, hub, huc, rfl⟩,
      (compareRuns_presented ha hc hac).mpr ⟨ua, uc, hua, huc, rfl⟩,
      comparisonOf_adds a b c ra.totals rb.totals rc.totals p q r ua ub uc⟩

end Compare

/-! ## Two months -/

/-- A completed run that stores a presentation. -/
def presentedRun (id : String) (period : Date × Date) (presentation : Json) : ComparableRun where
  publicId := id
  reportingPeriodStart := some period.1
  reportingPeriodEnd := some period.2
  records :=
    { row := ⟨{ status := .completed, startedAt := 0, completedAt := some 0 }, by decide⟩
      result := some ⟨.obj [], presentation, "", .null, ""⟩ }

theorem comparableReport_presentedRun (id : String) (period : Date × Date) {runs : List ComparableRun}
    {report : RunReport} {payload : Json}
    (hfound : runs.find? (fun run => run.publicId = id) = some (presentedRun id period payload))
    (hvalid : period.1 ≤ period.2)
    (hpayload : buildPresentationPayload blankHashing asciiUnicode (fun _ => "") report.toDict none (.int 100) (.int 0) =
      .ok payload) :
    ComparableReport blankHashing asciiUnicode (fun _ => "") runs id (presentedRun id period payload) report period where
  found := hfound
  kept := rfl
  completed := rfl
  start := rfl
  finish := rfl
  valid := hvalid
  presented := ⟨_, none, .int 100, .int 0, rfl, hpayload⟩

/-- The report of a statement, and its presentation, by one evaluation. -/
theorem exists_presented (lines : List BankCreditLine) (unresolved : Option ℤ)
    (hrun : (reconcileLoaded blankHashing asciiUnicode (fun _ => 0) RowSignature.entityId plainConfig true lines
        [settledRow "pay_1" "S1" (some "1111111111aaaaaa") 100000] []).map (fun report =>
          ((buildPresentationPayload blankHashing asciiUnicode (fun _ => "") report.toDict none (.int 100)
            (.int 0)).toOption.isSome, unresolvedOf report.totals)) = .ok (true, unresolved)) :
    ∃ report payload, reconcileLoaded blankHashing asciiUnicode (fun _ => 0) RowSignature.entityId plainConfig true lines
        [settledRow "pay_1" "S1" (some "1111111111aaaaaa") 100000] [] = .ok report ∧
      buildPresentationPayload blankHashing asciiUnicode (fun _ => "") report.toDict none (.int 100) (.int 0) =
        .ok payload ∧ unresolvedOf report.totals = unresolved := by
  obtain ⟨report, hreport, hfacts⟩ := map_eq_ok.mp hrun
  obtain ⟨hpresented, hunresolved⟩ := Prod.mk.inj hfacts
  cases hpayload : buildPresentationPayload blankHashing asciiUnicode (fun _ => "") report.toDict none (.int 100)
      (.int 0) with
  | error e =>
      rw [hpayload] at hpresented
      cases hpresented
  | ok payload => exact ⟨report, payload, hreport, hpayload, hunresolved⟩

def settledStatement : List BankCreditLine := [creditLine "k" "NEFT RAZORPAY 1111111111aaaaaa" 100000]

def depositStatement : List BankCreditLine := [creditLine "k" "CASH DEPOSIT" 50000]

def january : Date × Date := (738886, 738916)

def february : Date × Date := (738917, 738945)

def march : Date × Date := (738946, 738976)

/-- The hypotheses of `compareRuns_iff` hold of three months with the same settlement. -/
theorem compareRuns_iff_settled : ∃ runs ab bc ac,
    compareRuns asciiUnicode runs "january" "february" = .ok ab ∧
      compareRuns asciiUnicode runs "february" "march" = .ok bc ∧
      compareRuns asciiUnicode runs "january" "march" = .ok ac ∧ RunComparison.Adds ab bc ac := by
  obtain ⟨report, payload, _, hpayload, hunresolved⟩ :=
    exists_presented settledStatement (some 0) (by decide +kernel)
  have hrail := unresolvedOf_isSome.mp ⟨0, hunresolved⟩
  refine ⟨[presentedRun "january" january payload, presentedRun "february" february payload,
    presentedRun "march" march payload], ?_⟩
  exact (compareRuns_iff blankHashing asciiUnicode (fun _ => "")
    (comparableReport_presentedRun "january" january rfl (by decide) hpayload)
    (comparableReport_presentedRun "february" february rfl (by decide) hpayload)
    (comparableReport_presentedRun "march" march rfl (by decide) hpayload)
    (Or.inl (by decide)) (Or.inl (by decide)) (Or.inl (by decide))).2.mpr ⟨hrail, hrail, hrail⟩

/-- **A month without settlements** has a report that is presented, and cannot be compared with any other month. -/
theorem deposits_not_compared : ∃ settled deposits payload payload',
    reconcileLoaded blankHashing asciiUnicode (fun _ => 0) RowSignature.entityId plainConfig true settledStatement
        [settledRow "pay_1" "S1" (some "1111111111aaaaaa") 100000] [] = .ok settled ∧
      reconcileLoaded blankHashing asciiUnicode (fun _ => 0) RowSignature.entityId plainConfig true depositStatement
        [settledRow "pay_1" "S1" (some "1111111111aaaaaa") 100000] [] = .ok deposits ∧
      buildPresentationPayload blankHashing asciiUnicode (fun _ => "") settled.toDict none (.int 100) (.int 0) =
        .ok payload ∧
      buildPresentationPayload blankHashing asciiUnicode (fun _ => "") deposits.toDict none (.int 100) (.int 0) =
        .ok payload' ∧
      ¬ ∃ c, compareRuns asciiUnicode [presentedRun "january" january payload, presentedRun "february" february payload']
        "january" "february" = .ok c := by
  obtain ⟨settled, payload, hsettled, hpayload, _⟩ :=
    exists_presented settledStatement (some 0) (by decide +kernel)
  obtain ⟨deposits, payload', hdeposits, hpayload', hnone⟩ :=
    exists_presented depositStatement none (by decide +kernel)
  refine ⟨settled, deposits, payload, payload', hsettled, hdeposits, hpayload, hpayload', ?_⟩
  rintro ⟨c, hc⟩
  obtain ⟨_, _, _, hshown, _⟩ := (compareRuns_presented
    (comparableReport_presentedRun "january" january rfl (by decide) hpayload)
    (comparableReport_presentedRun "february" february rfl (by decide) hpayload')
    (Or.inl (by decide))).mp hc
  rw [hnone] at hshown
  cases hshown

end Untangle
