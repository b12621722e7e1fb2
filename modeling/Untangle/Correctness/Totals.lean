import Untangle.Correctness.Certificate
import Untangle.Correctness.Verdicts

/-!
# `Correctness.Totals` — money and counts are conserved in a report

The totals of a report are added up by separate passes over the attributions, the reconciliations and the exceptions.
They agree because every line is decided (`Decided`) and because results and unresolved keys partition the Razorpay
lines: `report_conserves` has the identities and the three classes that a line of the statement can be in. The
certificate cuts the unresolved amount off at zero, which changes nothing as long as no credit is negative.
-/

namespace Untangle

open Lib

variable {H : Hashing} {U : Unicode} {repr : Json → String} {standardFee : ℤ → ℤ} {digest : RowSignature → String}
  {cfg : Config} {lines : List BankCreditLine} {line : BankCreditLine} {rows : List ReconRow}
  {verdict : BankCreditLine → RailAttribution} {report : RunReport}

/-! ## Statements -/

/-- What the bank adapter hands over: the key of a line is a tagged hash, and no two lines share it. -/
structure AcceptedStatement (lines : List BankCreditLine) : Prop where
  nodup : (lines.map BankCreditLine.key).Nodup
  tagged : ∀ line ∈ lines, "k_".toList <+: line.key.toList

/-! ## The classes of a line -/

/-- The line has a reconciliation. -/
def Reconciled (report : RunReport) (line : BankCreditLine) : Prop :=
  line.key ∈ report.reconciliations.map ReconciliationResult.lineKey

/-- The line is attributed to a rail that competes with Razorpay. -/
def Competing (report : RunReport) (line : BankCreditLine) : Prop :=
  ∃ a ∈ report.attributions, a.lineKey = line.key ∧ a.abstained = false ∧ a.rail ≠ Rail.unknown.value ∧
    a.rail ≠ Rail.razorpaySettlement.value

/-- The exceptions about the line. -/
def exceptionsAbout (report : RunReport) (line : BankCreditLine) : List ExceptionRecord :=
  report.exceptions.filter fun e => e.lineKey = line.key

/-- The lines attributed to Razorpay that no reconciliation covers. -/
def unresolvedRzp (report : RunReport) (lines : List BankCreditLine) : List BankCreditLine :=
  lines.filter fun line =>
    (report.attributions.any fun a => a.lineKey = line.key ∧ a.rail = Rail.razorpaySettlement.value) ∧
      line.key ∉ report.reconciliations.map ReconciliationResult.lineKey

def unresolvedAmount (report : RunReport) (lines : List BankCreditLine) : ℤ :=
  ((unresolvedRzp report lines).map BankCreditLine.amountPaise).sum

/-- **Conservation in a report.** -/
structure ReportConserved (lines : List BankCreditLine) (report : RunReport) : Prop where
  lines_counted : report.totals.nBankLines = lines.length
  count : (report.totals.byRailCount.map Prod.snd).sum = report.totals.nBankLines
  paise : (report.totals.byRailPaise.map Prod.snd).sum = (lines.map BankCreditLine.amountPaise).sum
  decided : report.totals.attributed + report.totals.abstained = report.totals.nBankLines
  razorpay_count : (report.totals.byRailCount.lookup Rail.razorpaySettlement.value).getD 0 =
    report.totals.reconciledCount + report.totals.unresolvedRzpCount
  razorpay_paise : (report.totals.byRailPaise.lookup Rail.razorpaySettlement.value).getD 0 -
    report.totals.reconciledPaise = unresolvedAmount report lines
  /-- Every line is in one of three classes, and in no two of them. -/
  classes : ∀ line ∈ lines,
    (Reconciled report line ∧ ¬ Competing report line ∧ exceptionsAbout report line = []) ∨
    (¬ Reconciled report line ∧ Competing report line ∧ exceptionsAbout report line = []) ∨
    (¬ Reconciled report line ∧ ¬ Competing report line ∧
      ∃ e, exceptionsAbout report line = [e] ∧ e.amountPaise = some line.amountPaise)

/-- The certificate shows an amount as it is. -/
def ShowsUnresolved (body : List (String × Json)) (amount : ℤ) : Prop :=
  ∃ text, certificateInr (.int amount) = .ok text ∧ body.lookup "unresolved_inr" = some (.str text)

/-! ## Sorted totals -/

theorem sum_sortedItems {M : Type} [AddCommMonoid M] (d : Dict String M) :
    ((sortedItems d).map Prod.snd).sum = (d.items.map Prod.snd).sum :=
  ((List.perm_insertionSort _ _).map _).sum_eq

theorem lookup_sortedItems {ν : Type} (d : Dict String ν) (name : String) :
    (sortedItems d).lookup name = d.get? name := by
  have hperm := List.perm_insertionSort (fun p q : String × ν => p.1 ≤ q.1) d.items
  have hnd : ((sortedItems d).map Prod.fst).Nodup := (hperm.map Prod.fst).nodup_iff.mpr d.nodup
  apply Option.ext
  intro v
  rw [Dict.lookup_eq_some_iff hnd, Dict.get?_eq_some]
  exact hperm.mem_iff

theorem sum_counter (names : List String) : ((sortedItems (counter names)).map Prod.snd).sum = names.length := by
  rw [sum_sortedItems]
  refine (Dict.sum_gather id (fun _ => 1) names).trans ?_
  simp

theorem lookup_counter (names : List String) (name : String) :
    ((sortedItems (counter names)).lookup name).getD 0 = (names.filter fun n => n = name).length := by
  rw [lookup_sortedItems]
  unfold counter
  rw [Dict.get?_gather_sum (M := ℕ) some (fun _ => 1) names name]
  split
  · simp
  · rename_i hnone
    rw [List.filter_eq_nil_iff.mpr]
    · rfl
    · intro n hn heq
      exact hnone ⟨n, hn, congrArg some (of_decide_eq_true heq)⟩

theorem sum_paiseByRail (zipped : List (RailAttribution × BankCreditLine)) :
    ((sortedItems (paiseByRail zipped)).map Prod.snd).sum = (zipped.map fun p => p.2.amountPaise).sum := by
  rw [sum_sortedItems]
  exact Dict.sum_gather (fun p : RailAttribution × BankCreditLine => p.1.rail) (fun p => p.2.amountPaise) zipped

theorem lookup_paiseByRail (zipped : List (RailAttribution × BankCreditLine)) (rail : String) :
    ((sortedItems (paiseByRail zipped)).lookup rail).getD 0 =
      ((zipped.filter fun p => p.1.rail = rail).map fun p => p.2.amountPaise).sum := by
  rw [lookup_sortedItems]
  unfold paiseByRail
  rw [Dict.get?_gather_sum]
  split
  · simp
  · rename_i hnone
    rw [List.filter_eq_nil_iff.mpr]
    · rfl
    · intro p hp heq
      exact hnone ⟨p, hp, congrArg some (of_decide_eq_true heq)⟩

/-! ## The Razorpay lines -/

theorem sum_filter_split {α : Type} (p : α → Prop) [DecidablePred p] (f : α → ℤ) (l : List α) :
    (l.map f).sum = ((l.filter fun a => p a).map f).sum + ((l.filter fun a => ¬ p a).map f).sum := by
  induction l with
  | nil => rfl
  | cons a l ih =>
      by_cases ha : p a
      · simp [ha, ih, add_assoc]
      · simp [ha, ih]
        ring

theorem zip_map_left {α β : Type} (f : α → β) (l : List α) : (l.map f).zip l = l.map fun a => (f a, a) := by
  induction l with
  | nil => rfl
  | cons a l ih => simp [ih]

/-- The credits that are put up for reconciliation. -/
theorem provenLines_map (hnd : (lines.map BankCreditLine.key).Nodup)
    (hdecided : ∀ line ∈ lines, Decided line (verdict line)) :
    provenLines (linesByKey lines) (lines.map verdict) =
      (lines.filter fun line => (verdict line).rail = Rail.razorpaySettlement.value).map fun line => (line.key, line) := by
  unfold provenLines
  rw [List.filterMap_map, ← List.filterMap_eq_map, ← List.filterMap_eq_filter, List.filterMap_filterMap]
  refine List.filterMap_congr fun line hline => ?_
  have hline' := hdecided line hline
  dsimp only [Function.comp]
  rw [hline'.key, get?_linesByKey hnd hline]
  by_cases hrail : (verdict line).rail = Rail.razorpaySettlement.value
  · have hopen : (verdict line).abstained = false := by
      rw [← Bool.not_eq_true, hline'.abstains, hrail]
      decide
    simp [hrail, hopen, Option.guard]
  · simp [hrail, Option.guard]

/-- One element of a list has the key; it alone can bring forth an element with it. -/
theorem filter_filterMap_key {α β κ : Type} [DecidableEq κ] (key : α → κ) (keyOf : β → κ) {g : α → Option β}
    {l : List α} (hg : ∀ a b, g a = some b → keyOf b = key a) (hnd : (l.map key).Nodup) {a : α} (ha : a ∈ l) :
    (l.filterMap g).filter (fun b => keyOf b = key a) = (g a).toList := by
  have hskip : ∀ l' : List α, key a ∉ l'.map key → (l'.filterMap g).filter (fun b => keyOf b = key a) = [] := by
    intro l' hnot
    rw [List.filter_eq_nil_iff]
    intro b hb heq
    obtain ⟨a', ha', hb⟩ := List.mem_filterMap.mp hb
    apply hnot
    rw [← of_decide_eq_true heq, hg a' b hb]
    exact List.mem_map_of_mem ha'
  induction l with
  | nil => exact absurd ha List.not_mem_nil
  | cons a' l ih =>
      rw [List.map_cons, List.nodup_cons] at hnd
      by_cases heq : a' = a
      · subst heq
        rw [List.filterMap_cons]
        cases hb : g a' with
        | none => exact hskip l hnd.1
        | some b =>
            show (b :: l.filterMap g).filter _ = [b]
            rw [List.filter_cons, if_pos (decide_eq_true (hg a' b hb)), hskip l hnd.1]
      · have ha' := (List.mem_cons.mp ha).resolve_left fun h => heq h.symm
        have hkey : key a' ≠ key a := by
          intro hkey
          rw [hkey] at hnd
          exact hnd.1 (List.mem_map_of_mem ha')
        rw [List.filterMap_cons]
        cases hb : g a' with
        | none => exact ih hnd.2 ha'
        | some b =>
            show (b :: l.filterMap g).filter _ = _
            rw [List.filter_cons, if_neg, ih hnd.2 ha']
            rw [hg a' b hb, decide_eq_true_eq]
            exact hkey

/-! ## What a run counts -/

/-- The parts of a report that the totals are about. -/
structure Counted (U : Unicode) (lines : List BankCreditLine) (rows : List ReconRow)
    (orderLedger : List OrderLedgerEntry) (decided : List RailAttribution) (out : ReconcileOutput)
    (report : RunReport) : Prop where
  attributions : report.attributions = decided
  reconciliations : report.reconciliations = out.results
  exceptions : report.exceptions = buildExceptions decided out.unresolved (linesByKey lines) out.notes ++
    reconcileLedger U orderLedger out.results rows
  totals : report.totals = totalsOf lines rows decided (decided.zip lines) out.results out.unresolved report.feeGst
    report.exceptions

theorem assembleReport_counted {attributions : List RailAttribution} {rejected : Option (List RejectedMatch)}
    {orderLedger : List OrderLedgerEntry} {withRecovery withInvestigation solverActive : Bool} {index : ReconIndex}
    {out : ReconcileOutput} (hlength : attributions.length = lines.length)
    (hout : reconcile U digest (linesByKey lines) attributions rows = .ok out)
    (h : assembleReport H U standardFee digest cfg lines rows index attributions rejected orderLedger withRecovery
      withInvestigation solverActive = .ok report) :
    Counted U lines rows orderLedger attributions out report := by
  unfold assembleReport at h
  rw [zipStrict_eq hlength, hout] at h
  cases withRecovery <;> cases withInvestigation <;>
  · simp only [bind_eq_ok, mapError_eq_ok, Bool.false_eq_true, if_true, if_false] at h
    obtain ⟨_, hzipped, _, hreconciled, gst, _, plan, _, packets, _, journal, _, found, _, hreport⟩ := h
    obtain rfl := Except.ok.inj hzipped
    obtain rfl := Except.ok.inj hreconciled
    obtain rfl := Except.ok.inj hreport
    exact ⟨rfl, rfl, rfl, rfl⟩

/-- **A report of `build_report`** counts decided lines, whoever ran the solver. -/
theorem buildReport_counted {orderLedger : List OrderLedgerEntry} {withRecovery withInvestigation globalSolver : Bool}
    {solverResult : Option SolverResult} (hnd : (lines.map BankCreditLine.key).Nodup)
    (hdecided : ∀ line ∈ lines, Decided line (verdict line))
    (h : buildReport H U standardFee digest cfg lines rows (ReconIndex.ofRows U rows) (lines.map verdict) orderLedger
      withRecovery withInvestigation globalSolver solverResult = .ok report) :
    ∃ verdict' : BankCreditLine → RailAttribution, (∀ line ∈ lines, Decided line (verdict' line)) ∧
      ∃ out, reconcile U digest (linesByKey lines) (lines.map verdict') rows = .ok out ∧
        Counted U lines rows orderLedger (lines.map verdict') out report := by
  obtain ⟨verdict', hstage, hdecided'⟩ := decided_solverStage U cfg (ReconIndex.ofRows U rows)
    (globalSolver || cfg.globalSolver) solverResult hnd hdecided
  obtain ⟨st, hout, _⟩ := reconcile_spec U digest (linesByKey lines) (lines.map verdict') rows
  refine ⟨verdict', hdecided', _, hout, ?_⟩
  unfold buildReport at h
  dsimp only at h
  rw [hstage] at h
  exact assembleReport_counted (by rw [List.length_map]) hout h

/-- The keys of the Razorpay lines are those of the results and those left unresolved, each once. -/
theorem partition_reconcile {out : ReconcileOutput} (hnd : (lines.map BankCreditLine.key).Nodup)
    (hdecided : ∀ line ∈ lines, Decided line (verdict line))
    (hout : reconcile U digest (linesByKey lines) (lines.map verdict) rows = .ok out) :
    (out.results.map ReconciliationResult.lineKey ++ out.unresolved).Perm
        ((lines.filter fun line => (verdict line).rail = Rail.razorpaySettlement.value).map BankCreditLine.key) ∧
      ∀ c ∈ out.covers, c.result.creditAmountPaise = c.line.amountPaise ∧ c.result.lineKey = c.line.key ∧
        c.line ∈ lines := by
  have hproven := provenLines_map hnd hdecided
  obtain ⟨st, hspec, hrun⟩ := reconcile_spec U digest (linesByKey lines) (lines.map verdict) rows
  obtain rfl := Except.ok.inj (hout.symm.trans hspec)
  have hkeys : ((provenLines (linesByKey lines) (lines.map verdict)).map Prod.fst).Nodup := by
    rw [hproven, List.map_map]
    exact hnd.sublist (List.filter_sublist.map _)
  have hinv := hrun.runInv (SettlementIndex.ofRows_spec U digest rows) hkeys
  have hfst : (provenLines (linesByKey lines) (lines.map verdict)).map Prod.fst =
      (lines.filter fun line => (verdict line).rail = Rail.razorpaySettlement.value).map BankCreditLine.key := by
    rw [hproven, List.map_map]
    rfl
  refine ⟨(partition_closeReconcile hinv hkeys).trans (List.Perm.of_eq hfst), fun c hc => ?_⟩
  have hmem := hinv.proven c (mem_closeReconcile_covers.mp hc)
  rw [hproven] at hmem
  obtain ⟨ln, hln, heq⟩ := List.mem_map.mp hmem
  refine ⟨c.fields.2.2.2.1, c.fields.1, ?_⟩
  rw [← (Prod.mk.inj heq).2]
  exact (List.mem_filter.mp hln).1

/-! ## Conservation -/

section Conservation

variable {orderLedger : List OrderLedgerEntry} {out : ReconcileOutput}

/-- The verdict of a line of the statement, read from the report. -/
theorem any_attribution (test : RailAttribution → Bool) (hnd : (lines.map BankCreditLine.key).Nodup)
    (hdecided : ∀ line ∈ lines, Decided line (verdict line)) (hline : line ∈ lines) :
    ((lines.map verdict).any fun a => a.lineKey = line.key ∧ test a) = test (verdict line) := by
  rw [Bool.eq_iff_iff, List.any_eq_true]
  constructor
  · rintro ⟨a, ha, hmatch⟩
    obtain ⟨ln, hln, rfl⟩ := List.mem_map.mp ha
    obtain ⟨hkey, htest⟩ := of_decide_eq_true hmatch
    rw [(hdecided ln hln).key] at hkey
    rwa [line_ext hnd hln hline hkey] at htest
  · intro htest
    exact ⟨_, List.mem_map_of_mem hline, decide_eq_true ⟨(hdecided line hline).key, htest⟩⟩

theorem unresolvedRzp_eq (hnd : (lines.map BankCreditLine.key).Nodup)
    (hdecided : ∀ line ∈ lines, Decided line (verdict line))
    (h : Counted U lines rows orderLedger (lines.map verdict) out report) :
    unresolvedRzp report lines =
      (lines.filter fun line => (verdict line).rail = Rail.razorpaySettlement.value).filter
        fun line => line.key ∉ out.results.map ReconciliationResult.lineKey := by
  unfold unresolvedRzp
  rw [h.attributions, h.reconciliations, List.filter_filter]
  refine List.filter_congr fun line hline => ?_
  have hany := any_attribution (fun a => a.rail = Rail.razorpaySettlement.value) hnd hdecided hline
  simp only [decide_eq_true_eq] at hany
  rw [hany, Bool.and_comm, Bool.decide_and]
  simp

/-- **The credited amounts and the unresolved ones** add up to those of the Razorpay lines. -/
theorem razorpayPaise_split (hnd : (lines.map BankCreditLine.key).Nodup)
    (hdecided : ∀ line ∈ lines, Decided line (verdict line))
    (hout : reconcile U digest (linesByKey lines) (lines.map verdict) rows = .ok out)
    (h : Counted U lines rows orderLedger (lines.map verdict) out report) :
    ((lines.filter fun line => (verdict line).rail = Rail.razorpaySettlement.value).map BankCreditLine.amountPaise).sum =
      (out.results.map ReconciliationResult.creditAmountPaise).sum + unresolvedAmount report lines := by
  obtain ⟨hperm, hcovers⟩ := partition_reconcile hnd hdecided hout
  let rzp := lines.filter fun line => (verdict line).rail = Rail.razorpaySettlement.value
  let amountOfKey := fun key => (((linesByKey lines).dict.get? key).map BankCreditLine.amountPaise).getD 0
  have hsub : ∀ line ∈ rzp, line ∈ lines := fun line hline => (List.mem_filter.mp hline).1
  have hrzp : (rzp.map BankCreditLine.key).Nodup := hnd.sublist (List.filter_sublist.map _)
  have hresults : (out.results.map ReconciliationResult.lineKey).Nodup :=
    (List.nodup_append.mp (hperm.nodup_iff.mpr hrzp)).1
  have hamount : ∀ line ∈ lines, amountOfKey line.key = line.amountPaise := by
    intro line hline
    simp only [amountOfKey, get?_linesByKey hnd hline, Option.map_some, Option.getD_some]
  -- the covered lines are those of the results, in some order
  have hcovered : ((rzp.filter fun line => line.key ∈ out.results.map ReconciliationResult.lineKey).map
      BankCreditLine.key).Perm (out.results.map ReconciliationResult.lineKey) := by
    rw [List.perm_ext_iff_of_nodup (hrzp.sublist (List.filter_sublist.map _)) hresults]
    intro key
    constructor
    · intro hkey
      obtain ⟨line, hline, rfl⟩ := List.mem_map.mp hkey
      exact of_decide_eq_true (List.mem_filter.mp hline).2
    · intro hkey
      obtain ⟨line, hline, rfl⟩ := List.mem_map.mp (hperm.subset (List.mem_append_left _ hkey))
      exact List.mem_map_of_mem (List.mem_filter.mpr ⟨hline, decide_eq_true hkey⟩)
  have hcredited : ((rzp.filter fun line => line.key ∈ out.results.map ReconciliationResult.lineKey).map
      BankCreditLine.amountPaise).sum = (out.results.map ReconciliationResult.creditAmountPaise).sum := by
    calc ((rzp.filter fun line => line.key ∈ out.results.map ReconciliationResult.lineKey).map
          BankCreditLine.amountPaise).sum
        = (((rzp.filter fun line => line.key ∈ out.results.map ReconciliationResult.lineKey).map
            BankCreditLine.key).map amountOfKey).sum := by
          rw [List.map_map]
          refine congrArg List.sum (List.map_congr_left fun line hline => ?_)
          exact (hamount line (hsub line (List.mem_filter.mp hline).1)).symm
      _ = ((out.results.map ReconciliationResult.lineKey).map amountOfKey).sum := (hcovered.map _).sum_eq
      _ = (out.results.map ReconciliationResult.creditAmountPaise).sum := by
          rw [List.map_map]
          refine congrArg List.sum (List.map_congr_left fun r hr => ?_)
          obtain ⟨c, hc, rfl⟩ := List.mem_map.mp hr
          obtain ⟨hcredit, hkey, hline⟩ := hcovers c hc
          show amountOfKey c.result.lineKey = c.result.creditAmountPaise
          rw [hkey, hcredit]
          exact hamount c.line hline
  unfold unresolvedAmount
  rw [unresolvedRzp_eq hnd hdecided h, ← hcredited]
  exact sum_filter_split (fun line => line.key ∈ out.results.map ReconciliationResult.lineKey) _ rzp

/-- **The key of an unresolved line** is that of a Razorpay line without a result. -/
theorem mem_unresolved (hnd : (lines.map BankCreditLine.key).Nodup)
    (hdecided : ∀ line ∈ lines, Decided line (verdict line))
    (hout : reconcile U digest (linesByKey lines) (lines.map verdict) rows = .ok out) (hline : line ∈ lines) :
    (line.key ∈ out.unresolved ↔ (verdict line).rail = Rail.razorpaySettlement.value ∧
        line.key ∉ out.results.map ReconciliationResult.lineKey) ∧
      (line.key ∈ out.results.map ReconciliationResult.lineKey →
        (verdict line).rail = Rail.razorpaySettlement.value) := by
  obtain ⟨hperm, _⟩ := partition_reconcile hnd hdecided hout
  have hrazorpay : line.key ∈ (lines.filter fun line => (verdict line).rail = Rail.razorpaySettlement.value).map
      BankCreditLine.key → (verdict line).rail = Rail.razorpaySettlement.value := by
    intro hkey
    obtain ⟨ln, hln, heq⟩ := List.mem_map.mp hkey
    obtain ⟨hmem, hrail⟩ := List.mem_filter.mp hln
    rw [line_ext hnd hmem hline heq] at hrail
    exact of_decide_eq_true hrail
  have hnodup := hperm.nodup_iff.mpr (hnd.sublist (List.filter_sublist.map _))
  have hdisjoint := (List.nodup_append.mp hnodup).2.2
  refine ⟨⟨fun hkey => ⟨?_, fun hresult => ?_⟩, fun h => ?_⟩, fun hresult => ?_⟩
  · exact hrazorpay (hperm.subset (List.mem_append_right _ hkey))
  · exact hdisjoint _ hresult _ hkey rfl
  · have hmem := hperm.symm.subset (List.mem_map_of_mem (f := BankCreditLine.key)
      (List.mem_filter.mpr ⟨hline, decide_eq_true h.1⟩))
    exact (List.mem_append.mp hmem).resolve_left h.2
  · exact hrazorpay (hperm.subset (List.mem_append_left _ hresult))

/-- The exceptions over the order ledger have keys of their own. -/
theorem lineKey_ledger {e : ExceptionRecord} {reconciliations : List ReconciliationResult}
    (h : e ∈ reconcileLedger U orderLedger reconciliations rows) :
    e.lineKey ∈ ["ledger:mismatch", "ledger:duplicate_order_booking", "ledger:refund_not_reflected"] := by
  unfold reconcileLedger mismatchException duplicateException refundException at h
  dsimp only at h
  split at h
  · exact absurd h List.not_mem_nil
  · simp only [List.mem_append, Option.mem_toList, Option.ite_none_left_eq_some] at h
    rcases h with (⟨_, hmismatch⟩ | ⟨_, hduplicate⟩) | ⟨_, hrefund⟩
    · rw [← Option.some.inj hmismatch]
      simp
    · rw [← Option.some.inj hduplicate]
      simp
    · rw [← Option.some.inj hrefund]
      simp

/-- They are about no line of the statement. -/
theorem not_tagged_ledger {key : String}
    (h : key ∈ ["ledger:mismatch", "ledger:duplicate_order_booking", "ledger:refund_not_reflected"]) :
    ¬ "k_".toList <+: key.toList := by
  simp only [List.mem_cons, List.not_mem_nil, or_false] at h
  rcases h with rfl | rfl | rfl <;> decide

theorem lineKey_exceptionOf {unresolved : List String} {byKey : LinesByKey} {notes : Notes} {a : RailAttribution}
    {e : ExceptionRecord} (h : exceptionOf unresolved byKey notes a = some e) :
    e.lineKey = a.lineKey ∧ e.amountPaise = (byKey.dict.get? a.lineKey).map BankCreditLine.amountPaise := by
  unfold exceptionOf at h
  dsimp only at h
  split at h
  · rw [← Option.some.inj h]
    exact ⟨rfl, rfl⟩
  · split at h
    · rw [← Option.some.inj h]
      exact ⟨rfl, rfl⟩
    · cases h

/-- The exceptions about a line: that of its attribution, if it is one. -/
theorem exceptionsAbout_eq (hlines : AcceptedStatement lines) (hdecided : ∀ line ∈ lines, Decided line (verdict line))
    (h : Counted U lines rows orderLedger (lines.map verdict) out report) (hline : line ∈ lines) :
    exceptionsAbout report line = (exceptionOf out.unresolved (linesByKey lines) out.notes (verdict line)).toList := by
  unfold exceptionsAbout
  rw [h.exceptions, List.filter_append]
  have hledger : (reconcileLedger U orderLedger out.results rows).filter (fun e => e.lineKey = line.key) = [] := by
    rw [List.filter_eq_nil_iff]
    intro e he heq
    have hkey := lineKey_ledger he
    rw [of_decide_eq_true heq] at hkey
    exact not_tagged_ledger hkey (hlines.tagged line hline)
  rw [hledger, List.append_nil]
  unfold buildExceptions
  have hkeys : (lines.map verdict).map RailAttribution.lineKey = lines.map BankCreditLine.key := by
    rw [List.map_map]
    exact List.map_congr_left fun ln hln => (hdecided ln hln).key
  have hone := filter_filterMap_key RailAttribution.lineKey ExceptionRecord.lineKey
    (g := exceptionOf out.unresolved (linesByKey lines) out.notes) (fun a e he => (lineKey_exceptionOf he).1)
    (hkeys ▸ hlines.nodup) (List.mem_map_of_mem hline)
  rwa [(hdecided line hline).key] at hone

/-- **Every line is in exactly one class.** -/
theorem line_classes (hlines : AcceptedStatement lines) (hdecided : ∀ line ∈ lines, Decided line (verdict line))
    (hout : reconcile U digest (linesByKey lines) (lines.map verdict) rows = .ok out)
    (h : Counted U lines rows orderLedger (lines.map verdict) out report) (hline : line ∈ lines) :
    (Reconciled report line ∧ ¬ Competing report line ∧ exceptionsAbout report line = []) ∨
    (¬ Reconciled report line ∧ Competing report line ∧ exceptionsAbout report line = []) ∨
    (¬ Reconciled report line ∧ ¬ Competing report line ∧
      ∃ e, exceptionsAbout report line = [e] ∧ e.amountPaise = some line.amountPaise) := by
  have ha := hdecided line hline
  obtain ⟨hunresolved, hresult⟩ := mem_unresolved hlines.nodup hdecided hout hline
  have hreconciled : Reconciled report line ↔ line.key ∈ out.results.map ReconciliationResult.lineKey := by
    unfold Reconciled
    rw [h.reconciliations]
  have hcompeting : Competing report line ↔ (verdict line).abstained = false ∧
      (verdict line).rail ≠ Rail.unknown.value ∧ (verdict line).rail ≠ Rail.razorpaySettlement.value := by
    unfold Competing
    rw [h.attributions]
    constructor
    · rintro ⟨a, hmem, hkey, hrest⟩
      obtain ⟨ln, hln, rfl⟩ := List.mem_map.mp hmem
      rw [(hdecided ln hln).key] at hkey
      rwa [line_ext hlines.nodup hln hline hkey] at hrest
    · intro hrest
      exact ⟨_, List.mem_map_of_mem hline, ha.key, hrest⟩
  have hamount : ∀ e, exceptionOf out.unresolved (linesByKey lines) out.notes (verdict line) = some e →
      e.amountPaise = some line.amountPaise := by
    intro e he
    rw [(lineKey_exceptionOf he).2, ha.key, get?_linesByKey hlines.nodup hline]
    rfl
  rw [exceptionsAbout_eq hlines hdecided h hline, hreconciled, hcompeting]
  by_cases hunknown : (verdict line).rail = Rail.unknown.value
  · -- an abstention
    refine Or.inr (Or.inr ⟨?_, ?_, ?_⟩)
    · intro hmem
      have hrail := hresult hmem
      rw [hunknown] at hrail
      exact absurd hrail (by decide)
    · intro hrest
      exact hrest.2.1 hunknown
    · unfold exceptionOf at hamount ⊢
      dsimp only at hamount ⊢
      rw [if_pos (Or.inr hunknown)] at hamount ⊢
      exact ⟨_, rfl, hamount _ rfl⟩
  have hopen : (verdict line).abstained = false := by
    rw [← Bool.not_eq_true, ha.abstains]
    exact hunknown
  have hnot : ¬ ((verdict line).abstained = true ∨ (verdict line).rail = Rail.unknown.value) := by
    rw [ha.abstains, or_self]
    exact hunknown
  by_cases hrazorpay : (verdict line).rail = Rail.razorpaySettlement.value
  · by_cases hcovered : line.key ∈ out.results.map ReconciliationResult.lineKey
    · refine Or.inl ⟨hcovered, fun hrest => hrest.2.2 hrazorpay, ?_⟩
      unfold exceptionOf
      dsimp only
      rw [if_neg hnot, ha.key, if_neg fun hmem => (hunresolved.mp hmem).2 hcovered]
      rfl
    · refine Or.inr (Or.inr ⟨hcovered, fun hrest => hrest.2.2 hrazorpay, ?_⟩)
      have hmem : (verdict line).lineKey ∈ out.unresolved := by
        rw [ha.key]
        exact hunresolved.mpr ⟨hrazorpay, hcovered⟩
      unfold exceptionOf at hamount ⊢
      dsimp only at hamount ⊢
      rw [if_neg hnot, if_pos hmem] at hamount ⊢
      exact ⟨_, rfl, hamount _ rfl⟩
  · refine Or.inr (Or.inl ⟨fun hmem => hrazorpay (hresult hmem), ⟨hopen, hunknown, hrazorpay⟩, ?_⟩)
    unfold exceptionOf
    dsimp only
    rw [if_neg hnot, ha.key, if_neg fun hmem => hrazorpay (hunresolved.mp hmem).1]
    rfl

/-- **Decided lines are conserved.** -/
theorem reportConserved_of_counted (hlines : AcceptedStatement lines)
    (hdecided : ∀ line ∈ lines, Decided line (verdict line))
    (hout : reconcile U digest (linesByKey lines) (lines.map verdict) rows = .ok out)
    (h : Counted U lines rows orderLedger (lines.map verdict) out report) : ReportConserved lines report := by
  have htotals := h.totals
  have hrails : (((lines.map verdict).map RailAttribution.rail).filter fun n =>
      n = Rail.razorpaySettlement.value).length =
      (lines.filter fun line => (verdict line).rail = Rail.razorpaySettlement.value).length := by
    rw [List.map_map, List.filter_map, List.length_map]
    rfl
  constructor
  · rw [htotals]
    rfl
  · rw [htotals]
    show ((sortedItems (counter _)).map Prod.snd).sum = lines.length
    rw [sum_counter, List.length_map, List.length_map]
  · rw [htotals]
    show ((sortedItems (paiseByRail _)).map Prod.snd).sum = _
    rw [sum_paiseByRail, zip_map_left, List.map_map]
    rfl
  · rw [htotals]
    show ((lines.map verdict).filter fun a => !a.abstained).length + ((lines.map verdict).filter
      RailAttribution.abstained).length = lines.length
    have hsplit := List.length_eq_length_filter_add (l := lines.map verdict) RailAttribution.abstained
    rw [List.length_map] at hsplit
    omega
  · obtain ⟨hperm, _⟩ := partition_reconcile hlines.nodup hdecided hout
    have hlength := hperm.length_eq
    rw [List.length_append, List.length_map, List.length_map] at hlength
    rw [htotals]
    show ((sortedItems (counter _)).lookup _).getD 0 = out.results.length + out.unresolved.length
    rw [lookup_counter, hrails, hlength]
  · rw [htotals]
    show ((sortedItems (paiseByRail _)).lookup _).getD 0 -
      (out.results.map ReconciliationResult.creditAmountPaise).sum = _
    rw [lookup_paiseByRail, zip_map_left, List.filter_map, List.map_map]
    have hsplit := razorpayPaise_split hlines.nodup hdecided hout h
    rw [sub_eq_iff_eq_add, add_comm, ← hsplit]
    rfl
  · intro line hline
    exact line_classes hlines hdecided hout h hline

/-! ## The certificate -/

/-- What a certificate shows as unresolved: the Razorpay amount less the reconciled one, cut off at zero. -/
theorem unresolved_certificate {body : List (String × Json)}
    (h : buildCloseCertificate U repr report.toDict = .ok body) :
    ∃ text, certificateInr (.int (max 0 ((report.totals.byRailPaise.lookup Rail.razorpaySettlement.value).getD 0 -
        report.totals.reconciledPaise))) = .ok text ∧ body.lookup "unresolved_inr" = some (.str text) := by
  have hrail := getAttr_rail report.totals.byRailPaise "razorpay_settlement"
  have htotals : (report.toDict.get? "totals").getD (.obj []) = report.totals.toDict := rfl
  unfold buildCloseCertificate at h
  rw [if_neg (show ¬ (!report.toDict.isObj) = true from Bool.false_ne_true)] at h
  simp only [bind_eq_ok, htotals] at h
  obtain ⟨_, _, _, _, byRailPaise, hpaise, _, _, proven, hproven, _, _, _, _, reconciled, hreconciled, _, _, _, _,
    text, htext, _, _, _, _, _, _, _, _, _, _, _, _, _, _, _, _, _, _, _, _, _, _, hbody⟩ := h
  -- the two amounts that the certificate reads from the totals
  obtain rfl := Except.ok.inj hpaise
  obtain rfl := Except.ok.inj (hrail.symm.trans hproven)
  obtain rfl := Except.ok.inj hreconciled
  obtain rfl := Except.ok.inj hbody
  exact ⟨text, htext, rfl⟩

/-- A negative amount is not written like zero. -/
theorem certificateInr_negative {amount : ℤ} {text : String} (hnegative : amount < 0)
    (h : certificateInr (.int amount) = .ok text) : certificateInr (.int 0) ≠ .ok text := by
  intro hzero
  unfold certificateInr at h hzero
  dsimp only at h hzero
  rw [if_pos hnegative] at h
  have heq := congrArg String.toList ((Except.ok.inj hzero).trans (Except.ok.inj h).symm)
  rw [if_neg (lt_irrefl 0)] at heq
  simp only [String.toList_append, List.append_assoc] at heq
  have hdigits : (groupedNat (Int.natAbs 0 / 100)).toList = ['0'] := by decide +kernel
  rw [hdigits, show "".toList = [] from rfl, show "-".toList = ['-'] from rfl, List.nil_append] at heq
  have hchar := (List.cons.inj (List.append_cancel_left heq)).1
  exact absurd hchar (by decide)

/-- **The certificate cuts negative amounts, and no others.** -/
theorem showsUnresolved_iff (h : ReportConserved lines report) {body : List (String × Json)}
    (hbody : buildCloseCertificate U repr report.toDict = .ok body) :
    ShowsUnresolved body (unresolvedAmount report lines) ↔ 0 ≤ unresolvedAmount report lines := by
  obtain ⟨text, htext, hshown⟩ := unresolved_certificate hbody
  rw [h.razorpay_paise] at htext
  constructor
  · rintro ⟨text', htext', hshown'⟩
    by_contra hnegative
    push Not at hnegative
    obtain rfl := Json.str.inj (Option.some.inj (hshown.symm.trans hshown'))
    rw [max_eq_left hnegative.le] at htext
    exact certificateInr_negative hnegative htext' htext
  · intro hle
    rw [max_eq_right hle] at htext
    exact ⟨text, htext, hshown⟩

/-- Only credits are unresolved. -/
theorem unresolvedAmount_nonneg (hnd : (lines.map BankCreditLine.key).Nodup)
    (hdecided : ∀ line ∈ lines, Decided line (verdict line))
    (h : Counted U lines rows orderLedger (lines.map verdict) out report)
    (hcredits : ∀ line ∈ lines, line.isCredit = true → 0 ≤ line.amountPaise) : 0 ≤ unresolvedAmount report lines := by
  unfold unresolvedAmount
  rw [unresolvedRzp_eq hnd hdecided h]
  apply List.sum_nonneg
  intro n hn
  obtain ⟨line, hline, rfl⟩ := List.mem_map.mp hn
  obtain ⟨hmem, hrail⟩ := List.mem_filter.mp (List.mem_filter.mp hline).1
  exact hcredits line hmem ((hdecided line hmem).credit (of_decide_eq_true hrail))

end Conservation

/-! ## Every run -/

/-- **Money and counts are conserved** in the report of every run on an accepted statement, with rules or without, the
    solver on or off. The certificate shows the unresolved amount as it is exactly if that is not negative, and so
    whenever no credit is. -/
theorem report_conserved (H : Hashing) (U : Unicode) (repr : Json → String) (standardFee : ℤ → ℤ)
    (digest : RowSignature → String) (cfg : Config) (s : Settings) (globalSolver : Bool) (rules : List ProposedRule)
    (lines : List BankCreditLine) (rows : List ReconRow) (orderLedger : List OrderLedgerEntry)
    (withRecovery withInvestigation reportSolver : Bool) (solverResult : Option SolverResult)
    (hlines : AcceptedStatement lines) (hrules : ∀ rule ∈ rules, Minted U rule)
    (hpack : s.pack = cfg.evidencePack.rules) :
    ∃ attributions, attributeAllRules U s (ReconIndex.ofRows U rows) globalSolver rules lines = .ok attributions ∧
      ∀ report, buildReport H U standardFee digest cfg lines rows (ReconIndex.ofRows U rows) attributions orderLedger
          withRecovery withInvestigation reportSolver solverResult = .ok report →
        ReportConserved lines report ∧
        (∀ body, buildCloseCertificate U repr report.toDict = .ok body →
          (ShowsUnresolved body (unresolvedAmount report lines) ↔ 0 ≤ unresolvedAmount report lines)) ∧
        ((∀ line ∈ lines, line.isCredit = true → 0 ≤ line.amountPaise) → 0 ≤ unresolvedAmount report lines) := by
  obtain ⟨verdict, hattributions, hdecided⟩ := attributeAllRules_decided U s (ReconIndex.ofRows U rows) globalSolver
    (hpack ▸ plainPack_of_registered cfg.registered) (fun rule hrule => (hrules rule hrule).valid) hlines.nodup
  refine ⟨_, hattributions, fun report hreport => ?_⟩
  obtain ⟨verdict', hdecided', out, hout, hcounted⟩ := buildReport_counted hlines.nodup hdecided hreport
  have hconserved := reportConserved_of_counted hlines hdecided' hout hcounted
  refine ⟨hconserved, fun body hbody => showsUnresolved_iff hconserved hbody, fun hcredits => ?_⟩
  exact unresolvedAmount_nonneg hlines.nodup hdecided' hcounted hcredits

/-- A credit that quotes the UTR of a settlement, under the key that the adapter gives it. -/
def keyedCredit : BankCreditLine := creditLine "k_c60533a3e19a1250" "NEFT 1111111111aaaaaa" 100000

/-- The statement of that credit, with a rule. -/
theorem report_conserved_keyed :
    ∃ attributions, attributeAllRules asciiUnicode (plainConfig.settings true)
        (ReconIndex.ofRows asciiUnicode quotedReport) true [transferRule] [keyedCredit] = .ok attributions ∧
      ∀ report, buildReport blankHashing asciiUnicode (fun _ => 0) RowSignature.entityId plainConfig [keyedCredit]
          quotedReport (ReconIndex.ofRows asciiUnicode quotedReport) attributions [] true true false none = .ok report →
        ReportConserved [keyedCredit] report ∧
        (∀ body, buildCloseCertificate asciiUnicode (fun _ => "") report.toDict = .ok body →
          (ShowsUnresolved body (unresolvedAmount report [keyedCredit]) ↔
            0 ≤ unresolvedAmount report [keyedCredit])) ∧
        ((∀ line ∈ [keyedCredit], line.isCredit = true → 0 ≤ line.amountPaise) →
          0 ≤ unresolvedAmount report [keyedCredit]) := by
  have hminted : Minted asciiUnicode transferRule := by
    apply Minted.approved
    · apply Minted.proposed
      show proposeRule asciiUnicode "rule_1" "" "direct_upi" "NEFT" "narration_keyword" none =
        .ok { transferRule with approved := false, approvedBy := none }
      decide +kernel
    · show approveRule _ "a" = _
      decide +kernel
  exact report_conserved blankHashing asciiUnicode (fun _ => "") (fun _ => 0) RowSignature.entityId plainConfig
    (plainConfig.settings true) true [transferRule] [keyedCredit] quotedReport [] true true false none
    ⟨by decide, by simp [keyedCredit, creditLine]⟩ (by simpa using hminted) rfl

/-- The credit of the same text whose amount the sheet has as `_-100.00`: the adapter looks for a sign at the head of
    the cell, and the decimal number skips the underscore. -/
def negativeCredit : BankCreditLine := creditLine "k_36f10bac5bded2b4" "NEFT 1111111111aaaaaa" (-10000)

/-- **An unresolved amount that is cut off**: the run leaves minus one hundred rupees unresolved, and its certificate
    shows none. -/
theorem unresolved_clamped : AcceptedStatement [negativeCredit] ∧ ∃ report,
    reconcileLoaded blankHashing asciiUnicode (fun _ => 0) RowSignature.entityId plainConfig true [negativeCredit]
      quotedReport [] = .ok report ∧
    unresolvedAmount report [negativeCredit] = -10000 ∧
    ∃ body, buildCloseCertificate asciiUnicode (fun _ => "") report.toDict = .ok body ∧
      body.lookup "unresolved_inr" = some (.str "₹0.00") ∧
      ¬ ShowsUnresolved body (unresolvedAmount report [negativeCredit]) := by
  have hrun : (reconcileLoaded blankHashing asciiUnicode (fun _ => 0) RowSignature.entityId plainConfig true
      [negativeCredit] quotedReport []).map (fun report => (unresolvedAmount report [negativeCredit],
        (buildCloseCertificate asciiUnicode (fun _ => "") report.toDict).map fun body =>
          (body.lookup "unresolved_inr").bind Json.asStr?)) =
      .ok (-10000, .ok (some "₹0.00")) := by decide +kernel
  obtain ⟨report, hreport, hshown⟩ := map_eq_ok.mp hrun
  obtain ⟨hamount, hcertificate⟩ := Prod.mk.inj hshown
  obtain ⟨body, hbody, hinr⟩ := map_eq_ok.mp hcertificate
  have hlookup : body.lookup "unresolved_inr" = some (.str "₹0.00") := by
    obtain ⟨v, hv, hstr⟩ := Option.bind_eq_some_iff.mp hinr
    rw [hv]
    cases v <;> cases hstr
    rfl
  refine ⟨⟨by decide, by simp [negativeCredit, creditLine]⟩, report, hreport, hamount, body, hbody, hlookup, ?_⟩
  rintro ⟨text, htext, hshows⟩
  rw [hamount] at htext
  obtain rfl := Json.str.inj (Option.some.inj (hlookup.symm.trans hshows))
  exact absurd htext (by decide +kernel)

end Untangle
