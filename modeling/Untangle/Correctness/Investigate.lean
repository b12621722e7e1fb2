import Untangle.Correctness.Reconcile.Passes
import Untangle.Engine.Persistence
import Untangle.Lib.Fallible

/-!
# `Correctness.Investigate` — what an investigation can say, and what the table takes

Every classifier is sound in the same way: it names a cause of the taxonomy, and its confidence is a proportion
(`Classifier.Sound`). So whatever the report is, a classified credit can be stored. The one verdict outside the
taxonomy is the one that needs no classifier: a credit whose variance is zero is called `balanced`, and the table does
not know that word (`investigations_stored_iff`).
-/

namespace Untangle

open Lib

/-! ## The vouchers -/

theorem correctiveEntry_balanced (line : BankCreditLine) (cause : RootCause) (paise : ℤ) (ref date utr : String) :
    (makeCorrectiveEntry line cause paise ref date utr).balanced = true := by
  unfold JournalEntry.balanced JournalEntry.totalDebitPaise JournalEntry.totalCreditPaise makeCorrectiveEntry
    correctiveLines swing deduct
  rw [decide_eq_true_eq]
  cases cause with
  | disputeDeduction => simp
  | partialCapture => simp
  | _ =>
      dsimp only
      split <;> simp

/-! ## Storable investigations -/

/-- The row passes the check constraints of the table. -/
structure Storable (inv : Investigation) : Prop where
  allowed : inv.rootCause ∈ rootCausesAllowed
  nonneg : 0 ≤ inv.confidence
  le_one : inv.confidence ≤ 1

theorem RootCause.value_allowed (cause : RootCause) : cause.value ∈ rootCausesAllowed := by
  cases cause <;> decide

theorem insertInvestigation_eq_ok {table table' : List InvestigationRecord} {inv : Investigation} :
    insertInvestigation table inv = .ok table' ↔
      Storable inv ∧ inv.lineKey ∉ table.map InvestigationRecord.lineKey ∧
        table' = table ++ [inv.record] := by
  unfold insertInvestigation
  constructor
  · intro h
    split at h
    · cases h
    · rename_i hbounds
      split at h
      · cases h
      · rename_i hallowed
        split at h
        · cases h
        · rename_i hunique
          rw [not_not] at hbounds hallowed
          exact ⟨⟨hallowed, hbounds.1, hbounds.2⟩, hunique, (Except.ok.inj h).symm⟩
  · rintro ⟨hstorable, hunique, rfl⟩
    rw [if_neg (not_not.mpr ⟨hstorable.nonneg, hstorable.le_one⟩), if_neg (not_not.mpr hstorable.allowed),
      if_neg hunique]

/-- The transaction goes through exactly for storable investigations of distinct credits. -/
theorem foldlM_insertInvestigation {cases : List Investigation} {table : List InvestigationRecord}
    (hnodup : (table.map InvestigationRecord.lineKey).Nodup) :
    (∃ table', cases.foldlM insertInvestigation table = .ok table') ↔
      (∀ inv ∈ cases, Storable inv) ∧
        (table.map InvestigationRecord.lineKey ++ cases.map Investigation.lineKey).Nodup := by
  induction cases generalizing table with
  | nil =>
      rw [List.map_nil, List.append_nil]
      exact ⟨fun _ => ⟨fun _ h => absurd h List.not_mem_nil, hnodup⟩, fun _ => ⟨table, rfl⟩⟩
  | cons inv cases ih =>
      rw [List.foldlM_cons]
      cases hinsert : insertInvestigation table inv with
      | error v =>
          constructor
          · rintro ⟨table', h⟩
            cases h
          · rintro ⟨hstorable, hdistinct⟩
            have hfresh : inv.lineKey ∉ table.map InvestigationRecord.lineKey := by
              intro hmem
              exact (List.nodup_append.mp hdistinct).2.2 _ hmem _ List.mem_cons_self rfl
            have hok := insertInvestigation_eq_ok.mpr ⟨hstorable inv List.mem_cons_self, hfresh, rfl⟩
            rw [hinsert] at hok
            cases hok
      | ok table₁ =>
          obtain ⟨hstorable, hfresh, rfl⟩ := insertInvestigation_eq_ok.mp hinsert
          have hkeys : (table ++ [inv.record]).map
              InvestigationRecord.lineKey = table.map InvestigationRecord.lineKey ++ [inv.lineKey] := by
            rw [List.map_append, List.map_singleton]
            rfl
          have hnodup₁ : ((table ++ [inv.record]).map
              InvestigationRecord.lineKey).Nodup := by
            rw [hkeys, ← List.concat_eq_append, List.nodup_concat]
            exact ⟨hfresh, hnodup⟩
          refine (ih hnodup₁).trans ?_
          rw [hkeys, List.forall_mem_cons, List.map_cons, List.append_assoc, List.singleton_append]
          exact ⟨fun h => ⟨⟨hstorable, h.1⟩, h.2⟩, fun h => ⟨h.1.2, h.2⟩⟩

theorem saveInvestigations_iff {cases : List Investigation} :
    (∃ table, saveInvestigations cases = .ok table) ↔
      (∀ inv ∈ cases, Storable inv) ∧ (cases.map Investigation.lineKey).Nodup :=
  foldlM_insertInvestigation List.nodup_nil

/-! ## Classifiers -/

/-- The confidence of a match is a proportion. -/
def Classifier.Sound (k : Classifier) : Prop :=
  ∀ c f, k.find c = some f → 0 ≤ k.confidence c.variance f.deltaPaise ∧ k.confidence c.variance f.deltaPaise ≤ 1

/-- A residual within tolerance costs at most `w` of the confidence. -/
theorem confidence_unit {residual : ℤ} {w : ℚ} (hw : 0 ≤ w ∧ w ≤ 1) (h : closes residual) :
    0 ≤ roundTo 4 (1 - |residual| / 100 * w) ∧ roundTo 4 (1 - |residual| / 100 * w) ≤ 1 := by
  unfold closes tolerancePaise at h
  have habs : ((|residual| : ℤ) : ℚ) ≤ 100 := by
    have hle := of_decide_eq_true h
    exact_mod_cast hle
  have hnonneg : (0 : ℚ) ≤ ((|residual| : ℤ) : ℚ) / 100 := by positivity
  have hle : ((|residual| : ℤ) : ℚ) / 100 ≤ 1 := by linarith
  apply roundTo_unit
  · nlinarith [mul_le_one₀ hle hw.1 hw.2]
  · nlinarith [mul_nonneg hnonneg hw.1]

theorem closingConfidence_unit {fallback : ℚ} (hfallback : 0 ≤ fallback ∧ fallback ≤ 1) (variance delta : ℤ) :
    0 ≤ closingConfidence fallback variance delta ∧ closingConfidence fallback variance delta ≤ 1 := by
  unfold closingConfidence
  split
  · rename_i h
    simpa using confidence_unit (w := 1 / 10) (by norm_num) h
  · exact hfallback

theorem partialCapture_sound : partialCapture.Sound := by
  intro c f hf
  obtain ⟨⟨_, hcloses⟩, hfinding⟩ := Option.ite_none_right_eq_some.mp hf
  have hdelta : f.deltaPaise = -captureGap c := by rw [← Option.some.inj hfinding]
  have h : closes (c.variance - f.deltaPaise) := by rwa [hdelta, sub_neg_eq_add]
  simpa [partialCapture] using confidence_unit (w := 1 / 10) (by norm_num) h

theorem bankChargeOrRounding_sound : bankChargeOrRounding.Sound := by
  intro c f hf
  obtain ⟨hcloses, _⟩ := Option.ite_none_right_eq_some.mp hf
  exact confidence_unit (by norm_num) hcloses

theorem classifiers_sound (U : Unicode) (standardFee : ℤ → ℤ) : ∀ k ∈ classifiers U standardFee, k.Sound := by
  intro k hk
  unfold classifiers at hk
  simp only [List.mem_cons, List.not_mem_nil, or_false] at hk
  rcases hk with rfl | rfl | rfl | rfl | rfl | rfl | rfl
  · exact fun _ _ _ => closingConfidence_unit (by norm_num) _ _
  · exact fun _ _ _ => closingConfidence_unit (by norm_num) _ _
  · exact fun _ _ _ => closingConfidence_unit (by norm_num) _ _
  · exact fun _ _ _ => closingConfidence_unit (by norm_num) _ _
  · exact partialCapture_sound
  · exact bankChargeOrRounding_sound
  · exact fun _ _ _ => closingConfidence_unit (by norm_num) _ _

/-- **The first match has a proportion for its confidence.** -/
theorem diagnose_unit {c : VarianceCase} {ks : List Classifier} (hks : ∀ k ∈ ks, k.Sound) {step : Nat}
    {cause : RootCause} {f : Finding} {confidence : ℚ}
    (h : (diagnose c step ks).matched = some (cause, f, confidence)) : 0 ≤ confidence ∧ confidence ≤ 1 := by
  induction ks generalizing step with
  | nil => cases h
  | cons k ks ih =>
      unfold diagnose at h
      cases hfind : k.find c with
      | none =>
          simp only [hfind] at h
          exact ih (fun k' hk' => hks k' (List.mem_cons_of_mem k hk')) h
      | some g =>
          simp only [hfind, Option.some.injEq, Prod.mk.injEq] at h
          obtain ⟨_, _, rfl⟩ := h
          exact hks k List.mem_cons_self c g hfind

/-! ## Which credits are associated with rows -/

section Associate

variable {U : Unicode} {standardFee : ℤ → ℤ} {digest : RowSignature → String} {index : ReconIndex}
  {rows : List ReconRow}

theorem length_resolveRows {lineKey : String} {byId : Dict String ReconRow} {pos : Nat}
    {pairs : List (String × (String × String))} {covered : List ReconRow}
    (h : resolveRows U lineKey byId pos pairs = .ok covered) : covered.length = pairs.length := by
  induction pairs generalizing pos covered with
  | nil =>
      cases h
      rfl
  | cons p pairs ih =>
      obtain ⟨rid, expected⟩ := p
      unfold resolveRows at h
      cases hget : byId.get? rid with
      | none =>
          rw [hget] at h
          cases h
      | some row =>
          rw [hget] at h
          dsimp only at h
          split at h
          · cases h
          · cases hrest : resolveRows U lineKey byId (pos + 1) pairs with
            | error e =>
                rw [hrest] at h
                cases h
            | ok rest =>
                rw [hrest] at h
                cases h
                rw [List.length_cons, List.length_cons, ih hrest]

theorem resolved_ne_nil {r : ReconciliationResult} {byId : Dict String ReconRow} {covered : List ReconRow}
    (hids : r.coveredRowIds ≠ []) (h : resolveCoveredRowsById U r byId = .ok covered) : covered ≠ [] := by
  unfold resolveCoveredRowsById at h
  split at h
  · cases h
  · rename_i hlength
    split at h
    · cases h
    · have hlen := length_resolveRows h
      rw [List.length_zip, ← not_not.mp hlength, Nat.min_self] at hlen
      intro hnil
      rw [hnil] at hlen
      exact hids (List.eq_nil_of_length_eq_zero hlen.symm)

theorem getD_rowsByKey (k : String × String) :
    ((rowsByKey rows).get? k).getD [] = rows.filter fun r => some (r.type, r.entityId) = some k := by
  unfold rowsByKey
  rw [Dict.getD_get?_gather_append (fun r : ReconRow => some (r.type, r.entityId)) (fun r => r), List.map_id']

/-- The legacy lookup finds a row as soon as the report has one of the covered entities. -/
theorem consumeRows_ne_nil {keys : List (String × String)} {seen : Dict (String × String) Nat}
    {row : ReconRow} (hrow : row ∈ rows) (hmem : (row.type, row.entityId) ∈ keys)
    (hunseen : seen.get? (row.type, row.entityId) = none) : consumeRows (rowsByKey rows) seen keys ≠ [] := by
  induction keys generalizing seen with
  | nil => exact absurd hmem List.not_mem_nil
  | cons k keys ih =>
      unfold consumeRows
      rw [getD_rowsByKey]
      by_cases hk : (row.type, row.entityId) = k
      · -- the first occurrence of the entity takes the first row of its bucket
        rw [← hk, hunseen, Option.getD_none]
        have hbucket : row ∈ rows.filter fun r => some (r.type, r.entityId) = some (row.type, row.entityId) :=
          List.mem_filter.mpr ⟨hrow, decide_eq_true rfl⟩
        cases hfilter : rows.filter fun r => some (r.type, r.entityId) = some (row.type, row.entityId) with
        | nil =>
            rw [hfilter] at hbucket
            exact absurd hbucket List.not_mem_nil
        | cons r rest => simp
      · intro hnil
        refine ih ((List.mem_cons.mp hmem).resolve_left hk) ?_ (List.append_eq_nil_iff.mp hnil).2
        rw [Dict.get?_insert, if_neg hk]
        exact hunseen

theorem mem_consumeRows {keys : List (String × String)} {seen : Dict (String × String) Nat} {row : ReconRow}
    (h : row ∈ consumeRows (rowsByKey rows) seen keys) : row ∈ rows ∧ (row.type, row.entityId) ∈ keys := by
  induction keys generalizing seen with
  | nil => exact absurd h List.not_mem_nil
  | cons k keys ih =>
      unfold consumeRows at h
      rw [getD_rowsByKey] at h
      rcases List.mem_append.mp h with hhead | htail
      · rw [Option.mem_toList] at hhead
        obtain ⟨hrow, hkey⟩ := List.mem_filter.mp (List.mem_of_getElem? hhead)
        rw [decide_eq_true_eq, Option.some.injEq] at hkey
        exact ⟨hrow, hkey ▸ List.mem_cons_self⟩
      · exact ⟨(ih htail).1, List.mem_cons_of_mem k (ih htail).2⟩

/-- **The credit is balanced already.** Its reconciliation names rows and covers its amount to the paisa; or no
    reconciliation names rows for it, its words tie it to one settlement, which has rows and this very net. -/
def AlreadyBalanced (U : Unicode) (index : ReconIndex) (rows : List ReconRow) (line : BankCreditLine)
    (rec : Option ReconciliationResult) : Prop :=
  match namedCoverage rec with
  | some r => r.coveredNetPaise = line.amountPaise ∧
      (r.coveredRowIds ≠ [] ∨ ∃ row ∈ rows, (row.type, row.entityId) ∈ r.coveredEntityIds)
  | none => ∃ sid, candidateSids U index line = [sid] ∧
      (index.settlementNet.get? sid).getD 0 = line.amountPaise ∧ ∃ row ∈ rows, row.settlementId = some sid

/-- What is associated decides whether the credit is balanced already. -/
theorem alreadyBalanced_iff {line : BankCreditLine} {rec : Option ReconciliationResult} {a : Association}
    (h : associate U index digest rows line rec = .ok a) :
    AlreadyBalanced U index rows line rec ↔ a.rows ≠ [] ∧ a.expectedNet = line.amountPaise := by
  unfold associate at h
  unfold AlreadyBalanced
  cases hrec : namedCoverage rec with
  | some r =>
      rw [hrec] at h
      dsimp only at h ⊢
      by_cases hids : r.coveredRowIds ≠ []
      · rw [if_pos hids] at h
        cases hcovered : resolveCoveredRowsById U r (rowsByCanonicalId digest rows) with
        | error e =>
            rw [hcovered] at h
            cases h
        | ok covered =>
            rw [hcovered] at h
            have hne := resolved_ne_nil hids hcovered
            simp only [bind, Except.bind, if_neg hne] at h
            cases h
            exact ⟨fun hb => ⟨hne, hb.1⟩, fun hb => ⟨hb.2, Or.inl hids⟩⟩
      · rw [if_neg hids] at h
        simp only [bind, Except.bind, pure, Except.pure] at h
        by_cases hconsumed : consumeRows (rowsByKey rows) Dict.empty r.coveredEntityIds = []
        · rw [if_pos hconsumed] at h
          cases h
          constructor
          · rintro ⟨_, hsome⟩
            obtain ⟨row, hrow, hmem⟩ := hsome.resolve_left hids
            exact absurd hconsumed (consumeRows_ne_nil hrow hmem (Dict.get?_empty _))
          · rintro ⟨hne, _⟩
            exact absurd rfl hne
        · rw [if_neg hconsumed] at h
          cases h
          obtain ⟨row, hrow⟩ := List.exists_mem_of_ne_nil _ hconsumed
          exact ⟨fun hb => ⟨hconsumed, hb.1⟩, fun hb => ⟨hb.2, Or.inr ⟨row, mem_consumeRows hrow⟩⟩⟩
  | none =>
      rw [hrec] at h
      dsimp only at h ⊢
      split at h
      · rename_i sid hsids
        cases h
        dsimp only
        constructor
        · rintro ⟨sid', hsid', hnet, row, hrow, hid⟩
          rw [hsids] at hsid'
          obtain rfl := (List.cons.inj hsid').1
          exact ⟨List.ne_nil_of_mem (List.mem_filter.mpr ⟨hrow, decide_eq_true hid⟩), hnet⟩
        · rintro ⟨hne, hnet⟩
          obtain ⟨row, hrow⟩ := List.exists_mem_of_ne_nil _ hne
          obtain ⟨hmem, hid⟩ := List.mem_filter.mp hrow
          exact ⟨sid, hsids, hnet, row, hmem, of_decide_eq_true hid⟩
      · rename_i hsids
        cases h
        constructor
        · rintro ⟨sid, hsid, _⟩
          exact absurd hsid (hsids sid)
        · rintro ⟨hne, _⟩
          exact absurd rfl hne

/-! ## What an investigation says -/

theorem classify_storable (line : BankCreditLine) (a : Association) (variance : ℤ) (opening : String) :
    Storable (classify U standardFee rows line a variance opening) := by
  unfold classify
  dsimp only
  split
  · exact ⟨RootCause.value_allowed .unexplained, le_refl 0, zero_le_one⟩
  · rename_i cause f confidence hmatched
    have hunit := diagnose_unit (classifiers_sound U standardFee) hmatched
    exact ⟨RootCause.value_allowed cause, hunit.1, hunit.2⟩

theorem lineKey_classify (line : BankCreditLine) (a : Association) (variance : ℤ) (opening : String) :
    (classify U standardFee rows line a variance opening).lineKey = line.key := by
  unfold classify
  dsimp only
  split <;> rfl

/-- **An investigation can be stored unless the credit is balanced already.** -/
theorem investigate_spec {line : BankCreditLine} {rec : Option ReconciliationResult} {inv : Investigation}
    (h : investigate U standardFee digest index rows line rec = .ok inv) :
    inv.lineKey = line.key ∧ (Storable inv ↔ ¬ AlreadyBalanced U index rows line rec) := by
  unfold investigate at h
  cases ha : associate U index digest rows line rec with
  | error e =>
      rw [ha] at h
      cases h
  | ok a =>
      rw [ha] at h
      rw [alreadyBalanced_iff ha]
      simp only [bind, Except.bind] at h
      by_cases hrows : a.rows = []
      · rw [if_pos hrows] at h
        cases h
        exact ⟨rfl, fun _ hb => hb.1 hrows, fun _ => ⟨RootCause.value_allowed .unexplained, le_refl 0, zero_le_one⟩⟩
      · rw [if_neg hrows] at h
        by_cases hvariance : line.amountPaise - a.expectedNet = 0
        · rw [if_pos hvariance] at h
          cases h
          refine ⟨rfl, fun hstorable => ?_, fun hb => absurd ⟨hrows, by omega⟩ hb⟩
          -- the table does not know the word
          exact absurd hstorable.allowed (show "balanced" ∉ rootCausesAllowed by decide)
        · rw [if_neg hvariance] at h
          cases h
          exact ⟨lineKey_classify _ _ _ _, fun _ hb => hvariance (by omega), fun _ => classify_storable _ _ _ _⟩

end Associate

/-! ## The whole run -/

section Run

variable (U : Unicode) (standardFee : ℤ → ℤ) (digest : RowSignature → String) (index : ReconIndex)
  (rows : List ReconRow)

theorem nodup_targetKeys (exceptions : List ExceptionRecord) : (targetKeys exceptions).Nodup :=
  (List.perm_insertionSort _ _).nodup_iff.mpr (List.nodup_dedup _)

/-- The credits investigated are lines under distinct keys. -/
theorem nodup_targets (lines : List BankCreditLine) (exceptions : List ExceptionRecord) :
    (((targetKeys exceptions).filterMap (linesByKey lines).dict.get?).map BankCreditLine.key).Nodup := by
  have hkey : ∀ key line, (linesByKey lines).dict.get? key = some line → line.key = key := (linesByKey lines).keyed
  apply List.Nodup.map_on
  · intro line hline line' hline' heq
    obtain ⟨key, _, hget⟩ := List.mem_filterMap.mp hline
    obtain ⟨key', _, hget'⟩ := List.mem_filterMap.mp hline'
    rw [hkey key line hget, hkey key' line' hget'] at heq
    rw [heq, hget'] at hget
    exact (Option.some.inj hget).symm
  · refine List.Nodup.filterMap ?_ (nodup_targetKeys exceptions)
    intro key key' line hline hline'
    exact (hkey key line hline).symm.trans (hkey key' line hline')

/-- The whole list can be saved. -/
def Saved (invs : List Investigation) : Prop :=
  (∀ inv ∈ invs, Storable inv) ∧ ∃ table, saveInvestigations invs = .ok table

/-- **A run's investigations can be stored** exactly if no credit that is put to an investigation is balanced
    already. -/
theorem investigations_stored_iff (lines : List BankCreditLine) (reconciliations : List ReconciliationResult)
    (exceptions : List ExceptionRecord) (invs : List Investigation)
    (h : buildInvestigations U standardFee digest index rows lines reconciliations exceptions = .ok invs) :
    Saved invs ↔ ∀ key ∈ targetKeys exceptions, ∀ line, (linesByKey lines).dict.get? key = some line →
      ¬ AlreadyBalanced U index rows line ((reconciliationsByKey reconciliations).get? key) := by
  have hruns := mapM_eq_ok.mp h
  have hspec : List.Forall₂ (fun (line : BankCreditLine) (inv : Investigation) => inv.lineKey = line.key ∧
      (Storable inv ↔ ¬ AlreadyBalanced U index rows line
        ((reconciliationsByKey reconciliations).get? line.key)))
      ((targetKeys exceptions).filterMap (linesByKey lines).dict.get?) invs :=
    hruns.imp fun line inv hinv => investigate_spec hinv
  have hkeys : invs.map Investigation.lineKey =
      ((targetKeys exceptions).filterMap (linesByKey lines).dict.get?).map BankCreditLine.key := by
    refine List.forall₂_eq_eq_eq ▸ ?_
    rw [List.forall₂_map_left_iff, List.forall₂_map_right_iff]
    exact hspec.flip.imp fun inv line hinv => hinv.1
  have hall : (∀ inv ∈ invs, Storable inv) ↔
      ∀ line ∈ (targetKeys exceptions).filterMap (linesByKey lines).dict.get?,
        ¬ AlreadyBalanced U index rows line ((reconciliationsByKey reconciliations).get? line.key) := by
    clear h hruns hkeys
    generalize (targetKeys exceptions).filterMap (linesByKey lines).dict.get? = targets at hspec
    induction hspec with
    | nil => simp
    | cons hinv _ ih => rw [List.forall_mem_cons, List.forall_mem_cons, ih, hinv.2]
  unfold Saved
  rw [saveInvestigations_iff, hkeys, hall]
  constructor
  · rintro ⟨hbalanced, _⟩ key hkey line hline
    have hline' := hbalanced line (List.mem_filterMap.mpr ⟨key, hkey, hline⟩)
    rwa [(linesByKey lines).keyed key line hline] at hline'
  · intro hbalanced
    have hlines : ∀ line ∈ (targetKeys exceptions).filterMap (linesByKey lines).dict.get?,
        ¬ AlreadyBalanced U index rows line ((reconciliationsByKey reconciliations).get? line.key) := by
      intro line hline
      obtain ⟨key, hkey, hget⟩ := List.mem_filterMap.mp hline
      rw [(linesByKey lines).keyed key line hget]
      exact hbalanced key hkey line hget
    exact ⟨hlines, hlines, nodup_targets lines exceptions⟩

end Run

/-! ## A duplicate credit -/

/-- Two credits that quote one settlement with its net. -/
def duplicateCredits : List BankCreditLine :=
  [creditLine "a" "NEFT 1111111111aaaaaa" 100000, creditLine "b" "NEFT 1111111111aaaaaa" 100000]

def duplicateReport : List ReconRow := [settledRow "pay_1" "S1" (some "1111111111aaaaaa") 100000]

/-- The exceptions and the investigations of a statement whose credits are all attributed to Razorpay. -/
def investigationsOf (lines : List BankCreditLine) (rows : List ReconRow) :
    Except ValueError (List String × List Investigation) := do
  let attributions := lines.map provenAttribution
  let out ← reconcile asciiUnicode RowSignature.entityId (linesByKey lines) attributions rows
  let exceptions := buildExceptions attributions out.unresolved (linesByKey lines) out.notes
  let invs ← buildInvestigations asciiUnicode (fun gross => roundHalfEven (gross * 236 / 10000)) RowSignature.entityId
    (ReconIndex.ofRows asciiUnicode rows) rows lines out.results exceptions
  return (exceptions.map ExceptionRecord.reasonCode, invs)

/-- **Both credits of the duplicate pair are called balanced**, and the table refuses the run. -/
theorem duplicate_not_saved : ∃ reasons invs,
    investigationsOf duplicateCredits duplicateReport = .ok (reasons, invs) ∧
      reasons = ["partial_or_duplicate_settlement", "partial_or_duplicate_settlement"] ∧
      invs.map (fun inv => (inv.lineKey, inv.rootCause)) = [("a", "balanced"), ("b", "balanced")] ∧
      saveInvestigations invs = .error .rootCauseAllowed ∧ ¬ Saved invs := by
  have hrun : (investigationsOf duplicateCredits duplicateReport).map (fun p =>
      (p.1, p.2.map (fun inv => (inv.lineKey, inv.rootCause)), saveInvestigations p.2)) =
        .ok (["partial_or_duplicate_settlement", "partial_or_duplicate_settlement"],
          [("a", "balanced"), ("b", "balanced")], .error .rootCauseAllowed) := by decide +kernel
  cases h : investigationsOf duplicateCredits duplicateReport with
  | error e =>
      rw [h] at hrun
      cases hrun
  | ok p =>
      rw [h] at hrun
      obtain ⟨hreasons, hrest⟩ := Prod.mk.inj (Except.ok.inj hrun)
      obtain ⟨hcauses, hsave⟩ := Prod.mk.inj hrest
      refine ⟨p.1, p.2, rfl, hreasons, hcauses, hsave, ?_⟩
      rintro ⟨_, table, htable⟩
      rw [hsave] at htable
      cases htable

/-- The hypothesis of `investigations_stored_iff` holds of an investigation of the first of them. -/
theorem investigations_stored_iff_duplicate : ∃ invs,
    buildInvestigations asciiUnicode (fun gross => gross / 50) RowSignature.entityId
        (ReconIndex.ofRows asciiUnicode duplicateReport) duplicateReport duplicateCredits []
        [⟨"a", "partial_or_duplicate_settlement", "", "", none, []⟩] = .ok invs ∧
      (Saved invs ↔ ∀ key ∈ targetKeys [⟨"a", "partial_or_duplicate_settlement", "", "", none, []⟩], ∀ line,
        (linesByKey duplicateCredits).dict.get? key = some line →
          ¬ AlreadyBalanced asciiUnicode (ReconIndex.ofRows asciiUnicode duplicateReport) duplicateReport line
            ((reconciliationsByKey []).get? key)) := by
  have hrun : (buildInvestigations asciiUnicode (fun gross => gross / 50) RowSignature.entityId
      (ReconIndex.ofRows asciiUnicode duplicateReport) duplicateReport duplicateCredits []
      [⟨"a", "partial_or_duplicate_settlement", "", "", none, []⟩]).isOk = true := by decide +kernel
  cases h : buildInvestigations asciiUnicode (fun gross => gross / 50) RowSignature.entityId
      (ReconIndex.ofRows asciiUnicode duplicateReport) duplicateReport duplicateCredits []
      [⟨"a", "partial_or_duplicate_settlement", "", "", none, []⟩] with
  | error e =>
      rw [h] at hrun
      cases hrun
  | ok invs => exact ⟨invs, rfl, investigations_stored_iff asciiUnicode (fun gross => gross / 50)
      RowSignature.entityId (ReconIndex.ofRows asciiUnicode duplicateReport) duplicateReport duplicateCredits []
      [⟨"a", "partial_or_duplicate_settlement", "", "", none, []⟩] invs h⟩

end Untangle
