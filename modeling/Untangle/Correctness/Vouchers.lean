import Mathlib.Data.List.ReduceOption
import Untangle.Correctness.Journal

/-!
# `Correctness.Vouchers` — the postings of a voucher

"Exactly one of debit_paise / credit_paise is non-zero." The assertion of the export is never reached, and a rounding
line always keeps the invariant; the other lines keep it exactly if the amount they post is positive. What that asks of
a reconciliation and its rows is `Postable`: among others an input tax of one paisa, split between two states, leaves
one of them a line of nothing. `buildJournalEntries_proper_iff` is the statement for the whole export.
-/

namespace Untangle

open Lib

/-! ## Proper postings -/

/-- What the source says of a posting: no amount is negative, and exactly one is non-zero. -/
def JournalLine.Proper (l : JournalLine) : Prop :=
  0 ≤ l.debitPaise ∧ 0 ≤ l.creditPaise ∧ (l.debitPaise ≠ 0 ↔ l.creditPaise = 0)

instance (l : JournalLine) : Decidable l.Proper := by
  unfold JournalLine.Proper
  infer_instance

/-- A voucher as it is documented. -/
structure JournalEntry.Proper (e : JournalEntry) : Prop where
  balanced : e.balanced = true
  lines : ∀ l ∈ e.lines, l.Proper

theorem proper_debit {ledger : String} {paise : ℤ} :
    JournalLine.Proper { ledger := ledger, debitPaise := paise } ↔ 0 < paise := by
  show 0 ≤ paise ∧ (0 : ℤ) ≤ 0 ∧ (paise ≠ 0 ↔ (0 : ℤ) = 0) ↔ 0 < paise
  constructor
  · rintro ⟨hnonneg, _, hone⟩
    have hne := hone.mpr rfl
    omega
  · intro hpos
    exact ⟨hpos.le, le_rfl, iff_of_true hpos.ne' rfl⟩

theorem proper_credit {ledger : String} {paise : ℤ} :
    JournalLine.Proper { ledger := ledger, creditPaise := paise } ↔ 0 < paise := by
  show (0 : ℤ) ≤ 0 ∧ 0 ≤ paise ∧ ((0 : ℤ) ≠ 0 ↔ paise = 0) ↔ 0 < paise
  constructor
  · rintro ⟨_, hnonneg, hone⟩
    have hne : paise ≠ 0 := fun h => hone.mpr h rfl
    omega
  · intro hpos
    exact ⟨le_rfl, hpos.le, iff_of_false (fun h => h rfl) hpos.ne'⟩

/-! ## Line by line -/

/-- The residual is posted to the side of its sign, or not at all. -/
theorem proper_roundingLines (drift : ℤ) : ∀ l ∈ roundingLines drift, l.Proper := by
  intro l hl
  unfold roundingLines at hl
  split_ifs at hl with hover hunder
  · rw [List.mem_singleton.mp hl]
    exact proper_credit.mpr hover
  · rw [List.mem_singleton.mp hl]
    apply proper_debit.mpr
    omega
  · cases hl

theorem proper_mdrLines {mdr : ℤ} : (∀ l ∈ mdrLines mdr, l.Proper) ↔ 0 ≤ mdr := by
  unfold mdrLines
  split_ifs with hmdr
  · rw [List.forall_mem_singleton, proper_debit]
    omega
  · exact iff_of_true (fun l hl => absurd hl List.not_mem_nil) (by omega)

/-- An odd tax is split unevenly, and one paisa is split into nothing and itself. -/
theorem proper_itcLines {intraState : Bool} {itc : ℤ} :
    (∀ l ∈ itcLines intraState itc, l.Proper) ↔ 0 ≤ itc ∧ (intraState = true → itc ≠ 1) := by
  unfold itcLines
  split_ifs with hnone hintra
  · exact iff_of_true (fun l hl => absurd hl List.not_mem_nil) ⟨by omega, fun _ => by omega⟩
  · rw [List.forall_mem_cons, List.forall_mem_singleton, proper_debit, proper_debit]
    constructor
    · rintro ⟨hhalf, hrest⟩
      exact ⟨by omega, fun _ => by omega⟩
    · rintro ⟨hnonneg, hone⟩
      have := hone hintra
      constructor <;> omega
  · rw [List.forall_mem_singleton, proper_debit]
    constructor
    · intro hpos
      exact ⟨hpos.le, fun h => absurd h hintra⟩
    · rintro ⟨hnonneg, _⟩
      omega

/-! ## Which reconciliations can be posted -/

def feesOf (covered : List ReconRow) : ℤ := (covered.map ReconRow.feePaise).sum

def taxesOf (covered : List ReconRow) : ℤ := (covered.map ReconRow.taxPaise).sum

/-- What the invariant asks of a reconciliation and its covered rows: money has arrived, the tax is not negative and
    can be halved where it is halved, and the fee is as much as the tax it includes, or not negative beside it; the
    gross is what the covered net and the charges come to. -/
structure Postable (intraState : Bool) (rec : ReconciliationResult) (covered : List ReconRow) : Prop where
  received : 0 < rec.creditAmountPaise
  taxed : 0 ≤ taxesOf covered
  halved : intraState = true → taxesOf covered ≠ 1
  charged : if taxInsideFee covered then taxesOf covered ≤ feesOf covered else 0 ≤ feesOf covered
  cleared : 0 < rec.coveredNetPaise + feesOf covered + if taxInsideFee covered then 0 else taxesOf covered

theorem mdrExGst_eq (covered : List ReconRow) :
    mdrExGst covered = if taxInsideFee covered then feesOf covered - taxesOf covered else feesOf covered := rfl

theorem itcOf_eq (covered : List ReconRow) : itcOf covered = taxesOf covered := rfl

/-- **The voucher of a reconciliation is proper exactly if the reconciliation can be posted.** -/
theorem voucher_proper_iff (intraState : Bool) (rec : ReconciliationResult) (covered : List ReconRow) :
    (voucher intraState rec covered).Proper ↔ Postable intraState rec covered := by
  have hlines : (voucher intraState rec covered).Proper ↔ 0 < rec.creditAmountPaise ∧ 0 ≤ mdrExGst covered ∧
      (0 ≤ itcOf covered ∧ (intraState = true → itcOf covered ≠ 1)) ∧
      0 < rec.coveredNetPaise + mdrExGst covered + itcOf covered := by
    constructor
    · intro h
      have hlines := h.lines
      unfold voucher at hlines
      rw [List.forall_mem_cons, proper_debit, List.forall_mem_append, List.forall_mem_append, List.forall_mem_append,
        proper_mdrLines, proper_itcLines, List.forall_mem_singleton, proper_credit] at hlines
      obtain ⟨hbank, ⟨⟨_, hmdr⟩, hitc⟩, hgross⟩ := hlines
      exact ⟨hbank, hmdr, hitc, hgross⟩
    · rintro ⟨hbank, hmdr, hitc, hgross⟩
      refine ⟨voucher_balanced intraState rec covered, ?_⟩
      unfold voucher
      rw [List.forall_mem_cons, proper_debit, List.forall_mem_append, List.forall_mem_append, List.forall_mem_append,
        proper_mdrLines, proper_itcLines, List.forall_mem_singleton, proper_credit]
      exact ⟨hbank, ⟨⟨proper_roundingLines _, hmdr⟩, hitc⟩, hgross⟩
  rw [hlines, mdrExGst_eq, itcOf_eq]
  constructor
  · rintro ⟨hbank, hmdr, ⟨htax, hhalf⟩, hgross⟩
    refine ⟨hbank, htax, hhalf, ?_, ?_⟩
    · split_ifs at hmdr ⊢ <;> omega
    · split_ifs at hgross ⊢ <;> omega
  · intro h
    have hcharged := h.charged
    have hcleared := h.cleared
    refine ⟨h.received, ?_, ⟨h.taxed, h.halved⟩, ?_⟩
    · split_ifs at hcharged ⊢ <;> omega
    · split_ifs at hcleared ⊢ <;> omega

/-! ## The whole export -/

section Export

variable (U : Unicode) (digest : RowSignature → String) (intraState : Bool)
  (reconciliations : List ReconciliationResult) (rows : List ReconRow)

/-- The rows the export finds for a reconciliation. -/
def foundRows (rec : ReconciliationResult) : Except ValueError (List ReconRow) :=
  journalRows U (rowsByCanonicalId digest rows) (rowsByKey rows) rec

/-- The assertion on the balance is never reached, and every voucher built is proper. -/
structure JournalProper : Prop where
  asserted : ∀ m, buildJournalEntries U digest reconciliations rows intraState ≠ .error (.unbalanced m)
  entries : ∀ entries, buildJournalEntries U digest reconciliations rows intraState = .ok entries →
    ∀ e ∈ entries, e.Proper

variable {U digest intraState reconciliations rows}

theorem journalStep_found {rec : ReconciliationResult} {covered : List ReconRow}
    (h : foundRows U digest rows rec = .ok covered) :
    journalStep U intraState (rowsByCanonicalId digest rows) (rowsByKey rows) rec =
      .ok (if covered = [] then none else some (voucher intraState rec covered)) := by
  unfold foundRows at h
  unfold journalStep
  rw [h]
  simp only [Except.mapError, bind, Except.bind]
  by_cases hnone : covered = []
  · rw [if_pos hnone, if_pos hnone]
    rfl
  · rw [if_neg hnone, if_neg hnone, voucher_balanced]
    rfl

theorem journalStep_notFound {rec : ReconciliationResult} {e : ValueError}
    (h : foundRows U digest rows rec = .error e) :
    journalStep U intraState (rowsByCanonicalId digest rows) (rowsByKey rows) rec = .error (.identity e) := by
  unfold foundRows at h
  unfold journalStep
  rw [h]
  rfl

/-- A turn of the loop does not reach the assertion. -/
theorem journalStep_asserted (rec : ReconciliationResult) :
    Raises (fun e => ∃ identity, e = .identity identity)
      (journalStep U intraState (rowsByCanonicalId digest rows) (rowsByKey rows) rec) := by
  cases hfound : foundRows U digest rows rec with
  | error e =>
      rw [journalStep_notFound hfound]
      exact raises_error ⟨e, rfl⟩
  | ok covered =>
      rw [journalStep_found hfound]
      exact raises_ok

theorem mem_byLineKey {rec : ReconciliationResult} :
    rec ∈ reconciliations.insertionSort (fun r r' => r.lineKey ≤ r'.lineKey) ↔ rec ∈ reconciliations :=
  (List.perm_insertionSort _ reconciliations).mem_iff

/-- The rows of every reconciliation are found: the export comes to an end. -/
theorem buildJournalEntries_returns_iff : Returns (buildJournalEntries U digest reconciliations rows intraState) ↔
    ∀ rec ∈ reconciliations, Returns (foundRows U digest rows rec) := by
  unfold buildJournalEntries
  rw [returns_bind_pure, returns_mapM]
  constructor
  · intro h rec hrec
    cases hfound : foundRows U digest rows rec with
    | ok covered => exact returns_ok
    | error e =>
        have hturn := h rec (mem_byLineKey.mpr hrec)
        rw [journalStep_notFound hfound] at hturn
        exact absurd hturn not_returns_error
  · intro h rec hrec
    obtain ⟨covered, hfound⟩ := h rec (mem_byLineKey.mp hrec)
    rw [journalStep_found hfound]
    exact returns_ok

/-- The vouchers built are those of the reconciliations with covered rows. -/
theorem mem_buildJournalEntries {entries : List JournalEntry}
    (h : buildJournalEntries U digest reconciliations rows intraState = .ok entries) {e : JournalEntry} :
    e ∈ entries ↔ ∃ rec ∈ reconciliations, ∃ covered, foundRows U digest rows rec = .ok covered ∧ covered ≠ [] ∧
      e = voucher intraState rec covered := by
  have hfound := buildJournalEntries_returns_iff.mp ⟨entries, h⟩
  unfold buildJournalEntries at h
  obtain ⟨turns, hturns, hentries⟩ := bind_eq_ok.mp h
  have hentries : turns.reduceOption = entries := Except.ok.inj hentries
  rw [← hentries, List.reduceOption_mem_iff]
  constructor
  · intro he
    obtain ⟨rec, hrec, hturn⟩ := exists_of_mem_mapM hturns he
    have hrec := mem_byLineKey.mp hrec
    obtain ⟨covered, hcovered⟩ := hfound rec hrec
    rw [journalStep_found hcovered] at hturn
    refine ⟨rec, hrec, covered, hcovered, ?_⟩
    split_ifs at hturn with hnone
    · cases hturn
    · exact ⟨hnone, (Option.some.inj (Except.ok.inj hturn)).symm⟩
  · rintro ⟨rec, hrec, covered, hcovered, hsome, rfl⟩
    obtain ⟨turn, hturn, hstep⟩ := exists_mem_of_mapM hturns (mem_byLineKey.mpr hrec)
    rw [journalStep_found hcovered, if_neg hsome] at hstep
    exact Except.ok.inj hstep ▸ hturn

/-- **Proper vouchers.** For every list of reconciliations and rows and either split of the tax: the assertion is not
    reached, and if the rows of all reconciliations are found, every posting keeps the documented invariant exactly if
    every reconciliation with rows can be posted. -/
theorem buildJournalEntries_proper_iff (U : Unicode) (digest : RowSignature → String) (intraState : Bool)
    (reconciliations : List ReconciliationResult) (rows : List ReconRow) :
    JournalProper U digest intraState reconciliations rows ↔
      ((∀ rec ∈ reconciliations, Returns (foundRows U digest rows rec)) →
        ∀ rec ∈ reconciliations, ∀ covered, foundRows U digest rows rec = .ok covered → covered ≠ [] →
          Postable intraState rec covered) := by
  constructor
  · intro h hfound rec hrec covered hcovered hsome
    have hreturns : Returns (buildJournalEntries U digest reconciliations rows intraState) :=
      buildJournalEntries_returns_iff.mpr hfound
    obtain ⟨entries, hentries⟩ := hreturns
    have hmem := (mem_buildJournalEntries hentries).mpr ⟨rec, hrec, covered, hcovered, hsome, rfl⟩
    exact (voucher_proper_iff intraState rec covered).mp (h.entries entries hentries _ hmem)
  · intro h
    refine ⟨?_, ?_⟩
    · intro m hm
      unfold buildJournalEntries at hm
      rcases bind_eq_error.mp hm with hturn | ⟨_, _, hpure⟩
      · obtain ⟨_, hidentity⟩ := raises_mapM (fun rec _ => journalStep_asserted rec) _ hturn
        cases hidentity
      · cases hpure
    · intro entries hentries e he
      obtain ⟨rec, hrec, covered, hcovered, hsome, rfl⟩ := (mem_buildJournalEntries hentries).mp he
      exact (voucher_proper_iff intraState rec covered).mpr
        (h (buildJournalEntries_returns_iff.mp ⟨entries, hentries⟩) rec hrec covered hcovered hsome)

end Export

/-! ## One paisa of tax -/

/-- A payment of three rupees with a fee of seven paise, one of which is tax. -/
def pettyRow : ReconRow :=
  { settledRow "pay_01" "S01" (some "UTR0000000000001") 293 with amountPaise := 300, feePaise := 7, taxPaise := 1 }

def pettyCredits : List BankCreditLine := [creditLine "a" "NEFT UTR0000000000001" 293]

def pettyLines : List JournalLine :=
  [{ ledger := ledgerBank, debitPaise := 293 }, { ledger := ledgerMdr, debitPaise := 6 }, { ledger := ledgerItcCgst },
    { ledger := ledgerItcSgst, debitPaise := 1 }, { ledger := ledgerClearing, creditPaise := 300 }]

/-- **A posting of nothing**: the credit is reconciled with the settlement, and half of its tax is no amount. -/
theorem journal_posts_nothing : ∃ out,
    reconcile asciiUnicode RowSignature.entityId (linesByKey pettyCredits) (pettyCredits.map provenAttribution)
        [pettyRow] = .ok out ∧
      (buildJournalEntries asciiUnicode RowSignature.entityId out.results [pettyRow] true).map
          (List.map JournalEntry.lines) = .ok [pettyLines] ∧
      ¬ JournalProper asciiUnicode RowSignature.entityId true out.results [pettyRow] := by
  have hrun : (reconcile asciiUnicode RowSignature.entityId (linesByKey pettyCredits)
        (pettyCredits.map provenAttribution) [pettyRow]).map (fun out =>
          (buildJournalEntries asciiUnicode RowSignature.entityId out.results [pettyRow] true).map
            (List.map JournalEntry.lines)) =
      .ok (.ok [pettyLines]) := by
    decide +kernel
  obtain ⟨st, hout, _⟩ := reconcile_spec asciiUnicode RowSignature.entityId (linesByKey pettyCredits)
    (pettyCredits.map provenAttribution) [pettyRow]
  rw [hout] at hrun
  have hjournal := Except.ok.inj hrun
  refine ⟨_, hout, hjournal, ?_⟩
  intro h
  obtain ⟨entries, hentries, hlines⟩ := map_eq_ok.mp hjournal
  have hpetty : pettyLines ∈ entries.map JournalEntry.lines := by
    rw [hlines]
    exact List.mem_singleton.mpr rfl
  obtain ⟨e, he, heq⟩ := List.mem_map.mp hpetty
  have hproper := (h.entries entries hentries e he).lines
  rw [heq] at hproper
  exact absurd hproper (by decide)

end Untangle
