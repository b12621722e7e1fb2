import Mathlib.Data.List.Dedup
import Mathlib.Data.List.Perm.Lattice
import Untangle.Engine.Ledger

/-!
# `Correctness.Ledger` — when the ledger cross-check abstains

A key that the report repeats is left out of the cross-check, row by row and before the rows are grouped by order. So
an order that has such a row is not left out: its other payments still settle it, and it is judged on what remains of
it. `crossChecked_iff` says for which orders the cross-check abstains as it should.
-/

namespace Untangle

open Lib

/-! ## What is covered -/

section Covered

variable (recs : List ReconciliationResult) (rows : List ReconRow)

/-- A balanced reconciliation covers the row's key. -/
def KeyCovered (r : ReconRow) : Prop :=
  (r.type, r.entityId) ∈ (recs.filter ReconciliationResult.balanced).flatMap ReconciliationResult.coveredEntityIds

instance (r : ReconRow) : Decidable (KeyCovered recs r) := by
  unfold KeyCovered
  infer_instance

/-- No other row has the row's key. -/
def KeyUnique (r : ReconRow) : Prop := (rows.filter fun s => (s.type, s.entityId) = (r.type, r.entityId)).length = 1

instance (r : ReconRow) : Decidable (KeyUnique rows r) := by
  unfold KeyUnique
  infer_instance

/-- The covered rows of an order. -/
def coveredFor (oid : String) : List ReconRow :=
  rows.filter fun r => KeyCovered recs r ∧ truthy r.orderId = some oid

/-- A payment or refund that is covered for the order shares its key with another row. -/
def AmbiguousOrder (oid : String) : Prop :=
  ∃ r ∈ coveredFor recs rows oid, (r.type = "payment" ∨ r.type = "refund") ∧ ¬ KeyUnique rows r

variable {recs rows}

theorem mem_coveredFor {oid : String} {r : ReconRow} :
    r ∈ coveredFor recs rows oid ↔ r ∈ rows ∧ KeyCovered recs r ∧ truthy r.orderId = some oid := by
  simp [coveredFor]

theorem uniqueRow_eq_some {key : String × String} {r : ReconRow} :
    uniqueRow rows key = some r ↔ rows.filter (fun s => (s.type, s.entityId) = key) = [r] := by
  unfold uniqueRow
  split
  · rename_i s heq
    rw [heq]
    simp
  · rename_i hne
    constructor
    · intro h
      cases h
    · intro h
      exact absurd h (hne r)

/-- The row of a unique key has that key. -/
theorem key_of_uniqueRow {key : String × String} {r : ReconRow} (h : uniqueRow rows key = some r) :
    r ∈ rows ∧ (r.type, r.entityId) = key := by
  rw [uniqueRow_eq_some] at h
  have hr : r ∈ rows.filter fun s => (s.type, s.entityId) = key := by
    rw [h]
    exact List.mem_singleton_self r
  simpa using hr

theorem mem_provenRows {r : ReconRow} : r ∈ provenRows recs rows ↔ r ∈ rows ∧ KeyCovered recs r ∧ KeyUnique rows r := by
  unfold provenRows
  rw [List.mem_filterMap]
  constructor
  · rintro ⟨key, hkey, hrow⟩
    obtain ⟨hr, rfl⟩ := key_of_uniqueRow hrow
    rw [uniqueRow_eq_some] at hrow
    refine ⟨hr, List.mem_dedup.mp hkey, ?_⟩
    unfold KeyUnique
    rw [hrow]
    rfl
  · rintro ⟨hr, hcovered, hunique⟩
    refine ⟨(r.type, r.entityId), List.mem_dedup.mpr hcovered, ?_⟩
    obtain ⟨s, hs⟩ := List.length_eq_one_iff.mp hunique
    have hmem : r ∈ rows.filter fun s => (s.type, s.entityId) = (r.type, r.entityId) :=
      List.mem_filter.mpr ⟨hr, by simp⟩
    rw [hs, List.mem_singleton] at hmem
    rw [uniqueRow_eq_some, hs, hmem]

theorem nodup_provenRows : (provenRows recs rows).Nodup := by
  unfold provenRows
  apply List.Nodup.filterMap _ (List.nodup_dedup _)
  intro key key' r h h'
  exact (key_of_uniqueRow h).2.symm.trans (key_of_uniqueRow h').2

/-- **The proven slice** has the covered rows whose key is unique. -/
theorem provenRows_perm :
    (provenRows recs rows).Perm (rows.filter fun r => KeyCovered recs r ∧ KeyUnique rows r) := by
  have hnodup : (rows.filter fun r => KeyCovered recs r ∧ KeyUnique rows r).Nodup := by
    rw [List.nodup_iff_count_le_one]
    intro r
    by_cases hr : KeyCovered recs r ∧ KeyUnique rows r
    · -- a row that is there twice would not have its key alone
      rw [List.count_filter (by simpa using hr)]
      have hle : (rows.filter fun s => (s.type, s.entityId) = (r.type, r.entityId)).count r ≤
          (rows.filter fun s => (s.type, s.entityId) = (r.type, r.entityId)).length := List.count_le_length
      rw [List.count_filter (by simp)] at hle
      exact hle.trans hr.2.le
    · have hout : r ∉ rows.filter fun r => KeyCovered recs r ∧ KeyUnique rows r := by
        intro hmem
        exact hr (by simpa using (List.mem_filter.mp hmem).2)
      rw [List.count_eq_zero_of_not_mem hout]
      exact Nat.zero_le 1
  apply (List.perm_ext_iff_of_nodup nodup_provenRows hnodup).mpr
  intro r
  rw [mem_provenRows, List.mem_filter]
  simp

end Covered

/-! ## Verdicts -/

section Verdicts

variable (U : Unicode) (ledger : List OrderLedgerEntry) (recs : List ReconciliationResult) (rows : List ReconRow)
  (oid : String)

/-- What the covered payments of an order with a test amount to. -/
def coveredPaid (test : ReconRow → Bool) : ℤ :=
  (((coveredFor recs rows oid).filter fun r => r.type = "payment" ∧ test r).map ReconRow.amountPaise).sum

/-- **The cross-check of an order** abstains on an ambiguous one; where all keys are unique, it compares the one booking
    of a settled order with the covered payments. -/
structure CrossChecked : Prop where
  abstains : AmbiguousOrder recs rows oid →
    oid ∉ amountConflicts ledger (provenRows recs rows) ∧ oid ∉ statusConflicts U ledger (provenRows recs rows)
  compares : (∀ r ∈ coveredFor recs rows oid, KeyUnique rows r) → (∃ r ∈ coveredFor recs rows oid, r.type = "payment") →
    (oid ∈ amountConflicts ledger (provenRows recs rows) ↔
      ∃ b, bookings ledger oid = [b] ∧ 100 < |b.amountPaise - coveredPaid recs rows oid fun _ => true|)

/-- The rest of the order is settled and booked once, and the booking does not agree with it in amount or status. -/
def JudgedOnRest : Prop :=
  (∃ r ∈ coveredFor recs rows oid, r.type = "payment" ∧ KeyUnique rows r) ∧
  ∃ b, bookings ledger oid = [b] ∧
    (100 < |b.amountPaise - coveredPaid recs rows oid fun r => KeyUnique rows r| ∨
      isPaidStatus U b.status = false ∧ ¬ (isRefundStatus U b.status = true ∧
        ∃ r ∈ coveredFor recs rows oid, KeyUnique rows r ∧ (r.type = "refund" ∨ (truthy r.disputeId).isSome)))

variable {U ledger recs rows oid}

theorem mem_singlyBooked {test : String → OrderLedgerEntry → Bool} {oids : List String} :
    oid ∈ singlyBooked ledger test oids ↔ oid ∈ oids ∧ ∃ b, bookings ledger oid = [b] ∧ test oid b = true := by
  unfold singlyBooked
  rw [List.mem_filter]
  apply and_congr_right
  intro _
  split
  · rename_i b heq
    rw [heq]
    simp
  · rename_i hne
    constructor
    · intro h
      cases h
    · rintro ⟨b, hb, _⟩
      exact absurd hb (hne b)

theorem mem_settledOrderIds_provenRows : oid ∈ settledOrderIds (provenRows recs rows) ↔
    ∃ r ∈ coveredFor recs rows oid, r.type = "payment" ∧ KeyUnique rows r := by
  simp only [settledOrderIds, List.mem_dedup, List.mem_filterMap, List.mem_filter, decide_eq_true_eq, mem_provenRows,
    mem_coveredFor]
  constructor
  · rintro ⟨r, ⟨⟨hr, hcovered, hunique⟩, htype⟩, horder⟩
    exact ⟨r, ⟨hr, hcovered, horder⟩, htype, hunique⟩
  · rintro ⟨r, ⟨hr, hcovered, horder⟩, htype, hunique⟩
    exact ⟨r, ⟨⟨hr, hcovered, hunique⟩, htype⟩, horder⟩

theorem mem_coveredRefundOrderIds_provenRows (h : oid ∈ settledOrderIds (provenRows recs rows)) :
    oid ∈ coveredRefundOrderIds (provenRows recs rows) ↔
      ∃ r ∈ coveredFor recs rows oid, KeyUnique rows r ∧ (r.type = "refund" ∨ (truthy r.disputeId).isSome) := by
  simp only [coveredRefundOrderIds, List.mem_dedup, List.mem_filterMap, List.mem_filter, decide_eq_true_eq,
    mem_provenRows, mem_coveredFor, Option.filter_eq_some_iff]
  constructor
  · rintro ⟨r, ⟨⟨hr, hcovered, hunique⟩, hrefund⟩, horder, _⟩
    exact ⟨r, ⟨hr, hcovered, horder⟩, hunique, hrefund⟩
  · rintro ⟨r, ⟨hr, hcovered, horder⟩, hunique, hrefund⟩
    exact ⟨r, ⟨⟨hr, hcovered, hunique⟩, hrefund⟩, horder, h⟩

/-- An order is compared with its covered payments that have a key of their own. -/
theorem settledPaymentAmount_provenRows :
    settledPaymentAmount (provenRows recs rows) oid = coveredPaid recs rows oid fun r => KeyUnique rows r := by
  unfold settledPaymentAmount orderPayments coveredPaid coveredFor
  have hrows : (provenRows recs rows).Perm (rows.filter fun r => KeyCovered recs r ∧ KeyUnique rows r) :=
    provenRows_perm
  have hperm := (hrows.filter fun r => truthy r.orderId = some oid ∧ r.type = "payment").map ReconRow.amountPaise
  rw [hperm.sum_eq, List.filter_filter, List.filter_filter]
  congr 2
  apply List.filter_congr
  intro r _
  simp only [Bool.decide_and, Bool.decide_eq_true]
  ac_rfl

theorem mem_amountConflicts_provenRows : oid ∈ amountConflicts ledger (provenRows recs rows) ↔
    (∃ r ∈ coveredFor recs rows oid, r.type = "payment" ∧ KeyUnique rows r) ∧ ∃ b, bookings ledger oid = [b] ∧
      100 < |b.amountPaise - coveredPaid recs rows oid fun r => KeyUnique rows r| := by
  unfold amountConflicts
  rw [mem_singlyBooked, mem_settledOrderIds_provenRows, settledPaymentAmount_provenRows]
  exact and_congr_right fun _ => exists_congr fun b => and_congr_right fun _ => decide_eq_true_iff

theorem mem_statusConflicts_provenRows : oid ∈ statusConflicts U ledger (provenRows recs rows) ↔
    (∃ r ∈ coveredFor recs rows oid, r.type = "payment" ∧ KeyUnique rows r) ∧ ∃ b, bookings ledger oid = [b] ∧
      isPaidStatus U b.status = false ∧ ¬ (isRefundStatus U b.status = true ∧
        ∃ r ∈ coveredFor recs rows oid, KeyUnique rows r ∧ (r.type = "refund" ∨ (truthy r.disputeId).isSome)) := by
  unfold statusConflicts
  rw [mem_singlyBooked, mem_settledOrderIds_provenRows]
  apply and_congr_right
  intro hsettled
  rw [← mem_coveredRefundOrderIds_provenRows (mem_settledOrderIds_provenRows.mpr hsettled)]
  apply exists_congr
  intro b
  rw [Bool.not_eq_true', Bool.or_eq_false_iff, Bool.and_eq_false_iff, decide_eq_false_iff_not, not_and_or,
    Bool.not_eq_true]

/-- **When the cross-check of an order is right**: it has no repeated key, or nothing is left of it to be judged. -/
theorem crossChecked_iff :
    CrossChecked U ledger recs rows oid ↔ ¬ (AmbiguousOrder recs rows oid ∧ JudgedOnRest U ledger recs rows oid) := by
  constructor
  · rintro h ⟨hambiguous, hsettled, b, hb, hjudged⟩
    obtain ⟨hamount, hstatus⟩ := h.abstains hambiguous
    obtain hoff | hwrong := hjudged
    · exact hamount (mem_amountConflicts_provenRows.mpr ⟨hsettled, b, hb, hoff⟩)
    · exact hstatus (mem_statusConflicts_provenRows.mpr ⟨hsettled, b, hb, hwrong⟩)
  · intro h
    constructor
    · intro hambiguous
      constructor
      · intro hmem
        obtain ⟨hsettled, b, hb, hoff⟩ := mem_amountConflicts_provenRows.mp hmem
        exact h ⟨hambiguous, hsettled, b, hb, Or.inl hoff⟩
      · intro hmem
        obtain ⟨hsettled, b, hb, hwrong⟩ := mem_statusConflicts_provenRows.mp hmem
        exact h ⟨hambiguous, hsettled, b, hb, Or.inr hwrong⟩
    · rintro hunique ⟨p, hp, hpayment⟩
      have hall : (coveredPaid recs rows oid fun r => KeyUnique rows r) = coveredPaid recs rows oid fun _ => true := by
        unfold coveredPaid
        congr 2
        apply List.filter_congr
        intro r hr
        simp [hunique r hr]
      rw [mem_amountConflicts_provenRows, hall]
      apply and_iff_right
      exact ⟨p, hp, hpayment, hunique p hp⟩

end Verdicts

/-! ## An order judged on a part of it -/

/-- Two payments with one key and one with its own, all of one order. -/
def partlyRepeated : List ReconRow :=
  [{ settledRow "pay_1" "setl_1" none 50000 with orderId := some "order_1" },
    { settledRow "pay_1" "setl_1" none 50000 with orderId := some "order_1" },
    { settledRow "pay_2" "setl_1" none 100000 with orderId := some "order_1" }]

def partlyRepeatedCover : ReconciliationResult :=
  { lineKey := "k1"
    coveredEntityIds := [("payment", "pay_1"), ("payment", "pay_1"), ("payment", "pay_2")]
    coveredNetPaise := 200000
    creditAmountPaise := 200000
    residualPaise := 0
    balanced := true }

/-- **The booking of the whole order is reported** as wrong, compared with one of its three payments. -/
theorem partlyRepeated_conflict : AmbiguousOrder [partlyRepeatedCover] partlyRepeated "order_1" ∧
    "order_1" ∈ amountConflicts [⟨some "order_1", 200000, "paid"⟩] (provenRows [partlyRepeatedCover] partlyRepeated) := by
  constructor
  · refine ⟨{ settledRow "pay_1" "setl_1" none 50000 with orderId := some "order_1" }, ?_, Or.inl rfl, ?_⟩
    · decide
    · decide
  · decide

end Untangle
