import Mathlib.Tactic.Linarith
import Mathlib.Tactic.Push
import Untangle.Correctness.Investigate

/-!
# `Correctness.Closure` — when an investigation closes the variance

A root cause is meant to explain a part of the variance, in its direction, and to leave less of it (`Closed`). Every
classifier matches within a tolerance of one rupee, so for a variance beyond the tolerance that is what it does
(`Overreaches.small`). Within the tolerance the amount that a classifier matches can lie on the other side of zero, be
zero, or be more than twice the variance, and the classifiers before the one for rounding drift do not look. What they
match then is listed by `Overreaches`, and `investigate_closes_iff` says that nothing else goes wrong.
-/

namespace Untangle

open Lib

/-! ## The promise -/

/-- The part of the variance that the matched candidate stands for. -/
def Investigation.explained (inv : Investigation) : Option ℤ :=
  (inv.candidatesTried.find? CandidateTried.matched).map CandidateTried.deltaPaise

/-- The causes that can only leave a credit short. -/
def deductions : List RootCause := [.crossCycleRefundLag, .disputeDeduction, .partialCapture]

/-- The investigation drafts a balanced voucher over what it explains, which is a part of the variance in its
    direction, within the tolerance of all of it, and a gain. -/
structure Closed (inv : Investigation) : Prop where
  voucher : ∃ delta entry, inv.explained = some delta ∧ inv.correctiveEntry = some entry ∧ entry.balanced = true ∧
    entry.totalDebitPaise = |delta| ∧ delta ≠ 0
  direction : ∀ delta, inv.explained = some delta → delta.sign = inv.variancePaise.sign
  tolerance : ∀ delta, inv.explained = some delta → |inv.variancePaise - delta| ≤ tolerancePaise
  reduces : ∀ delta, inv.explained = some delta → |inv.variancePaise - delta| < |inv.variancePaise|
  /-- A surplus is not put down to a deduction, nor to a fee that was too high. -/
  surplus : 0 < inv.variancePaise → inv.rootCause ∉ deductions.map RootCause.value ∧
    (inv.rootCause = RootCause.mdrFeeDrift.value → ∀ delta, inv.explained = some delta → 0 < delta)

/-! ## The amounts that the classifiers match -/

section Amounts

variable (U : Unicode) (standardFee : ℤ → ℤ) (c : VarianceCase)

def taxSum : ℤ := (c.associated.map ReconRow.taxPaise).sum

/-- The tax of the rows is the variance, in either direction. -/
def TaxCloses : Prop := 0 < taxSum c ∧ closes (|c.variance| - taxSum c) = true

def feeSum : ℤ := (c.associated.map ReconRow.feePaise).sum

def grossSum : ℤ := ((c.associated.filter fun r => r.type = "payment").map ReconRow.amountPaise).sum

/-- What the fees are above the standard slab. -/
def feeDrift : ℤ := feeSum c - standardFee (grossSum c)

/-- The drift is the shortfall. -/
def FeeCloses : Prop := 0 < feeSum c ∧ 0 < grossSum c ∧ closes (c.variance + feeDrift standardFee c) = true

/-- The first refund of the settlements that crosses a cycle and is the shortfall. -/
def closingRefund : Option ReconRow :=
  (c.reconRows.filter fun r => r.settlementId.any (· ∈ c.associated.filterMap fun r => truthy r.settlementId) ∧
    isRefund U r).find? fun r => crossesCycle r ∧ 0 < refundAmount r ∧ closes (c.variance + refundAmount r)

/-- The rows on hold are the variance, in either direction. -/
def HoldCloses : Prop := 0 < onHoldSum c ∧ closes (|c.variance| - onHoldSum c) = true

def disputeSum : ℤ := ((c.associated.filter fun r => r.disputeId.isSome).map ReconRow.amountPaise).sum

/-- The disputed rows are the shortfall. -/
def DisputeCloses : Prop := 0 < disputeSum c ∧ closes (c.variance + disputeSum c) = true

/-- The gap between authorized and captured amounts is the shortfall. -/
def CaptureCloses : Prop := captureEvidenceValid c = true ∧ closes (c.variance + captureGap c) = true

/-- **The first classifier that matches** does so with an amount that does not reduce the variance: it is on the other
    side of zero, or zero, or twice the variance and more. -/
inductive Overreaches : Prop
  | tax (h : TaxCloses c) (hlarge : 2 * |c.variance| ≤ taxSum c)
  | fee (htax : ¬ TaxCloses c) (h : FeeCloses standardFee c)
      (hwrong : 0 ≤ c.variance * feeDrift standardFee c ∨ 2 * |c.variance| ≤ |feeDrift standardFee c|)
  | refund (htax : ¬ TaxCloses c) (hfee : ¬ FeeCloses standardFee c) {r : ReconRow} (h : closingRefund U c = some r)
      (hwrong : 0 < c.variance ∨ 2 * |c.variance| ≤ refundAmount r)
  | hold (htax : ¬ TaxCloses c) (hfee : ¬ FeeCloses standardFee c) (hrefund : closingRefund U c = none)
      (h : HoldCloses c) (hlarge : 2 * |c.variance| ≤ onHoldSum c)
  | dispute (htax : ¬ TaxCloses c) (hfee : ¬ FeeCloses standardFee c) (hrefund : closingRefund U c = none)
      (hhold : ¬ HoldCloses c) (h : DisputeCloses c) (hwrong : 0 < c.variance ∨ 2 * |c.variance| ≤ disputeSum c)
  | capture (htax : ¬ TaxCloses c) (hfee : ¬ FeeCloses standardFee c) (hrefund : closingRefund U c = none)
      (hhold : ¬ HoldCloses c) (hdispute : ¬ DisputeCloses c) (h : CaptureCloses c)
      (hwrong : 0 < c.variance ∨ 2 * |c.variance| ≤ captureGap c)

end Amounts

/-! ## Arithmetic of a reduction -/

theorem closes_iff {d : ℤ} : closes d = true ↔ |d| ≤ 100 := by
  unfold closes tolerancePaise
  exact decide_eq_true_iff

/-- An amount in the direction of the variance. -/
theorem follows_reduces_iff {v t : ℤ} (hv : v ≠ 0) (ht : 0 < t) :
    |v - (if v < 0 then -t else t)| < |v| ↔ ¬ 2 * |v| ≤ t := by
  split
  · rename_i hneg
    rw [abs_of_neg hneg, abs_lt]
    omega
  · rw [abs_of_pos (show 0 < v by omega), abs_lt]
    omega

theorem follows_within {v t : ℤ} (h : closes (|v| - t) = true) :
    |v - (if v < 0 then -t else t)| ≤ tolerancePaise := by
  have hcloses := abs_le.mp (closes_iff.mp h)
  unfold tolerancePaise
  split
  · rename_i hneg
    rw [abs_of_neg hneg] at hcloses
    exact abs_le.mpr (by omega)
  · rw [abs_of_nonneg (show 0 ≤ v by omega)] at hcloses
    exact abs_le.mpr (by omega)

theorem deduct_within {v a : ℤ} (h : closes (v + a) = true) : |v - -a| ≤ tolerancePaise := by
  rw [sub_neg_eq_add]
  exact closes_iff.mp h

/-- A deduction. -/
theorem deduct_reduces_iff {v a : ℤ} (hv : v ≠ 0) (ha : 0 < a) :
    |v - -a| < |v| ↔ ¬ (0 < v ∨ 2 * |v| ≤ a) := by
  rcases lt_or_gt_of_ne hv with hneg | hpos
  · rw [abs_of_neg hneg, abs_lt]
    omega
  · rw [abs_of_pos hpos, abs_lt]
    omega

/-- A drift, of either sign. -/
theorem drift_reduces_iff {v w : ℤ} (hv : v ≠ 0) :
    |v - -w| < |v| ↔ ¬ (0 ≤ v * w ∨ 2 * |v| ≤ |w|) := by
  rcases lt_or_gt_of_ne hv with hneg | hpos
  · rcases lt_or_ge 0 w with hw | hw
    · have hprod : v * w < 0 := mul_neg_of_neg_of_pos hneg hw
      rw [abs_of_neg hneg, abs_of_pos hw, abs_lt]
      omega
    · have hprod : 0 ≤ v * w := mul_nonneg_of_nonpos_of_nonpos (le_of_lt hneg) hw
      rw [abs_of_neg hneg, abs_lt]
      omega
  · rcases lt_or_ge w 0 with hw | hw
    · have hprod : v * w < 0 := mul_neg_of_pos_of_neg hpos hw
      rw [abs_of_pos hpos, abs_of_neg hw, abs_lt]
      omega
    · have hprod : 0 ≤ v * w := mul_nonneg (le_of_lt hpos) hw
      rw [abs_of_pos hpos, abs_lt]
      omega

/-- What reduces a number is on its side of zero. -/
theorem sign_of_reduces {v d : ℤ} (h : |v - d| < |v|) : d ≠ 0 ∧ d.sign = v.sign := by
  rcases lt_trichotomy v 0 with hneg | rfl | hpos
  · rw [abs_of_neg hneg, abs_lt] at h
    have hd : d < 0 := by omega
    exact ⟨ne_of_lt hd, by rw [Int.sign_eq_neg_one_of_neg hd, Int.sign_eq_neg_one_of_neg hneg]⟩
  · exact absurd h (by simp)
  · rw [abs_of_pos hpos, abs_lt] at h
    have hd : 0 < d := by omega
    exact ⟨ne_of_gt hd, by rw [Int.sign_eq_one_of_pos hd, Int.sign_eq_one_of_pos hpos]⟩

theorem RootCause.value_injective : Function.Injective RootCause.value := by
  intro cause cause' h
  cases cause <;> cases cause' <;> first | rfl | exact absurd h (by decide)

theorem RootCause.value_ne_balanced (cause : RootCause) : cause.value ≠ "balanced" := by
  cases cause <;> decide

/-! ## The first match -/

/-- Cause and amount of the first classifier that matches. -/
def firstMatch (c : VarianceCase) (ks : List Classifier) : Option (RootCause × ℤ) :=
  ks.findSome? fun k => (k.find c).map fun f => (k.cause, f.deltaPaise)

section Match

variable {U : Unicode} {standardFee : ℤ → ℤ} {c : VarianceCase} {k : Classifier} {ks : List Classifier}

theorem firstMatch_some {d : ℤ} (h : (k.find c).map Finding.deltaPaise = some d) :
    firstMatch c (k :: ks) = some (k.cause, d) := by
  obtain ⟨f, hf, rfl⟩ := Option.map_eq_some_iff.mp h
  unfold firstMatch
  rw [List.findSome?_cons, hf]
  rfl

theorem firstMatch_none (h : k.find c = none) : firstMatch c (k :: ks) = firstMatch c ks := by
  unfold firstMatch
  rw [List.findSome?_cons, h]
  rfl

theorem diagnose_matched (step : Nat) :
    ((diagnose c step ks).matched.map fun m => (m.1, m.2.1.deltaPaise)) = firstMatch c ks := by
  induction ks generalizing step with
  | nil => rfl
  | cons k ks ih =>
      unfold diagnose
      cases hf : k.find c with
      | some f => exact (firstMatch_some (by rw [hf]; rfl)).symm
      | none => exact (ih (step + 1)).trans (firstMatch_none hf).symm

/-- The candidate that is recorded as matched is the first match. -/
theorem diagnose_tried (step : Nat) :
    ((diagnose c step ks).tried.find? CandidateTried.matched).map CandidateTried.deltaPaise =
      (firstMatch c ks).map Prod.snd := by
  induction ks generalizing step with
  | nil => rfl
  | cons k ks ih =>
      unfold diagnose
      cases hf : k.find c with
      | some f =>
          rw [firstMatch_some (d := f.deltaPaise) (by rw [hf]; rfl)]
          rfl
      | none =>
          rw [firstMatch_none hf, ← ih (step + 1)]
          rfl

/-- Something that holds of every match holds of the first one. -/
theorem of_firstMatch {P : RootCause → ℤ → Prop} (h : ∀ k ∈ ks, ∀ f, k.find c = some f → P k.cause f.deltaPaise)
    {cause : RootCause} {d : ℤ} (hfirst : firstMatch c ks = some (cause, d)) : P cause d := by
  obtain ⟨k, hk, hsome⟩ := List.exists_of_findSome?_eq_some hfirst
  obtain ⟨f, hf, heq⟩ := Option.map_eq_some_iff.mp hsome
  obtain ⟨rfl, rfl⟩ := Prod.mk.inj heq
  exact h k hk f hf

/-! ## What each classifier matches -/

theorem findMdrFeeDrift_tax (h : TaxCloses c) : ((mdrFeeDrift standardFee).find c).map Finding.deltaPaise =
    some (if c.variance < 0 then -taxSum c else taxSum c) := by
  show (findMdrFeeDrift standardFee c).map Finding.deltaPaise = _
  unfold findMdrFeeDrift
  exact congrArg _ (if_pos h)

theorem findMdrFeeDrift_fee (htax : ¬ TaxCloses c) (h : FeeCloses standardFee c) :
    ((mdrFeeDrift standardFee).find c).map Finding.deltaPaise = some (-feeDrift standardFee c) := by
  show (findMdrFeeDrift standardFee c).map Finding.deltaPaise = _
  unfold findMdrFeeDrift
  have hcloses : closes (c.variance - -feeDrift standardFee c) = true := by rw [sub_neg_eq_add]; exact h.2.2
  exact congrArg _ ((if_neg htax).trans ((if_pos h.1).trans (if_pos ⟨h.2.1, hcloses⟩)))

theorem findMdrFeeDrift_none (htax : ¬ TaxCloses c) (hfee : ¬ FeeCloses standardFee c) :
    (mdrFeeDrift standardFee).find c = none := by
  show findMdrFeeDrift standardFee c = none
  unfold findMdrFeeDrift
  refine (if_neg htax).trans ?_
  by_cases hpos : 0 < feeSum c
  · refine (if_pos hpos).trans (if_neg fun hmatch => hfee ⟨hpos, hmatch.1, ?_⟩)
    have hcloses : closes (c.variance - -feeDrift standardFee c) = true := hmatch.2
    rwa [sub_neg_eq_add] at hcloses
  · exact if_neg hpos

theorem findRefund_eq : ((crossCycleRefundLag U).find c).map Finding.deltaPaise =
    (closingRefund U c).map fun r => -refundAmount r := by
  show (findCrossCycleRefundLag U c).map Finding.deltaPaise = _
  unfold findCrossCycleRefundLag closingRefund
  rw [Option.map_map]
  rfl

theorem refundAmount_pos {r : ReconRow} (h : closingRefund U c = some r) :
    0 < refundAmount r ∧ closes (c.variance + refundAmount r) = true := by
  have hfound := List.find?_some h
  rw [decide_eq_true_eq] at hfound
  exact hfound.2

theorem findEitherWay_some {sum : ℤ} {reason : String} (h : 0 < sum ∧ closes (|c.variance| - sum) = true) :
    (findEitherWay sum reason c).map Finding.deltaPaise = some (if c.variance < 0 then -sum else sum) := by
  unfold findEitherWay
  rw [if_pos h]
  rfl

theorem findDispute_some (h : DisputeCloses c) :
    (disputeDeduction.find c).map Finding.deltaPaise = some (-disputeSum c) := by
  show (findDisputeDeduction c).map Finding.deltaPaise = _
  unfold findDisputeDeduction
  exact congrArg _ (if_pos h)

theorem findCapture_some (h : CaptureCloses c) :
    (partialCapture.find c).map Finding.deltaPaise = some (-captureGap c) := by
  show (findPartialCapture c).map Finding.deltaPaise = _
  unfold findPartialCapture
  exact congrArg _ (if_pos h)

/-- Valid evidence has a gap. -/
theorem captureGap_pos (h : captureEvidenceValid c = true) : 0 < captureGap c := by
  unfold captureEvidenceValid at h
  simp only [Bool.and_eq_true, decide_eq_true_eq, List.all_eq_true, List.any_eq_true] at h
  obtain ⟨⟨_, hall⟩, p, hp, hlt⟩ := h
  unfold captureGap
  have hnonneg : ∀ q ∈ c.associated.filterMap capturePair, 0 ≤ q.1 - q.2 := fun q hq => by
    have hle := (hall q hq).1
    omega
  have hle := List.single_le_sum (l := (c.associated.filterMap capturePair).map fun p => p.1 - p.2)
    (fun d hd => by
      obtain ⟨q, hq, rfl⟩ := List.mem_map.mp hd
      exact hnonneg q hq) (p.1 - p.2) (List.mem_map_of_mem hp)
  omega

/-- **The first match reduces the variance unless it overreaches.** -/
theorem firstMatch_reduces_iff (hv : c.variance ≠ 0) :
    (∀ cause d, firstMatch c (classifiers U standardFee) = some (cause, d) → |c.variance - d| < |c.variance|) ↔
      ¬ Overreaches U standardFee c := by
  -- where the first match is known, the question is about its amount
  have hone : ∀ {cause : RootCause} {d : ℤ} {W : Prop},
      firstMatch c (classifiers U standardFee) = some (cause, d) → (|c.variance - d| < |c.variance| ↔ ¬ W) →
        (Overreaches U standardFee c ↔ W) →
        ((∀ cause d, firstMatch c (classifiers U standardFee) = some (cause, d) →
          |c.variance - d| < |c.variance|) ↔ ¬ Overreaches U standardFee c) := by
    intro cause d W hfirst hreduces hover
    rw [hover, ← hreduces]
    constructor
    · exact fun h => h cause d hfirst
    · intro h cause' d' hfirst'
      rw [hfirst] at hfirst'
      obtain ⟨_, rfl⟩ := Prod.mk.inj (Option.some.inj hfirst')
      exact h
  by_cases htax : TaxCloses c
  · refine hone (firstMatch_some (findMdrFeeDrift_tax htax)) (follows_reduces_iff hv htax.1) ⟨fun h => ?_, .tax htax⟩
    cases h with
    | tax _ hlarge => exact hlarge
    | _ => contradiction
  by_cases hfee : FeeCloses standardFee c
  · refine hone (firstMatch_some (findMdrFeeDrift_fee htax hfee)) (drift_reduces_iff hv)
      ⟨fun h => ?_, .fee htax hfee⟩
    cases h with
    | fee _ _ hwrong => exact hwrong
    | _ => contradiction
  have hmdr : firstMatch c (classifiers U standardFee) = firstMatch c [crossCycleRefundLag U, onHoldRelease,
      disputeDeduction, partialCapture, bankChargeOrRounding, rollingReserve U] :=
    firstMatch_none (findMdrFeeDrift_none htax hfee)
  cases hrefund : closingRefund U c with
  | some r =>
      have hfirst := hmdr.trans (firstMatch_some (findRefund_eq.trans (by rw [hrefund]; rfl)))
      refine hone hfirst (deduct_reduces_iff hv (refundAmount_pos hrefund).1) ⟨fun h => ?_, .refund htax hfee hrefund⟩
      cases h with
      | refund _ _ hr hwrong =>
          rw [hrefund] at hr
          cases hr
          exact hwrong
      | hold _ _ hnone => rw [hrefund] at hnone; cases hnone
      | dispute _ _ hnone => rw [hrefund] at hnone; cases hnone
      | capture _ _ hnone => rw [hrefund] at hnone; cases hnone
      | _ => contradiction
  | none =>
  have hnoRefund : (crossCycleRefundLag U).find c = none :=
    Option.map_eq_none_iff.mp (findRefund_eq.trans (by rw [hrefund]; rfl))
  have hrefunds := hmdr.trans (firstMatch_none hnoRefund)
  have hnotRefund : ∀ r, closingRefund U c ≠ some r := fun r hr => by rw [hrefund] at hr; cases hr
  by_cases hhold : HoldCloses c
  · refine hone (hrefunds.trans (firstMatch_some (findEitherWay_some hhold))) (follows_reduces_iff hv hhold.1)
      ⟨fun h => ?_, .hold htax hfee hrefund hhold⟩
    cases h with
    | hold _ _ _ _ hlarge => exact hlarge
    | refund _ _ hr => exact absurd hr (hnotRefund _)
    | _ => contradiction
  have hholds := hrefunds.trans (firstMatch_none (show onHoldRelease.find c = none from if_neg hhold))
  by_cases hdispute : DisputeCloses c
  · refine hone (hholds.trans (firstMatch_some (findDispute_some hdispute))) (deduct_reduces_iff hv hdispute.1)
      ⟨fun h => ?_, .dispute htax hfee hrefund hhold hdispute⟩
    cases h with
    | dispute _ _ _ _ _ hwrong => exact hwrong
    | refund _ _ hr => exact absurd hr (hnotRefund _)
    | _ => contradiction
  have hdisputes := hholds.trans (firstMatch_none (show disputeDeduction.find c = none from if_neg hdispute))
  by_cases hcapture : CaptureCloses c
  · refine hone (hdisputes.trans (firstMatch_some (findCapture_some hcapture)))
      (deduct_reduces_iff hv (captureGap_pos hcapture.1))
      ⟨fun h => ?_, .capture htax hfee hrefund hhold hdispute hcapture⟩
    cases h with
    | capture _ _ _ _ _ _ hwrong => exact hwrong
    | refund _ _ hr => exact absurd hr (hnotRefund _)
    | _ => contradiction
  have hcaptures := hdisputes.trans (firstMatch_none (show partialCapture.find c = none from if_neg hcapture))
  -- what is left closes the variance itself, or is beyond the tolerance
  have hquiet : ¬ Overreaches U standardFee c := by
    intro h
    cases h with
    | refund _ _ hr => exact absurd hr (hnotRefund _)
    | _ => contradiction
  refine iff_of_true (fun cause d hfirst => ?_) hquiet
  rw [hcaptures] at hfirst
  by_cases hrounding : closes c.variance = true
  · rw [firstMatch_some (d := c.variance) (by
      show (findBankCharge c).map Finding.deltaPaise = _
      unfold findBankCharge
      exact congrArg _ (if_pos hrounding))] at hfirst
    obtain ⟨_, rfl⟩ := Prod.mk.inj (Option.some.inj hfirst)
    rw [sub_self, abs_zero]
    exact abs_pos.mpr hv
  · rw [firstMatch_none (show bankChargeOrRounding.find c = none from if_neg hrounding)] at hfirst
    by_cases hreserve : 0 < reserveSum U c ∧ closes (|c.variance| - reserveSum U c) = true
    · rw [firstMatch_some (k := rollingReserve U) (findEitherWay_some hreserve)] at hfirst
      obtain ⟨_, rfl⟩ := Prod.mk.inj (Option.some.inj hfirst)
      apply (follows_reduces_iff hv hreserve.1).mpr
      rw [closes_iff] at hrounding
      have hcloses := abs_le.mp (closes_iff.mp hreserve.2)
      omega
    · rw [firstMatch_none (show (rollingReserve U).find c = none from if_neg hreserve)] at hfirst
      cases hfirst

/-- What is known of a match: it closes the variance within the tolerance, and a deduction lowers it. -/
structure Explains (c : VarianceCase) (cause : RootCause) (d : ℤ) : Prop where
  within : |c.variance - d| ≤ tolerancePaise
  lowers : cause ∈ deductions → d < 0
  named : cause ≠ .unexplained

theorem eq_of_find {f : Finding} {d : ℤ} (hf : k.find c = some f) (h : (k.find c).map Finding.deltaPaise = some d) :
    f.deltaPaise = d := by
  rw [hf] at h
  exact Option.some.inj h

theorem matches_eitherWay {sum : ℤ} {reason : String} {f : Finding} {cause : RootCause}
    (hcause : cause ∉ deductions ∧ cause ≠ .unexplained) (hf : findEitherWay sum reason c = some f) :
    Explains c cause f.deltaPaise := by
  obtain ⟨h, hfinding⟩ := Option.ite_none_right_eq_some.mp hf
  rw [← Option.some.inj hfinding]
  exact ⟨follows_within h.2, fun hmem => absurd hmem hcause.1, hcause.2⟩

theorem matches_mdrFeeDrift {f : Finding} (hf : (mdrFeeDrift standardFee).find c = some f) :
    Explains c .mdrFeeDrift f.deltaPaise := by
  have hwithin : |c.variance - f.deltaPaise| ≤ tolerancePaise := by
    by_cases htax : TaxCloses c
    · rw [eq_of_find hf (findMdrFeeDrift_tax htax)]
      exact follows_within htax.2
    · by_cases hfee : FeeCloses standardFee c
      · rw [eq_of_find hf (findMdrFeeDrift_fee htax hfee)]
        exact deduct_within hfee.2.2
      · rw [findMdrFeeDrift_none htax hfee] at hf
        cases hf
  exact ⟨hwithin, fun hmem => absurd hmem (by decide), by decide⟩

/-- A deduction by a positive amount. -/
theorem matches_deduction {f : Finding} {cause : RootCause} {a : ℤ} (hcause : cause ≠ .unexplained) (ha : 0 < a)
    (hcloses : closes (c.variance + a) = true) (hdelta : f.deltaPaise = -a) : Explains c cause f.deltaPaise := by
  rw [hdelta]
  exact ⟨deduct_within hcloses, fun _ => by omega, hcause⟩

theorem matches_classifiers : ∀ k ∈ classifiers U standardFee, ∀ f, k.find c = some f →
    Explains c k.cause f.deltaPaise := by
  intro k hk f hf
  unfold classifiers at hk
  simp only [List.mem_cons, List.not_mem_nil, or_false] at hk
  rcases hk with rfl | rfl | rfl | rfl | rfl | rfl | rfl
  · exact matches_mdrFeeDrift hf
  · cases hrefund : closingRefund U c with
    | none =>
        have hnone := findRefund_eq (U := U) (c := c)
        rw [hrefund, hf] at hnone
        cases hnone
    | some r =>
        have hpos := refundAmount_pos hrefund
        exact matches_deduction (show RootCause.crossCycleRefundLag ≠ .unexplained by decide) hpos.1 hpos.2
          (eq_of_find hf (findRefund_eq.trans (by rw [hrefund]; rfl)))
  · exact matches_eitherWay (by decide) hf
  · obtain ⟨h, _⟩ := Option.ite_none_right_eq_some.mp hf
    exact matches_deduction (by decide) h.1 h.2 (eq_of_find hf (findDispute_some h))
  · obtain ⟨h, _⟩ := Option.ite_none_right_eq_some.mp hf
    exact matches_deduction (by decide) (captureGap_pos h.1) h.2 (eq_of_find hf (findCapture_some h))
  · obtain ⟨_, hfinding⟩ := Option.ite_none_right_eq_some.mp hf
    rw [← Option.some.inj hfinding]
    exact ⟨by simp [tolerancePaise], fun hmem => absurd hmem (by decide), by decide⟩
  · exact matches_eitherWay (show RootCause.rollingReserve ∉ deductions ∧ RootCause.rollingReserve ≠ .unexplained by
      decide) hf

/-- Beyond the tolerance nothing overreaches. -/
theorem Overreaches.small (h : Overreaches U standardFee c) (hv : c.variance ≠ 0) : |c.variance| ≤ tolerancePaise := by
  by_contra hlarge
  refine (firstMatch_reduces_iff hv).mp (fun cause d hfirst => ?_) h
  exact (of_firstMatch matches_classifiers hfirst).within.trans_lt (not_le.mp hlarge)

end Match

/-! ## The investigation -/

section Investigation

variable (U : Unicode) (standardFee : ℤ → ℤ) (digest : RowSignature → String) (index : ReconIndex)
  (rows : List ReconRow)

theorem explained_classify (line : BankCreditLine) (a : Association) (variance : ℤ) (opening : String) :
    (classify U standardFee rows line a variance opening).explained =
      (firstMatch ⟨variance, a.rows, rows⟩ (classifiers U standardFee)).map Prod.snd := by
  rw [← diagnose_tried 2]
  unfold classify Investigation.explained
  dsimp only
  split <;> rfl

theorem variance_classify (line : BankCreditLine) (a : Association) (variance : ℤ) (opening : String) :
    (classify U standardFee rows line a variance opening).variancePaise = variance := by
  unfold classify
  dsimp only
  split <;> rfl

/-- The voucher moves the amount it is drafted for. -/
theorem totalDebit_corrective (line : BankCreditLine) (cause : RootCause) (paise : ℤ) (ref date utr : String) :
    (makeCorrectiveEntry line cause paise ref date utr).totalDebitPaise = |paise| := by
  unfold JournalEntry.totalDebitPaise makeCorrectiveEntry correctiveLines swing deduct
  cases cause with
  | disputeDeduction => simp
  | partialCapture => simp
  | _ =>
      dsimp only
      split <;> simp

/-- A classified credit is unexplained, or its cause and its voucher are those of the first match. -/
theorem classify_cases (line : BankCreditLine) (a : Association) (variance : ℤ) (opening : String) :
    (firstMatch ⟨variance, a.rows, rows⟩ (classifiers U standardFee) = none ∧
      (classify U standardFee rows line a variance opening).rootCause = RootCause.unexplained.value) ∨
    ∃ cause d, firstMatch ⟨variance, a.rows, rows⟩ (classifiers U standardFee) = some (cause, d) ∧
      (classify U standardFee rows line a variance opening).rootCause = cause.value ∧
      (classify U standardFee rows line a variance opening).correctiveEntry =
        some (makeCorrectiveEntry line cause d a.refId a.date a.utr) := by
  have hmatched : ((diagnose ⟨variance, a.rows, rows⟩ 2 (classifiers U standardFee)).matched.map fun m =>
      (m.1, m.2.1.deltaPaise)) = firstMatch ⟨variance, a.rows, rows⟩ (classifiers U standardFee) := diagnose_matched 2
  unfold classify
  dsimp only
  cases h : (diagnose ⟨variance, a.rows, rows⟩ 2 (classifiers U standardFee)).matched with
  | none =>
      rw [h] at hmatched
      exact Or.inl ⟨hmatched.symm, rfl⟩
  | some m =>
      rw [h] at hmatched
      exact Or.inr ⟨m.1, m.2.1.deltaPaise, hmatched.symm, rfl, rfl⟩

/-- A first match that reduces the variance makes a closed investigation. -/
theorem closed_classify {line : BankCreditLine} {a : Association} {variance : ℤ} {opening : String}
    {cause : RootCause} {d : ℤ}
    (hfirst : firstMatch ⟨variance, a.rows, rows⟩ (classifiers U standardFee) = some (cause, d))
    (hreduces : |variance - d| < |variance|) : Closed (classify U standardFee rows line a variance opening) := by
  obtain ⟨hne, hsign⟩ := sign_of_reduces hreduces
  have hmatches := of_firstMatch matches_classifiers hfirst
  have hexplained : (classify U standardFee rows line a variance opening).explained = some d := by
    rw [explained_classify, hfirst]
    rfl
  have honly : ∀ delta, (classify U standardFee rows line a variance opening).explained = some delta → delta = d :=
    fun delta h => Option.some.inj (h.symm.trans hexplained)
  have hcases := classify_cases U standardFee rows line a variance opening
  rw [hfirst] at hcases
  obtain ⟨_, _, heq, hcause, hentry⟩ := hcases.resolve_left fun h => (by cases h.1)
  obtain ⟨rfl, rfl⟩ := Prod.mk.inj (Option.some.inj heq)
  have hdirection : 0 < variance → 0 < d := fun hpos => by
    rw [Int.sign_eq_one_of_pos hpos] at hsign
    exact Int.sign_eq_one_iff_pos.mp hsign
  refine ⟨⟨d, _, hexplained, hentry, correctiveEntry_balanced _ _ _ _ _ _, totalDebit_corrective _ _ _ _ _ _, hne⟩,
    fun delta h => ?_, fun delta h => ?_, fun delta h => ?_, fun hpos => ⟨fun hmem => ?_, fun _ delta h => ?_⟩⟩
  · rw [honly delta h, variance_classify, hsign]
  · rw [honly delta h, variance_classify]
    exact hmatches.within
  · rw [honly delta h, variance_classify]
    exact hreduces
  · rw [variance_classify] at hpos
    rw [hcause] at hmem
    obtain ⟨cause', hmem', hvalue⟩ := List.mem_map.mp hmem
    have hlowers := hmatches.lowers (RootCause.value_injective hvalue ▸ hmem')
    have hup := hdirection hpos
    omega
  · rw [variance_classify] at hpos
    rw [honly delta h]
    exact hdirection hpos

section Cases

variable {line : BankCreditLine} {rec : Option ReconciliationResult} {a : Association}

theorem investigate_unassociated (ha : associate U index digest rows line rec = .ok a) (hrows : a.rows = []) :
    investigate U standardFee digest index rows line rec = .ok (withoutContext line) := by
  unfold investigate
  rw [ha]
  simp only [bind, Except.bind]
  rw [if_pos hrows]
  rfl

theorem investigate_settled (ha : associate U index digest rows line rec = .ok a) (hrows : a.rows ≠ [])
    (hvariance : line.amountPaise = a.expectedNet) :
    ∃ inv, investigate U standardFee digest index rows line rec = .ok inv ∧ inv.rootCause = "balanced" := by
  unfold investigate
  rw [ha]
  simp only [bind, Except.bind]
  rw [if_neg hrows, if_pos (sub_eq_zero.mpr hvariance)]
  exact ⟨_, rfl, rfl⟩

theorem investigate_classify (ha : associate U index digest rows line rec = .ok a) (hrows : a.rows ≠ [])
    (hvariance : line.amountPaise ≠ a.expectedNet) :
    ∃ opening, investigate U standardFee digest index rows line rec =
      .ok (classify U standardFee rows line a (line.amountPaise - a.expectedNet) opening) := by
  unfold investigate
  rw [ha]
  simp only [bind, Except.bind]
  rw [if_neg hrows, if_neg (sub_ne_zero.mpr hvariance)]
  exact ⟨_, rfl⟩

end Cases

/-- **An investigation that names a cause closes the variance exactly if** the first classifier that matches does not
    overreach. -/
theorem investigate_closes_iff (U : Unicode) (standardFee : ℤ → ℤ) (digest : RowSignature → String)
    (index : ReconIndex) (rows : List ReconRow) (line : BankCreditLine) (rec : Option ReconciliationResult) :
    (∀ inv, investigate U standardFee digest index rows line rec = .ok inv →
      inv.rootCause ≠ RootCause.unexplained.value → inv.rootCause ≠ "balanced" → Closed inv) ↔
    ∀ a, associate U index digest rows line rec = .ok a → a.rows ≠ [] → line.amountPaise ≠ a.expectedNet →
      ¬ Overreaches U standardFee ⟨line.amountPaise - a.expectedNet, a.rows, rows⟩ := by
  cases hassoc : associate U index digest rows line rec with
  | error e =>
      refine iff_of_true (fun inv h => ?_) fun a h => by cases h
      unfold investigate at h
      rw [hassoc] at h
      cases h
  | ok a =>
      have honly : ∀ a', (.ok a : Except ValueError Association) = .ok a' → a' = a := fun a' h => by
        cases h
        rfl
      by_cases hrows : a.rows = []
      · rw [investigate_unassociated U standardFee digest index rows hassoc hrows]
        refine iff_of_true (fun inv h hcause _ => ?_) fun a' h hne => absurd (honly a' h ▸ hrows) hne
        cases h
        exact absurd rfl hcause
      by_cases hvariance : line.amountPaise = a.expectedNet
      · obtain ⟨inv, hinv, hbalanced⟩ := investigate_settled U standardFee digest index rows hassoc hrows hvariance
        rw [hinv]
        refine iff_of_true (fun inv' h _ hnot => ?_) fun a' h _ hne => absurd (honly a' h ▸ hvariance) hne
        cases h
        exact absurd hbalanced hnot
      obtain ⟨opening, hinv⟩ := investigate_classify U standardFee digest index rows hassoc hrows hvariance
      have hreduces : _ ↔ ¬ Overreaches U standardFee ⟨line.amountPaise - a.expectedNet, a.rows, rows⟩ :=
        firstMatch_reduces_iff (sub_ne_zero.mpr hvariance)
      rw [hinv]
      constructor
      · intro h a' ha' _ _
        rw [honly a' ha', ← hreduces]
        intro cause d hfirst
        have hcases := classify_cases U standardFee rows line a (line.amountPaise - a.expectedNet) opening
        rw [hfirst] at hcases
        obtain ⟨_, _, heq, hcause, _⟩ := hcases.resolve_left fun h => (by cases h.1)
        obtain ⟨rfl, rfl⟩ := Prod.mk.inj (Option.some.inj heq)
        have hnamed := (of_firstMatch matches_classifiers hfirst).named
        have hclosed := h _ rfl (hcause ▸ fun heq => hnamed (RootCause.value_injective heq))
          (hcause ▸ RootCause.value_ne_balanced cause)
        have hexplained := explained_classify U standardFee rows line a (line.amountPaise - a.expectedNet) opening
        rw [hfirst] at hexplained
        have hlt := hclosed.reduces d hexplained
        rwa [variance_classify] at hlt
      · intro h inv heq hcause _
        cases heq
        rcases classify_cases U standardFee rows line a (line.amountPaise - a.expectedNet) opening with
          ⟨_, hnone⟩ | ⟨cause, d, hfirst, _, _⟩
        · exact absurd hnone hcause
        · exact closed_classify U standardFee rows hfirst (hreduces.mpr (h a rfl hrows hvariance) cause d hfirst)

end Investigation

/-! ## A surplus put down to a refund -/

/-- A settlement of a payment and of a small refund from an earlier cycle. -/
def refundedReport : List ReconRow :=
  [settledRow "pay_1" "S1" (some "1111111111aaaaaa") 100000,
    { settledRow "rfnd_1" "S1" (some "1111111111aaaaaa") 0 with
      type := "refund", amountPaise := 50, debitPaise := 50, createdAt := some ⟨738990, 36000⟩ }]

/-- The bank pays 30 paise more than the net, and the refund of 50 paise is said to account for it. -/
theorem surplus_refunded : ∃ inv,
    investigate asciiUnicode (fun gross => roundHalfEven (gross * 236 / 10000)) RowSignature.entityId
        (ReconIndex.ofRows asciiUnicode refundedReport) refundedReport (creditLine "a" "NEFT 1111111111aaaaaa" 99980)
        none = .ok inv ∧
      inv.rootCause = "cross_cycle_refund_lag" ∧ inv.variancePaise = 30 ∧ inv.explained = some (-50) ∧
      ¬ Closed inv := by
  have hrun : (investigate asciiUnicode (fun gross => roundHalfEven (gross * 236 / 10000)) RowSignature.entityId
      (ReconIndex.ofRows asciiUnicode refundedReport) refundedReport (creditLine "a" "NEFT 1111111111aaaaaa" 99980)
      none).map (fun inv => (inv.rootCause, inv.variancePaise, inv.explained)) =
        .ok ("cross_cycle_refund_lag", 30, some (-50)) := by decide +kernel
  obtain ⟨inv, hinv, heq⟩ := map_eq_ok.mp hrun
  obtain ⟨hcause, hrest⟩ := Prod.mk.inj heq
  obtain ⟨hvariance, hexplained⟩ := Prod.mk.inj hrest
  refine ⟨inv, hinv, hcause, hvariance, hexplained, fun hclosed => ?_⟩
  refine (hclosed.surplus (by rw [hvariance]; decide)).1 ?_
  rw [hcause]
  decide

end Untangle
