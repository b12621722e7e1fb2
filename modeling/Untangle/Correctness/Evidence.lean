import Mathlib.Tactic.NormNum
import Untangle.Engine.Evidence

/-!
# `Correctness.Evidence` — where each signal comes from

`razorpaySignals` concatenates three sources with disjoint signal names, so the name of an item says which
source produced it, and what that source had found. One lemma per tie signal.
-/

namespace Untangle

open Lib

section Signals

variable {U : Unicode} {pack : NarrationEvidencePack} {index : ReconIndex} {line : BankCreditLine}
  {e : EvidenceItem}

theorem mem_utrSignals (h : e ∈ utrSignals U index line) :
    (∃ t, matchedExact U index line = some t ∧
        e = ⟨"utr_exact", "UTR " ++ t ++ " matches a settlement_utr", 19 / 20⟩) ∨
      (matchedExact U index line = none ∧ ∃ tie,
        suffixScan U index line none (suffixCandidates (normalizeNarration U line.rawText)) = some tie ∧
        e = tie.item U) := by
  unfold utrSignals at h
  split at h
  · rename_i t ht
    exact Or.inl ⟨t, ht, List.mem_singleton.mp h⟩
  · rename_i hnone
    rw [Option.mem_toList] at h
    obtain ⟨tie, htie, rfl⟩ := Option.map_eq_some_iff.mp h
    exact Or.inr ⟨hnone, tie, htie, rfl⟩

theorem signal_suffixTie (tie : SuffixTie) :
    (tie.item U).signal = "utr_suffix" ∨ (tie.item U).signal = "utr_suffix_weak" := by
  cases tie with
  | strong => exact Or.inl rfl
  | weak => exact Or.inr rfl

theorem signal_amountSignals (h : e ∈ amountSignals index line) :
    e.signal ∈ ["amount_corr", "amount_corr_multi", "value_date_proximity"] := by
  unfold amountSignals at h
  split at h
  · exact absurd h List.not_mem_nil
  · rcases List.mem_cons.mp h with rfl | h
    · dsimp only
      split <;> simp
    · split at h
      · rw [List.mem_singleton.mp h]
        simp
      · exact absurd h List.not_mem_nil

theorem signal_rzpNarration {hasTokens matchedExactUtr : Bool}
    (h : e ∈ pack.evaluateRzpNarrationSignals U line hasTokens matchedExactUtr) :
    e.signal ∈ ["narration_brand_rzp", "ifsc_ratn", "settlement_ref"] := by
  unfold NarrationEvidencePack.evaluateRzpNarrationSignals at h
  dsimp only at h
  split at h
  · exact absurd h List.not_mem_nil
  · rw [List.mem_append, List.mem_append] at h
    rcases h with (h | h) | h
    · split at h
      · rw [List.mem_singleton.mp h]
        simp
      · split at h
        · rw [List.mem_singleton.mp h]
          simp
        · exact absurd h List.not_mem_nil
    · split at h
      · rw [List.mem_singleton.mp h]
        simp
      · exact absurd h List.not_mem_nil
    · split at h
      · rw [List.mem_singleton.mp h]
        simp
      · exact absurd h List.not_mem_nil

/-- The three sources. -/
theorem mem_razorpaySignals (h : e ∈ razorpaySignals U pack index line) :
    e ∈ utrSignals U index line ∨ e ∈ amountSignals index line ∨
      e.signal ∈ ["narration_brand_rzp", "ifsc_ratn", "settlement_ref"] := by
  unfold razorpaySignals at h
  rw [List.mem_append, List.mem_append] at h
  rcases h with (h | h) | h
  · exact Or.inl h
  · exact Or.inr (Or.inl h)
  · exact Or.inr (Or.inr (signal_rzpNarration h))

/-- The names a signal of a line can have. -/
theorem signal_razorpaySignals (h : e ∈ razorpaySignals U pack index line) :
    e.signal ∈ ["utr_exact", "utr_suffix", "utr_suffix_weak", "amount_corr", "amount_corr_multi",
      "value_date_proximity", "narration_brand_rzp", "ifsc_ratn", "settlement_ref"] := by
  rcases mem_razorpaySignals h with h | h | h
  · rcases mem_utrSignals h with ⟨t, _, rfl⟩ | ⟨_, tie, _, rfl⟩
    · exact List.mem_cons_self
    · rcases signal_suffixTie (U := U) tie with hname | hname <;> rw [hname] <;> decide
  · exact List.mem_append_left _ (List.mem_append_right ["utr_exact", "utr_suffix", "utr_suffix_weak"]
      (signal_amountSignals h))
  · exact List.mem_append_right ["utr_exact", "utr_suffix", "utr_suffix_weak", "amount_corr", "amount_corr_multi",
      "value_date_proximity"] h

/-- A UTR signal comes from the UTR source. -/
theorem mem_utrSignals_of_signal (h : e ∈ razorpaySignals U pack index line)
    (hs : e.signal = "utr_exact" ∨ e.signal = "utr_suffix") : e ∈ utrSignals U index line := by
  rcases mem_razorpaySignals h with h | h | h
  · exact h
  · have hname := signal_amountSignals h
    rcases hs with hs | hs <;> rw [hs] at hname <;> exact absurd hname (by decide)
  · rcases hs with hs | hs <;> rw [hs] at h <;> exact absurd h (by decide)

theorem utr_exact_signal (h : e ∈ razorpaySignals U pack index line) (hs : e.signal = "utr_exact") :
    ∃ t, matchedExact U index line = some t ∧ e.weight = 19 / 20 := by
  rcases mem_utrSignals (mem_utrSignals_of_signal h (Or.inl hs)) with ⟨t, ht, rfl⟩ | ⟨_, tie, _, rfl⟩
  · exact ⟨t, ht, rfl⟩
  · rcases signal_suffixTie (U := U) tie with hname | hname <;> rw [hname] at hs <;>
      exact absurd hs (by decide)

theorem utr_suffix_signal (h : e ∈ razorpaySignals U pack index line) (hs : e.signal = "utr_suffix") :
    ∃ tok utr how,
      suffixScan U index line none (suffixCandidates (normalizeNarration U line.rawText))
        = some (.strong tok utr how) := by
  rcases mem_utrSignals (mem_utrSignals_of_signal h (Or.inr hs)) with ⟨t, _, rfl⟩ | ⟨_, tie, htie, rfl⟩
  · exact absurd hs (show "utr_exact" ≠ "utr_suffix" by decide)
  · cases tie with
    | strong tok utr how => exact ⟨tok, utr, how, htie⟩
    | weak tok utr => exact absurd hs (show "utr_suffix_weak" ≠ "utr_suffix" by decide)

/-- A unique amount tie: exactly one settlement has the amount as its net. -/
theorem amount_corr_signal (h : e ∈ razorpaySignals U pack index line) (hs : e.signal = "amount_corr") :
    line.isCredit = true ∧ (∃ sid, index.netToSettlements.get? line.amountPaise = some [sid]) ∧
      3 / 10 ≤ e.weight := by
  rcases mem_razorpaySignals h with h | h | h
  · rcases mem_utrSignals h with ⟨t, _, rfl⟩ | ⟨_, tie, _, rfl⟩
    · exact absurd hs (show "utr_exact" ≠ "amount_corr" by decide)
    · rcases signal_suffixTie (U := U) tie with hname | hname <;> rw [hname] at hs <;>
        exact absurd hs (by decide)
  · unfold amountSignals at h
    split at h
    · exact absurd h List.not_mem_nil
    · rename_i sids hsids
      split at hsids
      · rename_i hcredit
        refine ⟨hcredit, ?_⟩
        rcases List.mem_cons.mp h with rfl | h
        · dsimp only at hs
          split at hs
          · rename_i hone
            obtain ⟨sid, rfl⟩ := List.length_eq_one_iff.mp hone
            refine ⟨⟨sid, hsids⟩, ?_⟩
            dsimp only
            split <;> norm_num
          · exact absurd hs (by decide)
        · split at h
          · rw [List.mem_singleton.mp h] at hs
            exact absurd hs (by decide)
          · exact absurd h List.not_mem_nil
      · exact absurd hsids (by simp)
  · rw [hs] at h
    exact absurd h (by decide)

/-- A tie weighs 0.3 at least. -/
theorem tie_weight (h : e ∈ razorpaySignals U pack index line)
    (hs : e.signal ∈ ["utr_exact", "utr_suffix", "setsum", "amount_corr"]) : 3 / 10 ≤ e.weight ∧ e.weight ≤ 1 := by
  rcases mem_razorpaySignals h with h | h | h
  · rcases mem_utrSignals h with ⟨t, _, rfl⟩ | ⟨_, tie, _, rfl⟩
    · norm_num
    · cases tie with
      | strong tok utr how => norm_num [SuffixTie.item]
      | weak tok utr => exact absurd hs (show "utr_suffix_weak" ∉ _ by decide)
  · unfold amountSignals at h
    split at h
    · exact absurd h List.not_mem_nil
    · rcases List.mem_cons.mp h with rfl | h
      · dsimp only
        split <;> norm_num
      · split at h
        · rw [List.mem_singleton.mp h] at hs
          exact absurd hs (show "value_date_proximity" ∉ _ by decide)
        · exact absurd h List.not_mem_nil
  · generalize e.signal = name at h hs
    simp only [List.mem_cons, List.not_mem_nil, or_false] at h hs
    rcases h with rfl | rfl | rfl <;> simp at hs

/-! ## Keyword hits -/

/-- A rail with a keyword hit has one item of evidence. -/
theorem evidence_of_keyword {p : Rail × List EvidenceItem} (hp : p ∈ (narrationRailSignals U pack line).items) :
    p.1 ∈ pack.railKeywords.keys ∧
      ∃ detail, p.2 = [⟨narrationPattern p.1, detail, pack.nonRzpPatternWeight⟩] := by
  -- the pack lists a rail once
  have hitems : ∀ q ∈ pack.railKeywords.items,
      (NarrationEvidencePack.keywordHit U line q.2).map (fun _ => q.1) = some p.1 →
        pack.railKeywords.items.filter (fun q' =>
          (NarrationEvidencePack.keywordHit U line q'.2).map (fun _ => q'.1) = some p.1) = [q] := by
    intro q hq hhit
    have hmem : ∀ q', q' ∈ pack.railKeywords.items.filter (fun q' =>
        (NarrationEvidencePack.keywordHit U line q'.2).map (fun _ => q'.1) = some p.1) ↔ q' = q := by
      intro q'
      rw [List.mem_filter, decide_eq_true_eq]
      constructor
      · rintro ⟨hq', hhit'⟩
        obtain ⟨_, _, hrail⟩ := Option.map_eq_some_iff.mp hhit
        obtain ⟨_, _, hrail'⟩ := Option.map_eq_some_iff.mp hhit'
        exact List.inj_on_of_nodup_map pack.railKeywords.nodup hq' hq (hrail'.trans hrail.symm)
      · rintro rfl
        exact ⟨hq, hhit⟩
    have hnodup := pack.railKeywords.nodup.of_map.filter (fun q' : Rail × List String =>
      (NarrationEvidencePack.keywordHit U line q'.2).map (fun _ => q'.1) = some p.1)
    exact List.perm_singleton.mp ((List.perm_ext_iff_of_nodup hnodup (List.nodup_singleton q)).mpr fun q' =>
      (hmem q').trans List.mem_singleton.symm)
  have hget := Dict.get?_of_mem (k := p.1) (v := p.2) hp
  have hkey := Dict.mem_keys_of_get? hget
  unfold narrationRailSignals NarrationEvidencePack.evaluateNonRzpSignals at hkey hget
  rw [Dict.mem_keys_gather] at hkey
  obtain ⟨q, hq, hhit⟩ := hkey
  have hvalue := congrArg (Option.getD · []) hget
  rw [Dict.getD_get?_gather_append, hitems q hq hhit] at hvalue
  obtain ⟨_, _, hrail⟩ := Option.map_eq_some_iff.mp hhit
  refine ⟨hrail ▸ Dict.mem_keys_of_mem (v := q.2) hq,
    "narration contains " ++ U.repr ((NarrationEvidencePack.keywordHit U line q.2).getD ""), ?_⟩
  rw [← hrail]
  exact hvalue.symm

end Signals

end Untangle
