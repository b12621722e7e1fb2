import Untangle.Correctness.Attribute.Splits

/-!
# `Correctness.Attribute.Margin` — what a larger proof margin does to the verdicts

Line by line the margin only demotes (`lineVerdict_margin`). A demoted line, however, abstains, and so joins the
pool the split reconstruction draws its legs from. `gate_monotone_iff` says when that does harm: exactly when a
group lifted from the larger pool mixes a leg demoted between the two margins with a leg that abstained already.
-/

namespace Untangle

open Lib

/-- The same settings at another margin threshold. -/
def Settings.atMargin (s : Settings) (t : ℚ) : Settings := { s with marginThreshold := t }

/-- The second verdict is the first, or a Razorpay verdict turned into UNKNOWN. -/
def OnlyDemoted (a a' : RailAttribution) : Prop :=
  (a'.rail = a.rail ∧ a'.abstained = a.abstained) ∨ (IsRazorpay a ∧ IsUnknown a')

/-- So what is Razorpay afterwards was Razorpay before. -/
theorem OnlyDemoted.isRazorpay {a a' : RailAttribution} (h : OnlyDemoted a a') (h' : IsRazorpay a') :
    IsRazorpay a := by
  rcases h with ⟨hrail, habs⟩ | ⟨hrzp, _⟩
  · exact ⟨hrail ▸ h'.1, habs ▸ h'.2⟩
  · exact hrzp

/-! ## One line -/

section Margin

variable {U : Unicode} {s : Settings} {index : ReconIndex} {lines : List BankCreditLine} {t₁ t₂ : ℚ}

/-- The line is a candidate verdict that survives the first margin and not the second. -/
def DemotedBetween (U : Unicode) (s : Settings) (index : ReconIndex) (t₁ t₂ : ℚ)
    (line : BankCreditLine) : Prop :=
  match lineDecision U s.threshold s.pack index line with
  | .settled _ => False
  | .candidate evidence score _ =>
    Survives t₁ evidence (narrationRailSignals U s.pack line) score ∧
      ¬ Survives t₂ evidence (narrationRailSignals U s.pack line) score

/-- **On one line the margin only demotes**, and it does so to the lines in between. -/
theorem lineVerdict_margin (U : Unicode) (s : Settings) (index : ReconIndex) (h : t₁ ≤ t₂) (line : BankCreditLine) :
    (DemotedBetween U s index t₁ t₂ line ∧
        IsRazorpay (lineVerdict U (s.atMargin t₁) index line) ∧
        IsUnknown (lineVerdict U (s.atMargin t₂) index line)) ∨
      (¬ DemotedBetween U s index t₁ t₂ line ∧
        (lineVerdict U (s.atMargin t₂) index line).rail
          = (lineVerdict U (s.atMargin t₁) index line).rail ∧
        (lineVerdict U (s.atMargin t₂) index line).abstained
          = (lineVerdict U (s.atMargin t₁) index line).abstained) := by
  unfold DemotedBetween lineVerdict
  cases hd : lineDecision U s.threshold s.pack index line with
  | settled a =>
      right
      show ¬ False ∧ _
      rw [show (s.atMargin t₁).threshold = s.threshold from rfl,
        show (s.atMargin t₂).threshold = s.threshold from rfl,
        show (s.atMargin t₁).pack = s.pack from rfl, show (s.atMargin t₂).pack = s.pack from rfl, hd]
      exact ⟨not_false, rfl, rfl⟩
  | candidate evidence score tier =>
      rw [show (s.atMargin t₁).threshold = s.threshold from rfl,
        show (s.atMargin t₂).threshold = s.threshold from rfl,
        show (s.atMargin t₁).pack = s.pack from rfl, show (s.atMargin t₂).pack = s.pack from rfl, hd]
      dsimp only [Decision.finish]
      by_cases h₂ : Survives t₂ evidence (narrationRailSignals U s.pack line) score
      · have hacc₁ := finalize_accepted (s := s.atMargin t₁) line tier (h₂.mono h)
        have hacc₂ := finalize_accepted (s := s.atMargin t₂) line tier h₂
        exact Or.inr ⟨fun hbetween => hbetween.2 h₂, hacc₂.rail.trans hacc₁.rail.symm,
          hacc₂.open_.trans hacc₁.open_.symm⟩
      · have hdem₂ := (finalize_demoted (s := s.atMargin t₂) line tier h₂).1
        by_cases h₁ : Survives t₁ evidence (narrationRailSignals U s.pack line) score
        · have hacc₁ := finalize_accepted (s := s.atMargin t₁) line tier h₁
          exact Or.inl ⟨⟨h₁, h₂⟩, hacc₁.isRazorpay, hdem₂.isUnknown⟩
        · have hdem₁ := (finalize_demoted (s := s.atMargin t₁) line tier h₁).1
          exact Or.inr ⟨fun hbetween => h₁ hbetween.1, hdem₂.rail.trans hdem₁.rail.symm,
            hdem₂.closed.trans hdem₁.closed.symm⟩

/-- A larger margin has the larger pool. -/
theorem splitCandidates_margin (h : t₁ ≤ t₂) :
    (splitCandidates U (s.atMargin t₁) index lines).Sublist
      (splitCandidates U (s.atMargin t₂) index lines) := by
  unfold splitCandidates
  refine List.monotone_filter_right lines fun line => ?_
  intro hcand
  rw [isSplitCandidate_iff] at hcand ⊢
  obtain ⟨habs, hcould⟩ := hcand
  refine ⟨?_, hcould⟩
  rcases lineVerdict_margin U s index h line with hbetween | hsame
  · exact hbetween.2.2.2
  · exact hsame.2.2.trans habs

end Margin

/-! ## Groups in a smaller pool -/

section Shrink

variable {U : Unicode} {pack : NarrationEvidencePack} {index : ReconIndex}
  {cands cands' : List BankCreditLine}

theorem eligibleLegs_sublist (h : cands.Sublist cands') (net : ℤ) (date : Date) :
    (eligibleLegs cands net date).Sublist (eligibleLegs cands' net date) := h.filter _

theorem Payable.unique {sid : String} {net net' : ℤ} {date date' : Date}
    (h : Payable index sid net date) (h' : Payable index sid net' date') : net' = net ∧ date' = date :=
  ⟨Option.some.inj (h'.netIs.symm.trans h.netIs), Option.some.inj (h'.dated.symm.trans h.dated)⟩

theorem amountOfKey_sublist (hnd : (cands'.map BankCreditLine.key).Nodup) (h : cands.Sublist cands')
    {key : String} (hkey : key ∈ keySet cands) : amountOfKey cands key = amountOfKey cands' key := by
  obtain ⟨c, hc, rfl⟩ := mem_keySet.mp hkey
  rw [amountOfKey_mem (hnd.sublist (h.map _)) hc, amountOfKey_mem hnd (h.subset hc)]

/-- A match in the larger pool whose legs are in the smaller one is a match there. -/
theorem IsMatch.shrink (hnd : (cands'.map BankCreditLine.key).Nodup) (h : cands.Sublist cands')
    {sid : String} {K : Finset String} (hK : K ⊆ keySet cands) (hmatch : IsMatch index cands' sid K) :
    IsMatch index cands sid K := by
  obtain ⟨net, date, hpay, hle, hmem⟩ := hmatch
  obtain ⟨hsub, hlo, hhi, htol⟩ := mem_sumSets.mp hmem
  refine ⟨net, date, hpay, (eligibleLegs_sublist h net date).length_le.trans hle, ?_⟩
  refine mem_sumSets.mpr ⟨fun key hkey => ?_, hlo, hhi, ?_⟩
  · obtain ⟨c, hc, hckey⟩ := mem_keySet.mp (hsub hkey)
    obtain ⟨d, hd, hdkey⟩ := mem_keySet.mp (hK hkey)
    have hcd : d = c := line_ext hnd (h.subset hd) (List.mem_filter.mp hc).1 (hdkey.trans hckey.symm)
    exact mem_keySet.mpr ⟨d, List.mem_filter.mpr ⟨hd, hcd ▸ (List.mem_filter.mp hc).2⟩, hdkey⟩
  · rw [Finset.sum_congr rfl fun key hkey => amountOfKey_sublist hnd h (hK hkey)]
    exact htol

theorem sumSets_grow (hnd : (cands'.map BankCreditLine.key).Nodup) (h : cands.Sublist cands')
    {net : ℤ} {date : Date} {K : Finset String}
    (hK : K ∈ sumSets (keySet (eligibleLegs cands net date)) (amountOfKey cands) 2 3 net splitDriftPaise) :
    K ∈ sumSets (keySet (eligibleLegs cands' net date)) (amountOfKey cands') 2 3 net splitDriftPaise := by
  obtain ⟨hsub, hlo, hhi, htol⟩ := mem_sumSets.mp hK
  refine mem_sumSets.mpr ⟨fun key hkey => ?_, hlo, hhi, ?_⟩
  · obtain ⟨c, hc, hckey⟩ := mem_keySet.mp (hsub hkey)
    exact mem_keySet.mpr ⟨c, (eligibleLegs_sublist h net date).subset hc, hckey⟩
  · rw [← Finset.sum_congr rfl fun key hkey => amountOfKey_sublist hnd h (by
      obtain ⟨c, hc, hckey⟩ := mem_keySet.mp (hsub hkey)
      exact mem_keySet.mpr ⟨c, (List.mem_filter.mp hc).1, hckey⟩)]
    exact htol

/-- A match in the smaller pool is a match in the larger one, unless the pool of its settlement has become too
    large and poisons its legs. -/
theorem IsMatch.grow (hnd : (cands'.map BankCreditLine.key).Nodup) (h : cands.Sublist cands')
    {sid : String} {K : Finset String} (hmatch : IsMatch index cands sid K) :
    IsMatch index cands' sid K ∨ ∀ key ∈ K, Poisoned index cands' key := by
  obtain ⟨net, date, hpay, _, hmem⟩ := hmatch
  have hmem' := sumSets_grow hnd h hmem
  by_cases hlarge : splitMaxCandidates < (eligibleLegs cands' net date).length
  · exact Or.inr fun key hkey => ⟨sid, net, date, hpay, hlarge, (mem_sumSets.mp hmem').1 hkey⟩
  · exact Or.inl ⟨net, date, hpay, not_lt.mp hlarge, hmem'⟩

theorem Poisoned.grow (h : cands.Sublist cands') {key : String} (hp : Poisoned index cands key) :
    Poisoned index cands' key := by
  obtain ⟨sid, net, date, hpay, hlarge, hkey⟩ := hp
  obtain ⟨c, hc, hckey⟩ := mem_keySet.mp hkey
  have hsub := eligibleLegs_sublist h net date
  exact ⟨sid, net, date, hpay, hlarge.trans_le hsub.length_le, mem_keySet.mpr ⟨c, hsub.subset hc, hckey⟩⟩

/-- **A lifted group stays lifted when candidates outside it leave the pool.** -/
theorem LiftedGroup.shrink (hnd : (cands'.map BankCreditLine.key).Nodup) (h : cands.Sublist cands')
    {sid : String} {K : Finset String} (hgroup : LiftedGroup U pack index cands' sid K)
    (hK : K ⊆ keySet cands) : LiftedGroup U pack index cands sid K where
  isMatch := hgroup.isMatch.shrink hnd h hK
  sole := by
    -- the settlement's pool was small enough to find `K`, so the larger pool finds `K'` too
    intro K' hK'
    obtain ⟨net, date, hpay, hle, _⟩ := hgroup.isMatch
    obtain ⟨net', date', hpay', _, hmem⟩ := hK'
    obtain ⟨rfl, rfl⟩ := hpay.unique hpay'
    exact hgroup.sole K' ⟨net', date', hpay, hle, sumSets_grow hnd h hmem⟩
  exclusive := by
    intro key hkey sid' K' hK' hkey'
    rcases hK'.grow hnd h with hmatch | hpoisoned
    · exact hgroup.exclusive key hkey sid' K' hmatch hkey'
    · exact absurd (hpoisoned key hkey') (hgroup.enumerable key hkey)
  enumerable := fun key hkey hp => hgroup.enumerable key hkey (hp.grow h)
  strong := by
    obtain ⟨c, hc, hkey, hsig⟩ := hgroup.strong
    obtain ⟨d, hd, hdkey⟩ := mem_keySet.mp (hK hkey)
    have hcd : d = c := line_ext hnd (h.subset hd) hc hdkey
    exact ⟨d, hd, hcd ▸ hkey, hcd ▸ hsig⟩

/-- A candidate that is a leg of a lifted group is a leg of no group that needs others than the pool has. -/
theorem LiftedGroup.grow (hnd : (cands'.map BankCreditLine.key).Nodup) (h : cands.Sublist cands')
    {sid sid' : String} {K K' : Finset String} {key : String}
    (hgroup : LiftedGroup U pack index cands' sid K)
    (hgroup' : LiftedGroup U pack index cands sid' K') (hk : key ∈ K) (hk' : key ∈ K') : K' = K := by
  rcases hgroup'.isMatch.grow hnd h with hmatch | hpoisoned
  · exact (hgroup.exclusive key hk sid' K' hmatch hk').2
  · exact absurd (hpoisoned key hk') (hgroup.enumerable key hk)

end Shrink

/-! ## All lines -/

section Gate

variable {U : Unicode} {s : Settings} {index : ReconIndex} {lines : List BankCreditLine} {t₁ t₂ : ℚ}

theorem OnlyDemoted.of_isUnknown {a a' : RailAttribution} (h : IsRazorpay a ∨ IsUnknown a)
    (h' : IsUnknown a') : OnlyDemoted a a' := by
  rcases h with h | h
  · exact Or.inr ⟨h, h'⟩
  · exact Or.inl ⟨h'.1.trans h.1.symm, h'.2.trans h.2.symm⟩

theorem OnlyDemoted.of_isRazorpay {a a' : RailAttribution} (h : IsRazorpay a) (h' : IsRazorpay a') :
    OnlyDemoted a a' := Or.inl ⟨h'.1.trans h.1.symm, h'.2.trans h.2.symm⟩

theorem not_isRazorpay_of_abstained {a : RailAttribution} (h : a.abstained = true) : ¬ IsRazorpay a :=
  fun hrzp => absurd (h.symm.trans hrzp.2) (by simp)

theorem IsLifted.verdict (hnd : (lines.map BankCreditLine.key).Nodup) {line : BankCreditLine}
    (h : IsLifted U s index lines line) (hline : line ∈ lines) :
    IsRazorpay (verdictOf U s index lines line) ∨ IsUnknown (verdictOf U s index lines line) := by
  rcases le_or_gt s.marginThreshold splitConfidence with hmargin | hmargin
  · exact Or.inl (h.isRazorpay hnd hline hmargin)
  · exact Or.inr (h.isUnknown hnd hline hmargin)

/-- A group lifted at the larger margin has a leg demoted in between and a leg that abstained before. -/
def MixedGroup (U : Unicode) (s : Settings) (index : ReconIndex) (lines : List BankCreditLine)
    (t₁ t₂ : ℚ) (sid : String) (K : Finset String) : Prop :=
  LiftedGroup U s.pack index (splitCandidates U (s.atMargin t₂) index lines) sid K ∧
    (∃ line ∈ lines, line.key ∈ K ∧ DemotedBetween U s index t₁ t₂ line) ∧
    ∃ line ∈ lines, line.key ∈ K ∧ ¬ DemotedBetween U s index t₁ t₂ line

/-- The leg that abstained before is Razorpay now. -/
theorem MixedGroup.creates (hnd : (lines.map BankCreditLine.key).Nodup) (h : t₁ ≤ t₂)
    (hon : s.threshold ≤ splitConfidence) (hmargin : t₂ ≤ splitConfidence) {sid : String}
    {K : Finset String} (hmixed : MixedGroup U s index lines t₁ t₂ sid K) :
    ∃ line ∈ lines, IsRazorpay (verdictOf U (s.atMargin t₂) index lines line) ∧
      ¬ IsRazorpay (verdictOf U (s.atMargin t₁) index lines line) := by
  obtain ⟨hgroup, ⟨demoted, hdemoted, hdkey, hbetween⟩, line, hline, hkey, hnot⟩ := hmixed
  have hcand := hgroup.mem hnd hline hkey
  refine ⟨line, hline, IsLifted.isRazorpay hnd ⟨hon, sid, K, hgroup, hkey⟩ hline hmargin, ?_⟩
  have habs : (lineVerdict U (s.atMargin t₁) index line).abstained = true := by
    rcases lineVerdict_margin U s index h line with hb | hsame
    · exact absurd hb.1 hnot
    · exact hsame.2.2.symm.trans (mem_splitCandidates.mp hcand).2.1
  have hnotLifted : ¬ IsLifted U (s.atMargin t₁) index lines line := by
    intro hlifted
    obtain ⟨_, sid', K', hgroup', hkey'⟩ := hlifted
    -- at the smaller margin the group would need the demoted leg, which had a verdict then
    obtain rfl := hgroup.grow (nodup_splitCandidates hnd) (splitCandidates_margin h) hgroup' hkey hkey'
    have hold := (mem_splitCandidates.mp (hgroup'.mem hnd hdemoted hdkey)).2.1
    rcases lineVerdict_margin U s index h demoted with hb | hsame
    · exact not_isRazorpay_of_abstained hold hb.2.1
    · exact hsame.1 hbetween
  rw [verdictOf_of_not_lifted hnd hnotLifted]
  exact not_isRazorpay_of_abstained habs

/-- Without a mixed group, a line lifted at the larger margin is Razorpay at both. -/
theorem isRazorpay_of_lifted (hnd : (lines.map BankCreditLine.key).Nodup) (h : t₁ ≤ t₂)
    (hmargin : t₂ ≤ splitConfidence)
    (hnone : ∀ sid K, ¬ MixedGroup U s index lines t₁ t₂ sid K) {line : BankCreditLine}
    (hline : line ∈ lines) (hlifted : IsLifted U (s.atMargin t₂) index lines line) :
    IsRazorpay (verdictOf U (s.atMargin t₁) index lines line) := by
  obtain ⟨hon, sid, K, hgroup, hkey⟩ := hlifted
  rcases lineVerdict_margin U s index h line with hb | hsame
  · -- demoted in between: it had its own verdict
    have hnotLifted : ¬ IsLifted U (s.atMargin t₁) index lines line := fun hl =>
      not_isRazorpay_of_abstained (mem_splitCandidates.mp (hl.mem hnd hline)).2.1 hb.2.1
    rw [verdictOf_of_not_lifted hnd hnotLifted]
    exact hb.2.1
  · -- abstaining at both: so do all legs, and the group is lifted from the smaller pool too
    have hK : K ⊆ keySet (splitCandidates U (s.atMargin t₁) index lines) := by
      intro key hkey'
      obtain ⟨leg, hleg, rfl⟩ := mem_keySet.mp (hgroup.isMatch.legs.1 hkey')
      obtain ⟨hmem, habs, hcould⟩ := mem_splitCandidates.mp hleg
      have hnot : ¬ DemotedBetween U s index t₁ t₂ leg := fun hbetween =>
        hnone sid K ⟨hgroup, ⟨leg, hmem, hkey', hbetween⟩, line, hline, hkey, hsame.1⟩
      rcases lineVerdict_margin U s index h leg with hb | hsame'
      · exact absurd hb.1 hnot
      · exact mem_keySet.mpr ⟨leg, mem_splitCandidates.mpr ⟨hmem, hsame'.2.2.symm.trans habs, hcould⟩, rfl⟩
    exact IsLifted.isRazorpay hnd
      ⟨hon, sid, K, hgroup.shrink (nodup_splitCandidates hnd) (splitCandidates_margin h) hK, hkey⟩
      hline (h.trans hmargin)

theorem onlyDemoted_of_none (hnd : (lines.map BankCreditLine.key).Nodup) (h : t₁ ≤ t₂)
    (hnone : s.threshold ≤ splitConfidence → t₂ ≤ splitConfidence →
      ∀ sid K, ¬ MixedGroup U s index lines t₁ t₂ sid K)
    {line : BankCreditLine} (hline : line ∈ lines) :
    OnlyDemoted (verdictOf U (s.atMargin t₁) index lines line)
      (verdictOf U (s.atMargin t₂) index lines line) := by
  have hmargin := lineVerdict_margin U s index h line
  by_cases h₂ : IsLifted U (s.atMargin t₂) index lines line
  · rcases le_or_gt t₂ splitConfidence with ht | ht
    · exact OnlyDemoted.of_isRazorpay
        (isRazorpay_of_lifted hnd h ht (hnone h₂.1 ht) hline h₂) (h₂.isRazorpay hnd hline ht)
    · refine OnlyDemoted.of_isUnknown ?_ (h₂.isUnknown hnd hline ht)
      by_cases h₁ : IsLifted U (s.atMargin t₁) index lines line
      · exact h₁.verdict hnd hline
      · rw [verdictOf_of_not_lifted hnd h₁]
        rcases hmargin with hb | hsame
        · exact Or.inl hb.2.1
        · have habs := (mem_splitCandidates.mp (h₂.mem hnd hline)).2.1
          exact Or.inr (lineVerdict_isUnknown (hsame.2.2.symm.trans habs))
  · rw [verdictOf_of_not_lifted hnd h₂]
    by_cases h₁ : IsLifted U (s.atMargin t₁) index lines line
    · have hcand := (splitCandidates_margin h).subset (h₁.mem hnd hline)
      exact OnlyDemoted.of_isUnknown (h₁.verdict hnd hline)
        (lineVerdict_isUnknown (mem_splitCandidates.mp hcand).2.1)
    · rw [verdictOf_of_not_lifted hnd h₁]
      rcases hmargin with hb | hsame
      · exact Or.inr hb.2
      · exact Or.inl hsame.2

/-- **Raising the margin only demotes Razorpay verdicts iff no lifted group is mixed** (or the reconstruction's
    own confidence does not clear the threshold or the margin). -/
theorem gate_monotone_iff (U : Unicode) (s : Settings) (index : ReconIndex)
    (lines : List BankCreditLine) (hnd : (lines.map BankCreditLine.key).Nodup) (t₁ t₂ : ℚ)
    (h : t₁ ≤ t₂) :
    ∃ out₁ out₂, attributeAll U (s.atMargin t₁) index lines = .ok out₁ ∧
      attributeAll U (s.atMargin t₂) index lines = .ok out₂ ∧
      (List.Forall₂ OnlyDemoted out₁ out₂ ↔
        (s.threshold ≤ splitConfidence → t₂ ≤ splitConfidence →
          ∀ sid K, ¬ MixedGroup U s index lines t₁ t₂ sid K)) := by
  refine ⟨_, _, attributeAll_eq U _ index lines, attributeAll_eq U _ index lines, ?_⟩
  rw [List.forall₂_map_left_iff, List.forall₂_map_right_iff, List.forall₂_same]
  constructor
  · intro hdemoted hon hmargin sid K hmixed
    obtain ⟨line, hline, hafter, hbefore⟩ := hmixed.creates hnd h hon hmargin
    exact hbefore ((hdemoted line hline).isRazorpay hafter)
  · intro hnone line hline
    exact onlyDemoted_of_none hnd h hnone hline

/-- Two credits that together are the net of `S1`; the first alone is also the net of `S2`. -/
def marginLines : List BankCreditLine :=
  [creditLine "a" "NEFT RATN0000088" 70000, creditLine "b" "NEFT RATN0000088" 50000]

def marginReport : List ReconRow :=
  [settledRow "pay_1" "S1" none 120000, settledRow "pay_2" "S2" none 70000]

/-- The pipeline's defaults: threshold 0.55, the built-in pack. -/
def marginSettings : Settings := ⟨11 / 20, 0, false, defaultNarrationPack⟩

/-- The equivalence on the two credits, between margin 0 and margin one half. -/
theorem gate_monotone_iff_pair :
    ∃ out₁ out₂,
      attributeAll asciiUnicode (marginSettings.atMargin 0) (ReconIndex.ofRows asciiUnicode marginReport)
        marginLines = .ok out₁ ∧
      attributeAll asciiUnicode (marginSettings.atMargin (1 / 2))
        (ReconIndex.ofRows asciiUnicode marginReport) marginLines = .ok out₂ ∧
      (List.Forall₂ OnlyDemoted out₁ out₂ ↔
        (marginSettings.threshold ≤ splitConfidence → (1 / 2 : ℚ) ≤ splitConfidence →
          ∀ sid K, ¬ MixedGroup asciiUnicode marginSettings (ReconIndex.ofRows asciiUnicode marginReport)
            marginLines 0 (1 / 2) sid K)) :=
  gate_monotone_iff asciiUnicode marginSettings (ReconIndex.ofRows asciiUnicode marginReport) marginLines
    (by decide) 0 (1 / 2) (by norm_num)

/-- **A larger margin creates a verdict**: at margin one half the first credit loses its amount tie, joins the
    pool, and the second credit, UNKNOWN at margin 0, is lifted with it. -/
theorem raising_margin_creates_verdict :
    (attributeAll asciiUnicode (marginSettings.atMargin 0) (ReconIndex.ofRows asciiUnicode marginReport)
        marginLines).map (fun out => out.map fun a => (a.lineKey, a.rail, a.abstained)) =
        .ok [("a", "razorpay_settlement", false), ("b", "UNKNOWN", true)] ∧
      (attributeAll asciiUnicode (marginSettings.atMargin (1 / 2))
        (ReconIndex.ofRows asciiUnicode marginReport) marginLines).map
          (fun out => out.map fun a => (a.lineKey, a.rail, a.abstained)) =
        .ok [("a", "razorpay_settlement", false), ("b", "razorpay_settlement", false)] := by
  constructor
  · decide +kernel
  · decide +kernel

end Gate

end Untangle
