import Mathlib.Algebra.BigOperators.Ring.Finset
import Mathlib.Algebra.Order.BigOperators.GroupWithZero.Finset
import Mathlib.Data.List.Perm.Subperm
import Untangle.Correctness.Attribute.ProofGate

/-!
# `Correctness.Attribute.Combination` — the score grows with the evidence

The score of a list of signals is one minus the product of what each channel leaves open. A channel weighs its strongest
signal and a tenth of every weaker one, so it loses weight with every signal that goes, and so does the score
(`combine_subperm`). An ablation of the challenger takes signals away from the evidence it challenges: it never scores
more than the candidate, and only a competing rail can make a margin negative (`challenge_fair`).
-/

namespace Untangle

open Lib

/-! ## One channel -/

/-- Weights that no channel cap cuts. -/
def CapFree (ws : List ℚ) : Prop := ∀ w ∈ ws, 0 ≤ w ∧ w ≤ 19 / 20

theorem CapFree.isUnit01 {ws : List ℚ} (h : CapFree ws) : ∀ w ∈ ws, IsUnit01 w :=
  fun w hw => ⟨(h w hw).1, (h w hw).2.trans (by norm_num)⟩

theorem max?_getD_mem {ws : List ℚ} (h : ws ≠ []) : ws.max?.getD 0 ∈ ws := by
  cases hm : ws.max? with
  | none => exact absurd (List.max?_eq_none_iff.mp hm) h
  | some m => exact (List.max?_eq_some_iff.mp hm).1

/-- What the weights of a channel besides `m` add to it. -/
def boost (m : ℚ) (ws : List ℚ) : ℚ := ((ws.filter fun w => w ≠ m).map fun w => w * (1 / 10)).sum

theorem boost_subperm {m : ℚ} {ws ws' : List ℚ} (hws : CapFree ws) (h : ws'.Subperm ws) : boost m ws' ≤ boost m ws := by
  obtain ⟨l, hperm, hsub⟩ := h
  have hsum : boost m ws' = boost m l := ((hperm.filter _).map _).sum_eq.symm
  rw [hsum]
  apply List.Sublist.sum_le_sum ((hsub.filter _).map _)
  intro x hx
  obtain ⟨w, hw, rfl⟩ := List.mem_map.mp hx
  have hpos := (hws w (List.mem_filter.mp hw).1).1
  positivity

/-- A channel without its strongest signals loses more than it gains. -/
theorem boost_le_of_lt {m m' : ℚ} {ws : List ℚ} (hws : CapFree ws) (h : ∀ w ∈ ws, w ≠ m) :
    boost m' ws ≤ boost m ws := by
  have hall : ws.filter (fun w => w ≠ m) = ws := List.filter_eq_self.mpr fun w hw => by simpa using h w hw
  unfold boost
  rw [hall]
  apply List.Sublist.sum_le_sum (List.filter_sublist.map _)
  intro x hx
  obtain ⟨w, hw, rfl⟩ := List.mem_map.mp hx
  have hpos := (hws w hw).1
  positivity

theorem channelWeight_of_length {ws : List ℚ} (h : ws.length ≠ 1) :
    channelWeight ws = min (49 / 50) (ws.max?.getD 0 + boost (ws.max?.getD 0) ws) := by
  unfold channelWeight
  split
  · exact absurd rfl h
  · rfl

/-- **A channel weighs no more when signals go.** -/
theorem channelWeight_subperm {ws ws' : List ℚ} (hws : CapFree ws) (h : ws'.Subperm ws) (hne : ws' ≠ []) :
    channelWeight ws' ≤ channelWeight ws := by
  have hmem : ws'.max?.getD 0 ∈ ws := h.subset (max?_getD_mem hne)
  have hws' : CapFree ws' := fun w hw => hws w (h.subset hw)
  by_cases hone : ws'.length = 1
  · obtain ⟨w, rfl⟩ := List.length_eq_one_iff.mp hone
    have hle := le_channelWeight hws.isUnit01 (h.subset (List.mem_singleton_self w))
    rw [min_eq_right ((hws' w (List.mem_singleton_self w)).2.trans (by norm_num))] at hle
    exact hle
  · have htwo : ws.length ≠ 1 := by
      have hlength := h.length_le
      have hpos := List.length_pos_of_ne_nil hne
      omega
    rw [channelWeight_of_length hone, channelWeight_of_length htwo]
    apply min_le_min_left
    have hmax := le_max?_getD hmem
    by_cases hsame : ws'.max?.getD 0 = ws.max?.getD 0
    · rw [hsame]
      have hboost : boost (ws.max?.getD 0) ws' ≤ boost (ws.max?.getD 0) ws := boost_subperm hws h
      linarith
    · -- the strongest signals are gone, and the others were counted already
      have hlt := lt_of_le_of_ne hmax hsame
      have hbelow : ∀ w ∈ ws', w ≠ ws.max?.getD 0 := by
        rintro w hw rfl
        exact absurd (le_max?_getD hw) (not_le.mpr hlt)
      have hgone : boost (ws'.max?.getD 0) ws' ≤ boost (ws.max?.getD 0) ws' := boost_le_of_lt hws' hbelow
      have hboost := hgone.trans (boost_subperm hws h)
      linarith

/-! ## All channels -/

/-- Evidence as every emitter weighs it. -/
def Weighted (items : List EvidenceItem) : Prop := ∀ it ∈ items, 0 ≤ it.weight ∧ it.weight ≤ 19 / 20

theorem Weighted.append {items items' : List EvidenceItem} (h : Weighted items) (h' : Weighted items') :
    Weighted (items ++ items') := by
  intro it hit
  exact (List.mem_append.mp hit).elim (h it) (h' it)

/-- The weights of the signals of a channel. -/
def weightsOf (items : List EvidenceItem) (channel : String) : List ℚ :=
  (items.filter fun it => channelOf it.signal = channel).map fun it => clip it.weight

/-- The channels that the evidence has signals of. -/
def channelsOf (items : List EvidenceItem) : Finset String := (items.map fun it => channelOf it.signal).toFinset

theorem weightsOf_subperm {items items' : List EvidenceItem} (h : items'.Subperm items) (channel : String) :
    (weightsOf items' channel).Subperm (weightsOf items channel) := by
  obtain ⟨l, hperm, hsub⟩ := h
  exact ⟨weightsOf l channel, (hperm.filter _).map _, (hsub.filter _).map _⟩

theorem Weighted.capFree {items : List EvidenceItem} (h : Weighted items) (channel : String) :
    CapFree (weightsOf items channel) := by
  intro w hw
  obtain ⟨it, hit, rfl⟩ := List.mem_map.mp hw
  obtain ⟨h0, h1⟩ := h it (List.mem_filter.mp hit).1
  rw [clip_of_mem h0 (h1.trans (by norm_num))]
  exact ⟨h0, h1⟩

theorem weightsOf_ne_nil {items : List EvidenceItem} {channel : String} (h : channel ∈ channelsOf items) :
    weightsOf items channel ≠ [] := by
  obtain ⟨it, hit, rfl⟩ := List.mem_map.mp (List.mem_toFinset.mp h)
  apply List.ne_nil_of_mem (a := clip it.weight)
  exact List.mem_map.mpr ⟨it, List.mem_filter.mpr ⟨hit, by simp⟩, rfl⟩

/-- The score, channel by channel. -/
theorem combine_eq_prod {items : List EvidenceItem} (h : items ≠ []) :
    combine items = min (99 / 100) (1 - ∏ channel ∈ channelsOf items, (1 - channelWeight (weightsOf items channel))) := by
  have hkeys : (weightsByChannel items).keys.toFinset = channelsOf items := by
    ext channel
    rw [List.mem_toFinset]
    unfold weightsByChannel channelsOf
    rw [Dict.mem_keys_gather, List.mem_toFinset, List.mem_map]
    simp
  have hprod : ((weightsByChannel items).items.map fun p => 1 - channelWeight p.2).prod =
      ((weightsByChannel items).keys.map fun channel => 1 - channelWeight (weightsOf items channel)).prod := by
    unfold Dict.keys
    rw [List.map_map]
    congr 1
    apply List.map_congr_left
    intro p hp
    rw [mem_weightsByChannel hp]
    rfl
  unfold combine
  rw [if_neg h, hprod, ← hkeys, List.prod_toFinset _ (weightsByChannel items).nodup_keys]

/-- **The score does not grow when signals go**, in whatever order they are. -/
theorem combine_subperm {items items' : List EvidenceItem} (hitems : Weighted items) (h : items'.Subperm items) :
    combine items' ≤ combine items := by
  by_cases hnil : items' = []
  · rw [hnil]
    exact combine_nonneg items
  · have hne : items ≠ [] := by
      rintro rfl
      exact hnil (List.subperm_nil.mp h)
    have hsub : channelsOf items' ⊆ channelsOf items := by
      intro channel hchannel
      obtain ⟨it, hit, rfl⟩ := List.mem_map.mp (List.mem_toFinset.mp hchannel)
      exact List.mem_toFinset.mpr (List.mem_map_of_mem (h.subset hit))
    have hunit : ∀ channel, IsUnit01 (channelWeight (weightsOf items channel)) :=
      fun channel => channelWeight_isUnit01 (hitems.capFree channel).isUnit01
    rw [combine_eq_prod hnil, combine_eq_prod hne]
    apply min_le_min_left
    apply sub_le_sub_left
    calc ∏ channel ∈ channelsOf items, (1 - channelWeight (weightsOf items channel))
        ≤ ∏ channel ∈ channelsOf items', (1 - channelWeight (weightsOf items channel)) := by
          apply Finset.prod_le_prod_of_subset_of_le_one hsub
          · intro channel _
            exact sub_nonneg.mpr (hunit channel).2
          · intro channel _ _
            exact sub_le_self 1 (hunit channel).1
      _ ≤ ∏ channel ∈ channelsOf items', (1 - channelWeight (weightsOf items' channel)) := by
          apply Finset.prod_le_prod
          · intro channel _
            exact sub_nonneg.mpr (hunit channel).2
          · intro channel hchannel
            apply sub_le_sub_left
            exact channelWeight_subperm (hitems.capFree channel) (weightsOf_subperm h channel) (weightsOf_ne_nil hchannel)

theorem combine_perm {items items' : List EvidenceItem} (hitems : Weighted items) (h : items.Perm items') :
    combine items = combine items' := by
  have hitems' : Weighted items' := fun it hit => hitems it (h.mem_iff.mpr hit)
  exact le_antisymm (combine_subperm hitems' h.subperm) (combine_subperm hitems h.symm.subperm)

/-! ## The challenger -/

section Challenger

variable {evidence : List EvidenceItem} {nonRzp : Dict Rail (List EvidenceItem)}

/-- What the challenger finds against a candidate with a score. -/
structure FairChallenge (evidence : List EvidenceItem) (nonRzp : Dict Rail (List EvidenceItem)) (score : ℚ) : Prop where
  /-- An ablation scores at most the candidate. -/
  ablations : ∀ c ∈ (challenge evidence nonRzp score).challenges, c.operator ≠ "observed_competing_rail" → c.score ≤ score
  /-- Only a competing rail outscores it. -/
  margin : (challenge evidence nonRzp score).proofMargin < 0 →
    ∃ p ∈ nonRzp.items, p.1 ≠ .razorpaySettlement ∧ p.2 ≠ [] ∧ score < combine p.2

/-- A challenge is one of those raised: a competing rail, or the evidence without some signals. -/
theorem mem_challenges {score : ℚ} {c : CompetingExplanation} (h : c ∈ (challenge evidence nonRzp score).challenges) :
    (∃ p ∈ nonRzp.items, p.1 ≠ .razorpaySettlement ∧ p.2 ≠ [] ∧ c.operator = "observed_competing_rail" ∧
        c.score = combine p.2) ∨
      ∃ drop, c.score = combine (without evidence drop) := by
  have hraw : c ∈ rawChallenges evidence nonRzp combine := by
    unfold challenge challengeRazorpay at h
    dsimp only at h
    have hsorted : c ∈ (rawChallenges evidence nonRzp combine).insertionSort fun c c' => c.sortKey ≤ c'.sortKey := by
      split at h
      · exact List.mem_of_mem_take h
      · exact h
    exact (List.mem_insertionSort _).mp hsorted
  unfold rawChallenges at hraw
  rcases List.mem_append.mp hraw with hrail | hablation
  · obtain ⟨p, hp, rfl⟩ := List.mem_map.mp hrail
    obtain ⟨hmem, hkeep⟩ := List.mem_filter.mp hp
    obtain ⟨hother, hsome⟩ := of_decide_eq_true hkeep
    exact Or.inl ⟨p, hmem, hother, hsome, rfl, rfl⟩
  · obtain ⟨a, _, ha⟩ := List.mem_filterMap.mp hablation
    unfold ablation at ha
    dsimp only at ha
    split at ha
    · cases ha
    · exact Or.inr ⟨a.2.1, by rw [← Option.some.inj ha]⟩

theorem without_sublist (drop : List String) : (without evidence drop).Sublist evidence := List.filter_sublist

/-- **No ablation outscores the candidate.** -/
theorem challenge_fair (hevidence : Weighted evidence) : FairChallenge evidence nonRzp (combine evidence) where
  ablations := by
    intro c hc hoperator
    rcases mem_challenges hc with ⟨p, _, _, _, hobserved, _⟩ | ⟨drop, hscore⟩
    · exact absurd hobserved hoperator
    · rw [hscore]
      exact combine_subperm hevidence (without_sublist drop).subperm
  margin := by
    intro hnegative
    have hcompeting : combine evidence <
        (((challenge evidence nonRzp (combine evidence)).challenges.map CompetingExplanation.score).max?).getD 0 :=
      sub_neg.mp hnegative
    cases hmax : ((challenge evidence nonRzp (combine evidence)).challenges.map CompetingExplanation.score).max? with
    | none =>
        rw [hmax] at hcompeting
        exact absurd hcompeting (not_lt.mpr (combine_nonneg evidence))
    | some m =>
        rw [hmax, Option.getD_some] at hcompeting
        obtain ⟨c, hc, rfl⟩ := List.mem_map.mp (List.max?_eq_some_iff.mp hmax).1
        rcases mem_challenges hc with ⟨p, hp, hother, hsome, _, hscore⟩ | ⟨drop, hscore⟩
        · exact ⟨p, hp, hother, hsome, hscore ▸ hcompeting⟩
        · rw [hscore] at hcompeting
          exact absurd hcompeting (not_lt.mpr (combine_subperm hevidence (without_sublist drop).subperm))

end Challenger

/-! ## The evidence of a line -/

section Emitters

variable {U : Unicode} {s : Settings} {pack : NarrationEvidencePack} {index : ReconIndex}
  {lines : List BankCreditLine} {line : BankCreditLine}

/-- A weight that an emitter may give. -/
def IsWeight (w : ℚ) : Prop := 0 ≤ w ∧ w ≤ 19 / 20

/-- A pack whose weights are those an emitter may give. -/
structure PackWeighted (pack : NarrationEvidencePack) : Prop where
  nonRzpPattern : IsWeight pack.nonRzpPatternWeight
  rzpBrandContext : IsWeight pack.rzpBrandContextWeight
  rzpBrandWeak : IsWeight pack.rzpBrandWeakWeight
  rzpIfsc : IsWeight pack.rzpIfscWeight
  settlementRef : IsWeight pack.settlementRefWeight

theorem packWeighted_default : PackWeighted defaultNarrationPack := by
  constructor <;> norm_num [IsWeight, defaultNarrationPack]

theorem weighted_singleton {it : EvidenceItem} (h : IsWeight it.weight) : Weighted [it] := by
  intro it' hit
  rw [List.mem_singleton.mp hit]
  exact h

theorem weighted_utrSignals : Weighted (utrSignals U index line) := by
  intro it hit
  rcases mem_utrSignals hit with ⟨t, _, rfl⟩ | ⟨_, tie, _, rfl⟩
  · norm_num
  · cases tie <;> norm_num [SuffixTie.item]

theorem weighted_amountSignals : Weighted (amountSignals index line) := by
  intro it hit
  unfold amountSignals at hit
  split at hit
  · exact absurd hit List.not_mem_nil
  · rcases List.mem_cons.mp hit with rfl | hit
    · dsimp only
      split <;> norm_num
    · split at hit
      · rw [List.mem_singleton.mp hit]
        norm_num
      · exact absurd hit List.not_mem_nil

theorem weighted_rzpNarration (hpack : PackWeighted pack) (hasTokens matchedExactUtr : Bool) :
    Weighted (pack.evaluateRzpNarrationSignals U line hasTokens matchedExactUtr) := by
  have hnone : Weighted [] := fun _ hit => absurd hit List.not_mem_nil
  unfold NarrationEvidencePack.evaluateRzpNarrationSignals
  dsimp only
  split
  · exact hnone
  · refine Weighted.append (Weighted.append ?_ ?_) ?_
    · split
      · exact weighted_singleton hpack.rzpBrandContext
      · split
        · exact weighted_singleton hpack.rzpBrandWeak
        · exact hnone
    · split
      · exact weighted_singleton hpack.rzpIfsc
      · exact hnone
    · split
      · exact weighted_singleton hpack.settlementRef
      · exact hnone

theorem weighted_razorpaySignals (hpack : PackWeighted pack) : Weighted (razorpaySignals U pack index line) :=
  (weighted_utrSignals.append weighted_amountSignals).append (weighted_rzpNarration hpack _ _)

/-- Whatever a Razorpay verdict rests on is weighted so. -/
theorem RazorpayOrigin.weighted (hpack : PackWeighted pack) {evidence : List EvidenceItem}
    (h : RazorpayOrigin U pack index line evidence) : Weighted evidence := by
  cases h with
  | keyword hp _ =>
      obtain ⟨_, detail, hitem⟩ := evidence_of_keyword hp
      rw [hitem]
      exact weighted_singleton hpack.nonRzpPattern
  | tied _ _ => exact weighted_razorpaySignals hpack
  | joined _ _ sids _ =>
      apply (weighted_razorpaySignals hpack).append (weighted_singleton _)
      norm_num [IsWeight, setsumItem]

/-! ## The score of a candidate -/

theorem mem_nonRzpScores {nonRzp : Dict Rail (List EvidenceItem)} {best : RailScore} (h : best ∈ nonRzpScores nonRzp) :
    best.score = combine best.evidence := by
  obtain ⟨p, _, rfl⟩ := List.mem_map.mp h
  rfl

theorem mem_putScore_or {scores : List RailScore} {new best : RailScore} (h : best ∈ putScore scores new) :
    best = new ∨ best ∈ scores := by
  unfold putScore at h
  split at h
  · obtain ⟨old, hmem, hold⟩ := List.mem_map.mp h
    split at hold
    · exact Or.inl hold.symm
    · exact Or.inr (hold ▸ hmem)
  · exact (List.mem_append.mp h).symm.imp_left List.mem_singleton.mp

theorem gatedRzpScore_pos {rzpEv : List EvidenceItem} {competing rzpHard : Bool}
    (h : 0 < gatedRzpScore rzpEv competing rzpHard) : gatedRzpScore rzpEv competing rzpHard = combine rzpEv := by
  unfold gatedRzpScore at h ⊢
  split
  · rename_i hguard
    rw [if_pos hguard] at h
    exact absurd h (lt_irrefl 0)
  · rename_i hguard
    rw [if_neg hguard] at h
    split
    · rename_i hgate
      rw [if_pos hgate] at h
      exact absurd h (lt_irrefl 0)
    · rfl

/-- A rail's score is that of its evidence. -/
theorem score_of_mem_railScores {rzpEv : List EvidenceItem} {nonRzp : Dict Rail (List EvidenceItem)} {rzpHard joined : Bool}
    {best : RailScore} (h : best ∈ railScores rzpEv nonRzp rzpHard joined) : best.score = combine best.evidence := by
  unfold railScores at h
  dsimp only at h
  split at h
  · rename_i hpos
    rcases mem_putScore_or h with rfl | hmem
    · exact gatedRzpScore_pos hpos
    · exact mem_nonRzpScores hmem
  · exact mem_nonRzpScores h

theorem railDecision_score {threshold score : ℚ} {rzpEv evidence : List EvidenceItem}
    {nonRzp : Dict Rail (List EvidenceItem)} {rzpHard joined : Bool} {tier : Tier}
    (h : railDecision threshold line rzpEv nonRzp rzpHard joined = .candidate evidence score tier) :
    score = combine evidence := by
  obtain ⟨_, best, hbest, _, rfl, rfl, _⟩ := railDecision_candidate h
  exact score_of_mem_railScores (List.argmax_mem hbest)

/-- A candidate verdict is scored by its evidence. -/
theorem lineDecision_score {threshold score : ℚ} {evidence : List EvidenceItem} {tier : Tier}
    (h : lineDecision U threshold pack index line = .candidate evidence score tier) : score = combine evidence := by
  unfold lineDecision at h
  split at h
  · unfold creditDecision at h
    split at h
    · obtain ⟨rfl, rfl, _⟩ := Decision.candidate.inj h
      rfl
    · split at h
      · exact railDecision_score h
      · split at h
        · exact absurd h (by simp)
        · exact railDecision_score h
  · exact absurd h (by simp)

/-! ## The verdict of a line -/

/-- The margin on a verdict is that of a fair challenge to the evidence it rests on. -/
def FairlyChallenged (U : Unicode) (pack : NarrationEvidencePack) (line : BankCreditLine) (a : RailAttribution) : Prop :=
  ∀ margin, a.proofMargin = some margin → ∃ evidence, evidence <+: a.evidence ∧
    margin = (challenge evidence (narrationRailSignals U pack line) a.confidence).proofMargin ∧
    FairChallenge evidence (narrationRailSignals U pack line) a.confidence

theorem finalizeRazorpay_challenged {evidence : List EvidenceItem} {tier : Tier} (hevidence : Weighted evidence) :
    FairlyChallenged U pack line
      (finalizeRazorpay s line evidence (narrationRailSignals U pack line) (combine evidence) tier) := by
  intro margin hmargin
  have hfair : FairChallenge evidence (narrationRailSignals U pack line) (combine evidence) :=
    challenge_fair hevidence
  unfold finalizeRazorpay at hmargin ⊢
  dsimp only at hmargin ⊢
  split at hmargin
  · rename_i hzero
    rw [if_pos hzero]
    split at hmargin
    · rename_i haudit
      rw [if_pos haudit]
      exact ⟨evidence, List.prefix_rfl, (Option.some.inj hmargin).symm, hfair⟩
    · exact absurd hmargin (by simp)
  · rename_i hzero
    rw [if_neg hzero]
    split at hmargin
    · rename_i hlow
      rw [if_pos hlow]
      exact ⟨evidence, List.prefix_append _ _, (Option.some.inj hmargin).symm, hfair⟩
    · rename_i hlow
      rw [if_neg hlow]
      exact ⟨evidence, List.prefix_rfl, (Option.some.inj hmargin).symm, hfair⟩

theorem railDecision_unchallenged {threshold : ℚ} {rzpEv : List EvidenceItem}
    {nonRzp : Dict Rail (List EvidenceItem)} {rzpHard joined : Bool} {a : RailAttribution}
    (h : railDecision threshold line rzpEv nonRzp rzpHard joined = .settled a) : a.proofMargin = none := by
  unfold railDecision at h
  split at h
  · rw [← Decision.settled.inj h]
    rfl
  · split at h
    · rw [← Decision.settled.inj h]
      rfl
    · split at h
      · exact absurd h (by simp)
      · rw [← Decision.settled.inj h]

/-- What is settled before the challenger is asked has no margin. -/
theorem lineDecision_unchallenged {threshold : ℚ} {a : RailAttribution}
    (h : lineDecision U threshold pack index line = .settled a) : a.proofMargin = none := by
  unfold lineDecision at h
  split at h
  · unfold creditDecision at h
    split at h
    · exact absurd h (by simp)
    · split at h
      · exact railDecision_unchallenged h
      · split at h
        · rw [← Decision.settled.inj h]
          rfl
        · exact railDecision_unchallenged h
  · rw [← Decision.settled.inj h]
    unfold attributeDebit
    split
    · rfl
    · split <;> rfl

theorem lineVerdict_challenged (hpack : PackWeighted s.pack) :
    FairlyChallenged U s.pack line (lineVerdict U s index line) := by
  unfold lineVerdict
  cases hd : lineDecision U s.threshold s.pack index line with
  | settled a =>
      intro margin hmargin
      have hnone : a.proofMargin = some margin := hmargin
      rw [lineDecision_unchallenged hd] at hnone
      exact absurd hnone (by simp)
  | candidate evidence score tier =>
      have hcredit := (lineDecision_candidate hd).1
      rw [lineDecision_score hd]
      unfold lineDecision at hd
      rw [if_pos hcredit] at hd
      exact finalizeRazorpay_challenged ((creditDecision_origin hcredit hd).weighted hpack)

theorem combine_splitItem (sid : String) (legs : Nat) (residual : ℤ) :
    combine [splitItem sid legs residual] = splitConfidence := by
  rw [combine_singleton]
  show min (99 / 100) (clip (9 / 10)) = 9 / 10
  rw [clip_of_mem (by norm_num) (by norm_num)]
  norm_num

theorem verdictOf_challenged (hpack : PackWeighted s.pack) :
    FairlyChallenged U s.pack line (verdictOf U s index lines line) := by
  rcases verdictOf_cases U s index lines line with hown | ⟨_, sid, legs, residual, _, hlift⟩
  · rw [hown]
    exact lineVerdict_challenged hpack
  · rw [hlift, ← combine_splitItem sid legs residual]
    apply finalizeRazorpay_challenged (weighted_singleton _)
    norm_num [IsWeight, splitItem, splitConfidence]

/-- **The score grows with the evidence**, and so no ablation of a candidate outscores it, on a line of its own or in
    the whole statement. -/
theorem combination_monotone (U : Unicode) (s : Settings) (hpack : PackWeighted s.pack) :
    (∀ items items', Weighted items → items.Perm items' → combine items = combine items') ∧
      (∀ items, Weighted items → 0 ≤ combine items ∧ combine items ≤ 99 / 100) ∧
      (∀ items items', Weighted items → items'.Sublist items → combine items' ≤ combine items) ∧
      (∀ index line, ∃ a, attributeLine U s index line = .ok a ∧ FairlyChallenged U s.pack line a) ∧
      ∀ index lines, ∃ attrs, attributeAll U s index lines = .ok attrs ∧
        List.Forall₂ (FairlyChallenged U s.pack) lines attrs := by
  refine ⟨fun items items' hitems hperm => combine_perm hitems hperm,
    fun items _ => ⟨combine_nonneg items, combine_le items⟩,
    fun items items' hitems hsub => combine_subperm hitems hsub.subperm, ?_, ?_⟩
  · intro index line
    exact ⟨_, attributeLine_eq U s index line, lineVerdict_challenged hpack⟩
  · intro index lines
    refine ⟨_, attributeAll_eq U s index lines, ?_⟩
    rw [List.forall₂_map_right_iff]
    exact List.forall₂_same.mpr fun line _ => verdictOf_challenged hpack

/-- With the default pack: the amount tie alone scores at most what it scores with the brand. -/
theorem combination_monotone_default :
    PackWeighted defaultNarrationPack ∧
      combine [⟨"amount_corr", "", 3 / 10⟩] ≤
        combine [⟨"amount_corr", "", 3 / 10⟩, ⟨"narration_brand_rzp", "", 3 / 20⟩] ∧
      ∀ index line, ∃ a, attributeLine asciiUnicode ⟨0, 0, true, defaultNarrationPack⟩ index line = .ok a ∧
        FairlyChallenged asciiUnicode defaultNarrationPack line a := by
  have h := combination_monotone asciiUnicode ⟨0, 0, true, defaultNarrationPack⟩ packWeighted_default
  have hweighted : Weighted [⟨"amount_corr", "", 3 / 10⟩, ⟨"narration_brand_rzp", "", 3 / 20⟩] := by
    intro it hit
    simp only [List.mem_cons, List.not_mem_nil, or_false] at hit
    rcases hit with rfl | rfl <;> norm_num
  exact ⟨packWeighted_default, h.2.2.1 _ _ hweighted (by simp), h.2.2.2.1⟩

end Emitters

end Untangle
