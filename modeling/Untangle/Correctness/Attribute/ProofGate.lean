import Untangle.Correctness.Attribute.Consulted
import Untangle.Correctness.Attribute.Splits
import Untangle.Correctness.Evidence

/-!
# `Correctness.Attribute.ProofGate` — what a Razorpay verdict rests on

A line of its own comes to a Razorpay verdict in three ways (`RazorpayOrigin`): by a genuine tie among its signals,
by a unique set-sum joined to them, or by a keyword of a pack that lists `razorpay_settlement` among its rails,
which no proof stands behind. The split reconstruction is the fourth. `Witnessed` says what each tie means in
terms of the report.
-/

namespace Untangle

open Lib

variable {U : Unicode} {s : Settings} {pack : NarrationEvidencePack} {index : ReconIndex}
  {rows : List ReconRow} {lines : List BankCreditLine} {line : BankCreditLine} {e : EvidenceItem}

/-! ## Where a Razorpay verdict comes from -/

/-- The evidence a line's own Razorpay verdict can carry. -/
inductive RazorpayOrigin (U : Unicode) (pack : NarrationEvidencePack) (index : ReconIndex) (line : BankCreditLine) :
    List EvidenceItem → Prop
  | keyword {p : Rail × List EvidenceItem} (hp : p ∈ (narrationRailSignals U pack line).items)
      (hrail : p.1 = .razorpaySettlement) : RazorpayOrigin U pack index line p.2
  | tied (hcredit : line.isCredit = true)
      (htied : hasSignal rzpTieSignals (razorpaySignals U pack index line) = true) :
      RazorpayOrigin U pack index line (razorpaySignals U pack index line)
  | joined (hcredit : line.isCredit = true)
      (hsoft : hasSignal hardRzpSignals (razorpaySignals U pack index line) = false) (sids : List String)
      (hspec : SetsumSpec index line (.unique sids)) :
      RazorpayOrigin U pack index line (razorpaySignals U pack index line ++ [setsumItem sids])

theorem mem_putScore {scores : List RailScore} {new best : RailScore} (h : best ∈ putScore scores new)
    (hrail : best.rail = new.rail) : best = new := by
  unfold putScore at h
  split at h
  · obtain ⟨old, _, hold⟩ := List.mem_map.mp h
    split at hold
    · exact hold.symm
    · rename_i hne
      exact absurd (hold ▸ hrail) hne
  · rename_i hnone
    rcases List.mem_append.mp h with hold | hnew
    · rw [Bool.not_eq_true, List.any_eq_false] at hnone
      exact absurd (decide_eq_true hrail) (hnone best hold)
    · exact List.mem_singleton.mp hnew

/-- The best Razorpay score rests on a tie, or on a keyword for the rail itself. -/
theorem bestRail_razorpay {rzpEv : List EvidenceItem} {nonRzp : Dict Rail (List EvidenceItem)}
    {rzpHard joined : Bool} {best : RailScore} (h : bestRail (railScores rzpEv nonRzp rzpHard joined) = some best)
    (hrail : best.rail = Rail.razorpaySettlement.value) :
    (best.evidence = rzpEv ∧ hasSignal rzpTieSignals rzpEv = true) ∨
      ∃ p ∈ nonRzp.items, p.1 = .razorpaySettlement ∧ best.evidence = p.2 := by
  have hmem : best ∈ railScores rzpEv nonRzp rzpHard joined := List.argmax_mem h
  have hkeyword : best ∈ nonRzpScores nonRzp →
      ∃ p ∈ nonRzp.items, p.1 = .razorpaySettlement ∧ best.evidence = p.2 := by
    intro hmem
    obtain ⟨p, hp, rfl⟩ := List.mem_map.mp hmem
    exact ⟨p, hp, Rail.value_injective hrail, rfl⟩
  unfold railScores at hmem
  dsimp only at hmem
  split at hmem
  · rename_i hpos
    have hbest := mem_putScore hmem hrail
    rw [hbest]
    refine Or.inl ⟨rfl, ?_⟩
    -- without a tie the gated score is zero
    by_contra hno
    unfold gatedRzpScore at hpos
    rw [Bool.not_eq_true] at hno
    rw [hno] at hpos
    split at hpos
    · exact lt_irrefl _ hpos
    · exact lt_irrefl _ hpos
  · exact Or.inr (hkeyword hmem)

/-- The evidence of a candidate for a Razorpay verdict. -/
theorem creditDecision_origin {threshold score : ℚ} {evidence : List EvidenceItem} {tier : Tier}
    (hcredit : line.isCredit = true)
    (h : creditDecision threshold index line (razorpaySignals U pack index line)
      (narrationRailSignals U pack line) = .candidate evidence score tier) :
    RazorpayOrigin U pack index line evidence := by
  have hown : ∀ {rzpHard joined : Bool}, railDecision threshold line (razorpaySignals U pack index line)
      (narrationRailSignals U pack line) rzpHard joined = .candidate evidence score tier →
        RazorpayOrigin U pack index line evidence := by
    intro rzpHard joined hd
    obtain ⟨_, best, hbest, hrail, rfl, _⟩ := railDecision_candidate hd
    rcases bestRail_razorpay hbest hrail with ⟨heq, htied⟩ | ⟨p, hp, hr, heq⟩
    · rw [heq]
      exact .tied hcredit htied
    · rw [heq]
      exact .keyword hp hr
  unfold creditDecision at h
  split at h
  · rename_i hexact
    obtain ⟨rfl, _, _⟩ := Decision.candidate.inj h
    exact .tied hcredit (hasSignal_mono (by decide) hexact)
  · split at h
    · exact hown h
    · rename_i hsoft
      rw [Bool.not_eq_true] at hsoft
      obtain ⟨ans, hans, hspec⟩ := setsumEvidence_spec index line
      have hof : setsumOf index line = ans.items line := by
        unfold setsumOf
        rw [hans]
      rw [hof] at h
      by_cases hopen : (narrationRailSignals U pack line).items = []
      · by_cases hev : razorpaySignals U pack index line = []
        · -- without any signal the set-sum is not joined
          rw [hopen, hev, decide_eq_false (not_not.mpr rfl)] at h
          have hscored : ∀ ans : SetsumAnswer, (∃ ev, applySetsum [] false (ans.items line) = .abstained ev) ∨
              applySetsum [] false (ans.items line) = .scored [] false := by
            intro ans
            cases ans with
            | nothing => exact Or.inr rfl
            | unique sids => exact Or.inr rfl
            | multiple n => exact Or.inl ⟨_, rfl⟩
          rcases hscored ans with ⟨ev, heq⟩ | heq
          · rw [heq] at h
            exact absurd h (by simp)
          · rw [heq, ← hev] at h
            exact hown h
        · rw [hopen, decide_eq_false (not_not.mpr rfl), applySetsum_answer hev] at h
          cases ans with
          | nothing => exact hown h
          | multiple n => exact absurd h (by simp)
          | unique sids =>
              obtain ⟨_, best, hbest, hrail, rfl, _⟩ := railDecision_candidate h
              rcases bestRail_razorpay hbest hrail with ⟨heq, _⟩ | ⟨p, hp, hr, heq⟩
              · rw [heq]
                exact .joined hcredit hsoft sids hspec
              · rw [heq]
                exact .keyword hp hr
      · rw [decide_eq_true hopen, applySetsum_competing] at h
        exact hown h

/-- What the challenger lets through as Razorpay it accepts. -/
theorem accepted_of_isRazorpay {evidence : List EvidenceItem} {nonRzp : Dict Rail (List EvidenceItem)} {score : ℚ}
    {tier : Tier} (h : IsRazorpay (finalizeRazorpay s line evidence nonRzp score tier)) :
    Accepted (finalizeRazorpay s line evidence nonRzp score tier) line evidence score tier := by
  by_cases hsurvives : Survives s.marginThreshold evidence nonRzp score
  · exact finalize_accepted line tier hsurvives
  · exact absurd ((finalize_demoted line tier hsurvives).1.closed.symm.trans h.2) (by simp)

/-- **What a line's own Razorpay verdict rests on.** -/
theorem lineVerdict_origin (h : IsRazorpay (lineVerdict U s index line)) :
    RazorpayOrigin U s.pack index line (lineVerdict U s index line).evidence := by
  unfold lineVerdict at h ⊢
  cases hd : lineDecision U s.threshold s.pack index line with
  | settled a =>
      rw [hd] at h
      have hopen : a.abstained = false := h.2
      rcases lineDecision_settled hd with habs | ⟨_, hdebit⟩
      · exact absurd (habs.closed.symm.trans hopen) (by simp)
      · -- a settled Razorpay verdict is a debit's, by a keyword
        have hcredit := hdebit h.1
        unfold lineDecision at hd
        rw [hcredit, if_neg Bool.false_ne_true] at hd
        have ha := Decision.settled.inj hd
        show RazorpayOrigin U s.pack index line a.evidence
        have hrail : a.rail = Rail.razorpaySettlement.value := h.1
        rw [← ha] at hrail hopen ⊢
        unfold attributeDebit at hrail hopen ⊢
        split at hrail
        · exact absurd hrail (by simp [abstain, Rail.value])
        · rename_i best hbest
          split at hrail
          · exact absurd hrail (by simp [abstain, Rail.value])
          · rename_i hclears
            rw [if_neg hclears]
            obtain ⟨p, hp, rfl⟩ := List.mem_map.mp (List.argmax_mem hbest)
            exact .keyword hp (Rail.value_injective hrail)
  | candidate evidence score tier =>
      rw [hd] at h
      have hevidence : (Decision.finish s line (narrationRailSignals U s.pack line)
          (.candidate evidence score tier)).evidence = evidence := (accepted_of_isRazorpay h).evidence
      rw [hevidence]
      have hcredit := (lineDecision_candidate hd).1
      unfold lineDecision at hd
      rw [if_pos hcredit] at hd
      exact creditDecision_origin hcredit hd

/-! ## What a tie means -/

/-- The signals that tie a verdict to the report. -/
def reportTies : List String := rzpTieSignals ++ ["split_reconstruction"]

/-- The text contains a UTR of a recon row. -/
def ExactWitness (U : Unicode) (rows : List ReconRow) (line : BankCreditLine) : Prop :=
  ∃ r ∈ rows, ∃ utr, truthy r.settlementUtr = some utr ∧
    ∃ tok ∈ extractUtrTokens U (normalizeNarration U line.rawText), U.lower tok = U.lower utr

/-- A token is the proper suffix of one settlement UTR, and the settlement is near or has the amount. -/
def SuffixWitness (U : Unicode) (index : ReconIndex) (line : BankCreditLine) : Prop :=
  ∃ tok ∈ suffixCandidates (normalizeNarration U line.rawText), ∃ utr,
    (index.settlementUtrs.filter fun u => endsWith u (U.lower tok) && decide (u ≠ U.lower tok)) = [utr] ∧
    ∃ sid, index.utrToSid.get? utr = some sid ∧
      (index.dateNear line sid = true ∨ index.settlementNet.get? sid = some line.amountPaise)

/-- Exactly one settlement's net is the amount. -/
def AmountWitness (index : ReconIndex) (line : BankCreditLine) : Prop :=
  ∃! sid, index.settlementNet.get? sid = some line.amountPaise

/-- The sets of settlements that the search examines and that sum to the amount: positive nets below the amount in
    the window, two to five of up to sixteen of them, two or three of more. -/
def examinedSums (index : ReconIndex) (line : BankCreditLine) : Finset (Finset String) :=
  sumSets (poolIds (setsumPool index line)) (amountOf (setsumPool index line)) 2
    (if (setsumPool index line).length ≤ setsumExpansionMaxCandidates then 5 else 3) line.amountPaise 0

/-- The set named by the item is the only one that sums to the amount, unless the item names a settlement twice. -/
def SetsumWitness (index : ReconIndex) (line : BankCreditLine) (e : EvidenceItem) : Prop :=
  ∃ sids, e = setsumItem sids ∧ (sids.Nodup → examinedSums index line = {sids.toFinset})

/-- Two or three credits whose amounts sum to a settlement's net, near its date. -/
structure SplitLegs (index : ReconIndex) (lines : List BankCreditLine) (sid : String)
    (legs : List BankCreditLine) : Prop where
  sublist : legs.Sublist lines
  length : 2 ≤ legs.length ∧ legs.length ≤ 3
  isCredit : ∀ leg ∈ legs, leg.isCredit = true
  sums : ∃ net date, index.settlementNet.get? sid = some net ∧ index.settlementDate.get? sid = some date ∧
    |(legs.map BankCreditLine.amountPaise).sum - net| ≤ splitDriftPaise ∧
    ∀ leg ∈ legs, withinDays splitDateWindow leg.valueDate date = true

def SplitWitness (index : ReconIndex) (lines : List BankCreditLine) (line : BankCreditLine) : Prop :=
  ∃ sid legs, SplitLegs index lines sid legs ∧ line ∈ legs

/-- The report bears a tie out. -/
structure Witnessed (U : Unicode) (rows : List ReconRow) (lines : List BankCreditLine) (line : BankCreditLine)
    (e : EvidenceItem) : Prop where
  exact : e.signal = "utr_exact" → ExactWitness U rows line
  suffix : e.signal = "utr_suffix" → SuffixWitness U (ReconIndex.ofRows U rows) line
  amount : e.signal = "amount_corr" → AmountWitness (ReconIndex.ofRows U rows) line
  setsum : e.signal = "setsum" → SetsumWitness (ReconIndex.ofRows U rows) line e
  split : e.signal = "split_reconstruction" → SplitWitness (ReconIndex.ofRows U rows) lines line

/-- A Razorpay verdict that the report backs. -/
structure ReportBacked (U : Unicode) (rows : List ReconRow) (lines : List BankCreditLine) (line : BankCreditLine)
    (a : RailAttribution) : Prop where
  isCredit : line.isCredit = true
  tied : hasSignal reportTies a.evidence = true
  witnessed : ∀ e ∈ a.evidence, Witnessed U rows lines line e

/-! ## The signals of a line -/

theorem exactWitness {t : String} (h : matchedExact U (ReconIndex.ofRows U rows) line = some t) :
    ExactWitness U rows line := by
  unfold matchedExact at h
  have hmem := List.mem_of_find?_eq_some h
  have hexact := List.find?_some h
  unfold ReconIndex.utrExact ReconIndex.ofRows at hexact
  rw [decide_eq_true_eq] at hexact
  obtain ⟨r, hr, hutr⟩ := List.mem_filterMap.mp (List.mem_dedup.mp hexact)
  obtain ⟨utr, hutr, hlower⟩ := Option.map_eq_some_iff.mp hutr
  exact ⟨r, hr, utr, hutr, t, hmem, hlower.symm⟩

theorem utrSuffixMatch_some {tok u : String} (h : index.utrSuffixMatch U tok = some u) :
    (index.settlementUtrs.filter fun u => endsWith u (U.lower tok) && decide (u ≠ U.lower tok)) = [u] := by
  unfold ReconIndex.utrSuffixMatch at h
  dsimp only at h
  split at h
  · exact absurd h (by simp)
  · split at h
    · rename_i heq
      rw [heq, Option.some.inj h]
    · exact absurd h (by simp)

/-- The scan ends on a corroborated suffix of one of its tokens. -/
theorem suffixScan_strong {weak : Option SuffixTie} (hweak : ∀ tok u how, weak ≠ some (.strong tok u how))
    {toks : List String} {tok u how : String}
    (h : suffixScan U index line weak toks = some (.strong tok u how)) :
    tok ∈ toks ∧ index.utrSuffixMatch U tok = some u ∧
      ∃ sid, index.utrToSid.get? u = some sid ∧
        (index.dateNear line sid = true ∨ index.settlementNet.get? sid = some line.amountPaise) := by
  induction toks generalizing weak with
  | nil => exact absurd h (hweak tok u how)
  | cons tok' toks ih =>
      rw [suffixScan] at h
      split at h
      · obtain ⟨hmem, hrest⟩ := ih hweak h
        exact ⟨List.mem_cons_of_mem _ hmem, hrest⟩
      · rename_i u' hmatch
        dsimp only at h
        split at h
        · -- the corroborated suffix of this token
          rename_i hok
          rw [Option.some.injEq, SuffixTie.strong.injEq] at h
          obtain ⟨rfl, rfl, _⟩ := h
          refine ⟨List.mem_cons_self, hmatch, ?_⟩
          cases hsid : index.utrToSid.get? u' with
          | none =>
              rw [hsid] at hok
              simp at hok
          | some sid =>
              rw [hsid] at hok
              refine ⟨sid, rfl, ?_⟩
              rw [Bool.or_eq_true, Option.any_some, Bool.and_eq_true, Option.bind_some, beq_iff_eq] at hok
              exact hok.imp_right And.right
        · have hkept : ∀ tok u how, some (weak.getD (.weak tok' u')) ≠ some (.strong tok u how) := by
            intro tok u how heq
            cases weak with
            | none => exact absurd (Option.some.inj heq) (by simp)
            | some tie => exact hweak tok u how heq
          obtain ⟨hmem, hrest⟩ := ih hkept h
          exact ⟨List.mem_cons_of_mem _ hmem, hrest⟩

/-- **Every signal of a line that is a tie is borne out.** -/
theorem witnessed_of_razorpaySignals (lines : List BankCreditLine)
    (h : e ∈ razorpaySignals U pack (ReconIndex.ofRows U rows) line) : Witnessed U rows lines line e := by
  have hnames : e.signal ∈ ["utr_exact", "utr_suffix", "utr_suffix_weak", "amount_corr", "amount_corr_multi",
      "value_date_proximity", "narration_brand_rzp", "ifsc_ratn", "settlement_ref"] := signal_razorpaySignals h
  refine ⟨fun hs => ?_, fun hs => ?_, fun hs => ?_, fun hs => ?_, fun hs => ?_⟩
  · obtain ⟨t, ht, _⟩ := utr_exact_signal h hs
    exact exactWitness ht
  · obtain ⟨tok, u, how, hscan⟩ := utr_suffix_signal h hs
    obtain ⟨hmem, hmatch, sid, hsid, hok⟩ := suffixScan_strong (by simp) hscan
    exact ⟨tok, hmem, u, utrSuffixMatch_some hmatch, sid, hsid, hok⟩
  · obtain ⟨_, ⟨sid, hsid⟩, _⟩ := amount_corr_signal h hs
    have hall : ∀ sid', (ReconIndex.ofRows U rows).settlementNet.get? sid' = some line.amountPaise ↔ sid' = sid := by
      intro sid'
      have hnets : (settlementsOfNet (netBySettlement rows)).get? line.amountPaise = some [sid] := hsid
      show (netBySettlement rows).get? sid' = _ ↔ _
      rw [← mem_settlementsOfNet, hnets, Option.getD_some, List.mem_singleton]
    exact ⟨sid, (hall sid).mpr rfl, fun sid' => (hall sid').mp⟩
  · rw [hs] at hnames
    exact absurd hnames (by decide)
  · rw [hs] at hnames
    exact absurd hnames (by decide)

/-- The joined set-sum names the only set that the search can find. -/
theorem setsumWitness {sids : List String} (h : SetsumSpec index line (.unique sids)) :
    SetsumWitness index line (setsumItem sids) := by
  refine ⟨sids, rfl, fun hnodup => ?_⟩
  cases h with
  | unique hsearched _ _ subset hset hsound =>
      have hperm := List.perm_insertionSort (· ≤ ·) subset
      have hsame : (subset.insertionSort (· ≤ ·)).toFinset = subset.toFinset := List.toFinset_eq_of_perm _ _ hperm
      rw [hsame]
      -- without a doubled settlement the tuple is a set that sums to the amount
      have hsum : subset.toFinset ∈ sumSets (poolIds (setsumPool index line)) (amountOf (setsumPool index line)) 2 5
          line.amountPaise 0 := by
        rcases hsound with ⟨_, _, hmem⟩ | ⟨_, x, y, _, hdoubled⟩
        · exact hmem
        · rw [hperm.nodup_iff, hdoubled] at hnodup
          simp at hnodup
      unfold examinedSums
      unfold foundSets at hset
      split
      · rename_i hsmall
        rw [if_pos hsmall] at hset
        exact hset
      · rename_i hlarge
        rw [if_neg hlarge] at hset
        have hvalid : ValidPool (setsumPool index line) line.amountPaise := validPool_setsumPool
        refine Finset.Subset.antisymm (fun S hS => hset ▸ (mem_legacySets hvalid.items).mpr (Or.inl hS)) ?_
        have hmem : subset.toFinset ∈ legacySets (setsumPool index line) line.amountPaise :=
          hset ▸ Finset.mem_singleton_self _
        refine Finset.singleton_subset_iff.mpr ?_
        rcases (mem_legacySets hvalid.items).mp hmem with hmem | ⟨x, y, _, heq⟩
        · exact hmem
        · obtain ⟨hsub, hlo, _, hsum⟩ := mem_sumSets.mp hsum
          refine mem_sumSets.mpr ⟨hsub, hlo, ?_, hsum⟩
          rw [heq]
          exact Finset.card_le_two.trans (by omega)

/-! ## The baseline -/

/-- The pack has no keywords for Razorpay itself. -/
def KeywordFree (pack : NarrationEvidencePack) : Prop := Rail.razorpaySettlement ∉ pack.railKeywords.keys

theorem keywordFree_default : KeywordFree defaultNarrationPack := by
  unfold KeywordFree
  decide

theorem rail_of_keyword {p : Rail × List EvidenceItem} (h : p ∈ (narrationRailSignals U pack line).items) :
    p.1 ∈ pack.railKeywords.keys := (evidence_of_keyword h).1

/-- No keyword hit of a line is one for Razorpay. -/
theorem KeywordFree.not_hit (hpack : KeywordFree pack) (line : BankCreditLine) :
    Rail.razorpaySettlement ∉ (narrationRailSignals U pack line).keys := by
  intro hmem
  obtain ⟨items, hitems⟩ := Dict.exists_get?_of_mem_keys hmem
  exact hpack (rail_of_keyword (Dict.get?_eq_some.mp hitems))

theorem witnessed_setsumItem {sids : List String} (lines : List BankCreditLine)
    (h : SetsumSpec (ReconIndex.ofRows U rows) line (.unique sids)) :
    Witnessed U rows lines line (setsumItem sids) := by
  refine ⟨fun hs => ?_, fun hs => ?_, fun hs => ?_, fun _ => setsumWitness h, fun hs => ?_⟩
  all_goals exact absurd hs (show ("setsum" : String) ≠ _ by decide)

/-- A line's own Razorpay verdict is backed by the report. -/
theorem RazorpayOrigin.backed {a : RailAttribution} (hpack : KeywordFree pack)
    (h : RazorpayOrigin U pack (ReconIndex.ofRows U rows) line a.evidence) (lines : List BankCreditLine) :
    ReportBacked U rows lines line a := by
  generalize hev : a.evidence = evidence at h
  cases h with
  | keyword hp hrail => exact absurd (hrail ▸ rail_of_keyword hp) hpack
  | tied hcredit htied =>
      refine ⟨hcredit, ?_, fun e he => ?_⟩
      · rw [hev]
        exact hasSignal_mono (List.subset_append_left _ _) htied
      · rw [hev] at he
        exact witnessed_of_razorpaySignals lines he
  | joined hcredit _ sids hspec =>
      refine ⟨hcredit, ?_, fun e he => ?_⟩
      · rw [hev]
        exact List.any_eq_true.mpr ⟨setsumItem sids, List.mem_append_right _ (List.mem_singleton_self _), by
          simp [setsumItem, reportTies, rzpTieSignals]⟩
      · rw [hev] at he
        rcases List.mem_append.mp he with he | he
        · exact witnessed_of_razorpaySignals lines he
        · rw [List.mem_singleton.mp he]
          exact witnessed_setsumItem lines hspec

/-- The legs of a lifted group, as lines. -/
theorem LiftedGroup.exists_legs (hnd : (lines.map BankCreditLine.key).Nodup) {sid : String} {K : Finset String}
    (h : LiftedGroup U pack index (splitCandidates U s index lines) sid K) :
    ∃ legs, SplitLegs index lines sid legs ∧ keySet legs = K ∧ legs ⊆ splitCandidates U s index lines := by
  obtain ⟨m, hm, hsid, hK⟩ := (exists_found_iff (nodup_splitCandidates hnd)).mpr h.isMatch
  obtain ⟨net, date, hpay, _, _, hsub⟩ := (mem_collectMatches _).mp hm
  obtain ⟨hsublist, htwo, hthree, hsum⟩ := mem_allSumSubsets hsub
  have hpayable := mem_splitSettlements.mp hpay
  rw [hsid] at hpayable
  have hcands : m.2 ⊆ splitCandidates U s index lines := fun c hc => (List.mem_filter.mp (hsublist.subset hc)).1
  refine ⟨m.2, ⟨hsublist.trans (List.filter_sublist.trans List.filter_sublist), ⟨htwo, hthree⟩, fun leg hleg => ?_,
    net, date, hpayable.netIs, hpayable.dated, hsum, fun leg hleg => ?_⟩, hK, hcands⟩
  · exact (mem_splitCandidates.mp (hcands hleg)).2.2.isCredit
  · exact (of_decide_eq_true (List.mem_filter.mp (hsublist.subset hleg)).2).2

/-- The line is a leg of its group. -/
theorem mem_of_keySet (hnd : (lines.map BankCreditLine.key).Nodup) {legs : List BankCreditLine}
    (hsub : legs.Sublist lines) (hline : line ∈ lines) (hkey : line.key ∈ keySet legs) : line ∈ legs := by
  obtain ⟨leg, hleg, heq⟩ := mem_keySet.mp hkey
  rwa [← line_ext hnd (hsub.subset hleg) hline heq]

theorem witnessed_split {legs : List BankCreditLine} {sid : String}
    (h : SplitLegs (ReconIndex.ofRows U rows) lines sid legs) (hline : line ∈ legs)
    (he : e.signal = "split_reconstruction") : Witnessed U rows lines line e := by
  refine ⟨fun hs => ?_, fun hs => ?_, fun hs => ?_, fun hs => ?_, fun _ => ⟨sid, legs, h, hline⟩⟩
  all_goals exact absurd (he.symm.trans hs) (by decide)

theorem backed_of_split {a : RailAttribution} {legs : List BankCreditLine} {sid : String}
    (h : SplitLegs (ReconIndex.ofRows U rows) lines sid legs) (hline : line ∈ legs)
    (hev : a.evidence = [e]) (he : e.signal = "split_reconstruction") : ReportBacked U rows lines line a := by
  refine ⟨h.isCredit line hline, ?_, fun e' he' => ?_⟩
  · rw [hev]
    exact List.any_eq_true.mpr ⟨e, List.mem_singleton_self _, by simp [he, reportTies]⟩
  · rw [hev, List.mem_singleton] at he'
    exact he' ▸ witnessed_split h hline he

/-- **Every Razorpay verdict of the baseline is backed by the report.** -/
theorem verdictOf_backed (hpack : KeywordFree s.pack) (hnd : (lines.map BankCreditLine.key).Nodup)
    (hline : line ∈ lines) (h : IsRazorpay (verdictOf U s (ReconIndex.ofRows U rows) lines line)) :
    ReportBacked U rows lines line (verdictOf U s (ReconIndex.ofRows U rows) lines line) := by
  by_cases hlifted : IsLifted U s (ReconIndex.ofRows U rows) lines line
  · obtain ⟨hon, sid, K, hgroup, hkey⟩ := hlifted
    obtain ⟨legs, hlegs, hK, _⟩ := hgroup.exists_legs hnd
    have hverdict := verdictOf_of_lifted hnd hon hgroup hkey
    rw [hverdict] at h ⊢
    have hmem := mem_of_keySet hnd hlegs.sublist hline (hK ▸ hkey)
    exact backed_of_split hlegs hmem (accepted_of_isRazorpay h).evidence rfl
  · rw [verdictOf_of_not_lifted hnd hlifted] at h ⊢
    exact (lineVerdict_origin h).backed hpack lines

end Untangle
