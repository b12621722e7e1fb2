import Untangle.Correctness.RunReport
import Untangle.Correctness.Rules

/-!
# `Correctness.Audit` — what an audit leaves on a verdict

With the margin threshold at zero the challenger changes no verdict, but it notes how far the best competing
explanation stays behind. The note is rounded to four places, so it is positive exactly if every explanation stays
behind by more than half of the last one (`shown_iff`). Of all Razorpay verdicts of a run only those that come from a
line's own evidence carry a note that can be otherwise: a leg of a split settlement has none of its own that competes,
and a verdict of the solver carries no note (`verdictOf_vetted`, `solvedVerdict_vetted`).
-/

namespace Untangle

open Lib

variable {U : Unicode} {s : Settings} {index : ReconIndex} {lines : List BankCreditLine} {line : BankCreditLine}
  {evidence : List EvidenceItem} {nonRzp : Dict Rail (List EvidenceItem)} {score : ℚ} {tier : Tier}

/-! ## The margin -/

/-- There are fewer rails and groups of signals than challenges allowed. -/
theorem length_rawChallenges_le (evidence : List EvidenceItem) (nonRzp : Dict Rail (List EvidenceItem))
    (combine : List EvidenceItem → ℚ) : (rawChallenges evidence nonRzp combine).length ≤ maxChallenges := by
  have hrails : (nonRzp.items.filter fun p => p.1 ≠ .razorpaySettlement ∧ p.2 ≠ []).length ≤ 6 := by
    have hsub : ((nonRzp.items.filter fun p => p.1 ≠ .razorpaySettlement ∧ p.2 ≠ []).map Prod.fst).Subperm
        [.razorpaySettlement, .otherGateway, .directUpi, .codRemittance, .unrelated, .unknown] := by
      apply List.subperm_of_subset
      · exact nonRzp.nodup_keys.sublist (List.filter_sublist.map _)
      · intro rail _
        cases rail <;> simp
    simpa using hsub.length_le
  have hgroups : ∀ hasExact, (ablations hasExact).length ≤ 6 := by decide
  unfold rawChallenges
  rw [List.length_append, List.length_map]
  have hkept := (List.length_filterMap_le (fun a => ablation evidence combine a.1 a.2.1 a.2.2)
    (ablations (evidence.any fun e => e.signal = "utr_exact"))).trans (hgroups _)
  show _ ≤ 16
  omega

/-- **The margin is over every competing explanation**: none is left out. -/
theorem lt_proofMargin_iff {t : ℚ} (h : rawChallenges evidence nonRzp combine ≠ []) :
    t < (challenge evidence nonRzp score).proofMargin ↔
      ∀ c ∈ rawChallenges evidence nonRzp combine, c.score + t < score := by
  have hperm := List.perm_insertionSort (fun c c' => CompetingExplanation.sortKey c ≤ c'.sortKey)
    (rawChallenges evidence nonRzp combine)
  have hkept : ¬ maxChallenges < ((rawChallenges evidence nonRzp combine).insertionSort
      fun c c' => c.sortKey ≤ c'.sortKey).length := by
    rw [hperm.length_eq]
    exact not_lt.mpr (length_rawChallenges_le evidence nonRzp combine)
  unfold challenge challengeRazorpay
  dsimp only
  rw [decide_eq_false hkept, if_neg Bool.false_ne_true]
  obtain ⟨best, hbest⟩ : ∃ best, (((rawChallenges evidence nonRzp combine).insertionSort
      fun c c' => c.sortKey ≤ c'.sortKey).map CompetingExplanation.score).max? = some best := by
    apply Option.isSome_iff_exists.mp
    rw [List.isSome_max?_iff, ne_eq, List.map_eq_nil_iff]
    intro hnil
    rw [hnil] at hperm
    exact h hperm.nil_eq.symm
  rw [hbest, Option.getD_some]
  obtain ⟨hmem, hmax⟩ := List.max?_eq_some_iff.mp hbest
  constructor
  · intro hlt c hc
    have hle := hmax c.score (List.mem_map_of_mem (hperm.mem_iff.mpr hc))
    linarith
  · intro hall
    obtain ⟨c, hc, hscore⟩ := List.mem_map.mp hmem
    have hlt := hall c (hperm.mem_iff.mp hc)
    rw [hscore] at hlt
    linarith

/-- The verdict is undisputed: every competing explanation stays behind by more than what the note rounds away. -/
def Undisputed (evidence : List EvidenceItem) (nonRzp : Dict Rail (List EvidenceItem)) (score : ℚ) : Prop :=
  ∀ c ∈ rawChallenges evidence nonRzp combine, c.score + 1 / 20000 < score

instance (evidence : List EvidenceItem) (nonRzp : Dict Rail (List EvidenceItem)) (score : ℚ) :
    Decidable (Undisputed evidence nonRzp score) :=
  inferInstanceAs (Decidable (∀ c ∈ _, _))

/-- Evidence with a tie is challenged by the same evidence without its ties. -/
theorem rawChallenges_ne_nil (h : hasSignal allTieSignalNames evidence = true) :
    rawChallenges evidence nonRzp combine ≠ [] := by
  obtain ⟨e, he, htie⟩ := List.any_eq_true.mp h
  have hpresent : allTieSignalNames.filter (fun s => evidence.any fun e => e.signal = s) ≠ [] :=
    List.ne_nil_of_mem (List.mem_filter.mpr ⟨of_decide_eq_true htie,
      List.any_eq_true.mpr ⟨e, he, decide_eq_true rfl⟩⟩)
  have hgroup : ("unlinked_rzp", allTieSignalNames, "resemblance only — every genuine tie removed") ∈
      ablations (evidence.any fun e => e.signal = "utr_exact") := by
    unfold ablations
    simp
  unfold rawChallenges
  apply List.append_ne_nil_of_right_ne_nil
  exact List.ne_nil_of_mem (List.mem_filterMap.mpr ⟨_, hgroup, if_neg hpresent⟩)

/-- **The note is positive exactly if the verdict is undisputed.** -/
theorem shown_iff (h : hasSignal allTieSignalNames evidence = true) :
    0 < roundTo 4 (challenge evidence nonRzp score).proofMargin ↔ Undisputed evidence nonRzp score := by
  rw [roundTo_pos_iff, show (1 : ℚ) / (2 * 10 ^ 4) = 1 / 20000 by norm_num]
  exact lt_proofMargin_iff (rawChallenges_ne_nil h)

/-! ## Verdicts -/

/-- A verdict that a packet is made of. -/
def Packeted (a : RailAttribution) : Prop := IsRazorpay a ∧ packetTies a.evidence ≠ []

/-- The audit's note, if there is one, is positive as it is shown. -/
def MarginShown (a : RailAttribution) : Prop := ∀ margin, a.proofMargin = some margin → 0 < roundTo 4 margin

/-- A tie of the evidence is one of the packet. -/
theorem packetTies_ne_nil {signals : List String} (hsignals : ∀ signal ∈ signals, (tieLabels.lookup signal).isSome)
    (h : hasSignal signals evidence = true) : packetTies evidence ≠ [] := by
  obtain ⟨e, he, htie⟩ := List.any_eq_true.mp h
  obtain ⟨label, hlabel⟩ := Option.isSome_iff_exists.mp (hsignals _ (of_decide_eq_true htie))
  exact List.ne_nil_of_mem (List.mem_filterMap.mpr ⟨e, he, Option.map_eq_some_iff.mpr ⟨label, hlabel, rfl⟩⟩)

/-- What the verdicts of a line rest on, as long as no keyword stands for Razorpay. -/
theorem RazorpayOrigin.hasTie {pack : NarrationEvidencePack} (hpack : KeywordFree pack)
    (h : RazorpayOrigin U pack index line evidence) :
    hasSignal rzpTieSignals evidence = true := by
  cases h with
  | keyword hp hrail => exact absurd (hrail ▸ rail_of_keyword hp) hpack
  | tied _ htied => exact htied
  | joined _ _ sids _ =>
      apply List.any_eq_true.mpr
      exact ⟨setsumItem sids, List.mem_append_right _ (List.mem_singleton_self _), by simp [setsumItem, rzpTieSignals]⟩

theorem finalize_audited (hmargin : s.marginThreshold ≤ 0) (haudit : s.audit = true) :
    (finalizeRazorpay s line evidence nonRzp score tier).proofMargin =
      some (challenge evidence nonRzp score).proofMargin := by
  unfold finalizeRazorpay
  dsimp only
  rw [if_pos hmargin, if_pos haudit]

/-- A line is undisputed if its own candidate verdict is, should it have one. -/
def LineUndisputed (U : Unicode) (s : Settings) (index : ReconIndex) (line : BankCreditLine) : Prop :=
  ∀ evidence score tier, lineDecision U s.threshold s.pack index line = .candidate evidence score tier →
    Undisputed evidence (narrationRailSignals U s.pack line) score

instance (U : Unicode) (s : Settings) (index : ReconIndex) (line : BankCreditLine) :
    Decidable (LineUndisputed U s index line) :=
  match hd : lineDecision U s.threshold s.pack index line with
  | .settled _ => isTrue fun _ _ _ h => Decision.noConfusion (hd.symm.trans h)
  | .candidate evidence score _ =>
      decidable_of_iff (Undisputed evidence (narrationRailSignals U s.pack line) score)
        ⟨fun h _ _ _ heq => by
          obtain ⟨rfl, rfl, rfl⟩ := Decision.candidate.inj (hd.symm.trans heq)
          exact h, fun h => h _ _ _ hd⟩

/-- **A line's own verdict** passes exactly if it is undisputed. -/
theorem lineVerdict_vetted (hpack : KeywordFree s.pack) (hmargin : s.marginThreshold ≤ 0) (haudit : s.audit = true) :
    (Packeted (lineVerdict U s index line) → MarginShown (lineVerdict U s index line)) ↔
      LineUndisputed U s index line := by
  unfold LineUndisputed
  cases hd : lineDecision U s.threshold s.pack index line with
  | settled a =>
      have hverdict : lineVerdict U s index line = a := by
        unfold lineVerdict
        rw [hd]
        rfl
      constructor
      · intro _ evidence score tier h
        cases h
      · intro _ hpacketed
        obtain ⟨⟨hrail, hopen⟩, _⟩ := hpacketed
        rw [hverdict] at hrail hopen
        rcases lineDecision_settled hd with habs | ⟨_, hdebit⟩
        · rw [habs.closed] at hopen
          cases hopen
        · have hcredit := hdebit hrail
          rw [← hverdict, lineVerdict_debit hcredit] at hrail
          exact absurd (debit_razorpay_iff.mp hrail).hit (hpack.not_hit line)
  | candidate evidence score tier =>
      have hverdict : lineVerdict U s index line =
          finalizeRazorpay s line evidence (narrationRailSignals U s.pack line) score tier := by
        unfold lineVerdict
        rw [hd]
        rfl
      have haccepted : Accepted (lineVerdict U s index line) line evidence score tier := by
        rw [hverdict]
        exact finalize_accepted line tier (Or.inl hmargin)
      have htie : hasSignal rzpTieSignals evidence = true := by
        rw [← haccepted.evidence]
        exact (lineVerdict_origin haccepted.isRazorpay).hasTie hpack
      have hall : hasSignal allTieSignalNames evidence = true := hasSignal_mono (by decide) htie
      have hpacketed : Packeted (lineVerdict U s index line) := by
        refine ⟨haccepted.isRazorpay, ?_⟩
        rw [haccepted.evidence]
        exact packetTies_ne_nil (by decide) htie
      have hshown : MarginShown (lineVerdict U s index line) ↔
          Undisputed evidence (narrationRailSignals U s.pack line) score := by
        unfold MarginShown
        rw [hverdict, finalize_audited hmargin haudit, ← shown_iff hall]
        exact ⟨fun h => h _ rfl, fun h margin hm => Option.some.inj hm ▸ h⟩
      rw [imp_iff_right hpacketed, hshown]
      constructor
      · intro h ev sc t heq
        obtain ⟨rfl, rfl, rfl⟩ := Decision.candidate.inj heq
        exact h
      · intro h
        exact h evidence score tier rfl

/-- A leg of a split settlement is undisputed: without its tie nothing is left, and no keyword competes. -/
theorem marginShown_splitItem (hmargin : s.marginThreshold ≤ 0) (haudit : s.audit = true) {sid : String} {legs : Nat}
    {residual : ℤ} (hnone : nonRzp.items = []) :
    MarginShown (finalizeRazorpay s line [splitItem sid legs residual] nonRzp splitConfidence .c) := by
  intro margin hm
  rw [finalize_audited hmargin haudit, Option.some.injEq] at hm
  have hsurvives := (survives_splitItem (t := splitConfidence) sid legs residual hnone).mpr le_rfl
  have hle : splitConfidence ≤ margin := hm ▸ (hsurvives.resolve_left (by decide +kernel)).2
  exact (roundTo_pos_iff 4).mpr ((show 1 / (2 * 10 ^ 4) < splitConfidence by decide +kernel).trans_le hle)

/-- A candidate is accepted, so it has not abstained. -/
theorem undisputed_of_abstained (hmargin : s.marginThreshold ≤ 0)
    (h : (lineVerdict U s index line).abstained = true) : LineUndisputed U s index line := by
  intro evidence score tier hd
  have hopen : (finalizeRazorpay s line evidence (narrationRailSignals U s.pack line) score tier).abstained = false :=
    (finalize_accepted line tier (Or.inl hmargin)).open_
  unfold lineVerdict at h
  rw [hd] at h
  rw [show (finalizeRazorpay s line evidence _ score tier).abstained = true from h] at hopen
  cases hopen

/-- **A verdict of the baseline** passes exactly if the line is undisputed. -/
theorem verdictOf_vetted (hpack : KeywordFree s.pack) (hmargin : s.marginThreshold ≤ 0) (haudit : s.audit = true)
    (hnd : (lines.map BankCreditLine.key).Nodup) (hline : line ∈ lines) :
    (Packeted (verdictOf U s index lines line) → MarginShown (verdictOf U s index lines line)) ↔
      LineUndisputed U s index line := by
  by_cases hlifted : IsLifted U s index lines line
  · obtain ⟨_, habstained, hleg⟩ := mem_splitCandidates.mp (hlifted.mem hnd hline)
    obtain ⟨hon, sid, K, hgroup, hkey⟩ := hlifted
    rw [verdictOf_of_lifted hnd hon hgroup hkey]
    constructor
    · intro _
      exact undisputed_of_abstained hmargin habstained
    · intro _ _
      exact marginShown_splitItem hmargin haudit hleg.noCompetitor
  · rw [verdictOf_of_not_lifted hnd hlifted]
    exact lineVerdict_vetted hpack hmargin haudit

theorem proofMargin_solvedAttribution {key : String} {v : CreditAssignmentVerdict} {orig : Option RailAttribution}
    (h : (solvedAttribution key v orig).rail = Rail.razorpaySettlement.value) :
    (solvedAttribution key v orig).proofMargin = none := by
  obtain ⟨hopen, hrail, _⟩ := solvedAttribution_razorpay h
  unfold solvedAttribution
  dsimp only
  rw [if_neg (by rw [hopen]; exact Bool.false_ne_true), if_pos hrail]
  split <;> rfl

/-- **A verdict of the solver** carries no note; only what the graph leaves out is audited. -/
theorem solvedVerdict_vetted (hpack : KeywordFree s.pack) (hmargin : s.marginThreshold ≤ 0) (haudit : s.audit = true)
    (hnd : (lines.map BankCreditLine.key).Nodup) (hline : line ∈ lines) :
    (Packeted (solvedVerdict U s index lines line) → MarginShown (solvedVerdict U s index lines line)) ↔
      (isGraphCredit line = false → LineUndisputed U s index line) := by
  have hnode : line.key ∈ (creditNodes lines).keys ↔ isGraphCredit line = true := by
    unfold creditNodes
    rw [Dict.mem_keys_gather]
    constructor
    · rintro ⟨ln, hln, hkey⟩
      split at hkey
      · rename_i hcredit
        rwa [line_ext hnd hln hline (Option.some.inj hkey)] at hcredit
      · cases hkey
    · intro hcredit
      exact ⟨line, hline, if_pos hcredit⟩
  unfold solvedVerdict
  cases hget : (solveAssignment U (buildCandidateGraph U { threshold := some s.threshold, pack := s.pack } index lines)
      s.marginThreshold maxBranchSteps).verdicts.get? line.key with
  | none =>
      have hleft : isGraphCredit line = false := by
        rw [Bool.eq_false_iff, ne_eq, ← hnode]
        intro hkey
        rw [get?_verdicts.mpr ⟨hkey, rfl⟩] at hget
        cases hget
      rw [imp_iff_right hleft]
      exact lineVerdict_vetted hpack hmargin haudit
  | some v =>
      have hcredit : isGraphCredit line = true := hnode.mp (get?_verdicts.mp hget).1
      constructor
      · intro _ hleft
        rw [hcredit] at hleft
        cases hleft
      · intro _ hpacketed margin hm
        rw [show (solvedAttribution line.key v _).proofMargin = none from
          proofMargin_solvedAttribution hpacketed.1.1] at hm
        cases hm

/-! ## A run -/

/-- A credit whose verdict rests on its own evidence is undisputed. -/
def CreditUndisputed (U : Unicode) (cfg : Config) (index : ReconIndex) (line : BankCreditLine) : Prop :=
  (cfg.globalSolver = true → isGraphCredit line = false) → LineUndisputed U (cfg.settings true) index line

/-- **The audited verdicts of a run**: one for each line, and which of them pass. -/
theorem attributeAllRules_audited (U : Unicode) (cfg : Config) (index : ReconIndex)
    (hnd : (lines.map BankCreditLine.key).Nodup) :
    ∃ verdict, attributeAllRules U (cfg.settings true) index cfg.globalSolver [] lines = .ok (lines.map verdict) ∧
      DebitsKept U (cfg.settings true) index lines verdict ∧
      ∀ line ∈ lines, (Packeted (verdict line) → MarginShown (verdict line)) ↔ CreditUndisputed U cfg index line := by
  have hpack := keywordFree_of_registered cfg.registered
  unfold attributeAllRules CreditUndisputed
  cases cfg.globalSolver with
  | true =>
      rw [if_pos rfl, attributeAllSolved_map hnd]
      refine ⟨solvedVerdict U (cfg.settings true) index lines, ?_, debitsKept_solvedVerdict hnd, fun line hline => ?_⟩
      · show Except.ok (List.map _ _) = _
        rw [List.map_congr_left fun a _ => withRule_nil a, List.map_id']
      · rw [solvedVerdict_vetted hpack le_rfl rfl hnd hline, imp_iff_right (rfl : true = true)]
  | false =>
      rw [if_neg Bool.false_ne_true, attributeAll_eq]
      refine ⟨verdictOf U (cfg.settings true) index lines, ?_, debitsKept_verdictOf hnd, fun line hline => ?_⟩
      · show Except.ok (List.map _ _) = _
        rw [List.map_congr_left fun a _ => withRule_nil a, List.map_id']
      · rw [verdictOf_vetted hpack le_rfl rfl hnd hline, imp_iff_right (fun h => (by cases h))]

end Untangle
