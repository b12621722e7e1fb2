import Untangle.Correctness.Attribute.Sensitive
import Untangle.Correctness.Debit

/-!
# `Correctness.Rules` — what approved rules do to a verdict

The rules are read as a set: what they say about a line is no match, one rail on which all matching approved rules
agree, or a conflict (`ruleVerdict_spec`), and none of the three depends on their order or on how often a rule occurs.
On top of a base verdict a rule resolves an abstention, and a conflict takes back a soft verdict
(`rules_resolve_abstentions`). An abstention of the solver keeps the tier of what it contests, so a rule also resolves a
contested tie that is exact.
-/

namespace Untangle

open Lib

variable {U : Unicode} {s : Settings} {index : ReconIndex} {lines : List BankCreditLine} {line : BankCreditLine}
  {rules rules' : List ProposedRule} {rule : ProposedRule}

/-! ## The rules as a set -/

/-- An approved rule of the list matches the line. -/
def Matches (U : Unicode) (rules : List ProposedRule) (line : BankCreditLine) (rule : ProposedRule) : Prop :=
  rule ∈ rules ∧ matchRule U line rule = true

/-- Two lists have the same approved rules, in any order and any number of times. -/
def SameApproved (rules rules' : List ProposedRule) : Prop :=
  ∀ rule, rule.approved = true → (rule ∈ rules ↔ rule ∈ rules')

/-- The matching rules all target one rail. -/
def Agreed (U : Unicode) (rules : List ProposedRule) (line : BankCreditLine) : Prop :=
  ∀ rule rule', Matches U rules line rule → Matches U rules line rule' → rule.targetRail = rule'.targetRail

/-- A rule that is not approved does nothing. -/
theorem approved_of_matchRule (h : matchRule U line rule = true) : rule.approved = true := by
  unfold matchRule at h
  split at h
  · cases h
  · rename_i happroved
    simpa using happroved

theorem mem_matchedRules : rule ∈ matchedRules U rules line ↔ Matches U rules line rule := by
  unfold matchedRules Matches
  rw [(List.perm_insertionSort _ _).mem_iff, List.mem_filter, decide_eq_true_eq]
  exact and_congr_right fun _ => ⟨fun h => h.2, fun h => ⟨approved_of_matchRule h, h⟩⟩

theorem SameApproved.matches (h : SameApproved rules rules') :
    Matches U rules line rule ↔ Matches U rules' line rule :=
  and_congr_left fun hmatch => h rule (approved_of_matchRule hmatch)

theorem SameApproved.agreed (h : SameApproved rules rules') : Agreed U rules line ↔ Agreed U rules' line := by
  unfold Agreed
  simp only [h.matches]

/-- Agreement is what the length of the set of targets tests. -/
theorem agreed_iff (U : Unicode) (rules : List ProposedRule) (line : BankCreditLine) :
    ¬ 1 < ((matchedRules U rules line).map ProposedRule.targetRail).dedup.length ↔
    Agreed U rules line := by
  unfold Agreed
  simp only [← mem_matchedRules]
  constructor
  · intro hlength rule rule' hrule hrule'
    by_contra hne
    apply hlength
    have hsub : [rule.targetRail, rule'.targetRail].Subperm
        ((matchedRules U rules line).map ProposedRule.targetRail).dedup := by
      apply List.subperm_of_subset
      · simpa using hne
      · intro rail hrail
        rw [List.mem_dedup]
        simp only [List.mem_cons, List.not_mem_nil, or_false] at hrail
        rcases hrail with rfl | rfl
        · exact List.mem_map_of_mem hrule
        · exact List.mem_map_of_mem hrule'
    exact hsub.length_le
  · intro hagreed hlength
    have hnodup := List.nodup_dedup ((matchedRules U rules line).map ProposedRule.targetRail)
    have htarget : ∀ rail ∈ ((matchedRules U rules line).map ProposedRule.targetRail).dedup,
        ∃ rule ∈ matchedRules U rules line, rule.targetRail = rail := by
      intro rail hrail
      exact List.mem_map.mp (List.mem_dedup.mp hrail)
    -- the first two targets are distinct
    obtain ⟨rule, hrule, hrail⟩ := htarget _ (List.getElem_mem (Nat.lt_of_succ_lt hlength))
    obtain ⟨rule', hrule', hrail'⟩ := htarget _ (List.getElem_mem hlength)
    have heq := (hrail.symm.trans (hagreed rule rule' hrule hrule')).trans hrail'
    exact absurd (hnodup.getElem_inj_iff.mp heq) Nat.zero_ne_one

/-! ## What they say about a line -/

/-- What a conflict says, and what an agreed rule says. -/
inductive RuleSays (U : Unicode) (rules : List ProposedRule) (line : BankCreditLine) (ra : RailAttribution) : Prop where
  | conflict (hnot : ¬ Agreed U rules line) (hmarked : hasSignal ["rule_conflict"] ra.evidence = true)
      (hverdict : ra.verdict = (line.key, Rail.unknown.value, Tier.none.value, 0, true))
  | agreed (hagreed : Agreed U rules line) (rule : ProposedRule) (hmatches : Matches U rules line rule)
      (hmarked : hasSignal ["rule_conflict"] ra.evidence = false)
      (hverdict : ra.verdict = (line.key, rule.targetRail, Tier.rule.value, 95 / 100, false))

/-- **The rules speak exactly about the lines they match.** -/
theorem ruleVerdict_spec (U : Unicode) (rules : List ProposedRule) (line : BankCreditLine) :
    (∀ rule, ¬ Matches U rules line rule) ∧ ruleVerdict U line (matchedRules U rules line) = none ∨
      ∃ ra, ruleVerdict U line (matchedRules U rules line) = some ra ∧ RuleSays U rules line ra := by
  have hmem : ∀ rule, rule ∈ matchedRules U rules line ↔ Matches U rules line rule := fun _ => mem_matchedRules
  have hagreed := agreed_iff U rules line
  unfold ruleVerdict
  dsimp only
  cases hmatched : matchedRules U rules line with
  | nil =>
      refine Or.inl ⟨fun rule h => ?_, rfl⟩
      rw [← hmem, hmatched] at h
      exact List.not_mem_nil h
  | cons rule rest =>
      rw [hmatched] at hmem hagreed
      refine Or.inr ?_
      dsimp only
      split
      · rename_i hlength
        refine ⟨_, rfl, .conflict (fun h => hagreed.mpr h hlength) ?_ rfl⟩
        simp [hasSignal]
      · rename_i hlength
        refine ⟨_, rfl, .agreed (hagreed.mp hlength) rule ((hmem rule).mp List.mem_cons_self) ?_ rfl⟩
        simp [hasSignal]

theorem verdict_inj {a : RailAttribution} {key rail tier : String} {confidence : ℚ} {abstained : Bool}
    (h : a.verdict = (key, rail, tier, confidence, abstained)) :
    a.lineKey = key ∧ a.rail = rail ∧ a.tier = tier ∧ a.confidence = confidence ∧ a.abstained = abstained := by
  simpa only [RailAttribution.verdict, Prod.mk.injEq] using h

/-- Every rule of an agreement says the same as the first one. -/
theorem RuleSays.same {ra ra' : RailAttribution} (hsame : SameApproved rules rules') (h : RuleSays U rules line ra)
    (h' : RuleSays U rules' line ra') : ra.verdict = ra'.verdict ∧
      hasSignal ["rule_conflict"] ra.evidence = hasSignal ["rule_conflict"] ra'.evidence := by
  cases h with
  | conflict hnot hmarked hverdict =>
      cases h' with
      | conflict _ hmarked' hverdict' => exact ⟨hverdict.trans hverdict'.symm, hmarked.trans hmarked'.symm⟩
      | agreed hagreed => exact absurd (hsame.agreed.mpr hagreed) hnot
  | agreed hagreed rule hmatches hmarked hverdict =>
      cases h' with
      | conflict hnot => exact absurd (hsame.agreed.mp hagreed) hnot
      | agreed _ rule' hmatches' hmarked' hverdict' =>
          refine ⟨?_, hmarked.trans hmarked'.symm⟩
          rw [hverdict, hverdict', hagreed rule rule' hmatches (hsame.matches.mpr hmatches')]

/-- The entry of a line, whose key no other line has. -/
theorem get?_applyApprovedRules (hnd : (lines.map BankCreditLine.key).Nodup) (hline : line ∈ lines) :
    (applyApprovedRules U lines rules).get? line.key =
      if line.isCredit = true then ruleVerdict U line (matchedRules U rules line) else none := by
  unfold applyApprovedRules
  cases hruled : (if line.isCredit = true then ruleVerdict U line (matchedRules U rules line) else none) with
  | none =>
      rw [Dict.get?_eq_none]
      intro hkey
      obtain ⟨ln, hln, heq⟩ := (Dict.mem_keys_gather _ _).mp hkey
      split at heq
      · rename_i hmatched
        obtain rfl := line_ext hnd hln hline (Option.some.inj heq)
        rw [if_pos hmatched.1] at hruled
        rw [hruled] at hmatched
        cases hmatched.2
      · cases heq
  | some ra =>
      split at hruled
      · rename_i hcredit
        refine (Dict.get?_gather_last_of_agree (fun ln : BankCreditLine => if ln.isCredit ∧
          (ruleVerdict U ln (matchedRules U rules ln)).isSome then some ln.key else none) ?_).mpr
          ⟨line, hline, if_pos ⟨hcredit, hruled ▸ rfl⟩, by rw [hruled]; rfl⟩
        intro ln hln ln' hln' key hkey hkey'
        split at hkey
        · split at hkey'
          · rw [line_ext hnd hln hln' (Option.some.inj (hkey.trans hkey'.symm))]
          · cases hkey'
        · cases hkey
      · cases hruled

theorem withRule_nil (a : RailAttribution) : withRule (applyApprovedRules U lines []) a = a := by
  unfold withRule
  cases hget : (applyApprovedRules U lines []).get? a.lineKey with
  | none => rfl
  | some ra =>
      exfalso
      unfold applyApprovedRules at hget
      rw [Dict.get?_gather_last] at hget
      obtain ⟨ln, hlast, _⟩ := Option.map_eq_some_iff.mp hget
      have hkey := (List.mem_filter.mp (List.mem_of_getLast? hlast)).2
      rw [decide_eq_true_eq] at hkey
      split at hkey
      · rename_i hmatched
        cases hmatched.2
      · cases hkey

/-! ## On top of a base verdict -/

/-- What the rules may do to the verdict of a line. -/
structure RuleEffect (U : Unicode) (rules : List ProposedRule) (line : BankCreditLine)
    (base out : RailAttribution) : Prop where
  /-- Only a credit that an approved rule matches is touched. -/
  touched : out ≠ base → line.isCredit = true ∧ ∃ rule, Matches U rules line rule
  /-- An exact tie is touched only where it is contested, and by rules that agree. -/
  tierA : out ≠ base → base.tier = Tier.a.value → base.abstained = true ∧ Agreed U rules line
  /-- A verdict is touched only to take it back over a conflict. -/
  settled : out ≠ base → base.abstained = false → out.rail = Rail.unknown.value ∧ ¬ Agreed U rules line
  /-- The rail comes from the base verdict or a rule; a conflict leaves none. -/
  named : out.rail = base.rail ∨ (∃ rule, Matches U rules line rule ∧ out.rail = rule.targetRail) ∨
    out.rail = Rail.unknown.value ∧ ¬ Agreed U rules line

theorem RuleEffect.refl (a : RailAttribution) : RuleEffect U rules line a a where
  touched h := absurd rfl h
  tierA h := absurd rfl h
  settled h := absurd rfl h
  named := Or.inl rfl

theorem RuleSays.exists_matches {ra : RailAttribution} (h : RuleSays U rules line ra) :
    ∃ rule, Matches U rules line rule := by
  cases h with
  | conflict hnot =>
      by_contra hnone
      exact hnot fun rule _ hrule => absurd ⟨rule, hrule⟩ hnone
  | agreed _ rule hmatches => exact ⟨rule, hmatches⟩

theorem RuleSays.rail {ra : RailAttribution} (h : RuleSays U rules line ra) :
    (∃ rule, Matches U rules line rule ∧ ra.rail = rule.targetRail) ∨
      ra.rail = Rail.unknown.value ∧ ¬ Agreed U rules line := by
  cases h with
  | conflict hnot _ hverdict => exact Or.inr ⟨(verdict_inj hverdict).2.1, hnot⟩
  | agreed _ rule hmatches _ hverdict => exact Or.inl ⟨rule, hmatches, (verdict_inj hverdict).2.1⟩

/-- **One line**: what is merged on top of its base verdict. -/
theorem ruleEffect_withRule (hnd : (lines.map BankCreditLine.key).Nodup) (hline : line ∈ lines) {a : RailAttribution}
    (hkey : a.lineKey = line.key) : RuleEffect U rules line a (withRule (applyApprovedRules U lines rules) a) := by
  unfold withRule
  rw [hkey, get?_applyApprovedRules hnd hline]
  by_cases hcredit : line.isCredit = true
  swap
  · rw [if_neg hcredit]
    exact RuleEffect.refl a
  rw [if_pos hcredit]
  rcases ruleVerdict_spec U rules line with ⟨_, hnone⟩ | ⟨ra, hsome, hruled⟩
  · rw [hnone]
    exact RuleEffect.refl a
  rw [hsome]
  have htouched : line.isCredit = true ∧ ∃ rule, Matches U rules line rule := ⟨hcredit, hruled.exists_matches⟩
  dsimp only
  cases hmarked : hasSignal ["rule_conflict"] ra.evidence with
  | true =>
      have hnot : ¬ Agreed U rules line ∧ ra.rail = Rail.unknown.value := by
        cases hruled with
        | conflict hnot _ hverdict => exact ⟨hnot, (verdict_inj hverdict).2.1⟩
        | agreed _ _ _ hunmarked => exact absurd (hmarked.symm.trans hunmarked) Bool.true_eq_false.mp
      rw [if_pos rfl]
      split
      · exact RuleEffect.refl a
      · rename_i htier
        exact ⟨fun _ => htouched, fun _ h => absurd h htier, fun _ _ => ⟨hnot.2, hnot.1⟩,
          Or.inr hruled.rail⟩
  | false =>
      have hagreed : Agreed U rules line := by
        cases hruled with
        | conflict _ hmarked' => exact absurd (hmarked'.symm.trans hmarked) Bool.true_eq_false.mp
        | agreed hagreed => exact hagreed
      rw [if_neg Bool.false_ne_true]
      split
      · rename_i habstained
        exact ⟨fun _ => htouched, fun _ _ => ⟨habstained, hagreed⟩,
          fun _ hopen => absurd (habstained.symm.trans hopen) Bool.true_eq_false.mp, Or.inr hruled.rail⟩
      · exact RuleEffect.refl a

/-- **The order and the number of the rules do not matter**, nor do those that are not approved. -/
theorem verdict_withRule (hsame : SameApproved rules rules') (hnd : (lines.map BankCreditLine.key).Nodup)
    (hline : line ∈ lines) {a : RailAttribution} (hkey : a.lineKey = line.key) :
    (withRule (applyApprovedRules U lines rules) a).verdict =
      (withRule (applyApprovedRules U lines rules') a).verdict := by
  unfold withRule
  rw [hkey, get?_applyApprovedRules hnd hline, get?_applyApprovedRules hnd hline]
  by_cases hcredit : line.isCredit = true
  swap
  · rw [if_neg hcredit, if_neg hcredit]
  rw [if_pos hcredit, if_pos hcredit]
  rcases ruleVerdict_spec U rules line with ⟨hnot, hnone⟩ | ⟨ra, hsome, hruled⟩ <;>
    rcases ruleVerdict_spec U rules' line with ⟨hnot', hnone'⟩ | ⟨ra', hsome', hruled'⟩
  · rw [hnone, hnone']
  · obtain ⟨rule, hmatches⟩ := hruled'.exists_matches
    exact absurd (hsame.matches.mpr hmatches) (hnot rule)
  · obtain ⟨rule, hmatches⟩ := hruled.exists_matches
    exact absurd (hsame.matches.mp hmatches) (hnot' rule)
  · obtain ⟨hverdict, hmarked⟩ := hruled.same hsame hruled'
    rw [hsome, hsome']
    dsimp only
    rw [hmarked]
    split_ifs
    · rfl
    · exact hverdict
    · exact hverdict
    · rfl

/-! ## A run -/

/-- **Approved rules resolve abstentions, and nothing else they do depends on how they are listed**: on top of the base
    verdicts of a run, a list of rules has the same effect as any other with the same approved rules, and touches a
    verdict only as `RuleEffect` says. -/
theorem rules_resolve_abstentions (U : Unicode) (s : Settings) (index : ReconIndex) (globalSolver : Bool)
    (lines : List BankCreditLine) (hnd : (lines.map BankCreditLine.key).Nodup) :
    ∃ base : BankCreditLine → RailAttribution, ∃ out : List ProposedRule → BankCreditLine → RailAttribution,
      attributeAllRules U s index globalSolver [] lines = .ok (lines.map base) ∧
      (∀ rules, attributeAllRules U s index globalSolver rules lines = .ok (lines.map (out rules))) ∧
      (∀ rules rules', SameApproved rules rules' →
        ∀ line ∈ lines, (out rules line).verdict = (out rules' line).verdict) ∧
      ∀ rules, ∀ line ∈ lines, RuleEffect U rules line (base line) (out rules line) := by
  have hkept := debitsKept_baseVerdict U s index globalSolver hnd
  have hrun := fun rules => attributeAllRules_eq U s index globalSolver rules hnd
  refine ⟨baseVerdict U s index globalSolver lines, fun rules line =>
    withRule (applyApprovedRules U lines rules) (baseVerdict U s index globalSolver lines line), ?_, hrun, ?_, ?_⟩
  · rw [hrun]
    simp only [withRule_nil]
  · intro rules rules' hsame line hline
    exact verdict_withRule hsame hnd hline (hkept.key line hline)
  · intro rules line hline
    exact ruleEffect_withRule hnd hline (hkept.key line hline)

/-- Two credits with the UTR and the net of one settlement. -/
def contestedLines : List BankCreditLine :=
  [creditLine "a" "NEFT 1111111111aaaaaa" 100000, creditLine "b" "NEFT 1111111111aaaaaa" 100000]

def contestedRun (rules : List ProposedRule) : Except ValueError (List RailAttribution) :=
  attributeAllRules asciiUnicode { threshold := 55 / 100, marginThreshold := 1 / 1000 }
    (ReconIndex.ofRows asciiUnicode [settledRow "pay_1" "S1" (some "1111111111aaaaaa") 100000]) true rules
    contestedLines

/-- A rule for every transfer. -/
def transferRule : ProposedRule where
  ruleId := "rule_1"
  targetRail := "direct_upi"
  patternType := "narration_keyword"
  patternValue := "neft"
  approved := true
  approvedBy := some "a"

/-- The two credits under every list of rules. -/
theorem rules_resolve_abstentions_contested :
    ∃ base : BankCreditLine → RailAttribution, ∃ out : List ProposedRule → BankCreditLine → RailAttribution,
      contestedRun [] = .ok (contestedLines.map base) ∧
      (∀ rules, contestedRun rules = .ok (contestedLines.map (out rules))) ∧
      (∀ rules rules', SameApproved rules rules' →
        ∀ line ∈ contestedLines, (out rules line).verdict = (out rules' line).verdict) ∧
      ∀ rules, ∀ line ∈ contestedLines, RuleEffect asciiUnicode rules line (base line) (out rules line) :=
  rules_resolve_abstentions asciiUnicode _ _ true contestedLines (by decide)

/-- **A tie that is exact, and a rule that changes its verdict**: the solver contests the first credit, which keeps its
    tier, and the rule then decides it. -/
theorem contested_tie_resolved :
    ((contestedRun []).toOption.map fun out => out.map fun a => (a.rail, a.confidence, a.tier, a.abstained)) =
        some [("UNKNOWN", 122 / 125, "A", true), ("UNKNOWN", 0, "B", true)] ∧
      ((contestedRun [transferRule]).toOption.map fun out =>
          out.map fun a => (a.rail, a.confidence, a.tier, a.abstained)) =
        some [("direct_upi", 95 / 100, "rule_derived", false), ("direct_upi", 95 / 100, "rule_derived", false)] := by
  decide +kernel

end Untangle
