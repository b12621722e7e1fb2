import Untangle.Correctness.Narrate
import Untangle.Correctness.Solver.ProofGate
import Untangle.Engine.Rules

/-!
# `Correctness.Debit` — what may be written on a debit

Four stages can write a rail on a line. On a debit three of them write nothing of their own: the split reconstruction
and the solver take credits only, and so do the rules (`attributeAllRules_spec`). What remains is the debit's own
classification by a keyword, and the language model, whose guard does not ask for the direction of the line:
`no_debit_iff` says when one of them makes a debit a Razorpay settlement.
-/

namespace Untangle

open Lib

variable {U : Unicode} {s : Settings} {pack : NarrationEvidencePack} {index : ReconIndex}
  {lines : List BankCreditLine} {line : BankCreditLine} {rules : List ProposedRule}

/-! ## The classification of a debit -/

/-- The score of a keyword, the same for every rail of the pack. -/
def keywordScore (pack : NarrationEvidencePack) : ℚ := min (99 / 100) (clip pack.nonRzpPatternWeight)

theorem combine_of_keyword {p : Rail × List EvidenceItem} (hp : p ∈ (narrationRailSignals U pack line).items) :
    combine p.2 = keywordScore pack := by
  obtain ⟨_, detail, hevidence⟩ := evidence_of_keyword hp
  rw [hevidence, combine_singleton]
  rfl

/-- The keywords of the text classify the debit: the rail has a hit, it is the last by name among those that have
    one, and the pack's weight clears the threshold. -/
structure KeywordClass (U : Unicode) (s : Settings) (line : BankCreditLine) (rail : Rail) : Prop where
  hit : rail ∈ (narrationRailSignals U s.pack line).keys
  last : ∀ rail' ∈ (narrationRailSignals U s.pack line).keys, rail'.value ≤ rail.value
  clears : s.threshold ≤ keywordScore s.pack

theorem KeywordClass.unique {rail rail' : Rail} (h : KeywordClass U s line rail) (h' : KeywordClass U s line rail') :
    rail = rail' :=
  Rail.value_injective (le_antisymm (h'.last rail h.hit) (h.last rail' h'.hit))

/-- **A debit is classified by its keywords or not at all.** -/
theorem attributeDebit_spec (U : Unicode) (s : Settings) (line : BankCreditLine) :
    (∃ rail, KeywordClass U s line rail ∧
        (attributeDebit s line (narrationRailSignals U s.pack line)).rail = rail.value) ∨
      (∀ rail, ¬ KeywordClass U s line rail) ∧
        (attributeDebit s line (narrationRailSignals U s.pack line)).rail = Rail.unknown.value := by
  unfold attributeDebit
  cases hbest : bestRail (nonRzpScores (narrationRailSignals U s.pack line)) with
  | none =>
      refine Or.inr ⟨fun rail hclass => ?_, rfl⟩
      obtain ⟨items, hitems⟩ := Dict.exists_get?_of_mem_keys hclass.hit
      have hmem := List.mem_map_of_mem (f := fun p : Rail × List EvidenceItem =>
        (⟨p.1.value, combine p.2, p.2, .b⟩ : RailScore)) (Dict.get?_eq_some.mp hitems)
      rw [show (narrationRailSignals U s.pack line).items.map _ = [] from List.argmax_eq_none.mp hbest] at hmem
      exact absurd hmem List.not_mem_nil
  | some best =>
      obtain ⟨p, hp, rfl⟩ := List.mem_map.mp (List.argmax_mem hbest)
      have hscore := combine_of_keyword hp
      dsimp only
      split
      · rename_i hlow
        refine Or.inr ⟨fun rail hclass => ?_, rfl⟩
        rw [hscore] at hlow
        exact absurd hclass.clears (not_le.mpr hlow)
      · rename_i hclears
        rw [hscore, not_lt] at hclears
        refine Or.inl ⟨p.1, ⟨Dict.mem_keys_of_mem (v := p.2) hp, fun rail hrail => ?_, hclears⟩, rfl⟩
        -- all scores are equal, so the name decides
        obtain ⟨items, hitems⟩ := Dict.exists_get?_of_mem_keys hrail
        have hmem := Dict.get?_eq_some.mp hitems
        have hle := List.le_of_mem_argmax (List.mem_map_of_mem (f := fun p : Rail × List EvidenceItem =>
          (⟨p.1.value, combine p.2, p.2, .b⟩ : RailScore)) hmem) hbest
        rw [Prod.Lex.toLex_le_toLex] at hle
        dsimp only at hle
        rw [hscore, combine_of_keyword hmem] at hle
        exact (hle.resolve_left (lt_irrefl _)).2

theorem debit_razorpay_iff : (attributeDebit s line (narrationRailSignals U s.pack line)).rail =
    Rail.razorpaySettlement.value ↔ KeywordClass U s line .razorpaySettlement := by
  rcases attributeDebit_spec U s line with ⟨rail, hclass, hrail⟩ | ⟨hnone, hrail⟩
  · rw [hrail]
    exact ⟨fun h => Rail.value_injective h ▸ hclass, fun h => congrArg Rail.value (hclass.unique h)⟩
  · rw [hrail]
    exact ⟨fun h => absurd h (by decide), fun h => absurd h (hnone _)⟩

theorem debit_unknown_iff : (attributeDebit s line (narrationRailSignals U s.pack line)).rail = Rail.unknown.value ↔
    ∀ rail, rail ≠ .unknown → ¬ KeywordClass U s line rail := by
  rcases attributeDebit_spec U s line with ⟨rail, hclass, hrail⟩ | ⟨hnone, hrail⟩
  · rw [hrail]
    constructor
    · intro h rail' hne hclass'
      exact hne ((hclass'.unique hclass).trans (Rail.value_injective h))
    · intro h
      by_contra hne
      exact h rail (fun heq => hne (congrArg Rail.value heq)) hclass
  · rw [hrail]
    exact ⟨fun _ rail _ => hnone rail, fun _ => rfl⟩

/-- A debit's own evidence names no rule conflict. -/
theorem attributeDebit_no_conflict :
    hasSignal ["rule_conflict"] (attributeDebit s line (narrationRailSignals U s.pack line)).evidence = false := by
  unfold attributeDebit
  cases hbest : bestRail (nonRzpScores (narrationRailSignals U s.pack line)) with
  | none => rfl
  | some best =>
      obtain ⟨p, hp, rfl⟩ := List.mem_map.mp (List.argmax_mem hbest)
      obtain ⟨_, detail, hevidence⟩ := evidence_of_keyword hp
      have hname : narrationPattern p.1 ≠ "rule_conflict" := by
        cases p.1 <;> decide
      have hnone : hasSignal ["rule_conflict"] p.2 = false := by
        rw [hevidence]
        simp [hasSignal, hname]
      dsimp only
      split <;> exact hnone

theorem lineVerdict_debit (h : line.isCredit = false) :
    lineVerdict U s index line = attributeDebit s line (narrationRailSignals U s.pack line) := by
  unfold lineVerdict lineDecision
  rw [h, if_neg Bool.false_ne_true]
  rfl

/-! ## The stages that take credits only -/

/-- The rules speak about credits, under their keys. -/
theorem applyApprovedRules_spec {key : String} {ra : RailAttribution}
    (h : (applyApprovedRules U lines rules).get? key = some ra) :
    ra.lineKey = key ∧ ∃ line ∈ lines, line.isCredit = true ∧ line.key = key := by
  unfold applyApprovedRules at h
  rw [Dict.get?_gather_last] at h
  obtain ⟨line, hlast, rfl⟩ := Option.map_eq_some_iff.mp h
  obtain ⟨hline, hkey⟩ := List.mem_filter.mp (List.mem_of_getLast? hlast)
  rw [decide_eq_true_eq] at hkey
  split at hkey
  · rename_i hmatched
    obtain ⟨ra, hra⟩ := Option.isSome_iff_exists.mp hmatched.2
    rw [hra, Option.getD_some]
    refine ⟨?_, line, hline, hmatched.1, Option.some.inj hkey⟩
    rw [← Option.some.inj hkey]
    unfold ruleVerdict at hra
    dsimp only at hra
    split at hra
    · cases hra
    · split at hra
      · rw [← Option.some.inj hra]
      · rw [← Option.some.inj hra]
  · cases hkey

theorem lineKey_withRule (a : RailAttribution) :
    (withRule (applyApprovedRules U lines rules) a).lineKey = a.lineKey := by
  unfold withRule
  cases hget : (applyApprovedRules U lines rules).get? a.lineKey with
  | none => rfl
  | some ra =>
      have hkey := (applyApprovedRules_spec hget).1
      dsimp only
      split
      · split
        · rfl
        · exact hkey
      · split
        · exact hkey
        · rfl

/-- What a stage returns: one attribution for each line under its key, and a debit's own. -/
structure DebitsKept (U : Unicode) (s : Settings) (index : ReconIndex) (lines : List BankCreditLine)
    (verdict : BankCreditLine → RailAttribution) : Prop where
  key : ∀ line ∈ lines, (verdict line).lineKey = line.key
  debit : ∀ line ∈ lines, line.isCredit = false →
    verdict line = attributeDebit s line (narrationRailSignals U s.pack line)

/-- One attribution for each line. -/
theorem DebitsKept.nodup {verdict : BankCreditLine → RailAttribution} (h : DebitsKept U s index lines verdict)
    (hnd : (lines.map BankCreditLine.key).Nodup) : ((lines.map verdict).map RailAttribution.lineKey).Nodup := by
  have hkeys : (lines.map verdict).map RailAttribution.lineKey = lines.map BankCreditLine.key := by
    rw [List.map_map]
    exact List.map_congr_left h.key
  rwa [hkeys]

/-- A debit is no leg. -/
theorem debitsKept_verdictOf (hnd : (lines.map BankCreditLine.key).Nodup) :
    DebitsKept U s index lines (verdictOf U s index lines) where
  key := fun line _ => lineKey_verdictOf line
  debit := by
    intro line hline hdebit
    rw [verdictOf_of_not_lifted hnd, lineVerdict_debit hdebit]
    intro hlifted
    have hcredit := (mem_splitCandidates.mp (hlifted.mem hnd hline)).2.2.isCredit
    rw [hdebit] at hcredit
    cases hcredit

/-- What the solver returns for a line. -/
def solvedVerdict (U : Unicode) (s : Settings) (index : ReconIndex) (lines : List BankCreditLine)
    (line : BankCreditLine) : RailAttribution :=
  match (solveAssignment U (buildCandidateGraph U { threshold := some s.threshold, pack := s.pack } index lines)
    s.marginThreshold maxBranchSteps).verdicts.get? line.key with
  | none => lineVerdict U s index line
  | some v => solvedAttribution line.key v (some (lineVerdict U s index line))

/-- **One attribution for each line**: that of the graph, or the base attribution where the graph has none. -/
theorem runGlobalSolver_map {gs : GraphSettings} {margin : ℚ} {base : BankCreditLine → RailAttribution}
    (hnd : (lines.map BankCreditLine.key).Nodup) (hkey : ∀ line ∈ lines, (base line).lineKey = line.key) :
    (runGlobalSolver U gs margin index lines (lines.map base)).1 = lines.map fun line =>
      ((solveAssignment U (buildCandidateGraph U gs index lines) margin maxBranchSteps).verdicts.get? line.key).elim
        (base line) fun v => solvedAttribution line.key v (some (base line)) := by
  have hbase : ∀ line ∈ lines, (Dict.gather (fun a => some a.lineKey) (fun (a : RailAttribution) _ => a)
      (lines.map base)).get? line.key = some (base line) := by
    intro line hline
    refine (Dict.get?_gather_last_of_agree (fun a : RailAttribution => some a.lineKey) ?_).mpr
      ⟨_, List.mem_map_of_mem hline, congrArg some (hkey line hline), rfl⟩
    intro a ha a' ha' key hkeya hkeya'
    obtain ⟨ln, hln, rfl⟩ := List.mem_map.mp ha
    obtain ⟨ln', hln', rfl⟩ := List.mem_map.mp ha'
    rw [hkey ln hln] at hkeya
    rw [hkey ln' hln'] at hkeya'
    rw [line_ext hnd hln hln' (Option.some.inj (hkeya.trans hkeya'.symm))]
  unfold runGlobalSolver
  refine (List.filterMap_congr ?_).trans (congrFun List.filterMap_eq_map lines)
  intro line hline
  rw [hbase line hline]
  dsimp only [Function.comp]
  cases (solveAssignment U (buildCandidateGraph U gs index lines) margin maxBranchSteps).verdicts.get? line.key <;> rfl

theorem attributeAllSolved_map (hnd : (lines.map BankCreditLine.key).Nodup) :
    attributeAllSolved U s index lines = .ok (lines.map (solvedVerdict U s index lines)) := by
  rw [attributeAllSolved_eq, runGlobalSolver_map hnd fun line _ => lineKey_lineVerdict U s index line]
  refine congrArg Except.ok (List.map_congr_left fun line _ => ?_)
  unfold solvedVerdict
  cases (solveAssignment U (buildCandidateGraph U { threshold := some s.threshold, pack := s.pack } index lines)
    s.marginThreshold maxBranchSteps).verdicts.get? line.key <;> rfl

/-- The graph has no node for a debit. -/
theorem debitsKept_solvedVerdict (hnd : (lines.map BankCreditLine.key).Nodup) :
    DebitsKept U s index lines (solvedVerdict U s index lines) where
  key := by
    intro line _
    unfold solvedVerdict
    split
    · exact lineKey_lineVerdict U s index line
    · exact lineKey_solvedAttribution _ _ _
  debit := by
    intro line hline hdebit
    unfold solvedVerdict
    split
    · exact lineVerdict_debit hdebit
    · rename_i v hv
      obtain ⟨hkey, _⟩ := get?_verdicts.mp hv
      unfold buildCandidateGraph creditNodes at hkey
      obtain ⟨ln, hln, hnode⟩ := (Dict.mem_keys_gather _ _).mp hkey
      split at hnode
      · rename_i hcredit
        rw [line_ext hnd hln hline (Option.some.inj hnode)] at hcredit
        unfold isGraphCredit at hcredit
        rw [hdebit, Bool.false_and] at hcredit
        cases hcredit
      · cases hnode

/-- The rules leave the debits alone. -/
theorem DebitsKept.withRule {verdict : BankCreditLine → RailAttribution} (h : DebitsKept U s index lines verdict)
    (hnd : (lines.map BankCreditLine.key).Nodup) :
    DebitsKept U s index lines fun line => withRule (applyApprovedRules U lines rules) (verdict line) where
  key := fun line hline => (lineKey_withRule _).trans (h.key line hline)
  debit := by
    intro line hline hdebit
    rw [← h.debit line hline hdebit]
    unfold Untangle.withRule
    cases hget : (applyApprovedRules U lines rules).get? (verdict line).lineKey with
    | none => rfl
    | some ra =>
        obtain ⟨_, ln, hln, hcredit, hkey⟩ := applyApprovedRules_spec hget
        rw [h.key line hline] at hkey
        rw [line_ext hnd hln hline hkey, hdebit] at hcredit
        cases hcredit

/-- The verdict of a line before the rules. -/
def baseVerdict (U : Unicode) (s : Settings) (index : ReconIndex) (globalSolver : Bool) (lines : List BankCreditLine) :
    BankCreditLine → RailAttribution :=
  if globalSolver then solvedVerdict U s index lines else verdictOf U s index lines

/-- The rules are merged into the base verdicts, line by line. -/
theorem attributeAllRules_eq (U : Unicode) (s : Settings) (index : ReconIndex) (globalSolver : Bool)
    (rules : List ProposedRule) (hnd : (lines.map BankCreditLine.key).Nodup) :
    attributeAllRules U s index globalSolver rules lines = .ok (lines.map fun line =>
      withRule (applyApprovedRules U lines rules) (baseVerdict U s index globalSolver lines line)) := by
  unfold attributeAllRules baseVerdict
  cases globalSolver with
  | true =>
      rw [if_pos rfl, attributeAllSolved_map hnd]
      show Except.ok _ = _
      rw [List.map_map]
      rfl
  | false =>
      rw [if_neg Bool.false_ne_true, attributeAll_eq]
      show Except.ok _ = _
      rw [List.map_map]
      rfl

theorem debitsKept_baseVerdict (U : Unicode) (s : Settings) (index : ReconIndex) (globalSolver : Bool)
    (hnd : (lines.map BankCreditLine.key).Nodup) : DebitsKept U s index lines (baseVerdict U s index globalSolver lines) := by
  cases globalSolver with
  | true => exact debitsKept_solvedVerdict hnd
  | false => exact debitsKept_verdictOf hnd

/-- **`attribute_all` decides every line once**, and a debit by its keywords alone. -/
theorem attributeAllRules_spec (U : Unicode) (s : Settings) (index : ReconIndex) (globalSolver : Bool)
    (rules : List ProposedRule) (hnd : (lines.map BankCreditLine.key).Nodup) :
    ∃ verdict, attributeAllRules U s index globalSolver rules lines = .ok (lines.map verdict) ∧
      DebitsKept U s index lines verdict :=
  ⟨_, attributeAllRules_eq U s index globalSolver rules hnd,
    (debitsKept_baseVerdict U s index globalSolver hnd).withRule hnd⟩

/-! ## The model -/

/-- The signals of a debit name no amount, so any of them satisfies the guard. -/
theorem confirms_debit (hdebit : line.isCredit = false) :
    confirms U index Rail.razorpaySettlement.value line = true ↔
      (truthy (defaultNarrationPack.hasDecoyMarker U line)).isNone ∧
        razorpaySignals U defaultNarrationPack index line ≠ [] := by
  have hamount : amountSignals index line = [] := by
    unfold amountSignals
    rw [hdebit]
    rfl
  have hbeyond : ∀ e ∈ razorpaySignals U defaultNarrationPack index line, e.signal ∉ amountAgreements := by
    intro e he
    rcases mem_razorpaySignals he with hutr | hamt | hname
    · rcases mem_utrSignals hutr with ⟨_, _, rfl⟩ | ⟨_, tie, _, rfl⟩
      · exact show ("utr_exact" : String) ∉ amountAgreements by decide
      · rcases signal_suffixTie (U := U) tie with hname | hname <;> rw [hname] <;> decide
    · rw [hamount] at hamt
      exact absurd hamt List.not_mem_nil
    · intro hmem
      have hdisjoint : ∀ signal ∈ ["narration_brand_rzp", "ifsc_ratn", "settlement_ref"],
          signal ∉ amountAgreements := by decide
      exact hdisjoint _ hname hmem
  rw [confirms_razorpay]
  constructor
  · rintro (⟨hdecoy, e, he, _⟩ | ⟨hdecoy, ⟨e, he, _⟩, _⟩)
    · exact ⟨hdecoy, List.ne_nil_of_mem he⟩
    · exact ⟨hdecoy, List.ne_nil_of_mem he⟩
  · rintro ⟨hdecoy, hne⟩
    obtain ⟨e, he⟩ := List.exists_mem_of_ne_nil _ hne
    exact Or.inl ⟨hdecoy, e, he, hbeyond e he⟩

/-- The model turns a debit: no keyword classifies it, it has a narration without a decoy, some signal of a Razorpay
    settlement, and the answer names Razorpay. -/
structure ModelTurns (U : Unicode) (railOrder : List String) (s : Settings) (index : ReconIndex)
    (line : BankCreditLine) (answer : Option String) : Prop where
  unclassified : ∀ rail, rail ≠ .unknown → ¬ KeywordClass U s line rail
  narrated : line.narration ≠ ""
  noDecoy : (truthy (defaultNarrationPack.hasDecoyMarker U line)).isNone
  signalled : razorpaySignals U defaultNarrationPack index line ≠ []
  named : answer.bind (parseRail U railOrder) = some Rail.razorpaySettlement.value

theorem get?_linesByKey (hnd : (lines.map BankCreditLine.key).Nodup) (hline : line ∈ lines) :
    (linesByKey lines).dict.get? line.key = some line := by
  refine (Dict.get?_gather_last_of_agree (fun ln : BankCreditLine => some ln.key) ?_).mpr ⟨line, hline, rfl, rfl⟩
  intro ln hln ln' hln' key hkey hkey'
  exact line_ext hnd hln hln' (Option.some.inj (hkey.trans hkey'.symm))

/-- What the model makes of a debit. -/
theorem resolveUnknown_debit {railOrder : List String} {confidence : ℚ} {answer : Option String}
    {a : RailAttribution} (hnd : (lines.map BankCreditLine.key).Nodup) (hline : line ∈ lines)
    (hdebit : line.isCredit = false) (hkey : a.lineKey = line.key)
    (ha : a = attributeDebit s line (narrationRailSignals U s.pack line)) :
    (resolveUnknown U railOrder index (linesByKey lines) confidence a answer).rail = Rail.razorpaySettlement.value ↔
      KeywordClass U s line .razorpaySettlement ∨ ModelTurns U railOrder s index line answer := by
  have hget := get?_linesByKey hnd hline
  cases hasked : putToModel (linesByKey lines) a with
  | none =>
      rw [resolveUnknown_of_none hasked, ha, debit_razorpay_iff]
      refine ⟨Or.inl, fun h => h.resolve_right fun hturns => ?_⟩
      -- an unclassified debit with a narration is put to the model
      have hsome : putToModel (linesByKey lines) a = some line := by
        apply putToModel_eq_some.mpr
        rw [hkey, ha]
        exact ⟨debit_unknown_iff.mpr hturns.unclassified, attributeDebit_no_conflict, hget, hturns.narrated⟩
      rw [hasked] at hsome
      cases hsome
  | some ln =>
      obtain ⟨hunknown, _, hln, hnarrated⟩ := putToModel_eq_some.mp hasked
      rw [hkey, hget] at hln
      obtain rfl := Option.some.inj hln
      rw [resolveUnknown_razorpay hasked, confirms_debit hdebit]
      rw [ha] at hunknown
      have hunclassified := debit_unknown_iff.mp hunknown
      constructor
      · rintro ⟨hnamed, hdecoy, hsignals⟩
        exact Or.inr ⟨hunclassified, hnarrated, hdecoy, hsignals, hnamed⟩
      · rintro (hclass | hturns)
        · exact absurd hclass (hunclassified _ (by decide))
        · exact ⟨hturns.named, hturns.noDecoy, hturns.signalled⟩

/-! ## No debit is a settlement -/

/-- No debit has the rail of a Razorpay settlement. -/
def NoDebit (lines : List BankCreditLine) (out : List RailAttribution) : Prop :=
  ∀ a ∈ out, a.rail = Rail.razorpaySettlement.value → ∀ line ∈ lines, line.key = a.lineKey → line.isCredit = true

/-- **No debit becomes a Razorpay settlement** exactly if no debit is classified so by a keyword of the pack, and,
    with the model on, none is turned by it. -/
theorem no_debit_iff (U : Unicode) (railOrder : List String) (s : Settings) (index : ReconIndex) (globalSolver : Bool)
    (rules : List ProposedRule) (enabled : Bool) (confidence : ℚ) (answers : Nat → Option String)
    (lines : List BankCreditLine) (hnd : (lines.map BankCreditLine.key).Nodup) :
    ∃ base, attributeAllRules U s index globalSolver rules lines = .ok base ∧
      (NoDebit lines (resolveUnknowns U railOrder index (linesByKey lines) enabled confidence answers base) ↔
        ∀ (i : Nat) (line : BankCreditLine), lines[i]? = some line → line.isCredit = false →
          ¬ KeywordClass U s line .razorpaySettlement ∧
            ¬ (enabled = true ∧ ModelTurns U railOrder s index line (answers i))) := by
  obtain ⟨verdict, hbase, hkept⟩ := attributeAllRules_spec U s index globalSolver rules hnd
  refine ⟨_, hbase, ?_⟩
  -- the attribution at a position is the line's own, put to the model when it is on
  have hat : ∀ i : Nat, (resolveUnknowns U railOrder index (linesByKey lines) enabled confidence answers
      (lines.map verdict))[i]? = lines[i]?.map fun line =>
        if enabled then resolveUnknown U railOrder index (linesByKey lines) confidence (verdict line) (answers i)
        else verdict line := by
    intro i
    cases enabled with
    | true =>
        rw [getElem?_resolveUnknowns, List.getElem?_map, Option.map_map]
        rfl
    | false => exact List.getElem?_map
  have hkeyat : ∀ i line, line ∈ lines → (if enabled then resolveUnknown U railOrder index (linesByKey lines)
      confidence (verdict line) (answers i) else verdict line).lineKey = line.key := by
    intro i line hline
    split
    · exact lineKey_resolveUnknown.trans (hkept.key line hline)
    · exact hkept.key line hline
  have hrailat : ∀ i line, line ∈ lines → line.isCredit = false → ((if enabled then resolveUnknown U railOrder index
      (linesByKey lines) confidence (verdict line) (answers i) else verdict line).rail =
        Rail.razorpaySettlement.value ↔ KeywordClass U s line .razorpaySettlement ∨
          enabled = true ∧ ModelTurns U railOrder s index line (answers i)) := by
    intro i line hline hdebit
    cases enabled with
    | true =>
        rw [if_pos rfl, resolveUnknown_debit hnd hline hdebit (hkept.key line hline) (hkept.debit line hline hdebit)]
        simp
    | false =>
        rw [if_neg Bool.false_ne_true, hkept.debit line hline hdebit, debit_razorpay_iff]
        simp
  constructor
  · intro hno i line hi hdebit
    have hline := List.mem_of_getElem? hi
    rw [← not_or, ← hrailat i line hline hdebit]
    intro hrail
    have hmem := List.mem_of_getElem? ((hat i).trans (congrArg _ hi))
    have hcredit := hno _ hmem hrail line hline (hkeyat i line hline).symm
    rw [hdebit] at hcredit
    cases hcredit
  · intro hno a ha hrail line hline hkey
    obtain ⟨i, hi⟩ := List.mem_iff_getElem?.mp ha
    rw [hat i] at hi
    obtain ⟨ln, hln, rfl⟩ := Option.map_eq_some_iff.mp hi
    have hmem := List.mem_of_getElem? hln
    rw [hkeyat i ln hmem] at hkey
    obtain rfl := line_ext hnd hline hmem hkey
    by_contra hcredit
    rw [Bool.not_eq_true] at hcredit
    have hnone := hno i line hln hcredit
    rcases (hrailat i line hline hcredit).mp hrail with hclass | hturns
    · exact hnone.1 hclass
    · exact hnone.2 hturns

/-! ### A debit that quotes a settlement's UTR -/

def utrDebit : BankCreditLine := { creditLine "k" "NEFT 1111111111aaaaaa" (-5000) with isCredit := false }

def utrReport : List ReconRow := [settledRow "pay_1" "S1" (some "1111111111aaaaaa") 100000]

/-- The hypothesis of `no_debit_iff` holds of a statement of that one line. -/
theorem no_debit_iff_utr : ∃ base,
    attributeAllRules asciiUnicode ⟨11 / 20, 0, false, defaultNarrationPack⟩
        (ReconIndex.ofRows asciiUnicode utrReport) false [] [utrDebit] = .ok base ∧
      (NoDebit [utrDebit] (resolveUnknowns asciiUnicode validRails (ReconIndex.ofRows asciiUnicode utrReport)
          (linesByKey [utrDebit]) true (6 / 10) (fun _ => some "razorpay_settlement") base) ↔
        ∀ (i : Nat) (line : BankCreditLine), [utrDebit][i]? = some line → line.isCredit = false →
          ¬ KeywordClass asciiUnicode ⟨11 / 20, 0, false, defaultNarrationPack⟩ line .razorpaySettlement ∧
            ¬ (true = true ∧ ModelTurns asciiUnicode validRails ⟨11 / 20, 0, false, defaultNarrationPack⟩
              (ReconIndex.ofRows asciiUnicode utrReport) line (some "razorpay_settlement"))) :=
  no_debit_iff asciiUnicode validRails ⟨11 / 20, 0, false, defaultNarrationPack⟩
    (ReconIndex.ofRows asciiUnicode utrReport) false [] true (6 / 10) (fun _ => some "razorpay_settlement") [utrDebit]
    (by decide)

/-- **The model turns a debit**: its reference quotes a settlement's UTR, the engine abstains on it, and the guard
    confirms the model's proposal. -/
theorem model_turns_debit : ∃ base,
    attributeAllRules asciiUnicode ⟨11 / 20, 0, false, defaultNarrationPack⟩
        (ReconIndex.ofRows asciiUnicode utrReport) false [] [utrDebit] = .ok base ∧
      base.map RailAttribution.rail = ["UNKNOWN"] ∧
      ¬ NoDebit [utrDebit] (resolveUnknowns asciiUnicode validRails (ReconIndex.ofRows asciiUnicode utrReport)
        (linesByKey [utrDebit]) true (6 / 10) (fun _ => some "razorpay_settlement") base) := by
  have hrun : (attributeAllRules asciiUnicode ⟨11 / 20, 0, false, defaultNarrationPack⟩
      (ReconIndex.ofRows asciiUnicode utrReport) false [] [utrDebit]).map (fun base =>
        (base.map RailAttribution.rail, (resolveUnknowns asciiUnicode validRails
          (ReconIndex.ofRows asciiUnicode utrReport) (linesByKey [utrDebit]) true (6 / 10)
          (fun _ => some "razorpay_settlement") base).map fun a => (a.lineKey, a.rail))) =
      .ok (["UNKNOWN"], [("k", "razorpay_settlement")]) := by decide +kernel
  have hnd : ([utrDebit].map BankCreditLine.key).Nodup := by decide
  obtain ⟨verdict, hbase, _⟩ := attributeAllRules_spec asciiUnicode ⟨11 / 20, 0, false, defaultNarrationPack⟩
    (ReconIndex.ofRows asciiUnicode utrReport) false [] hnd
  rw [hbase] at hrun
  obtain ⟨hrails, hturned⟩ := Prod.mk.inj (Except.ok.inj hrun)
  refine ⟨_, hbase, hrails, fun hno => ?_⟩
  obtain ⟨a, ha, hpair⟩ := List.map_eq_singleton_iff.mp hturned
  obtain ⟨hkey, hrail⟩ := Prod.mk.inj hpair
  have hcredit := hno a (ha ▸ List.mem_singleton_self a) hrail utrDebit (List.mem_singleton_self _) hkey.symm
  cases hcredit

end Untangle
