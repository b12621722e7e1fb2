import Untangle.Engine.Narrate

/-!
# `Correctness.Narrate` — what the language model can change

The model's answer reaches an attribution only through `resolveUnknown`, and a Razorpay proposal only through
`confirms`. `LlmGuarded` is what the tier promises of a whole run, `llm_guarded_iff` the exact condition: the guard
subtracts the names of the amount signals, and one of them is not on its list.
-/

namespace Untangle

open Lib

section Narrate

variable {U : Unicode} {railOrder : List String} {index : ReconIndex} {lines : LinesByKey} {a b : RailAttribution}
  {line : BankCreditLine} {confidence : ℚ} {answer : Option String}

theorem putToModel_eq_some : putToModel lines a = some line ↔
    a.rail = Rail.unknown.value ∧ hasSignal ["rule_conflict"] a.evidence = false ∧
      lines.dict.get? a.lineKey = some line ∧ line.narration ≠ "" := by
  unfold putToModel
  by_cases h : a.rail ≠ Rail.unknown.value ∨ hasSignal ["rule_conflict"] a.evidence
  · rw [if_pos h]
    constructor
    · intro hnone
      cases hnone
    · rintro ⟨hrail, hconflict, _⟩
      rcases h with hne | hsome
      · exact absurd hrail hne
      · rw [hconflict] at hsome
        cases hsome
  · rw [if_neg h, Option.filter_eq_some_iff, decide_eq_true_eq]
    rw [not_or, not_not, Bool.not_eq_true] at h
    exact ⟨fun hget => ⟨h.1, h.2, hget⟩, fun hall => hall.2.2⟩

/-- What is not put to the model stays as it is. -/
theorem resolveUnknown_of_none (h : putToModel lines a = none) :
    resolveUnknown U railOrder index lines confidence a answer = a := by
  unfold resolveUnknown
  rw [h]

/-- A Razorpay verdict on what was put to the model is a confirmed proposal. -/
theorem resolveUnknown_razorpay (h : putToModel lines a = some line) :
    (resolveUnknown U railOrder index lines confidence a answer).rail = Rail.razorpaySettlement.value ↔
      answer.bind (parseRail U railOrder) = some Rail.razorpaySettlement.value ∧
        confirms U index Rail.razorpaySettlement.value line = true := by
  have hunknown : a.rail ≠ Rail.razorpaySettlement.value := by
    rw [(putToModel_eq_some.mp h).1]
    decide
  unfold resolveUnknown
  rw [h]
  dsimp only
  cases hproposal : answer.bind (parseRail U railOrder) with
  | none =>
      constructor
      · intro hrail
        exact absurd hrail hunknown
      · rintro ⟨hnone, _⟩
        cases hnone
  | some proposal =>
      dsimp only
      split
      · rename_i hconfirmed
        constructor
        · intro hrail
          have heq : proposal = Rail.razorpaySettlement.value := hrail
          exact ⟨congrArg some heq, heq ▸ hconfirmed.2⟩
        · rintro ⟨heq, _⟩
          exact Option.some.inj heq
      · rename_i hrefused
        constructor
        · intro hrail
          exact absurd hrail hunknown
        · rintro ⟨heq, hconfirms⟩
          rw [Option.some.inj heq] at hrefused
          exact absurd (And.intro (by decide) hconfirms) hrefused

theorem lineKey_resolveUnknown : (resolveUnknown U railOrder index lines confidence a answer).lineKey = a.lineKey := by
  unfold resolveUnknown
  split
  · rfl
  · split
    · rfl
    · split <;> rfl

theorem getElem?_resolveUnknowns {answers : Nat → Option String} {attributions : List RailAttribution} {i : Nat} :
    (resolveUnknowns U railOrder index lines true confidence answers attributions)[i]? =
      attributions[i]?.map fun a => resolveUnknown U railOrder index lines confidence a (answers i) := by
  unfold resolveUnknowns
  rw [if_pos rfl, List.getElem?_mapIdx]

end Narrate

/-! ## The guard -/

/-- The signals that are an amount agreement, with one or several settlement nets, or value-date proximity. -/
def amountAgreements : List String := ["amount_corr", "amount_corr_multi", "value_date_proximity"]

/-- No decoy, and a signal beyond the amount. -/
def Substantive (U : Unicode) (index : ReconIndex) (line : BankCreditLine) : Prop :=
  (truthy (defaultNarrationPack.hasDecoyMarker U line)).isNone ∧
    ∃ e ∈ razorpaySignals U defaultNarrationPack index line, e.signal ∉ amountAgreements

/-- The line agrees in amount with several settlements, and nothing but the amount speaks for it. -/
def AmountsAlone (U : Unicode) (index : ReconIndex) (line : BankCreditLine) : Prop :=
  (∃ e ∈ razorpaySignals U defaultNarrationPack index line, e.signal = "amount_corr_multi") ∧
    ∀ e ∈ razorpaySignals U defaultNarrationPack index line, e.signal ∈ amountAgreements

/-- The guard lets through what is substantive, and the agreement with several settlements. -/
theorem confirms_razorpay {U : Unicode} {index : ReconIndex} {line : BankCreditLine} :
    confirms U index Rail.razorpaySettlement.value line = true ↔
      Substantive U index line ∨
        (truthy (defaultNarrationPack.hasDecoyMarker U line)).isNone ∧ AmountsAlone U index line := by
  have hnames : ∀ signal : String, signal ∉ ["amount_corr", "value_date_proximity"] ↔
      signal ∉ amountAgreements ∨ signal = "amount_corr_multi" := by
    intro signal
    simp only [amountAgreements, List.mem_cons, List.not_mem_nil, or_false]
    by_cases hmulti : signal = "amount_corr_multi"
    · subst hmulti
      decide
    · simp [hmulti]
  unfold confirms
  rw [if_pos rfl, Bool.and_eq_true, List.any_eq_true]
  simp only [decide_eq_true_eq, hnames]
  unfold Substantive AmountsAlone
  constructor
  · rintro ⟨hdecoy, e, he, hname⟩
    by_cases hbeyond : ∃ e ∈ razorpaySignals U defaultNarrationPack index line, e.signal ∉ amountAgreements
    · exact Or.inl ⟨hdecoy, hbeyond⟩
    · have hall : ∀ e ∈ razorpaySignals U defaultNarrationPack index line, e.signal ∈ amountAgreements :=
        fun e' he' => by_contra fun hout => hbeyond ⟨e', he', hout⟩
      exact Or.inr ⟨hdecoy, ⟨e, he, hname.resolve_left fun hout => hout (hall e he)⟩, hall⟩
  · rintro (⟨hdecoy, e, he, hout⟩ | ⟨hdecoy, ⟨e, he, hmulti⟩, _⟩)
    · exact ⟨hdecoy, e, he, Or.inl hout⟩
    · exact ⟨hdecoy, e, he, Or.inr hmulti⟩

/-- **What the tier promises**: order and length are kept, decided and contested attributions are left alone, and an
    UNKNOWN line becomes Razorpay on substantive evidence only. -/
structure LlmGuarded (U : Unicode) (index : ReconIndex) (lines : LinesByKey)
    (attributions out : List RailAttribution) : Prop where
  length : out.length = attributions.length
  key : ∀ (i : Nat) (a b : RailAttribution), attributions[i]? = some a → out[i]? = some b →
    b.lineKey = a.lineKey
  untouched : ∀ (i : Nat) (a b : RailAttribution), attributions[i]? = some a → out[i]? = some b →
    a.rail ≠ Rail.unknown.value ∨ hasSignal ["rule_conflict"] a.evidence = true → b = a
  substantive : ∀ (i : Nat) (a b : RailAttribution), attributions[i]? = some a → out[i]? = some b →
    a.rail = Rail.unknown.value → b.rail = Rail.razorpaySettlement.value →
      ∃ line, lines.dict.get? a.lineKey = some line ∧ Substantive U index line

/-- The model names Razorpay for an UNKNOWN line that nothing but several amounts speaks for. -/
structure AmountsProposal (U : Unicode) (railOrder : List String) (index : ReconIndex) (lines : LinesByKey)
    (a : RailAttribution) (answer : Option String) (line : BankCreditLine) : Prop where
  asked : putToModel lines a = some line
  named : answer.bind (parseRail U railOrder) = some Rail.razorpaySettlement.value
  noDecoy : (truthy (defaultNarrationPack.hasDecoyMarker U line)).isNone
  alone : AmountsAlone U index line

/-- **The tier keeps its promise** exactly when it is off or meets no such proposal. -/
theorem llm_guarded_iff (U : Unicode) (railOrder : List String) (index : ReconIndex) (lines : LinesByKey)
    (enabled : Bool) (confidence : ℚ) (answers : Nat → Option String) (attributions : List RailAttribution) :
    LlmGuarded U index lines attributions
        (resolveUnknowns U railOrder index lines enabled confidence answers attributions) ↔
      enabled = true → ∀ (i : Nat) (a : RailAttribution), attributions[i]? = some a → ∀ line,
        ¬ AmountsProposal U railOrder index lines a (answers i) line := by
  cases enabled with
  | false =>
      have hoff : resolveUnknowns U railOrder index lines false confidence answers attributions = attributions := rfl
      rw [hoff]
      refine ⟨fun _ hon => absurd hon (by decide), fun _ => ⟨rfl, ?_, ?_, ?_⟩⟩
      · intro i a b ha hb
        rw [ha] at hb
        rw [Option.some.inj hb]
      · intro i a b ha hb _
        rw [ha] at hb
        exact (Option.some.inj hb).symm
      · intro i a b ha hb hunknown hrail
        rw [ha] at hb
        rw [← Option.some.inj hb, hunknown] at hrail
        exact absurd hrail (by decide)
  | true =>
      constructor
      · intro hguarded _ i a ha line hproposal
        have hrail : (resolveUnknown U railOrder index lines confidence a (answers i)).rail =
            Rail.razorpaySettlement.value := by
          apply (resolveUnknown_razorpay hproposal.asked).mpr
          exact ⟨hproposal.named, confirms_razorpay.mpr (Or.inr ⟨hproposal.noDecoy, hproposal.alone⟩)⟩
        obtain ⟨hunknown, _, hline, _⟩ := putToModel_eq_some.mp hproposal.asked
        obtain ⟨line', hline', _, e, he, hout⟩ := hguarded.substantive i a _ ha
          (by rw [getElem?_resolveUnknowns, ha]; rfl) hunknown hrail
        rw [hline] at hline'
        obtain rfl := Option.some.inj hline'
        exact hout (hproposal.alone.2 e he)
      · intro hnone
        have hat : ∀ (i : Nat) (a b : RailAttribution), attributions[i]? = some a →
            (resolveUnknowns U railOrder index lines true confidence answers attributions)[i]? = some b →
              b = resolveUnknown U railOrder index lines confidence a (answers i) := by
          intro i a b ha hb
          rw [getElem?_resolveUnknowns, ha] at hb
          exact (Option.some.inj hb).symm
        refine ⟨List.length_mapIdx, ?_, ?_, ?_⟩
        · intro i a b ha hb
          rw [hat i a b ha hb]
          exact lineKey_resolveUnknown
        · intro i a b ha hb huntouched
          rw [hat i a b ha hb]
          apply resolveUnknown_of_none
          unfold putToModel
          rw [if_pos huntouched]
        · intro i a b ha hb hunknown hrail
          rw [hat i a b ha hb] at hrail
          cases hasked : putToModel lines a with
          | none =>
              rw [resolveUnknown_of_none hasked, hunknown] at hrail
              exact absurd hrail (by decide)
          | some line =>
              obtain ⟨hnamed, hconfirms⟩ := (resolveUnknown_razorpay hasked).mp hrail
              refine ⟨line, (putToModel_eq_some.mp hasked).2.2.1, ?_⟩
              exact (confirms_razorpay.mp hconfirms).resolve_right fun hamounts =>
                hnone rfl i a ha line ⟨hasked, hnamed, hamounts.1, hamounts.2⟩

/-! ## A proposal on the amount alone -/

/-- A credit without text of its own, and two settlements of its amount. -/
def twinReport : List ReconRow := [settledRow "pay_1" "S1" none 100000, settledRow "pay_2" "S2" none 100000]

def twinCredit : BankCreditLine := creditLine "a" "NEFT" 100000

/-- **On the amount alone**: the model names Razorpay for a credit that two settlements' nets agree with, and the
    guard confirms it. -/
theorem amount_alone_confirmed :
    ((razorpaySignals asciiUnicode defaultNarrationPack (ReconIndex.ofRows asciiUnicode twinReport) twinCredit).map
        EvidenceItem.signal = ["amount_corr_multi", "value_date_proximity"] ∧
      (resolveUnknowns asciiUnicode validRails (ReconIndex.ofRows asciiUnicode twinReport) (linesByKey [twinCredit])
        true (6 / 10) (fun _ => some "razorpay_settlement") [abstain twinCredit 0 []]).map RailAttribution.rail =
          ["razorpay_settlement"]) ∧
      ¬ LlmGuarded asciiUnicode (ReconIndex.ofRows asciiUnicode twinReport) (linesByKey [twinCredit])
        [abstain twinCredit 0 []]
        (resolveUnknowns asciiUnicode validRails (ReconIndex.ofRows asciiUnicode twinReport) (linesByKey [twinCredit])
          true (6 / 10) (fun _ => some "razorpay_settlement") [abstain twinCredit 0 []]) := by
  have hrun : (razorpaySignals asciiUnicode defaultNarrationPack (ReconIndex.ofRows asciiUnicode twinReport)
        twinCredit).map EvidenceItem.signal = ["amount_corr_multi", "value_date_proximity"] ∧
      (resolveUnknowns asciiUnicode validRails (ReconIndex.ofRows asciiUnicode twinReport) (linesByKey [twinCredit])
        true (6 / 10) (fun _ => some "razorpay_settlement") [abstain twinCredit 0 []]).map RailAttribution.rail =
          ["razorpay_settlement"] := by decide +kernel
  refine ⟨hrun, fun hguarded => ?_⟩
  obtain ⟨b, hb, hrail⟩ := List.map_eq_singleton_iff.mp hrun.2
  obtain ⟨line, hline, _, e, he, hout⟩ := hguarded.substantive 0 _ b rfl (by rw [hb]; rfl) rfl hrail
  have htwin : (linesByKey [twinCredit]).dict.get? (abstain twinCredit 0 []).lineKey = some twinCredit := rfl
  rw [htwin] at hline
  obtain rfl := Option.some.inj hline
  have hmem := List.mem_map_of_mem (f := EvidenceItem.signal) he
  rw [hrun.1] at hmem
  rcases List.mem_cons.mp hmem with heq | hmem
  · exact hout (heq ▸ by decide)
  · rw [List.mem_singleton] at hmem
    exact hout (hmem ▸ by decide)

end Untangle
