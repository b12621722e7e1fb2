import Mathlib.Order.Interval.Set.Infinite
import Untangle.Correctness.Evidence
import Untangle.Correctness.Solver.Optimal

/-!
# `Correctness.Solver.Consistent` — verdicts, groups and consumed settlements agree

The verdicts are read off the chosen candidates, the consumed settlements off the same candidates, and contested
credits are demoted in between. `SolveInv` says that this happens to whole candidates. What is left is that a
consumed target is a Razorpay verdict's, and this depends on the settlement ids only: a candidate points at
`"abstain"`, at `"rail:"` followed by a rail, or at a settlement, and a settlement may have an id of the first
two kinds (`verdicts_consistent_iff`).
-/

namespace Untangle

open Lib

variable {U : Unicode} {g : AssignmentGraph} {margin : ℚ} {maxSteps : ℤ} {c c' : CandidateAssignment}

/-! ## The property -/

/-- The credit's verdict is Razorpay, for this settlement. -/
def Booked (r : SolverResult) (k s : String) : Prop :=
  ∃ v, r.verdicts.get? k = some v ∧ v.abstained = false ∧ v.rail = Rail.razorpaySettlement.value ∧
    v.targetId = s

/-- The verdicts of the solver are consistent. -/
structure Consistent (U : Unicode) (g : AssignmentGraph) (margin : ℚ) (maxSteps : ℤ) : Prop where
  /-- Every credit has exactly one verdict. -/
  one : (solveAssignment U g margin maxSteps).verdicts.keys.Perm g.credits.keys ∧
    ∀ k v, (solveAssignment U g margin maxSteps).verdicts.get? k = some v → v.lineKey = k
  /-- The credits booked to a settlement are those of one candidate. -/
  whole : ∀ s ∈ g.settlements.keys, (∃ k, Booked (solveAssignment U g margin maxSteps) k s) →
    ∃ c ∈ g.candidates, c.targetId = s ∧
      ∀ k, Booked (solveAssignment U g margin maxSteps) k s ↔ k ∈ c.creditKeys
  /-- The consumed settlements are those that a credit is booked to. -/
  consumed : ∀ s, s ∈ (solveAssignment U g margin maxSteps).consumedSettlements ↔
    s ∈ g.settlements.keys ∧ ∃ k, Booked (solveAssignment U g margin maxSteps) k s
  /-- A contested credit abstains with all legs of the candidate that was chosen for it. -/
  contested : ∀ k v e, (solveAssignment U g margin maxSteps).verdicts.get? k = some v →
    v.competingGlobalExplanation = some e →
      ∃ c ∈ (solveAll g margin maxSteps).chosen, Names e c ∧ k ∈ c.creditKeys ∧ ∀ k' ∈ c.creditKeys,
        ∃ v', (solveAssignment U g margin maxSteps).verdicts.get? k' = some v' ∧ v'.abstained = true
  /-- No verdict is a split with a credit that could not be enumerated. -/
  enumerated : ∀ k v, (solveAssignment U g margin maxSteps).verdicts.get? k = some v →
    ∀ k' ∈ v.coveredSplitKeys, k' ∉ g.unEnumerable

/-! ## The verdict of one credit -/

section Verdict

variable {contested : Dict String Explanation} {chosen : Dict String CandidateAssignment}
  {rejected : List RejectedMatch} {k : String}

theorem lineKey_creditVerdict : (creditVerdict contested chosen rejected k).lineKey = k := by
  unfold creditVerdict
  dsimp only
  split
  · rfl
  · split
    · rfl
    · split <;> rfl

theorem creditVerdict_of_contested (h : k ∈ contested.keys) :
    (creditVerdict contested chosen rejected k).abstained = true := by
  obtain ⟨e, he⟩ := Dict.exists_get?_of_mem_keys h
  unfold creditVerdict
  dsimp only
  rw [he]
  rfl

theorem explanation_creditVerdict {e : Explanation}
    (h : (creditVerdict contested chosen rejected k).competingGlobalExplanation = some e) :
    contested.get? k = some e := by
  unfold creditVerdict at h
  dsimp only at h
  split at h
  · rename_i e' he'
    rw [he', ← h]
    rfl
  · split at h
    · exact absurd h (by simp [abstainVerdict])
    · split at h
      · exact absurd h (by simp [abstainVerdict])
      · exact absurd h (by simp)

/-- A verdict that does not abstain is that of the candidate chosen for the credit. -/
theorem creditVerdict_open (h : (creditVerdict contested chosen rejected k).abstained = false) :
    k ∉ contested.keys ∧ ∃ c, chosen.get? k = some c ∧ c.isAbstention = false ∧
      (creditVerdict contested chosen rejected k).rail = c.rail ∧
      (creditVerdict contested chosen rejected k).targetId = c.targetId ∧
      (creditVerdict contested chosen rejected k).evidence = c.evidence ∧
      (creditVerdict contested chosen rejected k).coveredSplitKeys =
        if c.rail = Rail.razorpaySettlement.value ∧ c.isSplit then c.creditKeys else [] := by
  cases hcon : contested.get? k with
  | some e =>
      rw [creditVerdict_of_contested (Dict.mem_keys_of_get? hcon)] at h
      exact absurd h (by simp)
  | none =>
      refine ⟨Dict.get?_eq_none.mp hcon, ?_⟩
      unfold creditVerdict at h ⊢
      dsimp only at h ⊢
      rw [hcon] at h ⊢
      dsimp only at h ⊢
      cases hchosen : chosen.get? k with
      | none =>
          rw [hchosen] at h
          exact absurd h (by simp [abstainVerdict])
      | some c =>
          rw [hchosen] at h
          dsimp only at h ⊢
          by_cases habs : c.isAbstention = true
          · rw [if_pos habs] at h
            exact absurd h (by simp [abstainVerdict])
          · rw [if_neg habs]
            exact ⟨c, rfl, Bool.eq_false_iff.mpr habs, rfl, rfl, rfl, rfl⟩

/-- The verdict of a credit that is not contested and has a candidate. -/
theorem creditVerdict_chosen (rejected : List RejectedMatch) (hcon : k ∉ contested.keys) (hchosen : chosen.get? k = some c)
    (hopen : c.isAbstention = false) :
    (creditVerdict contested chosen rejected k).abstained = false ∧
      (creditVerdict contested chosen rejected k).rail = c.rail ∧
      (creditVerdict contested chosen rejected k).targetId = c.targetId := by
  unfold creditVerdict
  dsimp only
  rw [Dict.get?_eq_none.mpr hcon]
  dsimp only
  rw [hchosen]
  dsimp only
  rw [if_neg (by rw [hopen]; simp)]
  exact ⟨rfl, rfl, rfl⟩

theorem coveredSplitKeys_creditVerdict {k' : String}
    (h : k' ∈ (creditVerdict contested chosen rejected k).coveredSplitKeys) :
    (creditVerdict contested chosen rejected k).abstained = false := by
  unfold creditVerdict at h ⊢
  dsimp only at h ⊢
  split at h
  · exact absurd h (by simp [abstainVerdict])
  · split at h
    · exact absurd h (by simp [abstainVerdict])
    · split at h
      · exact absurd h (by simp [abstainVerdict])
      · rename_i habs
        rw [if_neg habs]

end Verdict

/-! ## The result -/

theorem chosenByCredit_get? {chosen : List CandidateAssignment} {k : String}
    (h : (chosenByCredit chosen).get? k = some c) : c ∈ chosen ∧ k ∈ c.creditKeys := by
  unfold chosenByCredit at h
  rw [Dict.get?_gather_last] at h
  obtain ⟨p, hp, rfl⟩ := Option.map_eq_some_iff.mp h
  obtain ⟨hmem, hkey⟩ := List.mem_filter.mp (List.mem_of_getLast? hp)
  obtain ⟨c, hc, hk⟩ := List.mem_flatMap.mp hmem
  obtain ⟨k', hk', rfl⟩ := List.mem_map.mp hk
  rw [decide_eq_true_eq, Option.some.injEq] at hkey
  exact ⟨hc, hkey ▸ hk'⟩

theorem exists_chosenByCredit {chosen : List CandidateAssignment} {k : String} (hc : c ∈ chosen)
    (hk : k ∈ c.creditKeys) : ∃ c', (chosenByCredit chosen).get? k = some c' := by
  refine Dict.exists_get?_of_mem_keys ?_
  unfold chosenByCredit
  rw [Dict.mem_keys_gather]
  exact ⟨(k, c), List.mem_flatMap.mpr ⟨c, hc, List.mem_map.mpr ⟨k, hk, rfl⟩⟩, rfl⟩

/-- The verdict the solver gives a credit. -/
def verdictOn (U : Unicode) (g : AssignmentGraph) (margin : ℚ) (maxSteps : ℤ) (k : String) :
    CreditAssignmentVerdict :=
  creditVerdict (solveAll g margin maxSteps).contested (chosenByCredit (solveAll g margin maxSteps).chosen)
    (rejectedMatches U g (solveAll g margin maxSteps).chosen (solveAll g margin maxSteps).consumed) k

theorem get?_verdicts {k : String} {v : CreditAssignmentVerdict} :
    (solveAssignment U g margin maxSteps).verdicts.get? k = some v ↔
      k ∈ g.credits.keys ∧ verdictOn U g margin maxSteps k = v := by
  unfold solveAssignment
  split
  · rename_i hempty
    have hnone : k ∉ g.credits.keys := by
      unfold Dict.keys
      rw [hempty]
      exact List.not_mem_nil
    simp [hnone]
  · dsimp only
    rw [Dict.get?_gather_last_of_agree _ (fun k₁ _ k₂ _ k h₁ h₂ => by
      rw [Option.some.inj h₁, Option.some.inj h₂])]
    simp only [(List.perm_insertionSort _ _).mem_iff, Option.some.injEq]
    constructor
    · rintro ⟨k', hk', rfl, hv⟩
      exact ⟨hk', hv⟩
    · rintro ⟨hk, hv⟩
      exact ⟨k, hk, rfl, hv⟩

theorem consumedSettlements_eq (hg : WellFormed g) :
    (solveAssignment U g margin maxSteps).consumedSettlements = (solveAll g margin maxSteps).consumed := by
  unfold solveAssignment
  split
  · rename_i hempty
    refine (List.eq_nil_iff_forall_not_mem.mpr fun s hs => ?_).symm
    have hinv := solveInv_solveAll hg margin maxSteps
    obtain ⟨_, c, hc, _, k, hk, _⟩ := (hinv.consumed s).mp hs
    have hin := hg.components.subset (hinv.settled.within c hc hk)
    unfold Dict.keys at hin
    rw [hempty] at hin
    exact List.not_mem_nil hin
  · rfl

theorem mem_verdicts_keys {k : String} :
    k ∈ (solveAssignment U g margin maxSteps).verdicts.keys ↔ k ∈ g.credits.keys := by
  rw [Dict.mem_keys_iff]
  simp only [get?_verdicts]
  constructor
  · rintro ⟨_, hk, _⟩
    exact hk
  · intro hk
    exact ⟨_, hk, rfl⟩

/-- The credits of a chosen candidate have verdicts. -/
theorem chosen_credit (hg : WellFormed g) {k : String} (hc : c ∈ (solveAll g margin maxSteps).chosen)
    (hk : k ∈ c.creditKeys) : k ∈ g.credits.keys :=
  hg.keys_subset c ((solveInv_solveAll hg margin maxSteps).settled.mem c hc) hk

/-- A booking is a chosen candidate with a credit that is not contested. -/
theorem booked_iff (hg : WellFormed g) {k s : String} :
    Booked (solveAssignment U g margin maxSteps) k s ↔
      k ∉ (solveAll g margin maxSteps).contested.keys ∧
        ∃ c ∈ (solveAll g margin maxSteps).chosen, k ∈ c.creditKeys ∧ c.isAbstention = false ∧
          c.rail = Rail.razorpaySettlement.value ∧ c.targetId = s := by
  have hinv := solveInv_solveAll hg margin maxSteps
  unfold Booked
  simp only [get?_verdicts]
  constructor
  · rintro ⟨_, ⟨hk, rfl⟩, hopen, hrail, htarget⟩
    obtain ⟨hfree, c, hc, hnot, hrail', htarget', _⟩ := creditVerdict_open hopen
    obtain ⟨hchosen, hkc⟩ := chosenByCredit_get? hc
    exact ⟨hfree, c, hchosen, hkc, hnot, hrail'.symm.trans hrail, htarget'.symm.trans htarget⟩
  · rintro ⟨hfree, c, hc, hk, hnot, hrail, htarget⟩
    obtain ⟨c', hc'⟩ := exists_chosenByCredit hc hk
    obtain ⟨hchosen', hk'⟩ := chosenByCredit_get? hc'
    -- nothing else is chosen for a credit of the candidate
    rw [hinv.settled.owns c hc hnot c' hchosen' k hk hk'] at hc'
    obtain ⟨hopen, hrail', htarget'⟩ := creditVerdict_chosen (rejectedMatches U g
      (solveAll g margin maxSteps).chosen (solveAll g margin maxSteps).consumed) hfree hc' hnot
    exact ⟨_, ⟨chosen_credit hg hc hk, rfl⟩, hopen, hrail'.trans hrail, htarget'.trans htarget⟩

/-! ## Consistency -/

/-- Only Razorpay candidates point at settlements. -/
def Unreserved (g : AssignmentGraph) : Prop :=
  ∀ c ∈ g.candidates, c.targetId ∈ g.settlements.keys →
    c.rail = Rail.razorpaySettlement.value ∧ c.isAbstention = false

/-- **The verdicts are consistent when only Razorpay candidates point at settlements.** -/
theorem consistent_of_unreserved (hg : WellFormed g) (hfree : Unreserved g) (U : Unicode) (margin : ℚ)
    (maxSteps : ℤ) : Consistent U g margin maxSteps := by
  have hinv := solveInv_solveAll hg margin maxSteps
  -- the credits of a candidate are contested together
  have hgroup : ∀ c ∈ (solveAll g margin maxSteps).chosen, c.isAbstention = false → ∀ k ∈ c.creditKeys,
      k ∈ (solveAll g margin maxSteps).contested.keys →
        ∀ k' ∈ c.creditKeys, k' ∈ (solveAll g margin maxSteps).contested.keys := by
    intro c hc hnot k hk hcon
    obtain ⟨e, he⟩ := Dict.exists_get?_of_mem_keys hcon
    obtain ⟨c', hc', _, hk', _, hall⟩ := hinv.contested k e he
    rw [hinv.settled.owns c hc hnot c' hc' k hk hk'] at hall
    exact hall
  refine ⟨⟨?_, ?_⟩, ?_, ?_, ?_, ?_⟩
  · rw [List.perm_ext_iff_of_nodup (Dict.nodup_keys _) (Dict.nodup_keys _)]
    exact fun k => mem_verdicts_keys
  · intro k v hv
    rw [← (get?_verdicts.mp hv).2]
    exact lineKey_creditVerdict
  · rintro s hs ⟨k₀, hk₀⟩
    obtain ⟨hfree₀, c, hc, hkc₀, hnot, hrail, htarget⟩ := (booked_iff hg).mp hk₀
    refine ⟨c, hinv.settled.mem c hc, htarget, fun k => ?_⟩
    rw [booked_iff hg]
    constructor
    · rintro ⟨_, c', hc', hk, hnot', _, htarget'⟩
      rw [hinv.settled.holds c hc hnot c' hc' hnot' (htarget ▸ hs) (htarget'.trans htarget.symm)] at hk
      exact hk
    · intro hk
      exact ⟨fun hcon => hfree₀ (hgroup c hc hnot k hk hcon k₀ hkc₀), c, hc, hk, hnot, hrail, htarget⟩
  · intro s
    rw [consumedSettlements_eq hg, hinv.consumed]
    refine and_congr_right fun hs => ?_
    simp only [booked_iff hg]
    constructor
    · rintro ⟨c, hc, htarget, k, hk, hcon⟩
      obtain ⟨hrail, hnot⟩ := hfree c (hinv.settled.mem c hc) (htarget ▸ hs)
      exact ⟨k, hcon, c, hc, hk, hnot, hrail, htarget⟩
    · rintro ⟨k, hcon, c, hc, hk, _, _, htarget⟩
      exact ⟨c, hc, htarget, k, hk, hcon⟩
  · intro k v e hv he
    rw [← (get?_verdicts.mp hv).2] at he
    obtain ⟨c, hc, _, hk, hnames, hall⟩ := hinv.contested k e (explanation_creditVerdict he)
    refine ⟨c, hc, hnames, hk, fun k' hk' => ?_⟩
    exact ⟨_, get?_verdicts.mpr ⟨chosen_credit hg hc hk', rfl⟩, creditVerdict_of_contested (hall k' hk')⟩
  · intro k v hv k' hk'
    rw [← (get?_verdicts.mp hv).2] at hk'
    obtain ⟨_, c, hc, _, _, _, _, hcovered⟩ := creditVerdict_open (coveredSplitKeys_creditVerdict hk')
    have hkeys : k' ∈ if c.rail = Rail.razorpaySettlement.value ∧ c.isSplit = true then c.creditKeys else [] :=
      hcovered ▸ hk'
    split at hkeys
    · rename_i hsplit
      exact hg.enumerated c (hinv.settled.mem c (chosenByCredit_get? hc).1) hsplit.2 k' hkeys
    · exact absurd hkeys List.not_mem_nil

/-! ## The settlement ids that break it -/

/-- No settlement has the id of another kind of target. -/
def UnreservedIds (index : ReconIndex) : Prop :=
  ∀ s ∈ index.settlementNet.keys,
    s ≠ "abstain" ∧ ∀ r : Rail, r ≠ .razorpaySettlement → s ≠ "rail:" ++ r.value

variable {index : ReconIndex} {gs : GraphSettings} {lines : List BankCreditLine}

theorem unreserved_of_ids (hids : UnreservedIds index) (U : Unicode) (gs : GraphSettings)
    (lines : List BankCreditLine) : Unreserved (buildCandidateGraph U gs index lines) := by
  intro c hc hin
  have hid := hids c.targetId (mem_settlementNodes.mp hin)
  have hrazorpay : c.rail = Rail.razorpaySettlement.value →
      c.rail = Rail.razorpaySettlement.value ∧ c.isAbstention = false := by
    intro hrail
    refine ⟨hrail, ?_⟩
    unfold CandidateAssignment.isAbstention
    rw [hrail, decide_eq_false hid.1, Bool.false_or]
    decide
  cases (mem_graphCandidates hc).1 with
  | sink ln _ _ heq => exact absurd (by rw [heq]; rfl) hid.1
  | rail ln _ _ h =>
      obtain ⟨p, _, htarget, hrail, _⟩ := h.named
      by_cases hr : p.1 = .razorpaySettlement
      · exact hrazorpay (hrail.trans (by rw [hr]))
      · exact absurd htarget (hid.2 p.1 hr)
  | settlement ln _ _ h => exact hrazorpay h.rail
  | split sid net date sub _ heq => exact hrazorpay (by rw [heq]; rfl)

/-- A consumed settlement is booked, so a chosen Razorpay candidate points at it. -/
theorem Consistent.razorpay (hg : WellFormed g) (hmargin : margin ≤ 0) (h : Consistent U g margin maxSteps)
    (hc : c ∈ (solveAll g margin maxSteps).chosen) (hin : c.targetId ∈ g.settlements.keys) :
    ∃ c' ∈ g.candidates, c'.targetId = c.targetId ∧ c'.rail = Rail.razorpaySettlement.value ∧
      c'.isAbstention = false := by
  have hinv := solveInv_solveAll hg margin maxSteps
  have hcontested : (solveAll g margin maxSteps).contested.keys = [] := contested_of_nonpos hmargin _
  obtain ⟨k, hk⟩ := List.exists_mem_of_ne_nil _ (hg.keys_ne c (hinv.settled.mem c hc))
  have hconsumed : c.targetId ∈ (solveAll g margin maxSteps).consumed :=
    (hinv.consumed _).mpr ⟨hin, c, hc, rfl, k, hk, by rw [hcontested]; exact List.not_mem_nil⟩
  rw [← consumedSettlements_eq (U := U) hg] at hconsumed
  obtain ⟨_, k', hbooked⟩ := (h.consumed _).mp hconsumed
  obtain ⟨_, c', hc', _, hnot, hrail, htarget⟩ := (booked_iff hg).mp hbooked
  exact ⟨c', hinv.settled.mem c' hc', htarget, hrail, hnot⟩

/-- A credit without any budget abstains, and the settlement called like the abstention is consumed. -/
theorem not_consistent_of_abstain (hres : "abstain" ∈ index.settlementNet.keys) :
    ¬ Consistent U (buildCandidateGraph U {} index [creditLine "k" "" 1]) 0 0 := by
  intro h
  have hg := buildCandidateGraph_wellFormed U {} index [creditLine "k" "" 1]
  have hk : "k" ∈ (creditNodes [creditLine "k" "" 1]).keys :=
    mem_creditNodes.mpr ⟨_, List.mem_singleton_self _, rfl, rfl⟩
  obtain ⟨comp, hcomp, hin⟩ := List.mem_flatten.mp (hg.components.symm.subset hk)
  obtain ⟨done, hstage⟩ := exists_stage hcomp
  obtain ⟨s, hs, hsink, _⟩ := hg.sink "k" hk
  have hchosen : s ∈ (solveAll (buildCandidateGraph U {} index [creditLine "k" "" 1]) 0 0).chosen := by
    refine hstage.assignment_subset ?_
    rw [solveComponent_timedOut (solveComponent_nonpos le_rfl)]
    exact mem_defaultChosen.mpr ⟨hs, hsink.target, List.not_mem_nil, "k", hin,
      hsink.keys ▸ List.mem_singleton_self _⟩
  obtain ⟨c', _, htarget, _, hnot⟩ := h.razorpay hg le_rfl hchosen
    (hsink.target ▸ mem_settlementNodes.mpr hres)
  rw [isAbstention_of_target (htarget.trans hsink.target)] at hnot
  exact absurd hnot (by simp)

/-! ### A rail that a settlement is called like -/

/-- A pack with one keyword, for one rail. -/
def keywordPack (r : Rail) : NarrationEvidencePack where
  railKeywords := ⟨[(r, ["x"])], List.nodup_singleton r⟩
  decoyMarkers := []
  rzpBrand := []
  rzpContext := []
  rzpIfsc := "ratn0000088"

def keywordSettings (r : Rail) : GraphSettings where
  pack := keywordPack r

/-- The keyword's candidate. -/
theorem exists_railCandidate (r : Rail) (amount : ℤ) :
    ∃ c, c ∈ railCandidates asciiUnicode (keywordSettings r) (creditLine "k" "x" amount) := by
  refine List.exists_mem_of_ne_nil _ ?_
  show railCandidates asciiUnicode (keywordSettings r) (creditLine "k" "x" 0) ≠ []
  cases r <;> decide +kernel

/-- Every candidate of a competing rail is for that rail. -/
theorem IsRailCandidate.rail_of_keyword {r : Rail} {ln : BankCreditLine}
    (h : IsRailCandidate asciiUnicode (keywordSettings r) ln c) :
    c.targetId = "rail:" ++ r.value ∧ c.rail = r.value ∧ c.cost.unexplained = 0 := by
  obtain ⟨p, hp, htarget, hrail, _, hcost⟩ := h.named
  have hkey : p.1 = r := List.mem_singleton.mp (evidence_of_keyword hp).1
  rw [hkey] at htarget hrail
  exact ⟨htarget, hrail, by rw [hcost]; rfl⟩

/-- A text without tokens, of an amount that is no settlement's net, has no tie. -/
theorem no_tie {r : Rail} {amount : ℤ} (hfresh : index.netToSettlements.get? amount = none) :
    hasSignal rzpTieSignals
      (razorpaySignals asciiUnicode (keywordPack r) index (creditLine "k" "x" amount)) = false := by
  have hutr : utrSignals asciiUnicode index (creditLine "k" "x" amount) = [] := by
    have htokens : extractUtrTokens asciiUnicode
        (normalizeNarration asciiUnicode (creditLine "k" "x" amount).rawText) = [] := by
      show extractUtrTokens asciiUnicode
        (normalizeNarration asciiUnicode (creditLine "k" "x" 0).rawText) = []
      decide +kernel
    have hsuffixes : suffixCandidates
        (normalizeNarration asciiUnicode (creditLine "k" "x" amount).rawText) = [] := by
      show suffixCandidates (normalizeNarration asciiUnicode (creditLine "k" "x" 0).rawText) = []
      decide +kernel
    unfold utrSignals matchedExact
    rw [htokens, hsuffixes]
    rfl
  have hamount : amountSignals index (creditLine "k" "x" amount) = [] := by
    unfold amountSignals
    rw [if_pos (show (creditLine "k" "x" amount).isCredit = true from rfl),
      show (creditLine "k" "x" amount).amountPaise = amount from rfl, hfresh]
  rw [hasSignal, List.any_eq_false]
  intro e he
  rw [razorpaySignals, hutr, hamount, List.nil_append, List.nil_append] at he
  have hname := signal_rzpNarration he
  rw [decide_eq_true_eq]
  intro htie
  generalize e.signal = name at hname htie
  simp only [rzpTieSignals, List.mem_cons, List.not_mem_nil, or_false] at hname htie
  rcases hname with rfl | rfl | rfl <;> simp at htie

/-- A positive amount that is no settlement's net. -/
theorem exists_fresh_amount (index : ReconIndex) :
    ∃ amount : ℤ, 0 < amount ∧ index.netToSettlements.get? amount = none := by
  obtain ⟨amount, hpos, hnot⟩ := (Set.Ioi_infinite (0 : ℤ)).exists_notMem_finset index.netToSettlements.keys.toFinset
  exact ⟨amount, hpos, Dict.get?_eq_none.mpr fun h => hnot (List.mem_toFinset.mpr h)⟩

/-- The graph of one credit whose narration names the rail. -/
def keywordGraph (r : Rail) (index : ReconIndex) (amount : ℤ) : AssignmentGraph :=
  buildCandidateGraph asciiUnicode (keywordSettings r) index [creditLine "k" "x" amount]

/-- The credit can only abstain or follow the keyword. -/
theorem mem_keywordGraph {r : Rail} {amount : ℤ} (hpos : 0 < amount)
    (hfresh : index.netToSettlements.get? amount = none) (hc : c ∈ (keywordGraph r index amount).candidates) :
    0 < c.cost.unexplained ∧ c.rail = Rail.unknown.value ∨
      c.targetId = "rail:" ++ r.value ∧ c.rail = r.value ∧ c.cost.unexplained = 0 := by
  have hmem : c ∈ (graphCandidates asciiUnicode (keywordSettings r) index [creditLine "k" "x" amount]).1 := hc
  cases (mem_graphCandidates hmem).1 with
  | sink ln hln _ heq =>
      rw [List.mem_singleton.mp hln] at heq
      rw [heq, unexplained_abstainCandidate]
      exact Or.inl ⟨hpos, rfl⟩
  | rail ln _ _ h => exact Or.inr h.rail_of_keyword
  | settlement ln hln _ h =>
      have htied := h.tied
      rw [List.mem_singleton.mp hln, show (keywordSettings r).pack = keywordPack r from rfl,
        no_tie hfresh] at htied
      exact absurd htied (by simp)
  | split sid net date sub h _ =>
      have hlen := h.sublist.length_le
      have htwo := (mem_allSumSubsets h.found).2.1
      rw [List.length_singleton] at hlen
      omega

/-- A single credit is a component. -/
theorem components_of_single {ln : BankCreditLine} (hkey : ln.key = "k") (hcredit : isGraphCredit ln = true)
    (U : Unicode) (gs : GraphSettings) (index : ReconIndex) :
    (buildCandidateGraph U gs index [ln]).components = [["k"]] := by
  have hkeys : (creditNodes [ln]).keys = ["k"] := by
    refine List.perm_singleton.mp ((List.perm_ext_iff_of_nodup (Dict.nodup_keys _)
      (List.nodup_singleton _)).mpr fun k => ?_)
    rw [mem_creditNodes, List.mem_singleton]
    constructor
    · rintro ⟨ln', hln', _, rfl⟩
      rw [List.mem_singleton.mp hln']
      exact hkey
    · rintro rfl
      exact ⟨_, List.mem_singleton_self _, hcredit, hkey⟩
  show creditComponents (creditNodes [ln]) _ _ = _
  unfold creditComponents
  rw [hkeys]
  rfl

theorem isGraphCredit_creditLine {key narration : String} {amount : ℤ} (hpos : 0 < amount) :
    isGraphCredit (creditLine key narration amount) = true := by
  unfold isGraphCredit
  rw [Bool.and_eq_true, decide_eq_true_eq]
  exact ⟨rfl, hpos⟩

/-- The credit follows the keyword, and the settlement called like the rail is consumed. -/
theorem not_consistent_of_rail {r : Rail} {amount : ℤ} (hr : r ≠ .razorpaySettlement) (hpos : 0 < amount)
    (hfresh : index.netToSettlements.get? amount = none)
    (hres : "rail:" ++ r.value ∈ index.settlementNet.keys) :
    ∃ maxSteps, ¬ Consistent asciiUnicode (keywordGraph r index amount) 0 maxSteps := by
  have hg : WellFormed (keywordGraph r index amount) := buildCandidateGraph_wellFormed ..
  have hcredit : isGraphCredit (creditLine "k" "x" amount) = true := isGraphCredit_creditLine hpos
  -- the keyword's candidate explains the credit
  obtain ⟨c, hc⟩ := exists_railCandidate r amount
  have hrail := mem_railCandidates hc
  obtain ⟨maxSteps, c₀, hc₀, _, hzero⟩ := exists_chosen_of_single hg (components_of_single rfl hcredit _ _ _)
    (railCandidate_mem (List.mem_singleton_self _) hcredit hc) hrail.keys hrail.rail_of_keyword.2.2
  refine ⟨maxSteps, fun h => ?_⟩
  rcases mem_keywordGraph hpos hfresh ((solveInv_solveAll hg 0 maxSteps).settled.mem c₀ hc₀) with
    ⟨hcostly, _⟩ | ⟨htarget, _, _⟩
  · exact absurd hzero hcostly.ne'
  · -- no Razorpay candidate points at the settlement
    have hin : c₀.targetId ∈ (keywordGraph r index amount).settlements.keys :=
      htarget ▸ mem_settlementNodes.mpr hres
    obtain ⟨c', hc', _, hrail', hnot⟩ := h.razorpay hg le_rfl hc₀ hin
    rcases mem_keywordGraph hpos hfresh hc' with ⟨_, hunknown⟩ | ⟨_, hr', _⟩
    · exact absurd (hrail'.symm.trans hunknown) (by decide)
    · exact hr (Rail.value_injective (hr'.symm.trans hrail'))

/-- **The solver's verdicts are consistent over a report**, for all lines, packs, margins and step budgets, exactly
    when no settlement has the id of another kind of target. -/
theorem verdicts_consistent_iff (index : ReconIndex) :
    (∀ (U : Unicode) (gs : GraphSettings) (lines : List BankCreditLine) (margin : ℚ) (maxSteps : ℤ),
      (lines.map BankCreditLine.key).Nodup → 0 ≤ margin →
        Consistent U (buildCandidateGraph U gs index lines) margin maxSteps) ↔ UnreservedIds index := by
  constructor
  · intro hall s hs
    refine ⟨fun heq => ?_, fun r hr heq => ?_⟩
    · rw [heq] at hs
      exact not_consistent_of_abstain hs
        (hall asciiUnicode {} [creditLine "k" "" 1] 0 0 (List.nodup_singleton _) le_rfl)
    · rw [heq] at hs
      obtain ⟨amount, hpos, hfresh⟩ := exists_fresh_amount index
      obtain ⟨maxSteps, hnot⟩ := not_consistent_of_rail hr hpos hfresh hs
      exact hnot (hall asciiUnicode (keywordSettings r) [creditLine "k" "x" amount] 0 maxSteps
        (List.nodup_singleton _) le_rfl)
  · intro hids U gs lines margin maxSteps _ _
    exact consistent_of_unreserved (buildCandidateGraph_wellFormed U gs index lines)
      (unreserved_of_ids hids U gs lines) U margin maxSteps

/-- Two credits abstain, and the settlement with the id `"abstain"` is consumed by nobody's verdict. -/
theorem abstention_consumes :
    (rivalLines.map BankCreditLine.key).Nodup ∧
      (solveAssignment asciiUnicode (rivalGraph "abstain" 500) 0 10000).consumedSettlements =
        ["abstain", "abstain"] ∧
      ¬ Consistent asciiUnicode (rivalGraph "abstain" 500) 0 10000 := by
  refine ⟨by decide, by decide +kernel, fun h => ?_⟩
  have hg : WellFormed (rivalGraph "abstain" 500) := buildCandidateGraph_wellFormed ..
  have hchosen : abstainCandidate (creditLine "a" "" 100000) ∈
      (solveAll (rivalGraph "abstain" 500) 0 10000).chosen := by
    decide +kernel
  obtain ⟨c', _, htarget, _, hnot⟩ := h.razorpay hg le_rfl hchosen (by decide +kernel)
  rw [isAbstention_of_target htarget] at hnot
  exact absurd hnot (by simp)

end Untangle
