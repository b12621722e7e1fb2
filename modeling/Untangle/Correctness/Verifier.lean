import Mathlib.Data.List.ReduceOption
import Untangle.Correctness.Audit
import Untangle.Engine.Verifier

/-!
# `Correctness.Verifier` — what the verifier makes of the engine's packets

The producer writes amounts as rupee texts and the verifier reads them back. Both go through doubles, so an amount
comes back as it was below `2 ^ 50` paise (`parseInrText_of_lt`), and up to the length that the loader accepts it comes
back as some amount (`exists_parseInrText`). Past that the three checks on a packet have one outcome each: the ties of
a packet are allowed ones, the arithmetic depends on what the amounts read back as (`ReadsBack`), and the margin on the
audit's note. A packet of a reconciliation that reads back passes exactly if the note does
(`verifyProofPacket_proofPacket`).
-/

namespace Untangle

open Lib

/-! ## Amounts, written and read -/

theorem strip_eq_self {s : String} (h : ∀ c ∈ s.toList, isSpace c = false) : strip s = s := by
  have hdrop : ∀ cs : List Char, (∀ c ∈ cs, isSpace c = false) → cs.dropWhile isSpace = cs := by
    intro cs hcs
    cases cs with
    | nil => rfl
    | cons c cs => rw [List.dropWhile_cons_of_neg (by simp [hcs c List.mem_cons_self])]
  unfold strip
  rw [hdrop _ h, hdrop _ (fun c hc => h c (List.mem_reverse.mp hc)), List.reverse_reverse, String.ofList_toList]

theorem isSpace_digit {c : Char} (h : c.isDigit = true) : isSpace c = false := by
  simp only [Char.isDigit, Bool.and_eq_true, decide_eq_true_eq, UInt32.le_iff_toNat_le] at h
  have hlo : 48 ≤ c.toNat := h.1
  have hhi : c.toNat ≤ 57 := h.2
  simp only [isSpace, Bool.or_eq_false_iff, Bool.and_eq_false_iff, decide_eq_false_iff_not, beq_eq_false_iff_ne]
  omega

/-- The characters of a rupee text after the symbol. -/
theorem mem_formatGrouped {n : Nat} {q : ℚ} {c : Char} (h : c ∈ (formatGrouped n q).toList) :
    c.isDigit = true ∨ c ∈ ['-', ',', '.'] := by
  by_cases hcomma : c = ','
  · exact Or.inr (by simp [hcomma])
  · have hmem : c ∈ (formatGrouped n q).toList.filter (· ≠ ',') := List.mem_filter.mpr ⟨h, by simpa using hcomma⟩
    rw [filter_formatGrouped] at hmem
    rcases List.mem_append.mp hmem with hsign | hrest
    · split at hsign
      · exact Or.inr (by simp [List.mem_singleton.mp hsign])
      · cases hsign
    · rcases List.mem_append.mp hrest with hwhole | hfraction
      · exact Or.inl (isDigit_of_mem_toString hwhole)
      · rcases List.mem_cons.mp hfraction with hpoint | hdigits
        · exact Or.inr (by simp [hpoint])
        · exact Or.inl (isDigit_padDigits hdigits)

theorem not_space_of_formatGrouped {n : Nat} {q : ℚ} {c : Char} (h : c ∈ (formatGrouped n q).toList) :
    isSpace c = false ∧ c ≠ '₹' := by
  rcases mem_formatGrouped h with hdigit | hmark
  · constructor
    · exact isSpace_digit hdigit
    · rintro rfl
      exact absurd hdigit (by decide)
  · simp only [List.mem_cons, List.not_mem_nil, or_false] at hmark
    rcases hmark with rfl | rfl | rfl <;> decide

/-- What a printed amount says, before it is multiplied by a hundred again. -/
def shownRupees (paise : ℤ) : ℚ :=
  (if nearest ((paise : ℚ) / 100) < 0 then -1 else 1) *
    ((roundHalfEven (nearest ((paise : ℚ) / 100) * 10 ^ 2)).natAbs / 10 ^ 2)

/-- Reading a printed amount: the text is that of a number, and no sign stands before the symbol. -/
theorem parseInrText_proofInr (paise : ℤ) : parseInrText (proofInr paise) =
    match Float64.ofRat (shownRupees paise) with
    | .finite q => (roundFloat (Float64.ofRat (q * 100))).toOption
    | _ => none := by
  have hlist : (proofInr paise).toList = '₹' :: (formatGrouped 2 (nearest ((paise : ℚ) / 100))).toList := by
    unfold proofInr
    rw [String.toList_append]
    rfl
  have hstrip : strip (proofInr paise) = proofInr paise := by
    apply strip_eq_self
    intro c hc
    rw [hlist] at hc
    rcases List.mem_cons.mp hc with rfl | hc
    · decide
    · exact (not_space_of_formatGrouped hc).1
  have hsymbol : (proofInr paise).toList.filter (· ≠ '₹') =
      (formatGrouped 2 (nearest ((paise : ℚ) / 100))).toList := by
    rw [hlist, List.filter_cons_of_neg (by decide)]
    apply List.filter_eq_self.mpr
    intro c hc
    simpa using (not_space_of_formatGrouped hc).2
  have hplain : strip (String.ofList ((formatGrouped 2 (nearest ((paise : ℚ) / 100))).toList.filter (· ≠ ','))) =
      String.ofList ((formatGrouped 2 (nearest ((paise : ℚ) / 100))).toList.filter (· ≠ ',')) := by
    apply strip_eq_self
    intro c hc
    rw [String.toList_ofList] at hc
    exact (not_space_of_formatGrouped (List.mem_filter.mp hc).1).1
  have hhead : (proofInr paise).toList.head? ≠ some '-' := by
    rw [hlist]
    exact fun h => absurd (Option.some.inj h) (by decide)
  have hne : proofInr paise ≠ "" := by
    intro hempty
    rw [hempty] at hlist
    cases hlist
  unfold parseInrText
  dsimp only
  rw [hstrip, if_neg hne, if_neg hhead, hsymbol, hplain, readFloat_formatGrouped (by decide)]
  unfold shownRupees
  cases Float64.ofRat _ <;> simp [hhead]

/-- **An amount below `2 ^ 50` paise comes back as it was.** -/
theorem parseInrText_of_lt {paise : ℤ} (h : |paise| < 2 ^ 50) : parseInrText (proofInr paise) = some paise := by
  have hshown : shownRupees paise = (paise : ℚ) / 100 := by
    unfold shownRupees
    rw [roundHalfEven_hundredth h]
    simp only [nearest_hundredth_neg_iff h]
    split
    · rename_i hneg
      have habs : ((paise.natAbs : ℕ) : ℚ) = -paise := by
        rw [Nat.cast_natAbs, abs_of_neg hneg, Int.cast_neg]
      rw [habs]
      ring
    · rename_i hpos
      have habs : ((paise.natAbs : ℕ) : ℚ) = paise := by
        rw [Nat.cast_natAbs, abs_of_nonneg (not_lt.mp hpos)]
      rw [habs]
      ring
  have hcast : |(paise : ℚ)| < 2 ^ 50 := by exact_mod_cast h
  have hlt : |(paise : ℚ) / 100| < 2 ^ (50 : ℤ) := by
    rw [abs_div, abs_of_pos (by norm_num : (0 : ℚ) < 100), div_lt_iff₀ (by norm_num)]
    exact hcast.trans (by norm_num)
  have hfinite : |(paise : ℚ) / 100| < 2 ^ (970 : ℤ) :=
    hlt.trans (zpow_lt_zpow_right₀ (by norm_num) (by norm_num))
  have hback : |nearest ((paise : ℚ) / 100) * 100| < 2 ^ (970 : ℤ) := by
    have hnear := abs_nearest_lt (by norm_num) hlt
    calc |nearest ((paise : ℚ) / 100) * 100| = |nearest ((paise : ℚ) / 100)| * 100 := by
          rw [abs_mul, abs_of_pos (by norm_num : (0 : ℚ) < 100)]
      _ < 2 ^ ((50 : ℤ) + 1) * 100 := mul_lt_mul_of_pos_right hnear (by norm_num)
      _ < 2 ^ (60 : ℤ) := by norm_num
      _ < 2 ^ (970 : ℤ) := zpow_lt_zpow_right₀ (by norm_num) (by norm_num)
  rw [parseInrText_proofInr, hshown, Float64.ofRat_of_lt hfinite]
  dsimp only
  rw [Float64.ofRat_of_lt hback, roundFloat, roundHalfEven_nearest_hundredth h]
  rfl

/-- An amount of the length that the loader accepts comes back as some amount. -/
theorem exists_parseInrText {paise : ℤ} (h : |paise| < 2 ^ 100) : ∃ back, parseInrText (proofInr paise) = some back := by
  have hcast : |(paise : ℚ)| < 2 ^ 100 := by exact_mod_cast h
  have hrupees : |(paise : ℚ) / 100| < 2 ^ (100 : ℤ) := by
    rw [abs_div, abs_of_pos (by norm_num : (0 : ℚ) < 100), div_lt_iff₀ (by norm_num)]
    exact hcast.trans (by norm_num)
  have hnear := abs_nearest_lt (by norm_num) hrupees
  have hshown : |shownRupees paise| < 2 ^ (110 : ℤ) := by
    have hround := abs_le.mp (abs_roundHalfEven_sub_le (nearest ((paise : ℚ) / 100) * 10 ^ 2))
    have hmagnitude : |shownRupees paise| =
        |(roundHalfEven (nearest ((paise : ℚ) / 100) * 10 ^ 2) : ℚ)| / 100 := by
      unfold shownRupees
      rw [abs_mul, abs_div, Nat.cast_natAbs, Int.cast_abs, abs_abs]
      split <;> norm_num
    rw [hmagnitude, div_lt_iff₀ (by norm_num), abs_lt]
    obtain ⟨hlo, hhi⟩ := abs_lt.mp hnear
    norm_num at hlo hhi hround ⊢
    constructor <;> linarith
  have hback : |nearest (shownRupees paise) * 100| < 2 ^ (970 : ℤ) := by
    calc |nearest (shownRupees paise) * 100| = |nearest (shownRupees paise)| * 100 := by
          rw [abs_mul, abs_of_pos (by norm_num : (0 : ℚ) < 100)]
      _ < 2 ^ ((110 : ℤ) + 1) * 100 := mul_lt_mul_of_pos_right (abs_nearest_lt (by norm_num) hshown) (by norm_num)
      _ < 2 ^ (120 : ℤ) := by norm_num
      _ < 2 ^ (970 : ℤ) := zpow_lt_zpow_right₀ (by norm_num) (by norm_num)
  rw [parseInrText_proofInr, Float64.ofRat_of_lt (hshown.trans (zpow_lt_zpow_right₀ (by norm_num) (by norm_num)))]
  dsimp only
  rw [Float64.ofRat_of_lt hback]
  exact ⟨_, rfl⟩

/-! ## The checks on a packet of the engine -/

section Packet

variable {U : Unicode} {repr : Json → String} {pack : NarrationEvidencePack} {line : BankCreditLine}
  {a : RailAttribution} {sids : List String} {rejected : Option (List RejectedMatch)}
  {rec : Option ReconciliationResult} {fee : String}

/-- The labels that make a signal a tie are those of the signals the verifier allows. -/
theorem mem_allowedTieSignals {signal label : String} (h : tieLabels.lookup signal = some label) :
    signal ∈ allowedTieSignals := by
  by_contra hnot
  have hnone : tieLabels.lookup signal = none := by
    rw [List.lookup_eq_none_iff]
    intro p hp
    have hmem : p.1 ∈ allowedTieSignals := by
      have hlabels : ∀ p ∈ tieLabels, p.1 ∈ allowedTieSignals := by decide
      exact hlabels p hp
    rw [bne_iff_ne]
    rintro rfl
    exact hnot hmem
  rw [hnone] at h
  cases h

theorem tieCheck_proofPacket (h : packetTies a.evidence ≠ []) :
    ∃ check, tieCheck repr (proofPacket line a (packetProof U pack line a sids rejected) rec fee) = .ok check ∧
      check.passed = true := by
  have hsteps : ∀ tie ∈ packetTies a.evidence, ∃ t, checkTie repr tie = .ok t ∧ t.1 = true := by
    intro tie htie
    obtain ⟨e, _, he⟩ := List.mem_filterMap.mp htie
    obtain ⟨label, hlabel, rfl⟩ := Option.map_eq_some_iff.mp he
    exact ⟨(decide (e.signal ∈ allowedTieSignals), e.signal), rfl, decide_eq_true (mem_allowedTieSignals hlabel)⟩
  obtain ⟨checked, hchecked, hallowed⟩ := exists_mapM_eq_ok hsteps
  have hvalid : checked.filter (fun t => !t.1) = [] := by
    apply List.filter_eq_nil_iff.mpr
    intro t ht
    simp [hallowed t ht]
  unfold tieCheck
  rw [show (proofPacket line a (packetProof U pack line a sids rejected) rec fee).get "proof" =
    packetProof U pack line a sids rejected from rfl]
  dsimp only
  rw [if_neg (show ¬ (!(packetProof U pack line a sids rejected).isObj) = true from Bool.false_ne_true),
    show ((packetProof U pack line a sids rejected).get "ties").asArr? = some (packetTies a.evidence) from rfl]
  cases hties : packetTies a.evidence with
  | nil => exact absurd hties h
  | cons tie ties =>
      rw [hties] at hchecked
      dsimp only
      rw [hchecked]
      simp only [bind, Except.bind, hvalid]
      exact ⟨_, rfl, rfl⟩

theorem get_challenge : (packetProof U pack line a sids rejected).get "challenge" =
    (packetChallenge a).getD .null := by
  cases rejected with
  | none => cases hchallenge : packetChallenge a <;> simp [packetProof, Json.get_obj, hchallenge]
  | some rejected => cases hchallenge : packetChallenge a <;> simp [packetProof, Json.get_obj, hchallenge]

/-- **The margin check** accepts an audit exactly if its margin, as shown, is positive. -/
theorem marginCheck_proofPacket (hrail : a.rail = Rail.razorpaySettlement.value) :
    ∃ check, marginCheck repr (proofPacket line a (packetProof U pack line a sids rejected) rec fee) = .ok check ∧
      (check.passed = true ↔ ∀ margin, a.proofMargin = some margin → 0 < roundTo 4 margin) := by
  unfold marginCheck
  rw [show (proofPacket line a (packetProof U pack line a sids rejected) rec fee).get "proof" =
    packetProof U pack line a sids rejected from rfl, get_challenge]
  dsimp only
  rw [if_pos (show (((proofPacket line a (packetProof U pack line a sids rejected) rec fee).get "verdict").get
    "rail").isStr "razorpay_settlement" = true from decide_eq_true hrail)]
  cases hmargin : a.proofMargin with
  | none =>
      have hnone : packetChallenge a = none := by
        unfold packetChallenge
        rw [hmargin]
        rfl
      rw [hnone]
      exact ⟨_, rfl, ⟨fun _ margin h => (by cases h), fun _ => rfl⟩⟩
  | some margin =>
      have hsome : packetChallenge a = some (.obj [("proof_margin", .float (roundTo 4 margin)),
          ("rejected_explanation", Json.ofOption Explanation.toDict a.competingExplanation)]) := by
        unfold packetChallenge
        rw [hmargin]
        rfl
      rw [hsome, Option.getD_some, if_pos (show (Json.obj [("proof_margin", .float (roundTo 4 margin)),
        ("rejected_explanation", Json.ofOption Explanation.toDict a.competingExplanation)]).isObj = true from rfl)]
      rw [show (Json.obj [("proof_margin", .float (roundTo 4 margin)),
        ("rejected_explanation", Json.ofOption Explanation.toDict a.competingExplanation)]).get "proof_margin" =
          .float (roundTo 4 margin) from rfl]
      by_cases hpos : 0 < roundTo 4 margin
      · rw [if_pos (show positiveMargin (.float (roundTo 4 margin)) = true from decide_eq_true hpos)]
        exact ⟨_, rfl, fun _ m hm => Option.some.inj hm ▸ hpos, fun _ => rfl⟩
      · rw [if_neg (show ¬ positiveMargin (.float (roundTo 4 margin)) = true by
          unfold positiveMargin
          rw [decide_eq_true_eq]
          exact hpos)]
        refine ⟨_, rfl, fun hpassed => ?_, fun h => absurd (h margin rfl) hpos⟩
        cases hpassed

/-- An amount that can be read is not checked further until it is reconciled. -/
theorem arithmeticCheck_unresolved {proof : Json} {credited : ℤ}
    (h : parseInrText (proofInr line.amountPaise) = some credited) :
    ∃ check, arithmeticCheck repr (proofPacket line a proof none fee) = .ok check ∧ check.passed = true := by
  unfold arithmeticCheck
  rw [show (proofPacket line a proof none fee).get "amount_inr" = .str (proofInr line.amountPaise) from rfl,
    parseInrToPaise, h]
  exact ⟨_, rfl, rfl⟩

/-- A residual within the tolerance that is the one reported passes. -/
theorem residualCheck_passed {credited covered reported : ℤ}
    (hdrift : |credited - covered| ≤ verifierDriftTolerancePaise) (hreported : reported = credited - covered) :
    ∃ check, residualCheck credited covered reported = .ok check ∧ check.passed = true := by
  unfold residualCheck
  rw [if_neg (not_lt.mpr hdrift), if_neg (not_not.mpr hreported)]
  exact ⟨_, rfl, rfl⟩

/-- The settlement of a packet says what it covers and what is left over. -/
theorem settlementCheck_eq {settlement : Json} {text : String} {credited covered residual : ℤ}
    (hobj : settlement.isObj = true) (hnull : settlement.isNull = false)
    (hnet : settlement.get "covered_net_inr" = .str text) (hresidual : settlement.get "residual_paise" = .int residual)
    (hcovered : parseInrText text = some covered) :
    settlementCheck repr credited settlement = residualCheck credited covered residual := by
  unfold settlementCheck
  rw [hnull, hobj, if_neg (by decide), if_neg (by decide)]
  dsimp only
  rw [hnet, hresidual, parseInrToPaise, hcovered]
  rfl

theorem arithmeticCheck_eq {packet : Json} {credited : ℤ}
    (h : parseInrToPaise (packet.get "amount_inr") = .ok (some credited)) :
    arithmeticCheck repr packet = creditedCheck repr packet credited := by
  unfold arithmeticCheck
  rw [h]
  rfl

/-- **The arithmetic of a reconciled packet** is that of the amounts as they read back. -/
theorem arithmeticCheck_settled {proof : Json} {r : ReconciliationResult} {credited covered : ℤ}
    (hcredited : parseInrText (proofInr line.amountPaise) = some credited)
    (hcovered : parseInrText (proofInr r.coveredNetPaise) = some covered) :
    arithmeticCheck repr (proofPacket line a proof (some r) fee) =
      residualCheck credited covered r.residualPaise := by
  have hamount : parseInrToPaise ((proofPacket line a proof (some r) fee).get "amount_inr") = .ok (some credited) :=
    congrArg Except.ok hcredited
  have hreconciled : (((proofPacket line a proof (some r) fee).get? "reconciled").getD (.bool false)).truth = true :=
    rfl
  have hsettlement : (proofPacket line a proof (some r) fee).get "settlement" = packetSettlement r := rfl
  rw [arithmeticCheck_eq hamount]
  unfold creditedCheck
  rw [if_pos hreconciled, hsettlement]
  exact settlementCheck_eq rfl rfl rfl rfl hcovered

/-- A packet passes exactly if its three checks do. -/
theorem verifyProofPacket_eq {packet : Json} (hobj : packet.isObj = true) {ties arithmetic margin : CheckResult}
    (hties : tieCheck repr packet = .ok ties) (harithmetic : arithmeticCheck repr packet = .ok arithmetic)
    (hmargin : marginCheck repr packet = .ok margin) :
    verifyProofPacket U repr packet none = .ok ⟨[ties, arithmetic, margin].all CheckResult.passed,
      [ties, arithmetic, margin], pyStr repr ((packet.get? "line_key").getD (.str "unknown"))⟩ := by
  unfold verifyProofPacket
  rw [if_neg (by rw [hobj]; exact Bool.false_ne_true), hties, harithmetic, hmargin]
  rfl

end Packet

/-! ## The packets of a run -/

/-- The two amounts of a reconciliation, read back, are as far apart as the amounts themselves. -/
def ReadsBack (r : ReconciliationResult) : Prop :=
  (parseInrText (proofInr r.creditAmountPaise)).getD 0 - (parseInrText (proofInr r.coveredNetPaise)).getD 0 =
    r.residualPaise

/-- What the loader accepts as an amount: a number of at most 28 digits. -/
def loadedPaise : ℤ := 10 ^ 28

/-- A reconciliation of a line: balanced, and over the amount of the line. -/
structure Settlement (line : BankCreditLine) (r : ReconciliationResult) : Prop where
  credit : r.creditAmountPaise = line.amountPaise
  residual : r.residualPaise = line.amountPaise - r.coveredNetPaise
  balanced : |r.residualPaise| ≤ driftTolerancePaise

/-- Small amounts read back. -/
theorem Settlement.readsBack {line : BankCreditLine} {r : ReconciliationResult} (h : Settlement line r)
    (hsmall : |line.amountPaise| + driftTolerancePaise < 2 ^ 50) : ReadsBack r := by
  have htolerance : (0 : ℤ) ≤ driftTolerancePaise := by decide
  have hbalanced := h.balanced
  have hresidual := h.residual
  have hcovered : |r.coveredNetPaise| < 2 ^ 50 := by
    have heq : r.coveredNetPaise = line.amountPaise - r.residualPaise := by omega
    rw [heq]
    have hle := abs_sub line.amountPaise r.residualPaise
    omega
  unfold ReadsBack
  rw [h.credit, parseInrText_of_lt (show |line.amountPaise| < 2 ^ 50 by omega), parseInrText_of_lt hcovered,
    Option.getD_some, Option.getD_some, hresidual]

/-- **A packet passes exactly if the audit's note does**, as long as its amounts read back. -/
theorem verifyProofPacket_proofPacket (U : Unicode) (repr : Json → String) (pack : NarrationEvidencePack)
    {line : BankCreditLine} {a : RailAttribution} (sids : List String) (rejected : Option (List RejectedMatch))
    {rec : Option ReconciliationResult} (fee : String) (hpacketed : Packeted a)
    (hloaded : |line.amountPaise| < loadedPaise) (hrec : ∀ r, rec = some r → Settlement line r ∧ ReadsBack r) :
    ∃ result, verifyProofPacket U repr (proofPacket line a (packetProof U pack line a sids rejected) rec fee) none =
      .ok result ∧ (result.ok = true ↔ MarginShown a) ∧ (result.ok = true ↔ ∀ check ∈ result.checks, check.passed) := by
  have hlength : loadedPaise + driftTolerancePaise < 2 ^ 100 := by decide
  have htolerance : (0 : ℤ) ≤ driftTolerancePaise := by decide
  obtain ⟨credited, hcredited⟩ := exists_parseInrText (show |line.amountPaise| < 2 ^ 100 by omega)
  obtain ⟨ties, hties, htied⟩ : ∃ check, tieCheck repr (proofPacket line a (packetProof U pack line a sids rejected) rec
      fee) = .ok check ∧ check.passed = true := tieCheck_proofPacket hpacketed.2
  obtain ⟨margin, hmargin, hshown⟩ : ∃ check, marginCheck repr (proofPacket line a (packetProof U pack line a sids
      rejected) rec fee) = .ok check ∧ (check.passed = true ↔ ∀ m, a.proofMargin = some m → 0 < roundTo 4 m) :=
    marginCheck_proofPacket hpacketed.1.1
  have harithmetic : ∃ check, arithmeticCheck repr (proofPacket line a (packetProof U pack line a sids rejected) rec
      fee) = .ok check ∧ check.passed = true := by
    cases hsettled : rec with
    | none => exact arithmeticCheck_unresolved hcredited
    | some r =>
        obtain ⟨hsettlement, hreads⟩ := hrec r hsettled
        have hbalanced := hsettlement.balanced
        have hresidual := hsettlement.residual
        have hnet : |r.coveredNetPaise| < 2 ^ 100 := by
          have heq : r.coveredNetPaise = line.amountPaise - r.residualPaise := by omega
          rw [heq]
          have hle := abs_sub line.amountPaise r.residualPaise
          omega
        obtain ⟨covered, hcovered⟩ := exists_parseInrText hnet
        unfold ReadsBack at hreads
        rw [hsettlement.credit, hcredited, hcovered, Option.getD_some, Option.getD_some] at hreads
        obtain ⟨check, hcheck, hpassed⟩ := residualCheck_passed (hreads.symm ▸ hbalanced) hreads.symm
        exact ⟨check, (arithmeticCheck_settled hcredited hcovered).trans hcheck, hpassed⟩
  obtain ⟨arithmetic, harithmetic, hsums⟩ := harithmetic
  refine ⟨_, verifyProofPacket_eq rfl hties harithmetic hmargin, ?_, ?_⟩
  · unfold MarginShown
    rw [← hshown]
    simp [htied, hsums]
  · simp

section Packets

variable {U : Unicode} {digest : RowSignature → String} {pack : NarrationEvidencePack} {rows : List ReconRow}
  {lines : LinesByKey} {recs : Dict String ReconciliationResult} {rejected : Option (List RejectedMatch)}
  {a : RailAttribution} {line : BankCreditLine}

/-- What one turn of the loop makes of an attribution. -/
theorem packetStep_eq_ok (hline : lines.dict.get? a.lineKey = some line) {made : Option Json}
    (h : packetStep U digest pack rows lines recs rejected a = .ok made) :
    (Packeted a → ∃ sids fee, made =
      some (proofPacket line a (packetProof U pack line a sids rejected) (recs.get? a.lineKey) fee)) ∧
    (¬ Packeted a → made = none) := by
  unfold packetStep at h
  unfold Packeted IsRazorpay
  by_cases hopen : a.rail ≠ Rail.razorpaySettlement.value ∨ a.abstained
  · rw [if_pos hopen] at h
    refine ⟨fun hpacketed => ?_, fun _ => (Except.ok.inj h).symm⟩
    rcases hopen with hrail | habs
    · exact absurd hpacketed.1.1 hrail
    · rw [hpacketed.1.2] at habs
      cases habs
  · rw [if_neg hopen, hline] at h
    rw [not_or, not_not, Bool.not_eq_true] at hopen
    dsimp only at h
    by_cases hties : packetTies a.evidence = []
    · rw [if_pos hties] at h
      exact ⟨fun hpacketed => absurd hties hpacketed.2, fun _ => (Except.ok.inj h).symm⟩
    · rw [if_neg hties] at h
      refine ⟨fun _ => ?_, fun hnot => absurd ⟨hopen, hties⟩ hnot⟩
      cases hrec : recs.get? a.lineKey with
      | none =>
          rw [hrec] at h
          exact ⟨_, _, (Except.ok.inj h).symm⟩
      | some r =>
          rw [hrec] at h
          obtain ⟨covered, _, hmade⟩ := bind_eq_ok.mp h
          exact ⟨_, _, (Except.ok.inj hmade).symm⟩

/-- **The packets** are those of the attributions that have one. -/
theorem mem_buildProofPackets {lines : List BankCreditLine} {attributions : List RailAttribution}
    {reconciliations : List ReconciliationResult} {packets : List Json}
    (h : buildProofPackets U digest pack rows lines attributions reconciliations rejected = .ok packets) :
    (∀ packet ∈ packets, ∃ a ∈ attributions, packetStep U digest pack rows (linesByKey lines)
      (reconciliationsByKey reconciliations) rejected a = .ok (some packet)) ∧
    ∀ a ∈ attributions, ∃ made, packetStep U digest pack rows (linesByKey lines)
      (reconciliationsByKey reconciliations) rejected a = .ok made ∧ ∀ packet, made = some packet → packet ∈ packets := by
  unfold buildProofPackets at h
  obtain ⟨made, hmade, hpackets⟩ := bind_eq_ok.mp h
  obtain rfl := Except.ok.inj hpackets
  have hsteps := mapM_eq_ok.mp hmade
  constructor
  · intro packet hpacket
    have hmem : some packet ∈ made := List.reduceOption_mem_iff.mp hpacket
    exact exists_of_mem_mapM hmade hmem
  · intro a ha
    obtain ⟨i, hi, rfl⟩ := List.getElem_of_mem ha
    have hlt : i < made.length := hsteps.length_eq ▸ hi
    refine ⟨_, (List.forall₂_iff_get.mp hsteps).2 i hi hlt, fun packet hpacket => ?_⟩
    exact List.reduceOption_mem_iff.mpr (hpacket ▸ List.getElem_mem hlt)

end Packets

end Untangle
