import Untangle.Correctness.Attribute.ProofGate
import Untangle.Lib.Printed

/-!
# `Correctness.Attribute.Once` — how often a settlement is proven

The split phase gives a settlement to one group of credits at most, and none of its legs is proven otherwise. It
does not look at what the first phase has proven: a settlement that a credit pays whole may be matched by a group
as well (`whole_and_split`).
-/

namespace Untangle

open Lib

variable {U : Unicode} {s : Settings} {index : ReconIndex} {lines : List BankCreditLine} {line : BankCreditLine}
  {a : RailAttribution} {sid sid' : String}

/-! ## The settlement a split item names -/

/-- The wording of the balance is determined by its tail. -/
theorem balance_injective {r r' : ℤ} {t t' : String}
    (h : (if r = 0 then "exactly" else "within " ++ toString r.natAbs ++ " paise of") ++ t =
      (if r' = 0 then "exactly" else "within " ++ toString r'.natAbs ++ " paise of") ++ t') : t = t' := by
  have hapart : ∀ t t' : String, "exactly" ++ t ≠ "within " ++ t' := by
    intro t t' heq
    have hlist := congrArg String.toList heq
    simp at hlist
  by_cases hr : r = 0 <;> by_cases hr' : r' = 0
  · rw [if_pos hr, if_pos hr'] at h
    exact (String.append_right_inj _).mp h
  · rw [if_pos hr, if_neg hr', String.append_assoc, String.append_assoc] at h
    exact absurd h (hapart _ _)
  · rw [if_neg hr, if_pos hr', String.append_assoc, String.append_assoc] at h
    exact absurd h.symm (hapart _ _)
  · rw [if_neg hr, if_neg hr', String.append_assoc, String.append_assoc, String.append_assoc, String.append_assoc] at h
    have hstop : StopsNumber " paise of" := by
      unfold StopsNumber
      simp
    have htail := append_inj_of_number (stopsNumber_append hstop (by decide)) (stopsNumber_append hstop (by decide))
      ((String.append_right_inj _).mp h)
    exact (String.append_right_inj _).mp htail

/-- **A split item names its settlement.** -/
theorem splitItem_injective {n n' : Nat} {r r' : ℤ} (h : splitItem sid n r = splitItem sid' n' r') : sid = sid' := by
  have hdetail := congrArg EvidenceItem.detail h
  unfold splitItem at hdetail
  dsimp only at hdetail
  simp only [String.append_assoc] at hdetail
  have hstop : StopsNumber " bank legs whose amounts uniquely sum to " := by
    unfold StopsNumber
    simp
  have hbalance := append_inj_of_number (stopsNumber_append hstop (by decide)) (stopsNumber_append hstop (by decide))
    ((String.append_right_inj _).mp hdetail)
  exact (String.append_right_inj _).mp (balance_injective ((String.append_right_inj _).mp hbalance))

/-! ## Whole and split proofs -/

/-- The verdict is proven by the reconstruction of a split of the settlement. -/
def ProvenBySplit (a : RailAttribution) (sid : String) : Prop :=
  IsRazorpay a ∧ ∃ legs residual, splitItem sid legs residual ∈ a.evidence

/-- The verdict is proven whole against the settlement: by its UTR, or by the one net that is the amount. -/
def ProvenWhole (U : Unicode) (index : ReconIndex) (line : BankCreditLine) (a : RailAttribution) (sid : String) : Prop :=
  IsRazorpay a ∧
    ((hasSignal ["utr_exact"] a.evidence = true ∧
        ∃ tok ∈ extractUtrTokens U (normalizeNarration U line.rawText), index.utrToSid.get? (U.lower tok) = some sid) ∨
      (hasSignal ["amount_corr"] a.evidence = true ∧ index.netToSettlements.get? line.amountPaise = some [sid]))

theorem signal_narrationRailSignals {pack : NarrationEvidencePack} {p : Rail × List EvidenceItem} {e : EvidenceItem}
    (hp : p ∈ (narrationRailSignals U pack line).items) (he : e ∈ p.2) : e.signal = narrationPattern p.1 := by
  obtain ⟨_, detail, hevidence⟩ := evidence_of_keyword hp
  rw [hevidence, List.mem_singleton] at he
  rw [he]

/-- No evidence of a line's own is a split reconstruction. -/
theorem RazorpayOrigin.no_split {pack : NarrationEvidencePack} {evidence : List EvidenceItem} {e : EvidenceItem}
    (h : RazorpayOrigin U pack index line evidence) (he : e ∈ evidence) : e.signal ≠ "split_reconstruction" := by
  intro hsplit
  have hown : e ∉ razorpaySignals U pack index line := by
    intro hmem
    have hname := signal_razorpaySignals hmem
    rw [hsplit] at hname
    exact absurd hname (by decide)
  cases h with
  | keyword hp hrail =>
      have hname := signal_narrationRailSignals hp he
      rw [hsplit, hrail] at hname
      exact absurd hname (by decide)
  | tied => exact hown he
  | joined _ _ sids _ =>
      rcases List.mem_append.mp he with he | he
      · exact hown he
      · rw [List.mem_singleton.mp he] at hsplit
        exact absurd hsplit (show ("setsum" : String) ≠ _ by decide)

/-- **Proven by split** are the legs of the lifted groups, while the confidence of a split covers the margin. -/
theorem provenBySplit_iff (hnd : (lines.map BankCreditLine.key).Nodup) (hline : line ∈ lines) :
    ProvenBySplit (verdictOf U s index lines line) sid ↔
      s.threshold ≤ splitConfidence ∧ s.marginThreshold ≤ splitConfidence ∧
        ∃ K, LiftedGroup U s.pack index (splitCandidates U s index lines) sid K ∧ line.key ∈ K := by
  constructor
  · intro h
    obtain ⟨hrzp, legs, residual, hitem⟩ := h
    by_cases hlifted : IsLifted U s index lines line
    · have hmargin : s.marginThreshold ≤ splitConfidence := by
        by_contra hlow
        have hunknown := (hlifted.isUnknown hnd hline (not_le.mp hlow)).2
        rw [hrzp.2] at hunknown
        exact absurd hunknown (by simp)
      obtain ⟨hon, sid', K, hgroup, hkey⟩ := hlifted
      rw [verdictOf_of_lifted hnd hon hgroup hkey] at hrzp hitem
      rw [(accepted_of_isRazorpay hrzp).evidence, List.mem_singleton] at hitem
      exact ⟨hon, hmargin, K, splitItem_injective hitem ▸ hgroup, hkey⟩
    · rw [verdictOf_of_not_lifted hnd hlifted] at hrzp hitem
      exact absurd rfl ((lineVerdict_origin hrzp).no_split hitem)
  · intro h
    obtain ⟨hon, hmargin, K, hgroup, hkey⟩ := h
    have hrzp := IsLifted.isRazorpay hnd ⟨hon, sid, K, hgroup, hkey⟩ hline hmargin
    refine ⟨hrzp, K.card, (legOf index (splitCandidates U s index lines) sid K).2.2, ?_⟩
    rw [verdictOf_of_lifted hnd hon hgroup hkey] at hrzp ⊢
    rw [(accepted_of_isRazorpay hrzp).evidence]
    exact List.mem_singleton_self _

/-- The evidence of a leg is its split item alone. -/
theorem ProvenBySplit.evidence (hnd : (lines.map BankCreditLine.key).Nodup) (hline : line ∈ lines)
    (h : ProvenBySplit (verdictOf U s index lines line) sid) :
    ∃ legs residual, (verdictOf U s index lines line).evidence = [splitItem sid legs residual] := by
  obtain ⟨hon, _, K, hgroup, hkey⟩ := (provenBySplit_iff hnd hline).mp h
  have hrzp := h.1
  rw [verdictOf_of_lifted hnd hon hgroup hkey] at hrzp ⊢
  exact ⟨_, _, (accepted_of_isRazorpay hrzp).evidence⟩

/-- What the split phase adds to the verdicts of the lines. -/
structure SplitsOnce (U : Unicode) (s : Settings) (index : ReconIndex) (lines : List BankCreditLine)
    (out : List RailAttribution) : Prop where
  /-- The credits proven by a split of one settlement are the legs of one group. -/
  oneGroup : ∀ sid, (∃ a ∈ out, ProvenBySplit a sid) → ∃ legs, SplitLegs index lines sid legs ∧
    ∀ line ∈ lines, ∀ a ∈ out, a.lineKey = line.key → (ProvenBySplit a sid ↔ line ∈ legs)
  /-- No credit is proven both by a split and whole, nor by the splits of two settlements. -/
  apart : ∀ line ∈ lines, ∀ a ∈ out, a.lineKey = line.key → ∀ sid, ProvenBySplit a sid →
    ∀ sid', ¬ ProvenWhole U index line a sid' ∧ (ProvenBySplit a sid' → sid' = sid)
  /-- A leg had abstained on its own. -/
  leftOver : ∀ line ∈ lines, ∀ a ∈ out, a.lineKey = line.key → ∀ sid, ProvenBySplit a sid →
    ∃ own, attributeLine U s index line = .ok own ∧ own.abstained = true

/-- **The splits of the baseline**: a settlement is split once, and its legs are proven by nothing else. -/
theorem splits_once (U : Unicode) (s : Settings) (index : ReconIndex) (lines : List BankCreditLine)
    (hnd : (lines.map BankCreditLine.key).Nodup) :
    ∃ out, attributeAll U s index lines = .ok out ∧ SplitsOnce U s index lines out := by
  refine ⟨_, attributeAll_eq U s index lines, ?_⟩
  -- an output is the verdict of the line whose key it has
  have hof : ∀ line ∈ lines, ∀ a ∈ lines.map (verdictOf U s index lines), a.lineKey = line.key →
      a = verdictOf U s index lines line := by
    intro line hline a ha hkey
    obtain ⟨ln, hln, rfl⟩ := List.mem_map.mp ha
    rw [lineKey_verdictOf] at hkey
    rw [line_ext hnd hln hline hkey]
  refine ⟨fun sid hproven => ?_, fun line hline a ha hkey sid h sid' => ?_, fun line hline a ha hkey sid h => ?_⟩
  · obtain ⟨a, ha, h⟩ := hproven
    obtain ⟨ln, hln, rfl⟩ := List.mem_map.mp ha
    obtain ⟨hon, hmargin, K, hgroup, _⟩ := (provenBySplit_iff hnd hln).mp h
    obtain ⟨legs, hlegs, hK, _⟩ := hgroup.exists_legs hnd
    refine ⟨legs, hlegs, fun line hline a ha hkey => ?_⟩
    rw [hof line hline a ha hkey, provenBySplit_iff hnd hline]
    constructor
    · intro h
      obtain ⟨_, _, K', hgroup', hkey'⟩ := h
      rw [hgroup.sole K' hgroup'.isMatch, ← hK] at hkey'
      exact mem_of_keySet hnd hlegs.sublist hline hkey'
    · intro hmem
      exact ⟨hon, hmargin, K, hgroup, hK ▸ mem_keySet.mpr ⟨line, hmem, rfl⟩⟩
  · rw [hof line hline a ha hkey] at h ⊢
    obtain ⟨legs, residual, hev⟩ := h.evidence hnd hline
    constructor
    · intro hwhole
      rcases hwhole.2 with ⟨hsignal, _⟩ | ⟨hsignal, _⟩ <;> rw [hev] at hsignal <;>
        exact absurd hsignal (by simp [hasSignal, splitItem])
    · intro h'
      obtain ⟨_, legs', residual', hitem⟩ := h'
      rw [hev, List.mem_singleton] at hitem
      exact splitItem_injective hitem
  · rw [hof line hline a ha hkey] at h
    obtain ⟨hon, hmargin, K, hgroup, hkey⟩ := (provenBySplit_iff hnd hline).mp h
    exact ⟨_, attributeLine_eq U s index line, (mem_splitCandidates.mp (hgroup.mem hnd hline hkey)).2.1⟩

/-! ### A settlement paid whole and in two legs -/

def wholeCredit : BankCreditLine := creditLine "w" "NEFT 1111111111aaaaaa" 100000

def firstLeg : BankCreditLine := creditLine "p" "NEFT RATN0000088" 60000

def wholeLines : List BankCreditLine := [wholeCredit, firstLeg, creditLine "q" "NEFT RATN0000088" 40000]

def wholeIndex : ReconIndex := ReconIndex.ofRows asciiUnicode [settledRow "pay_1" "S1" (some "1111111111aaaaaa") 100000]

theorem splits_once_whole :
    (wholeLines.map BankCreditLine.key).Nodup ∧
      ∃ out, attributeAll asciiUnicode ⟨11 / 20, 0, false, defaultNarrationPack⟩ wholeIndex wholeLines = .ok out ∧
        SplitsOnce asciiUnicode ⟨11 / 20, 0, false, defaultNarrationPack⟩ wholeIndex wholeLines out :=
  have hnd : (wholeLines.map BankCreditLine.key).Nodup := by decide
  ⟨hnd, splits_once asciiUnicode ⟨11 / 20, 0, false, defaultNarrationPack⟩ wholeIndex wholeLines hnd⟩

/-- The two verdicts. -/
theorem whole_run :
    let verdict := verdictOf asciiUnicode ⟨11 / 20, 0, false, defaultNarrationPack⟩ wholeIndex wholeLines
    ((verdict wholeCredit).rail = "razorpay_settlement" ∧ (verdict wholeCredit).abstained = false ∧
        hasSignal ["utr_exact"] (verdict wholeCredit).evidence = true) ∧
      (verdict firstLeg).rail = "razorpay_settlement" ∧ (verdict firstLeg).abstained = false ∧
        (verdict firstLeg).evidence = [splitItem "S1" 2 0] := by
  decide +kernel

/-- **One settlement, proven twice**: a credit carries its UTR, and two others sum to its net. -/
theorem whole_and_split :
    ∃ out, attributeAll asciiUnicode ⟨11 / 20, 0, false, defaultNarrationPack⟩ wholeIndex wholeLines = .ok out ∧
      ∃ a ∈ out, ∃ b ∈ out, ProvenWhole asciiUnicode wholeIndex wholeCredit a "S1" ∧ ProvenBySplit b "S1" := by
  obtain ⟨⟨hrail, hopen, hexact⟩, hrail', hopen', hsplit⟩ := whole_run
  refine ⟨_, attributeAll_eq _ _ _ _, _, List.mem_map_of_mem List.mem_cons_self, _,
    List.mem_map_of_mem (List.mem_cons_of_mem _ List.mem_cons_self), ?_, ⟨hrail', hopen'⟩, 2, 0, ?_⟩
  · refine ⟨⟨hrail, hopen⟩, Or.inl ⟨hexact, "1111111111aaaaaa", ?_, ?_⟩⟩
    all_goals decide +kernel
  · show splitItem "S1" 2 0 ∈ _
    rw [hsplit]
    exact List.mem_singleton_self _

end Untangle
