import Untangle.Correctness.Attribute.ProofGate
import Untangle.Correctness.Solver.Represented

/-!
# `Correctness.Solver.UtrEdges` — which settlements a UTR is looked up for

The evidence matches the tokens of the whole text of a line. The builder looks for the settlement again: an exact UTR
among the tokens of the narration and the whole bank reference, a suffix match in the text of the evidence. So a UTR
that the evidence matched need not be the one that the builder reads. The edges of a credit target the settlement of
its evidence precisely if the two readings agree (`utr_targeted_iff`).
-/

namespace Untangle

open Lib

/-! ## What the tables say of ASCII text -/

/-- The documented behaviour of `unicodedata.normalize` and `str.lower` on ASCII text, and of `repr` on letters and
    digits. -/
structure Unicode.Documented (U : Unicode) : Prop where
  nfkc_ascii : ∀ s : String, (∀ c ∈ s.toList, c.toNat < 128) → U.nfkc s = s
  lower_ascii : ∀ s : String, (∀ c ∈ s.toList, c.toNat < 128) →
    U.lower s = String.ofList (s.toList.map Char.toLower)
  repr_letters : ∀ s : String, (∀ c ∈ s.toList, isAlnum c = true) → U.repr s = "'" ++ s ++ "'"

theorem asciiUnicode_documented : asciiUnicode.Documented :=
  ⟨fun _ _ => rfl, fun _ _ => rfl, fun _ _ => rfl⟩

/-! ## The pattern on the text of the evidence -/

theorem eq_underscore_of_toLower {c : Char} (h : c.toLower = '_') : c = '_' := by
  unfold Char.toLower at h
  split at h
  · rename_i hupper
    have hval := congrArg (fun c : Char => c.val.toNat) h
    have hlo := UInt32.le_iff_toNat_le.mp hupper.1
    have hhi := UInt32.le_iff_toNat_le.mp hupper.2
    have hsub : ('a'.val - 'A'.val).toNat = 32 := by decide
    have hA : 'A'.val.toNat = 65 := by decide
    have hZ : 'Z'.val.toNat = 90 := by decide
    have h_ : '_'.val.toNat = 95 := by decide
    simp only [UInt32.toNat_add, hsub, h_] at hval
    omega
  · exact h

/-- The pattern has an underscore after ten letters. -/
theorem suffixUtrHere_eq_none {text : List Char} (h : '_' ∉ text.take 11) : suffixUtrHere text = none := by
  unfold suffixUtrHere
  dsimp only
  rw [if_neg]
  intro hmatch
  rw [Bool.and_eq_true, Bool.and_eq_true, Bool.and_eq_true, decide_eq_true_eq, List.all_eq_true] at hmatch
  obtain ⟨⟨⟨hlength, hletters⟩, _⟩, _⟩ := hmatch
  have hlong : 14 ≤ text.length := hlength
  have hmem : ('_', text[10]) ∈ "settlement_utr".toList.zip text := by
    have hten : 10 < ("settlement_utr".toList.zip text).length := by
      rw [List.length_zip]
      simp
      omega
    have hzip : ("settlement_utr".toList.zip text)[10] = ('_', text[10]) := by
      rw [List.getElem_zip]
      rfl
    rw [← hzip]
    exact List.getElem_mem _
  have hchar := hletters _ hmem
  have hsame : text[10] = '_' := by
    rw [Bool.or_eq_true, Bool.or_eq_true, beq_iff_eq, beq_iff_eq] at hchar
    rcases hchar with (hchar | hchar) | hchar
    · exact hchar
    · exact eq_underscore_of_toLower hchar
    · simp at hchar
  apply h
  rw [← hsame]
  exact List.mem_take_iff_getElem.mpr ⟨10, by omega, rfl⟩
/-- The pattern does not start in text without underscores. -/
theorem suffixUtr_skip {before text : List Char} (h : '_' ∉ before ++ text.take 10) :
    suffixUtr (before ++ text) = suffixUtr text := by
  induction before with
  | nil => rfl
  | cons c before ih =>
      have hrest := ih fun hmem => h (List.mem_cons_of_mem c hmem)
      have hhere : suffixUtrHere (c :: (before ++ text)) = none := by
        apply suffixUtrHere_eq_none
        intro hmem
        rw [← List.cons_append, List.take_append] at hmem
        apply h
        rcases List.mem_append.mp hmem with hmem | hmem
        · exact List.mem_append_left _ (List.mem_of_mem_take hmem)
        · apply List.mem_append_right
          exact (List.take_subset_take_left text (by simp)) hmem
      show (suffixUtrHere (c :: (before ++ text))).orElse (fun _ => suffixUtr (before ++ text)) = _
      rw [hhere]
      exact hrest

/-- What the pattern reads in the evidence of a suffix match. -/
def readBack (U : Unicode) (utr how : String) : List String :=
  ((suffixUtr ("settlement_utr " ++ utr ++ ", corroborated by " ++ how).toList).map U.lower).toList

theorem isSpace_of_isAlnum {c : Char} (h : isAlnum c = true) : isSpace c = false := by
  unfold isAlnum isDigit at h
  unfold isSpace
  simp at h ⊢
  omega

/-- A UTR of letters and digits is read back as a whole. -/
theorem readBack_letters (U : Unicode) {utr : String} (hletters : ∀ c ∈ utr.toList, isAlnum c = true) (hne : utr ≠ "")
    (how : String) : readBack U utr how = [U.lower utr] := by
  have hnil : utr.toList ≠ [] := fun h => hne (String.toList_eq_nil_iff.mp h)
  have htext : ("settlement_utr " ++ utr ++ ", corroborated by " ++ how).toList =
      "settlement_utr ".toList ++ (utr.toList ++ ", corroborated by ".toList ++ how.toList) := by
    simp [String.toList_append]
  generalize hrest : utr.toList ++ ", corroborated by ".toList ++ how.toList = rest at htext
  have hgroup : (rest.dropWhile isSpace).takeWhile isAlnum = utr.toList := by
    have hstart : rest.dropWhile isSpace = rest := by
      obtain ⟨c, cs, hcs⟩ := List.exists_cons_of_ne_nil hnil
      have hc := isSpace_of_isAlnum (hletters c (hcs ▸ List.mem_cons_self))
      rw [← hrest, hcs]
      exact List.dropWhile_cons_of_neg (by simp [hc])
    rw [hstart, ← hrest, List.append_assoc, List.takeWhile_append_of_pos hletters]
    exact List.append_nil _
  have hword : "settlement_utr".toList = ['s', 'e', 't', 't', 'l', 'e', 'm', 'e', 'n', 't', '_', 'u', 't', 'r'] := by
    decide
  have hwords : "settlement_utr ".toList = "settlement_utr".toList ++ [' '] := by decide
  have hhere : suffixUtrHere ("settlement_utr".toList ++ ' ' :: rest) = some utr := by
    have hspace : (' ' :: rest).dropWhile isSpace = rest.dropWhile isSpace := List.dropWhile_cons_of_pos (by decide)
    have hrun : ((' ' :: rest).takeWhile isSpace).isEmpty = false := by
      rw [List.takeWhile_cons_of_pos (by decide)]
      rfl
    have hfound : utr.toList.isEmpty = false := by rwa [List.isEmpty_eq_false_iff]
    have hsame : ∀ word : List Char, (word.zip (word ++ ' ' :: rest)).all (fun p =>
        p.2 == p.1 || p.2.toLower == p.1 || (p.1 == 's' && p.2.toNat == 0x17F)) = true := by
      intro word
      induction word with
      | nil => rfl
      | cons c word ih => simp [ih]
    have hlength : decide ("settlement_utr".toList.length ≤ ("settlement_utr".toList ++ ' ' :: rest).length) =
        true := by
      rw [decide_eq_true_eq, List.length_append]
      exact Nat.le_add_right _ _
    unfold suffixUtrHere
    dsimp only
    rw [List.drop_left, hspace, hgroup, hrun, hfound, hlength, hsame, if_pos (by decide), String.ofList_toList]
  have hread : suffixUtr ("settlement_utr".toList ++ ' ' :: rest) = some utr := by
    rw [hword] at hhere ⊢
    rw [List.cons_append, suffixUtr, ← List.cons_append, hhere]
    rfl
  unfold readBack
  rw [htext, hwords, List.append_assoc, List.singleton_append, hread]
  rfl

theorem isAlnum_of_mem_alnumRuns {run cs : List Char} (hrun : ∀ c ∈ run, isAlnum c = true) {r : List Char}
    (h : r ∈ alnumRuns run cs) : ∀ c ∈ r, isAlnum c = true := by
  induction cs generalizing run with
  | nil =>
      obtain rfl := List.mem_singleton.mp h
      exact fun c hc => hrun c (List.mem_reverse.mp hc)
  | cons c cs ih =>
      unfold alnumRuns at h
      split at h
      · rename_i hc
        exact ih (List.forall_mem_cons.mpr ⟨hc, hrun⟩) h
      · rcases List.mem_cons.mp h with rfl | h
        · exact fun c hc => hrun c (List.mem_reverse.mp hc)
        · exact ih (fun c hc => absurd hc List.not_mem_nil) h

theorem isAlnum_of_mem_suffixCandidates {text tok : String} (h : tok ∈ suffixCandidates text) :
    ∀ c ∈ tok.toList, isAlnum c = true := by
  unfold suffixCandidates alnumTokens at h
  rw [(List.perm_insertionSort _ _).mem_iff, List.mem_dedup] at h
  obtain ⟨run, hrun, rfl⟩ := List.mem_map.mp h
  rw [String.toList_ofList]
  exact isAlnum_of_mem_alnumRuns (fun c hc => absurd hc List.not_mem_nil) (List.mem_filter.mp hrun).1

/-- The words before the UTR have no underscore. -/
theorem suffixUtr_detail {U : Unicode} (hU : U.Documented) {tok : String}
    (htok : ∀ c ∈ tok.toList, isAlnum c = true) (utr how : String) :
    suffixUtr ((SuffixTie.strong tok utr how).item U).detail.toList =
      suffixUtr ("settlement_utr " ++ utr ++ ", corroborated by " ++ how).toList := by
  have htext : ((SuffixTie.strong tok utr how).item U).detail.toList =
      ("token '".toList ++ tok.toList ++ "' is the unique suffix of ".toList) ++
        ("settlement_utr " ++ utr ++ ", corroborated by " ++ how).toList := by
    unfold SuffixTie.item
    dsimp only
    rw [hU.repr_letters tok htok]
    simp [String.toList_append]
  rw [htext]
  apply suffixUtr_skip
  have hhead : ("settlement_utr " ++ utr ++ ", corroborated by " ++ how).toList.take 10 = "settlement".toList := by
    simp [String.toList_append]
  have hletters : '_' ∉ tok.toList := by
    intro hmem
    exact absurd (htok '_' hmem) (by decide)
  rw [hhead]
  simp [hletters]

/-! ## The edges that ties point at -/

/-- The settlements of the UTRs that are looked up. -/
def Named (index : ReconIndex) (utrs : List String) (sid : String) : Prop :=
  ∃ utr ∈ utrs, index.utrToSid.get? utr = some sid

/-- The UTRs that the builder looks up for an exact match. -/
def quotedUtrs (U : Unicode) (line : BankCreditLine) : List String :=
  (extractUtrTokens U line.narration ++ ((truthy line.bankRef).map strip).toList).map U.lower

/-- The amount is the net of this settlement alone, dated within the window of splits. -/
def AmountTie (index : ReconIndex) (line : BankCreditLine) (sid : String) : Prop :=
  index.netToSettlements.get? line.amountPaise = some [sid] ∧
    datedWithin index.settlementDate splitDateWindow sid line.valueDate = true

theorem AmountTie.unique {index : ReconIndex} {line : BankCreditLine} {sid sid' : String}
    (h : AmountTie index line sid) (h' : AmountTie index line sid') : sid = sid' := by
  have heq := h.1.symm.trans h'.1
  exact List.head_eq_of_cons_eq (Option.some.inj heq)

/-- A UTR with a settlement is one of the report. -/
structure ReconIndex.Reported (index : ReconIndex) : Prop where
  nonempty : ∀ utr sid, index.utrToSid.get? utr = some sid → truthy (some sid) = some sid
  listed : ∀ utr sid, index.utrToSid.get? utr = some sid → utr ∈ index.settlementUtrs

theorem reported_ofRows (U : Unicode) (rows : List ReconRow) : (ReconIndex.ofRows U rows).Reported := by
  constructor
  · intro utr sid h
    obtain ⟨r, _, hsid, _⟩ := get?_settlementOfUtr h
    have hne := (Option.filter_eq_some_iff.mp hsid).2
    exact Option.filter_eq_some_iff.mpr ⟨rfl, hne⟩
  · intro utr sid h
    obtain ⟨r, hr, _, hutr⟩ := get?_settlementOfUtr h
    exact List.mem_dedup.mpr (List.mem_filterMap.mpr ⟨r, hr, hutr⟩)

section Ties

variable {U : Unicode} {pack : NarrationEvidencePack} {index : ReconIndex} {line : BankCreditLine} {sid : String}

theorem mem_razorpaySignals_of_amount {e : EvidenceItem} (h : e ∈ amountSignals index line) :
    e ∈ razorpaySignals U pack index line :=
  List.mem_append_left _ (List.mem_append_right _ h)

/-- The amount points at its settlement. -/
theorem tiePoints_amount_iff (U : Unicode) (pack : NarrationEvidencePack) (hcredit : line.isCredit = true) :
    (hasSignal ["amount_corr"] (razorpaySignals U pack index line) = true ∧
        sid ∈ (index.netToSettlements.get? line.amountPaise).getD [] ∧
        datedWithin index.settlementDate splitDateWindow sid line.valueDate = true) ↔ AmountTie index line sid := by
  constructor
  · rintro ⟨htie, hnet, hdated⟩
    obtain ⟨e, he, hsignal⟩ := List.any_eq_true.mp htie
    obtain ⟨_, ⟨sid', hsid'⟩, _⟩ := amount_corr_signal he (by simpa using hsignal)
    rw [hsid', Option.getD_some, List.mem_singleton] at hnet
    rw [hnet] at hdated ⊢
    exact ⟨hsid', hdated⟩
  · rintro ⟨hnet, hdated⟩
    refine ⟨?_, by rw [hnet]; exact List.mem_singleton_self sid, hdated⟩
    have hamount : ∃ e ∈ amountSignals index line, e.signal = "amount_corr" := by
      unfold amountSignals
      rw [hcredit, if_pos rfl, hnet]
      exact ⟨_, List.mem_cons_self, rfl⟩
    obtain ⟨e, he, hsignal⟩ := hamount
    exact List.any_eq_true.mpr ⟨e, mem_razorpaySignals_of_amount he, by simp [hsignal]⟩

/-- With an exact UTR the builder looks up the quoted UTRs. -/
theorem tiePoints_exact_iff (hindex : index.Reported) (hcredit : line.isCredit = true) {t : String}
    (ht : matchedExact U index line = some t) :
    TiePoints U index line (razorpaySignals U pack index line) sid ↔
      Named index (quotedUtrs U line) sid ∨ AmountTie index line sid := by
  constructor
  · intro h
    cases h with
    | exact _ tok htok _ hsid =>
        exact Or.inl ⟨U.lower tok, List.mem_map_of_mem htok, (Option.filter_eq_some_iff.mp hsid).1⟩
    | suffix e he htie utr _ _ =>
        rcases mem_utrSignals (mem_utrSignals_of_signal he (Or.inr htie)) with ⟨_, _, rfl⟩ | ⟨hno, _⟩
        · exact absurd htie (show "utr_exact" ≠ "utr_suffix" by decide)
        · rw [ht] at hno
          cases hno
    | amount htie hnet hdated => exact Or.inr ((tiePoints_amount_iff U pack hcredit).mp ⟨htie, hnet, hdated⟩)
  · rintro (⟨utr, hutr, hsid⟩ | hamount)
    · obtain ⟨tok, htok, rfl⟩ := List.mem_map.mp hutr
      refine .exact ?_ tok htok (decide_eq_true (hindex.listed _ _ hsid)) ?_
      · have hexact : ∃ e ∈ utrSignals U index line, e.signal = "utr_exact" := by
          unfold utrSignals
          rw [ht]
          exact ⟨_, List.mem_singleton_self _, rfl⟩
        obtain ⟨e, he, hsignal⟩ := hexact
        exact List.any_eq_true.mpr ⟨e, List.mem_append_left _ (List.mem_append_left _ he), by simp [hsignal]⟩
      · rw [hsid]
        exact hindex.nonempty _ _ hsid
    · obtain ⟨htie, hnet, hdated⟩ := (tiePoints_amount_iff U pack hcredit).mpr hamount
      exact .amount htie hnet hdated

/-- A corroborated suffix. -/
structure SuffixMatch (U : Unicode) (index : ReconIndex) (line : BankCreditLine) (tok utr how : String) : Prop where
  unmatched : matchedExact U index line = none
  scan : suffixScan U index line none (suffixCandidates (normalizeNarration U line.rawText)) =
    some (.strong tok utr how)

theorem SuffixMatch.utrSignals {tok utr how : String} (h : SuffixMatch U index line tok utr how) :
    utrSignals U index line = [(SuffixTie.strong tok utr how).item U] := by
  unfold Untangle.utrSignals
  rw [h.unmatched, h.scan]
  rfl

theorem SuffixMatch.mem_iff (pack : NarrationEvidencePack) {tok utr how : String}
    (h : SuffixMatch U index line tok utr how) {e : EvidenceItem} :
    (e ∈ razorpaySignals U pack index line ∧ e.signal = "utr_suffix") ↔ e = (SuffixTie.strong tok utr how).item U := by
  constructor
  · rintro ⟨he, hsignal⟩
    have hmem := mem_utrSignals_of_signal he (Or.inr hsignal)
    rw [h.utrSignals] at hmem
    exact List.mem_singleton.mp hmem
  · rintro rfl
    refine ⟨List.mem_append_left _ (List.mem_append_left _ ?_), rfl⟩
    rw [h.utrSignals]
    exact List.mem_singleton_self _

/-- With a suffix match the builder looks up the UTR that it reads in the evidence. -/
theorem mem_suffixSids_iff (pack : NarrationEvidencePack) (hU : U.Documented) (hindex : index.Reported)
    {tok utr how : String}
    (h : SuffixMatch U index line tok utr how) :
    sid ∈ suffixSids U index (razorpaySignals U pack index line) ↔ Named index (readBack U utr how) sid := by
  have htok := isAlnum_of_mem_suffixCandidates (suffixScan_strong (fun _ _ _ h => by cases h) h.scan).1
  have hread := suffixUtr_detail hU htok utr how
  unfold suffixSids
  rw [List.mem_filterMap]
  constructor
  · rintro ⟨e, he, hsome⟩
    split at hsome
    · rename_i hsignal
      obtain rfl := (h.mem_iff pack).mp ⟨he, hsignal⟩
      rw [hread] at hsome
      obtain ⟨utr', hutr', hsid⟩ := Option.bind_eq_some_iff.mp hsome
      refine ⟨U.lower utr', ?_, (Option.filter_eq_some_iff.mp hsid).1⟩
      unfold readBack
      rw [hutr']
      exact List.mem_singleton_self _
    · cases hsome
  · rintro ⟨utr', hutr', hsid⟩
    obtain ⟨he, hsignal⟩ := (h.mem_iff pack).mpr rfl
    refine ⟨_, he, ?_⟩
    rw [if_pos hsignal, hread]
    unfold readBack at hutr'
    obtain ⟨read, hread', rfl⟩ := Option.map_eq_some_iff.mp (Option.mem_toList.mp hutr')
    rw [hread', Option.bind_some, hsid]
    exact hindex.nonempty _ _ hsid

theorem tiePoints_suffix_iff (hU : U.Documented) (hindex : index.Reported) (hcredit : line.isCredit = true)
    {tok utr how : String} (h : SuffixMatch U index line tok utr how) :
    TiePoints U index line (razorpaySignals U pack index line) sid ↔
      Named index (readBack U utr how) sid ∨ AmountTie index line sid := by
  rw [← mem_suffixSids_iff pack hU hindex h]
  constructor
  · intro htie
    cases htie with
    | exact htie tok' _ _ _ =>
        obtain ⟨e, he, hsignal⟩ := List.any_eq_true.mp htie
        obtain ⟨t, ht, _⟩ := utr_exact_signal he (by simpa using hsignal)
        rw [h.unmatched] at ht
        cases ht
    | suffix e he htie utr' hread hsid =>
        refine Or.inl (List.mem_filterMap.mpr ⟨e, he, ?_⟩)
        rw [if_pos htie, hread]
        exact hsid
    | amount htie hnet hdated => exact Or.inr ((tiePoints_amount_iff U pack hcredit).mp ⟨htie, hnet, hdated⟩)
  · rintro (hsuffix | hamount)
    · obtain ⟨e, he, hsome⟩ := List.mem_filterMap.mp hsuffix
      split at hsome
      · rename_i hsignal
        obtain ⟨utr', hread, hsid⟩ := Option.bind_eq_some_iff.mp hsome
        exact .suffix e he hsignal utr' hread hsid
      · cases hsome
    · obtain ⟨htie, hnet, hdated⟩ := (tiePoints_amount_iff U pack hcredit).mpr hamount
      exact .amount htie hnet hdated

end Ties

/-! ## The edges of a credit -/

/-- The graph at threshold zero. -/
def zeroThreshold : GraphSettings := { threshold := some 0 }

/-- The evidence of a UTR that the line is tied by: an exact one, or one that a token is the suffix of. -/
inductive UtrEvidence (U : Unicode) (index : ReconIndex) (line : BankCreditLine) : EvidenceItem → String → Prop
  | exact {e : EvidenceItem} {t : String} (he : e ∈ razorpaySignals U defaultNarrationPack index line)
      (hsignal : e.signal = "utr_exact") (ht : matchedExact U index line = some t) :
      UtrEvidence U index line e (U.lower t)
  | suffix {e : EvidenceItem} {tok utr how : String} (he : e ∈ razorpaySignals U defaultNarrationPack index line)
      (hsignal : e.signal = "utr_suffix") (h : SuffixMatch U index line tok utr how) :
      UtrEvidence U index line e utr

section Edges

variable {U : Unicode} {index : ReconIndex} {lines : List BankCreditLine} {line : BankCreditLine}
  {c : CandidateAssignment} {e : EvidenceItem} {sid : String}

theorem UtrEvidence.mem {utr : String} (h : UtrEvidence U index line e utr) :
    e ∈ razorpaySignals U defaultNarrationPack index line ∧ (e.signal = "utr_exact" ∨ e.signal = "utr_suffix") := by
  cases h with
  | exact he hsignal _ => exact ⟨he, Or.inl hsignal⟩
  | suffix he hsignal _ => exact ⟨he, Or.inr hsignal⟩

/-- A tie makes an edge of the credit. -/
theorem edge_of_tiePoints (hline : line ∈ lines) (hcredit : isGraphCredit line = true)
    (h : TiePoints U index line (razorpaySignals U defaultNarrationPack index line) sid) :
    ∃ c ∈ (buildCandidateGraph U zeroThreshold index lines).candidates, line.key ∈ c.creditKeys ∧
      c.rail = Rail.razorpaySettlement.value ∧ c.targetId = sid ∧
      c.evidence = razorpaySignals U defaultNarrationPack index line ∧ c.isSplit = false := by
  have hc : ∃ c ∈ settlementCandidates U zeroThreshold index line, c.targetId = sid := by
    have hgate : ∀ conf : ℚ, ¬ (zeroThreshold.threshold.any fun t =>
        decide (defaultThreshold < t) && decide (conf < t)) = true := by
      intro conf hany
      rw [show zeroThreshold.threshold = some 0 from rfl, Option.any_some, Bool.and_eq_true,
        decide_eq_true_eq] at hany
      exact absurd hany.1 (by norm_num [defaultThreshold])
    unfold settlementCandidates
    dsimp only
    rw [show zeroThreshold.pack = defaultNarrationPack from rfl, h.tied, if_neg (by simp), if_neg (hgate _)]
    exact ⟨_, List.mem_map_of_mem (mem_matchedSids.mpr h), rfl⟩
  obtain ⟨c, hc, htarget⟩ := hc
  have hset := mem_settlementCandidates hc
  refine ⟨c, settlementCandidate_mem hline hcredit hc, ?_, hset.rail, htarget, hset.evidence, hset.single⟩
  rw [hset.keys]
  exact List.mem_singleton_self _

/-- What carries the evidence of a UTR is an edge to a settlement. -/
theorem razorpay_of_evidence (hc : c ∈ (buildCandidateGraph U zeroThreshold index lines).candidates)
    (he : e ∈ c.evidence) (hsignal : e.signal = "utr_exact" ∨ e.signal = "utr_suffix") :
    c.rail = Rail.razorpaySettlement.value := by
  cases (mem_graphCandidates hc).1 with
  | sink ln _ _ heq =>
      rw [heq] at he
      exact absurd he List.not_mem_nil
  | rail ln _ _ h =>
      obtain ⟨p, hp, _, _, hevidence, _⟩ := h.named
      obtain ⟨_, detail, hitems⟩ := evidence_of_keyword hp
      rw [hevidence, hitems] at he
      rw [List.mem_singleton.mp he] at hsignal
      have hpattern : ∀ rail, narrationPattern rail ≠ "utr_exact" ∧ narrationPattern rail ≠ "utr_suffix" := by
        intro rail
        cases rail <;> decide
      exact absurd hsignal (not_or.mpr (hpattern p.1))
  | settlement ln _ _ h => exact h.rail
  | split sid net date sub _ heq _ =>
      rw [heq]
      rfl

/-- An edge of a credit to a settlement comes from a tie, or is a split that the credit is a leg of. -/
theorem tiePoints_of_edge (hnd : (lines.map BankCreditLine.key).Nodup) (hline : line ∈ lines)
    (hc : c ∈ (buildCandidateGraph U zeroThreshold index lines).candidates) (hkey : line.key ∈ c.creditKeys)
    (hrail : c.rail = Rail.razorpaySettlement.value) :
    (c.isSplit = false ∧ TiePoints U index line (razorpaySignals U defaultNarrationPack index line) c.targetId) ∨
      ∃ net date sub, IsSplit U zeroThreshold index lines c.targetId net date sub ∧ line ∈ sub := by
  have hown : ∀ {ln : BankCreditLine}, ln ∈ lines → c.creditKeys = [ln.key] → ln = line := by
    intro ln hln hkeys
    rw [hkeys, List.mem_singleton] at hkey
    exact line_ext hnd hln hline hkey.symm
  cases (mem_graphCandidates hc).1 with
  | sink ln _ _ heq =>
      rw [heq] at hrail
      exact absurd hrail (show Rail.unknown.value ≠ Rail.razorpaySettlement.value by decide)
  | rail ln _ _ h =>
      obtain ⟨p, hp, _, hname, _⟩ := h.named
      have hkeyword := (evidence_of_keyword hp).1
      rw [Rail.value_injective (hname.symm.trans hrail)] at hkeyword
      exact absurd hkeyword (by decide)
  | settlement ln hln _ h =>
      obtain rfl := hown hln h.keys
      exact Or.inl ⟨h.single, mem_matchedSids.mp h.target⟩
  | split sid net date sub h heq _ =>
      rw [heq, (splitCandidate_keys_perm U zeroThreshold index _ sid net sub).mem_iff] at hkey
      obtain ⟨leg, hleg, hlegkey⟩ := List.mem_map.mp hkey
      obtain rfl := line_ext hnd (h.sublist.subset hleg) hline hlegkey
      rw [heq]
      exact Or.inr ⟨net, date, sub, h, hleg⟩

/-- The suffix ties of a credit's key are its own. -/
theorem mem_tiedSids_iff (hnd : (lines.map BankCreditLine.key).Nodup) (hline : line ∈ lines)
    (hsource : isSplitSource U zeroThreshold index line = true) :
    sid ∈ tiedSids U zeroThreshold index lines line.key ↔
      sid ∈ suffixSids U index (razorpaySignals U defaultNarrationPack index line) := by
  unfold tiedSids
  rw [List.mem_flatMap]
  constructor
  · rintro ⟨ln, hln, hsid⟩
    obtain ⟨hln, hkey⟩ := List.mem_filter.mp hln
    rw [Bool.and_eq_true, decide_eq_true_eq] at hkey
    obtain rfl := line_ext hnd hln hline hkey.2
    exact hsid
  · intro hsid
    exact ⟨line, List.mem_filter.mpr ⟨hline, by simp [hsource]⟩, hsid⟩

/-- A credit with a suffix tie is eligible for the settlements that it names only. -/
theorem eligible_tied (hnd : (lines.map BankCreditLine.key).Nodup) (hline : line ∈ lines) {sid' : String} {net : ℤ}
    {date : Date} (h : line ∈ eligibleFor U zeroThreshold index lines sid' net date)
    (hsid : sid ∈ suffixSids U index (razorpaySignals U defaultNarrationPack index line)) :
    sid' ∈ suffixSids U index (razorpaySignals U defaultNarrationPack index line) := by
  unfold eligibleFor at h
  obtain ⟨hsplit, hok⟩ := List.mem_filter.mp h
  have hsource := (mem_splitLines hsplit).2.1
  rw [Bool.and_eq_true, Bool.or_eq_true, decide_eq_true_eq, decide_eq_true_eq] at hok
  rcases hok.2 with hnone | htied
  · rw [← mem_tiedSids_iff hnd hline hsource, hnone] at hsid
    exact absurd hsid List.not_mem_nil
  · exact (mem_tiedSids_iff hnd hline hsource).mp htied

/-! ## Where the readings agree -/

/-- The graph targets the settlement of the evidence: the credit has an edge to it, and what carries the evidence has
    no other target, unless the amount ties the credit to that one. -/
structure TargetsOf (U : Unicode) (index : ReconIndex) (line : BankCreditLine) (e : EvidenceItem) (sid : String)
    (lines : List BankCreditLine) : Prop where
  edge : ∃ c ∈ (buildCandidateGraph U zeroThreshold index lines).candidates,
    line.key ∈ c.creditKeys ∧ c.rail = Rail.razorpaySettlement.value ∧ c.targetId = sid
  only : ∀ c ∈ (buildCandidateGraph U zeroThreshold index lines).candidates, line.key ∈ c.creditKeys →
    e ∈ c.evidence → c.targetId = sid ∨ (c.isSplit = false ∧ AmountTie index line c.targetId)

/-- The UTR evidence of a line is for the settlement that its edges target, whatever other lines there are. -/
def UtrTargeted (U : Unicode) (index : ReconIndex) (line : BankCreditLine) : Prop :=
  ∀ e utr sid, UtrEvidence U index line e utr → index.utrToSid.get? utr = some sid →
    ∀ lines, line ∈ lines → (lines.map BankCreditLine.key).Nodup → TargetsOf U index line e sid lines

/-- The settlement is that of a UTR looked up, or the amount's, and so is every settlement of a UTR looked up. -/
structure Agrees (index : ReconIndex) (line : BankCreditLine) (utrs : List String) (sid : String) : Prop where
  positive : 0 < line.amountPaise
  named : Named index utrs sid ∨ AmountTie index line sid
  only : ∀ sid', Named index utrs sid' → sid' = sid ∨ AmountTie index line sid'

/-- The line has a keyword of another rail, or no other settlement is both larger and near. -/
def Unsplittable (U : Unicode) (index : ReconIndex) (line : BankCreditLine) (sid : String) : Prop :=
  (narrationRailSignals U defaultNarrationPack line).items ≠ [] ∨
    ∀ p ∈ splitSettlements index, p.1 ≠ sid → line.amountPaise < p.2.1 →
      withinDays splitDateWindow line.valueDate p.2.2 = false

/-- What the builder reads agrees with what the evidence matched. -/
structure UtrAgrees (U : Unicode) (index : ReconIndex) (line : BankCreditLine) : Prop where
  exact : ∀ t sid, matchedExact U index line = some t → index.utrToSid.get? (U.lower t) = some sid →
    Agrees index line (quotedUtrs U line) sid
  suffix : ∀ tok utr how sid, SuffixMatch U index line tok utr how → index.utrToSid.get? utr = some sid →
    Agrees index line (readBack U utr how) sid ∧ (Named index (readBack U utr how) sid ∨ Unsplittable U index line sid)

section Readings

variable {utrs : List String}

theorem targets_of_agrees
    (hiff : ∀ sid', TiePoints U index line (razorpaySignals U defaultNarrationPack index line) sid' ↔
      Named index utrs sid' ∨ AmountTie index line sid')
    (hcredit : line.isCredit = true) (hsignal : e.signal = "utr_exact" ∨ e.signal = "utr_suffix")
    (h : Agrees index line utrs sid) (hline : line ∈ lines) (hnd : (lines.map BankCreditLine.key).Nodup)
    (hsplit : ∀ sid' net date, (sid', net, date) ∈ splitSettlements index →
      line ∈ eligibleFor U zeroThreshold index lines sid' net date → sid' = sid) :
    TargetsOf U index line e sid lines := by
  have hgraph : isGraphCredit line = true := by
    unfold isGraphCredit
    rw [hcredit, Bool.true_and, decide_eq_true_eq]
    exact h.positive
  constructor
  · obtain ⟨c, hc, hkey, hrail, htarget, _⟩ := edge_of_tiePoints hline hgraph ((hiff sid).mpr h.named)
    exact ⟨c, hc, hkey, hrail, htarget⟩
  · intro c hc hkey he
    rcases tiePoints_of_edge hnd hline hc hkey (razorpay_of_evidence hc he hsignal) with
      ⟨hsingle, htie⟩ | ⟨net, date, sub, hsub, hleg⟩
    · rcases (hiff c.targetId).mp htie with hnamed | hamount
      · exact (h.only _ hnamed).imp_right fun hamount => ⟨hsingle, hamount⟩
      · exact Or.inr ⟨hsingle, hamount⟩
    · exact Or.inl (hsplit _ net date hsub.payable ((mem_allSumSubsets hsub.found).1.subset hleg))

/-- A statement of one line has no split. -/
theorem agrees_of_targets
    (hiff : ∀ sid', TiePoints U index line (razorpaySignals U defaultNarrationPack index line) sid' ↔
      Named index utrs sid' ∨ AmountTie index line sid')
    (he : e ∈ razorpaySignals U defaultNarrationPack index line) (h : TargetsOf U index line e sid [line]) :
    Agrees index line utrs sid := by
  have hnd : ([line].map BankCreditLine.key).Nodup := List.nodup_singleton _
  obtain ⟨c, hc, hkey, hrail, htarget⟩ := h.edge
  have hgraph : isGraphCredit line = true := by
    have horigin := (mem_graphCandidates hc).1
    obtain ⟨ln, hln, hcredit, _⟩ := mem_creditNodes.mp (horigin.keys_subset hkey)
    rwa [List.mem_singleton.mp hln] at hcredit
  have hpositive : 0 < line.amountPaise := by
    unfold isGraphCredit at hgraph
    rw [Bool.and_eq_true, decide_eq_true_eq] at hgraph
    exact hgraph.2
  refine ⟨hpositive, ?_, ?_⟩
  · rcases tiePoints_of_edge hnd (List.mem_singleton_self line) hc hkey hrail with
      ⟨_, htie⟩ | ⟨net, date, sub, hsub, hleg⟩
    · rw [htarget] at htie
      exact (hiff sid).mp htie
    · have htwo := (mem_allSumSubsets hsub.found).2.1
      exact absurd (htwo.trans hsub.sublist.length_le) (Nat.not_succ_le_self 1)
  · intro sid' hnamed
    obtain ⟨c, hc, hkey, hrail, htarget, hevidence, hsingle⟩ :=
      edge_of_tiePoints (List.mem_singleton_self line) hgraph ((hiff sid').mpr (Or.inl hnamed))
    have honly := h.only c hc hkey (hevidence ▸ he)
    rw [htarget] at honly
    exact honly.imp_right And.right

end Readings

/-! ### A credit that makes up a split

Where the builder reads no settlement in the evidence, the credit may be a leg of any split. One that makes it up to a
larger settlement needs nothing but the brand. -/

/-- The rest of a settlement, in a line that leans to Razorpay. -/
def companion (line : BankCreditLine) (net : ℤ) : BankCreditLine where
  key := line.key ++ "+"
  valueDate := line.valueDate
  amountPaise := net - line.amountPaise
  narration := "rzp"
  bankRef := none
  isCredit := true

section Companion

variable {net : ℤ}

theorem companion_key_ne (line : BankCreditLine) (net : ℤ) : line.key ≠ (companion line net).key := by
  intro h
  have hlength := congrArg String.length h
  rw [show (companion line net).key = line.key ++ "+" from rfl, String.length_append] at hlength
  exact absurd hlength (by simp)

theorem brand_ascii : ∀ c ∈ "rzp".toList, c.toNat < 128 := by
  have hall : "rzp".toList.all (fun c => decide (c.toNat < 128)) = true := by decide +kernel
  exact fun c hc => of_decide_eq_true (List.all_eq_true.mp hall c hc)

theorem normalizeNarration_brand (hU : U.Documented) : normalizeNarration U "rzp" = "rzp" := by
  unfold normalizeNarration
  rw [hU.nfkc_ascii "rzp" brand_ascii]
  decide

theorem companion_text (hU : U.Documented) : normalizeNarration U (companion line net).rawText = "rzp" := by
  have hraw : (companion line net).rawText = "rzp" := by
    show strip ("rzp" ++ " " ++ "") = "rzp"
    decide
  rw [hraw]
  exact normalizeNarration_brand hU

theorem companion_matchText (hU : U.Documented) :
    NarrationEvidencePack.matchText U (companion line net) = "rzp" := by
  unfold NarrationEvidencePack.matchText
  rw [companion_text hU, hU.lower_ascii "rzp" brand_ascii]
  decide

theorem companion_utrSignals (hU : U.Documented) : utrSignals U index (companion line net) = [] := by
  have hnone : matchedExact U index (companion line net) = none := by
    unfold matchedExact extractUtrTokens
    rw [companion_text hU, normalizeNarration_brand hU]
    rfl
  unfold utrSignals
  rw [hnone, companion_text hU]
  have hcandidates : suffixCandidates "rzp" = [] := by decide
  rw [hcandidates]
  rfl

theorem companion_suffixSids (hU : U.Documented) :
    suffixSids U index (razorpaySignals U defaultNarrationPack index (companion line net)) = [] := by
  unfold suffixSids
  rw [List.filterMap_eq_nil_iff]
  intro e he
  rw [if_neg]
  intro hsignal
  have hmem := mem_utrSignals_of_signal he (Or.inr hsignal)
  rw [companion_utrSignals hU] at hmem
  exact absurd hmem List.not_mem_nil

theorem companion_rails (hU : U.Documented) :
    (narrationRailSignals U defaultNarrationPack (companion line net)).items = [] := by
  by_contra hne
  obtain ⟨p, hp⟩ := List.exists_mem_of_ne_nil _ hne
  have hkey := Dict.mem_keys_of_mem (k := p.1) (v := p.2) hp
  unfold narrationRailSignals NarrationEvidencePack.evaluateNonRzpSignals at hkey
  rw [Dict.mem_keys_gather] at hkey
  obtain ⟨q, hq, hhit⟩ := hkey
  have hnone : ∀ q ∈ defaultNarrationPack.railKeywords.items, q.2.find? (fun kw => isIn kw "rzp") = none := by
    decide +kernel
  unfold NarrationEvidencePack.keywordHit at hhit
  rw [companion_matchText hU, hnone q hq] at hhit
  cases hhit

theorem companion_leans (hU : U.Documented) :
    hasSignal rzpLeaningSignals (razorpaySignals U defaultNarrationPack index (companion line net)) = true := by
  have hdecoy : defaultNarrationPack.decoyMarkers.find? (fun marker => isIn marker "rzp") = none := by decide
  have hbrand : (defaultNarrationPack.rzpBrand.any fun b => isIn b "rzp") = true := by decide
  have hweak : ∀ hasTokens matchedExactUtr, ∃ e ∈ defaultNarrationPack.evaluateRzpNarrationSignals U
      (companion line net) hasTokens matchedExactUtr, e.signal = "narration_brand_rzp" := by
    intro hasTokens matchedExactUtr
    unfold NarrationEvidencePack.evaluateRzpNarrationSignals NarrationEvidencePack.hasDecoyMarker
    dsimp only
    rw [companion_matchText hU, hdecoy, if_neg (by decide), hbrand, Bool.true_and]
    split
    · exact ⟨_, List.mem_append_left _ (List.mem_append_left _ (List.mem_singleton_self _)), rfl⟩
    · rw [if_pos rfl]
      exact ⟨_, List.mem_append_left _ (List.mem_append_left _ (List.mem_singleton_self _)), rfl⟩
  obtain ⟨e, he, hsignal⟩ := hweak _ _
  exact List.any_eq_true.mpr ⟨e, List.mem_append_right _ he, by simp [hsignal, rzpLeaningSignals]⟩

theorem companion_source (hU : U.Documented) (hpositive : line.amountPaise < net) :
    isSplitSource U zeroThreshold index (companion line net) = true := by
  have hexact : hasSignal ["utr_exact"] (razorpaySignals U defaultNarrationPack index (companion line net)) =
      false := by
    rw [Bool.eq_false_iff]
    intro htie
    obtain ⟨e, he, hsignal⟩ := List.any_eq_true.mp htie
    have hmem := mem_utrSignals_of_signal he (Or.inl (by simpa using hsignal))
    rw [companion_utrSignals hU] at hmem
    exact absurd hmem List.not_mem_nil
  have hcredit : isGraphCredit (companion line net) = true := by
    unfold isGraphCredit
    exact decide_eq_true (sub_pos.mpr hpositive)
  unfold isSplitSource
  rw [show zeroThreshold.pack = defaultNarrationPack from rfl, hexact, companion_rails hU, hcredit]
  rfl

/-- A loop that only adds keeps what it starts with, and what one of its steps adds. -/
theorem mem_foldl_of_mem {α β : Type} {f : List β → α → List β} (hadds : ∀ acc a, ∀ b ∈ acc, b ∈ f acc a)
    (l : List α) {acc : List β} {b : β} (hb : b ∈ acc) : b ∈ l.foldl f acc := by
  induction l generalizing acc with
  | nil => exact hb
  | cons a l ih => exact ih (hadds acc a b hb)

theorem mem_foldl_of_step {α β : Type} {f : List β → α → List β} (hadds : ∀ acc a, ∀ b ∈ acc, b ∈ f acc a)
    {l : List α} {a : α} {b : β} (ha : a ∈ l) (hstep : ∀ acc, b ∈ f acc a) (acc : List β) : b ∈ l.foldl f acc := by
  induction l generalizing acc with
  | nil => exact absurd ha List.not_mem_nil
  | cons a' l ih =>
      rcases List.mem_cons.mp ha with rfl | ha
      · exact mem_foldl_of_mem hadds l (hstep acc)
      · exact ih ha (f acc a')

/-- A split carries the strong evidence of its legs. -/
theorem mem_splitEvidence {gs : GraphSettings} {signals : Dict String (List String)} {sub : List BankCreditLine}
    {leg : BankCreditLine} (hleg : leg ∈ sub) (hstrong : e.signal ∈ strongRzpSignals)
    (hsignal : e.signal ∈ (signals.get? leg.key).getD []) (he : e ∈ razorpaySignals U gs.pack index leg) :
    e ∈ splitEvidence U gs index signals sid sub := by
  -- an item is added once
  have hitem : ∀ (sig : String) (ev : List EvidenceItem) (item : EvidenceItem), ∀ e' ∈ ev,
      e' ∈ if item.signal = sig ∧ item ∉ ev then ev ++ [item] else ev := by
    intro sig ev item e' he'
    split
    · exact List.mem_append_left _ he'
    · exact he'
  have hsig : ∀ (c : BankCreditLine) (ev : List EvidenceItem) (sig : String), ∀ e' ∈ ev,
      e' ∈ if sig ∈ (signals.get? c.key).getD [] then
        (razorpaySignals U gs.pack index c).foldl (fun ev item =>
          if item.signal = sig ∧ item ∉ ev then ev ++ [item] else ev) ev
        else ev := by
    intro c ev sig e' he'
    split
    · exact mem_foldl_of_mem (hitem sig) _ he'
    · exact he'
  unfold splitEvidence
  refine mem_foldl_of_step (fun ev c e' he' => mem_foldl_of_mem (hsig c) _ he') hleg (fun ev => ?_) _
  refine mem_foldl_of_step (hsig leg) hstrong (fun ev => ?_) ev
  rw [if_pos hsignal]
  refine mem_foldl_of_step (hitem e.signal) he (fun ev => ?_) ev
  by_cases hin : e ∈ ev
  · rw [if_neg fun h => h.2 hin]
    exact hin
  · rw [if_pos ⟨rfl, hin⟩]
    exact List.mem_append_right _ (List.mem_singleton_self e)

/-- Two lines whose amounts sum to the net are a group. -/
theorem pair_mem_allSumSubsets {a b : BankCreditLine} (h : a.amountPaise + b.amountPaise = net) :
    [a, b] ∈ allSumSubsets [a, b] net splitDriftPaise splitMaxLegs := by
  have hgroups : (List.range' 2 (splitMaxLegs - 1)).flatMap (fun k => combinations k [a, b]) = [[a, b]] := rfl
  have hsum : |([a, b].map BankCreditLine.amountPaise).sum - net| ≤ splitDriftPaise := by
    rw [show ([a, b].map BankCreditLine.amountPaise).sum = net by simpa using h, sub_self, abs_zero]
    decide
  have hkept : [[a, b]].filter (fun combo =>
      decide (|(combo.map BankCreditLine.amountPaise).sum - net| ≤ splitDriftPaise)) = [[a, b]] := by
    rw [List.filter_eq_self]
    intro combo hcombo
    rw [List.mem_singleton.mp hcombo]
    exact decide_eq_true hsum
  unfold allSumSubsets
  rw [hgroups, hkept]
  exact List.mem_singleton_self _

theorem not_tooLarge {elig : List BankCreditLine} (h : elig.length ≤ 2) : ¬ TooLarge zeroThreshold elig := by
  rintro ⟨htwo, hover⟩
  have hlength : elig.length = 2 := le_antisymm h htwo
  rw [hlength] at hover
  exact absurd hover (by decide)

/-- The credit and its companion make up the settlement. -/
theorem exists_split (hU : U.Documented) (hsource : isSplitSource U zeroThreshold index line = true)
    (hpositive : 0 < line.amountPaise) (he : e ∈ razorpaySignals U defaultNarrationPack index line)
    (hsignal : e.signal = "utr_suffix")
    (hunread : suffixSids U index (razorpaySignals U defaultNarrationPack index line) = []) {date : Date}
    (hpayable : (sid, net, date) ∈ splitSettlements index) (hless : line.amountPaise < net)
    (hnear : withinDays splitDateWindow line.valueDate date = true) :
    ∃ c ∈ (buildCandidateGraph U zeroThreshold index [line, companion line net]).candidates,
      line.key ∈ c.creditKeys ∧ e ∈ c.evidence ∧ c.targetId = sid ∧ c.isSplit = true := by
  have hnd : ([line, companion line net].map BankCreditLine.key).Nodup := by
    simp [companion_key_ne line net]
  have hlines : splitLines U zeroThreshold index [line, companion line net] = [line, companion line net] := by
    unfold splitLines
    rw [List.filter_eq_self]
    intro ln hln
    rw [Bool.and_eq_true]
    rcases List.mem_pair.mp hln with rfl | rfl
    · exact ⟨hsource, List.any_eq_true.mpr ⟨e, he, by simp [hsignal, rzpLeaningSignals]⟩⟩
    · exact ⟨companion_source hU hless, companion_leans hU⟩
  have hties : ∀ ln ∈ [line, companion line net],
      tiedSids U zeroThreshold index [line, companion line net] ln.key = [] := by
    intro ln hln
    rw [List.eq_nil_iff_forall_not_mem]
    intro sid' hsid'
    rcases List.mem_pair.mp hln with rfl | rfl
    · rw [mem_tiedSids_iff hnd hln hsource, hunread] at hsid'
      exact absurd hsid' List.not_mem_nil
    · rw [mem_tiedSids_iff hnd hln (companion_source hU hless), companion_suffixSids hU] at hsid'
      exact absurd hsid' List.not_mem_nil
  have helig : eligibleFor U zeroThreshold index [line, companion line net] sid net date =
      [line, companion line net] := by
    unfold eligibleFor
    rw [hlines, List.filter_eq_self]
    intro ln hln
    rw [hties ln hln, decide_eq_true rfl, Bool.true_or, Bool.and_true, Bool.and_eq_true, decide_eq_true_eq]
    rcases List.mem_pair.mp hln with rfl | rfl
    · exact ⟨hless, hnear⟩
    · exact ⟨by show net - line.amountPaise < net; omega, hnear⟩
  have hfound : [line, companion line net] ∈
      allSumSubsets [line, companion line net] net splitDriftPaise splitMaxLegs :=
    pair_mem_allSumSubsets (add_sub_cancel line.amountPaise net)
  have hsignals : (signalsByKey U zeroThreshold index [line, companion line net]).get? line.key =
      some ((razorpaySignals U defaultNarrationPack index line).map EvidenceItem.signal) := by
    unfold signalsByKey
    rw [hlines, Dict.get?_gather_last_of_agree]
    · exact ⟨line, List.mem_cons_self, rfl, rfl⟩
    · intro ln hln ln' hln' k hk hk'
      rw [line_ext hnd hln hln' ((Option.some.inj hk).trans (Option.some.inj hk').symm)]
  have hmem : "utr_suffix" ∈
      ((signalsByKey U zeroThreshold index [line, companion line net]).get? line.key).getD [] := by
    rw [hsignals, Option.getD_some, ← hsignal]
    exact List.mem_map_of_mem he
  have hsmall : ∀ sid' net' date', ¬ TooLarge zeroThreshold
      (eligibleFor U zeroThreshold index [line, companion line net] sid' net' date') := by
    intro sid' net' date'
    apply not_tooLarge
    unfold eligibleFor
    rw [hlines]
    exact List.length_filter_le _ _
  have henum : Enumerated U zeroThreshold index [line, companion line net] (splitSettlements index) sid net
      [line, companion line net] := by
    refine ⟨⟨date, hpayable, hsmall _ _ _, by rw [helig]; exact hfound⟩, ?_⟩
    exact List.any_eq_true.mpr ⟨line, List.mem_cons_self, List.any_eq_true.mpr ⟨_, hmem, by decide⟩⟩
  have hgate : ∀ t, zeroThreshold.threshold = some t → t ≤ splitConfidence := by
    rintro t ⟨⟩
    norm_num [splitConfidence]
  have hsplit := (mem_splits hgate).mpr ⟨sid, net, [line, companion line net], henum, rfl, fun k _ hun => by
    rcases mem_unEnumerable.mp hun with hnil | ⟨sid', net', date', _, hlarge, _⟩
    · exact absurd hnil List.not_mem_nil
    · exact hsmall _ _ _ hlarge⟩
  refine ⟨_, hsplit.2, ?_, ?_, rfl, rfl⟩
  · rw [(splitCandidate_keys_perm U zeroThreshold index _ sid net _).mem_iff]
    exact List.mem_cons_self
  · exact mem_splitEvidence List.mem_cons_self (by rw [hsignal]; decide) (by rw [hsignal]; exact hmem) he

end Companion

/-- A credit that nothing is read for is unsplittable, if no split leads it astray. -/
theorem unsplittable_of_targets (hU : U.Documented) {utrs : List String} (hagrees : Agrees index line utrs sid)
    (hcredit : line.isCredit = true)
    (hread : ∀ sid', sid' ∈ suffixSids U index (razorpaySignals U defaultNarrationPack index line) ↔
      Named index utrs sid')
    (he : e ∈ razorpaySignals U defaultNarrationPack index line) (hsignal : e.signal = "utr_suffix")
    (hexact : hasSignal ["utr_exact"] (razorpaySignals U defaultNarrationPack index line) = false)
    (htargets : ∀ lines, line ∈ lines → (lines.map BankCreditLine.key).Nodup → TargetsOf U index line e sid lines) :
    Named index utrs sid ∨ Unsplittable U index line sid := by
  by_contra hnot
  rw [not_or] at hnot
  obtain ⟨hunnamed, hsplittable⟩ := hnot
  unfold Unsplittable at hsplittable
  rw [not_or, not_not] at hsplittable
  obtain ⟨hrails, hlarger⟩ := hsplittable
  simp only [not_forall, Bool.not_eq_false] at hlarger
  obtain ⟨⟨sid', net, date⟩, hpayable, hother, hless, hnear⟩ := hlarger
  have hunread : suffixSids U index (razorpaySignals U defaultNarrationPack index line) = [] := by
    rw [List.eq_nil_iff_forall_not_mem]
    intro sid'' hsid
    -- what is read is not the settlement, so the amount points at both
    have hnamed := (hread sid'').mp hsid
    have hamount := hagrees.named.resolve_left hunnamed
    rcases hagrees.only sid'' hnamed with rfl | hamount'
    · exact hunnamed hnamed
    · exact hunnamed (hamount.unique hamount' ▸ hnamed)
  have hsource : isSplitSource U zeroThreshold index line = true := by
    unfold isSplitSource isGraphCredit
    rw [show zeroThreshold.pack = defaultNarrationPack from rfl, hexact, hrails, hcredit,
      decide_eq_true hagrees.positive]
    rfl
  obtain ⟨c, hc, hkey, hevidence, htarget, hsplit⟩ :=
    exists_split hU hsource hagrees.positive he hsignal hunread hpayable hless hnear
  have hnd : ([line, companion line net].map BankCreditLine.key).Nodup := by
    simp [companion_key_ne line net]
  rcases (htargets _ List.mem_cons_self hnd).only c hc hkey hevidence with heq | ⟨hsingle, _⟩
  · exact hother (htarget.symm.trans heq)
  · rw [hsplit] at hsingle
    cases hsingle

theorem SuffixMatch.no_exact {pack : NarrationEvidencePack} {tok utr how : String}
    (h : SuffixMatch U index line tok utr how) :
    hasSignal ["utr_exact"] (razorpaySignals U pack index line) = false := by
  rw [Bool.eq_false_iff]
  intro htie
  obtain ⟨e, he, hsignal⟩ := List.any_eq_true.mp htie
  obtain ⟨t, ht, _⟩ := utr_exact_signal he (by simpa using hsignal)
  rw [h.unmatched] at ht
  cases ht

/-- The builder reads one UTR at most in the evidence. -/
theorem named_readBack_unique {utr how sid' : String} (h : Named index (readBack U utr how) sid)
    (h' : Named index (readBack U utr how) sid') : sid = sid' := by
  obtain ⟨read, hread, hsid⟩ := h
  obtain ⟨read', hread', hsid'⟩ := h'
  have heq := (Option.mem_toList.mp hread).symm.trans (Option.mem_toList.mp hread')
  rw [Option.some.inj heq, hsid'] at hsid
  exact (Option.some.inj hsid).symm

/-- What the agreement keeps an exact UTR from. -/
theorem targets_of_exact (hindex : index.Reported) (hcredit : line.isCredit = true) {t : String}
    (he : e ∈ razorpaySignals U defaultNarrationPack index line) (hsignal : e.signal = "utr_exact")
    (ht : matchedExact U index line = some t) (h : Agrees index line (quotedUtrs U line) sid) (hline : line ∈ lines)
    (hnd : (lines.map BankCreditLine.key).Nodup) : TargetsOf U index line e sid lines := by
  apply targets_of_agrees (fun sid' => tiePoints_exact_iff hindex hcredit ht) hcredit (Or.inl hsignal) h hline hnd
  -- a credit with an exact UTR is in no split
  intro sid' net date _ heligible
  have hsource := (mem_splitLines (List.mem_filter.mp heligible).1).2.1
  unfold isSplitSource at hsource
  rw [Bool.and_eq_true, Bool.not_eq_true'] at hsource
  have htie : hasSignal ["utr_exact"] (razorpaySignals U defaultNarrationPack index line) = true :=
    List.any_eq_true.mpr ⟨e, he, by simp [hsignal]⟩
  exact absurd (hsource.2.symm.trans htie) Bool.false_ne_true

theorem targets_of_suffix (hU : U.Documented) (hindex : index.Reported) (hcredit : line.isCredit = true)
    {tok utr how : String} (hsignal : e.signal = "utr_suffix") (hmatch : SuffixMatch U index line tok utr how)
    (h : Agrees index line (readBack U utr how) sid)
    (hsplit : Named index (readBack U utr how) sid ∨ Unsplittable U index line sid) (hline : line ∈ lines)
    (hnd : (lines.map BankCreditLine.key).Nodup) : TargetsOf U index line e sid lines := by
  apply targets_of_agrees (fun sid' => tiePoints_suffix_iff hU hindex hcredit hmatch) hcredit (Or.inr hsignal) h hline
    hnd
  intro sid' net date hpayable heligible
  have hread : ∀ {s : String}, s ∈ suffixSids U index (razorpaySignals U defaultNarrationPack index line) ↔
      Named index (readBack U utr how) s := mem_suffixSids_iff _ hU hindex hmatch
  rcases hsplit with hnamed | hrails | hlarger
  · have htied := eligible_tied hnd hline heligible (hread.mpr hnamed)
    exact named_readBack_unique (hread.mp htied) hnamed
  · have hsource := (mem_splitLines (List.mem_filter.mp heligible).1).2.1
    unfold isSplitSource at hsource
    rw [Bool.and_eq_true, Bool.and_eq_true, decide_eq_true_eq] at hsource
    exact absurd hsource.1.2 hrails
  · by_contra hother
    unfold eligibleFor at heligible
    have hok := (List.mem_filter.mp heligible).2
    rw [Bool.and_eq_true, Bool.and_eq_true, decide_eq_true_eq] at hok
    have hfar := hlarger _ hpayable hother hok.1.1
    exact absurd (hfar.symm.trans hok.1.2) Bool.false_ne_true

end Edges

/-- **The edges of a credit target the settlement of its UTR evidence precisely if the builder reads the same UTRs that
    the evidence matched.** -/
theorem utr_targeted_iff (U : Unicode) (hU : U.Documented) (rows : List ReconRow) (line : BankCreditLine)
    (hcredit : line.isCredit = true) :
    UtrTargeted U (ReconIndex.ofRows U rows) line ↔ UtrAgrees U (ReconIndex.ofRows U rows) line := by
  have hindex := reported_ofRows U rows
  constructor
  · intro h
    constructor
    · intro t sid ht hsid
      have hexact : ∃ e ∈ razorpaySignals U defaultNarrationPack (ReconIndex.ofRows U rows) line,
          e.signal = "utr_exact" := by
        have hmem : ∃ e ∈ utrSignals U (ReconIndex.ofRows U rows) line, e.signal = "utr_exact" := by
          unfold utrSignals
          rw [ht]
          exact ⟨_, List.mem_singleton_self _, rfl⟩
        obtain ⟨e, he, hsignal⟩ := hmem
        exact ⟨e, List.mem_append_left _ (List.mem_append_left _ he), hsignal⟩
      obtain ⟨e, he, hsignal⟩ := hexact
      exact agrees_of_targets (fun sid' => tiePoints_exact_iff hindex hcredit ht) he
        (h e _ sid (.exact he hsignal ht) hsid [line] (List.mem_singleton_self line) (List.nodup_singleton _))
    · intro tok utr how sid hmatch hsid
      obtain ⟨he, hsignal⟩ := (hmatch.mem_iff defaultNarrationPack).mpr rfl
      have htargets := h _ utr sid (.suffix he hsignal hmatch) hsid
      have hagrees := agrees_of_targets (fun sid' => tiePoints_suffix_iff hU hindex hcredit hmatch) he
        (htargets [line] (List.mem_singleton_self line) (List.nodup_singleton _))
      exact ⟨hagrees, unsplittable_of_targets hU hagrees hcredit (fun sid' => mem_suffixSids_iff _ hU hindex hmatch)
        he hsignal hmatch.no_exact htargets⟩
  · intro h e utr sid hevidence hsid lines hline hnd
    rcases hevidence with ⟨he, hsignal, ht⟩ | ⟨he, hsignal, hmatch⟩
    · exact targets_of_exact hindex hcredit he hsignal ht (h.exact _ sid ht hsid) hline hnd
    · obtain ⟨hagrees, hsplit⟩ := h.suffix _ utr _ sid hmatch hsid
      exact targets_of_suffix hU hindex hcredit hsignal hmatch hagrees hsplit hline hnd

/-! ### Where they differ -/

/-- The UTR stands behind a label in the bank reference. -/
def labelledCredit : BankCreditLine :=
  { creditLine "k" "NEFT RAZORPAY" 150000 with bankRef := some "UTR/1780498800xp8vma" }

def labelledReport : List ReconRow := [settledRow "pay_1" "S1" (some "1780498800xp8vma") 200000]

theorem utr_targeted_iff_labelled : labelledCredit.isCredit = true ∧
    (UtrTargeted asciiUnicode (ReconIndex.ofRows asciiUnicode labelledReport) labelledCredit ↔
      UtrAgrees asciiUnicode (ReconIndex.ofRows asciiUnicode labelledReport) labelledCredit) :=
  ⟨rfl, utr_targeted_iff asciiUnicode asciiUnicode_documented labelledReport labelledCredit rfl⟩

/-- The UTR of one settlement starts with that of another. -/
def dashedCredit : BankCreditLine := creditLine "k" "NEFT N1234567" 150000

def dashedReport : List ReconRow :=
  [settledRow "pay_1" "S1" (some "HDFC-N1234567") 200000, settledRow "pay_2" "S2" (some "HDFC") 300000]

/-- A UTR with a label has an exact match and no edge. A UTR with a dash is read up to the dash, and the edge that its
    evidence makes is to the settlement of another UTR. -/
theorem utr_not_targeted :
    (¬ UtrTargeted asciiUnicode (ReconIndex.ofRows asciiUnicode labelledReport) labelledCredit ∧
      (buildCandidateGraph asciiUnicode zeroThreshold (ReconIndex.ofRows asciiUnicode labelledReport)
        [labelledCredit]).candidates.map CandidateAssignment.targetId = ["abstain"]) ∧
    ¬ UtrTargeted asciiUnicode (ReconIndex.ofRows asciiUnicode dashedReport) dashedCredit ∧
      (buildCandidateGraph asciiUnicode zeroThreshold (ReconIndex.ofRows asciiUnicode dashedReport)
        [dashedCredit]).candidates.map CandidateAssignment.targetId = ["S2", "abstain"] := by
  have hlabelled : (buildCandidateGraph asciiUnicode zeroThreshold (ReconIndex.ofRows asciiUnicode labelledReport)
      [labelledCredit]).candidates.map CandidateAssignment.targetId = ["abstain"] := by
    decide +kernel
  have hdashed : (buildCandidateGraph asciiUnicode zeroThreshold (ReconIndex.ofRows asciiUnicode dashedReport)
      [dashedCredit]).candidates.map CandidateAssignment.targetId = ["S2", "abstain"] := by
    decide +kernel
  refine ⟨⟨?_, hlabelled⟩, ?_, hdashed⟩
  · intro h
    have hevidence : UtrEvidence asciiUnicode (ReconIndex.ofRows asciiUnicode labelledReport) labelledCredit
        ⟨"utr_exact", "UTR 1780498800xp8vma matches a settlement_utr", 19 / 20⟩
        (asciiUnicode.lower "1780498800xp8vma") :=
      .exact (by decide +kernel) rfl (by decide +kernel)
    obtain ⟨c, hc, _, _, htarget⟩ := (h _ _ "S1" hevidence (by decide +kernel) [labelledCredit]
      (List.mem_singleton_self _) (List.nodup_singleton _)).edge
    have hmem := List.mem_map_of_mem (f := CandidateAssignment.targetId) hc
    rw [hlabelled, htarget] at hmem
    exact absurd hmem (by decide)
  · intro h
    have hmatch : SuffixMatch asciiUnicode (ReconIndex.ofRows asciiUnicode dashedReport) dashedCredit
        "N1234567" "hdfc-n1234567" "value-date" :=
      ⟨by decide +kernel, by decide +kernel⟩
    have hevidence : UtrEvidence asciiUnicode (ReconIndex.ofRows asciiUnicode dashedReport) dashedCredit
        ((SuffixTie.strong "N1234567" "hdfc-n1234567" "value-date").item asciiUnicode) "hdfc-n1234567" :=
      .suffix (by decide +kernel) rfl hmatch
    obtain ⟨c, hc, _, _, htarget⟩ := (h _ _ "S1" hevidence (by decide +kernel) [dashedCredit]
      (List.mem_singleton_self _) (List.nodup_singleton _)).edge
    have hmem := List.mem_map_of_mem (f := CandidateAssignment.targetId) hc
    rw [hdashed, htarget] at hmem
    exact absurd hmem (by decide)

end Untangle
