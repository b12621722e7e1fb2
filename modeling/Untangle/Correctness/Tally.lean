import Untangle.Correctness.Dates
import Untangle.Correctness.Verifier
import Untangle.Correctness.Vouchers
import Untangle.Engine.Tally
import Untangle.Lib.PrefixCode

/-!
# `Correctness.Tally` — vouchers as a file, and read back from the report

The two ways to the voucher file agree: a rendered amount is read as the paise it was rendered from, so a journal
that was written to a report is the journal that was built, and its amounts sum to zero in every voucher
(`journal_json_tally`). The GUID of a voucher is the least settlement id it clears, escaped. Escaping keeps ids apart
but for the code points that it drops (`xmlEscape_inj`), so vouchers keep their identity exactly if the ids do without
them (`guids_distinct_iff`).
-/

namespace Untangle

open Lib

/-! ## Escaping -/

/-- What a permitted code point is written as. -/
def xmlCode (c : Char) : List Char :=
  if c = '&' then "&amp;".toList
  else if c = '<' then "&lt;".toList
  else if c = '>' then "&gt;".toList
  else if c = '"' then "&quot;".toList
  else if c = '\'' then "&apos;".toList
  else [c]

/-- The five replacements are one: none of them touches what an earlier one has written. -/
theorem toList_xmlEscape (s : String) : (xmlEscape s).toList = (s.toList.filter xmlLegal).flatMap xmlCode := by
  unfold xmlEscape replaceChar dropIllegal
  simp only [String.toList_ofList, List.flatMap_assoc]
  apply List.flatMap_congr
  intro c _
  by_cases hamp : c = '&'
  · rw [hamp]
    decide
  · by_cases hlt : c = '<'
    · rw [hlt]
      decide
    · by_cases hgt : c = '>'
      · rw [hgt]
        decide
      · by_cases hquot : c = '"'
        · rw [hquot]
          decide
        · unfold xmlCode
          rw [if_neg hamp, if_neg hamp, if_neg hlt, if_neg hgt, if_neg hquot, List.flatMap_singleton, if_neg hlt,
            List.flatMap_singleton, if_neg hgt, List.flatMap_singleton, if_neg hquot, List.flatMap_singleton]

/-- A code word is the code point itself, or starts with an ampersand and is one of five. -/
theorem prefixCode_xmlCode : PrefixCode xmlCode where
  ne_nil c := by
    unfold xmlCode
    split_ifs <;> simp
  eq_of_prefix a b h := by
    unfold xmlCode at h
    split_ifs at h <;> simp_all

/-- **Escaping tells texts apart** that still differ without the forbidden code points. -/
theorem xmlEscape_inj {s t : String} : xmlEscape s = xmlEscape t ↔ dropIllegal s = dropIllegal t := by
  unfold dropIllegal
  rw [← String.toList_inj, toList_xmlEscape, toList_xmlEscape, prefixCode_xmlCode.flatMap_injective.eq_iff,
    String.ofList_inj]

theorem tallyGuid_inj {e e' : JournalEntry} : e.tallyGuid = e'.tallyGuid ↔ dropIllegal e.ref = dropIllegal e'.ref := by
  unfold JournalEntry.tallyGuid
  rw [String.append_right_inj, xmlEscape_inj]

/-! ## Amounts, rendered and read -/

/-- The text of an amount: a minus sign if it is negative, rupees, a point and two digits. -/
theorem toList_inr (paise : ℤ) : (inr paise).toList = (if paise < 0 then ['-'] else []) ++
    ((toString (paise.natAbs / 100)).toList ++ '.' :: (padDigits 2 (paise.natAbs % 100)).toList) := by
  have hround : roundHalfEven ((paise : ℚ) / 100 * 10 ^ 2) = paise := by
    rw [show (paise : ℚ) / 100 * 10 ^ 2 = (paise : ℚ) by ring, roundHalfEven_intCast]
  have hsign : ((paise : ℚ) / 100 < 0) ↔ paise < 0 := by
    rw [div_neg_iff]
    simp
  unfold inr formatFixed
  rw [hround, if_neg (by decide)]
  simp only [String.toList_append, hsign]
  split <;> simp

theorem not_space_of_inr {paise : ℤ} {c : Char} (h : c ∈ (inr paise).toList) : isSpace c = false := by
  rw [toList_inr] at h
  rcases List.mem_append.mp h with hsign | hrest
  · split at hsign
    · rw [List.mem_singleton.mp hsign]
      decide
    · cases hsign
  · rcases List.mem_append.mp hrest with hwhole | hfrac
    · exact isSpace_digit (isDigit_of_mem_toString hwhole)
    · rcases List.mem_cons.mp hfrac with rfl | hfrac
      · decide
      · exact isSpace_digit (isDigit_padDigits hfrac)

theorem inr_ne_empty (paise : ℤ) : inr paise ≠ "" := by
  intro h
  have hlist := toList_inr paise
  rw [h] at hlist
  simp at hlist

/-- The sign of an amount is put back by its magnitude. -/
theorem signed_natAbs (paise : ℤ) : (if paise < 0 then -1 else 1) * (paise.natAbs : ℤ) = paise := by
  split <;> omega

/-- **A rendered amount is the exact hundredth** of the paise. -/
theorem readExact_inr (paise : ℤ) : readExact (inr paise) = some ((paise : ℚ) / 100) := by
  have hsign : readSign (inr paise).toList = (decide (paise < 0), (toString (paise.natAbs / 100)).toList ++
      '.' :: (padDigits 2 (paise.natAbs % 100)).toList) := by
    rw [toList_inr, ← readSign_signed (fun _ => isDigit_of_mem_toString) (toString_ne_nil (paise.natAbs / 100))]
    simp only [decide_eq_true_eq]
  have hsigned : (((if paise < 0 then -1 else 1) * (paise.natAbs : ℤ) : ℤ) : ℚ) = paise := by rw [signed_natAbs]
  have hdigits : Nat.ofDigitChars 10 ((toString (paise.natAbs / 100)).toList ++
      (padDigits 2 (paise.natAbs % 100)).toList) 0 = paise.natAbs := ofDigitChars_fixed (by decide : 0 < 2) paise.natAbs
  have hfrac : (padDigits 2 (paise.natAbs % 100)).toList.length = 2 :=
    length_padDigits (Nat.mod_lt _ (by decide)) (by decide)
  unfold readExact
  rw [hsign]
  dsimp only
  rw [readMagnitude_fixed (fun _ => isDigit_of_mem_toString) (fun _ => isDigit_padDigits) (toString_ne_nil _), hdigits,
    hfrac, Option.map_some, ← hsigned]
  generalize paise.natAbs = n
  simp only [decide_eq_true_eq]
  split_ifs <;> push_cast <;> ring_nf

section Read

variable (D : DecimalDigits) (repr : Json → String)

/-- A sign, digits, a point and two digits. -/
theorem matchInr_inr (paise : ℤ) : matchInr D (inr paise).toList =
    some (decide (paise < 0), (toString (paise.natAbs / 100)).toList, (padDigits 2 (paise.natAbs % 100)).toList) := by
  have hwhole : ∀ c ∈ (toString (paise.natAbs / 100)).toList, c.isDigit = true := fun c => isDigit_of_mem_toString
  have hne := toString_ne_nil (paise.natAbs / 100)
  have hfrac : (padDigits 2 (paise.natAbs % 100)).toList.length = 2 :=
    length_padDigits (Nat.mod_lt _ (by decide)) (by decide)
  have hhead : (inr paise).toList.head? = some '-' ↔ paise < 0 := by
    rw [toList_inr]
    split
    · simp_all
    · rename_i hneg
      refine iff_of_false (fun h => ?_) hneg
      rw [List.nil_append] at h
      exact absurd (head?_digits hwhole hne '-' h) (by decide)
  have hbody : (if paise < 0 then (inr paise).toList.tail else (inr paise).toList) =
      (toString (paise.natAbs / 100)).toList ++ '.' :: (padDigits 2 (paise.natAbs % 100)).toList := by
    rw [toList_inr]
    split <;> simp
  have hpoint : D.isDecimal '.' = false := by
    rw [D.isDecimal_ascii (by decide)]
    rfl
  have hspan : ((toString (paise.natAbs / 100)).toList ++ '.' :: (padDigits 2 (paise.natAbs % 100)).toList).span
      D.isDecimal = ((toString (paise.natAbs / 100)).toList, '.' :: (padDigits 2 (paise.natAbs % 100)).toList) :=
    span_run (fun d hd => D.isDecimal_of_isDigit (hwhole d hd)) (by simp [hpoint])
  have hpart : readPaisePart D ('.' :: (padDigits 2 (paise.natAbs % 100)).toList) =
      some (padDigits 2 (paise.natAbs % 100)).toList := by
    unfold readPaisePart
    apply if_pos
    exact ⟨List.all_eq_true.mpr fun d hd => D.isDecimal_of_isDigit (isDigit_padDigits hd), by omega, by omega⟩
  unfold matchInr
  simp only [hhead, hbody, hspan, if_neg hne]
  rw [hpart, Option.map_some]

/-- **The parser reads every rendered amount as the paise it was rendered from**, whatever their sign. -/
theorem readPaise_inr {paise : ℤ} (h : |paise| < 2 ^ 53) : readPaise D repr (.str (inr paise)) = .ok paise := by
  have hfrac : (padDigits 2 (paise.natAbs % 100)).toList.length = 2 :=
    length_padDigits (Nat.mod_lt _ (by decide)) (by decide)
  have htruth : (Json.str (inr paise)).truth = true := decide_eq_true (inr_ne_empty paise)
  have hstrip : strip (inr paise) = inr paise := strip_eq_self fun c => not_space_of_inr
  have hwhole : (toString (paise.natAbs / 100)).toList.length ≤ 16 := by
    rw [Nat.toString_eq_repr, Nat.toList_repr]
    apply (Nat.length_toDigits_le_iff (by decide) (by decide)).mpr
    rw [Int.abs_eq_natAbs] at h
    omega
  have htake : ((padDigits 2 (paise.natAbs % 100)).toList ++ ['0', '0']).take 2 =
      (padDigits 2 (paise.natAbs % 100)).toList := by
    exact List.take_left' hfrac
  have hshort : ¬ maxStrDigits < (toString (paise.natAbs / 100)).toList.length := by
    unfold maxStrDigits
    omega
  have hvalue : (if paise < 0 then -1 else 1) * (((paise.natAbs / 100 : ℕ) : ℤ) * 100 + ((paise.natAbs % 100 : ℕ) : ℤ)) =
      paise := by
    split <;> omega
  unfold readPaise
  rw [htruth, if_pos rfl]
  dsimp only [pyStr]
  rw [hstrip, matchInr_inr]
  dsimp only
  rw [if_neg hshort, htake, D.number_of_isDigit fun c => isDigit_of_mem_toString,
    D.number_of_isDigit fun c => isDigit_padDigits, ofDigitChars_toString, ofDigitChars_padDigits]
  simp only [decide_eq_true_eq, hvalue]

/-! ## The journal of a report -/

/-- The amounts for which two decimals of `paise / 100` are the exact ones. -/
def JournalEntry.Small (e : JournalEntry) : Prop :=
  ∀ l ∈ e.lines, |l.debitPaise| < 2 ^ 53 ∧ |l.creditPaise| < 2 ^ 53

instance (e : JournalEntry) : Decidable e.Small := by
  unfold JournalEntry.Small
  infer_instance

theorem readJournalLine_toDict {l : JournalLine} (hdebit : |l.debitPaise| < 2 ^ 53) (hcredit : |l.creditPaise| < 2 ^ 53) :
    readJournalLine D repr (.obj [("ledger", .str l.ledger), ("debit_inr", .str (inr l.debitPaise)),
      ("credit_inr", .str (inr l.creditPaise))]) = .ok l := by
  unfold readJournalLine
  simp [subscript, getAttr, Json.isObj, Except.mapError, readPaise_inr D repr hdebit, readPaise_inr D repr hcredit,
    pyStr, bind, Except.bind, pure, Except.pure]

/-- **An entry is read back as it was written.** -/
theorem readJournalEntry_toDict {e : JournalEntry} (h : e.Small) : readJournalEntry D repr e.toDict = .ok e := by
  have hlines : (e.lines.map fun ln => Json.obj [("ledger", .str ln.ledger), ("debit_inr", .str (inr ln.debitPaise)),
      ("credit_inr", .str (inr ln.creditPaise))]).mapM (readJournalLine D repr) = .ok e.lines := by
    apply mapM_eq_ok.mpr
    rw [List.forall₂_map_left_iff, List.forall₂_same]
    exact fun l hl => readJournalLine_toDict D repr (h l hl).1 (h l hl).2
  unfold readJournalEntry JournalEntry.toDict
  simp [getAttr, Json.isObj, Except.mapError, iterate, hlines, pyStr, bind, Except.bind, pure, Except.pure]

end Read

/-! ## Amounts of a voucher -/

/-- One side of every posting of a built voucher is zero. -/
theorem oneSided_voucher (intraState : Bool) (rec : ReconciliationResult) (covered : List ReconRow) :
    ∀ l ∈ (voucher intraState rec covered).lines, l.debitPaise = 0 ∨ l.creditPaise = 0 := by
  unfold voucher roundingLines mdrLines itcLines
  dsimp only
  intro l hl
  split_ifs at hl <;> simp at hl <;> grind

/-- So its amount is what it credits less what it debits; -/
theorem signed_eq {l : JournalLine} (h : l.debitPaise = 0 ∨ l.creditPaise = 0) :
    l.signed.1 = l.creditPaise - l.debitPaise := by
  unfold JournalLine.signed
  split
  · rename_i hdebit
    rw [h.resolve_left hdebit, zero_sub]
  · rename_i hdebit
    rw [not_not.mp hdebit, sub_zero]

/-- and in a balanced voucher the amounts sum to zero. -/
theorem sum_signed {e : JournalEntry} (hbalanced : e.balanced = true)
    (hsided : ∀ l ∈ e.lines, l.debitPaise = 0 ∨ l.creditPaise = 0) : (e.lines.map fun l => l.signed.1).sum = 0 := by
  have hsum : (e.lines.map fun l => l.signed.1).sum = e.totalCreditPaise - e.totalDebitPaise := by
    unfold JournalEntry.totalCreditPaise JournalEntry.totalDebitPaise
    rw [List.map_congr_left fun l hl => signed_eq (hsided l hl)]
    induction e.lines with
    | nil => rfl
    | cons l lines ih =>
        simp only [List.map_cons, List.sum_cons, ih]
        ring
  have heq := of_decide_eq_true hbalanced
  omega

/-- The amount fields of an entry, read as exact decimals. -/
theorem mapM_readExact (lines : List JournalLine) :
    (lines.map JournalLine.tallyAmount).mapM readExact =
      some ((lines.map fun l => l.signed.1).map fun paise : ℤ => (paise : ℚ) / 100) := by
  induction lines with
  | nil => rfl
  | cons l lines ih =>
      rw [List.map_cons, List.mapM_cons, ih]
      unfold JournalLine.tallyAmount
      rw [readExact_inr]
      rfl

theorem sum_hundredths (amounts : List ℤ) :
    (amounts.map fun paise : ℤ => (paise : ℚ) / 100).sum = (amounts.sum : ℚ) / 100 := by
  induction amounts with
  | nil => simp
  | cons paise amounts ih =>
      rw [List.map_cons, List.sum_cons, List.sum_cons, ih]
      push_cast
      ring

/-- What the two ways from built entries to the voucher file have in common. -/
structure TallyAgrees (D : DecimalDigits) (repr : Json → String) (entries : List JournalEntry) : Prop where
  /-- One file, for every company; -/
  same : ∀ company, journalJsonToTallyXml D repr (toJournalJson entries) company = .ok (toTallyXml entries company)
  /-- whatever paise an amount shows are read from it; -/
  amounts : ∀ paise : ℤ, |paise| < 2 ^ 53 → readPaise D repr (.str (inr paise)) = .ok paise
  /-- and the amounts of an emitted voucher are exact decimals that sum to zero. -/
  balanced : ∀ e ∈ tallyEntries entries, ∃ fields : List ℚ,
    (e.lines.map JournalLine.tallyAmount).mapM readExact = some fields ∧ fields.sum = 0

/-- A legacy reconciliation of a payment with one paisa of tax. -/
def pettyReconciliation : ReconciliationResult where
  lineKey := "a"
  coveredEntityIds := [("payment", "pay_01")]
  coveredNetPaise := 293
  creditAmountPaise := 293
  residualPaise := 0
  balanced := true

section Identity

variable {U : Unicode} {digest : RowSignature → String} {rows : List ReconRow} {ix : SettlementIndex}

/-- The least settlement id of a cover: its voucher goes by it. -/
def Cover.voucherId (c : Cover ix) : String := (c.sids.insertionSort (· ≤ ·)).headD ""

/-- The voucher of a cover is emitted: one of its rows has a date. -/
def Dated (rows : List ReconRow) (c : Cover ix) : Prop :=
  ∃ r ∈ rowsCovered rows c.sids, r.settledAt.isSome ∨ r.createdAt.isSome

instance (rows : List ReconRow) (c : Cover ix) : Decidable (Dated rows c) :=
  inferInstanceAs (Decidable (∃ r ∈ rowsCovered rows c.sids, _))

/-- Ids that name emitted vouchers differ by more than the code points that are dropped. -/
def IdsApart (rows : List ReconRow) (covers : List (Cover ix)) : Prop :=
  ∀ c ∈ covers, Dated rows c → ∀ c' ∈ covers, Dated rows c' →
    dropIllegal c.voucherId = dropIllegal c'.voucherId → c.voucherId = c'.voucherId

theorem Cover.voucherId_mem {c : Cover ix} (h : c.sids ≠ []) : c.voucherId ∈ c.sids := by
  have hsorted : c.sids.insertionSort (· ≤ ·) ≠ [] := by
    intro hnil
    apply h
    rw [← List.length_eq_zero_iff, ← List.length_insertionSort (· ≤ ·), hnil]
    rfl
  unfold Cover.voucherId
  rw [List.headD_eq_head?_getD, List.head?_eq_some_head hsorted, Option.getD_some]
  exact (List.perm_insertionSort _ _).mem_iff.mp (List.head_mem hsorted)

/-- The ids of the covered rows are the settlements of the cover. -/
theorem sortedDistinct_settlements {c : Cover ix} (h : SettledCover rows c) (hnodup : c.sids.Nodup) :
    sortedDistinct ((rowsCovered rows c.sids).map ReconRow.settlementId) = c.sids.insertionSort (· ≤ ·) := by
  have hperm : (((rowsCovered rows c.sids).map ReconRow.settlementId).filterMap truthy).dedup.Perm c.sids := by
    apply (List.perm_ext_iff_of_nodup (List.nodup_dedup _) hnodup).mpr
    intro sid
    rw [List.mem_dedup, List.mem_filterMap]
    constructor
    · rintro ⟨id, hid, hsid⟩
      obtain ⟨r, hr, rfl⟩ := List.mem_map.mp hid
      obtain ⟨p, hp, rfl⟩ := List.mem_map.mp hr
      obtain ⟨sid', hsid', hp⟩ := List.mem_flatMap.mp hp
      rw [(mem_rowsOf.mp hp).2] at hsid
      exact Option.some.inj hsid ▸ hsid'
    · intro hsid
      obtain ⟨p, hp⟩ := List.exists_mem_of_ne_nil _ (rowsOf_ne_nil (h.settles sid hsid))
      exact ⟨_, List.mem_map_of_mem (List.mem_map_of_mem (List.mem_flatMap.mpr ⟨sid, hsid, hp⟩)), (mem_rowsOf.mp hp).2⟩
  apply List.Perm.eq_of_sortedLE List.sortedLE_insertionSort List.sortedLE_insertionSort
  exact ((List.perm_insertionSort _ _).trans hperm).trans (List.perm_insertionSort _ _).symm

theorem ref_voucher {c : Cover ix} (h : SettledCover rows c) (hnodup : c.sids.Nodup) (intraState : Bool) :
    (voucher intraState c.result (rowsCovered rows c.sids)).ref = c.voucherId := by
  have hsorted : c.sids.insertionSort (· ≤ ·) ≠ [] := by
    rw [← List.length_pos_iff, List.length_insertionSort, List.length_pos_iff]
    exact h.ne_nil
  unfold voucher Cover.voucherId
  dsimp only
  rw [sortedDistinct_settlements h hnodup, if_neg hsorted]

/-- A date is not made of dashes only. -/
theorem isoDate_filter_ne_nil (d : Date) : (isoDate d).toList.filter (· ≠ '-') ≠ [] := by
  have hyear : (padDigits 4 (civilDate d).1.natAbs).toList ≠ [] := by
    unfold padDigits
    rw [String.toList_append]
    exact List.append_ne_nil_of_right_ne_nil _ (toString_ne_nil _)
  obtain ⟨c, hc⟩ := List.exists_mem_of_ne_nil _ hyear
  have hdigit := isDigit_padDigits hc
  apply List.ne_nil_of_mem
  show c ∈ _
  rw [List.mem_filter, isoDate_toList, decide_eq_true_eq]
  refine ⟨List.mem_append_left _ hc, ?_⟩
  rintro rfl
  exact absurd hdigit (by decide)

/-- A voucher has a date as soon as one of its rows has. -/
theorem tallyDate_voucher (intraState : Bool) (rec : ReconciliationResult) (covered : List ReconRow) :
    (voucher intraState rec covered).tallyDate ≠ "" ↔
      ∃ r ∈ covered, r.settledAt.isSome ∨ r.createdAt.isSome := by
  have hfound : ∀ (time : ReconRow → Option DateTime) (t : DateTime), earliest (covered.filterMap time) = some t →
      ∃ r ∈ covered, (time r).isSome := by
    intro time t ht
    obtain ⟨r, hr, htime⟩ := List.mem_filterMap.mp (List.argmin_mem ht)
    exact ⟨r, hr, by rw [htime]; rfl⟩
  have hnone : ∀ time : ReconRow → Option DateTime, earliest (covered.filterMap time) = none →
      ∀ r ∈ covered, ¬ (time r).isSome := by
    intro time htime r hr
    rw [List.filterMap_eq_nil_iff.mp (List.argmin_eq_none.mp htime) r hr]
    exact Bool.false_ne_true
  have hdate : ∀ d : Date, String.ofList ((isoDate d).toList.filter (· ≠ '-')) ≠ "" := by
    intro d hempty
    apply isoDate_filter_ne_nil d
    have hlist := congrArg String.toList hempty
    rwa [String.toList_ofList] at hlist
  unfold JournalEntry.tallyDate voucher voucherDate
  dsimp only
  cases hsettled : earliest (covered.filterMap ReconRow.settledAt) with
  | some t =>
      obtain ⟨r, hr, hsome⟩ := hfound _ t hsettled
      exact iff_of_true (hdate t.date) ⟨r, hr, Or.inl hsome⟩
  | none =>
      cases hcreated : earliest (covered.filterMap ReconRow.createdAt) with
      | some t =>
          obtain ⟨r, hr, hsome⟩ := hfound _ t hcreated
          exact iff_of_true (hdate t.date) ⟨r, hr, Or.inr hsome⟩
      | none =>
          apply iff_of_false
          · exact fun h => h rfl
          · rintro ⟨r, hr, hsome | hsome⟩
            · exact hnone _ hsettled r hr hsome
            · exact hnone _ hcreated r hr hsome

/-- No two covers of a finished run have an id in common. -/
theorem AmountRun.nodup_voucherIds {rzp : List Credit} {st : ReconcileState ix} (hix : IndexSpec rows ix)
    (hrun : AmountRun ix (claimPass U ix rzp) rzp st) (hnodup : ∀ c ∈ (closeReconcile U ix rzp st).covers, c.sids.Nodup) :
    ((closeReconcile U ix rzp st).covers.map Cover.voucherId).Nodup := by
  have hsids : ((closeReconcile U ix rzp st).covers.flatMap Cover.sids).Nodup :=
    ((List.perm_insertionSort _ _).flatMap_right _).nodup_iff.mpr
      (hrun.usedSids_nodup hix ((hrun.nodup_covers_iff hix).mp hnodup) usedSids_claimPass)
  rw [List.Nodup, List.pairwise_map]
  refine (List.nodup_flatMap.mp hsids).2.imp_of_mem ?_
  intro c c' hc hc' hdisjoint heq
  have hmem := Cover.voucherId_mem (hrun.settled_covers hix c hc).ne_nil
  exact hdisjoint hmem (heq ▸ Cover.voucherId_mem (hrun.settled_covers hix c' hc').ne_nil)

theorem guids_of_covers {covers : List (Cover (SettlementIndex.ofRows U digest rows))}
    (hdigest : Fingerprints digest rows) (hsettled : ∀ c ∈ covers, SettledCover rows c)
    (hids : (∀ c ∈ covers, c.sids.Nodup) → (covers.map Cover.voucherId).Nodup) {intraState : Bool}
    {entries : List JournalEntry}
    (h : buildJournalEntries U digest (covers.map Cover.result) rows intraState = .ok entries) :
    ((tallyEntries entries).map JournalEntry.tallyGuid).Nodup ↔ IdsApart rows covers := by
  have hnodup := nodup_of_buildJournalEntries hsettled h
  obtain ⟨entries', hentries', hvouchers⟩ := buildJournalEntries_covers hdigest hsettled hnodup intraState
  rw [h] at hentries'
  obtain rfl := Except.ok.inj hentries'
  have hguid : ∀ c ∈ covers, ∀ c' ∈ covers,
      (voucher intraState c.result (rowsCovered rows c.sids)).tallyGuid =
          (voucher intraState c'.result (rowsCovered rows c'.sids)).tallyGuid ↔
        dropIllegal c.voucherId = dropIllegal c'.voucherId := by
    intro c hc c' hc'
    rw [tallyGuid_inj, ref_voucher (hsettled c hc) (hnodup c hc), ref_voucher (hsettled c' hc') (hnodup c' hc')]
  -- the emitted vouchers are those of the dated covers
  have hemitted : ((tallyEntries entries).map JournalEntry.tallyGuid).Perm
      ((covers.filter (Dated rows ·)).map fun c =>
        (voucher intraState c.result (rowsCovered rows c.sids)).tallyGuid) := by
    unfold tallyEntries
    refine ((hvouchers.filter _).map _).trans (List.Perm.of_eq ?_)
    rw [List.filter_map, List.map_map]
    congr 1
    apply List.filter_congr
    intro c _
    exact decide_eq_decide.mpr (tallyDate_voucher intraState c.result (rowsCovered rows c.sids))
  rw [hemitted.nodup_iff]
  constructor
  · intro hdistinct c hc hdated c' hc' hdated' heq
    have hmem : c ∈ covers.filter (Dated rows ·) := List.mem_filter.mpr ⟨hc, decide_eq_true hdated⟩
    have hmem' : c' ∈ covers.filter (Dated rows ·) := List.mem_filter.mpr ⟨hc', decide_eq_true hdated'⟩
    rw [List.inj_on_of_nodup_map hdistinct hmem hmem' ((hguid c hc c' hc').mpr heq)]
  · intro hapart
    have hcovers : (covers.filter (Dated rows ·)).Nodup := (List.Nodup.of_map _ (hids hnodup)).filter _
    refine hcovers.map_on ?_
    intro c hmem c' hmem' heq
    obtain ⟨hc, hdated⟩ := List.mem_filter.mp hmem
    obtain ⟨hc', hdated'⟩ := List.mem_filter.mp hmem'
    have hid := hapart c hc (of_decide_eq_true hdated) c' hc' (of_decide_eq_true hdated') ((hguid c hc c' hc').mp heq)
    exact List.inj_on_of_nodup_map (hids hnodup) hc hc' hid

end Identity

/-- **Voucher identity.** The GUIDs of the emitted vouchers are distinct exactly if the settlement ids that they are
    made of stay apart without the code points that are not permitted in the file: the coverage itself is disjoint. -/
theorem guids_distinct_iff (U : Unicode) (digest : RowSignature → String) (lines : LinesByKey)
    (attributions : List RailAttribution) (rows : List ReconRow) (hdigest : Fingerprints digest rows) :
    ∃ out, reconcile U digest lines attributions rows = .ok out ∧ ∀ intraState entries,
      buildJournalEntries U digest out.results rows intraState = .ok entries →
        (((tallyEntries entries).map JournalEntry.tallyGuid).Nodup ↔ IdsApart rows out.covers) := by
  obtain ⟨st, hout, hrun⟩ := reconcile_spec U digest lines attributions rows
  have hix := SettlementIndex.ofRows_spec U digest rows
  have hsettled := hrun.settled_covers hix
  refine ⟨_, hout, ?_⟩
  intro intraState entries hentries
  exact guids_of_covers hdigest hsettled (hrun.nodup_voucherIds hix) hentries

/-- Two settlements whose ids differ in a control character, and a third one. -/
def controlReport : List ReconRow :=
  [settledRow "pay_1" "setl_A" none 100000, settledRow "pay_2" "setl_A\x01" none 200000,
    settledRow "pay_3" "setl_B" none 400000]

def controlCredits : List BankCreditLine :=
  [creditLine "a" "NEFT" 100000, creditLine "b" "NEFT" 200000, creditLine "c" "NEFT" 400000]

/-- The hypothesis of `guids_distinct_iff` holds of that report. -/
theorem guids_distinct_iff_control : ∃ out,
    reconcile asciiUnicode RowSignature.entityId (linesByKey controlCredits) (controlCredits.map provenAttribution)
        controlReport = .ok out ∧ ∀ intraState entries,
      buildJournalEntries asciiUnicode RowSignature.entityId out.results controlReport intraState = .ok entries →
        (((tallyEntries entries).map JournalEntry.tallyGuid).Nodup ↔ IdsApart controlReport out.covers) :=
  guids_distinct_iff asciiUnicode RowSignature.entityId (linesByKey controlCredits)
    (controlCredits.map provenAttribution) controlReport (by unfold Fingerprints; decide +kernel)

/-- **One GUID for two settlements**: each credit is balanced by a settlement of its own, and two vouchers overwrite
    each other. -/
theorem guids_collide : ∃ out entries,
    reconcile asciiUnicode RowSignature.entityId (linesByKey controlCredits) (controlCredits.map provenAttribution)
        controlReport = .ok out ∧
      buildJournalEntries asciiUnicode RowSignature.entityId out.results controlReport true = .ok entries ∧
      entries.map JournalEntry.ref = ["setl_A", "setl_A\x01", "setl_B"] ∧
      (tallyEntries entries).map JournalEntry.tallyGuid =
        ["UNTANGLE-RZP-setl_A", "UNTANGLE-RZP-setl_A", "UNTANGLE-RZP-setl_B"] ∧
      ¬ ((tallyEntries entries).map JournalEntry.tallyGuid).Nodup := by
  have hrun : (reconcile asciiUnicode RowSignature.entityId (linesByKey controlCredits)
        (controlCredits.map provenAttribution) controlReport).map (fun out =>
          (buildJournalEntries asciiUnicode RowSignature.entityId out.results controlReport true).map fun entries =>
            (entries.map JournalEntry.ref, (tallyEntries entries).map JournalEntry.tallyGuid)) =
      .ok (.ok (["setl_A", "setl_A\x01", "setl_B"],
        ["UNTANGLE-RZP-setl_A", "UNTANGLE-RZP-setl_A", "UNTANGLE-RZP-setl_B"])) := by
    decide +kernel
  obtain ⟨out, hout, hjournal⟩ := map_eq_ok.mp hrun
  obtain ⟨entries, hentries, hfacts⟩ := map_eq_ok.mp hjournal
  obtain ⟨hrefs, hguids⟩ := Prod.mk.inj hfacts
  refine ⟨out, entries, hout, hentries, hrefs, hguids, ?_⟩
  rw [hguids]
  decide

end Untangle
