import Untangle.Correctness.Attribute.Splits
import Untangle.Correctness.Report

/-!
# `Correctness.Attribute.SameReport` — the report in another order

Reordering the recon rows leaves the index with the same lookups and with its lists in another order
(`SameReport`). The signals of a line, the groups of legs and the size of every pool are the same over two such
indexes; what is left that can differ is the order inside the set-sum pool.
-/

namespace Untangle

open Lib

/-! ## The hypotheses on the report -/

/-- All dated rows of a settlement carry the same settled date. -/
def DatesConsistent (rows : List ReconRow) : Prop :=
  ∀ r ∈ rows, ∀ r' ∈ rows, (truthy r.settlementId).isSome → truthy r.settlementId = truthy r'.settlementId →
    r.settledAt.isSome → r'.settledAt.isSome → r.settledAt.map DateTime.date = r'.settledAt.map DateTime.date

instance (rows : List ReconRow) : Decidable (DatesConsistent rows) :=
  inferInstanceAs (Decidable (∀ r ∈ rows, ∀ r' ∈ rows, _ → _ → _ → _ → _))

/-- A UTR, as the index reads it (in lower case), occurs with one settlement id only. -/
def UtrsConsistent (U : Unicode) (rows : List ReconRow) : Prop :=
  ∀ r ∈ rows, ∀ r' ∈ rows, (truthy r.settlementUtr).isSome →
    (truthy r.settlementUtr).map U.lower = (truthy r'.settlementUtr).map U.lower →
    (truthy r.settlementId).isSome → (truthy r'.settlementId).isSome →
    truthy r.settlementId = truthy r'.settlementId

instance (U : Unicode) (rows : List ReconRow) : Decidable (UtrsConsistent U rows) :=
  inferInstanceAs (Decidable (∀ r ∈ rows, ∀ r' ∈ rows, _ → _ → _ → _ → _))

/-! ## The index -/

/-- The same lookups, the lists perhaps in another order. -/
structure SameReport (index index' : ReconIndex) : Prop where
  utrs : index.settlementUtrs.Perm index'.settlementUtrs
  utrToSid : ∀ u, index.utrToSid.get? u = index'.utrToSid.get? u
  nets : index.settlementNet.items.Perm index'.settlementNet.items
  dates : ∀ sid, index.settlementDate.get? sid = index'.settlementDate.get? sid
  singles : ∀ n, Option.Rel List.Perm (index.netToSettlements.get? n) (index'.netToSettlements.get? n)

theorem netBySettlement_perm {rows rows' : List ReconRow} (h : rows.Perm rows') :
    (netBySettlement rows).items.Perm (netBySettlement rows').items := by
  refine Dict.items_perm fun sid => Option.ext fun n => ?_
  rw [get?_netBySettlement, get?_netBySettlement, netOf_eq, netOf_eq,
    ((h.filter _).map ReconRow.netPaise).sum_eq]
  unfold Settles
  simp only [h.mem_iff]

theorem dateBySettlement_perm {rows rows' : List ReconRow} (hdates : DatesConsistent rows)
    (h : rows.Perm rows') (sid : String) :
    (dateBySettlement rows).get? sid = (dateBySettlement rows').get? sid := by
  have hagree : ∀ r ∈ rows, ∀ r' ∈ rows, ∀ k,
      (if r.settledAt.isSome then truthy r.settlementId else none) = some k →
      (if r'.settledAt.isSome then truthy r'.settlementId else none) = some k →
      (r.settledAt.map DateTime.date).getD 0 = (r'.settledAt.map DateTime.date).getD 0 := by
    intro r hr r' hr' k hk hk'
    obtain ⟨hsome, hk⟩ := Option.ite_none_right_eq_some.mp hk
    obtain ⟨hsome', hk'⟩ := Option.ite_none_right_eq_some.mp hk'
    rw [hdates r hr r' hr' (by rw [hk]; rfl) (hk.trans hk'.symm) hsome hsome']
  have hagree' : ∀ r ∈ rows', ∀ r' ∈ rows', ∀ k,
      (if r.settledAt.isSome then truthy r.settlementId else none) = some k →
      (if r'.settledAt.isSome then truthy r'.settlementId else none) = some k →
      (r.settledAt.map DateTime.date).getD 0 = (r'.settledAt.map DateTime.date).getD 0 :=
    fun r hr r' hr' => hagree r (h.mem_iff.mpr hr) r' (h.mem_iff.mpr hr')
  refine Option.ext fun date => ?_
  unfold dateBySettlement
  rw [Dict.get?_gather_last_of_agree _ hagree, Dict.get?_gather_last_of_agree _ hagree']
  simp only [h.mem_iff]

theorem settlementOfUtr_perm {U : Unicode} {rows rows' : List ReconRow} (hutrs : UtrsConsistent U rows)
    (h : rows.Perm rows') (u : String) :
    (settlementOfUtr U rows).get? u = (settlementOfUtr U rows').get? u := by
  have hagree : ∀ r ∈ rows, ∀ r' ∈ rows, ∀ k,
      (if (truthy r.settlementId).isSome then (truthy r.settlementUtr).map U.lower else none) = some k →
      (if (truthy r'.settlementId).isSome then (truthy r'.settlementUtr).map U.lower else none) = some k →
      (truthy r.settlementId).getD "" = (truthy r'.settlementId).getD "" := by
    intro r hr r' hr' k hk hk'
    obtain ⟨hsid, hk⟩ := Option.ite_none_right_eq_some.mp hk
    obtain ⟨hsid', hk'⟩ := Option.ite_none_right_eq_some.mp hk'
    have hsome : (truthy r.settlementUtr).isSome := by
      rw [← Option.isSome_map (f := U.lower), hk]
      rfl
    rw [hutrs r hr r' hr' hsome (hk.trans hk'.symm) hsid hsid']
  have hagree' : ∀ r ∈ rows', ∀ r' ∈ rows', ∀ k,
      (if (truthy r.settlementId).isSome then (truthy r.settlementUtr).map U.lower else none) = some k →
      (if (truthy r'.settlementId).isSome then (truthy r'.settlementUtr).map U.lower else none) = some k →
      (truthy r.settlementId).getD "" = (truthy r'.settlementId).getD "" :=
    fun r hr r' hr' => hagree r (h.mem_iff.mpr hr) r' (h.mem_iff.mpr hr')
  refine Option.ext fun sid => ?_
  unfold settlementOfUtr
  rw [Dict.get?_gather_first_of_agree _ hagree, Dict.get?_gather_first_of_agree _ hagree']
  simp only [h.mem_iff]

theorem settlementsOfNet_perm {nets nets' : Dict String ℤ} (h : nets.items.Perm nets'.items) (n : ℤ) :
    Option.Rel List.Perm ((settlementsOfNet nets).get? n) ((settlementsOfNet nets').get? n) := by
  have hkeys : n ∈ (settlementsOfNet nets).keys ↔ n ∈ (settlementsOfNet nets').keys := by
    unfold settlementsOfNet
    rw [Dict.mem_keys_gather, Dict.mem_keys_gather]
    simp only [h.mem_iff]
  have hlists : (((settlementsOfNet nets).get? n).getD []).Perm
      (((settlementsOfNet nets').get? n).getD []) := by
    rw [getD_settlementsOfNet, getD_settlementsOfNet]
    exact (h.filter _).map _
  rw [Dict.mem_keys_iff, Dict.mem_keys_iff] at hkeys
  cases hget : (settlementsOfNet nets).get? n with
  | none =>
      cases hget' : (settlementsOfNet nets').get? n with
      | none => exact Option.Rel.none
      | some sids' =>
          obtain ⟨v, hv⟩ := hkeys.mpr ⟨sids', hget'⟩
          rw [hget] at hv
          exact absurd hv (by simp)
  | some sids =>
      obtain ⟨sids', hget'⟩ := hkeys.mp ⟨sids, hget⟩
      rw [hget, hget', Option.getD_some, Option.getD_some] at hlists
      rw [hget']
      exact Option.Rel.some hlists

/-- **Reordering the rows** gives the same report. -/
theorem sameReport_ofRows {U : Unicode} {rows rows' : List ReconRow} (hdates : DatesConsistent rows)
    (hutrs : UtrsConsistent U rows) (h : rows.Perm rows') :
    SameReport (ReconIndex.ofRows U rows) (ReconIndex.ofRows U rows') where
  utrs := (h.filterMap _).dedup
  utrToSid := settlementOfUtr_perm hutrs h
  nets := netBySettlement_perm h
  dates := dateBySettlement_perm hdates h
  singles := settlementsOfNet_perm (netBySettlement_perm h)

/-! ## The signals -/

section Signals

variable {U : Unicode} {pack : NarrationEvidencePack} {index index' : ReconIndex}

theorem SameReport.net_get? (h : SameReport index index') (sid : String) :
    index.settlementNet.get? sid = index'.settlementNet.get? sid := Dict.get?_of_items_perm h.nets sid

theorem SameReport.datedWithin (h : SameReport index index') (n : ℤ) (sid : String) (d : Date) :
    datedWithin index.settlementDate n sid d = datedWithin index'.settlementDate n sid d := by
  unfold Untangle.datedWithin
  rw [h.dates sid]

theorem SameReport.utrSuffixMatch (h : SameReport index index') (tok : String) :
    index.utrSuffixMatch U tok = index'.utrSuffixMatch U tok := by
  unfold ReconIndex.utrSuffixMatch
  dsimp only
  split
  · rfl
  · have hperm := h.utrs.filter fun u => endsWith u (U.lower tok) && u ≠ U.lower tok
    revert hperm
    generalize index.settlementUtrs.filter _ = l
    generalize index'.settlementUtrs.filter _ = l'
    intro hperm
    match l, l' with
    | [], l' => rw [List.nil_perm.mp hperm]
    | [u], l' => rw [List.singleton_perm.mp hperm]
    | u :: v :: l, [] => exact absurd hperm.length_eq (by simp)
    | u :: v :: l, [w] => exact absurd hperm.length_eq (by simp)
    | u :: v :: l, w :: x :: l' => rfl

theorem SameReport.suffixScan (h : SameReport index index') (line : BankCreditLine)
    (toks : List String) : ∀ weak : Option SuffixTie,
      suffixScan U index line weak toks = suffixScan U index' line weak toks := by
  induction toks with
  | nil => intro weak; rfl
  | cons tok toks ih =>
      intro weak
      unfold Untangle.suffixScan
      rw [h.utrSuffixMatch tok]
      cases index'.utrSuffixMatch U tok with
      | none => exact ih weak
      | some u =>
          have hnet : index.settlementNet.get? = index'.settlementNet.get? := funext h.net_get?
          have hnear : index.dateNear line = index'.dateNear line :=
            funext fun sid => h.datedWithin evidenceDateWindowDays sid line.valueDate
          dsimp only
          rw [h.utrToSid u, hnet, hnear, ih]

theorem SameReport.matchedExact (h : SameReport index index') (line : BankCreditLine) :
    matchedExact U index line = matchedExact U index' line := by
  have hexact : index.utrExact U = index'.utrExact U := by
    funext tok
    unfold ReconIndex.utrExact
    simp only [h.utrs.mem_iff]
  unfold Untangle.matchedExact
  rw [hexact]

theorem SameReport.amountSignals (h : SameReport index index') (line : BankCreditLine) :
    amountSignals index line = amountSignals index' line := by
  have hnear : index.dateNear line = index'.dateNear line :=
    funext fun sid => h.datedWithin evidenceDateWindowDays sid line.valueDate
  unfold Untangle.amountSignals
  by_cases hcredit : line.isCredit = true
  · rw [if_pos hcredit, if_pos hcredit]
    have hrel := h.singles line.amountPaise
    revert hrel
    generalize index.netToSettlements.get? line.amountPaise = o
    generalize index'.netToSettlements.get? line.amountPaise = o'
    intro hrel
    cases hrel with
    | none => rfl
    | some hperm =>
        dsimp only
        rw [hnear, hperm.length_eq, hperm.any_eq]
  · rw [if_neg hcredit, if_neg hcredit]

/-- **The signals of a line** are those of the report, whatever its order. -/
theorem SameReport.razorpaySignals (U : Unicode) (pack : NarrationEvidencePack)
    (h : SameReport index index') (line : BankCreditLine) :
    razorpaySignals U pack index line = razorpaySignals U pack index' line := by
  unfold Untangle.razorpaySignals utrSignals
  rw [h.matchedExact, h.suffixScan, h.amountSignals]

end Signals

/-! ## The groups of legs -/

section Groups

variable {U : Unicode} {pack : NarrationEvidencePack} {index index' : ReconIndex}
  {cands cands' : List BankCreditLine}

theorem SameReport.payable (h : SameReport index index') {sid : String} {net : ℤ} {date : Date} :
    Payable index sid net date ↔ Payable index' sid net date := by
  constructor
  · intro hpay
    exact ⟨h.net_get? sid ▸ hpay.netIs, hpay.pos, h.dates sid ▸ hpay.dated⟩
  · intro hpay
    exact ⟨(h.net_get? sid).trans hpay.netIs, hpay.pos, (h.dates sid).trans hpay.dated⟩

theorem keySet_perm (h : cands.Perm cands') : keySet cands = keySet cands' :=
  List.toFinset_eq_of_perm _ _ (h.map _)

theorem amountOfKey_perm (hnd : (cands.map BankCreditLine.key).Nodup) (h : cands.Perm cands')
    {key : String} (hkey : key ∈ keySet cands) : amountOfKey cands key = amountOfKey cands' key := by
  obtain ⟨c, hc, rfl⟩ := mem_keySet.mp hkey
  rw [amountOfKey_mem hnd hc, amountOfKey_mem ((h.map _).nodup_iff.mp hnd) (h.mem_iff.mp hc)]

theorem SameReport.isMatch (h : SameReport index index') (hnd : (cands.map BankCreditLine.key).Nodup)
    (hcands : cands.Perm cands') {sid : String} {K : Finset String} (hmatch : IsMatch index cands sid K) :
    IsMatch index' cands' sid K := by
  obtain ⟨net, date, hpay, hle, hmem⟩ := hmatch
  have hperm : (eligibleLegs cands net date).Perm (eligibleLegs cands' net date) := hcands.filter _
  refine ⟨net, date, h.payable.mp hpay, hperm.length_eq ▸ hle, ?_⟩
  rw [← keySet_perm hperm, ← sumSets_congr fun key hkey => amountOfKey_perm hnd hcands ?_]
  · exact hmem
  · obtain ⟨c, hc, hckey⟩ := mem_keySet.mp hkey
    exact mem_keySet.mpr ⟨c, (List.mem_filter.mp hc).1, hckey⟩

theorem SameReport.poisoned (h : SameReport index index') (hcands : cands.Perm cands') {key : String}
    (hp : Poisoned index cands key) : Poisoned index' cands' key := by
  obtain ⟨sid, net, date, hpay, hlarge, hkey⟩ := hp
  have hperm : (eligibleLegs cands net date).Perm (eligibleLegs cands' net date) := hcands.filter _
  exact ⟨sid, net, date, h.payable.mp hpay, hperm.length_eq ▸ hlarge, keySet_perm hperm ▸ hkey⟩

theorem SameReport.symm (h : SameReport index index') : SameReport index' index where
  utrs := h.utrs.symm
  utrToSid u := (h.utrToSid u).symm
  nets := h.nets.symm
  dates sid := (h.dates sid).symm
  singles n := by
    have hrel := h.singles n
    revert hrel
    generalize index.netToSettlements.get? n = o
    generalize index'.netToSettlements.get? n = o'
    intro hrel
    cases hrel with
    | none => exact Option.Rel.none
    | some hperm => exact Option.Rel.some hperm.symm

/-- **The lifted groups** are the same for the candidates in any order. -/
theorem SameReport.liftedGroup (h : SameReport index index')
    (hnd : (cands.map BankCreditLine.key).Nodup) (hcands : cands.Perm cands') {sid : String}
    {K : Finset String} (hgroup : LiftedGroup U pack index cands sid K) :
    LiftedGroup U pack index' cands' sid K where
  isMatch := h.isMatch hnd hcands hgroup.isMatch
  sole K' hK' := hgroup.sole K' (h.symm.isMatch ((hcands.map _).nodup_iff.mp hnd) hcands.symm hK')
  exclusive key hkey sid' K' hK' hkey' :=
    hgroup.exclusive key hkey sid' K' (h.symm.isMatch ((hcands.map _).nodup_iff.mp hnd) hcands.symm hK')
      hkey'
  enumerable key hkey hp := hgroup.enumerable key hkey (h.symm.poisoned hcands.symm hp)
  strong := by
    obtain ⟨c, hc, hkey, hsig⟩ := hgroup.strong
    exact ⟨c, hcands.mem_iff.mp hc, hkey, h.razorpaySignals U pack c ▸ hsig⟩

theorem SameReport.couldBeLeg (h : SameReport index index') {line : BankCreditLine}
    (hleg : CouldBeLeg U pack index line) : CouldBeLeg U pack index' line :=
  ⟨hleg.isCredit, hleg.positive, hleg.noCompetitor, h.razorpaySignals U pack line ▸ hleg.leaning⟩

end Groups

end Untangle
